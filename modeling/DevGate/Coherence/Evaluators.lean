import DevGate.Coherence.Assertion

set_option autoImplicit false

/- hub/coherence/evaluators.py: the built-in evaluators. The package is the
resolved package document; the subject tree is what the file system answers. -/
namespace DevGate

open Py

inductive Outcome where
  | satisfied
  | violated
  | unresolved
  deriving DecidableEq

inductive Enforcement where
  | advisory
  | exceptionAdvisory
  | block
  deriving DecidableEq

def Enforcement.name : Enforcement → Str
  | .advisory => "ADVISORY"
  | .exceptionAdvisory => "EXCEPTION-ADVISORY"
  | .block => "BLOCK"

/-- `_ENFORCEMENT_ORDER`. -/
def Enforcement.rank : Enforcement → Nat
  | .advisory => 0
  | .exceptionAdvisory => 1
  | .block => 2

/-- A finding, with the fields the adoption ladder writes. -/
structure Finding where
  assertionId : Str
  findingKey : Str
  violationClass : Option Str
  outcome : Outcome
  enforcement : Enforcement
  severity : Severity
  subjectLocations : List Str
  expected : Text
  observed : Text
  fingerprint : Option Str := none
  exceptionId : Option Str := none
  reason : Option Str := none
  deriving DecidableEq

/-- One path under the subject root, as `rglob("*")` yields it. -/
structure TreeEntry where
  parts : List Str
  isFile : Bool
  text : Except Exc Str

structure SubjectTree where
  root : Str
  isDir : Bool
  /-- `(root / path)`: nothing where it does not exist, else `read_text`. -/
  text : Str → Except Exc (Option Str)
  entries : List TreeEntry

namespace Evaluators

abbrev Package := Dict Str Value

def unresolved : ExcClass := .user "Unresolved" .exception

def walk : Value → List Str → Value
  | v, [] => v
  | .dict kvs, part :: rest =>
      match Dict.get? kvs part with
      | some v => walk v rest
      | none => .null
  | _, _ :: _ => .null

/-- `_dig(obj, ref)`. -/
def dig (obj ref : Value) : Except Exc Value :=
  if ref.truthy = false then .ok .null
  else match ref with
    | .str s =>
        let last := (Str.split (Chr.ofChar ':') s).getLastD []
        .ok (walk obj (Str.split (Chr.ofChar '.') last))
    | other =>
        .error ⟨.attributeError, ["'", other.typeName, "' object has no attribute 'split'"]⟩

/-- `^#\s*(?:product|name)\s*[:=]\s*(.+?)\s*$`, IGNORECASE and MULTILINE. -/
def identityRe : Re :=
  .seq .bol <| .seq (.char '#') <| .seq (.star true .space) <|
  .seq (.alt (.wordIgnoreCase "product".toList) (.wordIgnoreCase "name".toList)) <|
  .seq (.star true .space) <| .seq (.oneOf [':', '=']) <| .seq (.star true .space) <|
  .seq (.group (.plus false .dot)) <| .seq (.star true .space) .eol

/-- `_extract`: null where the selector resolves to nothing. -/
def extract (package : Package) (tree : SubjectTree) (sel : Selector) : Except Exc Value :=
  match sel.kind with
  | .artifactMetadata => dig (.dict package) (.str (sel.selector.getD []))
  | .file =>
      match sel.path with
      | none => .ok .null
      | some [] => .ok .null
      | some path => do
          match ← tree.text path with
          | none => .ok .null
          | some text =>
              match identityRe.search text with
              | some name => .ok (.str name)
              | none => .ok .null
  | _ => .ok .null

/-- `a or b`, on optional strings. -/
def orElse (a : Option Str) (b : Str) : Str :=
  match a with
  | some (c :: rest) => c :: rest
  | _ => b

def loc (sel : Selector) : Str := orElse sel.path (orElse sel.selector "?")

def mk (a : Assertion) (violationClass : Str) (expected observed : Text)
    (locations : List Str := []) : Finding :=
  let locs := if locations ≠ [] then locations else a.subjects.map loc
  { assertionId := a.id
    findingKey := Str.join [Chr.ofChar '|'] [a.id, locs.headD "?", violationClass]
    violationClass := some violationClass
    outcome := .violated
    enforcement := .block
    severity := a.severity
    subjectLocations := locs
    expected := expected
    observed := observed }

/-- `_dig(package, approved_ref) if approved_ref else None`, refused where null. -/
def approvedValue (package : Package) (a : Assertion) : Except Exc Value := do
  let ref := (Dict.get? a.parameters "approved_value_ref").getD .null
  let approved ← dig (.dict package) ref
  if approved = .null then .error ⟨unresolved, ["approved-value-missing:", .str ref]⟩
  else .ok approved

def identityFindings (package : Package) (tree : SubjectTree) (a : Assertion) (approved : Value) :
    List Selector → Except Exc (List Finding)
  | [] => .ok []
  | sel :: rest => do
      let observed ← extract package tree sel
      if observed = .null then .error ⟨unresolved, ["selector-empty:", loc sel]⟩
      else
        let found := if observed.eq approved then []
          else [mk a "identity-mismatch" [.str approved] [.str observed] [loc sel]]
        return found ++ (← identityFindings package tree a approved rest)

def identityConsistency (package : Package) (tree : SubjectTree) (a : Assertion) :
    Except Exc (List Finding) := do
  let approved ← approvedValue package a
  identityFindings package tree a approved a.subjects

/-- `reqs.items()`. -/
def items (v : Value) : Except Exc (List (Str × Value)) :=
  match v with
  | .dict kvs => .ok kvs
  | other => .error ⟨.attributeError, ["'", other.typeName, "' object has no attribute 'items'"]⟩

def isTruthy (v : Option Value) : Bool := (v.getD .null).truthy

/-- A testable requirement no assertion is registered for. -/
def orphanFinding (a : Assertion) (rid : Str) (data : Value) : Except Exc (List Finding) := do
  let testable ← data.get "testable"
  if isTruthy testable then
    let ids ← data.get "assertion_ids"
    .ok (if isTruthy ids then []
      else [mk a "orphan-requirement" ["an assertion"] ["requirement ", rid, " untestable"]])
  else .ok []

def orphanFindings (a : Assertion) : List (Str × Value) → Except Exc (List Finding)
  | [] => .ok []
  | (rid, data) :: rest => do
      return (← orphanFinding a rid data) ++ (← orphanFindings a rest)

def unmarkedFindings (a : Assertion) (marked : List Str) :
    List (Str × Value) → Except Exc (List Finding)
  | [] => .ok []
  | (rid, data) :: rest => do
      let testable ← data.get "testable"
      let found := if isTruthy testable && rid ∉ marked then
          [mk a "unmarked-requirement"
            ["\x60// spec: ", rid, "\x60 or \x60# spec: ", rid, "\x60 in subject source"]
            ["no marker in subject tree"] [rid]]
        else []
      return found ++ (← unmarkedFindings a marked rest)

def markerChar : Re := .oneOf ("abcdefghijklmnopqrstuvwxyz0123456789-".toList)

def markerIdRe : Re := .plus true markerChar

def blanks : Re := .star true (.oneOf [' ', '\t'])

/-- `(?://|#)\s*spec:[ \t]*([a-z0-9-]+(?:[ \t]*,[ \t]*[a-z0-9-]+)*)`. -/
def markerRe : Re :=
  .seq (.alt (.word "//".toList) (.char '#')) <| .seq (.star true .space) <|
  .seq (.word "spec:".toList) <| .seq blanks <|
  .group (.seq markerIdRe (.star true
    (.seq blanks <| .seq (.char ',') <| .seq blanks markerIdRe)))

def markerExts : List Str := [".rs", ".py", ".mjs", ".js", ".ts", ".sh", ".zig"]

def markerSkip : List Str := ["target", "node_modules", ".git", "openspec", ".devgate"]

/-- `PurePath.suffix` of a final component. -/
def suffix (name : Str) : Str :=
  let last := (Str.split (Chr.ofChar '.') name).getLastD []
  if last = [] ∨ name.length ≤ last.length + 1 then [] else Chr.ofChar '.' :: last

def entryMarkers (entry : TreeEntry) : Except Exc (List Str) :=
  if entry.isFile = false ∨ suffix (entry.parts.getLastD []) ∉ markerExts then .ok []
  else if entry.parts.any (fun part => part ∈ markerSkip) then .ok []
  else match entry.text with
    | .ok text => .ok ((markerRe.findall text).flatMap markerIdRe.findall)
    | .error e => if e.isA [.osError] then .ok [] else .error e

/-- `_source_markers`. -/
def sourceMarkers (tree : SubjectTree) : Except Exc (List Str) :=
  if tree.isDir = false then .error ⟨unresolved, ["subject-root-missing:", tree.root]⟩
  else do return (← tree.entries.mapM entryMarkers).flatten

def requirements (package : Package) : Value :=
  let reqs := (Dict.get? package "normative_requirements").getD .null
  if reqs.truthy then reqs else .dict []

def traceabilityCompleteness (package : Package) (tree : SubjectTree) (a : Assertion) :
    Except Exc (List Finding) := do
  let reqs ← items (requirements package)
  let orphans ← orphanFindings a reqs
  if isTruthy (Dict.get? a.parameters "marker_scan") then
    let marked ← sourceMarkers tree
    return orphans ++ (← unmarkedFindings a marked reqs)
  else return orphans

def releaseClaimConsistency (package : Package) (a : Assertion) : Except Exc (List Finding) :=
  match (Dict.get? package "release_manifest").getD .null with
  | .null => .ok [mk a "selector-empty" ["release manifest"] ["none in package"]]
  | manifest => do
      let inner := (← manifest.get "payload_digest").getD .null
      let outer := (← manifest.get "subject_digest").getD .null
      return if outer.truthy && outer.eq inner then
        [mk a "self-referential-release" ["inner payload digest distinct from subject"]
          ["manifest claims digest of bundle containing it"]]
      else []

/-- The captured fact a selector names, and the field the assertion compares. -/
def capturedValue (facts : Dict Str Value) (field : Value) (sel : Selector) : Except Exc Value := do
  let fact := (sel.factId.bind (Dict.get? facts)).getD .null
  if fact = .null then
    .error ⟨unresolved, ["captured-fact-missing:", .str ((sel.factId.map Value.str).getD .null)]⟩
  else do
    let observed ← if fact.isDict then dig fact field else .ok .null
    if observed = .null then .error ⟨unresolved, ["captured-fact-field-empty:", .str field]⟩
    else .ok observed

def capturedFindings (facts : Dict Str Value) (field : Value) (a : Assertion) (approved : Value) :
    List Selector → Except Exc (List Finding)
  | [] => .ok []
  | sel :: rest =>
      if sel.kind ≠ .capturedFact then capturedFindings facts field a approved rest
      else do
        let observed ← capturedValue facts field sel
        let found := if observed.eq approved then []
          else [mk a "captured-fact-mismatch" [.str approved] [.str observed] [loc sel]]
        return found ++ (← capturedFindings facts field a approved rest)

def capturedFactConsistency (package : Package) (a : Assertion) (facts : Dict Str Value) :
    Except Exc (List Finding) := do
  let approved ← approvedValue package a
  let field := (Dict.get? a.parameters "response_field").getD (.str "value")
  capturedFindings facts field a approved a.subjects

/-- What an evaluator computes from an assertion and the facts it declared. -/
abbrev Behaviour := Assertion → Dict Str Value → Except Exc (List Finding)

inductive Builtin where
  | identityConsistency
  | traceabilityCompleteness
  | releaseClaimConsistency
  | capturedFactConsistency
  deriving DecidableEq

def Builtin.id : Builtin → Str
  | .identityConsistency => "devgate.builtin.identity-consistency"
  | .traceabilityCompleteness => "devgate.builtin.traceability-completeness"
  | .releaseClaimConsistency => "devgate.builtin.release-claim-consistency"
  | .capturedFactConsistency => "devgate.builtin.captured-fact-consistency"

def Builtin.all : List Builtin :=
  [.identityConsistency, .traceabilityCompleteness, .releaseClaimConsistency,
    .capturedFactConsistency]

/-- `BUILTINS.get(eid)`, as a key of the table. -/
def Builtin.ofId? (eid : Str) : Option Builtin := Builtin.all.find? (fun b => b.id = eid)

/-- `BUILTINS`, over one package and subject tree. -/
def builtins (package : Package) (tree : SubjectTree) : Builtin → Behaviour
  | .identityConsistency => fun a _ => identityConsistency package tree a
  | .traceabilityCompleteness => fun a _ => traceabilityCompleteness package tree a
  | .releaseClaimConsistency => fun a _ => releaseClaimConsistency package a
  | .capturedFactConsistency => fun a facts => capturedFactConsistency package a facts

end Evaluators

end DevGate
