import DevGate.Coherence.Result
import DevGate.Py.Re
import DevGate.Py.Substring

set_option autoImplicit false

/- hub/coherence/evidence.py: findings are sealed as files named by their content,
under a manifest that is verified later. -/
namespace DevGate.Evidence

open Py Canon
open Result (emit)

def evidenceError : ExcClass := .user "EvidenceError" .runtimeError

def idStart : List Char := "abcdefghijklmnopqrstuvwxyz0123456789".toList

/-- `^[a-z0-9][a-z0-9._-]*$`, matched in full. -/
def assertionIdRe : Re := .seq (.oneOf idStart) (.star true (.oneOf (idStart ++ "._-".toList)))

def nameDigitChars : Nat := 16

/-- A bundle-relative path, resolved; refused where it leaves the bundle. -/
def contained (disk : Disk) (out : Path) (rel : Value) : Except Exc Path :=
  match rel with
  | .str (c :: name) => do
      let root ← disk.resolve out
      let p ← disk.resolve (out.join (c :: name))
      if root.isParent p then .ok p
      else .error ⟨evidenceError, ["evidence-path-out-of-bounds:", .str rel]⟩
  | _ => .error ⟨evidenceError, ["evidence-path-malformed"]⟩

def redacted : Str := "[REDACTED]"

def redactStr (values : List Str) (s : Str) : Str :=
  values.foldl (fun s r => Str.replaceAll r redacted s) s

mutual

def redactValues (values : List Str) : Value → Value
  | .str s => .str (redactStr values s)
  | .list vs => .list (redactList values vs)
  | .dict kvs => .dict (redactPairs values kvs)
  | v => v

def redactList (values : List Str) : List Value → List Value
  | [] => []
  | v :: vs => redactValues values v :: redactList values vs

def redactPairs (values : List Str) : List (Str × Value) → List (Str × Value)
  | [] => []
  | (k, v) :: rest => (k, redactValues values v) :: redactPairs values rest

end

/-- `[r for r in redact if isinstance(r, str) and r]`. -/
def secrets (redact : List Value) : List Str :=
  (redact.filterMap Value.str?).filter (fun r => r ≠ [])

/-- `f"{days}"` of an integer, booleans included; nothing where it is none. -/
def daysText (days : Value) : Option Str :=
  match days with
  | .int n => some (Str.ofInt n)
  | .bool true => some "True"
  | .bool false => some "False"
  | _ => none

/-- `not isinstance(days, int) or days < 0`. -/
def badDays (days : Value) : Bool :=
  match days with
  | .int n => n < 0
  | .bool _ => false
  | _ => true

def checkRetention : List (Str × Value) → Except Exc Unit
  | [] => .ok ()
  | (aid, days) :: rest =>
      if badDays days then
        .error ⟨evidenceError, ["retention-days-must-be-a-non-negative-integer:", aid, "=",
          .repr days]⟩
      else checkRetention rest

def retentionClass (retention : Dict Str Value) (aid : Str) : Str :=
  match (Dict.get? retention aid).bind daysText with
  | some days => "retention:" ++ days ++ "d"
  | none => "standard"

/-- The id that names a file. -/
def checkId (v : Value) : Except Exc Str :=
  match v with
  | .str aid =>
      if assertionIdRe.fullmatch aid then .ok aid
      else .error ⟨evidenceError, ["bad-assertion-id:", .repr v]⟩
  | _ => .error ⟨evidenceError, ["bad-assertion-id:", .repr v]⟩

/-- Minimum disclosure: the fields an object keeps. -/
def disclosed (f : Value) (aid : Str) : Except Exc Value := do
  return .dict [("assertion_id", .str aid), ("finding_key", ← f.item "finding_key"),
    ("subject_locations", ← f.item "subject_locations"), ("expected", ← f.item "expected"),
    ("observed", ← f.item "observed")]

/-- A sealed object: its file, its bytes and its manifest entry. -/
structure Sealed where
  aid : Str
  payload : Bytes
  retentionClass : Str
  deriving DecidableEq

def Sealed.digest (o : Sealed) : Str := Canon.digest .evidenceManifest o.payload

/-- `digest[7:7 + 16]`. -/
def Sealed.mark (o : Sealed) : Str := (o.digest.drop 7).take nameDigitChars

def Sealed.rel (o : Sealed) : Str := "evidence/findings/" ++ o.aid ++ "--" ++ o.mark ++ ".json"

def Sealed.entry (o : Sealed) : Value :=
  .dict [("path", .str o.rel), ("digest", .str o.digest), ("media_type", .str "application/json"),
    ("assertion_id", .str o.aid), ("retention_class", .str o.retentionClass),
    ("redacted", .bool true)]

/-- What one finding is sealed as. -/
def sealOne (values : List Str) (retention : Dict Str Value) (f : Value) : Except Exc Sealed := do
  let aid ← checkId (← f.item "assertion_id")
  let ev := redactValues values (← disclosed f aid)
  let payload ← canon ev
  -- the fail-safe reads the encoded text
  if values.any (fun r => r <:+: Json.dumps ev) then
    .error ⟨evidenceError, ["unredacted-secret-in-sealed-evidence"]⟩
  else return ⟨aid, payload, retentionClass retention aid⟩

def manifestOf (objects : List Sealed) : Value :=
  .dict [("api_version", .str "devgate.spec-coherence.evidence/v1"),
    ("objects", .list (objects.map Sealed.entry))]

/-- An EvidenceError in place of an OSError. -/
def orEvidenceError (body : Act Unit) (what : Text) : Act Unit :=
  body.catching [.osError] (fun e => Act.raise ⟨evidenceError, what ++ Frag.lit ": " :: e.msg⟩)

/-- The loop over the findings. -/
def sealAll (disk : Disk) (out : Path) (values : List Str) (retention : Dict Str Value) :
    List Value → Act (List Sealed)
  | [] => pure []
  | f :: rest => do
      let o ← Act.ofExcept (sealOne values retention f)
      let _ ← Act.ofExcept (contained disk out (.str o.rel))
      orEvidenceError (emit (out.join o.rel) o.payload) ["cannot seal evidence ", o.rel]
      return o :: (← sealAll disk out values retention rest)

/-- `seal`: the `evidence_refs` of each finding, and the manifest digest. -/
def sealFindings (disk : Disk) (findings : List Value) (outputDir : Str) (redact : List Value)
    (retention : Dict Str Value) : Act (List Str × Str) := do
  let out := Path.ofStr outputDir
  orEvidenceError Act.mkdir ["cannot create evidence directory ", outputDir]
  Act.ofExcept (checkRetention retention)
  let objects ← sealAll disk out (secrets redact) retention findings
  let manifest := manifestOf objects
  let digest ← Act.ofExcept (digestObj .evidenceManifest manifest)
  let payload ← Act.ofExcept (canon manifest)
  orEvidenceError (emit (out.join "evidence-manifest.json") payload)
    ["cannot seal evidence manifest"]
  return (objects.map Sealed.rel, digest)

/-- One entry of the manifest, against the file it lists. -/
def verifyObject (disk : Disk) (out : Path) (entry : Value) : Except Exc Bool := do
  let path ← entry.get "path"
  match contained disk out (path.getD .null) with
  | .error e => if e.isA [evidenceError] then .ok false else .error e
  | .ok fp =>
      if disk.isFile fp then do
        let bytes ← disk.read fp
        let recorded ← entry.item "digest"
        return Value.eq (.str (digest .evidenceManifest bytes)) recorded
      else .ok false

def verifyObjects (disk : Disk) (out : Path) : List Value → Except Exc Bool
  | [] => .ok true
  | entry :: rest => do
      if ← verifyObject disk out entry then verifyObjects disk out rest else .ok false

/-- The manifest document; nothing where it cannot be read. -/
def loadManifest (disk : Disk) (out : Path) : Except Exc (Option Value) :=
  match (do Json.loadText (← disk.read (out.join "evidence-manifest.json"))) with
  | .ok manifest => .ok (some manifest)
  | .error e => if e.isA [.osError, .jsonDecodeError] then .ok none else .error e

def verify (disk : Disk) (outputDir : Str) (expected : Str) : Except Exc Bool := do
  let out := Path.ofStr outputDir
  if disk.exists_ (out.join "evidence-manifest.json") then
    match ← loadManifest disk out with
    | none => .ok false
    | some manifest => do
        let objects ← ((← manifest.get "objects").getD (.list [])).iter
        if ← verifyObjects disk out objects then
          return (← digestObj .evidenceManifest manifest) = expected
        else .ok false
  else .ok false

end DevGate.Evidence
