import DevGate.Gate.TraceTotals

set_option autoImplicit false

/- scripts/findings_to_spec.py: requirement blocks for findings, appended to the spec files. -/
namespace DevGate.Gate.Scaffold

open Py
open Traceability (idRe reqId)

/-- `[A-Za-z0-9_]`. -/
def asciiWord (c : Chr) : Bool :=
  (48 ≤ c.val && c.val ≤ 57) || (65 ≤ c.val && c.val ≤ 90) || c.val == 95 || (97 ≤ c.val && c.val ≤ 122)

/-- `str.lower`, `str.title` and `\w`. -/
structure Chars where
  lower : Str → Str
  title : Str → Str
  isWord : Chr → Bool
  ascii : ∀ c : Chr, c.val < 128 → isWord c = asciiWord c

inductive Origin where
  | registry
  | scan
  deriving DecidableEq

def Origin.name : Origin → Str
  | .registry => "registry"
  | .scan => "scan"

/-- A finding of the registry, or of a scan with the lines of its hits; none is without an id. -/
structure Finding where
  origin : Origin
  sourceId : Str
  category : Str
  severity : Str
  title : Str
  rootCause : Str
  prevention : Str
  status : Str
  files : List Str
  lines : List Str
  named : sourceId ≠ []

/-- `(f["origin"], f["source_id"])`. -/
def Finding.key (f : Finding) : Str × Str := (f.origin.name, f.sourceId)

def dash : Chr := '-'

/-- The backtick. -/
def tick : Chr := ⟨96, by decide⟩

/-- `[a-z0-9]`. -/
def inSlug (c : Chr) : Bool := (97 ≤ c.val && c.val ≤ 122) || (48 ≤ c.val && c.val ≤ 57)

/-- `re.sub(r"[^a-z0-9]+", "-", s)`; the flag says that a run has been replaced. -/
def dashed : Bool → Str → Str
  | _, [] => []
  | inRun, c :: s =>
      if inSlug c then c :: dashed false s
      else if inRun then dashed true s else dash :: dashed true s

/-- `s.rstrip(c)`. -/
def rstrip (c : Chr) (s : Str) : Str := (s.reverse.dropWhile (fun d => d == c)).reverse

/-- `slug`. -/
def slug (u : Chars) (text : Str) (maxLen : Nat) : Str :=
  let s := rstrip dash ((dashed false (u.lower text)).dropWhile (fun d => d == dash))
  rstrip dash (s.take maxLen)

/-- The sentence of a requirement. -/
def shall (u : Chars) (f : Finding) : Str :=
  let shall := rstrip (Chr.ofChar '.') f.title
  if ("the " : Str).isPrefixOf (u.lower shall) then shall
  else "The system shall prevent: " ++ shall

/-- The lines of a block above its provenance. -/
def heading (u : Chars) (f : Finding) (rid : Str) : List Str :=
  ["### Requirement: " ++ f.title.take 80, "<!-- id: " ++ rid ++ " -->", shall u f ++ "."]

/-- The start of a provenance line, which the next run looks for. -/
def provenance (f : Finding) : Str :=
  "_(origin: " ++ f.origin.name ++ " `" ++ f.sourceId ++ "`,"

def affected (f : Finding) : Str :=
  let hits := f.lines.map (fun ln => ("L" : Str) ++ ln)
  let suffix : Str := if f.lines = [] then [] else " (current hits: " ++ Str.join ", " hits ++ ")"
  "Affected code: " ++ Str.join ", " (f.files.map (fun p => ("`" : Str) ++ p ++ "`")) ++ suffix

/-- What a finding has more to say. -/
def notes (f : Finding) : List Str :=
  (if f.rootCause = [] then [] else ["Root cause: " ++ f.rootCause]) ++
    (if f.prevention = [] then [] else ["Prevention rule: " ++ f.prevention]) ++
    (if f.files = [] then [] else [affected f])

def scenario : List Str :=
  [[], "#### Scenario: regression attempt",
    "- **WHEN** the pattern behind this requirement is reintroduced",
    "- **THEN** the guardrails/registry gate fails the commit", []]

def instruction (rid : Str) : List Str :=
  ["> Implement, then mark the enforcing source with `// spec: " ++ rid ++ "`",
    "> so spec_traceability.py counts it covered.", []]

/-- The lines of a block from its provenance line on. -/
def details (f : Finding) (rid : Str) : List Str :=
  (provenance f ++ (" severity " ++ f.severity ++ ", status " ++ f.status ++ ")_")) ::
    (notes f ++ scenario ++ instruction rid)

/-- `render_requirement`. -/
def renderRequirement (u : Chars) (f : Finding) (rid : Str) : Str :=
  Str.join "\n" (heading u f rid ++ details f rid) ++ "\n"

/-- `ORIGIN_LINE`, both groups as one with what stands between them. -/
def originLine (u : Chars) : Re :=
  .seq (.word "_(origin: ".toList) <|
  .seq (.group (.seq (.plus true (.chr u.isWord)) <| .seq (.word " `".toList)
    (.plus true (.chr (fun c => c != tick))))) (.word "`,".toList)

/-- The two groups: the first one holds no blank. -/
def groups (hit : Str) : Str × Str :=
  (hit.takeWhile (fun c => c != Chr.ofChar ' '), (hit.dropWhile (fun c => c != Chr.ofChar ' ')).drop 2)

/-- `ORIGIN_LINE.findall`. -/
def origins (u : Chars) (text : Str) : List (Str × Str) := ((originLine u).findall text).map groups

/-- The text of a spec file, as it is read. -/
def textOf (spec : Option Str) : Str := Utf8.newlines false (spec.getD [])

/-- `existing_state`, its sets as lists; a file that is missing has no text. -/
def existingState (u : Chars) (spec : Option Str) : List Str × List (Str × Str) :=
  if spec.isNone then ([], []) else (reqId.findall (textOf spec), origins u (textOf spec))

/-- `f"{stem}-{n}"` for the first `n` from here on that gives no id in use. -/
def numbered (haveIds : List Str) (stem : Str) : Nat → Nat → Str
  | 0, n => stem ++ "-" ++ Str.ofNat n
  | fuel + 1, n =>
      if stem ++ "-" ++ Str.ofNat n ∈ haveIds then numbered haveIds stem fuel (n + 1)
      else stem ++ "-" ++ Str.ofNat n

/-- The id of a new requirement; the loop ends before it has counted all ids in use. -/
def freeId (haveIds : List Str) (stem : Str) : Str :=
  if stem ∈ haveIds then numbered haveIds stem haveIds.length 2 else stem

/-- The loop over the findings of a capability: each new one with its id. -/
def newBlocks (u : Chars) (cap : Str) :
    List Str → List (Str × Str) → List Finding → List (Finding × Str)
  | _, _, [] => []
  | haveIds, covered, f :: fs =>
      if f.key ∈ covered then newBlocks u cap haveIds covered fs
      else
        let rid := freeId haveIds (slug u cap 20 ++ "-" ++ slug u f.sourceId 40)
        (f, rid) :: newBlocks u cap (rid :: haveIds) (f.key :: covered) fs

/-- `args.capability or f["category"] or "general"`. -/
def capOf (capability : Option Str) (f : Finding) : Str :=
  if capability.getD [] ≠ [] then capability.getD []
  else if f.category ≠ [] then f.category else "general"

/-- `by_cap`. -/
def byCap (capability : Option Str) (findings : List Finding) : Dict Str (List Finding) :=
  findings.foldl (fun d f =>
    Dict.set d (capOf capability f) ((Dict.get? d (capOf capability f)).getD [] ++ [f])) []

/-- One requirement for each origin and id. -/
def distinct (fs : List Finding) : List Finding :=
  (Dict.ofPairs (fs.map (fun f => (f.key, f)))).map Prod.snd

/-- Registry first, then by id. -/
def findingLe (a b : Finding) : Bool :=
  if a.origin = b.origin then Str.le a.sourceId b.sourceId else a.origin = .registry

def header (u : Chars) (cap : Str) : Str :=
  "# " ++ u.title (cap.map (fun c => if c = dash then Chr.ofChar ' ' else c)) ++ "\n\n" ++
    "Status: Proposed. Auto-seeded from gate findings by findings_to_spec.py;\n" ++
    "edit freely — re-runs only append findings that have no requirement yet.\n\n" ++
    "## Requirements\n\n"

/-- What is appended to a spec file. -/
def appended (u : Chars) (cap : Str) (spec : Option Str) (blocks : List (Finding × Str)) : Str :=
  (if spec.isSome then [] else header u cap) ++
    Str.join "\n" (blocks.map (fun b => renderRequirement u b.1 b.2))

def unicodeEncodeError : ExcClass := .user "UnicodeEncodeError" .valueError

variable {κ : Type} [DecidableEq κ]

/-- The spec file of a capability, and what making its directory, opening it and naming it
relative to the root raise. -/
structure Dirs (κ : Type) where
  place : Str → κ
  made : Str → Except Exc Unit

/-- A requirement block that a run appends. -/
structure Block (κ : Type) where
  place : κ
  finding : Finding
  reqId : Str

/-- The spec files, and the blocks that have been appended. -/
structure State (κ : Type) where
  files : κ → Option Str
  log : List (Block κ)

/-- The new blocks of a capability. -/
def fresh (u : Chars) (dirs : Dirs κ) (files : κ → Option Str) (cap : Str) (fs : List Finding) :
    List (Finding × Str) :=
  let state := existingState u (files (dirs.place cap))
  newBlocks u cap state.1 state.2 ((distinct fs).insertionSort (fun a b => findingLe a b = true))

/-- The body of the loop over the capabilities. -/
def turn (u : Chars) (dirs : Dirs κ) (s : State κ) (group : Str × List Finding) :
    Except Exc (State κ) :=
  let place := dirs.place group.1
  let blocks := fresh u dirs s.files group.1 group.2
  if blocks.isEmpty then .ok s
  else do
    dirs.made group.1
    let text := appended u group.1 (s.files place) blocks
    if text.any Chr.isSurrogate then
      .error ⟨unicodeEncodeError, ["surrogates not allowed"]⟩
    else
      return { files := Function.update s.files place (some ((s.files place).getD [] ++ text))
               log := s.log ++ blocks.map (fun b => ⟨place, b.1, b.2⟩) }

/-- `main`, where it writes. -/
def run (u : Chars) (dirs : Dirs κ) (capability : Option Str) (findings : List Finding)
    (files : κ → Option Str) : Except Exc (State κ) :=
  (Json.sortKeys (byCap capability findings)).foldlM (turn u dirs) ⟨files, []⟩

end DevGate.Gate.Scaffold
