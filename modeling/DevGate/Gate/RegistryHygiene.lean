import DevGate.Gate.IdMerge
import DevGate.Py.JsonRoundTrip
import DevGate.Py.Lossy
import DevGate.Py.Hmac
import DevGate.Py.Repr

set_option autoImplicit false

/- The failure registry: what `failure_registry_check.check` says of it, and the list
`gate_overlay.resolve_registry` makes of the same files. -/
namespace DevGate.Gate.Hygiene

open Py

/-- The repository an entry belongs to. -/
inductive Owner where
  | devgate
  | project
  deriving DecidableEq

def Owner.label : Owner → Str
  | .devgate => "devgate"
  | .project => "project"

/-- The project's registry file: it may be the bundled one itself. -/
inductive Overlay where
  | absent
  | bundled
  | own (bytes : Bytes)

structure Registries where
  bundled : Option Bytes
  overlay : Overlay
  /-- `_git_cat_file_t` in the owner's repository. -/
  hasCommit : Owner → Str → Bool
  /-- Whether a path exists below the owner's root. -/
  hasPath : Owner → Str → Bool
  printer : Printer

/-! Reading a file. -/

def registryLines (bytes : Bytes) : List Str :=
  (Str.split (Chr.ofChar '\n') (Utf8.readReplace bytes)).map Str.strip

/-- Neither blank nor a comment. -/
def isEntry (line : Str) : Bool := line ≠ [] && !(("#" : Str).isPrefixOf line)

/-- `_load_entries`. -/
def loadEntries (lineno : Nat) : List Str → Except Exc (List Value × List Text)
  | [] => .ok ([], [])
  | line :: rest =>
      if isEntry line then
        match Json.loads line with
        | .ok entry => do
            let later ← loadEntries (lineno + 1) rest
            return (entry :: later.1, later.2)
        | .error e =>
            if e.isA [.jsonDecodeError] then do
              let later ← loadEntries (lineno + 1) rest
              return (later.1,
                (.lit "line " :: .str (.int lineno) :: ": JSON parse error — " :: e.msg) :: later.2)
            else .error e
      else loadEntries (lineno + 1) rest

/-- `_read_jsonl`. -/
def readJsonl : List Str → Except Exc (List Value)
  | [] => .ok []
  | line :: rest =>
      if isEntry line then
        match Json.loads line with
        | .ok entry => do return entry :: (← readJsonl rest)
        | .error e => if e.isA [.jsonDecodeError] then readJsonl rest else .error e
      else readJsonl rest

/-! `check`. -/

/-- An entry of the merged list, with the place it is from. -/
structure Checked where
  entry : Value
  owner : Owner
  lineno : Nat

structure Merge where
  errors : List Text
  merged : List Checked
  index : Dict Key Nat
  seen : List Key

/-- `{label}:line {lineno}`, and what is said of it. -/
def Checked.noted (c : Checked) (what : Text) : Text :=
  .lit c.owner.label :: ":line " :: .str (.int c.lineno) :: what

/-- The body of the merging loop. -/
def mergeEntry (owner : Owner) (m : Merge) (numbered : Value × Nat) : Except Exc Merge := do
  let item : Checked := ⟨numbered.1, owner, numbered.2⟩
  let eid := (← numbered.1.get "failure_id").getD (.str [])
  if eid.truthy then do
    -- every NaN of a JSON text is one object, so an id of it is found again
    let key ← eid.key
    let repeated := m.seen.contains key
    let m := { m with
      errors := if repeated then
          m.errors ++ [item.noted [": duplicate failure_id '", .str eid, "'"]]
        else m.errors
      seen := if repeated then m.seen else key :: m.seen }
    match Dict.get? m.index key with
    | some i => return { m with merged := m.merged.set i item }
    | none => return { m with
        merged := m.merged ++ [item], index := Dict.set m.index key m.merged.length }
  else return { m with
    errors := m.errors ++ [item.noted [": missing or empty failure_id"]]
    merged := m.merged ++ [item] }

/-- One source: a file that does not parse is reported and left out. -/
def mergeSource (state : Merge × Bool) (source : Owner × Bytes) : Except Exc (Merge × Bool) := do
  let loaded ← loadEntries 1 (registryLines source.2)
  let m := { state.1 with
    errors := state.1.errors ++ loaded.2.map (fun e => Frag.lit source.1.label :: ": " :: e)
    seen := [] }
  if loaded.2 ≠ [] then return (m, true)
  else return (← (loaded.1.zipIdx 1).foldlM (mergeEntry source.1) m, state.2)

def sources (r : Registries) (bundled : Bytes) : List (Owner × Bytes) :=
  (.devgate, bundled) :: match r.overlay with
    | .own bytes => [(.project, bytes)]
    | _ => []

def mergeSources (r : Registries) (bundled : Bytes) : Except Exc (Merge × Bool) :=
  (sources r bundled).foldlM mergeSource (⟨[], [], [], []⟩, false)

def requiredFields : List Str :=
  ["failure_id", "timestamp", "category", "severity", "error_message", "root_cause",
    "affected_files", "fix_commit", "regression_pattern", "prevention_rule", "status"]

def validStatuses : List Str := ["active", "resolved", "deprecated"]

def dummyCommits : List Str := ["pending", "a1b2c3d", "0000000"]

/-- `{label}:line {lineno} [{failure_id}]`, and what is said of it. -/
def Checked.reports (c : Checked) (what : Text) : Text :=
  c.noted (" [" :: .str ((c.entry.field? "failure_id").getD (.str "?")) :: "]: " :: what)

def fieldErrors (c : Checked) : Except Exc (List Text) := do
  let eid ← c.entry.get "failure_id"
  let missing := requiredFields.filter (fun field => (c.entry.field? field).isNone)
  if missing = [] then return []
  else return [c.noted [" [", .str (Value.orElse eid (.str "?")), "]: missing field(s): ",
    .lit (Str.join ", " (Str.sorted missing))]]

def statusErrors (c : Checked) : Except Exc (List Text) := do
  let status := (← c.entry.get "status").getD (.str [])
  -- membership in a frozenset hashes the value
  let _ ← status.key
  if validStatuses.any (fun s => status = .str s) then return []
  else return [c.reports ["invalid status '", .str status,
    "' — expected one of ['active', 'deprecated', 'resolved']"]]

def isHex (c : Chr) : Bool := ("0123456789abcdefABCDEF" : Str).contains c

def commitErrors (r : Registries) (c : Checked) : Except Exc (List Text) := do
  match Value.orElse (← c.entry.get "fix_commit") (.str []) with
  | .str text =>
      let fix := Str.strip text
      if fix = [] then return [c.reports ["empty fix_commit"]]
      else if dummyCommits.contains fix then return []
      else if fix.length = 40 ∧ fix.all isHex = true ∧ r.hasCommit c.owner fix = false then
        return [c.reports ["fix_commit '", .lit fix, "' not found in git history of ",
          .lit c.owner.label]]
      else return []
  | other => .error ⟨.attributeError, ["'", other.typeName, "' object has no attribute 'strip'"]⟩

/-- The parts of a comma-joined text. -/
def commaParts (s : Str) : List Str :=
  ((Str.split (Chr.ofChar ',') s).map Str.strip).filter (fun f => f ≠ [])

/-- `_parse_affected_files`. -/
def parseAffectedFiles (p : Printer) : Value → List Str
  | .str s => commaParts s
  | .list vs => vs.flatMap (fun v => commaParts (p.str v))
  | _ => []

def pathWarnings (r : Registries) (c : Checked) : Except Exc (List Text) := do
  let raw ← c.entry.get "affected_files"
  let stale := (parseAffectedFiles r.printer (raw.getD .null)).filter (fun p => !r.hasPath c.owner p)
  return stale.map (fun p => c.reports ["affected_files path not found: '", .lit p,
    "'  (warning — stale entry)"])

/-- One of the loops over the merged list. -/
def perEntry (found : Checked → Except Exc (List Text)) (merged : List Checked) :
    Except Exc (List Text) := do
  return (← merged.mapM found).flatten

/-- `check`, with no explicit path. -/
def check (r : Registries) : Except Exc (Nat × List Text) :=
  match r.bundled with
  | none => .ok (1, [["registry not found"]])
  | some bundled => do
      let state ← mergeSources r bundled
      if state.2 then return (1, state.1.errors)
      else
        let fields ← perEntry fieldErrors state.1.merged
        let statuses ← perEntry statusErrors state.1.merged
        let commits ← perEntry (commitErrors r) state.1.merged
        let warnings ← perEntry (pathWarnings r) state.1.merged
        let errors := state.1.errors ++ fields ++ statuses ++ commits
        return (if errors = [] then 0 else 1, errors ++ warnings)

/-! `resolve_registry`. -/

/-- One entry of `_tag`. -/
def tag (source : Str) (entry : Value) : Except Exc Value :=
  match entry with
  | .dict kvs => .ok (.dict (Dict.set kvs "_source" (.str source)))
  | other => .error ⟨.typeError, ["'", other.typeName, "' object does not support item assignment"]⟩

/-- The owner that an entry's `_source` makes. -/
def sourceOwner (entry : Value) : Owner :=
  if entry.field? "_source" = some (.str "devgate") then .devgate else .project

/-- One entry of `owner_by_id`. -/
def addOwner (owners : Dict Key Owner) (entry : Value) : Except Exc (Dict Key Owner) := do
  let eid := (← entry.get "failure_id").getD .null
  if eid.truthy then return Dict.set owners (← eid.key) (sourceOwner entry) else return owners

def readFile (file : Option Bytes) : Except Exc (List Value) :=
  match file with
  | none => .ok []
  | some bytes => readJsonl (registryLines bytes)

def mergedEntries (r : Registries) : Except Exc (List Value) := do
  let base ← readFile r.bundled
  match r.overlay with
  | .absent => base.mapM (tag "devgate")
  | .bundled => ById.mergeById base (← readFile r.bundled) "failure_id"
  | .own bytes => ById.mergeById base (← readFile (some bytes)) "failure_id"

/-- `e.get("status") in statuses`. -/
def hasStatus (statuses : List Str) (entry : Value) : Bool :=
  statuses.any (fun s => entry.field? "status" = some (.str s))

/-- `resolve_registry`, with no explicit path. -/
def resolveRegistry (r : Registries) (statuses : Option (List Str)) :
    Except Exc (List Value × Dict Key Owner) := do
  let entries ← mergedEntries r
  let owners ← entries.foldlM addOwner []
  match statuses with
  | none => return (entries, owners)
  | some kept =>
      let scanned := entries.filter (hasStatus kept)
      -- the set of ids is built for each item of `owner`, so never where there is none
      if owners = [] then return (scanned, [])
      else
        let ids ← scanned.mapM (fun e => do ((← e.get "failure_id").getD .null).key)
        return (scanned, owners.filter (fun kv => ids.contains kv.1))

end DevGate.Gate.Hygiene
