import DevGate.Coherence.Canon
import DevGate.Py.Base64
import DevGate.Py.Disk
import DevGate.Py.Number
import DevGate.Py.Order

set_option autoImplicit false

/- hub/coherence/cache.py: results kept under the complete bound identity, and the
lookups that reuse them. -/
namespace DevGate.Cache

open Py Canon

/-- `_COMPONENTS`. -/
def components : List Str :=
  ["subject_digest", "package_digest", "policy_digest", "context_digest",
    "evaluator_image_digest", "plugin_digests", "captured_fact_digests"]

/-- `_LIST_COMPONENTS`. -/
def listComponents : List Str := ["plugin_digests", "captured_fact_digests"]

def entryDir : Str := "entries"

def cacheError : ExcClass := .user "CacheError" .valueError

/-- `_now_ts`. -/
def nowTs (ts : Value) : Except Exc Datetime :=
  match ts with
  | .str text => Datetime.fromisoformat (text.replace (Chr.ofChar 'Z') "+00:00")
  | other => .error ⟨.valueError, ["time must be a string, got ", .lit other.typeName]⟩

/-- A member of a list component. -/
def memberText (name : Str) (member : Value) : Except Exc Str :=
  match member with
  | .str (c :: rest) => .ok (c :: rest)
  | _ => .error ⟨cacheError, ["cache-component-item-invalid:", name]⟩

/-- `_norm_list`. -/
def normList (val : Value) (name : Str) (allowEmpty : Bool) : Except Exc (List Str) :=
  match val with
  | .list vs =>
      if allowEmpty = false ∧ vs = [] then
        .error ⟨cacheError, ["cache-component-empty:", name]⟩
      else do return Str.sorted (← vs.mapM (memberText name))
  | _ => .error ⟨cacheError, ["cache-component-not-a-list:", name]⟩

/-- One component of a complete key. -/
def boundComponent (material : Dict Str Value) (comp : Str) : Except Exc (Str × Value) :=
  match (Dict.get? material comp).getD .null with
  | .null => .error ⟨cacheError, ["cache-component-missing:", comp]⟩
  | val =>
      if comp ∈ listComponents then do
        return (comp, .list ((← normList val comp true).map .str))
      else match val with
        | .str (_ :: _) => .ok (comp, val)
        | _ => .error ⟨cacheError, ["cache-component-missing:", comp]⟩

/-- The cache key over the complete bound identity. -/
def key (material : Value) : Except Exc Str :=
  match material with
  | .dict kvs => do
      let bound ← components.mapM (boundComponent kvs)
      digestObj .context (.dict (("kind", .str "cache-key/v1") :: bound))
  | _ => .error ⟨cacheError, ["cache-material-must-be-an-object"]⟩

inductive Lookup where
  | hit (payload : Bytes)
  | miss (reason : Text)
  deriving DecidableEq

/-- A predicate that answers with a pair. -/
abbrev Predicate := Value → Bool × Value

/-- Where the entry of a key stands. -/
def entryPath (storeRoot k : Str) : Path :=
  ((Path.ofStr storeRoot).join entryDir).join (k ++ ".json")

/-- The record of an entry and its payload. -/
def parseEntry (disk : Disk) (fp : Path) : Except Exc (Value × Bytes) := do
  let record ← Json.loadText (← disk.read fp)
  let payload ← Base64.decode (← record.item "payload")
  return (record, payload)

/-- Nothing where the record or its payload is garbage. -/
def readEntry (disk : Disk) (fp : Path) : Except Exc (Option (Value × Bytes)) :=
  match parseEntry disk fp with
  | .ok found => .ok (some found)
  | .error e =>
      if e.isA [.osError, .valueError, .keyError, .typeError] then .ok none else .error e

/-- `stored.get(comp) or []`, sorted. -/
def sortedOr (v : Option Value) : Except Exc (List Value) :=
  (Value.orElse v (.list [])).sorted

/-- The stored component is not the one looked up. -/
def drift (stored : Value) (material : Dict Str Value) (comp : Str) : Except Exc Bool := do
  let found ← stored.get comp
  if comp ∈ listComponents then
    return !Value.sameList (← sortedOr found) (← sortedOr (Dict.get? material comp))
  else return !(found.getD .null).eq ((Dict.get? material comp).getD .null)

/-- The first component that drifted. -/
def firstDrift (stored : Value) (material : Dict Str Value) : List Str → Except Exc (Option Str)
  | [] => .ok none
  | comp :: rest => do
      if ← drift stored material comp then return some comp
      else firstDrift stored material rest

/-- `isinstance(ttl_seconds, int)`; a boolean is an integer. -/
def integer? : Value → Option Int
  | .int n => some n
  | .bool b => some (if b then 1 else 0)
  | _ => none

/-- `timedelta.max.days`. -/
def maxDays : Int := 999999999

/-- `timedelta(seconds=n)`, in microseconds. -/
def timedelta (seconds : Int) : Except Exc Int :=
  if -maxDays ≤ seconds / 86400 ∧ seconds / 86400 ≤ maxDays then .ok (seconds * 1000000)
  else .error ⟨overflowError, ["days=", .str (.int (seconds / 86400)), "; must have magnitude <= ",
    "999999999"]⟩

/-- `_now_ts(as_of) - _now_ts(rec["cached_at"])`. -/
def age (asOf record : Value) : Except Exc Int := do
  let now ← nowTs asOf
  let cached ← nowTs (← record.item "cached_at")
  now.sub cached

/-- Why an entry inside its key is not reused on account of its age. -/
def checkAge (record : Value) (asOf ttlSeconds : Value) : Except Exc (Option Text) :=
  match (integer? ttlSeconds).filter (fun n => 0 ≤ n) with
  | none => .ok (some ["ttl-undeclared"])
  | some ttl =>
      match age asOf record with
      | .error e =>
          if e.isA [.valueError, .typeError, .keyError] then .ok (some ["bad-time"]) else .error e
      | .ok elapsed =>
          if elapsed < 0 then .ok (some ["bad-window"])
          else do
            if (← timedelta ttl) < elapsed then return some ["ttl-expired"]
            else return none

/-- What a predicate says of a value that needs it: nothing, or why it is refused. -/
def consult (needs : Bool) (predicate : Option Predicate) (given : Value) (unchecked invalid : Str) :
    Option Text :=
  if needs then
    match predicate with
    | none => some [unchecked]
    | some ask =>
        let (ok, reason) := ask given
        if ok then none else some [invalid, .str reason]
  else none

/-- The checks on a readable record whose components all match. -/
def reuse (record : Value) (payload : Bytes) (asOf ttlSeconds : Value)
    (signerOk retentionOk : Option Predicate) : Except Exc Lookup := do
  match ← checkAge record asOf ttlSeconds with
  | some reason => return .miss reason
  | none => do
      let signer := (← record.get "signer").getD .null
      match consult signer.truthy signerOk signer "signer-unchecked" "signer-invalid:" with
      | some reason => return .miss reason
      | none => do
          let refs := Value.orElse (← record.get "retained_refs") (.list [])
          match consult refs.truthy retentionOk (.dict [("retained_refs", refs)])
              "retention-unchecked" "retention-invalid:" with
          | some reason => return .miss reason
          | none => return .hit payload

/-- The checks on a readable record. -/
def inspect (material : Dict Str Value) (record : Value) (payload : Bytes)
    (asOf ttlSeconds : Value) (signerOk retentionOk : Option Predicate) : Except Exc Lookup := do
  let stored := Value.orElse (← record.get "key_material") (.dict [])
  match ← firstDrift stored material components with
  | some comp => return .miss ["key-drift:", .lit comp]
  | none => reuse record payload asOf ttlSeconds signerOk retentionOk

/-- Look up a cached result: a hit, or a miss with its reason. -/
def get (disk : Disk) (storeRoot : Str) (material asOf ttlSeconds : Value)
    (signerOk retentionOk : Option Predicate) : Except Exc Lookup :=
  match key material with
  | .error e =>
      if e.isA [cacheError] then .ok (.miss (Frag.lit "bad-material:" :: e.msg)) else .error e
  | .ok k =>
      if disk.isFile (entryPath storeRoot k) then do
        match ← readEntry disk (entryPath storeRoot k) with
        | none => return .miss ["entry-unreadable"]
        | some (record, payload) =>
            inspect (material.dict?.getD []) record payload asOf ttlSeconds signerOk retentionOk
      else .ok (.miss ["no-entry"])

end DevGate.Cache
