import DevGate.Coherence.Attest
import DevGate.Coherence.Profiles
import DevGate.Py.JsonFlat
import DevGate.Py.Timedelta

set_option autoImplicit false

/- hub/coherence/retention.py: the exact bytes of an input are retained under a window, and
revealed to the holder of a capability. -/
namespace DevGate.Retention

open Py
open Profiles (isSha)
open Attest (compareDigest)

/-- A refusal to reveal a retained bundle. -/
def retentionError : ExcClass := .user "RetentionError" .runtimeError

def fail {α : Type} (text : Text) : Except Exc α := .error ⟨retentionError, text⟩

/-- The files under `bundles` and `records`, by the ref that names them. -/
structure Store where
  bundles : Str → Option Bytes
  records : Str → Option Bytes

/-- `_check_ref`. -/
def checkRef (ref : Value) : Except Exc Str :=
  match ref.str?.filter isSha with
  | some r => .ok r
  | none => fail ["retention-bad-ref:", .repr ref]

/-- `_key`, of the environment's text. -/
def retentionKey (key : Option Str) : Except Exc Bytes :=
  let raw := Str.strip (key.getD [])
  if raw = [] then fail ["retention-key-not-configured"]
  else match fromhex? raw with
    | some bytes => .ok bytes
    | none => fail ["retention-key-malformed"]

/-- `_parse`. -/
def parse (ts : Value) : Except Exc Datetime :=
  match ts with
  | .str s => Datetime.fromisoformat (Str.replace s (Chr.ofChar 'Z') "+00:00")
  | other => .error ⟨.attributeError, ["'", other.typeName, "' object has no attribute 'replace'"]⟩

/-- `issue`, of a well-formed ref. -/
def issue (key : Option Str) (ref : Str) : Except Exc Str := do
  let k ← retentionKey key
  return "hmac-sha256:" ++
    hmacSha256 k (Utf8.ascii "retention-authorization/v1" ++ 0 :: Utf8.ascii ref)

def contentRef (payload : Bytes) : Str := "sha256:" ++ sha256 payload

def recordFields (subject ref retainedAt : Str) (days : Int) : Dict Str Value :=
  [("subject_digest", .str subject), ("content_digest", .str ref), ("retained_at", .str retainedAt),
    ("retention_days", .int days)]

def Store.set (table : Str → Option Bytes) (ref : Str) (bytes : Bytes) : Str → Option Bytes :=
  fun other => if other = ref then some bytes else table other

/-- The end of `retain`: the record is written, whatever stands there. -/
def writeRecord (p : Printer) (s : Store) (subject ref retainedAt : Str) (days : Int) :
    Except Exc Str × Store :=
  if 10 ^ Json.maxDigits ≤ days then
    (.error ⟨.valueError, ["Exceeds the limit (4300 digits) for integer string conversion"]⟩, s)
  else
    let text := Json.write p id (.dict (recordFields subject ref retainedAt days))
    (.ok ref, { s with records := Store.set s.records ref (Utf8.ascii text) })

/-- One call of `retain`, and what it leaves in the store. -/
def retain (p : Printer) (s : Store) (subject : Str) (payload : Bytes) (retainedAt : Str)
    (days : Int) : Except Exc Str × Store :=
  if days < 0 then (fail ["retention-days-negative"], s)
  else
    match parse (.str retainedAt) with
    | .error e => (if e.isA [.valueError] then fail ["retention-bad-time"] else .error e, s)
    | .ok _ =>
        let ref := contentRef payload
        match s.bundles ref with
        | some held =>
            if held ≠ payload then (fail ["retention-digest-collision"], s)
            else writeRecord p s subject ref retainedAt days
        | none =>
            writeRecord p { s with bundles := Store.set s.bundles ref payload } subject ref retainedAt
              days

/-- Does the authorization unlock this ref? -/
def authorize (key : Option Str) (ref : Str) (authorization : Value) : Except Exc Unit :=
  match issue key ref with
  | .error e =>
      if e.isA [retentionError] then fail (.lit "retention-unauthorized:" :: e.msg) else .error e
  | .ok expected =>
      if authorization.isStr = false then fail ["retention-unauthorized"]
      else do
        if ← compareDigest expected authorization then return ()
        else fail ["retention-unauthorized"]

def loadRecord (s : Store) (ref : Str) : Except Exc Value :=
  match s.records ref with
  | none => fail ["retention-record-missing"]
  | some bytes =>
      match Json.loadText bytes with
      | .ok v => .ok v
      | .error e =>
          if e.isA [.osError, .jsonDecodeError] then fail ["retention-record-missing"] else .error e

/-- When the bundle was retained, and the time of the read. -/
def times (record : Value) (asOf : Str) : Except Exc (Datetime × Datetime) :=
  match (do
      let retained ← parse (← record.item "retained_at")
      return (retained, ← parse (.str asOf))) with
  | .ok both => .ok both
  | .error e =>
      if e.isA [.valueError, .keyError, .typeError] then fail ["retention-bad-time"] else .error e

/-- Has the window closed? -/
def expired (record : Value) (retained now : Datetime) : Except Exc Bool := do
  let delta ← timedeltaDays (← record.item "retention_days")
  let expiry ← retained.add delta
  return !(← now.le expiry)

def read (key : Option Str) (s : Store) (ref : Value) (asOf : Str) (authorization : Value) :
    Except Exc Bytes := do
  let r ← checkRef ref
  match s.bundles r with
  | none => fail ["retention-unknown"]
  | some payload => do
      authorize key r authorization
      let record ← loadRecord s r
      let both ← times record asOf
      if ← expired record both.1 both.2 then fail ["retention-expired"]
      else if contentRef payload ≠ r then fail ["retention-tampered"]
      else return payload

end DevGate.Retention
