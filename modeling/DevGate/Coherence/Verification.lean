import DevGate.Lib.Machine
import DevGate.Py.Exc

set_option autoImplicit false

/- hub/coherence/verification.py: the claim lifecycle. An operation returns the
claim it leaves behind together with its outcome, because a call that raises may
already have written to the claim. -/
namespace DevGate.Verification

open Py

inductive State where
  | requested
  | planned
  | attempted
  | executed
  | completed
  | tested
  | observed
  | verified
  | blocked
  | failed
  | unknown
  deriving DecidableEq

def State.name : State → Str
  | .requested => "REQUESTED"
  | .planned => "PLANNED"
  | .attempted => "ATTEMPTED"
  | .executed => "EXECUTED"
  | .completed => "COMPLETED"
  | .tested => "TESTED"
  | .observed => "OBSERVED"
  | .verified => "VERIFIED"
  | .blocked => "BLOCKED"
  | .failed => "FAILED"
  | .unknown => "UNKNOWN"

def ladder : List State :=
  [.requested, .planned, .attempted, .executed, .completed, .tested, .observed, .verified]

def terminal : List State := [.blocked, .failed, .unknown]

def State.ofName? (s : Str) : Option State := (ladder ++ terminal).find? (fun st => st.name = s)

/-- `_FORWARD`: the rungs a rung leads to. PLANNED is optional. -/
def forward : State → List State
  | .requested => [.planned, .attempted]
  | .planned => [.attempted]
  | .attempted => [.executed]
  | .executed => [.completed]
  | .completed => [.tested]
  | .tested => [.observed]
  | .observed => [.verified]
  | _ => []

def verificationError : ExcClass := .user "VerificationError" .valueError

/-- The frozen table, on two states of the vocabulary. -/
def allowed (current target : State) : Bool :=
  if current = target then true
  else if target ∈ terminal then true
  else if target = .verified ∧ current ∈ ladder then true
  else target ∈ forward current

/-- The vocabulary check of `can_transition` on its target. -/
def State.parse (target : Str) : Except Exc State :=
  match State.ofName? target with
  | none => .error ⟨verificationError, ["unknown target state ", .repr (.str target)]⟩
  | some state => .ok state

def canTransition (current : State) (target : Str) : Except Exc Bool :=
  (State.parse target).map (allowed current)

structure LogEntry where
  target : State
  reason : Option Str
  deriving DecidableEq

/-- The `independent_verification` record. -/
structure VerificationRecord where
  verifier : Str
  ok : Bool
  observation : Value
  deriving DecidableEq

structure Claim where
  claimId : Str
  requirement : Str
  state : State
  actor : Option Str
  subjectDigest : Option Str
  boundDigests : Dict Str Str
  evidenceRefs : List Str
  independentVerification : Option VerificationRecord
  transitions : List LogEntry
  deriving DecidableEq

/-- `text or None`. -/
def orNone (text : Str) : Option Str := if text = [] then none else some text

def newClaim (claimId requirement : Str) (subjectDigest : Option Str) (actor : Str) : Claim where
  claimId := claimId
  requirement := requirement
  state := .requested
  actor := orNone actor
  subjectDigest := subjectDigest
  boundDigests := []
  evidenceRefs := []
  independentVerification := none
  transitions := [⟨.requested, some "created"⟩]

/-- The last two statements of `transition`: move and log. -/
def Claim.move (claim : Claim) (target : State) (reason : Str) : Claim :=
  { claim with state := target, transitions := claim.transitions ++ [⟨target, orNone reason⟩] }

def transition (claim : Claim) (target reason : Str) (independent : Bool) :
    Claim × Except Exc Unit :=
  if target = State.verified.name ∧ claim.state ≠ .verified ∧ independent = false then
    (claim, .error ⟨verificationError,
      ["VERIFIED requires independent verification; use ",
        "verify_independently() — an actor cannot certify itself"]⟩)
  else match State.parse target with
    | .error e => (claim, .error e)
    | .ok state =>
        if allowed claim.state state then (claim.move state reason, .ok ())
        else (claim, .error ⟨verificationError,
          ["illegal transition ", .repr (.str claim.state.name), " -> ", .repr (.str target)]⟩)

def bind (claim : Claim) (role digest : Value) : Claim × Except Exc Unit :=
  match role, digest with
  | .str (r :: role), .str (d :: digest) =>
      ({ claim with boundDigests := Dict.set claim.boundDigests (r :: role) (d :: digest) }, .ok ())
  | .str (_ :: _), _ =>
      (claim, .error ⟨verificationError, ["bind digest must be a non-empty string"]⟩)
  | _, _ => (claim, .error ⟨verificationError, ["bind role must be a non-empty string"]⟩)

def attachEvidence (claim : Claim) (evidenceRef : Value) : Claim × Except Exc Unit :=
  match evidenceRef with
  | .str (c :: rest) =>
      ({ claim with evidenceRefs := claim.evidenceRefs ++ [c :: rest] }, .ok ())
  | _ => (claim, .error ⟨verificationError, ["evidence_ref must be a non-empty string"]⟩)

/-- The bound roles whose observed content differs, sorted. -/
def staleness (claim : Claim) (observed : Dict Str Str) : List Str :=
  Str.sorted ((claim.boundDigests.filter (fun kv => Dict.get? observed kv.1 ≠ some kv.2)).map
    Prod.fst)

def revalidate (claim : Claim) (observed : Dict Str Str) : State :=
  if staleness claim observed ≠ [] then .unknown else claim.state

/-- What a verifier that answers leaves: its verdict, its observation, and the
caller's observed digests as they stand after the call. -/
structure VerifierAnswer where
  ok : Bool
  observation : Value
  observed : Dict Str Str

structure Verifier where
  name : Str
  call : Claim → Except Exc VerifierAnswer

def verifierRecord (verifier : Verifier) (answer : VerifierAnswer) : VerificationRecord where
  verifier := verifier.name
  ok := answer.ok
  observation := if answer.observation.truthy then answer.observation else .dict []

def Claim.record (claim : Claim) (record : VerificationRecord) : Claim :=
  { claim with independentVerification := some record }

/-- `observed_digests is not None and staleness(claim, observed_digests)`. -/
def stale (claim : Claim) (observed : Option (Dict Str Str)) : Bool :=
  match observed with
  | none => false
  | some digests => staleness claim digests ≠ []

def verifyIndependently (claim : Claim) (verifier : Verifier) (observed : Option (Dict Str Str))
    (reason : Str) : Claim × Except Exc Unit :=
  if stale claim observed then
    (claim, .error ⟨verificationError,
      ["claim evidence is stale; re-verify against current reality ", "with a fresh claim"]⟩)
  else match verifier.call claim with
    | .error e => (claim, .error e)
    | .ok answer =>
        let claim := claim.record (verifierRecord verifier answer)
        if answer.ok = false then
          transition claim State.failed.name
            (if reason = [] then "independent check failed" else reason) false
        else if stale claim (observed.map (fun _ => answer.observed)) then
          transition claim State.unknown.name
            "digests changed between verification and recording" false
        else
          transition claim State.verified.name
            (if reason = [] then "independent check confirmed" else reason) true

/-- The public operations on a claim; `_independent` is not a caller's to set. -/
inductive Op where
  | transition (target reason : Str)
  | bind (role digest : Value)
  | attachEvidence (evidenceRef : Value)
  | verifyIndependently (verifier : Verifier) (observed : Option (Dict Str Str)) (reason : Str)

def call (claim : Claim) : Op → Claim × Except Exc Unit
  | .transition target reason => transition claim target reason false
  | .bind role digest => bind claim role digest
  | .attachEvidence evidenceRef => attachEvidence claim evidenceRef
  | .verifyIndependently verifier observed reason =>
      verifyIndependently claim verifier observed reason

def step (claim : Claim) (op : Op) : Claim := (call claim op).1

end DevGate.Verification
