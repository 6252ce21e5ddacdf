import DevGate.Py.Exc
import DevGate.Py.Hmac
import DevGate.Py.Utc
import DevGate.Py.Utf8

set_option autoImplicit false

/- `hub.registry` and `hub.tokens`: the rows of the fleet registry, the one-time
enrollment tokens and the per-runner heartbeat tokens. -/
namespace DevGate.Hub

open Py

/-- A UTC time to the second, the largest field first. -/
structure Clock where
  year : Nat
  month : Nat
  day : Nat
  hour : Nat
  minute : Nat
  second : Nat
  deriving DecidableEq

/-- `_now_iso()` at a time. -/
def nowIso (now : Clock) : Str :=
  Utc.isoSeconds.write [now.year, now.month, now.day, now.hour, now.minute, now.second]

/-- A row as `enroll` writes it. What a host reports is stored as it came. -/
structure Runner where
  name : Str
  repo : Str
  labels : Value
  hostAlias : Value
  enrolledAt : Clock
  heartbeatToken : Str
  lastHeartbeat : Option Clock
  lastJobSeen : Value
  diskOk : Value
  podmanOk : Value
  imageDigest : Value
  imageReason : Value
  scanState : Value
  enrolled : Bool
  deriving DecidableEq

structure Registry where
  enrollmentTokens : List Str
  runners : List Runner
  deriving DecidableEq

/-- What a heartbeat reports. `none` in the last three is `UNREPORTED`: the body
does not mention the field. -/
structure Report where
  lastJobSeen : Value
  diskOk : Value
  podmanOk : Value
  imageDigest : Option Value
  imageReason : Option Value
  scanState : Option Value

namespace Tokens

def unicodeEncodeError : ExcClass := .user "UnicodeEncodeError" .valueError

/-- `v.encode()`. UTF-8 is injective, so the text stands for its encoding. -/
def encode (v : Value) : Except Exc Str :=
  match v with
  | .str s =>
      if s.any Chr.isSurrogate then .error ⟨unicodeEncodeError, ["surrogates not allowed"]⟩ else .ok s
  | other => .error ⟨.attributeError, ["'", other.typeName, "' object has no attribute 'encode'"]⟩

/-- `verify`: `compare_digest` of the two encodings. -/
def verify (presented : Value) (expected : Option Str) : Except Exc Bool :=
  if presented.truthy = false then .ok false
  else
    match expected with
    | none => .ok false
    | some expected => do
        let left ← encode presented
        let right ← encode (.str expected)
        return left == right

end Tokens

/-- Assign to the first item that fits. -/
def updateFirst {α : Type} (fits : α → Bool) (f : α → α) : List α → List α
  | [] => []
  | a :: rest => if fits a then f a :: rest else a :: updateFirst fits f rest

namespace Registry

/-- `add_enrollment_token`. -/
def addEnrollmentToken (reg : Registry) (token : Str) : Registry :=
  if token ∈ reg.enrollmentTokens then reg
  else { reg with enrollmentTokens := reg.enrollmentTokens ++ [token] }

/-- `prune_enrollment_tokens`. -/
def pruneEnrollmentTokens (reg : Registry) (keep : Str → Bool) : Registry :=
  { reg with enrollmentTokens := reg.enrollmentTokens.filter keep }

/-- The first stored token that the presented one verifies against. -/
def firstVerified (presented : Value) : List Str → Except Exc (Option Str)
  | [] => .ok none
  | candidate :: rest =>
      match Tokens.verify presented (some candidate) with
      | .error e => .error e
      | .ok true => .ok (some candidate)
      | .ok false => firstVerified presented rest

/-- `consume_enrollment_token`. -/
def consumeEnrollmentToken (reg : Registry) (presented : Value) : Except Exc (Bool × Registry) := do
  match ← firstVerified presented reg.enrollmentTokens with
  | some candidate =>
      return (true, { reg with enrollmentTokens := reg.enrollmentTokens.erase candidate })
  | none => return (false, reg)

/-- `runner.get("name") == name`. -/
def isNamed (name : Value) (runner : Runner) : Bool := Value.eq (.str runner.name) name

/-- `find_runner`. -/
def findRunner (reg : Registry) (name : Value) : Option Runner := reg.runners.find? (isNamed name)

def updateRunner (reg : Registry) (name : Value) (f : Runner → Runner) : Registry :=
  { reg with runners := updateFirst (isNamed name) f reg.runners }

/-- The row `enroll` mints. -/
def newRunner (now : Clock) (minted runnerName repo : Str) (labels hostAlias : Value) : Runner where
  name := runnerName
  repo := repo
  labels := labels
  hostAlias := hostAlias
  enrolledAt := now
  heartbeatToken := minted
  lastHeartbeat := none
  lastJobSeen := .null
  diskOk := .null
  podmanOk := .null
  imageDigest := .null
  imageReason := .null
  scanState := .null
  enrolled := true

/-- `enroll`. -/
def enroll (reg : Registry) (runner : Runner) : Registry :=
  { reg with runners := reg.runners ++ [runner] }

/-- The row a heartbeat leaves. -/
def reported (now : Clock) (report : Report) (runner : Runner) : Runner :=
  { runner with
    lastHeartbeat := some now
    lastJobSeen := if report.lastJobSeen = .null then runner.lastJobSeen else report.lastJobSeen
    diskOk := if report.diskOk = .null then runner.diskOk else report.diskOk
    podmanOk := if report.podmanOk = .null then runner.podmanOk else report.podmanOk
    imageDigest := report.imageDigest.getD runner.imageDigest
    imageReason := report.imageReason.getD runner.imageReason
    scanState := report.scanState.getD runner.scanState }

/-- `heartbeat`. -/
def heartbeat (reg : Registry) (now : Clock) (name : Value) (report : Report) : Bool × Registry :=
  match reg.findRunner name with
  | none => (false, reg)
  | some runner =>
      if runner.enrolled then (true, reg.updateRunner name (reported now report)) else (false, reg)

/-- `verify_heartbeat_token`. -/
def verifyHeartbeatToken (reg : Registry) (name presented : Value) : Except Exc Bool :=
  match reg.findRunner name with
  | none => .ok false
  | some runner =>
      if runner.enrolled then Tokens.verify presented (some runner.heartbeatToken) else .ok false

def unenrolled (runner : Runner) : Runner := { runner with enrolled := false }

/-- `revoke`. -/
def revoke (reg : Registry) (name : Value) : Bool × Registry :=
  match reg.findRunner name with
  | none => (false, reg)
  | some _ => (true, reg.updateRunner name unenrolled)

def names (reg : Registry) : List Str := reg.runners.map Runner.name

end Registry

theorem Tokens.encode_ok {v : Value} {s : Str} :
    Tokens.encode v = .ok s ↔ v = .str s ∧ s.any Chr.isSurrogate = false := by
  cases v with
  | str t =>
      unfold Tokens.encode
      rw [guard_ok, Except.ok.injEq, Value.str.injEq, Bool.not_eq_true]
      constructor
      · rintro ⟨clear, rfl⟩
        exact ⟨rfl, clear⟩
      · rintro ⟨rfl, clear⟩
        exact ⟨clear, rfl⟩
  | _ => simp [Tokens.encode]

/-- A token verifies against the one it is, where that is not empty and has an
encoding. -/
theorem Tokens.verify_true {presented : Value} {expected : Str} :
    Tokens.verify presented (some expected) = .ok true ↔
      presented = .str expected ∧ expected ≠ [] ∧ expected.any Chr.isSurrogate = false := by
  unfold Tokens.verify
  dsimp only
  by_cases falsy : presented.truthy = false
  · rw [if_pos falsy]
    constructor
    · intro verified
      cases verified
    · rintro ⟨rfl, some, -⟩
      simp [Value.truthy, some] at falsy
  · rw [if_neg falsy]
    constructor
    · intro verified
      obtain ⟨left, presentedText, verified⟩ := bind_ok.mp verified
      obtain ⟨right, expectedText, verified⟩ := bind_ok.mp verified
      obtain ⟨rfl, clear⟩ := Tokens.encode_ok.mp presentedText
      obtain ⟨same, -⟩ := Tokens.encode_ok.mp expectedText
      cases same
      have equal : left = expected := by simpa using verified
      subst equal
      refine ⟨rfl, ?_, clear⟩
      rintro rfl
      exact falsy rfl
    · rintro ⟨rfl, -, clear⟩
      rw [Tokens.encode_ok.mpr ⟨rfl, clear⟩]
      simp

namespace Registry

@[simp] theorem reported_name (now : Clock) (report : Report) (runner : Runner) :
    (reported now report runner).name = runner.name := rfl

@[simp] theorem unenrolled_name (runner : Runner) :
    (unenrolled runner).name = runner.name := rfl

theorem isNamed_str {name : Str} {runner : Runner} :
    isNamed (.str name) runner = true ↔ runner.name = name := by
  rw [isNamed, Value.eq_str, Value.str.injEq]
  exact eq_comm

/-- Names that are not strings name no row. -/
theorem isNamed_iff {name : Value} {runner : Runner} :
    isNamed name runner = true ↔ name = .str runner.name :=
  Value.eq_str runner.name name

theorem firstVerified_some {presented : Value} {tokens : List Str} {candidate : Str}
    (found : firstVerified presented tokens = .ok (some candidate)) :
    presented = .str candidate ∧ candidate ∈ tokens := by
  induction tokens with
  | nil => cases found
  | cons first rest ih =>
      unfold firstVerified at found
      split at found
      · cases found
      · rename_i verified
        cases found
        exact ⟨(Tokens.verify_true.mp verified).1, List.mem_cons_self⟩
      · obtain ⟨same, member⟩ := ih found
        exact ⟨same, List.mem_cons_of_mem _ member⟩

/-- What consuming a token does: the presented one, if it is stored, is taken off. -/
theorem consumeEnrollmentToken_ok {reg after : Registry} {presented : Value} {taken : Bool}
    (ran : reg.consumeEnrollmentToken presented = .ok (taken, after)) :
    (taken = false ∧ after = reg) ∨
      ∃ token, presented = .str token ∧ token ∈ reg.enrollmentTokens ∧ taken = true ∧
        after = { reg with enrollmentTokens := reg.enrollmentTokens.erase token } := by
  obtain ⟨found, searched, ran⟩ := bind_ok.mp ran
  cases found with
  | none =>
      cases ran
      exact Or.inl ⟨rfl, rfl⟩
  | some candidate =>
      cases ran
      obtain ⟨same, member⟩ := firstVerified_some searched
      exact Or.inr ⟨candidate, same, member, rfl, rfl⟩

/-- A row is authenticated by its name and its own token, while it is enrolled. -/
theorem verifyHeartbeatToken_true {reg : Registry} {name presented : Value} :
    reg.verifyHeartbeatToken name presented = .ok true ↔
      ∃ runner, reg.findRunner name = some runner ∧ runner.enrolled = true ∧
        presented = .str runner.heartbeatToken ∧ runner.heartbeatToken ≠ [] ∧
          runner.heartbeatToken.any Chr.isSurrogate = false := by
  unfold verifyHeartbeatToken
  cases reg.findRunner name with
  | none => simp
  | some runner =>
      by_cases live : runner.enrolled = true
      · simp only [live, ↓reduceIte, Tokens.verify_true, Option.some.injEq, exists_eq_left', true_and]
      · simp [live]

end Registry

end DevGate.Hub
