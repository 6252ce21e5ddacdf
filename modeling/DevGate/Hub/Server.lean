import DevGate.Hub.Registry

set_option autoImplicit false

/- `hub.server`: what the enroll, heartbeat and revoke endpoints do with a
decoded body, step by step around the registry's lock. -/
namespace DevGate.Hub

open Py

structure Reply where
  code : Nat
  payload : List (Str × Value)
  deriving DecidableEq

/-- The handler answers, or an exception leaves it and the connection closes. -/
inductive Answer where
  | sent (reply : Reply)
  | dropped (e : Exc)
  deriving DecidableEq

/-- The shared registry, and the file it was last saved to. -/
structure HubState where
  memory : Registry
  disk : Option Registry
  deriving DecidableEq

/-- What a request's locked step meets: the time, the token `mint_token` draws,
and what `save` raises. -/
structure Env where
  now : Clock
  minted : Str
  fault : Option Exc

/-- `Registry.save`: the file is replaced as the last thing, or not at all. -/
def save (fault : Option Exc) (s : HubState) : Except Exc Unit × HubState :=
  match fault with
  | none => (.ok (), { s with disk := some s.memory })
  | some e => (.error e, s)

/-- `with_registry`. `fn` answers nothing for `False`; where it raises it has
assigned nothing. -/
def withRegistry {α : Type} (fault : Option Exc) (s : HubState)
    (fn : Registry → Except Exc (Option α × Registry)) : Except Exc (Option α) × HubState :=
  match fn s.memory with
  | .error e => (.error e, s)
  | .ok (none, reg) => (.ok none, { s with memory := reg })
  | .ok (some result, reg) =>
      match save fault { s with memory := reg } with
      | (.ok (), saved) => (.ok (some result), saved)
      | (.error e, unsaved) => (.error e, unsaved)

namespace Server

def badRequest (detail : Str) : Reply :=
  ⟨400, [("ok", .bool false), ("error", .str "bad_request"), ("detail", .str detail)]⟩

def alreadyEnrolled : Reply := ⟨409, [("ok", .bool false), ("error", .str "already_enrolled")]⟩

def unknownOrRevoked : Reply :=
  ⟨401, [("ok", .bool false), ("error", .str "unknown_or_revoked_token")]⟩

/-- What a handler sends for the result of its locked step. -/
def respond (result : Except Exc (Option (List (Str × Value)))) : Answer :=
  match result with
  | .error e => .dropped e
  | .ok none => .sent unknownOrRevoked
  | .ok (some payload) => .sent ⟨200, payload⟩

/-- `REPO_RE`. -/
def repoRe : Re :=
  let name := Re.plus true (.chr (fun c => c != Chr.ofChar '/'))
  .seq name (.seq (Re.char '/') name)

/-- `data.get(key) or default`. -/
def getOr (data : List (Str × Value)) (key : Str) (default : Value) : Value :=
  match Dict.get? data key with
  | some v => if v.truthy then v else default
  | none => default

/-- An enroll request past its format checks. -/
structure Enrollment where
  runnerName : Str
  repo : Str
  labels : Value
  hostAlias : Value
  presented : Value
  deriving DecidableEq

/-- The format checks of `_handle_enroll`. -/
def readEnroll (data : Value) : Answer ⊕ Enrollment :=
  match data with
  | .dict fields =>
      match Dict.get? fields "runner_name" with
      | some (.str runnerName) =>
          if runnerName = [] then .inl (.sent (badRequest "runner_name and repo OWNER/REPO required"))
          else
            match getOr fields "repo" (.str []) with
            | .str repo =>
                if repoRe.fullmatch repo = false then
                  .inl (.sent (badRequest "runner_name and repo OWNER/REPO required"))
                else if runnerName ≠ runnerName.strip then
                  .inl (.sent (badRequest "runner_name has surrounding whitespace"))
                else
                  .inr
                    { runnerName := runnerName
                      repo := repo
                      labels := getOr fields "labels" (.list [])
                      hostAlias := getOr fields "host_alias" (.str [])
                      presented := getOr fields "enrollment_token" (.str []) }
            | other =>
                .inl (.dropped ⟨.typeError, ["expected string or bytes-like object, got '",
                  other.typeName, "'"]⟩)
      | _ => .inl (.sent (badRequest "runner_name and repo OWNER/REPO required"))
  | _ => .inl (.sent (badRequest "json object required"))

/-- `_handle_enroll` up to its lock: the format checks, then the probe for the name. -/
def probeEnroll (reg : Registry) (data : Value) : Answer ⊕ Enrollment :=
  match readEnroll data with
  | .inl answer => .inl answer
  | .inr request =>
      match reg.findRunner (.str request.runnerName) with
      | some _ => .inl (.sent alreadyEnrolled)
      | none => .inr request

def enrolledPayload (runnerName heartbeatToken : Str) : List (Str × Value) :=
  [("ok", .bool true), ("runner_name", .str runnerName), ("heartbeat_token", .str heartbeatToken)]

def okPayload : List (Str × Value) := [("ok", .bool true)]

def revokedPayload (runnerName : Value) : List (Str × Value) :=
  [("ok", .bool true), ("runner_name", runnerName)]

/-- `do_enroll`. -/
def doEnroll (env : Env) (request : Enrollment) (reg : Registry) :
    Except Exc (Option (List (Str × Value)) × Registry) := do
  match ← reg.consumeEnrollmentToken request.presented with
  | (false, reg) => return (none, reg)
  | (true, reg) =>
      let runner := Registry.newRunner env.now env.minted request.runnerName request.repo
        request.labels request.hostAlias
      return (some (enrolledPayload request.runnerName runner.heartbeatToken), reg.enroll runner)

/-- `_handle_enroll` from its lock on. -/
def finishEnroll (env : Env) (s : HubState) (request : Enrollment) : Answer × HubState :=
  let (result, s) := withRegistry env.fault s (doEnroll env request)
  (respond result, s)

/-- `_handle_enroll`, with nothing between its steps. -/
def handleEnroll (env : Env) (s : HubState) (data : Value) : Answer × HubState :=
  match probeEnroll s.memory data with
  | .inl answer => (answer, s)
  | .inr request => finishEnroll env s request

def reportOf (fields : List (Str × Value)) : Report where
  lastJobSeen := (Dict.get? fields "last_job_seen").getD .null
  diskOk := (Dict.get? fields "disk_ok").getD .null
  podmanOk := (Dict.get? fields "podman_ok").getD .null
  imageDigest := Dict.get? fields "image_digest"
  imageReason := Dict.get? fields "image_reason"
  scanState := Dict.get? fields "scan_state"

/-- `do_heartbeat`. -/
def doHeartbeat (now : Clock) (runnerName presented : Value) (report : Report) (reg : Registry) :
    Except Exc (Option (List (Str × Value)) × Registry) := do
  match ← reg.verifyHeartbeatToken runnerName presented with
  | false => return (none, reg)
  | true => return (some okPayload, (reg.heartbeat now runnerName report).2)

/-- `_handle_heartbeat`. -/
def handleHeartbeat (env : Env) (s : HubState) (data : Value) : Answer × HubState :=
  match data with
  | .dict fields =>
      let (result, s) := withRegistry env.fault s (doHeartbeat env.now
        (getOr fields "runner_name" (.str [])) (getOr fields "heartbeat_token" (.str []))
        (reportOf fields))
      (respond result, s)
  | _ => (.sent (badRequest "json object required"), s)

/-- `do_revoke`. -/
def doRevoke (runnerName presented : Value) (reg : Registry) :
    Except Exc (Option (List (Str × Value)) × Registry) := do
  match ← reg.verifyHeartbeatToken runnerName presented with
  | false => return (none, reg)
  | true => return (some (revokedPayload runnerName), (reg.revoke runnerName).2)

/-- `_handle_revoke`. -/
def handleRevoke (env : Env) (s : HubState) (data : Value) : Answer × HubState :=
  match data with
  | .dict fields =>
      let (result, s) := withRegistry env.fault s (doRevoke
        (getOr fields "runner_name" (.str [])) (getOr fields "heartbeat_token" (.str [])))
      (respond result, s)
  | _ => (.sent (badRequest "json object required"), s)

end Server

section

variable {α : Type} {fault : Option Exc} {s : HubState}
  {fn : Registry → Except Exc (Option α × Registry)}

/-- A locked step raises or refuses and leaves everything as it was, or it
answers and its registry is in memory, whether or not the save goes through. -/
theorem withRegistry_cases (refuses : ∀ reg, fn s.memory = .ok (none, reg) → reg = s.memory) :
    (withRegistry fault s fn).2 = s ∧ (∀ result, (withRegistry fault s fn).1 ≠ .ok (some result)) ∧
        (∀ result reg, fn s.memory ≠ .ok (some result, reg)) ∨
      ∃ result reg, fn s.memory = .ok (some result, reg) ∧
        withRegistry fault s fn =
          match fault with
          | none => (.ok (some result), ⟨reg, some reg⟩)
          | some e => (.error e, ⟨reg, s.disk⟩) := by
  unfold withRegistry
  cases ran : fn s.memory with
  | error e => exact Or.inl (by simp)
  | ok outcome =>
      obtain ⟨result, reg⟩ := outcome
      cases result with
      | none =>
          have kept := refuses reg ran
          subst kept
          exact Or.inl (by simp)
      | some result =>
          refine Or.inr ⟨result, reg, rfl, ?_⟩
          cases fault <;> rfl

/-- With a save that fails the state stays exactly when the step changes nothing. -/
theorem withRegistry_unsaved {e : Exc}
    (refuses : ∀ reg, fn s.memory = .ok (none, reg) → reg = s.memory) :
    (withRegistry (some e) s fn).2 = s ↔
      ∀ result reg, fn s.memory = .ok (some result, reg) → reg = s.memory := by
  rcases @withRegistry_cases _ (some e) _ _ refuses with
    ⟨kept, -, none⟩ | ⟨result, reg, ran, outcome⟩
  · exact ⟨fun _ result reg ran => absurd ran (none result reg), fun _ => kept⟩
  · rw [outcome]
    constructor
    · intro same result' reg' ran'
      rw [ran, Except.ok.injEq, Prod.mk.injEq] at ran'
      rw [← ran'.2]
      exact congrArg HubState.memory same
    · intro all
      rw [all result reg ran]

end

namespace Server

variable {env : Env} {request : Enrollment} {reg after : Registry} {payload : List (Str × Value)}

theorem doEnroll_none (ran : doEnroll env request reg = .ok (none, after)) : after = reg := by
  obtain ⟨⟨taken, left⟩, consumed, rest⟩ := bind_ok.mp ran
  cases taken with
  | true => cases rest
  | false =>
      have same : after = left := by
        cases rest
        rfl
      rcases Registry.consumeEnrollmentToken_ok consumed with ⟨-, kept⟩ | ⟨_, _, _, wrong, _⟩
      · rw [same, kept]
      · cases wrong

/-- An enrollment that goes through: its token verified, was taken off, and the
row joined at the end. -/
theorem doEnroll_some :
    doEnroll env request reg = .ok (some payload, after) ↔
      ∃ token, Registry.firstVerified request.presented reg.enrollmentTokens = .ok (some token) ∧
        payload = enrolledPayload request.runnerName env.minted ∧
        after =
          { enrollmentTokens := reg.enrollmentTokens.erase token
            runners := reg.runners ++ [Registry.newRunner env.now env.minted request.runnerName
              request.repo request.labels request.hostAlias] } := by
  unfold doEnroll Registry.consumeEnrollmentToken
  cases Registry.firstVerified request.presented reg.enrollmentTokens with
  | error e => simp
  | ok found =>
      cases found with
      | none => simp
      | some token =>
          simp only [ok_bind, pure_ok, Except.ok.injEq, Prod.mk.injEq, Option.some.injEq,
            exists_eq_left']
          exact ⟨fun same => ⟨same.1.symm, same.2.symm⟩, fun same => ⟨same.1.symm, same.2.symm⟩⟩

variable {now : Clock} {name presented : Value} {report : Report}

theorem doHeartbeat_none (ran : doHeartbeat now name presented report reg = .ok (none, after)) :
    after = reg := by
  obtain ⟨verified, -, rest⟩ := bind_ok.mp ran
  cases verified with
  | true => cases rest
  | false =>
      cases rest
      rfl

theorem doHeartbeat_some :
    doHeartbeat now name presented report reg = .ok (some payload, after) ↔
      reg.verifyHeartbeatToken name presented = .ok true ∧ payload = okPayload ∧
        after = reg.updateRunner name (Registry.reported now report) := by
  unfold doHeartbeat
  cases verified : reg.verifyHeartbeatToken name presented with
  | error e => simp
  | ok answer =>
      cases answer with
      | false => simp
      | true =>
          obtain ⟨runner, found, live, -⟩ := Registry.verifyHeartbeatToken_true.mp verified
          have changed : (reg.heartbeat now name report).2 =
              reg.updateRunner name (Registry.reported now report) := by
            simp only [Registry.heartbeat, found, live, ↓reduceIte]
          simp only [ok_bind, pure_ok, changed, Except.ok.injEq, Prod.mk.injEq, Option.some.injEq,
            true_and]
          exact ⟨fun same => ⟨same.1.symm, same.2.symm⟩, fun same => ⟨same.1.symm, same.2.symm⟩⟩

theorem doRevoke_none (ran : doRevoke name presented reg = .ok (none, after)) : after = reg := by
  obtain ⟨verified, -, rest⟩ := bind_ok.mp ran
  cases verified with
  | true => cases rest
  | false =>
      cases rest
      rfl

theorem doRevoke_some :
    doRevoke name presented reg = .ok (some payload, after) ↔
      reg.verifyHeartbeatToken name presented = .ok true ∧
        payload = revokedPayload name ∧
        after = reg.updateRunner name Registry.unenrolled := by
  unfold doRevoke
  cases verified : reg.verifyHeartbeatToken name presented with
  | error e => simp
  | ok answer =>
      cases answer with
      | false => simp
      | true =>
          obtain ⟨runner, found, -⟩ := Registry.verifyHeartbeatToken_true.mp verified
          have changed : (reg.revoke name).2 = reg.updateRunner name Registry.unenrolled := by
            simp only [Registry.revoke, found]
          simp only [ok_bind, pure_ok, changed, Except.ok.injEq, Prod.mk.injEq, Option.some.injEq,
            true_and]
          exact ⟨fun same => ⟨same.1.symm, same.2.symm⟩, fun same => ⟨same.1.symm, same.2.symm⟩⟩

/-- A well-formed request names its row by the body's `runner_name`. -/
theorem readEnroll_name {fields : List (Str × Value)} {request : Enrollment}
    (read : readEnroll (.dict fields) = .inr request) :
    Dict.get? fields "runner_name" = some (.str request.runnerName) := by
  unfold readEnroll at read
  dsimp only at read
  split at read
  · rename_i runnerName found
    split at read
    · cases read
    · split at read
      · split at read
        · cases read
        · split at read
          · cases read
          · cases read
            exact found
      · cases read
  · cases read

end Server

end DevGate.Hub
