import DevGate.Lib.Machine
import DevGate.Hub.Server

set_option autoImplicit false

/- The running hub: requests of any number of threads, an enrollment's probe and
its locked step apart, and restarts. -/
namespace DevGate.Hub

open Py Server

/-- `_TOKEN_SHAPE.match`: `$` also matches before a final newline. -/
def tokenShape (token : Str) : Bool :=
  let body := if token.getLast? = some (Chr.ofChar '\n') then token.dropLast else token
  16 ≤ body.length && body.all (fun c =>
    (65 ≤ c.val && c.val ≤ 90) || (97 ≤ c.val && c.val ≤ 122) || (48 ≤ c.val && c.val ≤ 57) ||
      c == Chr.ofChar '_' || c == Chr.ofChar '-')

/-- The tokens `load_enrollment_tokens` accepts from the environment. -/
def acceptedTokens (envValue : Str) : List Str :=
  (((Str.split (Chr.ofChar ',') envValue).filter (fun raw => raw ≠ [])).map Str.strip).filter tokenShape

/-- `load_enrollment_tokens`: add the accepted tokens, then prune what is stored. -/
def loadEnrollmentTokens (reg : Registry) (envValue : Str) : Registry :=
  ((acceptedTokens envValue).foldl Registry.addEnrollmentToken reg).pruneEnrollmentTokens tokenShape

/-- `main` up to serving: the file or a fresh registry, the configured tokens, a
save. A start whose save fails serves nothing and leaves the file. -/
def start (disk : Option Registry) (envValue : Str) : HubState :=
  let reg := loadEnrollmentTokens (disk.getD ⟨[], []⟩) envValue
  ⟨reg, some reg⟩

/-- The hub with the enroll requests that wait between their probe and their
locked step, and the answers these have had so far. -/
structure World where
  state : HubState
  waiting : List Enrollment
  answers : List (Enrollment × Answer)
  deriving DecidableEq

inductive Event where
  /-- An enroll request up to its probe. -/
  | enroll (data : Value)
  /-- The locked step of a waiting enroll request. -/
  | update (i : Nat) (env : Env)
  | heartbeat (env : Env) (data : Value)
  | revoke (env : Env) (data : Value)
  | restart (envValue : Str)

namespace World

/-- A hub that has never run. -/
def blank : World := ⟨⟨⟨[], []⟩, none⟩, [], []⟩

/-- One step, with the answer it sends. -/
def act (w : World) (event : Event) : Option Answer × World :=
  match event with
  | .enroll data =>
      match probeEnroll w.state.memory data with
      | .inl answer => (some answer, w)
      | .inr request => (none, { w with waiting := w.waiting ++ [request] })
  | .update i env =>
      match w.waiting[i]? with
      | none => (none, w)
      | some request =>
          let (answer, state) := finishEnroll env w.state request
          (some answer,
            { state := state
              waiting := w.waiting.eraseIdx i
              answers := w.answers ++ [(request, answer)] })
  | .heartbeat env data =>
      let (answer, state) := handleHeartbeat env w.state data
      (some answer, { w with state := state })
  | .revoke env data =>
      let (answer, state) := handleRevoke env w.state data
      (some answer, { w with state := state })
  | .restart envValue => (none, { w with state := start w.state.disk envValue, waiting := [] })

def step (w : World) (event : Event) : World := (w.act event).2

end World

section

variable (w : World) (env : Env) (data : Value)

theorem World.step_heartbeat :
    w.step (.heartbeat env data) = { w with state := (handleHeartbeat env w.state data).2 } := rfl

theorem World.step_revoke :
    w.step (.revoke env data) = { w with state := (handleRevoke env w.state data).2 } := rfl

theorem World.step_enroll_state : (w.step (.enroll data)).state = w.state := by
  unfold World.step World.act
  dsimp only
  split <;> rfl

theorem World.act_update {w : World} {i : Nat} {request : Enrollment}
    (waits : w.waiting[i]? = some request) :
    w.act (.update i env) = (some (finishEnroll env w.state request).1,
      { state := (finishEnroll env w.state request).2
        waiting := w.waiting.eraseIdx i
        answers := w.answers ++ [(request, (finishEnroll env w.state request).1)] }) := by
  simp only [World.act, waits]

theorem World.act_update_none {w : World} {i : Nat} (waits : w.waiting[i]? = none) :
    w.act (.update i env) = (none, w) := by
  simp only [World.act, waits]

end

/-- Memory takes what a locked step made of it; the file takes it or stays. -/
def Settled (reg : Registry) (s s' : HubState) : Prop :=
  s'.memory = reg ∧ (s'.disk = some reg ∨ s'.disk = s.disk)

theorem respond_ok {result : Except Exc (Option (List (Str × Value)))} {payload : List (Str × Value)} :
    respond result = .sent ⟨200, payload⟩ ↔ result = .ok (some payload) := by
  unfold respond
  cases result with
  | error e => simp
  | ok found => cases found <;> simp [unknownOrRevoked]

/-- What a locked step leaves, and that a 200 is a step that was saved. -/
theorem withRegistry_settles {fault : Option Exc} {s : HubState}
    {fn : Registry → Except Exc (Option (List (Str × Value)) × Registry)}
    (refuses : ∀ reg, fn s.memory = .ok (none, reg) → reg = s.memory) :
    (withRegistry fault s fn).2 = s ∧
        (∀ payload, respond (withRegistry fault s fn).1 ≠ .sent ⟨200, payload⟩) ∨
      ∃ payload reg, fn s.memory = .ok (some payload, reg) ∧
        Settled reg s (withRegistry fault s fn).2 ∧
        (∀ payload', respond (withRegistry fault s fn).1 = .sent ⟨200, payload'⟩ →
          (withRegistry fault s fn).2.disk = some reg) := by
  rcases withRegistry_cases refuses with ⟨kept, silent, -⟩ | ⟨payload, reg, ran, outcome⟩
  · exact Or.inl ⟨kept, fun payload sent => silent payload (respond_ok.mp sent)⟩
  · refine Or.inr ⟨payload, reg, ran, ?_⟩
    rw [outcome]
    cases fault with
    | none => exact ⟨⟨rfl, Or.inl rfl⟩, fun _ _ => rfl⟩
    | some e =>
        refine ⟨⟨rfl, Or.inr rfl⟩, ?_⟩
        intro payload' sent
        cases sent

section

variable (env : Env) (s : HubState)

/-- What the locked step of an enrollment does. -/
theorem finishEnroll_cases (request : Enrollment) :
    (finishEnroll env s request).2 = s ∧
        (∀ payload, (finishEnroll env s request).1 ≠ .sent ⟨200, payload⟩) ∨
      ∃ token, request.presented = .str token ∧ token ∈ s.memory.enrollmentTokens ∧
        Settled
          { enrollmentTokens := s.memory.enrollmentTokens.erase token
            runners := s.memory.runners ++ [Registry.newRunner env.now env.minted request.runnerName
              request.repo request.labels request.hostAlias] }
          s (finishEnroll env s request).2 ∧
        (∀ payload, (finishEnroll env s request).1 = .sent ⟨200, payload⟩ →
          (finishEnroll env s request).2.disk = some (finishEnroll env s request).2.memory) := by
  rcases @withRegistry_settles env.fault s (doEnroll env request) (fun reg ran => doEnroll_none ran) with
    kept | ⟨payload, reg, ran, settled, onDisk⟩
  · exact Or.inl kept
  · obtain ⟨token, verified, -, rfl⟩ := doEnroll_some.mp ran
    obtain ⟨same, member⟩ := Registry.firstVerified_some verified
    refine Or.inr ⟨token, same, member, settled, ?_⟩
    intro payload' sent
    have written := onDisk payload' sent
    have held := settled.1
    exact written.trans (congrArg some held.symm)

/-- What a heartbeat does: nothing, or one update of the row it is for. -/
theorem handleHeartbeat_cases (data : Value) :
    (handleHeartbeat env s data).2 = s ∧
        (∀ payload, (handleHeartbeat env s data).1 ≠ .sent ⟨200, payload⟩) ∨
      ∃ name presented report, s.memory.verifyHeartbeatToken name presented = .ok true ∧
        Settled (s.memory.updateRunner name (Registry.reported env.now report)) s
          (handleHeartbeat env s data).2 := by
  cases data with
  | dict fields =>
      rcases @withRegistry_settles env.fault s _ (fun reg ran => doHeartbeat_none ran) with
        kept | ⟨payload, reg, ran, settled, -⟩
      · exact Or.inl kept
      · obtain ⟨verified, -, rfl⟩ := doHeartbeat_some.mp ran
        exact Or.inr ⟨_, _, _, verified, settled⟩
  | _ => exact Or.inl ⟨rfl, by simp [handleHeartbeat, badRequest]⟩

theorem handleRevoke_cases (data : Value) :
    (handleRevoke env s data).2 = s ∧
        (∀ payload, (handleRevoke env s data).1 ≠ .sent ⟨200, payload⟩) ∨
      ∃ fields presented, data = .dict fields ∧
        s.memory.verifyHeartbeatToken (getOr fields "runner_name" (.str [])) presented = .ok true ∧
        Settled
          (s.memory.updateRunner (getOr fields "runner_name" (.str [])) Registry.unenrolled) s
          (handleRevoke env s data).2 ∧
        (∀ payload, (handleRevoke env s data).1 = .sent ⟨200, payload⟩ →
          (handleRevoke env s data).2.disk = some (handleRevoke env s data).2.memory) := by
  cases data with
  | dict fields =>
      rcases @withRegistry_settles env.fault s _ (fun reg ran => doRevoke_none ran) with
        kept | ⟨payload, reg, ran, settled, onDisk⟩
      · exact Or.inl kept
      · obtain ⟨verified, -, rfl⟩ := doRevoke_some.mp ran
        refine Or.inr ⟨fields, _, rfl, verified, settled, ?_⟩
        intro payload' sent
        have written := onDisk payload' sent
        have held := settled.1
        exact written.trans (congrArg some held.symm)
  | _ => exact Or.inl ⟨rfl, by simp [handleRevoke, badRequest]⟩

end

theorem updateFirst_map {α β : Type} {fits : α → Bool} {f : α → α} {g : α → β}
    (kept : ∀ a, g (f a) = g a) (items : List α) :
    (updateFirst fits f items).map g = items.map g := by
  induction items with
  | nil => rfl
  | cons a rest ih =>
      unfold updateFirst
      split
      · rw [List.map_cons, List.map_cons, kept]
      · rw [List.map_cons, List.map_cons, ih]

theorem Registry.names_updateRunner (reg : Registry) (name : Value) {f : Runner → Runner}
    (kept : ∀ runner, (f runner).name = runner.name) :
    (reg.updateRunner name f).names = reg.names :=
  updateFirst_map kept reg.runners

theorem Registry.foldl_addEnrollmentToken_runners (tokens : List Str) (reg : Registry) :
    (tokens.foldl Registry.addEnrollmentToken reg).runners = reg.runners := by
  induction tokens generalizing reg with
  | nil => rfl
  | cons token rest ih =>
      rw [List.foldl_cons, ih, Registry.addEnrollmentToken]
      split <;> rfl

/-- A start takes its rows from the file. -/
@[simp] theorem start_runners (disk : Option Registry) (envValue : Str) :
    (start disk envValue).memory.runners = (disk.getD ⟨[], []⟩).runners :=
  Registry.foldl_addEnrollmentToken_runners _ _

end DevGate.Hub
