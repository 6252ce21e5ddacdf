import DevGate.Hub.PollTotality

set_option autoImplicit false

/- Which requests leave a registry that the monitor polls through, over whole runs
of the hub. -/
namespace DevGate.Hub

open Py Server

/-- An enrollment that is granted in this step adds a readable row. -/
def Harmless (config : Config) (w : World) (event : Event) : Prop :=
  match event with
  | .update i _ => ∀ request token, w.waiting[i]? = some request →
      Registry.firstVerified request.presented w.state.memory.enrollmentTokens = .ok (some token) →
        Readable config request.repo request.labels
  | _ => True

def RowsReadable (config : Config) (reg : Registry) : Prop :=
  ∀ runner ∈ reg.runners, Readable config runner.repo runner.labels

/-- Every row is readable, in memory and in the file. -/
structure AllReadable (config : Config) (w : World) : Prop where
  memory : RowsReadable config w.state.memory
  disk : ∀ reg, w.state.disk = some reg → RowsReadable config reg

theorem updateFirst_forall {α : Type} {fits : α → Bool} {f : α → α} {P : α → Prop}
    (kept : ∀ a, P a → P (f a)) {items : List α} (all : ∀ a ∈ items, P a) :
    ∀ a ∈ updateFirst fits f items, P a := by
  induction items with
  | nil => exact all
  | cons first rest ih =>
      rw [List.forall_mem_cons] at all
      unfold updateFirst
      split
      · exact List.forall_mem_cons.mpr ⟨kept first all.1, all.2⟩
      · exact List.forall_mem_cons.mpr ⟨all.1, ih all.2⟩

/-- The locked step of an enrollment: no token verifies and nothing changes, or
one does and the row joins, saved or not. -/
theorem finishEnroll_grants (env : Env) (s : HubState) (request : Enrollment) :
    ((∀ token, Registry.firstVerified request.presented s.memory.enrollmentTokens ≠ .ok (some token)) ∧
        (finishEnroll env s request).2 = s) ∨
      ∃ token, Registry.firstVerified request.presented s.memory.enrollmentTokens = .ok (some token) ∧
        Settled
          { enrollmentTokens := s.memory.enrollmentTokens.erase token
            runners := s.memory.runners ++ [Registry.newRunner env.now env.minted request.runnerName
              request.repo request.labels request.hostAlias] }
          s (finishEnroll env s request).2 := by
  rcases @withRegistry_cases _ env.fault s (doEnroll env request) (fun reg ran => doEnroll_none ran) with
    ⟨kept, -, refused⟩ | ⟨payload, reg, ran, outcome⟩
  · refine Or.inl ⟨fun token verified => ?_, kept⟩
    exact refused _ _ (doEnroll_some.mpr ⟨token, verified, rfl, rfl⟩)
  · obtain ⟨token, verified, -, rfl⟩ := doEnroll_some.mp ran
    refine Or.inr ⟨token, verified, ?_⟩
    rw [finishEnroll, outcome]
    cases env.fault with
    | none => exact ⟨rfl, Or.inl rfl⟩
    | some e => exact ⟨rfl, Or.inr rfl⟩

section

variable {config : Config} {w : World}

theorem AllReadable.settled (all : AllReadable config w) {reg : Registry}
    (readable : RowsReadable config reg) {w' : World} (settled : Settled reg w.state w'.state) :
    AllReadable config w' := by
  refine ⟨by rw [settled.1]; exact readable, ?_⟩
  intro saved onDisk
  rcases settled.2 with written | kept
  · rw [written, Option.some.injEq] at onDisk
    rw [← onDisk]
    exact readable
  · exact all.disk saved (kept ▸ onDisk)

theorem RowsReadable.through {reg : Registry} (readable : RowsReadable config reg) :
    PollsThrough config reg :=
  pollsThrough_iff.mpr (fun runner member _ => readable runner member)

theorem RowsReadable.updateRunner {reg : Registry} (readable : RowsReadable config reg) (name : Value)
    {f : Runner → Runner} (kept : ∀ runner, (f runner).repo = runner.repo ∧
      (f runner).labels = runner.labels) : RowsReadable config (reg.updateRunner name f) := by
  refine updateFirst_forall (fun runner here => ?_) readable
  rw [(kept runner).1, (kept runner).2]
  exact here

/-- Steps other than an enrollment's locked one keep the rows readable. -/
theorem other_readable (all : AllReadable config w) (event : Event)
    (other : ∀ i env, event ≠ .update i env) : AllReadable config (w.step event) := by
  cases event with
  | enroll data =>
      have kept := w.step_enroll_state data
      exact ⟨by rw [kept]; exact all.memory, by rw [kept]; exact all.disk⟩
  | update i env => exact absurd rfl (other i env)
  | heartbeat env data =>
      rcases handleHeartbeat_cases env w.state data with
        ⟨kept, -⟩ | ⟨name, presented, report, -, settled⟩
      · rw [World.step_heartbeat, kept]
        exact all
      · have rows : RowsReadable config
            (w.state.memory.updateRunner name (Registry.reported env.now report)) :=
          all.memory.updateRunner name (fun _ => ⟨rfl, rfl⟩)
        exact all.settled rows settled
  | revoke env data =>
      rcases handleRevoke_cases env w.state data with
        ⟨kept, -⟩ | ⟨fields, presented, -, -, settled, -⟩
      · rw [World.step_revoke, kept]
        exact all
      · have rows : RowsReadable config (w.state.memory.updateRunner
            (getOr fields "runner_name" (.str [])) Registry.unenrolled) :=
          all.memory.updateRunner _ (fun _ => ⟨rfl, rfl⟩)
        exact all.settled rows settled
  | restart envValue =>
      have loaded : RowsReadable config (start w.state.disk envValue).memory := by
        intro runner member
        rw [start_runners] at member
        cases onDisk : w.state.disk with
        | none =>
            rw [onDisk] at member
            exact absurd member List.not_mem_nil
        | some reg =>
            rw [onDisk] at member
            exact all.disk reg onDisk runner member
      refine ⟨loaded, ?_⟩
      intro reg onDisk
      cases onDisk
      exact loaded

/-- What the locked step of an enrollment does to rows that are all readable. -/
theorem update_readable (all : AllReadable config w) (i : Nat) (env : Env) :
    (PollsThrough config (w.step (.update i env)).state.memory ↔ Harmless config w (.update i env)) ∧
      (Harmless config w (.update i env) → AllReadable config (w.step (.update i env))) := by
  cases waits : w.waiting[i]? with
  | none =>
      have idle : w.step (.update i env) = w := by rw [World.step, World.act_update_none env waits]
      have harmless : Harmless config w (.update i env) := by
        intro request token found
        rw [waits] at found
        cases found
      rw [idle]
      exact ⟨⟨fun _ => harmless, fun _ => all.memory.through⟩, fun _ => all⟩
  | some request =>
      have after : (w.step (.update i env)).state = (finishEnroll env w.state request).2 := by
        rw [World.step, World.act_update env waits]
      rcases finishEnroll_grants env w.state request with ⟨refused, kept⟩ | ⟨token, verified, settled⟩
      · have harmless : Harmless config w (.update i env) := by
          intro request' token found verified
          rw [waits, Option.some.injEq] at found
          rw [← found] at verified
          exact absurd verified (refused token)
        rw [kept] at after
        rw [after]
        exact ⟨⟨fun _ => harmless, fun _ => all.memory.through⟩,
          fun _ => ⟨by rw [after]; exact all.memory, by rw [after]; exact all.disk⟩⟩
      · rw [← after] at settled
        have joined (harmless : Harmless config w (.update i env)) :
            RowsReadable config (w.step (.update i env)).state.memory := by
          rw [settled.1]
          intro runner member
          rcases List.mem_append.mp member with old | new
          · exact all.memory runner old
          · rw [List.mem_singleton] at new
            subst new
            exact harmless request token waits verified
        refine ⟨⟨fun through => ?_, fun harmless => (joined harmless).through⟩,
          fun harmless => all.settled (settled.1 ▸ joined harmless) settled⟩
        intro request' token' found verified'
        rw [waits, Option.some.injEq] at found
        subst found
        rw [settled.1] at through
        exact pollsThrough_iff.mp through _ (List.mem_append_right _ List.mem_cons_self) rfl

/-- In every run of the hub the monitor polls every registry through exactly
where every enrollment that is granted brings a readable row. -/
theorem polls_through_iff (config : Config) (events : List Event) :
    Machine.Always World.step (fun w => PollsThrough config w.state.memory) World.blank events ↔
      Machine.Allows World.step (Harmless config) World.blank events := by
  have blank : AllReadable config World.blank :=
    ⟨fun _ member => absurd member List.not_mem_nil, fun _ onDisk => by cases onDisk⟩
  rw [Machine.always_iff_after]
  have agree : Machine.Allows World.step
      (fun w event => PollsThrough config (w.step event).state.memory) World.blank events ↔
        Machine.Allows World.step (Harmless config) World.blank events := by
    apply @Machine.allows_congr World Event World.step (AllReadable config)
    · intro w event all
      cases event with
      | update i env => exact (update_readable all i env).1
      | enroll data =>
          exact ⟨fun _ => trivial, fun _ => (other_readable all (.enroll data) (by simp)).memory.through⟩
      | heartbeat env data =>
          exact ⟨fun _ => trivial,
            fun _ => (other_readable all (.heartbeat env data) (by simp)).memory.through⟩
      | revoke env data =>
          exact ⟨fun _ => trivial, fun _ => (other_readable all (.revoke env data) (by simp)).memory.through⟩
      | restart envValue =>
          exact ⟨fun _ => trivial, fun _ => (other_readable all (.restart envValue) (by simp)).memory.through⟩
    · intro w event all harmless
      cases event with
      | update i env => exact (update_readable all i env).2 harmless
      | enroll data => exact other_readable all (.enroll data) (by simp)
      | heartbeat env data => exact other_readable all (.heartbeat env data) (by simp)
      | revoke env data => exact other_readable all (.revoke env data) (by simp)
      | restart envValue => exact other_readable all (.restart envValue) (by simp)
    · exact blank
  rw [agree]
  exact ⟨fun both => both.2, fun harmless => ⟨blank.memory.through, harmless⟩⟩

end

namespace NumberedLabels

def token : Str := "aaaaaaaaaaaaaaaa"

def config : Config where
  heartbeatIntervalSec := 300
  queueThresholdMin := .fin 30
  driftGraceMin := .fin 10
  driftWorkflowMatch := "drift"
  coherenceWorkflowMatch := "coherence"
  watchedBranches := ["default"]
  apiBackoffMaxSec := 120

/-- `"labels": 5` -/
def body : Value :=
  .dict [("runner_name", .str "r"), ("repo", .str "o/n"), ("enrollment_token", .str token),
    ("labels", .int 5)]

def run : List Event := [.restart token, .enroll body, .update 0 ⟨⟨2026, 9, 27, 12, 0, 0⟩, "s", none⟩]

end NumberedLabels

theorem numbered_labels_cut_short :
    ¬ Machine.Always World.step (fun w => PollsThrough NumberedLabels.config w.state.memory)
      World.blank NumberedLabels.run := by
  intro always
  have through := always NumberedLabels.run [] (by simp)
  have row : Registry.newRunner ⟨2026, 9, 27, 12, 0, 0⟩ "s" "r" "o/n" (.int 5) (.str []) ∈
      (Machine.run World.step World.blank NumberedLabels.run).state.memory.runners := by
    decide +kernel
  exact absurd (pollsThrough_iff.mp through _ row rfl).read (by decide)

end DevGate.Hub
