import DevGate.Hub.Service

set_option autoImplicit false

/- Runner names under concurrent requests: which steps keep them unique and
answer a taken name with 409. -/
namespace DevGate.Hub

open Py Server

/-- The name the enroll request of a step asks for. -/
def World.enrolling (w : World) (event : Event) : Option Str :=
  match event with
  | .enroll (.dict fields) => (Dict.get? fields "runner_name").bind Value.str?
  | .update i _ => (w.waiting[i]?).map Enrollment.runnerName
  | _ => none

/-- An enroll request for a name that is present is answered 409, its token kept. -/
def Refuses (w : World) (event : Event) : Prop :=
  ∀ name answer, w.enrolling event = some name → name ∈ w.state.memory.names →
    (w.act event).1 = some answer →
      answer = .sent alreadyEnrolled ∧
        (w.step event).state.memory.enrollmentTokens = w.state.memory.enrollmentTokens

/-- A request for a present name is well formed, and no locked step of an
enrollment meets its own name. -/
def Fresh (w : World) (event : Event) : Prop :=
  match event with
  | .enroll data => ∀ name, w.enrolling (.enroll data) = some name → name ∈ w.state.memory.names →
      ∃ request, readEnroll data = .inr request
  | .update i _ => ∀ request, w.waiting[i]? = some request →
      request.runnerName ∉ w.state.memory.names
  | _ => True

/-- No two rows have one name, in memory and in the file. -/
structure Unique (w : World) : Prop where
  memory : w.state.memory.names.Nodup
  disk : ∀ reg, w.state.disk = some reg → reg.names.Nodup

theorem Unique.settled {w : World} (unique : Unique w) {reg : Registry} (distinct : reg.names.Nodup)
    {w' : World} (settled : Settled reg w.state w'.state) : Unique w' := by
  refine ⟨by rw [settled.1]; exact distinct, ?_⟩
  intro saved onDisk
  rcases settled.2 with written | kept
  · rw [written, Option.some.injEq] at onDisk
    rw [← onDisk]
    exact distinct
  · exact unique.disk saved (kept ▸ onDisk)

theorem Registry.findRunner_str {reg : Registry} {name : Str} :
    (reg.findRunner (.str name)).isSome = true ↔ name ∈ reg.names := by
  rw [Registry.findRunner, List.find?_isSome, Registry.names, List.mem_map]
  simp only [Registry.isNamed_str]

theorem names_newRunner (env : Env) (request : Enrollment) (reg : Registry) (tokens : List Str) :
    Registry.names
        { enrollmentTokens := tokens
          runners := reg.runners ++ [Registry.newRunner env.now env.minted request.runnerName
            request.repo request.labels request.hostAlias] } =
      reg.names ++ [request.runnerName] := by
  simp [Registry.names, Registry.newRunner]

theorem readEnroll_ne_alreadyEnrolled (data : Value) :
    readEnroll data ≠ .inl (.sent alreadyEnrolled) := by
  unfold readEnroll
  cases data with
  | dict fields =>
      dsimp only
      split
      · split
        · simp [badRequest, alreadyEnrolled]
        · split
          · split
            · simp [badRequest, alreadyEnrolled]
            · split
              · simp [badRequest, alreadyEnrolled]
              · simp
          · simp
      · simp [badRequest, alreadyEnrolled]
  | _ => simp [badRequest, alreadyEnrolled]

/-- A locked step answers 200, 401 or not at all. -/
theorem respond_ne_alreadyEnrolled (result : Except Exc (Option (List (Str × Value)))) :
    respond result ≠ .sent alreadyEnrolled := by
  cases result with
  | error e => simp [respond]
  | ok found => cases found <;> simp [respond, unknownOrRevoked, alreadyEnrolled]

section

variable {w : World} (unique : Unique w)

include unique

theorem enroll_step_iff (data : Value) :
    (w.step (.enroll data)).state.memory.names.Nodup ∧ Refuses w (.enroll data) ↔
      Fresh w (.enroll data) := by
  have kept := w.step_enroll_state data
  rw [kept]
  constructor
  · rintro ⟨-, refuses⟩ name enrolling present
    cases read : readEnroll data with
    | inr request => exact ⟨request, rfl⟩
    | inl answer =>
        have sent : (w.act (.enroll data)).1 = some answer := by
          simp only [World.act, probeEnroll, read]
        have found := (refuses name answer enrolling present sent).1
        rw [found] at read
        exact absurd read (readEnroll_ne_alreadyEnrolled data)
  · intro fresh
    refine ⟨unique.memory, ?_⟩
    intro name answer enrolling present sent
    refine ⟨?_, by rw [kept]⟩
    obtain ⟨request, read⟩ := fresh name enrolling present
    have same : request.runnerName = name := by
      cases data with
      | dict fields =>
          rw [World.enrolling, readEnroll_name read] at enrolling
          exact Option.some.inj enrolling
      | _ => cases enrolling
    have found := Registry.findRunner_str.mpr present
    rw [← same] at found
    obtain ⟨runner, here⟩ := Option.isSome_iff_exists.mp found
    simp only [World.act, probeEnroll, read, here, Option.some.injEq] at sent
    exact sent.symm

theorem update_step_iff (i : Nat) (env : Env) :
    (w.step (.update i env)).state.memory.names.Nodup ∧ Refuses w (.update i env) ↔
      Fresh w (.update i env) := by
  cases waits : w.waiting[i]? with
  | none =>
      have idle := World.act_update_none env waits
      constructor
      · intro _ request found
        rw [waits] at found
        cases found
      · intro _
        refine ⟨by rw [World.step, idle]; exact unique.memory, ?_⟩
        intro name answer _ _ sent
        rw [idle] at sent
        cases sent
  | some request =>
      have act := World.act_update env waits
      have asked : w.enrolling (.update i env) = some request.runnerName := by
        simp only [World.enrolling, waits, Option.map_some]
      have after : (w.step (.update i env)).state = (finishEnroll env w.state request).2 := by
        rw [World.step, act]
      constructor
      · rintro ⟨-, refuses⟩ request' found present
        rw [waits] at found
        cases found
        have answered := (refuses _ (finishEnroll env w.state request).1 asked present (by rw [act])).1
        exact respond_ne_alreadyEnrolled _ answered
      · intro fresh
        have absent := fresh request waits
        refine ⟨?_, fun name answer enrolling present _ => ?_⟩
        · rw [after]
          rcases finishEnroll_cases env w.state request with
            ⟨kept, -⟩ | ⟨token, -, -, settled, -⟩
          · rw [kept]
            exact unique.memory
          · rw [settled.1, names_newRunner]
            exact List.Nodup.append unique.memory (List.nodup_singleton _)
              (by simpa using absent)
        · rw [asked, Option.some.injEq] at enrolling
          exact absurd (enrolling ▸ present) absent

/-- The other steps ask for no name and keep the names of memory or of the file. -/
theorem other_step (event : Event)
    (other : (∀ data, event ≠ .enroll data) ∧ ∀ i env, event ≠ .update i env) :
    Unique (w.step event) ∧ Refuses w event := by
  cases event with
  | enroll data => exact absurd rfl (other.1 data)
  | update i env => exact absurd rfl (other.2 i env)
  | heartbeat env data =>
      refine ⟨?_, fun name answer enrolling => by cases enrolling⟩
      rcases handleHeartbeat_cases env w.state data with
        ⟨kept, -⟩ | ⟨name, presented, report, -, settled⟩
      · rw [World.step_heartbeat, kept]
        exact unique
      · refine unique.settled ?_ settled
        rw [Registry.names_updateRunner _ _ (Registry.reported_name env.now report)]
        exact unique.memory
  | revoke env data =>
      refine ⟨?_, fun name answer enrolling => by cases enrolling⟩
      rcases handleRevoke_cases env w.state data with
        ⟨kept, -⟩ | ⟨fields, presented, -, -, settled, -⟩
      · rw [World.step_revoke, kept]
        exact unique
      · refine unique.settled ?_ settled
        rw [Registry.names_updateRunner _ _ Registry.unenrolled_name]
        exact unique.memory
  | restart envValue =>
      refine ⟨?_, fun name answer enrolling => by cases enrolling⟩
      have loaded : (start w.state.disk envValue).memory.names.Nodup := by
        rw [Registry.names, start_runners]
        cases onDisk : w.state.disk with
        | none => exact List.nodup_nil
        | some reg => exact unique.disk reg onDisk
      refine ⟨loaded, ?_⟩
      intro reg onDisk
      cases onDisk
      exact loaded

theorem step_iff (event : Event) :
    (w.step event).state.memory.names.Nodup ∧ Refuses w event ↔ Fresh w event := by
  cases event with
  | enroll data => exact enroll_step_iff unique data
  | update i env => exact update_step_iff unique i env
  | heartbeat env data =>
      have kept := other_step unique (.heartbeat env data) (by simp)
      exact ⟨fun _ => trivial, fun _ => ⟨kept.1.memory, kept.2⟩⟩
  | revoke env data =>
      have kept := other_step unique (.revoke env data) (by simp)
      exact ⟨fun _ => trivial, fun _ => ⟨kept.1.memory, kept.2⟩⟩
  | restart envValue =>
      have kept := other_step unique (.restart envValue) (by simp)
      exact ⟨fun _ => trivial, fun _ => ⟨kept.1.memory, kept.2⟩⟩

theorem fresh_step {event : Event} (fresh : Fresh w event) : Unique (w.step event) := by
  have distinct := ((step_iff unique event).mpr fresh).1
  cases event with
  | enroll data =>
      have kept := w.step_enroll_state data
      exact ⟨distinct, by rw [kept]; exact unique.disk⟩
  | update i env =>
      cases waits : w.waiting[i]? with
      | none =>
          have idle : w.step (.update i env) = w := by rw [World.step, World.act_update_none env waits]
          rw [idle]
          exact unique
      | some request =>
          have after : (w.step (.update i env)).state = (finishEnroll env w.state request).2 := by
            rw [World.step, World.act_update env waits]
          rcases finishEnroll_cases env w.state request with
            ⟨kept, -⟩ | ⟨token, -, -, settled, -⟩
          · exact ⟨distinct, by rw [after, kept]; exact unique.disk⟩
          · rw [← after] at settled
            exact unique.settled (by rw [← settled.1]; exact distinct) settled
  | heartbeat env data => exact (other_step unique (.heartbeat env data) (by simp)).1
  | revoke env data => exact (other_step unique (.revoke env data) (by simp)).1
  | restart envValue => exact (other_step unique (.restart envValue) (by simp)).1

end

namespace Race

def token₁ : Str := "aaaaaaaaaaaaaaaa"

def token₂ : Str := "bbbbbbbbbbbbbbbb"

def body (token : Str) : Value :=
  .dict [("runner_name", .str "r"), ("repo", .str "o/n"), ("enrollment_token", .str token)]

def env (minted : Str) : Env := ⟨⟨2026, 9, 27, 12, 0, 0⟩, minted, none⟩

def hub : World := ⟨⟨⟨[token₁, token₂], []⟩, some ⟨[token₁, token₂], []⟩⟩, [], []⟩

/-- Two requests for one name, each past its probe before either has the lock. -/
def run : List Event :=
  [.enroll (body token₁), .enroll (body token₂), .update 0 (env "s"), .update 0 (env "t")]

end Race

end DevGate.Hub
