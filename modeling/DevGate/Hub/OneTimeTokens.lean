import DevGate.Hub.Service

set_option autoImplicit false

/- Enrollment tokens over the life of a registry: a start that configures none of
the tokens already used leaves each good for one enrollment. -/
namespace DevGate.Hub

open Py Server

/-- The token an answered enroll request was granted for. -/
def grant (answered : Enrollment × Answer) : Option Str :=
  match answered.2 with
  | .sent reply => if reply.code = 200 then answered.1.presented.str? else none
  | .dropped _ => none

/-- The tokens of the enrollments answered 200 so far. -/
def granted (w : World) : List Str := w.answers.filterMap grant

/-- A start configures no token that has been used. -/
def Unspent (w : World) (event : Event) : Prop :=
  match event with
  | .restart envValue => ∀ token ∈ acceptedTokens envValue, token ∉ granted w
  | _ => True

/-- No token was granted twice, and none that was granted is stored. -/
structure OneTime (w : World) : Prop where
  once : (granted w).Nodup
  memory : w.state.memory.enrollmentTokens.Nodup
  disk : ∀ reg, w.state.disk = some reg → reg.enrollmentTokens.Nodup
  gone : ∀ token ∈ granted w, token ∉ w.state.memory.enrollmentTokens ∧
    ∀ reg, w.state.disk = some reg → token ∉ reg.enrollmentTokens

namespace OneTime

variable {w w' : World}

/-- A step that grants nothing and stores no new token. -/
theorem settled (oneTime : OneTime w) (same : granted w' = granted w) {reg : Registry}
    (fewer : List.Sublist reg.enrollmentTokens w.state.memory.enrollmentTokens)
    (moved : Settled reg w.state w'.state) : OneTime w' := by
  have distinct : reg.enrollmentTokens.Nodup := oneTime.memory.sublist fewer
  have absent : ∀ token ∈ granted w, token ∉ reg.enrollmentTokens :=
    fun token used stored => (oneTime.gone token used).1 (fewer.subset stored)
  have onDisk : ∀ saved, w'.state.disk = some saved → saved = reg ∨ w.state.disk = some saved := by
    intro saved found
    rcases moved.2 with written | kept
    · rw [written, Option.some.injEq] at found
      exact Or.inl found.symm
    · exact Or.inr (kept ▸ found)
  refine ⟨same ▸ oneTime.once, by rw [moved.1]; exact distinct, ?_, ?_⟩
  · intro saved found
    rcases onDisk saved found with rfl | old
    · exact distinct
    · exact oneTime.disk saved old
  · intro token used
    rw [same] at used
    refine ⟨by rw [moved.1]; exact absent token used, ?_⟩
    intro saved found
    rcases onDisk saved found with rfl | old
    · exact absent token used
    · exact (oneTime.gone token used).2 saved old

/-- A granted enrollment: its token was stored once and is off memory and file. -/
theorem grants (oneTime : OneTime w) {token : Str} (stored : token ∈ w.state.memory.enrollmentTokens)
    (recorded : granted w' = granted w ++ [token])
    (taken : w'.state.memory.enrollmentTokens = w.state.memory.enrollmentTokens.erase token)
    (saved : w'.state.disk = some w'.state.memory) : OneTime w' := by
  have unused : token ∉ granted w := fun used => (oneTime.gone token used).1 stored
  have distinct : w'.state.memory.enrollmentTokens.Nodup := by
    rw [taken]
    exact oneTime.memory.erase token
  have off : ∀ used ∈ granted w', used ∉ w'.state.memory.enrollmentTokens := by
    intro used member
    rw [taken]
    rw [recorded, List.mem_append, List.mem_singleton] at member
    rcases member with earlier | rfl
    · exact fun left => (oneTime.gone used earlier).1 (List.mem_of_mem_erase left)
    · exact oneTime.memory.not_mem_erase
  refine ⟨?_, distinct, ?_, ?_⟩
  · rw [recorded]
    exact List.Nodup.append oneTime.once (List.nodup_singleton token) (by simpa using unused)
  · intro reg found
    rw [saved, Option.some.injEq] at found
    rw [← found]
    exact distinct
  · intro used member
    refine ⟨off used member, ?_⟩
    intro reg found
    rw [saved, Option.some.injEq] at found
    rw [← found]
    exact off used member

end OneTime

theorem foldl_addEnrollmentToken_nodup (tokens : List Str) {reg : Registry}
    (distinct : reg.enrollmentTokens.Nodup) :
    (tokens.foldl Registry.addEnrollmentToken reg).enrollmentTokens.Nodup := by
  induction tokens generalizing reg with
  | nil => exact distinct
  | cons token rest ih =>
      apply ih
      unfold Registry.addEnrollmentToken
      by_cases stored : token ∈ reg.enrollmentTokens
      · rw [if_pos stored]
        exact distinct
      · rw [if_neg stored]
        exact List.Nodup.append distinct (List.nodup_singleton token) (by simpa using stored)

theorem mem_foldl_addEnrollmentToken {token : Str} (tokens : List Str) {reg : Registry}
    (member : token ∈ (tokens.foldl Registry.addEnrollmentToken reg).enrollmentTokens) :
    token ∈ reg.enrollmentTokens ∨ token ∈ tokens := by
  induction tokens generalizing reg with
  | nil => exact Or.inl member
  | cons first rest ih =>
      rcases ih member with stored | later
      · unfold Registry.addEnrollmentToken at stored
        split at stored
        · exact Or.inl stored
        · rcases List.mem_append.mp stored with old | new
          · exact Or.inl old
          · rw [List.mem_singleton] at new
            exact Or.inr (new ▸ List.mem_cons_self)
      · exact Or.inr (List.mem_cons_of_mem _ later)

/-- What a start serves with: tokens of the file and of the environment. -/
theorem mem_start {token : Str} {disk : Option Registry} {envValue : Str}
    (member : token ∈ (start disk envValue).memory.enrollmentTokens) :
    (∃ reg, disk = some reg ∧ token ∈ reg.enrollmentTokens) ∨ token ∈ acceptedTokens envValue := by
  have stored := (List.mem_filter.mp member).1
  rcases mem_foldl_addEnrollmentToken _ stored with old | new
  · cases disk with
    | none => cases old
    | some reg => exact Or.inl ⟨reg, rfl, old⟩
  · exact Or.inr new

theorem start_nodup {disk : Option Registry} (envValue : Str)
    (distinct : ∀ reg, disk = some reg → reg.enrollmentTokens.Nodup) :
    (start disk envValue).memory.enrollmentTokens.Nodup := by
  apply List.Nodup.filter
  apply foldl_addEnrollmentToken_nodup
  cases disk with
  | none => exact List.nodup_nil
  | some reg => exact distinct reg rfl

theorem grant_eq_none {request : Enrollment} {answer : Answer}
    (other : ∀ payload, answer ≠ .sent ⟨200, payload⟩) : grant (request, answer) = none := by
  cases answer with
  | dropped e => rfl
  | sent reply =>
      obtain ⟨code, payload⟩ := reply
      have apart : code ≠ 200 := by
        rintro rfl
        exact other payload rfl
      simp only [grant, apart, ↓reduceIte]

theorem oneTime_update {w : World} (oneTime : OneTime w) (i : Nat) (env : Env) :
    OneTime (w.step (.update i env)) := by
  cases waits : w.waiting[i]? with
  | none =>
      rw [World.step, World.act_update_none env waits]
      exact oneTime
  | some request =>
      have after : w.step (.update i env) = (w.act (.update i env)).2 := rfl
      rw [World.act_update env waits] at after
      have recorded : granted (w.step (.update i env)) =
          granted w ++ (grant (request, (finishEnroll env w.state request).1)).toList := by
        rw [after, granted, granted, List.filterMap_append]
        cases given : grant (request, (finishEnroll env w.state request).1) <;> simp [given]
      have state : (w.step (.update i env)).state = (finishEnroll env w.state request).2 := by
        rw [after]
      rcases finishEnroll_cases env w.state request with
        ⟨kept, silent⟩ | ⟨token, presented, stored, moved, onDisk⟩
      · rw [grant_eq_none silent, Option.toList_none, List.append_nil] at recorded
        refine oneTime.settled recorded (List.Sublist.refl _) ⟨?_, Or.inr ?_⟩
        · rw [state, kept]
        · rw [state, kept]
      · rw [← state] at moved
        by_cases answered : ∃ payload, (finishEnroll env w.state request).1 = .sent ⟨200, payload⟩
        · obtain ⟨payload, sent⟩ := answered
          have given : grant (request, (finishEnroll env w.state request).1) = some token := by
            rw [sent, grant, presented]
            rfl
          rw [given, Option.toList_some] at recorded
          have saved := onDisk payload sent
          rw [← state] at saved
          exact oneTime.grants stored recorded (by rw [moved.1]) saved
        · rw [grant_eq_none (fun payload sent => answered ⟨payload, sent⟩), Option.toList_none,
            List.append_nil] at recorded
          exact oneTime.settled recorded List.erase_sublist moved

theorem oneTime_step {w : World} (oneTime : OneTime w) {event : Event} (unspent : Unspent w event) :
    OneTime (w.step event) := by
  cases event with
  | enroll data =>
      have state := w.step_enroll_state data
      have same : granted (w.step (.enroll data)) = granted w := by
        unfold World.step World.act
        dsimp only
        split <;> rfl
      exact oneTime.settled same (List.Sublist.refl _) ⟨by rw [state], Or.inr (by rw [state])⟩
  | update i env => exact oneTime_update oneTime i env
  | heartbeat env data =>
      rw [World.step_heartbeat]
      rcases handleHeartbeat_cases env w.state data with ⟨kept, -⟩ | ⟨name, presented, report, -, moved⟩
      · rw [kept]
        exact oneTime
      · refine oneTime.settled rfl ?_ moved
        exact List.Sublist.refl _
  | revoke env data =>
      rw [World.step_revoke]
      rcases handleRevoke_cases env w.state data with ⟨kept, -⟩ | ⟨fields, presented, -, -, moved, -⟩
      · rw [kept]
        exact oneTime
      · refine oneTime.settled rfl ?_ moved
        exact List.Sublist.refl _
  | restart envValue =>
      have distinct := start_nodup envValue oneTime.disk
      have off : ∀ token ∈ granted w,
          token ∉ (start w.state.disk envValue).memory.enrollmentTokens := by
        intro token used stored
        rcases mem_start stored with ⟨reg, onDisk, held⟩ | configured
        · exact (oneTime.gone token used).2 reg onDisk held
        · exact unspent token configured used
      refine ⟨oneTime.once, distinct, ?_, ?_⟩
      · intro reg onDisk
        cases onDisk
        exact distinct
      · intro token used
        refine ⟨off token used, ?_⟩
        intro reg onDisk
        cases onDisk
        exact off token used

theorem oneTime_blank : OneTime World.blank where
  once := List.nodup_nil
  memory := List.nodup_nil
  disk := by
    intro reg none
    cases none
  gone := by
    intro token none
    cases none

namespace Restarted

def token : Str := "aaaaaaaaaaaaaaaa"

def body (name : Str) : Value :=
  .dict [("runner_name", .str name), ("repo", .str "o/n"), ("enrollment_token", .str token)]

def env (minted : Str) : Env := ⟨⟨2026, 9, 27, 12, 0, 0⟩, minted, none⟩

/-- One enrollment, a restart with the same configuration, a second enrollment. -/
def run : List Event :=
  [.restart token, .enroll (body "r"), .update 0 (env "s"), .restart token, .enroll (body "q"),
    .update 0 (env "t")]

end Restarted

end DevGate.Hub
