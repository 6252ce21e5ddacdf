import DevGate.Hub.Service

set_option autoImplicit false

/- A revoked name stays revoked: its row is found first, disabled, and no later
step assigns to it. -/
namespace DevGate.Hub

open Py Server

theorem find?_updateFirst {α : Type} {fits : α → Bool} {f : α → α} (kept : ∀ a, fits (f a) = fits a)
    (items : List α) : (updateFirst fits f items).find? fits = (items.find? fits).map f := by
  induction items with
  | nil => rfl
  | cons a rest ih =>
      by_cases here : fits a = true
      · have still : fits (f a) = true := (kept a).trans here
        simp [updateFirst, here, still]
      · simpa [updateFirst, here] using ih

theorem find?_updateFirst_other {α : Type} {fits other : α → Bool} {f : α → α}
    (kept : ∀ a, other (f a) = other a) (apart : ∀ a, fits a = true → other a = false)
    (items : List α) : (updateFirst fits f items).find? other = items.find? other := by
  induction items with
  | nil => rfl
  | cons a rest ih =>
      by_cases here : fits a = true
      · have missed := apart a here
        have still : other (f a) = false := (kept a).trans missed
        simp [updateFirst, here, missed, still]
      · by_cases found : other a = true
        · simp [updateFirst, here, found]
        · simpa [updateFirst, here, found] using ih

namespace Registry

variable {reg : Registry} {name other : Value} {f : Runner → Runner}

theorem isNamed_congr (kept : ∀ runner, (f runner).name = runner.name) (runner : Runner) :
    isNamed name (f runner) = isNamed name runner := by
  rw [isNamed, isNamed, kept]

theorem findRunner_updateRunner (kept : ∀ runner, (f runner).name = runner.name) :
    (reg.updateRunner name f).findRunner name = (reg.findRunner name).map f :=
  find?_updateFirst (isNamed_congr kept) reg.runners

/-- An update of one name's row is not seen under another name. -/
theorem findRunner_updateRunner_other (kept : ∀ runner, (f runner).name = runner.name)
    (apart : other ≠ name) :
    (reg.updateRunner name f).findRunner other = reg.findRunner other := by
  apply find?_updateFirst_other (isNamed_congr kept)
  intro runner here
  by_contra both
  rw [Bool.not_eq_false] at both
  exact apart ((isNamed_iff.mp both).trans (isNamed_iff.mp here).symm)

theorem verifyHeartbeatToken_congr {after : Registry} (presented : Value)
    (same : after.findRunner name = reg.findRunner name) :
    after.verifyHeartbeatToken name presented = reg.verifyHeartbeatToken name presented := by
  rw [verifyHeartbeatToken, verifyHeartbeatToken, same]

/-- The rows appended to a registry do not hide the ones it has. -/
theorem findRunner_append {runner row : Runner} {tokens : List Str}
    (found : reg.findRunner name = some row) :
    Registry.findRunner { enrollmentTokens := tokens, runners := reg.runners ++ [runner] } name =
      some row := by
  rw [findRunner] at found
  rw [findRunner, List.find?_append, found, Option.some_or]

theorem findRunner_runners {after : Registry} (same : after.runners = reg.runners) :
    after.findRunner name = reg.findRunner name := by
  rw [findRunner, findRunner, same]

end Registry

/-- The name leads to a disabled row, in memory and in the file. -/
structure Revoked (name : Str) (row : Runner) (w : World) : Prop where
  memory : w.state.memory.findRunner (.str name) = some row
  disk : ∃ reg, w.state.disk = some reg ∧ reg.findRunner (.str name) = some row
  disabled : row.enrolled = false

section

variable {name : Str} {row : Runner} {w : World} (revoked : Revoked name row w)

include revoked

theorem Revoked.settled {w' : World} {reg : Registry}
    (found : reg.findRunner (.str name) = some row) (moved : Settled reg w.state w'.state) :
    Revoked name row w' := by
  refine ⟨by rw [moved.1]; exact found, ?_, revoked.disabled⟩
  rcases moved.2 with written | kept
  · exact ⟨reg, written, found⟩
  · rw [kept]
    exact revoked.disk

/-- A request for the name is not authenticated. -/
theorem Revoked.unverified (presented : Value) :
    w.state.memory.verifyHeartbeatToken (.str name) presented = .ok false := by
  simp only [Registry.verifyHeartbeatToken, revoked.memory, revoked.disabled, Bool.false_eq_true,
    ↓reduceIte]

theorem Revoked.apart {asked presented : Value}
    (verified : w.state.memory.verifyHeartbeatToken asked presented = .ok true) :
    .str name ≠ asked := by
  rintro rfl
  rw [revoked.unverified presented] at verified
  cases verified

theorem Revoked.step (event : Event) : Revoked name row (w.step event) := by
  cases event with
  | enroll data =>
      have state := w.step_enroll_state data
      exact ⟨by rw [state]; exact revoked.memory, by rw [state]; exact revoked.disk, revoked.disabled⟩
  | update i env =>
      cases waits : w.waiting[i]? with
      | none =>
          rw [World.step, World.act_update_none env waits]
          exact revoked
      | some request =>
          rw [World.step, World.act_update env waits]
          rcases finishEnroll_cases env w.state request with ⟨kept, -⟩ | ⟨token, -, -, moved, -⟩
          · rw [kept]
            exact ⟨revoked.memory, revoked.disk, revoked.disabled⟩
          · exact revoked.settled (Registry.findRunner_append revoked.memory) moved
  | heartbeat env data =>
      rw [World.step_heartbeat]
      rcases handleHeartbeat_cases env w.state data with
        ⟨kept, -⟩ | ⟨asked, presented, report, verified, moved⟩
      · rw [kept]
        exact revoked
      · refine revoked.settled ?_ moved
        rw [Registry.findRunner_updateRunner_other (Registry.reported_name env.now report)
          (revoked.apart verified)]
        exact revoked.memory
  | revoke env data =>
      rw [World.step_revoke]
      rcases handleRevoke_cases env w.state data with
        ⟨kept, -⟩ | ⟨fields, presented, -, verified, moved, -⟩
      · rw [kept]
        exact revoked
      · refine revoked.settled ?_ moved
        rw [Registry.findRunner_updateRunner_other Registry.unenrolled_name (revoked.apart verified)]
        exact revoked.memory
  | restart envValue =>
      obtain ⟨reg, onDisk, found⟩ := revoked.disk
      have loaded : (start w.state.disk envValue).memory.findRunner (.str name) = some row := by
        have rows : (start w.state.disk envValue).memory.runners = reg.runners := by
          rw [start_runners, onDisk, Option.getD_some]
        rw [Registry.findRunner_runners rows, found]
      exact ⟨loaded, ⟨_, rfl, loaded⟩, revoked.disabled⟩

end

/-- How a world treats a revoked name: its row as it was, and 401 or a refusal
that changes nothing for whoever asks under it. -/
structure Shut (name : Str) (row : Runner) (w : World) : Prop where
  row : w.state.memory.findRunner (.str name) = some row
  heartbeat : ∀ (env : Env) (fields : List (Str × Value)), getOr fields "runner_name" (.str []) = .str name →
    w.act (.heartbeat env (.dict fields)) = (some (.sent unknownOrRevoked), w)
  revoke : ∀ (env : Env) (fields : List (Str × Value)), getOr fields "runner_name" (.str []) = .str name →
    w.act (.revoke env (.dict fields)) = (some (.sent unknownOrRevoked), w)
  enroll : ∀ fields : List (Str × Value), Dict.get? fields "runner_name" = some (.str name) →
    ∃ answer, w.act (.enroll (.dict fields)) = (some answer, w) ∧
      ∀ payload, answer ≠ .sent ⟨200, payload⟩

/-- The format checks and the probe never grant anything. -/
theorem readEnroll_refuses {data : Value} {answer : Answer} (read : readEnroll data = .inl answer)
    (payload : List (Str × Value)) : answer ≠ .sent ⟨200, payload⟩ := by
  rintro rfl
  unfold readEnroll at read
  cases data with
  | dict fields =>
      dsimp only at read
      split at read
      · split at read
        · cases read
        · split at read
          · split at read
            · cases read
            · split at read
              · cases read
              · cases read
          · cases read
      · cases read
  | _ => cases read

theorem Revoked.shut {name : Str} {row : Runner} {w : World} (revoked : Revoked name row w) :
    Shut name row w := by
  refine ⟨revoked.memory, ?_, ?_, ?_⟩
  · intro env fields asked
    have refused : doHeartbeat env.now (.str name) (getOr fields "heartbeat_token" (.str []))
        (reportOf fields) w.state.memory = .ok (none, w.state.memory) := by
      rw [doHeartbeat, revoked.unverified]
      rfl
    simp only [World.act, handleHeartbeat, asked, withRegistry, refused]
    rfl
  · intro env fields asked
    have refused : doRevoke (.str name) (getOr fields "heartbeat_token" (.str []))
        w.state.memory = .ok (none, w.state.memory) := by
      rw [doRevoke, revoked.unverified]
      rfl
    simp only [World.act, handleRevoke, asked, withRegistry, refused]
    rfl
  · intro fields asked
    cases read : readEnroll (.dict fields) with
    | inl answer =>
        exact ⟨answer, by simp only [World.act, probeEnroll, read], readEnroll_refuses read⟩
    | inr request =>
        have same : request.runnerName = name := by
          have found := readEnroll_name read
          rw [asked] at found
          cases found
          rfl
        refine ⟨.sent alreadyEnrolled, ?_, by simp [alreadyEnrolled]⟩
        simp only [World.act, probeEnroll, read, same, revoked.memory]

/-- What a revoke that was answered 200 leaves behind. -/
theorem revoked_of_sent {w : World} {env : Env} {fields payload : List (Str × Value)} {name : Str}
    (asked : getOr fields "runner_name" (.str []) = .str name)
    (sent : (w.act (.revoke env (.dict fields))).1 = some (.sent ⟨200, payload⟩)) :
    ∃ row, row.name = name ∧ Revoked name row (w.step (.revoke env (.dict fields))) ∧
      (w.step (.revoke env (.dict fields))).state.memory =
        w.state.memory.updateRunner (.str name) Registry.unenrolled := by
  have answered : (handleRevoke env w.state (.dict fields)).1 = .sent ⟨200, payload⟩ :=
    Option.some.inj sent
  rcases handleRevoke_cases env w.state (.dict fields) with
    ⟨-, silent⟩ | ⟨fields', presented, same, verified, moved, onDisk⟩
  · exact absurd answered (silent payload)
  · cases same
    rw [asked] at verified moved
    obtain ⟨runner, found, -⟩ := Registry.verifyHeartbeatToken_true.mp verified
    have named : runner.name = name := by
      have fits := List.find?_some found
      exact Registry.isNamed_str.mp fits
    have memory : (handleRevoke env w.state (.dict fields)).2.memory.findRunner (.str name) =
        some (Registry.unenrolled runner) := by
      rw [moved.1, Registry.findRunner_updateRunner Registry.unenrolled_name, found, Option.map_some]
    exact ⟨Registry.unenrolled runner, named, ⟨memory, ⟨_, onDisk payload answered, memory⟩, rfl⟩,
      moved.1⟩

/-- After a revoke that was answered 200 nobody else's authentication has
changed, and the name is shut in every later state. An enroll request that passed
its probe before may still append a row of the name: no lookup reaches it. -/
theorem revocation_permanent (w : World) (env : Env) (fields payload : List (Str × Value))
    (name : Str) (asked : getOr fields "runner_name" (.str []) = .str name)
    (sent : (w.act (.revoke env (.dict fields))).1 = some (.sent ⟨200, payload⟩)) :
    ∃ row, row.name = name ∧ row.enrolled = false ∧
      (∀ other presented, other ≠ .str name →
        (w.step (.revoke env (.dict fields))).state.memory.verifyHeartbeatToken other presented =
          w.state.memory.verifyHeartbeatToken other presented) ∧
      ∀ events, Machine.Always World.step (Shut name row) (w.step (.revoke env (.dict fields)))
        events := by
  obtain ⟨row, named, revoked, memory⟩ := revoked_of_sent asked sent
  refine ⟨row, named, revoked.disabled, ?_, ?_⟩
  · intro other presented apart
    rw [memory]
    exact Registry.verifyHeartbeatToken_congr presented
      (Registry.findRunner_updateRunner_other Registry.unenrolled_name apart)
  · intro events before after split
    have kept : Revoked name row (Machine.run World.step _ before) :=
      @Machine.run_invariant World Event World.step (Revoked name row)
        (fun w event held => held.step event) _ revoked before
    exact kept.shut

namespace Retired

def now : Clock := ⟨2026, 9, 27, 12, 0, 0⟩

def env : Env := ⟨now, [], none⟩

def registry : Registry := ⟨[], [Registry.newRunner now "t" "r" "o/n" (.list []) (.str [])]⟩

def hub : World := ⟨⟨registry, some registry⟩, [], []⟩

def fields : List (Str × Value) := [("runner_name", .str "r"), ("heartbeat_token", .str "t")]

end Retired

theorem revocation_permanent_hub :
    ∃ row, row.name = ("r" : Str) ∧ row.enrolled = false ∧
      (∀ other presented, other ≠ .str ("r" : Str) →
        (Retired.hub.step (.revoke Retired.env (.dict Retired.fields))).state.memory.verifyHeartbeatToken
            other presented =
          Retired.hub.state.memory.verifyHeartbeatToken other presented) ∧
      ∀ events, Machine.Always World.step (Shut "r" row)
        (Retired.hub.step (.revoke Retired.env (.dict Retired.fields))) events :=
  revocation_permanent Retired.hub Retired.env Retired.fields (revokedPayload (.str "r")) "r"
    (by decide) (by decide)

end DevGate.Hub
