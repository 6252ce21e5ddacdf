import DevGate.Coherence.LaunchTargets
import DevGate.Lib.Machine

set_option autoImplicit false

/- hub/coherence/launcher.py: a launch runs under its time limit and its output cap, whatever its
container does and whenever. -/
namespace DevGate.Launcher

open Py

/-- The status of a `LaunchRun`. -/
inductive RunStatus where
  | completed
  | timeout
  | outputOverflow
  deriving DecidableEq

structure LaunchRun where
  returncode : Int
  output : Bytes
  status : RunStatus

/-- Where `run` is. -/
inductive Phase where
  /-- About to look at the clock. -/
  | checking (buf : Bytes)
  /-- In `select`, which answers by then. -/
  | selecting (buf : Bytes) (upTo : Rat)
  /-- In `proc.wait()`. -/
  | waiting (buf : Bytes) (status : RunStatus)
  | returned (run : LaunchRun)

structure Exit where
  time : Rat
  code : Int

/-- The launcher, its clock, and its child. -/
structure RunState where
  clock : Rat
  phase : Phase
  killed : Bool
  /-- Nothing but this is left of what was written. -/
  pipe : Bytes
  written : Bytes
  writable : Bool
  exited : Option Exit

/-- `subprocess.Popen`, at this reading of the clock. -/
def spawned (start : Rat) : RunState where
  clock := start
  phase := .checking []
  killed := false
  pipe := []
  written := []
  writable := true
  exited := none

inductive RunEvent where
  /-- The child, or what it started, writes. -/
  | write (bytes : Bytes)
  /-- Nothing holds the output open any more. -/
  | close
  | exit (code : Int)
  | pass (now : Rat)
  /-- The loop looks at the clock. -/
  | check
  /-- `select` finds nothing to read. -/
  | silent
  /-- `os.read` returns some bytes. -/
  | read (count : Nat)
  /-- `os.read` returns none. -/
  | eof
  /-- `proc.wait()` returns. -/
  | wait

/-- Out of the loop: what did not complete is killed. -/
def leave (s : RunState) (buf : Bytes) (status : RunStatus) : RunState :=
  if status = .completed then { s with phase := .waiting buf status }
  else { s with phase := .waiting buf status, killed := true,
                exited := some (s.exited.getD ⟨s.clock, -9⟩) }

/-- The clock is looked at, and a `select` begins while there is time. -/
def checkClock (deadline : Rat) (s : RunState) (buf : Bytes) : RunState :=
  let remaining := deadline - s.clock
  if remaining ≤ 0 then leave s buf .timeout
  else { s with phase := .selecting buf (s.clock + min remaining (1 / 2)) }

/-- A chunk is added to what was read. -/
def takeChunk (cap : Int) (s : RunState) (buf chunk : Bytes) : RunState :=
  let rest := { s with pipe := s.pipe.drop chunk.length }
  if cap < ((buf ++ chunk).length : Int) then leave rest (buf ++ chunk) .outputOverflow
  else { rest with phase := .checking (buf ++ chunk) }

/-- No `select` lasts longer than it was given. -/
def Phase.allows (now : Rat) : Phase → Bool
  | .selecting _ upTo => now ≤ upTo
  | _ => true

/-- One event; one that cannot happen changes nothing. -/
def runStep (cap : Int) (deadline : Rat) (s : RunState) : RunEvent → RunState
  | .write bytes =>
      if s.writable then { s with pipe := s.pipe ++ bytes, written := s.written ++ bytes } else s
  | .close => { s with writable := false }
  | .exit code => { s with exited := some (s.exited.getD ⟨s.clock, code⟩) }
  | .pass now =>
      if s.clock ≤ now ∧ s.phase.allows now then { s with clock := now } else s
  | .check =>
      match s.phase with
      | .checking buf => checkClock deadline s buf
      | _ => s
  | .silent =>
      match s.phase with
      | .selecting buf _ =>
          if s.pipe = [] ∧ s.writable then { s with phase := .checking buf } else s
      | _ => s
  | .read count =>
      match s.phase with
      | .selecting buf _ =>
          let chunk := s.pipe.take (min count 65536)
          if chunk = [] then s else takeChunk cap s buf chunk
      | _ => s
  | .eof =>
      match s.phase with
      | .selecting buf _ =>
          if s.pipe = [] ∧ s.writable = false then leave s buf .completed else s
      | _ => s
  | .wait =>
      match s.phase, s.exited with
      | .waiting buf status, some exit => { s with phase := .returned ⟨exit.code, buf, status⟩ }
      | _, _ => s

/-- The launch stays inside its limits. -/
structure Inside (cap : Int) (deadline : Rat) (s : RunState) : Prop where
  /-- What completed wrote no more than the cap, and had exited by the limit. -/
  completed : ∀ run, s.phase = .returned run → run.status = .completed →
    s.killed = false ∧ run.output = s.written ∧ (s.written.length : Int) ≤ cap ∧
      ∃ exit, s.exited = some exit ∧ exit.time ≤ deadline
  /-- What did not was killed. -/
  otherwise : ∀ run, s.phase = .returned run → run.status ≠ .completed → s.killed = true
  /-- No `select` lasts beyond the limit. -/
  selects : ∀ buf upTo, s.phase = .selecting buf upTo → s.clock ≤ deadline
  /-- No child is waited for beyond it. -/
  waits : ∀ buf status, s.phase = .waiting buf status → deadline < s.clock → s.exited.isSome = true

/-- A child that has closed its output, all of which is read, does not run on past the limit. -/
def Prompt (deadline : Rat) (s : RunState) (event : RunEvent) : Prop :=
  ∀ now, event = .pass now → s.writable = false → s.pipe = [] → s.exited = none → now ≤ deadline

/-- What is known of the phase. -/
def PhaseHolds (cap : Int) (deadline : Rat) (s : RunState) : Prop :=
  match s.phase with
  | .checking buf => s.killed = false ∧ s.written = buf ++ s.pipe ∧ (buf.length : Int) ≤ cap
  | .selecting buf upTo => s.killed = false ∧ s.written = buf ++ s.pipe ∧ (buf.length : Int) ≤ cap ∧
      s.clock ≤ upTo ∧ upTo ≤ deadline
  | .waiting buf .completed => s.killed = false ∧ s.writable = false ∧ s.pipe = [] ∧
      s.written = buf ∧ (buf.length : Int) ≤ cap ∧ (s.exited = none → s.clock ≤ deadline) ∧
        ∀ exit, s.exited = some exit → exit.time ≤ deadline
  | .waiting _ _ => s.killed = true ∧ s.exited.isSome = true
  | .returned run => if run.status = .completed then
        s.killed = false ∧ s.writable = false ∧ run.output = s.written ∧
          (s.written.length : Int) ≤ cap ∧ ∃ exit, s.exited = some exit ∧ exit.time ≤ deadline
      else s.killed = true

/-- What every event keeps. -/
structure Keeps (cap : Int) (deadline : Rat) (s : RunState) : Prop where
  past : ∀ exit, s.exited = some exit → exit.time ≤ s.clock
  phase : PhaseHolds cap deadline s

theorem validateLaunch_positive {u : Unicode} {host : Host} {cfg : Dict Str Value}
    {supported : List Str} {ctx : Launch} (valid : validateLaunch u host cfg supported = .ok ctx) :
    0 < ctx.limits.timeS ∧ 0 < ctx.limits.outputBytes := by
  obtain ⟨-, timeS, -, -, outputBytes, -⟩ := validateLimits_bounded (Container.validateLaunch_ok valid).2
  exact ⟨timeS, outputBytes⟩

section

variable {cap : Int} {deadline : Rat} {s : RunState}

theorem holds_checking {buf : Bytes} (here : s.phase = .checking buf) :
    PhaseHolds cap deadline s ↔
      s.killed = false ∧ s.written = buf ++ s.pipe ∧ (buf.length : Int) ≤ cap := by
  unfold PhaseHolds
  rw [here]

theorem holds_selecting {buf : Bytes} {upTo : Rat} (here : s.phase = .selecting buf upTo) :
    PhaseHolds cap deadline s ↔ s.killed = false ∧ s.written = buf ++ s.pipe ∧
      (buf.length : Int) ≤ cap ∧ s.clock ≤ upTo ∧ upTo ≤ deadline := by
  unfold PhaseHolds
  rw [here]

theorem holds_completed {buf : Bytes} (here : s.phase = .waiting buf .completed) :
    PhaseHolds cap deadline s ↔ s.killed = false ∧ s.writable = false ∧ s.pipe = [] ∧
      s.written = buf ∧ (buf.length : Int) ≤ cap ∧ (s.exited = none → s.clock ≤ deadline) ∧
        ∀ exit, s.exited = some exit → exit.time ≤ deadline := by
  unfold PhaseHolds
  rw [here]

theorem holds_killed {buf : Bytes} {status : RunStatus} (here : s.phase = .waiting buf status)
    (other : status ≠ .completed) :
    PhaseHolds cap deadline s ↔ s.killed = true ∧ s.exited.isSome = true := by
  unfold PhaseHolds
  rw [here]
  cases status with
  | completed => exact absurd rfl other
  | timeout => rfl
  | outputOverflow => rfl

theorem holds_returned {run : LaunchRun} (here : s.phase = .returned run) :
    PhaseHolds cap deadline s ↔ if run.status = .completed then
        s.killed = false ∧ s.writable = false ∧ run.output = s.written ∧
          (s.written.length : Int) ≤ cap ∧ ∃ exit, s.exited = some exit ∧ exit.time ≤ deadline
      else s.killed = true := by
  unfold PhaseHolds
  rw [here]

/-- What is killed keeps it. -/
theorem leave_keeps {buf : Bytes} {status : RunStatus} (other : status ≠ .completed)
    (past : ∀ exit, s.exited = some exit → exit.time ≤ s.clock) :
    Keeps cap deadline (leave s buf status) := by
  unfold leave
  rw [if_neg other]
  constructor
  · rintro exit dead
    cases exited : s.exited with
    | none =>
        rw [exited] at dead
        cases dead
        exact le_refl _
    | some earlier =>
        rw [exited] at dead
        cases dead
        exact past earlier exited
  · exact (holds_killed rfl other).mpr ⟨rfl, rfl⟩

theorem write_keeps (kept : Keeps cap deadline s) (bytes : Bytes) :
    Keeps cap deadline (runStep cap deadline s (.write bytes)) := by
  have stepped : runStep cap deadline s (.write bytes) = if s.writable then
      { s with pipe := s.pipe ++ bytes, written := s.written ++ bytes } else s := rfl
  rw [stepped]
  split
  · rename_i open_
    have closed : ¬ s.writable = false := by
      rw [open_]
      exact Bool.noConfusion
    refine ⟨kept.past, ?_⟩
    have holds := kept.phase
    cases here : s.phase with
    | checking buf =>
        rw [holds_checking here] at holds
        refine Iff.mpr (holds_checking rfl) ⟨holds.1, ?_, holds.2.2⟩
        rw [holds.2.1, List.append_assoc]
    | selecting buf upTo =>
        rw [holds_selecting here] at holds
        refine Iff.mpr (holds_selecting rfl) ⟨holds.1, ?_, holds.2.2⟩
        rw [holds.2.1, List.append_assoc]
    | waiting buf status =>
        by_cases done : status = .completed
        · subst done
          rw [holds_completed here] at holds
          exact absurd holds.2.1 closed
        · exact Iff.mpr (holds_killed rfl done) ((holds_killed here done).mp holds)
    | returned run =>
        rw [holds_returned here] at holds
        refine Iff.mpr (holds_returned rfl) ?_
        split
        · rename_i done
          rw [if_pos done] at holds
          exact absurd holds.2.1 closed
        · rename_i other
          rw [if_neg other] at holds
          exact holds
  · exact kept

theorem close_keeps (kept : Keeps cap deadline s) :
    Keeps cap deadline (runStep cap deadline s .close) := by
  refine ⟨kept.past, ?_⟩
  have holds := kept.phase
  cases here : s.phase with
  | checking buf => exact Iff.mpr (holds_checking here) ((holds_checking here).mp holds)
  | selecting buf upTo => exact Iff.mpr (holds_selecting here) ((holds_selecting here).mp holds)
  | waiting buf status =>
      by_cases done : status = .completed
      · subst done
        rw [holds_completed here] at holds
        exact Iff.mpr (holds_completed here) ⟨holds.1, rfl, holds.2.2⟩
      · exact Iff.mpr (holds_killed here done) ((holds_killed here done).mp holds)
  | returned run =>
      rw [holds_returned here] at holds
      refine Iff.mpr (holds_returned here) ?_
      split
      · rename_i done
        rw [if_pos done] at holds
        exact ⟨holds.1, rfl, holds.2.2⟩
      · rename_i other
        rw [if_neg other] at holds
        exact holds

theorem exit_keeps (kept : Keeps cap deadline s) (code : Int) :
    Keeps cap deadline (runStep cap deadline s (.exit code)) := by
  cases exited : s.exited with
  | some earlier =>
      have same : runStep cap deadline s (.exit code) = s := by
        show { s with exited := some (s.exited.getD ⟨s.clock, code⟩) } = s
        rw [exited, Option.getD_some, ← exited]
      rw [same]
      exact kept
  | none =>
      have now : (runStep cap deadline s (.exit code)).exited = some ⟨s.clock, code⟩ := by
        show some (s.exited.getD ⟨s.clock, code⟩) = _
        rw [exited, Option.getD_none]
      constructor
      · intro exit dead
        cases now.symm.trans dead
        exact le_refl _
      · have holds := kept.phase
        cases here : s.phase with
        | checking buf => exact Iff.mpr (holds_checking here) ((holds_checking here).mp holds)
        | selecting buf upTo => exact Iff.mpr (holds_selecting here) ((holds_selecting here).mp holds)
        | waiting buf status =>
            by_cases done : status = .completed
            · subst done
              rw [holds_completed here] at holds
              obtain ⟨alive, closed, empty, whole, fits, inTime, -⟩ := holds
              refine Iff.mpr (holds_completed here) ⟨alive, closed, empty, whole, fits, ?_, ?_⟩
              · intro none
                cases now.symm.trans none
              · intro exit dead
                cases now.symm.trans dead
                exact inTime exited
            · have dead := ((holds_killed here done).mp holds).2
              rw [exited] at dead
              cases dead
        | returned run =>
            rw [holds_returned here] at holds
            refine Iff.mpr (holds_returned here) ?_
            split
            · rename_i done
              rw [if_pos done] at holds
              obtain ⟨-, -, -, -, exit, dead, -⟩ := holds
              cases exited.symm.trans dead
            · rename_i other
              rw [if_neg other] at holds
              exact holds

theorem pass_keeps (kept : Keeps cap deadline s) {now : Rat}
    (prompt : s.writable = false → s.pipe = [] → s.exited = none → now ≤ deadline) :
    Keeps cap deadline (runStep cap deadline s (.pass now)) := by
  have stepped : runStep cap deadline s (.pass now) =
      if s.clock ≤ now ∧ s.phase.allows now then { s with clock := now } else s := rfl
  rw [stepped]
  split
  · rename_i later
    obtain ⟨later, answers⟩ := later
    refine ⟨fun exit dead => (kept.past exit dead).trans later, ?_⟩
    have holds := kept.phase
    cases here : s.phase with
    | checking buf => exact Iff.mpr (holds_checking rfl) ((holds_checking here).mp holds)
    | selecting buf upTo =>
        rw [holds_selecting here] at holds
        rw [here] at answers
        exact Iff.mpr (holds_selecting rfl)
          ⟨holds.1, holds.2.1, holds.2.2.1, of_decide_eq_true answers, holds.2.2.2.2⟩
    | waiting buf status =>
        by_cases done : status = .completed
        · subst done
          rw [holds_completed here] at holds
          obtain ⟨alive, closed, empty, whole, fits, -, inTime⟩ := holds
          exact Iff.mpr (holds_completed rfl)
            ⟨alive, closed, empty, whole, fits, prompt closed empty, inTime⟩
        · exact Iff.mpr (holds_killed rfl done) ((holds_killed here done).mp holds)
    | returned run => exact Iff.mpr (holds_returned rfl) ((holds_returned here).mp holds)
  · exact kept

theorem check_keeps (kept : Keeps cap deadline s) :
    Keeps cap deadline (runStep cap deadline s .check) := by
  cases here : s.phase with
  | checking buf =>
      have stepped : runStep cap deadline s .check = checkClock deadline s buf := by
        unfold runStep
        rw [here]
      rw [stepped]
      unfold checkClock
      dsimp only
      split
      · exact leave_keeps (by decide) kept.past
      · rename_i time
        rw [not_le] at time
        obtain ⟨alive, whole, fits⟩ := (holds_checking here).mp kept.phase
        refine ⟨kept.past, Iff.mpr (holds_selecting rfl) ⟨alive, whole, fits, ?_, ?_⟩⟩
        · have some : 0 ≤ min (deadline - s.clock) (1 / 2) := le_min time.le (by norm_num)
          exact le_add_of_nonneg_right some
        · have short := min_le_left (deadline - s.clock) (1 / 2 : Rat)
          linarith
  | _ =>
      have stepped : runStep cap deadline s .check = s := by
        unfold runStep
        rw [here]
      rw [stepped]
      exact kept

theorem silent_keeps (kept : Keeps cap deadline s) :
    Keeps cap deadline (runStep cap deadline s .silent) := by
  cases here : s.phase with
  | selecting buf upTo =>
      have stepped : runStep cap deadline s .silent =
          if s.pipe = [] ∧ s.writable then { s with phase := .checking buf } else s := by
        unfold runStep
        rw [here]
      rw [stepped]
      split
      · obtain ⟨alive, whole, fits, -⟩ := (holds_selecting here).mp kept.phase
        exact ⟨kept.past, Iff.mpr (holds_checking rfl) ⟨alive, whole, fits⟩⟩
      · exact kept
  | _ =>
      have stepped : runStep cap deadline s .silent = s := by
        unfold runStep
        rw [here]
      rw [stepped]
      exact kept

theorem takeChunk_keeps (kept : Keeps cap deadline s) {buf chunk : Bytes} {upTo : Rat}
    (here : s.phase = .selecting buf upTo) (starts : chunk <+: s.pipe) :
    Keeps cap deadline (takeChunk cap s buf chunk) := by
  obtain ⟨alive, whole, -⟩ := (holds_selecting here).mp kept.phase
  obtain ⟨rest, pipe⟩ := starts
  unfold takeChunk
  dsimp only
  split
  · exact leave_keeps (by decide) kept.past
  · rename_i fits
    refine ⟨kept.past, Iff.mpr (holds_checking rfl) ⟨alive, ?_, not_lt.mp fits⟩⟩
    show s.written = buf ++ chunk ++ s.pipe.drop chunk.length
    rw [whole, ← pipe, List.drop_left, List.append_assoc]

theorem read_keeps (kept : Keeps cap deadline s) (count : Nat) :
    Keeps cap deadline (runStep cap deadline s (.read count)) := by
  cases here : s.phase with
  | selecting buf upTo =>
      have stepped : runStep cap deadline s (.read count) =
          if s.pipe.take (min count 65536) = [] then s
          else takeChunk cap s buf (s.pipe.take (min count 65536)) := by
        unfold runStep
        rw [here]
      rw [stepped]
      split
      · exact kept
      · exact takeChunk_keeps kept here (List.take_prefix _ _)
  | _ =>
      have stepped : runStep cap deadline s (.read count) = s := by
        unfold runStep
        rw [here]
      rw [stepped]
      exact kept

/-- The end of the output is read within the limit. -/
theorem eof_keeps (kept : Keeps cap deadline s) :
    Keeps cap deadline (runStep cap deadline s .eof) := by
  cases here : s.phase with
  | selecting buf upTo =>
      have stepped : runStep cap deadline s .eof =
          if s.pipe = [] ∧ s.writable = false then leave s buf .completed else s := by
        unfold runStep
        rw [here]
      rw [stepped]
      split
      · rename_i ended
        obtain ⟨alive, whole, fits, early, limit⟩ := (holds_selecting here).mp kept.phase
        rw [ended.1, List.append_nil] at whole
        unfold leave
        rw [if_pos rfl]
        refine ⟨kept.past, Iff.mpr (holds_completed rfl)
          ⟨alive, ended.2, ended.1, whole, fits, fun _ => early.trans limit, fun exit dead => ?_⟩⟩
        exact (kept.past exit dead).trans (early.trans limit)
      · exact kept
  | _ =>
      have stepped : runStep cap deadline s .eof = s := by
        unfold runStep
        rw [here]
      rw [stepped]
      exact kept

theorem wait_keeps (kept : Keeps cap deadline s) :
    Keeps cap deadline (runStep cap deadline s .wait) := by
  cases here : s.phase with
  | waiting buf status =>
      cases exited : s.exited with
      | none =>
          have stepped : runStep cap deadline s .wait = s := by
            unfold runStep
            rw [here, exited]
          rw [stepped]
          exact kept
      | some exit =>
          have stepped : runStep cap deadline s .wait =
              { s with phase := .returned ⟨exit.code, buf, status⟩ } := by
            unfold runStep
            rw [here, exited]
          rw [stepped]
          refine ⟨kept.past, Iff.mpr (holds_returned rfl) ?_⟩
          by_cases done : status = .completed
          · subst done
            obtain ⟨alive, closed, -, whole, fits, -, inTime⟩ := (holds_completed here).mp kept.phase
            rw [if_pos rfl]
            exact ⟨alive, closed, whole.symm, by rw [whole]; exact fits, exit, exited,
              inTime exit exited⟩
          · rw [if_neg done]
            exact ((holds_killed here done).mp kept.phase).1
  | _ =>
      have stepped : runStep cap deadline s .wait = s := by
        unfold runStep
        rw [here]
      rw [stepped]
      exact kept

/-- Every event keeps what is known, where the child is prompt. -/
theorem runStep_keeps (kept : Keeps cap deadline s) {event : RunEvent}
    (prompt : Prompt deadline s event) : Keeps cap deadline (runStep cap deadline s event) := by
  cases event with
  | write bytes => exact write_keeps kept bytes
  | close => exact close_keeps kept
  | exit code => exact exit_keeps kept code
  | pass now => exact pass_keeps kept (prompt now rfl)
  | check => exact check_keeps kept
  | silent => exact silent_keeps kept
  | read count => exact read_keeps kept count
  | eof => exact eof_keeps kept
  | wait => exact wait_keeps kept

theorem Keeps.inside (kept : Keeps cap deadline s) : Inside cap deadline s where
  completed run here done := by
    have holds := (holds_returned here).mp kept.phase
    rw [if_pos done] at holds
    obtain ⟨alive, -, whole, fits, dead⟩ := holds
    exact ⟨alive, whole, fits, dead⟩
  otherwise run here other := by
    have holds := (holds_returned here).mp kept.phase
    rw [if_neg other] at holds
    exact holds
  selects buf upTo here := by
    obtain ⟨-, -, -, early, limit⟩ := (holds_selecting here).mp kept.phase
    exact early.trans limit
  waits buf status here late := by
    by_cases done : status = .completed
    · subst done
      obtain ⟨-, -, -, -, -, inTime, -⟩ := (holds_completed here).mp kept.phase
      rw [Option.isSome_iff_ne_none]
      intro none
      exact absurd late (not_lt.mpr (inTime none))
    · exact ((holds_killed here done).mp kept.phase).2

end

theorem spawned_keeps {cap : Int} (some : 0 < cap) (deadline start : Rat) :
    Keeps cap deadline (spawned start) where
  past exit dead := by cases dead
  phase := Iff.mpr (holds_checking rfl) ⟨rfl, rfl, some.le⟩

/-- In every run with a prompt child, a validated launch stays inside its limits. -/
theorem launch_stays_inside {u : Unicode} {host : Host} {cfg : Dict Str Value}
    {supported : List Str} {ctx : Launch} (valid : validateLaunch u host cfg supported = .ok ctx)
    (start : Rat) (events : List RunEvent)
    (prompt : Machine.Allows (runStep ctx.limits.outputBytes (start + ctx.limits.timeS))
      (Prompt (start + ctx.limits.timeS)) (spawned start) events) :
    Machine.Always (runStep ctx.limits.outputBytes (start + ctx.limits.timeS))
      (Inside ctx.limits.outputBytes (start + ctx.limits.timeS)) (spawned start) events := by
  have some : 0 < ctx.limits.outputBytes := (validateLaunch_positive valid).2
  have step (s : RunState) (event : RunEvent)
      (kept : Keeps ctx.limits.outputBytes (start + ctx.limits.timeS) s)
      (prompt : Prompt (start + ctx.limits.timeS) s event) :
      Keeps ctx.limits.outputBytes (start + ctx.limits.timeS)
        (runStep ctx.limits.outputBytes (start + ctx.limits.timeS) s event) :=
    runStep_keeps kept prompt
  have kept := Machine.always_of_allows step (spawned start) (spawned_keeps some _ start) events prompt
  intro before after split
  exact (kept before after split).inside

/-- A launch whose child writes, exits and closes its output. -/
theorem launch_completes :
    ∃ ctx, validateLaunch Container.asciiDigits (Container.pilotHost []) (mountConfig "/input")
      ["linux-amd64-v1"] = .ok ctx ∧
      Machine.Always (runStep ctx.limits.outputBytes (0 + ctx.limits.timeS))
        (Inside ctx.limits.outputBytes (0 + ctx.limits.timeS)) (spawned 0)
        [.write [111, 107], .exit 0, .close, .check, .read 2, .check, .eof, .wait] := by
  obtain ⟨ctx, valid⟩ := @mounted "/input" (by decide +kernel)
  refine ⟨ctx, valid, launch_stays_inside valid 0 _ ?_⟩
  simp only [Machine.allows_cons]
  simp [Prompt, Machine.Allows]

/-- A child that closes its output at once, waited for beyond the limit. -/
def lingering (deadline : Rat) : RunState :=
  { spawned 0 with clock := deadline + 1, phase := .waiting [] .completed, writable := false }

theorem lingering_reached {cap : Int} {deadline : Rat} (time : 0 < deadline) :
    Machine.run (runStep cap deadline) (spawned 0) [.close, .check, .eof, .pass (deadline + 1)] =
      lingering deadline := by
  have closed : runStep cap deadline (spawned 0) .close = { spawned 0 with writable := false } := rfl
  have remaining : ¬ deadline - 0 ≤ 0 := by
    rw [sub_zero]
    exact not_le.mpr time
  have checked : runStep cap deadline { spawned 0 with writable := false } .check =
      { spawned 0 with phase := .selecting [] (0 + min (deadline - 0) (1 / 2)), writable := false } :=
    if_neg remaining
  have later : (0 : Rat) ≤ deadline + 1 := by linarith
  rw [Machine.run_cons, closed, Machine.run_cons, checked, Machine.run_cons, Machine.run_cons,
    Machine.run_nil]
  exact if_pos ⟨later, rfl⟩

/-- A child that closes its output and runs on is waited for, past the limit. -/
theorem lingering_child_waited_for :
    ∃ ctx, validateLaunch Container.asciiDigits (Container.pilotHost []) (mountConfig "/input")
      ["linux-amd64-v1"] = .ok ctx ∧
      ¬ Machine.Always (runStep ctx.limits.outputBytes (0 + ctx.limits.timeS))
        (Inside ctx.limits.outputBytes (0 + ctx.limits.timeS)) (spawned 0)
        [.close, .check, .eof, .pass (0 + ctx.limits.timeS + 1)] := by
  obtain ⟨ctx, valid⟩ := @mounted "/input" (by decide +kernel)
  refine ⟨ctx, valid, fun inside => ?_⟩
  have time : (0 : Rat) < 0 + ctx.limits.timeS := by
    have positive : (0 : Rat) < ctx.limits.timeS := Int.cast_pos.mpr (validateLaunch_positive valid).1
    linarith
  have late := inside [.close, .check, .eof, .pass (0 + ctx.limits.timeS + 1)] [] rfl
  rw [lingering_reached time] at late
  have dead := late.waits [] .completed rfl (lt_add_one _)
  cases dead

end DevGate.Launcher
