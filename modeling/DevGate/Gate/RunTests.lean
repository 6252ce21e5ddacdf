import DevGate.Lib.Fold
import DevGate.Lib.Machine
import DevGate.Py.Number
import DevGate.Py.ReScan

set_option autoImplicit false

/- scripts/run-tests.mjs: what the process of one file does is a list of events, in the order
in which their handlers run; the discovered files are data. -/
namespace DevGate.Gate.RunTests

open Py

/-- What ends a line for a JavaScript pattern. -/
def isLineTerminator (c : Chr) : Bool :=
  let n := c.val
  n == 10 || n == 13 || n == 0x2028 || n == 0x2029

/-- One character for all line terminators: no pattern here tells them apart. -/
def lineFeeds (s : Str) : Str :=
  s.map (fun c => if isLineTerminator c then Chr.ofChar '\n' else c)

/-- `\s`, which in JavaScript is not the class of `str.isspace`. -/
def space : Re := .chr (fun c =>
  let n := c.val
  (9 ≤ n && n ≤ 13) || n == 32 || n == 0xa0 || n == 0x1680 || (0x2000 ≤ n && n ≤ 0x200a) ||
    n == 0x2028 || n == 0x2029 || n == 0x202f || n == 0x205f || n == 0x3000 || n == 0xfeff)

/-- `\d+`. -/
def number : Re := .plus true (.oneOf "0123456789".toList)

/-- `/^mark\s+\d+/m`. -/
def numbered (mark : String) : Re :=
  .seq .bol (.seq (.word mark.toList) (.seq (.plus true space) number))

/-- `/^mark\s+(\d+)/m`. -/
def counted (mark : String) : Re :=
  .seq .bol (.seq (.word mark.toList) (.seq (.plus true space) (.group number)))

/-- `/(\d+)\s+word/`. -/
def worded (noun : String) : Re :=
  .seq (.group number) (.seq (.plus true space) (.word noun.toList))

/-- `/^=+ .* passed/m`. -/
def passedRule : Re :=
  .seq .bol (.seq (.plus true (.char '=')) (.seq (.char ' ')
    (.seq (.star true .dot) (.word " passed".toList))))

/-- `/^\s*(ok|not ok)\s+\d+/m`. -/
def resultLine : Re :=
  .seq .bol (.seq (.star true space)
    (.seq (.alt (.word "ok".toList) (.word "not ok".toList)) (.seq (.plus true space) number)))

/-- `/^# Subtest:/m`. -/
def subtest : Re := .seq .bol (.word "# Subtest:".toList)

/-- `/PASSED|FAILED|ERROR/m`. -/
def outcomeWord : Re :=
  .alt (.word "PASSED".toList) (.alt (.word "FAILED".toList) (.word "ERROR".toList))

/-- `/^# (fail|not ok|FAILED|ERROR)/`. -/
def failureLine : Re :=
  .seq .bol (.seq (.word "# ".toList) (.alt (.word "fail".toList)
    (.alt (.word "not ok".toList) (.alt (.word "FAILED".toList) (.word "ERROR".toList)))))

/-- `r.test(s)`. -/
def test (r : Re) (s : Str) : Bool := (Re.searchFrom r none (lineFeeds s)).isSome

/-- `s.match(r)?.[1]`. -/
def match1 (r : Re) (s : Str) : Option Str := Re.search r (lineFeeds s)

/-- `(s.match(r) || []).length`, under the flag `g`. -/
def matchCount (r : Re) (s : Str) : Nat := (Re.findall r (lineFeeds s)).length

/-- `Number` of a text of digits. -/
def toNumber (s : Str) : Nat := natOfDigits (s.map (fun c => c.val - 48))

/-- What markTapDone looks for. -/
def summarised (out : Str) : Bool := test (numbered "# pass") out || test passedRule out

def okCount (out : Str) : Nat := matchCount (numbered "ok") out

def notOkCount (out : Str) : Nat := matchCount (numbered "not ok") out

def passCount (out : Str) : Nat :=
  ((match1 (counted "# pass") out).or (match1 (worded "passed") out)).elim (okCount out) toNumber

def failCount (out : Str) : Nat :=
  ((match1 (counted "# fail") out).or (match1 (worded "failed") out)).elim (notOkCount out) toNumber

/-- The first three failure lines of the output. -/
def snippet (out : Str) : Str :=
  Str.join "  " (((Str.split (Chr.ofChar '\n') out).filter
    (fun line => (Re.exec failureLine ⟨none, line, none⟩ some).isSome)).take 3)

inductive Stream where
  | stdout
  | stderr
  deriving DecidableEq

/-- What the handlers of runOne hear. A kill reaches a process that is still `alive`;
`error` is the child's event nobody listens to, and whatever else runOne throws. -/
inductive Event where
  | data (stream : Stream) (s : Str)
  | ended (stream : Stream)
  | grace (alive : Bool)
  | silence (quiet alive : Bool)
  | cap (alive : Bool)
  | closed (code : Option Nat)
  | drained
  | error

/-- The variables of runOne, and the code its promise was resolved with. -/
structure Run where
  out : Str := []
  tapDone : Bool := false
  startedCount : Nat := 0
  completedCount : Nat := 0
  killed : Bool := false
  timedOut : Bool := false
  stdoutEnded : Bool := false
  stderrEnded : Bool := false
  closeCode : Option Nat := none
  crashed : Bool := false
  resolved : Option (Option Nat) := none

namespace Run

def markTapDone (r : Run) : Run :=
  if r.tapDone then r else if summarised r.out then { r with tapDone := true } else r

def onResult (s : Str) (r : Run) : Run :=
  { r with
    completedCount := r.completedCount + (test resultLine s).toNat + (test outcomeWord s).toNat
    startedCount := r.startedCount + (test subtest s).toNat }

/-- `child.kill("SIGKILL")`. -/
def kill (alive : Bool) (r : Run) : Run := { r with killed := r.killed || alive }

def tryResolve (code : Option Nat) (force : Bool) (r : Run) : Run :=
  if !force && (!r.stdoutEnded || !r.stderrEnded) then r else { r with resolved := some code }

def checkDrain (r : Run) : Run :=
  match r.closeCode with
  | none => r
  | some code => if r.stdoutEnded && r.stderrEnded then r.tryResolve (some code) false else r

def onData (s : Str) (r : Run) : Run := ({ r with out := r.out ++ s }.markTapDone).onResult s

/-- The body of the silence timer. -/
def onSilence (quiet alive : Bool) (r : Run) : Run :=
  if r.tapDone || r.killed then r
  else if 0 < r.startedCount ∧ r.startedCount = r.completedCount ∧ quiet then r.kill alive
  else r

def onEnd (stream : Stream) (r : Run) : Run :=
  match stream with
  | .stdout => { r with stdoutEnded := true }.checkDrain
  | .stderr => { r with stderrEnded := true }.checkDrain

def onClose (code : Option Nat) (r : Run) : Run :=
  match code with
  | none => r.tryResolve none true
  | some code => { r with closeCode := some code }.checkDrain

/-- The drain timer runs from the close on. -/
def onDrained (r : Run) : Run :=
  match r.closeCode with
  | none => r
  | some code => r.tryResolve (some code) true

/-- A resolved promise stays as it is; an uncaught error ends the runner at any time. -/
def step (r : Run) (e : Event) : Run :=
  match e with
  | .error => { r with crashed := true }
  | e =>
      if r.resolved.isSome then r
      else match e with
        | .data _ s => r.onData s
        | .ended stream => r.onEnd stream
        -- the grace timer was set by markTapDone
        | .grace alive => if r.tapDone && !r.killed then r.kill alive else r
        | .silence quiet alive => r.onSilence quiet alive
        | .cap alive => { r with timedOut := true }.kill alive
        | .closed code => r.onClose code
        | .drained => r.onDrained
        | .error => r

end Run

def play (events : List Event) : Run := Machine.run Run.step {} events

/-- What runOne resolves to, but for the time it took. -/
structure Result where
  file : Str
  code : Option Nat
  timedOut : Bool
  tapDone : Bool
  okCount : Nat
  hung : Bool
  pass : Nat
  fail : Nat
  snippet : Str
  deriving DecidableEq

def Run.result (file : Str) (code : Option Nat) (r : Run) : Result where
  file := file
  code := code
  timedOut := r.timedOut
  tapDone := r.tapDone
  okCount := RunTests.okCount r.out
  hung := 0 < RunTests.okCount r.out ∧ code ≠ some 0 ∧ r.timedOut = false
  pass := passCount r.out
  fail := failCount r.out
  snippet := RunTests.snippet r.out

/-- Why there is no result: the runner died of an error, or it waits. -/
inductive Halt where
  | crashed
  | pending
  deriving DecidableEq

def runOne (file : Str) (events : List Event) : Except Halt Result :=
  let r := play events
  if r.crashed then .error .crashed
  else match r.resolved with
    | none => .error .pending
    | some code => .ok (r.result file code)

def Result.crashedBeforeTests (r : Result) : Bool :=
  r.code ≠ some 0 ∧ r.tapDone = false ∧ r.okCount = 0 ∧ r.pass = 0

def Result.ok (r : Result) : Bool :=
  r.timedOut = false ∧ r.fail = 0 ∧ r.crashedBeforeTests = false

def Result.soloClean (solo : Result) : Bool :=
  solo.fail = 0 ∧ solo.code = some 0 ∧ solo.timedOut = false

/-- The variables of main. -/
structure Tally where
  totalPass : Int := 0
  totalFail : Int := 0
  failed : List Result := []
  flakes : List Str := []

/-- runAndReport, behind its run. -/
def Tally.report (t : Tally) (r : Result) : Tally :=
  { t with
    totalPass := t.totalPass + r.pass
    totalFail := t.totalFail + r.fail
    failed := if r.ok then t.failed else t.failed ++ [r] }

def Tally.adjudicate (t : Tally) (r solo : Result) : Tally :=
  if solo.soloClean then
    { t with
      totalFail := t.totalFail - r.fail
      flakes := t.flakes ++ [r.file]
      failed := t.failed.erase r }
  else t

def adjudicateAll (solo : Str → List Event) : List Result → Tally → Except Halt Tally
  | [], t => .ok t
  | r :: rest, t => do
      let again ← runOne r.file (solo r.file)
      adjudicateAll solo rest (t.adjudicate r again)

/-- The discovered files and the environment. Of DEVGATE_TEST_POOL there is what `Number`
makes of it, nothing for NaN. -/
structure Setup where
  all : List Str
  allowNoTests : Bool
  pool : Option Int
  serialGlob : Str → Bool

namespace Setup

def unique (u : Setup) : List Str := u.all.eraseDups

def serial (u : Setup) : List Str := u.unique.filter u.serialGlob

def rest (u : Setup) : List Str := u.unique.filter (fun f => !u.serialGlob f)

/-- The length of the array of workers: NaN stays NaN through `Math.max` and `Math.min`, and
an array of that length is empty. -/
def workers (u : Setup) : Nat :=
  match u.pool with
  | none => 0
  | some asked => min (max 1 (min asked 8)).toNat u.rest.length

/-- The workers share one index: where there is one, every file gets its turn. -/
def parallel (u : Setup) : List Str := if u.workers = 0 then [] else u.rest

/-- The files that are run at all. -/
def started (u : Setup) : List Str := u.parallel ++ u.serial

end Setup

/-- One invocation: what every file's process does in its first run and in a solo run, and the
order in which the parallel runs end. -/
structure Invocation extends Setup where
  first : Str → List Event
  solo : Str → List Event
  finished : List Str
  inSomeOrder : finished.Perm toSetup.parallel

namespace Invocation

def firstRun (v : Invocation) (file : Str) : Except Halt Result := runOne file (v.first file)

/-- `Promise.all` of the workers: an error ends the runner while others still wait. -/
def parallelResults (v : Invocation) : Except Halt (List Result) :=
  if v.finished.any (fun f => v.firstRun f = .error .crashed) then .error .crashed
  else v.finished.mapM v.firstRun

def outcome (v : Invocation) : Except Halt Tally := do
  let parallel ← v.parallelResults
  let serial ← v.serial.mapM v.firstRun
  let t := (parallel ++ serial).foldl Tally.report {}
  adjudicateAll v.solo t.failed t

/-- The exit code, once there is one. -/
def main (v : Invocation) : Option Nat :=
  if v.unique = [] then some (if v.allowNoTests then 0 else 1)
  else match v.outcome with
    | .error .crashed => some 1
    | .error .pending => none
    | .ok t => some (if t.failed = [] then 0 else 1)

end Invocation

inductive Tool where
  | node
  | pytest
  | cargo
  deriving DecidableEq

/-- The command of a file. -/
def toolOf (file : Str) : Tool :=
  if (".rs" : Str).isSuffixOf file then .cargo
  else if (".py" : Str).isSuffixOf file then .pytest
  else .node

def linesOf (out : Str) : List Str := Str.split (Chr.ofChar '\n') (lineFeeds out)

/-- A line of pytest between rules. -/
def Ruled (line : Str) : Prop := ("=" : Str) <+: line ∧ ("=" : Str) <:+ line

/-- The tool's complete summary, with no failure and no error in it. -/
def CleanSummary (tool : Tool) (out : Str) : Prop :=
  match tool with
  | .node =>
      (∃ line ∈ linesOf out, ("# pass " : Str) <+: line) ∧
      ("# fail 0" : Str) ∈ linesOf out ∧ ("# cancelled 0" : Str) ∈ linesOf out ∧
      ∀ line ∈ linesOf out, (("# fail " : Str) <+: line → line = "# fail 0") ∧
        (("# cancelled " : Str) <+: line → line = "# cancelled 0")
  | .pytest =>
      (∃ line ∈ linesOf out, Ruled line ∧ (" passed" : Str) <:+: line) ∧
      ∀ line ∈ linesOf out, Ruled line →
        ¬ (" failed" : Str) <:+: line ∧ ¬ (" error" : Str) <:+: line
  | .cargo =>
      (∃ line ∈ linesOf out, ("test result: ok. " : Str) <+: line) ∧
      ∀ line ∈ linesOf out, ¬ ("error" : Str) <+: line ∧
        (("test result: " : Str) <+: line →
          ("test result: ok. " : Str) <+: line ∧ (" 0 failed;" : Str) <:+: line)

/-- The run exited with code 0, or the runner killed it behind a clean summary: what a dead
process had written before is all that was heard of it. -/
def Genuine (file : Str) (r : Run) : Prop :=
  r.resolved = some (some 0) ∨
    r.resolved = some none ∧ r.killed = true ∧ CleanSummary (toolOf file) r.out

/-- The runs of a file: the first one, and a solo run where that one failed. -/
def Invocation.Runs (v : Invocation) (file : Str) (r : Run) : Prop :=
  file ∈ v.started ∧ (r = play (v.first file) ∨
    r = play (v.solo file) ∧ ∃ first, v.firstRun file = .ok first ∧ first.ok = false)

/-- Exit code 0 vouches for every file. -/
def NoFalseGreen (v : Invocation) : Prop :=
  v.main = some 0 → ∀ file ∈ v.all, ∃ r, v.Runs file r ∧ Genuine file r

/-- pytest, with a test that passes and one whose fixture raises: exit code 1. -/
def oneErrorRun : List Event :=
  [.data .stdout "tests/test_plan.py::test_reads PASSED\ntests/test_plan.py::test_writes ERROR\n",
    .data .stdout "========== 1 passed, 1 error in 0.10s ==========\n", .ended .stdout, .ended .stderr,
    .closed (some 1)]

def oneError : Invocation where
  all := ["tests/test_plan.py"]
  allowNoTests := false
  pool := some 4
  serialGlob := fun _ => false
  first := fun _ => oneErrorRun
  solo := fun _ => oneErrorRun
  finished := ["tests/test_plan.py"]
  inSomeOrder := by decide +kernel

theorem error_reads_green : ¬ NoFalseGreen oneError := by
  intro truthful
  have exits : oneError.main = some 0 := by decide +kernel
  obtain ⟨r, runs, genuine⟩ := truthful exits "tests/test_plan.py" List.mem_cons_self
  have exited : (play oneErrorRun).resolved = some (some 1) := by decide +kernel
  have same : r = play oneErrorRun := runs.2.elim id And.left
  rw [same, Genuine, exited] at genuine
  simp at genuine

/-- Some sign that a test ran. -/
def Sign (out : Str) : Prop := summarised out = true ∨ okCount out ≠ 0 ∨ passCount out ≠ 0

theorem endless_numbered (mark : String) : (numbered mark).Endless := by
  have spaces : (Re.plus true space).Endless := ⟨trivial, trivial⟩
  have digits : number.Endless := ⟨trivial, trivial⟩
  exact ⟨trivial, Re.endless_word _, spaces, digits⟩

theorem endless_passedRule : passedRule.Endless := by
  have rule : (Re.plus true (.char '=')).Endless := ⟨trivial, trivial⟩
  exact ⟨trivial, rule, trivial, trivial, Re.endless_word _⟩

theorem test_append {r : Re} (endless : r.Endless) {out : Str} (s : Str) (found : test r out = true) :
    test r (out ++ s) = true := by
  unfold test lineFeeds at found ⊢
  rw [List.map_append]
  exact Re.searchFrom_append endless _ found

/-- A summary stays one, whatever comes behind it. -/
theorem summarised_append {out : Str} (s : Str) (found : summarised out = true) :
    summarised (out ++ s) = true := by
  unfold summarised at found ⊢
  rw [Bool.or_eq_true] at found ⊢
  rcases found with tap | rule
  · exact .inl (test_append (endless_numbered "# pass") s tap)
  · exact .inr (test_append endless_passedRule s rule)

namespace Run

/-- The flag says whether a summary was heard. -/
def Marked (r : Run) : Prop := r.tapDone = summarised r.out

theorem marked_of_eq {r r' : Run} (marked : r.Marked) (out : r'.out = r.out)
    (tapDone : r'.tapDone = r.tapDone) : r'.Marked := by
  unfold Marked
  rw [out, tapDone]
  exact marked

theorem marked_tryResolve {r : Run} (marked : r.Marked) (code : Option Nat) (force : Bool) :
    (r.tryResolve code force).Marked := by
  unfold tryResolve
  split
  · exact marked
  · exact marked

theorem marked_checkDrain {r : Run} (marked : r.Marked) : r.checkDrain.Marked := by
  unfold checkDrain
  cases r.closeCode with
  | none => exact marked
  | some code =>
      dsimp only
      split
      · exact marked_tryResolve marked _ _
      · exact marked

/-- However the output is cut into chunks: an earlier summary still stands in the longer text. -/
theorem marked_onData {r : Run} (marked : r.Marked) (s : Str) : (r.onData s).Marked := by
  have heard : ({ r with out := r.out ++ s } : Run).markTapDone.Marked := by
    unfold markTapDone
    by_cases done : r.tapDone = true
    · rw [if_pos done]
      have before : summarised r.out = true := by
        rw [← marked]
        exact done
      exact done.trans (summarised_append s before).symm
    · rw [if_neg done]
      by_cases found : summarised (r.out ++ s) = true
      · rw [if_pos found]
        exact found.symm
      · rw [if_neg found]
        exact (Bool.not_eq_true _ ▸ done).trans (Bool.not_eq_true _ ▸ found).symm
  exact marked_of_eq heard rfl rfl

theorem marked_step (r : Run) (e : Event) (marked : r.Marked) : (r.step e).Marked := by
  unfold step
  cases e with
  | error => exact marked
  | data stream s =>
      dsimp only
      split
      · exact marked
      · exact marked_onData marked s
  | ended stream =>
      dsimp only
      split
      · exact marked
      · cases stream with
        | stdout => exact marked_checkDrain (marked_of_eq marked rfl rfl)
        | stderr => exact marked_checkDrain (marked_of_eq marked rfl rfl)
  | grace alive =>
      dsimp only
      split
      · exact marked
      · split
        · exact marked_of_eq marked rfl rfl
        · exact marked
  | silence quiet alive =>
      dsimp only
      unfold onSilence
      split
      · exact marked
      · split
        · exact marked
        · split
          · exact marked_of_eq marked rfl rfl
          · exact marked
  | cap alive =>
      dsimp only
      split
      · exact marked
      · exact marked_of_eq marked rfl rfl
  | closed code =>
      dsimp only
      split
      · exact marked
      · cases code with
        | none => exact marked_tryResolve marked none true
        | some code => exact marked_checkDrain (marked_of_eq marked rfl rfl)
  | drained =>
      dsimp only
      unfold onDrained
      split
      · exact marked
      · cases r.closeCode with
        | none => exact marked
        | some code => exact marked_tryResolve marked (some code) true

end Run

/-- In every run the flag is a matter of the whole output. -/
theorem play_marked (events : List Event) : (play events).Marked :=
  Machine.run_invariant Run.marked_step {} (by unfold Run.Marked; decide +kernel) events

theorem runOne_ok {file : Str} {events : List Event} {r : Result} :
    runOne file events = .ok r ↔ (play events).crashed = false ∧
      ∃ code, (play events).resolved = some code ∧ r = (play events).result file code := by
  unfold runOne
  dsimp only
  cases (play events).crashed with
  | true => simp
  | false =>
      cases (play events).resolved with
      | none => simp
      | some code =>
          simp only [Bool.false_eq_true, ↓reduceIte, Except.ok.injEq, true_and, Option.some.injEq,
            exists_eq_left']
          exact eq_comm

/-- When a first run counts as passed. -/
theorem result_ok {file : Str} {events : List Event} {code : Option Nat} :
    ((play events).result file code).ok = true ↔ (play events).timedOut = false ∧
      failCount (play events).out = 0 ∧ (code = some 0 ∨ Sign (play events).out) := by
  have marked : (play events).tapDone = summarised (play events).out := play_marked events
  unfold Result.ok Result.crashedBeforeTests Run.result Sign
  simp only [marked, decide_eq_true_eq, decide_eq_false_iff_not, ne_eq]
  cases summarised (play events).out with
  | true => simp
  | false =>
      simp only [true_and, Bool.false_eq_true, false_or]
      tauto

theorem result_soloClean {file : Str} {r : Run} {code : Option Nat} :
    (r.result file code).soloClean = true ↔
      failCount r.out = 0 ∧ code = some 0 ∧ r.timedOut = false := by
  unfold Result.soloClean Run.result
  exact decide_eq_true_iff

namespace Invocation

/-- The first run ended, and it passed or the solo run cleared it. -/
def Passes (v : Invocation) (file : Str) : Prop :=
  ∃ r, v.firstRun file = .ok r ∧
    (r.ok = true ∨ ∃ again, runOne file (v.solo file) = .ok again ∧ again.soloClean = true)

theorem parallelResults_ok {v : Invocation} {results : List Result} :
    v.parallelResults = .ok results ↔ v.finished.mapM v.firstRun = .ok results := by
  unfold parallelResults
  by_cases crash : v.finished.any (fun f => v.firstRun f = .error .crashed) = true
  · rw [if_pos crash]
    constructor
    · intro never
      cases never
    · intro ran
      obtain ⟨f, member, died⟩ := List.any_eq_true.mp crash
      obtain ⟨r, here⟩ := Fold.mapM_ends.mp ⟨results, ran⟩ f member
      rw [of_decide_eq_true died] at here
      cases here
  · rw [if_neg crash]

theorem foldl_report (results : List Result) (t : Tally) :
    (results.foldl Tally.report t).failed = t.failed ++ results.filter (fun r => !r.ok) := by
  induction results generalizing t with
  | nil => simp
  | cons r rest ih =>
      rw [List.foldl_cons, ih]
      unfold Tally.report
      cases passed : r.ok with
      | true => simp [passed]
      | false => simp [passed]

/-- The solo run of a failed file takes it off the list. -/
def Cleared (solo : Str → List Event) (r : Result) : Prop :=
  ∃ again, runOne r.file (solo r.file) = .ok again ∧ again.soloClean = true

/-- The loop goes through a copy of the list: `kept` is what it left on it so far. -/
theorem adjudicateAll_clears {solo : Str → List Event} (pending : List Result) :
    ∀ (kept : List Result) (t : Tally), t.failed = kept ++ pending →
      (∀ r ∈ kept, ¬ Cleared solo r) →
        ((∃ t', adjudicateAll solo pending t = .ok t' ∧ t'.failed = []) ↔
          kept = [] ∧ ∀ r ∈ pending, Cleared solo r) := by
  induction pending with
  | nil =>
      intro kept t listed stays
      rw [List.append_nil] at listed
      constructor
      · rintro ⟨t', ran, empty⟩
        cases ran
        exact ⟨listed.symm.trans empty, by simp⟩
      · rintro ⟨empty, -⟩
        exact ⟨t, rfl, listed.trans empty⟩
  | cons r rest ih =>
      intro kept t listed stays
      unfold adjudicateAll
      rw [List.forall_mem_cons]
      cases again : runOne r.file (solo r.file) with
      | error halt =>
          constructor
          · rintro ⟨t', ran, -⟩
            cases ran
          · rintro ⟨-, ⟨solo', ran, -⟩, -⟩
            rw [again] at ran
            cases ran
      | ok solo' =>
          change (∃ t', adjudicateAll solo rest (t.adjudicate r solo') = .ok t' ∧ _) ↔ _
          unfold Tally.adjudicate
          by_cases clean : solo'.soloClean = true
          · have cleared : Cleared solo r := ⟨solo', again, clean⟩
            have absent : r ∉ kept := fun member => stays r member cleared
            rw [if_pos clean, ih kept _ ?_ stays]
            · simp only [cleared, true_and]
            · dsimp only
              rw [listed, List.erase_append_right _ absent, List.erase_cons_head]
          · have refused : ¬ Cleared solo r := by
              rintro ⟨other, ran, otherClean⟩
              rw [again, Except.ok.injEq] at ran
              rw [ran] at clean
              exact clean otherClean
            rw [if_neg clean, ih (kept ++ [r]) t (by rw [listed]; simp) ?_]
            · simp [refused]
            · intro x member
              rcases List.mem_append.mp member with before | here
              · exact stays x before
              · rw [List.mem_singleton.mp here]
                exact refused

theorem file_of_firstRun {v : Invocation} {file : Str} {r : Result}
    (ran : v.firstRun file = .ok r) : r.file = file := by
  obtain ⟨-, code, -, same⟩ := runOne_ok.mp ran
  rw [same]
  rfl

theorem mem_started {v : Invocation} {file : Str} :
    file ∈ v.started ↔ file ∈ v.finished ∨ file ∈ v.serial := by
  rw [Setup.started, List.mem_append, v.inSomeOrder.mem_iff]

/-- The lists of results are those of the files that were started. -/
theorem mem_results {v : Invocation} {parallel serial : List Result}
    (first : v.parallelResults = .ok parallel) (second : v.serial.mapM v.firstRun = .ok serial)
    {r : Result} :
    r ∈ parallel ++ serial ↔ ∃ file ∈ v.started, v.firstRun file = .ok r := by
  obtain ⟨forth, back⟩ := mapM_members (parallelResults_ok.mp first)
  obtain ⟨forth', back'⟩ := mapM_members second
  constructor
  · intro member
    rcases List.mem_append.mp member with left | right
    · obtain ⟨file, inside, ran⟩ := back r left
      exact ⟨file, mem_started.mpr (.inl inside), ran⟩
    · obtain ⟨file, inside, ran⟩ := back' r right
      exact ⟨file, mem_started.mpr (.inr inside), ran⟩
  · rintro ⟨file, inside, ran⟩
    rcases mem_started.mp inside with left | right
    · obtain ⟨r', member, ran'⟩ := forth file left
      rw [ran, Except.ok.injEq] at ran'
      rw [ran']
      exact List.mem_append_left _ member
    · obtain ⟨r', member, ran'⟩ := forth' file right
      rw [ran, Except.ok.injEq] at ran'
      rw [ran']
      exact List.mem_append_right _ member

theorem ends_of_passes {v : Invocation} {file : Str} (passes : v.Passes file) :
    Fold.Ends (v.firstRun file) := by
  obtain ⟨r, ran, -⟩ := passes
  exact ⟨r, ran⟩

/-- What the first runs leave on the list of failures. -/
theorem outcome_clears {v : Invocation} {parallel serial : List Result}
    (first : v.parallelResults = .ok parallel) (second : v.serial.mapM v.firstRun = .ok serial) :
    (∃ t, v.outcome = .ok t ∧ t.failed = []) ↔
      ∀ r ∈ parallel ++ serial, r.ok = true ∨ Cleared v.solo r := by
  have failed := foldl_report (parallel ++ serial) {}
  rw [List.nil_append] at failed
  have ran : v.outcome = adjudicateAll v.solo ((parallel ++ serial).foldl Tally.report {}).failed
      ((parallel ++ serial).foldl Tally.report {}) := by
    unfold outcome
    rw [first, second]
    rfl
  rw [ran, adjudicateAll_clears _ [] _ (by rw [List.nil_append]) (by simp), failed]
  simp only [true_and, List.mem_filter, Bool.not_eq_true', and_imp]
  refine forall_congr' (fun r => forall_congr' (fun _ => ?_))
  cases r.ok <;> simp

/-- The exit code is 0 exactly when every file that was started passed. -/
theorem main_zero {v : Invocation} (found : v.unique ≠ []) :
    v.main = some 0 ↔ ∀ file ∈ v.started, v.Passes file := by
  have exits : v.main = some 0 ↔ ∃ t, v.outcome = .ok t ∧ t.failed = [] := by
    unfold main
    rw [if_neg found]
    cases v.outcome with
    | error halt => cases halt <;> simp
    | ok t => by_cases empty : t.failed = [] <;> simp [empty]
  rw [exits]
  constructor
  · rintro ⟨t, ran, empty⟩
    obtain ⟨parallel, first, later⟩ := Fold.ends_bind.mp ⟨t, ran⟩
    obtain ⟨serial, second, -⟩ := Fold.ends_bind.mp later
    have clears := (outcome_clears first second).mp ⟨t, ran, empty⟩
    have results := @mem_results v parallel serial first second
    intro file inside
    have ended : Fold.Ends (v.firstRun file) := by
      rcases mem_started.mp inside with left | right
      · exact Fold.mapM_ends.mp ⟨parallel, parallelResults_ok.mp first⟩ file left
      · exact Fold.mapM_ends.mp ⟨serial, second⟩ file right
    obtain ⟨r, here⟩ := ended
    refine ⟨r, here, ?_⟩
    have verdict := clears r (results.mpr ⟨file, inside, here⟩)
    rw [Cleared, file_of_firstRun here] at verdict
    exact verdict
  · intro passes
    obtain ⟨parallel, first⟩ := Fold.mapM_ends.mpr
      (fun file left => ends_of_passes (passes file (mem_started.mpr (.inl left))))
    obtain ⟨serial, second⟩ := Fold.mapM_ends.mpr
      (fun file right => ends_of_passes (passes file (mem_started.mpr (.inr right))))
    rw [← parallelResults_ok] at first
    rw [outcome_clears first second]
    intro r member
    obtain ⟨file, inside, ran⟩ := (mem_results first second).mp member
    obtain ⟨r', ran', verdict⟩ := passes file inside
    rw [ran, Except.ok.injEq] at ran'
    rw [Cleared, file_of_firstRun ran, ran']
    exact verdict

end Invocation

namespace Run

def Ended (r : Run) : Prop := r.crashed = false ∧ r.resolved.isSome

/-- A first run that is taken for a success. -/
def Green (r : Run) : Prop :=
  r.timedOut = false ∧ failCount r.out = 0 ∧ (r.resolved = some (some 0) ∨ Sign r.out)

/-- A solo run that clears its file. -/
def Clean (r : Run) : Prop :=
  r.crashed = false ∧ r.resolved = some (some 0) ∧ r.timedOut = false ∧ failCount r.out = 0

/-- Ended in time, by a signal or with an exit code that is not 0, with some test and no failure
read out of the output, and not killed behind a clean summary. -/
def Masked (file : Str) (r : Run) : Prop :=
  (∃ code, r.resolved = some code ∧ code ≠ some 0) ∧ r.timedOut = false ∧ failCount r.out = 0 ∧
    Sign r.out ∧ ¬ (r.resolved = some none ∧ r.killed = true ∧ CleanSummary (toolOf file) r.out)

end Run

namespace Invocation

/-- The first run of the file, or a clean solo run, holds nothing against exit code 0. -/
def Stands (v : Invocation) (file : Str) : Prop :=
  (play (v.first file)).Ended ∧
    ((play (v.first file)).Green ∨ (play (v.solo file)).Clean)

theorem firstRun_ok {v : Invocation} {file : Str} {r : Result} (ran : v.firstRun file = .ok r) :
    r.ok = true ↔ (play (v.first file)).Green := by
  obtain ⟨-, code, ended, same⟩ := runOne_ok.mp ran
  rw [same, result_ok, Run.Green, ended, Option.some.injEq]

theorem solo_clears {v : Invocation} {file : Str} :
    (∃ again, runOne file (v.solo file) = .ok again ∧ again.soloClean = true) ↔
      (play (v.solo file)).Clean := by
  constructor
  · rintro ⟨again, ran, clean⟩
    obtain ⟨alive, code, ended, same⟩ := runOne_ok.mp ran
    rw [same, result_soloClean] at clean
    obtain ⟨none_, zero, inTime⟩ := clean
    exact ⟨alive, by rw [ended, zero], inTime, none_⟩
  · rintro ⟨alive, ended, inTime, none_⟩
    refine ⟨_, runOne_ok.mpr ⟨alive, some 0, ended, rfl⟩, ?_⟩
    exact result_soloClean.mpr ⟨none_, rfl, inTime⟩

theorem passes_iff {v : Invocation} {file : Str} : v.Passes file ↔ v.Stands file := by
  constructor
  · rintro ⟨r, ran, verdict⟩
    rw [firstRun_ok ran, solo_clears] at verdict
    obtain ⟨alive, code, ended, -⟩ := runOne_ok.mp ran
    exact ⟨⟨alive, by rw [ended]; rfl⟩, verdict⟩
  · rintro ⟨⟨alive, ended⟩, verdict⟩
    obtain ⟨code, ended⟩ := Option.isSome_iff_exists.mp ended
    have ran : v.firstRun file = .ok ((play (v.first file)).result file code) :=
      runOne_ok.mpr ⟨alive, code, ended, rfl⟩
    refine ⟨_, ran, ?_⟩
    rw [firstRun_ok ran, solo_clears]
    exact verdict

theorem mem_unique {v : Invocation} {file : Str} : file ∈ v.unique ↔ file ∈ v.all :=
  List.mem_eraseDups

theorem workers_eq_zero {u : Setup} : u.workers = 0 ↔ u.pool = none ∨ u.rest = [] := by
  unfold Setup.workers
  rw [← List.length_eq_zero_iff]
  cases u.pool with
  | none => simp
  | some asked =>
      dsimp only
      have positive : 0 < (max 1 (min asked 8)).toNat := by omega
      simp only [reduceCtorEq, false_or]
      omega

/-- Without a pool size that is a number only the serial lane is run. -/
theorem started_iff {v : Invocation} {file : Str} :
    file ∈ v.started ↔ file ∈ v.all ∧ (v.serialGlob file = true ∨ v.pool.isSome) := by
  have lane : file ∈ v.rest ↔ file ∈ v.all ∧ v.serialGlob file = false := by
    rw [Setup.rest, List.mem_filter, mem_unique, Bool.not_eq_true']
  have serial : file ∈ v.serial ↔ file ∈ v.all ∧ v.serialGlob file = true := by
    rw [Setup.serial, List.mem_filter, mem_unique]
  rw [Setup.started, List.mem_append, serial, Setup.parallel]
  by_cases idle : v.workers = 0
  · rw [if_pos idle]
    rcases workers_eq_zero.mp idle with nan | none_
    · simp [nan]
    · cases here : v.serialGlob file with
      | true => simp
      | false =>
          have absent : file ∉ v.all := by
            intro member
            have listed := lane.mpr ⟨member, here⟩
            rw [none_] at listed
            exact List.not_mem_nil listed
          simp [absent]
  · rw [if_neg idle, lane]
    have numeric : v.pool.isSome := by
      rw [Option.isSome_iff_ne_none]
      exact fun nan => idle (workers_eq_zero.mpr (.inl nan))
    cases v.serialGlob file <;> simp [numeric]

end Invocation

open Invocation

theorem genuine_of_green {file : Str} {r : Run} (ended : r.Ended) (green : r.Green)
    (shown : ¬ r.Masked file) : Genuine file r := by
  obtain ⟨code, ended⟩ := Option.isSome_iff_exists.mp ended.2
  by_cases zero : code = some 0
  · exact .inl (by rw [ended, zero])
  · refine .inr ?_
    by_contra other
    obtain ⟨inTime, none_, exit | sign⟩ := green
    · rw [ended, Option.some.injEq] at exit
      exact zero exit
    · exact shown ⟨⟨code, ended, zero⟩, inTime, none_, sign, other⟩

theorem masked_green {file : Str} {r : Run} (masked : r.Masked file) :
    r.Green ∧ ¬ Genuine file r := by
  obtain ⟨⟨code, ended, other⟩, inTime, none_, sign, unkilled⟩ := masked
  refine ⟨⟨inTime, none_, .inr sign⟩, ?_⟩
  rintro (zero | killed)
  · rw [ended, Option.some.injEq] at zero
    exact other zero
  · exact unkilled killed

/-- Exit code 0 vouches for the files unless a masked first run, or a pool size that is no
number, slips through where nothing else holds the exit back. -/
theorem no_false_green_iff (v : Invocation) :
    NoFalseGreen v ↔
      (∃ file ∈ v.started, ¬ v.Stands file) ∨
        (v.pool.isSome ∨ v.rest = []) ∧
          ∀ file ∈ v.all, ¬ (play (v.first file)).Masked file := by
  unfold NoFalseGreen
  by_cases found : v.unique = []
  · have absent : ∀ file, file ∉ v.all := by
      intro file member
      rw [← mem_unique, found] at member
      exact List.not_mem_nil member
    have idle : v.rest = [] := by rw [Setup.rest, found, List.filter_nil]
    constructor
    · intro _
      exact .inr ⟨.inr idle, fun file member => absurd member (absent file)⟩
    · intro _ _ file member
      exact absurd member (absent file)
  rw [main_zero found]
  constructor
  · intro truthful
    by_cases stands : ∀ file ∈ v.started, v.Passes file
    · have vouched := truthful stands
      refine .inr ⟨?_, ?_⟩
      · by_cases idle : v.rest = []
        · exact .inr idle
        · obtain ⟨file, member⟩ := List.exists_mem_of_ne_nil _ idle
          rw [Setup.rest, List.mem_filter, mem_unique, Bool.not_eq_true'] at member
          obtain ⟨r, runs, -⟩ := vouched file member.1
          rcases (started_iff.mp runs.1).2 with glob | numeric
          · rw [member.2] at glob
            cases glob
          · exact .inl numeric
      · intro file member masked
        obtain ⟨green, refused⟩ := masked_green masked
        obtain ⟨r, runs, genuine⟩ := vouched file member
        rcases runs.2 with same | ⟨-, first, ran, red⟩
        · rw [same] at genuine
          exact refused genuine
        · rw [(firstRun_ok ran).mpr green] at red
          cases red
    · push Not at stands
      obtain ⟨file, inside, falls⟩ := stands
      exact .inl ⟨file, inside, fun stands => falls (passes_iff.mpr stands)⟩
  · rintro (⟨file, inside, falls⟩ | ⟨numeric, shown⟩)
    · intro passes
      exact absurd (passes_iff.mp (passes file inside)) falls
    · intro passes file member
      have inside : file ∈ v.started := by
        refine started_iff.mpr ⟨member, ?_⟩
        rcases numeric with numeric | idle
        · exact .inr numeric
        · left
          by_contra plain
          have listed : file ∈ v.rest := by
            rw [Setup.rest, List.mem_filter, mem_unique]
            exact ⟨member, by simpa using plain⟩
          rw [idle] at listed
          exact List.not_mem_nil listed
      obtain ⟨r, ran, -⟩ := passes file inside
      obtain ⟨ended, green | clean⟩ := passes_iff.mp (passes file inside)
      · exact ⟨play (v.first file), ⟨inside, .inl rfl⟩,
          genuine_of_green ended green (shown file member)⟩
      · by_cases green : (play (v.first file)).Green
        · exact ⟨play (v.first file), ⟨inside, .inl rfl⟩,
            genuine_of_green ended green (shown file member)⟩
        · have red : r.ok = false := by
            rw [← Bool.not_eq_true, firstRun_ok ran]
            exact green
          exact ⟨play (v.solo file), ⟨inside, .inr ⟨rfl, r, ran, red⟩⟩, .inl clean.2.1⟩

end DevGate.Gate.RunTests
