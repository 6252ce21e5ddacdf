import DevGate.Hub.Monitor

set_option autoImplicit false

/- What a coherence check that stays silent says about the watched branches. -/
namespace DevGate.Hub.Monitor

open Py

/-- Every request the check made was answered 200, and it raised no alert. -/
structure Silent (s s' : Polled) : Prop where
  fine : ∀ status ∈ s'.statuses.drop s.statuses.length, status = 200
  quiet : s'.alerts = s.alerts

/-- The runs GitHub lists for the workflow the check picks, newest first, where
both lists are answered 200. -/
def coherenceRuns (config : Config) (net : Outside) (repo : Str) (n : Nat) : Option (List Value) := do
  let body ← net.okBody n (.workflows repo)
  let workflows ← (do (← getDefault body "workflows" (.list [])).iter : Except Exc _).toOption
  let wf ← (findWorkflow net config.coherenceWorkflowMatch workflows).toOption.join
  let id ← (wf.item "id").toOption
  let body ← net.okBody (n + 1) (.workflowRuns repo id "?per_page=100")
  (do (← getDefault body "workflow_runs" (.list [])).iter : Except Exc _).toOption

/-- The latest run on a branch. -/
def latestOn (branch : Str) (runs : List Value) : Option Value :=
  runs.find? (fun run => run.field? "head_branch" = some (.str branch))

def conclusionOf (run : Value) : Value := (run.field? "conclusion").getD .null

/-- The age of a run, where it has a completion time. -/
def runAge (now : Datetime) (run : Value) : Option Flt := do
  let completedAt ← (parseIso ((run.field? "completed_at").getD .null)).toOption.join
  let micros ← (now.sub completedAt).toOption
  return totalSeconds micros

/-- A success, completed within the window. -/
def RecentPass (config : Config) (now : Datetime) (run : Value) : Prop :=
  conclusionOf run = .str "success" ∧ ∃ age, runAge now run = some age ∧ age.le (maxAgeSec config) = true

/-- The run has no conclusion that the check lists, and is not past the window. -/
def Overlooked (config : Config) (now : Datetime) (run : Value) : Prop :=
  isNonPassing (conclusionOf run) = .ok false ∧ conclusionOf run ≠ .str "skipped" ∧
    ∃ age, runAge now run = some age ∧ (maxAgeSec config).lt age = false

/-- The claim of a silent check: a recent pass is the latest run of every watched branch. -/
def SilenceMeansPass (config : Config) (net : Outside) (repo : Str) (s : Polled) : Prop :=
  ∀ s', checkSpecCoherence config net repo s = .ok s' → Silent s s' →
    ∃ runs, coherenceRuns config net repo s.statuses.length = some runs ∧
      ∀ branch ∈ namedBranches config,
        ∃ run, latestOn branch runs = some run ∧ RecentPass config (net.now s') run

/-- Where the newest run on any watched branch is one that the check overlooks,
it is a success, the window is a number, and every other watched branch has a
recent pass of its own. -/
def NoneOverlooked (config : Config) (net : Outside) (repo : Str) (s : Polled) : Prop :=
  ∀ runs newest, coherenceRuns config net repo s.statuses.length = some runs →
    firstRunOn (namedBranches config) runs = .ok (some newest) →
    Overlooked config (net.clock (s.statuses.length + 2)) newest →
      conclusionOf newest = .str "success" ∧ config.driftGraceMin ≠ .nan ∧
        ∀ branch ∈ namedBranches config, newest.field? "head_branch" ≠ some (.str branch) →
          ∃ run, latestOn branch runs = some run ∧
            RecentPass config (net.clock (s.statuses.length + 2)) run

theorem Polled.raiseAlert_ne (s : Polled) (alert : Alert) : (s.raiseAlert alert).alerts ≠ s.alerts := by
  simp [Polled.raiseAlert]

theorem firstRunOn_some {branches : List Str} {runs : List Value} {newest : Value}
    (found : firstRunOn branches runs = .ok (some newest)) :
    ∃ branch ∈ branches, newest.field? "head_branch" = some (.str branch) ∧
      latestOn branch runs = some newest := by
  induction runs with
  | nil => cases found
  | cons run rest ih =>
      rw [firstRunOn] at found
      obtain ⟨looked, got, found⟩ := bind_ok.mp found
      have field := Value.field?_of_get got
      dsimp only at found
      split at found
      · rename_i watched
        cases found
        obtain ⟨branch, member, same⟩ := List.any_eq_true.mp watched
        have here : newest.field? "head_branch" = some (.str branch) := by
          rw [field]
          cases looked with
          | none => simp at same
          | some v => simpa using same
        exact ⟨branch, member, here, by simp [latestOn, here]⟩
      · rename_i unwatched
        obtain ⟨branch, member, here, latest⟩ := ih found
        refine ⟨branch, member, here, ?_⟩
        have apart : run.field? "head_branch" ≠ some (.str branch) := by
          rw [field]
          rintro rfl
          exact unwatched (List.any_eq_true.mpr ⟨branch, member, by simp⟩)
        rw [latestOn, List.find?_cons_of_neg (by simpa using apart)]
        exact latest

theorem runAge_eq_some {now : Datetime} {run : Value} {age : Flt} :
    runAge now run = some age ↔
      ∃ completedAt, parseIso ((run.field? "completed_at").getD .null) = .ok (some completedAt) ∧
        ∃ micros, now.sub completedAt = .ok micros ∧ totalSeconds micros = age := by
  simp [runAge, Option.bind_eq_some_iff, Outside.toOption_eq_some, Option.join_eq_some_iff]

theorem dict_of_runAge {now : Datetime} {run : Value} {age : Flt} (aged : runAge now run = some age) :
    ∃ kvs, run = .dict kvs := by
  obtain ⟨t, parsed, -⟩ := runAge_eq_some.mp aged
  cases run with
  | dict kvs => exact ⟨kvs, rfl⟩
  | _ => simp [Value.field?, parseIso, Value.truthy] at parsed

section Silence

variable {config : Config} {net : Outside} {repo : Str} {s s' : Polled}

theorem checkRecency_quiet {overdue what untimed : Str} {latest : Value}
    (ran : checkRecency config net repo overdue what untimed latest s = .ok s')
    (quiet : s'.alerts = s.alerts) :
    s' = s ∧ ∃ age, runAge (net.now s) latest = some age ∧ (maxAgeSec config).lt age = false := by
  obtain ⟨looked, got, rest⟩ := bind_ok.mp ran
  obtain ⟨parsed, read, rest⟩ := bind_ok.mp rest
  cases parsed with
  | none =>
      cases rest
      exact absurd quiet (Polled.raiseAlert_ne _ _)
  | some completedAt =>
      obtain ⟨micros, apart, rest⟩ := bind_ok.mp rest
      dsimp only at rest
      split at rest
      · cases rest
        exact absurd quiet (Polled.raiseAlert_ne _ _)
      · rename_i within
        cases rest
        refine ⟨rfl, totalSeconds micros, ?_, by simpa using within⟩
        rw [← Value.field?_of_get got] at read
        exact runAge_eq_some.mpr ⟨completedAt, read, micros, apart, rfl⟩

theorem checkRecency_timely {age : Flt} {latest : Value} (aged : runAge (net.now s) latest = some age)
    (within : (maxAgeSec config).lt age = false) (overdue what untimed : Str) :
    checkRecency config net repo overdue what untimed latest s = .ok s := by
  obtain ⟨kvs, rfl⟩ := dict_of_runAge aged
  obtain ⟨completedAt, parsed, micros, apart, rfl⟩ := runAge_eq_some.mp aged
  rw [Value.field?_dict] at parsed
  simp only [checkRecency, Value.get_dict, ok_bind, parsed, apart, within, Bool.false_eq_true,
    ↓reduceIte, pure_ok]

theorem checkCoherenceRun_quiet {latest : Value} :
    (checkCoherenceRun config net repo latest s = .ok s' ∧ s'.alerts = s.alerts) ↔
      s' = s ∧ Overlooked config (net.now s) latest := by
  constructor
  · rintro ⟨ran, quiet⟩
    obtain ⟨looked, got, rest⟩ := bind_ok.mp ran
    obtain ⟨nonPassing, listed, rest⟩ := bind_ok.mp rest
    have same : conclusionOf latest = looked.getD .null := by
      rw [conclusionOf, Value.field?_of_get got]
    rw [← same] at listed rest
    cases nonPassing with
    | true =>
        obtain ⟨url, found, rest⟩ := bind_ok.mp rest
        cases rest
        exact absurd quiet (Polled.raiseAlert_ne _ _)
    | false =>
        simp only [Bool.false_eq_true, ↓reduceIte] at rest
        by_cases skipped : conclusionOf latest = .str "skipped"
        · rw [if_pos skipped] at rest
          obtain ⟨branch, on, rest⟩ := bind_ok.mp rest
          obtain ⟨url, found, rest⟩ := bind_ok.mp rest
          cases rest
          exact absurd quiet (Polled.raiseAlert_ne _ _)
        · rw [if_neg skipped] at rest
          obtain ⟨rfl, timely⟩ := checkRecency_quiet rest quiet
          exact ⟨rfl, listed, skipped, timely⟩
  · rintro ⟨rfl, listed, unskipped, age, aged, within⟩
    obtain ⟨kvs, rfl⟩ := dict_of_runAge aged
    refine ⟨?_, rfl⟩
    simp only [conclusionOf, Value.field?_dict] at listed unskipped
    simp only [checkCoherenceRun, Value.get_dict, ok_bind, listed, Bool.false_eq_true, ↓reduceIte,
      unskipped, checkRecency_timely aged within]

theorem checkRecency_statuses {overdue what untimed : Str} {latest : Value}
    (ran : checkRecency config net repo overdue what untimed latest s = .ok s') :
    s'.statuses = s.statuses := by
  obtain ⟨looked, -, rest⟩ := bind_ok.mp ran
  obtain ⟨parsed, -, rest⟩ := bind_ok.mp rest
  cases parsed with
  | none => cases rest; rfl
  | some completedAt =>
      obtain ⟨micros, -, rest⟩ := bind_ok.mp rest
      dsimp only at rest
      split at rest <;> · cases rest; rfl

theorem checkCoherenceRun_statuses {latest : Value}
    (ran : checkCoherenceRun config net repo latest s = .ok s') : s'.statuses = s.statuses := by
  obtain ⟨looked, -, rest⟩ := bind_ok.mp ran
  obtain ⟨nonPassing, -, rest⟩ := bind_ok.mp rest
  split at rest
  · obtain ⟨url, -, rest⟩ := bind_ok.mp rest
    cases rest
    rfl
  · split at rest
    · obtain ⟨branch, -, rest⟩ := bind_ok.mp rest
      obtain ⟨url, -, rest⟩ := bind_ok.mp rest
      cases rest
      rfl
    · exact checkRecency_statuses rest

theorem checkCoherenceRuns_grows {wf body : Value}
    (ran : checkCoherenceRuns config net repo wf body s = .ok s') : s.statuses <+: s'.statuses := by
  obtain ⟨listed, -, rest⟩ := bind_ok.mp ran
  obtain ⟨runs, -, rest⟩ := bind_ok.mp rest
  obtain ⟨found, -, rest⟩ := bind_ok.mp rest
  cases found with
  | none =>
      obtain ⟨name, -, rest⟩ := bind_ok.mp rest
      cases rest
      exact List.prefix_refl _
  | some latest => exact (checkCoherenceRun_statuses rest).symm ▸ List.prefix_refl _

theorem checkCoherenceWorkflows_grows {body : Value}
    (ran : checkCoherenceWorkflows config net repo body s = .ok s') :
    s.statuses <+: s'.statuses := by
  obtain ⟨listed, -, rest⟩ := bind_ok.mp ran
  obtain ⟨workflows, -, rest⟩ := bind_ok.mp rest
  obtain ⟨found, -, rest⟩ := bind_ok.mp rest
  cases found with
  | none => cases rest; exact List.prefix_refl _
  | some wf =>
      obtain ⟨id, -, rest⟩ := bind_ok.mp rest
      exact Outside.onOk_grows (fun _ _ _ => checkCoherenceRuns_grows) rest

theorem coherenceRuns_eq_some {n : Nat} {runs : List Value} :
    coherenceRuns config net repo n = some runs ↔
      ∃ workflows, net.okBody n (.workflows repo) = some workflows ∧
      ∃ items, (do (← getDefault workflows "workflows" (.list [])).iter) = .ok items ∧
      ∃ wf, findWorkflow net config.coherenceWorkflowMatch items = .ok (some wf) ∧
      ∃ id, wf.item "id" = .ok id ∧
      ∃ body, net.okBody (n + 1) (.workflowRuns repo id "?per_page=100") = some body ∧
        (do (← getDefault body "workflow_runs" (.list [])).iter) = .ok runs := by
  simp only [coherenceRuns, Option.bind_eq_bind, Option.bind_eq_some_iff, Outside.toOption_eq_some,
    Option.join_eq_some_iff]

theorem checkCoherenceRuns_quiet {wf body : Value} :
    (checkCoherenceRuns config net repo wf body s = .ok s' ∧ s'.alerts = s.alerts) ↔
      s' = s ∧ ∃ runs, (do (← getDefault body "workflow_runs" (.list [])).iter) = .ok runs ∧
        ∃ newest, firstRunOn (namedBranches config) runs = .ok (some newest) ∧
          Overlooked config (net.now s) newest := by
  constructor
  · rintro ⟨ran, quiet⟩
    obtain ⟨listed, got, rest⟩ := bind_ok.mp ran
    obtain ⟨runs, iterated, rest⟩ := bind_ok.mp rest
    obtain ⟨found, first, rest⟩ := bind_ok.mp rest
    cases found with
    | none =>
        obtain ⟨name, -, rest⟩ := bind_ok.mp rest
        cases rest
        exact absurd quiet (Polled.raiseAlert_ne _ _)
    | some newest =>
        obtain ⟨rfl, overlooked⟩ := checkCoherenceRun_quiet.mp ⟨rest, quiet⟩
        exact ⟨rfl, runs, bind_ok.mpr ⟨listed, got, iterated⟩, newest, first, overlooked⟩
  · rintro ⟨rfl, runs, listed, newest, first, overlooked⟩
    obtain ⟨value, got, iterated⟩ := bind_ok.mp listed
    obtain ⟨ran, quiet⟩ := checkCoherenceRun_quiet.mpr ⟨rfl, overlooked⟩
    refine ⟨?_, quiet⟩
    simp only [checkCoherenceRuns, got, ok_bind, iterated, first]
    exact ran

/-- When a check stays silent: both lists come back, and the newest run on any
watched branch is overlooked. -/
theorem silent_iff (named : namedBranches config ≠ []) :
    (checkSpecCoherence config net repo s = .ok s' ∧ Silent s s') ↔
      s' = { s with statuses := s.statuses ++ [200, 200] } ∧
        ∃ runs newest, coherenceRuns config net repo s.statuses.length = some runs ∧
          firstRunOn (namedBranches config) runs = .ok (some newest) ∧
          Overlooked config (net.clock (s.statuses.length + 2)) newest := by
  unfold checkSpecCoherence
  rw [if_neg named]
  constructor
  · rintro ⟨ran, fine, quiet⟩
    obtain ⟨workflows, answered, rest⟩ :=
      Outside.onOk_fine (fun _ _ _ => checkCoherenceWorkflows_grows) ran fine
    obtain ⟨listed, got, rest⟩ := bind_ok.mp rest
    obtain ⟨items, iterated, rest⟩ := bind_ok.mp rest
    obtain ⟨found, first, rest⟩ := bind_ok.mp rest
    cases found with
    | none =>
        cases rest
        exact absurd quiet (Polled.raiseAlert_ne _ _)
    | some wf =>
        obtain ⟨id, identified, rest⟩ := bind_ok.mp rest
        obtain ⟨body, replied, rest⟩ := Outside.onOk_fine (fun _ _ _ => checkCoherenceRuns_grows) rest
          (fun status later => fine status (by
            simp only [List.length_append] at later
            exact List.mem_of_mem_drop (by rwa [List.drop_drop])))
        obtain ⟨rfl, runs, ofBody, newest, watched, overlooked⟩ :=
          checkCoherenceRuns_quiet.mp ⟨rest, quiet⟩
        refine ⟨by simp, runs, newest, coherenceRuns_eq_some.mpr ⟨workflows, answered, items,
          bind_ok.mpr ⟨listed, got, iterated⟩, wf, first, id, identified, body, ?_, ofBody⟩, watched, ?_⟩
        · simpa using replied
        · simpa [Outside.now] using overlooked
  · rintro ⟨rfl, runs, newest, listed, watched, overlooked⟩
    obtain ⟨workflows, answered, items, ofBody, wf, first, id, identified, body, replied, ofRuns⟩ :=
      coherenceRuns_eq_some.mp listed
    obtain ⟨value, got, iterated⟩ := bind_ok.mp ofBody
    refine ⟨?_, by simp, rfl⟩
    rw [Outside.onOk_of_okBody answered]
    refine bind_ok.mpr ⟨value, got, bind_ok.mpr ⟨items, iterated, bind_ok.mpr ⟨some wf, first,
      bind_ok.mpr ⟨id, identified, ?_⟩⟩⟩⟩
    rw [Outside.onOk_of_okBody (by simpa using replied)]
    refine (checkCoherenceRuns_quiet.mpr ⟨?_, runs, ofRuns, newest, watched, ?_⟩).1
    · simp
    · simpa [Outside.now] using overlooked

theorem maxAgeSec_eq_nan : maxAgeSec config = .nan ↔ config.driftGraceMin = .nan := by
  cases grace : config.driftGraceMin with
  | nan => simp [maxAgeSec, grace, Flt.mul, Flt.plus]
  | inf negative => simp [maxAgeSec, grace, Flt.mul, Flt.plus]
  | fin q =>
      have minutes := double_ne_nan (q * 60)
      cases window : Json.double (q * 60) with
      | nan => exact absurd window minutes
      | inf negative => simp [maxAgeSec, grace, Flt.mul, Flt.plus, window]
      | fin r => simp [maxAgeSec, grace, Flt.mul, Flt.plus, window, double_ne_nan]

/-- Of a run the check overlooks: it is a recent pass where it is a success and
the window is a number. -/
theorem recentPass_iff {now : Datetime} {run : Value} (overlooked : Overlooked config now run) :
    RecentPass config now run ↔
      conclusionOf run = .str "success" ∧ config.driftGraceMin ≠ .nan := by
  obtain ⟨-, -, age, aged, within⟩ := overlooked
  obtain ⟨t, parsed, micros, apart, rfl⟩ := runAge_eq_some.mp aged
  have number := totalSeconds_ne_nan micros
  constructor
  · rintro ⟨success, age, again, recent⟩
    refine ⟨success, fun grace => ?_⟩
    rw [maxAgeSec_eq_nan.mpr grace] at recent
    cases age <;> simp [Flt.le, Flt.lt] at recent
  · rintro ⟨success, grace⟩
    exact ⟨success, _, aged, (Flt.le_iff_not_lt number (mt maxAgeSec_eq_nan.mp grace)).mpr within⟩

/-- Silence means a recent pass on every watched branch exactly where the newest
run is not overlooked without being one, nor stands in for another branch. -/
theorem silence_means_pass_iff (named : namedBranches config ≠ []) :
    SilenceMeansPass config net repo s ↔ NoneOverlooked config net repo s := by
  constructor
  · intro means runs newest listed watched overlooked
    obtain ⟨ran, silent⟩ := (silent_iff named).mpr ⟨rfl, runs, newest, listed, watched, overlooked⟩
    obtain ⟨runs', listed', passing⟩ := means _ ran silent
    obtain rfl := Option.some.inj (listed.symm.trans listed')
    have later : net.now { s with statuses := s.statuses ++ [200, 200] } =
        net.clock (s.statuses.length + 2) := by simp [Outside.now]
    rw [later] at passing
    obtain ⟨branch, member, on, latest⟩ := firstRunOn_some watched
    obtain ⟨run, found, recent⟩ := passing branch member
    obtain rfl := Option.some.inj (latest.symm.trans found)
    obtain ⟨success, grace⟩ := (recentPass_iff overlooked).mp recent
    exact ⟨success, grace, fun branch member _ => passing branch member⟩
  · intro none s' ran silent
    obtain ⟨rfl, runs, newest, listed, watched, overlooked⟩ := (silent_iff named).mp ⟨ran, silent⟩
    have later : net.now { s with statuses := s.statuses ++ [200, 200] } =
        net.clock (s.statuses.length + 2) := by simp [Outside.now]
    rw [later]
    obtain ⟨success, grace, others⟩ := none runs newest listed watched overlooked
    refine ⟨runs, listed, fun branch member => ?_⟩
    by_cases on : newest.field? "head_branch" = some (.str branch)
    · obtain ⟨own, -, onOwn, latest⟩ := firstRunOn_some watched
      obtain rfl : own = branch := by
        rw [onOwn] at on
        simpa using on
      exact ⟨newest, latest, (recentPass_iff overlooked).mpr ⟨success, grace⟩⟩
    · exact others branch member on

end Silence

namespace StartupFailure

def config : Config where
  heartbeatIntervalSec := 300
  queueThresholdMin := .fin 30
  driftGraceMin := .fin 10
  driftWorkflowMatch := "drift"
  coherenceWorkflowMatch := "coherence"
  watchedBranches := ["main"]
  apiBackoffMaxSec := 120

/-- A run on `main` that never started, an hour ago. -/
def latest : Value :=
  .dict [("head_branch", .str "main"), ("conclusion", .str "startup_failure"),
    ("completed_at", .str "2026-01-01T00:00:00Z")]

def answer : Endpoint → Value
  | .workflows _ => .dict [("workflows", .list [.dict [("id", .int 7), ("name", .str "coherence")]])]
  | .workflowRuns _ _ _ => .dict [("workflow_runs", .list [latest])]
  | _ => .dict []

def net : Outside where
  unicode := ⟨Chr.digit?, fun _ => false, fun s => s⟩
  printer := ⟨fun _ => false, fun _ => []⟩
  answer := fun _ request => .ok (200, answer request)
  clock := fun _ => ⟨(Datetime.ymdToOrdinal 2026 1 1 * 86400 + 3600) * 1000000, some 0⟩

def start : Polled := ⟨[], []⟩

end StartupFailure

theorem startup_failure_silent :
    ¬ SilenceMeansPass StartupFailure.config StartupFailure.net "o/n" StartupFailure.start := by
  intro means
  have listed : coherenceRuns StartupFailure.config StartupFailure.net "o/n" 0 =
      some [StartupFailure.latest] := by decide +kernel
  have overlooked : Overlooked StartupFailure.config (StartupFailure.net.clock 2)
      StartupFailure.latest := ⟨by rfl, by decide, .fin 3600, by decide +kernel, by decide +kernel⟩
  obtain ⟨ran, silent⟩ := (silent_iff (by decide)).mpr
    ⟨rfl, [StartupFailure.latest], StartupFailure.latest, listed, by rfl, overlooked⟩
  obtain ⟨runs, again, passing⟩ := means _ ran silent
  obtain rfl := Option.some.inj (listed.symm.trans again)
  obtain ⟨run, found, success, -⟩ := passing "main" (by decide)
  obtain rfl := Option.some.inj ((show latestOn "main" [StartupFailure.latest] =
    some StartupFailure.latest by decide).symm.trans found)
  exact absurd success (by decide)

theorem silence_means_pass_startup :
    SilenceMeansPass StartupFailure.config StartupFailure.net "o/n" StartupFailure.start ↔
      NoneOverlooked StartupFailure.config StartupFailure.net "o/n" StartupFailure.start :=
  silence_means_pass_iff (by decide)

end DevGate.Hub.Monitor
