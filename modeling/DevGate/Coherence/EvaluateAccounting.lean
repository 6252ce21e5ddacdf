import DevGate.Coherence.EvaluateLedger
import DevGate.Coherence.Result

set_option autoImplicit false

/- The accounts of a run, whatever the evaluators and the subject do while it
lasts: what became of each assertion, and whose findings were kept. -/
namespace DevGate.Evaluate

open Py Evaluators

/-- What a run meets at one of its steps: how the evaluators behave then, and what
`first_mutation` answers after the call. -/
structure Moment where
  table : Builtin → Behaviour
  drift : Option Text

/-- `run`, where evaluators and subject may change from step to step. -/
def runThrough (captured : Dict Str Value) (maxEvaluators : Int)
    (met : List (Assertion × Moment)) : Except Exc Progress :=
  if met.length > maxEvaluators then
    .error ⟨evaluatorError, ["planned ", .str (.int met.length), " evaluators exceeds limit ",
      .str (.int maxEvaluators)]⟩
  else met.foldlM (fun s m => step m.2.table captured (fun _ => m.2.drift) s m.1) .start

/-- With steady evaluators it is `run`. -/
theorem run_eq_runThrough (table : Builtin → Behaviour) (captured : Dict Str Value)
    (drift : Assertion → Option Text) (maxEvaluators : Int) (planned : List Assertion) :
    run table captured drift maxEvaluators planned =
      runThrough captured maxEvaluators (planned.map (fun a => (a, ⟨table, drift a⟩))) := by
  unfold run runThrough
  rw [List.length_map, List.foldlM_map]
  rfl

/-- The outcome of the latest row about `aid`. -/
def settledAs (rows : List Row) (aid : Str) : Option Outcome :=
  Dict.get? (Dict.ofPairs (rows.map (fun r => (r.assertionId, r.outcome)))) aid

/-- Its evaluator is built in and its captured facts are bound. -/
def Ready (captured : Dict Str Value) (a : Assertion) (builtin : Builtin)
    (facts : Dict Str Value) : Prop :=
  Builtin.ofId? a.evaluator.id = some builtin ∧ (firstUnbound captured a).join = none ∧
    bindFacts captured (declaredFacts a) [] = .ok facts

/-- After the rows `earlier`, one of its dependencies has not settled as SATISFIED. -/
def DependencyBlocked (captured : Dict Str Value) (earlier : List Row) (a : Assertion) : Prop :=
  (∃ builtin facts, Ready captured a builtin facts) ∧
    ∃ d ∈ a.dependencies, settledAs earlier d ≠ some .satisfied

/-- Its evaluator is called, and answers `result`. -/
def Called (captured : Dict Str Value) (earlier : List Row) (a : Assertion) (moment : Moment)
    (result : Except Exc (List Finding)) : Prop :=
  ∃ builtin facts, Ready captured a builtin facts ∧
    (∀ d ∈ a.dependencies, settledAs earlier d = some .satisfied) ∧
    moment.table builtin a facts = result

def Crashed (captured : Dict Str Value) (earlier : List Row) (a : Assertion) (moment : Moment) :
    Prop :=
  ∃ e, Called captured earlier a moment (.error e) ∧ e.isA [unresolved] = false

def Undecided (captured : Dict Str Value) (earlier : List Row) (a : Assertion) (moment : Moment) :
    Prop :=
  ∃ e, Called captured earlier a moment (.error e) ∧ e.isA [unresolved] = true

def Drifted (captured : Dict Str Value) (earlier : List Row) (a : Assertion) (moment : Moment) :
    Prop :=
  (∃ result, Called captured earlier a moment result) ∧ moment.drift.isSome = true

theorem settledAs_append (rows : List Row) (row : Row) (aid : Str) :
    settledAs (rows ++ [row]) aid =
      if row.assertionId = aid then some row.outcome else settledAs rows aid := by
  unfold settledAs Dict.ofPairs
  rw [List.map_append, List.foldl_append]
  exact Dict.get?_set _ _ _ _

/-- The four ways an iteration decides about its assertion. -/
theorem assess_cases {table : Builtin → Behaviour} {captured : Dict Str Value}
    {drift : Assertion → Option Text} {done : Dict Str Outcome} {a : Assertion} {v : Verdict}
    (assessed : assess table captured drift done a = .ok v) :
    ((∀ builtin facts, ¬Ready captured a builtin facts) ∧ v.outcome = .unresolved) ∨
      ∃ builtin facts, Ready captured a builtin facts ∧
        ((∃ d ∈ a.dependencies, Dict.get? done d ≠ some .satisfied) ∧ v.outcome = .unresolved ∧
            v.error ≠ none ∨
          (∀ d ∈ a.dependencies, Dict.get? done d = some .satisfied) ∧
            v = remeasure (drift a) (judge a (table builtin a facts))) := by
  unfold assess at assessed
  split at assessed
  · rename_i unknown
    cases assessed
    refine .inl ⟨fun builtin facts ready => ?_, rfl⟩
    rw [ready.1] at unknown
    cases unknown
  · rename_i builtin known
    split at assessed
    · rename_i fid missing
      cases assessed
      refine .inl ⟨fun builtin facts ready => ?_, rfl⟩
      rw [ready.2.1] at missing
      cases missing
    · rename_i nothing
      obtain ⟨facts, bound, assessed⟩ := bind_ok.mp assessed
      refine .inr ⟨builtin, facts, ⟨known, nothing, bound⟩, ?_⟩
      by_cases blocked : (blockedBy done a).isSome
      · rw [if_pos blocked] at assessed
        cases assessed
        obtain ⟨d, member, fails⟩ := List.find?_isSome.mp blocked
        exact .inl ⟨⟨d, member, of_decide_eq_true fails⟩, rfl, by simp⟩
      · rw [if_neg blocked] at assessed
        cases assessed
        refine .inr ⟨fun d member => ?_, rfl⟩
        have settled := blocked
        unfold blockedBy at settled
        rw [Bool.not_eq_true, Option.isSome_eq_false_iff, Option.isNone_iff_eq_none,
          List.find?_eq_none] at settled
        simpa using settled d member

/-- What a step adds: its row, the findings it contributes, and its ERROR condition. -/
structure Accounted (captured : Dict Str Value) (earlier : List Row) (a : Assertion)
    (moment : Moment) (row : Row) (found : List Finding) (error : Option Text) : Prop where
  about : row.assertionId = a.id ∧ row.version = a.version
  violated : row.outcome = .violated ↔ found ≠ []
  refused : Crashed captured earlier a moment ∨ Undecided captured earlier a moment ∨
    DependencyBlocked captured earlier a ∨ Drifted captured earlier a moment →
      row.outcome = .unresolved ∧ found = []
  raised : Crashed captured earlier a moment ∨ DependencyBlocked captured earlier a ∨
    Drifted captured earlier a moment → error ≠ none

/-- The ledger, findings and error of a run are what its steps added, one after
the other; `found` holds their contributions. -/
structure Accounting (captured : Dict Str Value) (met : List (Assertion × Moment))
    (s : Progress) (found : List (List Finding)) : Prop where
  rows : s.ledger.length = met.length
  contributions : found.length = met.length
  findings : s.findings = found.flatten
  done : ∀ aid, Dict.get? s.done aid = settledAs s.ledger aid
  each : ∀ i m row fs, met[i]? = some m → s.ledger[i]? = some row → found[i]? = some fs →
    ∃ error, Accounted captured (s.ledger.take i) m.1 m.2 row fs error ∧
      (s.error = none → error = none)

/-- The row `settle` appends. -/
def rowOf (a : Assertion) (v : Verdict) : Row :=
  ⟨a.id, a.version, v.outcome, v.reason, if v.outcome ≠ .satisfied then .block else .advisory⟩

/-- The findings `settle` keeps. -/
def Verdict.kept (v : Verdict) : List Finding := if v.outcome ≠ .unresolved then v.found else []

theorem kept_unresolved {v : Verdict} (refused : v.outcome = .unresolved) : v.kept = [] := by
  unfold Verdict.kept
  rw [if_neg (not_not.mpr refused)]

theorem settle_findings (s : Progress) (a : Assertion) (v : Verdict) :
    (s.settle a v).findings = s.findings ++ v.kept := by
  unfold Progress.settle Verdict.kept
  dsimp only
  split <;> simp

theorem Ready.unique {captured : Dict Str Value} {a : Assertion} {builtin builtin' : Builtin}
    {facts facts' : Dict Str Value} (ready : Ready captured a builtin facts)
    (other : Ready captured a builtin' facts') : builtin' = builtin ∧ facts' = facts := by
  have sameBuiltin := ready.1.symm.trans other.1
  have sameFacts := ready.2.2.symm.trans other.2.2
  exact ⟨(Option.some.inj sameBuiltin).symm, (Except.ok.inj sameFacts).symm⟩

/-- The evaluator's answer is the one its table gives at that step. -/
theorem Called.result_eq {captured : Dict Str Value} {earlier : List Row} {a : Assertion}
    {moment : Moment} {result : Except Exc (List Finding)} {builtin : Builtin}
    {facts : Dict Str Value} (called : Called captured earlier a moment result)
    (ready : Ready captured a builtin facts) : moment.table builtin a facts = result := by
  obtain ⟨builtin', facts', other, -, answers⟩ := called
  obtain ⟨rfl, rfl⟩ := ready.unique other
  exact answers

theorem judge_violated (a : Assertion) (result : Except Exc (List Finding)) :
    (judge a result).outcome = .violated ↔ (judge a result).kept ≠ [] := by
  cases result with
  | ok found =>
      by_cases empty : found = [] <;> simp [judge, Verdict.kept, empty]
  | error e =>
      by_cases here : e.isA [unresolved] = true <;> simp [judge, Verdict.kept, here]

theorem remeasure_violated (drift : Option Text) {v : Verdict}
    (violated : v.outcome = .violated ↔ v.kept ≠ []) :
    (remeasure drift v).outcome = .violated ↔ (remeasure drift v).kept ≠ [] := by
  cases drift with
  | none => exact violated
  | some path => simp [remeasure, Verdict.kept]

theorem judge_refused (a : Assertion) (e : Exc) : (judge a (.error e)).outcome = .unresolved := by
  unfold judge
  dsimp only
  split <;> rfl

theorem judge_raised (a : Assertion) {e : Exc} (crash : e.isA [unresolved] = false) :
    (judge a (.error e)).error ≠ none := by
  simp [judge, crash]

theorem remeasure_refused (drift : Option Text) {v : Verdict} (refused : v.outcome = .unresolved) :
    (remeasure drift v).outcome = .unresolved := by
  cases drift with
  | none => exact refused
  | some path => rfl

theorem remeasure_raised (drift : Option Text) {v : Verdict} (raised : v.error ≠ none) :
    (remeasure drift v).error ≠ none := by
  cases drift with
  | none => exact raised
  | some path =>
      obtain ⟨reason, same⟩ := Option.ne_none_iff_exists'.mp raised
      simp [remeasure, same]

theorem remeasure_drifted {drift : Option Text} (drifted : drift.isSome = true) (v : Verdict) :
    (remeasure drift v).outcome = .unresolved ∧ (remeasure drift v).error ≠ none := by
  obtain ⟨path, rfl⟩ := Option.isSome_iff_exists.mp drifted
  exact ⟨rfl, by cases same : v.error <;> simp [remeasure, same]⟩

/-- Where nothing is ready, none of the refusals is about an evaluation. -/
theorem refused_ready {captured : Dict Str Value} {earlier : List Row} {a : Assertion}
    {moment : Moment} (refused : Crashed captured earlier a moment ∨
      Undecided captured earlier a moment ∨ DependencyBlocked captured earlier a ∨
      Drifted captured earlier a moment) : ∃ builtin facts, Ready captured a builtin facts := by
  rcases refused with ⟨e, called, -⟩ | ⟨e, called, -⟩ | ⟨ready, -⟩ | ⟨⟨result, called⟩, -⟩
  · obtain ⟨builtin, facts, ready, -⟩ := called
    exact ⟨builtin, facts, ready⟩
  · obtain ⟨builtin, facts, ready, -⟩ := called
    exact ⟨builtin, facts, ready⟩
  · exact ready
  · obtain ⟨builtin, facts, ready, -⟩ := called
    exact ⟨builtin, facts, ready⟩

/-- Step lemma: what one iteration adds accounts for its assertion. -/
theorem assess_accounted {captured : Dict Str Value} {moment : Moment} {done : Dict Str Outcome}
    {earlier : List Row} (agree : ∀ aid, Dict.get? done aid = settledAs earlier aid)
    {a : Assertion} {v : Verdict}
    (assessed : assess moment.table captured (fun _ => moment.drift) done a = .ok v) :
    Accounted captured earlier a moment (rowOf a v) v.kept v.error := by
  rcases assess_cases assessed with ⟨idle, here⟩ | ⟨builtin, facts, ready, blocked | called⟩
  · refine ⟨⟨rfl, rfl⟩, ?_, fun _ => ⟨here, kept_unresolved here⟩, fun raised => ?_⟩
    · simp [rowOf, here, kept_unresolved here]
    · have refused : Crashed captured earlier a moment ∨ Undecided captured earlier a moment ∨
          DependencyBlocked captured earlier a ∨ Drifted captured earlier a moment := by tauto
      obtain ⟨builtin, facts, ready⟩ := refused_ready refused
      exact absurd ready (idle builtin facts)
  · obtain ⟨-, here, raised⟩ := blocked
    refine ⟨⟨rfl, rfl⟩, ?_, fun _ => ⟨here, kept_unresolved here⟩, fun _ => raised⟩
    simp [rowOf, here, kept_unresolved here]
  · obtain ⟨settled, rfl⟩ := called
    have open_ : ¬DependencyBlocked captured earlier a := by
      rintro ⟨-, d, member, fails⟩
      exact fails ((agree d).symm.trans (settled d member))
    refine ⟨⟨rfl, rfl⟩, remeasure_violated _ (judge_violated _ _), fun refused => ?_,
      fun raised => ?_⟩
    · have here : (remeasure moment.drift (judge a (moment.table builtin a facts))).outcome =
          .unresolved := by
        rcases refused with ⟨e, called, -⟩ | ⟨e, called, -⟩ | blocked | ⟨-, drifted⟩
        · rw [called.result_eq ready]
          exact remeasure_refused _ (judge_refused a e)
        · rw [called.result_eq ready]
          exact remeasure_refused _ (judge_refused a e)
        · exact absurd blocked open_
        · exact (remeasure_drifted drifted _).1
      exact ⟨here, kept_unresolved here⟩
    · rcases raised with ⟨e, called, crash⟩ | blocked | ⟨-, drifted⟩
      · rw [called.result_eq ready]
        exact remeasure_raised _ (judge_raised a crash)
      · exact absurd blocked open_
      · exact (remeasure_drifted drifted _).2

/-- Run lemma: every step extends the accounts. -/
theorem Accounting.step {captured : Dict Str Value} {met : List (Assertion × Moment)}
    {s next : Progress} {found : List (List Finding)} (accounting : Accounting captured met s found)
    {a : Assertion} {moment : Moment}
    (stepped : Evaluate.step moment.table captured (fun _ => moment.drift) s a = .ok next) :
    ∃ fs, Accounting captured (met ++ [(a, moment)]) next (found ++ [fs]) := by
  obtain ⟨v, assessed, rfl⟩ := step_ok.mp stepped
  have added := assess_accounted accounting.done assessed
  refine ⟨v.kept, ?_, ?_, ?_, ?_, ?_⟩
  · simp [Progress.settle, accounting.rows]
  · simp [accounting.contributions]
  · rw [settle_findings, accounting.findings]
    simp
  · intro aid
    have ledger : (s.settle a v).ledger = s.ledger ++ [rowOf a v] := rfl
    rw [ledger, settledAs_append]
    show Dict.get? (Dict.set s.done a.id v.outcome) aid = _
    rw [Dict.get?_set, accounting.done aid]
    rfl
  · intro i m row fs atMet atRow atFound
    have settled : (s.settle a v).error = none → s.error = none ∧ v.error = none := by
      intro clear
      exact Option.or_eq_none_iff.mp clear
    have ledger : (s.settle a v).ledger = s.ledger ++ [rowOf a v] := rfl
    rw [ledger] at atRow ⊢
    by_cases before : i < met.length
    · rw [List.getElem?_append_left before] at atMet
      rw [List.getElem?_append_left (accounting.rows ▸ before)] at atRow
      rw [List.getElem?_append_left (accounting.contributions ▸ before)] at atFound
      obtain ⟨error, accounted, clear⟩ := accounting.each i m row fs atMet atRow atFound
      rw [List.take_append_of_le_length (by rw [accounting.rows]; omega)]
      exact ⟨error, accounted, fun none => clear (settled none).1⟩
    · have last : i = met.length := by
        have within := (List.getElem?_eq_some_iff.mp atMet).1
        rw [List.length_append, List.length_singleton] at within
        omega
      subst last
      rw [List.getElem?_concat_length] at atMet
      rw [← accounting.rows, List.getElem?_concat_length] at atRow
      rw [← accounting.contributions, List.getElem?_concat_length] at atFound
      cases atMet
      cases atRow
      cases atFound
      rw [← accounting.rows, List.take_left]
      exact ⟨v.error, added, fun none => (settled none).2⟩

theorem Accounting.start (captured : Dict Str Value) : Accounting captured [] .start [] :=
  ⟨rfl, rfl, rfl, fun _ => rfl, by simp⟩

theorem foldlM_accounting {captured : Dict Str Value} (met : List (Assertion × Moment))
    {past : List (Assertion × Moment)} {s out : Progress} {found : List (List Finding)}
    (accounting : Accounting captured past s found)
    (ran : met.foldlM (fun s m => step m.2.table captured (fun _ => m.2.drift) s m.1) s = .ok out) :
    ∃ found, Accounting captured (past ++ met) out found := by
  induction met generalizing past s found with
  | nil =>
      cases ran
      exact ⟨found, by simpa using accounting⟩
  | cons m rest ih =>
      rw [List.foldlM_cons] at ran
      obtain ⟨next, here, ran⟩ := bind_ok.mp ran
      obtain ⟨fs, extended⟩ := accounting.step here
      have later := ih extended ran
      rwa [List.append_assoc, List.singleton_append] at later

theorem runThrough_ok {captured : Dict Str Value} {maxEvaluators : Int}
    {met : List (Assertion × Moment)} {out : Progress} :
    runThrough captured maxEvaluators met = .ok out ↔ met.length ≤ maxEvaluators ∧
      met.foldlM (fun s m => step m.2.table captured (fun _ => m.2.drift) s m.1) .start =
        .ok out := by
  unfold runThrough
  rw [guard_ok, not_lt]

/-- Every row counts under one of the three outcomes. -/
theorem countP_outcomes (ledger : List Row) :
    ledger.countP (fun e => e.outcome = .satisfied) +
        ledger.countP (fun e => e.outcome = .violated) +
        ledger.countP (fun e => e.outcome = .unresolved) = ledger.length := by
  induction ledger with
  | nil => rfl
  | cons e rest ih =>
      simp only [List.countP_cons, List.length_cons]
      cases e.outcome <;> simp <;> omega

theorem Accounting.ledger_eq {captured : Dict Str Value} {met : List (Assertion × Moment)}
    {s : Progress} {found : List (List Finding)} (accounting : Accounting captured met s found) :
    s.ledger.map (fun r => (r.assertionId, r.version)) =
      met.map (fun m => (m.1.id, m.1.version)) := by
  apply List.ext_getElem
  · rw [List.length_map, List.length_map, accounting.rows]
  · intro i inLedger inMet
    rw [List.length_map] at inLedger inMet
    have inFound : i < found.length := by
      rw [accounting.contributions]
      exact inMet
    obtain ⟨error, accounted, -⟩ := accounting.each i met[i] s.ledger[i] found[i]
      (List.getElem?_eq_getElem inMet) (List.getElem?_eq_getElem inLedger)
      (List.getElem?_eq_getElem inFound)
    simp [accounted.about.1, accounted.about.2]

/-- A run that returns has one row per planned assertion, in order, and the rows
account for its findings, its error condition and its summary. -/
theorem runThrough_accounts {captured : Dict Str Value} {maxEvaluators : Int}
    {met : List (Assertion × Moment)} {out : Progress}
    (ran : runThrough captured maxEvaluators met = .ok out) :
    out.ledger.map (fun r => (r.assertionId, r.version)) =
        met.map (fun m => (m.1.id, m.1.version)) ∧
      (∃ found : List (List Finding), found.length = met.length ∧ out.findings = found.flatten ∧
        ∀ i m row fs, met[i]? = some m → out.ledger[i]? = some row → found[i]? = some fs →
          (row.outcome = .violated ↔ fs ≠ []) ∧
          (Crashed captured (out.ledger.take i) m.1 m.2 ∨
              Undecided captured (out.ledger.take i) m.1 m.2 ∨
              DependencyBlocked captured (out.ledger.take i) m.1 ∨
              Drifted captured (out.ledger.take i) m.1 m.2 →
            row.outcome = .unresolved ∧ fs = []) ∧
          (out.error = none → ¬Crashed captured (out.ledger.take i) m.1 m.2 ∧
            ¬DependencyBlocked captured (out.ledger.take i) m.1 ∧
            ¬Drifted captured (out.ledger.take i) m.1 m.2)) ∧
      ∃ satisfied violated unresolved : Nat,
        Result.summary out.ledger = .dict [("planned", .int met.length),
          ("satisfied", .int satisfied), ("violated", .int violated),
          ("unresolved", .int unresolved)] ∧
        satisfied + violated + unresolved = met.length := by
  obtain ⟨found, accounting⟩ := foldlM_accounting met (Accounting.start captured)
    (runThrough_ok.mp ran).2
  rw [List.nil_append] at accounting
  refine ⟨accounting.ledger_eq, ⟨found, accounting.contributions, accounting.findings, ?_⟩, ?_⟩
  · intro i m row fs atMet atRow atFound
    obtain ⟨error, accounted, clear⟩ := accounting.each i m row fs atMet atRow atFound
    refine ⟨accounted.violated, accounted.refused, fun none => ?_⟩
    have quiet := fun raised => accounted.raised raised (clear none)
    exact ⟨fun crashed => quiet (.inl crashed), fun blocked => quiet (.inr (.inl blocked)),
      fun drifted => quiet (.inr (.inr drifted))⟩
  · refine ⟨_, _, _, ?_, (countP_outcomes out.ledger).trans accounting.rows⟩
    rw [← accounting.rows]
    rfl

def bare (id : Str) (dependencies : List Str) : Assertion where
  id := id
  version := 1
  requirementRefs := []
  subjects := []
  evaluator := ⟨Builtin.releaseClaimConsistency.id, "sha256:0"⟩
  parameters := []
  severity := .low
  dependencies := dependencies
  retentionDays := 1

/-- The subject drifts while the first assertion is evaluated; the second depends on it. -/
def drifting : List (Assertion × Moment) :=
  [(bare "a" [], ⟨fun _ _ _ => .ok [], some ["README.md"]⟩),
    (bare "b" ["a"], ⟨fun _ _ _ => .ok [], none⟩)]

theorem runThrough_accounts_drifting :
    ∃ out, runThrough [] defaultMaxEvaluators drifting = .ok out ∧
      out.ledger.map (fun r => (r.assertionId, r.version)) =
        [(("a" : Str), 1), ("b", 1)] ∧
      out.error ≠ none := by
  have ran : ∃ out, runThrough [] defaultMaxEvaluators drifting = .ok out ∧ out.error ≠ none :=
    ⟨_, rfl, by decide⟩
  obtain ⟨out, ran, raised⟩ := ran
  exact ⟨out, ran, (runThrough_accounts ran).1, raised⟩

end DevGate.Evaluate
