import DevGate.Coherence.OverlaySeverity
import DevGate.Lib.Fold

set_option autoImplicit false

/- Which overlays are accepted: what every entry must satisfy, given the ids that the list
has and the entries before it. -/
namespace DevGate.Policy

open Py Evaluators
open Fold (Ends ends_bind)

/-- A severity an entry may set: known, and not below the central floor. -/
def SeverityFits (central : Central) (aid : Str) (new : Value) : Prop :=
  ∃ floor n, central.floors.get aid = .ok floor ∧ rank? new = .ok (some n) ∧
    ((floor.getD .null).truthy = true → ∃ m, rank (floor.getD .null) = .ok m ∧ m ≤ n)

/-- An evaluator an entry may select. -/
def EvaluatorFits (central : Central) (ev : Value) : Prop :=
  ∃ eid, entryId ev = some eid ∧ eid ≠ [] ∧ (central.approved ≠ [] → Key.str eid ∈ central.approved)

/-- The target once an entry's value of a field is set, where it states one. -/
def setStated (changed : Value) (field : Str) (target : Value) : Value :=
  match changed.field? field with
  | some value => setField target field value
  | none => target

/-- Both overrides of an entry. -/
def overlaid (changed target : Value) : Value :=
  setStated changed "evaluator" (setStated changed "severity" target)

def enabled (changed : Value) : Bool := !isTruthy (changed.field? "disabled")

/-- What an entry for `aid` must satisfy whatever the list is. -/
def EntryFits (central : Central) (aid : Str) (changed : Value) : Prop :=
  if enabled changed then
    (∀ new, changed.field? "severity" = some new → SeverityFits central aid new) ∧
      ∀ ev, changed.field? "evaluator" = some ev → EvaluatorFits central ev
  else Key.str aid ∉ central.required

theorem setSeverity_iff {central : Central} {aid : Str} {target new next : Value} :
    setSeverity central aid target new = .ok next ↔
      SeverityFits central aid new ∧ next = setField target "severity" new := by
  unfold setSeverity SeverityFits
  constructor
  · intro set
    obtain ⟨floor, held, set⟩ := bind_ok.mp set
    obtain ⟨known, ranked, set⟩ := bind_ok.mp set
    cases known with
    | none => cases set
    | some n =>
        dsimp only at set
        split at set
        · obtain ⟨m, floorRank, set⟩ := bind_ok.mp set
          rw [ok_bind, guard_ok, decide_eq_true_eq] at set
          refine ⟨⟨floor, n, held, ranked, fun _ => ⟨m, floorRank, by omega⟩⟩, ?_⟩
          exact (Except.ok.inj set.2).symm
        · rename_i falsy
          rw [ok_bind, guard_ok] at set
          exact ⟨⟨floor, n, held, ranked, fun truthy => absurd truthy falsy⟩,
            (Except.ok.inj set.2).symm⟩
  · rintro ⟨⟨floor, n, held, ranked, above⟩, rfl⟩
    rw [held, ok_bind, ranked, ok_bind]
    dsimp only
    split
    · rename_i truthy
      obtain ⟨m, floorRank, high⟩ := above truthy
      rw [floorRank, ok_bind, ok_bind, guard_ok, decide_eq_true_eq]
      exact ⟨by omega, rfl⟩
    · rw [ok_bind, guard_ok]
      exact ⟨Bool.false_ne_true, rfl⟩

theorem setEvaluator_iff {central : Central} {aid : Str} {target ev next : Value} :
    setEvaluator central aid target ev = .ok next ↔
      EvaluatorFits central ev ∧ next = setField target "evaluator" ev := by
  unfold setEvaluator EvaluatorFits
  constructor
  · intro set
    split at set
    · rename_i c rest named
      rw [guard_ok, not_and, not_not] at set
      exact ⟨⟨c :: rest, named, List.cons_ne_nil _ _, set.1⟩, (Except.ok.inj set.2).symm⟩
    · cases set
  · rintro ⟨⟨eid, named, filled, listed⟩, rfl⟩
    obtain ⟨c, rest, rfl⟩ := List.exists_cons_of_ne_nil filled
    rw [named]
    dsimp only
    rw [guard_ok, not_and, not_not]
    exact ⟨listed, rfl⟩

theorem override_iff {changed target next : Value} {field : Str} {fits : Value → Prop}
    {change : Value → Value → Except Exc Value}
    (changes : ∀ target new next, change target new = .ok next ↔
      fits new ∧ next = setField target field new) :
    override changed field change target = .ok next ↔
      (∀ new, changed.field? field = some new → fits new) ∧ next = setStated changed field target := by
  unfold override setStated
  cases changed.field? field with
  | none => simp [eq_comm]
  | some new => simp [changes]

theorem applyChange_iff {central : Central} {byId next : Dict Key Value} {changed : Value} :
    applyChange central byId changed = .ok next ↔
      ∃ aid, entryId changed = some aid ∧ EntryFits central aid changed ∧
        if enabled changed then
          ∃ target, Dict.get? byId (.str aid) = some target ∧
            next = Dict.set byId (.str aid) (overlaid changed target)
        else next = Dict.erase byId (.str aid) := by
  unfold applyChange EntryFits enabled
  cases entryId changed with
  | none => simp
  | some aid =>
      cases off : isTruthy (changed.field? "disabled") with
      | true =>
          simp only [↓reduceIte, guard_ok, Except.ok.injEq, Bool.not_true, Bool.false_eq_true,
            Option.some.injEq, exists_eq_left']
          exact and_congr_right (fun _ => eq_comm)
      | false =>
          simp only [Bool.false_eq_true, ↓reduceIte, Bool.not_false, Option.some.injEq,
            exists_eq_left']
          cases Dict.get? byId (Key.str aid) with
          | none => simp
          | some target =>
              simp only [Option.some.injEq, exists_eq_left']
              have severities : ∀ target middle,
                  override changed "severity" (setSeverity central aid) target = .ok middle ↔
                    (∀ new, changed.field? "severity" = some new → SeverityFits central aid new) ∧
                      middle = setStated changed "severity" target :=
                fun _ _ => override_iff (fun _ _ _ => setSeverity_iff)
              have evaluators : ∀ target final,
                  override changed "evaluator" (setEvaluator central aid) target = .ok final ↔
                    (∀ ev, changed.field? "evaluator" = some ev → EvaluatorFits central ev) ∧
                      final = setStated changed "evaluator" target :=
                fun _ _ => override_iff (fun _ _ _ => setEvaluator_iff)
              constructor
              · intro ran
                obtain ⟨middle, first, ran⟩ := bind_ok.mp ran
                obtain ⟨final, second, ran⟩ := bind_ok.mp ran
                obtain ⟨severity, rfl⟩ := (severities target middle).mp first
                obtain ⟨evaluator, rfl⟩ := (evaluators _ final).mp second
                cases ran
                exact ⟨⟨severity, evaluator⟩, rfl⟩
              · rintro ⟨⟨severity, evaluator⟩, rfl⟩
                exact bind_ok.mpr ⟨_, (severities target _).mpr ⟨severity, rfl⟩,
                  bind_ok.mpr ⟨_, (evaluators _ _).mpr ⟨evaluator, rfl⟩, rfl⟩⟩

/-! Which lists of entries are accepted. -/

/-- An earlier entry disables the id. -/
def DisabledIn (front : List Value) (aid : Str) : Prop :=
  ∃ changed ∈ front, entryId changed = some aid ∧ enabled changed = false

/-- One change, after the entries of `front`, on a list that has the ids of `live`. -/
def ChangeAdmitted (central : Central) (live : Str → Prop) (front : List Value) (changed : Value) :
    Prop :=
  ∃ aid, entryId changed = some aid ∧ EntryFits central aid changed ∧
    (enabled changed = true → live aid ∧ ¬ DisabledIn front aid)

def ChangesAdmitted (central : Central) (live : Str → Prop) (changes : List Value) : Prop :=
  ∀ front changed back, changes = front ++ changed :: back → ChangeAdmitted central live front changed

/-- The ids a dictionary has. -/
def Has (byId : Dict Key Value) (aid : Str) : Prop := (Dict.get? byId (.str aid)).isSome = true

theorem has_step {central : Central} {byId next : Dict Key Value} {changed : Value}
    (ran : applyChange central byId changed = .ok next) (aid : Str) :
    Has next aid ↔ Has byId aid ∧ ¬ DisabledIn [changed] aid := by
  obtain ⟨named, known, -, effect⟩ := applyChange_iff.mp ran
  unfold Has DisabledIn
  simp only [List.mem_singleton, exists_eq_left, known, Option.some.injEq]
  by_cases on : enabled changed = true
  · rw [if_pos on] at effect
    obtain ⟨target, found, rfl⟩ := effect
    rw [Dict.get?_set]
    by_cases same : Key.str named = Key.str aid
    · rw [if_pos same, ← same, found]
      simp [on]
    · rw [if_neg same]
      simp [on]
  · rw [if_neg on] at effect
    subst effect
    rw [Dict.get?_erase]
    by_cases same : named = aid
    · simp [same, on]
    · simp [same]

theorem disabledIn_append {front : List Value} {changed : Value} {aid : Str} :
    DisabledIn (front ++ [changed]) aid ↔ DisabledIn front aid ∨ DisabledIn [changed] aid := by
  unfold DisabledIn
  simp only [List.mem_append, or_and_right, exists_or]

/-- The entries drop the ids they disable, and no other. -/
theorem has_fold {central : Central} {byId : Dict Key Value} (front : List Value)
    {next : Dict Key Value} (ran : front.foldlM (applyChange central) byId = .ok next) (aid : Str) :
    Has next aid ↔ Has byId aid ∧ ¬ DisabledIn front aid := by
  induction front using List.reverseRecOn generalizing next with
  | nil =>
      cases ran
      simp [DisabledIn]
  | append_singleton front changed ih =>
      rw [List.foldlM_append] at ran
      obtain ⟨middle, before, ran⟩ := bind_ok.mp ran
      rw [List.foldlM_cons] at ran
      obtain ⟨last, here, ran⟩ := bind_ok.mp ran
      cases ran
      rw [has_step here, ih before, disabledIn_append]
      tauto

theorem applyChange_ends {central : Central} {byId : Dict Key Value} {changed : Value} :
    Ends (applyChange central byId changed) ↔ ∃ aid, entryId changed = some aid ∧
      EntryFits central aid changed ∧ (enabled changed = true → Has byId aid) := by
  constructor
  · rintro ⟨next, ran⟩
    obtain ⟨aid, named, fits, effect⟩ := applyChange_iff.mp ran
    refine ⟨aid, named, fits, fun on => ?_⟩
    rw [if_pos on] at effect
    obtain ⟨target, found, -⟩ := effect
    unfold Has
    rw [found]
    rfl
  · rintro ⟨aid, named, fits, has⟩
    by_cases on : enabled changed = true
    · obtain ⟨target, found⟩ := Option.isSome_iff_exists.mp (has on)
      exact ⟨_, applyChange_iff.mpr ⟨aid, named, fits, by rw [if_pos on]; exact ⟨target, found, rfl⟩⟩⟩
    · exact ⟨_, applyChange_iff.mpr ⟨aid, named, fits, by rw [if_neg on]⟩⟩

/-- The changes go through exactly when each is admitted after the ones before it. -/
theorem changes_end {central : Central} {byId : Dict Key Value} {changes : List Value} :
    Ends (changes.foldlM (applyChange central) byId) ↔
      ChangesAdmitted central (Has byId) changes := by
  have step : ∀ front mid changed, front.foldlM (applyChange central) byId = .ok mid →
      (Ends (applyChange central mid changed) ↔ ChangeAdmitted central (Has byId) front changed) := by
    intro front mid changed reached
    rw [applyChange_ends]
    unfold ChangeAdmitted
    simp only [has_fold front reached]
  constructor
  · intro ends front changed back split
    rw [split, List.foldlM_append] at ends
    obtain ⟨mid, reached, rest⟩ := ends_bind.mp ends
    rw [List.foldlM_cons] at rest
    obtain ⟨next, here, -⟩ := ends_bind.mp rest
    exact (step front mid changed reached).mp ⟨next, here⟩
  · intro admitted
    refine Fold.foldlM_ends_iff.mpr ?_
    intro front changed back mid split reached
    exact (step front mid changed reached).mpr (admitted front changed back split)

/-- An earlier addition has the id. -/
def AddedIn (front : List Value) (aid : Str) : Prop := ∃ added ∈ front, entryId added = some aid

def AdditionsAdmitted (live : Str → Prop) (additions : List Value) : Prop :=
  ∀ front added back, additions = front ++ added :: back →
    ∃ aid, entryId added = some aid ∧ ¬ live aid ∧ ¬ AddedIn front aid

theorem applyAddition_iff {byId next : Dict Key Value} {added : Value} :
    applyAddition byId added = .ok next ↔
      ∃ aid, entryId added = some aid ∧ ¬ Has byId aid ∧ next = Dict.set byId (.str aid) added := by
  unfold applyAddition Has Dict.contains
  cases entryId added with
  | none => simp
  | some aid =>
      simp only [guard_ok, Except.ok.injEq, Option.some.injEq, exists_eq_left']
      exact and_congr_right (fun _ => eq_comm)

theorem addedIn_append {front : List Value} {added : Value} {named aid : Str}
    (known : entryId added = some named) :
    AddedIn (front ++ [added]) aid ↔ AddedIn front aid ∨ named = aid := by
  unfold AddedIn
  simp only [List.mem_append, List.mem_singleton, or_and_right, exists_or, exists_eq_left, known,
    Option.some.injEq]

theorem has_additions {byId : Dict Key Value} (front : List Value) {next : Dict Key Value}
    (ran : front.foldlM applyAddition byId = .ok next) (aid : Str) :
    Has next aid ↔ Has byId aid ∨ AddedIn front aid := by
  induction front using List.reverseRecOn generalizing next with
  | nil =>
      cases ran
      simp [AddedIn]
  | append_singleton front added ih =>
      rw [List.foldlM_append] at ran
      obtain ⟨middle, before, ran⟩ := bind_ok.mp ran
      rw [List.foldlM_cons] at ran
      obtain ⟨last, here, ran⟩ := bind_ok.mp ran
      cases ran
      obtain ⟨named, known, -, rfl⟩ := applyAddition_iff.mp here
      have held : Has (Dict.set middle (.str named) added) aid ↔ named = aid ∨ Has middle aid := by
        unfold Has
        rw [Dict.get?_set]
        by_cases same : named = aid
        · simp [same]
        · simp [same]
      rw [held, ih before, addedIn_append known]
      tauto

theorem additions_end {byId : Dict Key Value} {additions : List Value} :
    Ends (additions.foldlM applyAddition byId) ↔ AdditionsAdmitted (Has byId) additions := by
  have step : ∀ front mid added, front.foldlM applyAddition byId = .ok mid →
      (Ends (applyAddition mid added) ↔
        ∃ aid, entryId added = some aid ∧ ¬ Has byId aid ∧ ¬ AddedIn front aid) := by
    intro front mid added reached
    constructor
    · rintro ⟨next, ran⟩
      obtain ⟨aid, named, fresh, -⟩ := applyAddition_iff.mp ran
      rw [has_additions front reached, not_or] at fresh
      exact ⟨aid, named, fresh⟩
    · rintro ⟨aid, named, fresh⟩
      rw [← not_or, ← has_additions front reached] at fresh
      exact ⟨_, applyAddition_iff.mpr ⟨aid, named, fresh, rfl⟩⟩
  constructor
  · intro ends front added back split
    rw [split, List.foldlM_append] at ends
    obtain ⟨mid, reached, rest⟩ := ends_bind.mp ends
    rw [List.foldlM_cons] at rest
    obtain ⟨next, here, -⟩ := ends_bind.mp rest
    exact (step front mid added reached).mp ⟨next, here⟩
  · intro admitted
    refine Fold.foldlM_ends_iff.mpr ?_
    intro front added back mid split reached
    exact (step front mid added reached).mpr (admitted front added back split)

/-- An overlay that a list with these ids accepts. -/
structure Admitted (central : Central) (ids : List Key) (overlay : Dict Str Value) : Prop where
  arrays : ∀ key ∈ [("assertions" : Str), "add_assertions"], Ends (entries overlay key)
  changes : ChangesAdmitted central (fun aid => Key.str aid ∈ ids)
    (listed (.dict overlay) "assertions")
  additions : AdditionsAdmitted
    (fun aid => Key.str aid ∈ ids ∧ ¬ DisabledIn (listed (.dict overlay) "assertions") aid)
    (listed (.dict overlay) "add_assertions")
  ungranted : ∀ key ∈ [("capability_grants" : Str), "network"],
    isTruthy (Dict.get? overlay key) = false

theorem indexById_isSome {assertions : List Value} {ids : List Key}
    (read : assertions.mapM idKey = .ok ids) (key : Key) :
    (Dict.get? (indexById ids assertions) key).isSome = true ↔ key ∈ ids := by
  unfold indexById
  rw [Dict.get?_ofPairs, Dict.get?_isSome_iff, List.map_reverse, List.mem_reverse,
    List.map_fst_zip (Nat.le_of_eq (mem_zip_of_mapM read).1)]

theorem has_indexById {assertions : List Value} {ids : List Key}
    (read : assertions.mapM idKey = .ok ids) (aid : Str) :
    Has (indexById ids assertions) aid ↔ Key.str aid ∈ ids := indexById_isSome read (.str aid)

theorem entries_listed {overlay : Dict Str Value} {key : Str} (array : Ends (entries overlay key)) :
    entries overlay key = .ok (listed (.dict overlay) key) := by
  obtain ⟨vs, read⟩ := array
  rw [← entries_ok read, read]

theorem has_eq_ids {assertions : List Value} {ids : List Key}
    (read : assertions.mapM idKey = .ok ids) :
    Has (indexById ids assertions) = fun aid => Key.str aid ∈ ids :=
  funext (fun aid => propext (has_indexById read aid))

theorem has_eq_left {central : Central} {byId middle : Dict Key Value} {changes : List Value}
    (ran : changes.foldlM (applyChange central) byId = .ok middle) :
    Has middle = fun aid => Has byId aid ∧ ¬ DisabledIn changes aid :=
  funext (fun aid => propext (has_fold changes ran aid))

/-- The dictionaries that an accepted overlay goes through. -/
structure Runs (central : Central) (ids : List Key) (assertions : List Value)
    (overlay : Dict Str Value) (middle byId : Dict Key Value) : Prop where
  changed : (listed (.dict overlay) "assertions").foldlM (applyChange central)
    (indexById ids assertions) = .ok middle
  extended : (listed (.dict overlay) "add_assertions").foldlM applyAddition middle = .ok byId

theorem runs_of_admitted {central : Central} {assertions : List Value} {ids : List Key}
    {overlay : Dict Str Value} (read : assertions.mapM idKey = .ok ids)
    (admitted : Admitted central ids overlay) :
    ∃ middle byId, Runs central ids assertions overlay middle byId := by
  have changes := admitted.changes
  rw [← has_eq_ids read] at changes
  obtain ⟨middle, changed⟩ := changes_end.mpr changes
  have additions := admitted.additions
  simp only [← has_indexById read] at additions
  rw [← has_eq_left changed] at additions
  obtain ⟨byId, extended⟩ := additions_end.mpr additions
  exact ⟨middle, byId, changed, extended⟩

/-- An overlay is accepted exactly when it is admitted, and leaves what it runs to. -/
theorem applyOverlay_iff {assertions : List Value} {overlay : Dict Str Value}
    {bundle : Dict Str Value} {result : List Value} :
    applyOverlay assertions (.dict overlay) bundle = .ok result ↔
      ∃ central ids middle byId, readCentral bundle = .ok central ∧
        assertions.mapM idKey = .ok ids ∧ Admitted central ids overlay ∧
        Runs central ids assertions overlay middle byId ∧
        result = ids.filterMap (Dict.get? byId) ++ listed (.dict overlay) "add_assertions" := by
  constructor
  · intro ran
    unfold applyOverlay at ran
    obtain ⟨central, central_, ran⟩ := bind_ok.mp ran
    obtain ⟨ids, read, ran⟩ := bind_ok.mp ran
    obtain ⟨changes, readChanges, ran⟩ := bind_ok.mp ran
    obtain ⟨additions, readAdditions, ran⟩ := bind_ok.mp ran
    obtain ⟨middle, changed, ran⟩ := bind_ok.mp ran
    obtain ⟨byId, extended, ran⟩ := bind_ok.mp ran
    obtain ⟨ungranted, ran⟩ := guard_ok.mp ran
    cases ran
    have arrays : ∀ key ∈ [("assertions" : Str), "add_assertions"], Ends (entries overlay key) := by
      simp only [List.forall_mem_cons]
      exact ⟨⟨changes, readChanges⟩, ⟨additions, readAdditions⟩, by simp⟩
    rw [entries_ok readChanges] at changed
    rw [entries_ok readAdditions] at extended ⊢
    rw [not_or, Bool.not_eq_true, Bool.not_eq_true] at ungranted
    have admittedChanges := changes_end.mp ⟨middle, changed⟩
    rw [has_eq_ids read] at admittedChanges
    have admittedAdditions := additions_end.mp ⟨byId, extended⟩
    rw [has_eq_left changed] at admittedAdditions
    simp only [has_indexById read] at admittedAdditions
    refine ⟨central, ids, middle, byId, central_, read, ⟨arrays, admittedChanges,
      admittedAdditions, ?_⟩, ⟨changed, extended⟩, rfl⟩
    simp only [List.forall_mem_cons]
    exact ⟨ungranted.1, ungranted.2, by simp⟩
  · rintro ⟨central, ids, middle, byId, central_, read, admitted, runs, rfl⟩
    have arrays := admitted.arrays
    have ungranted := admitted.ungranted
    simp only [List.forall_mem_cons] at arrays ungranted
    unfold applyOverlay
    refine bind_ok.mpr ⟨central, central_, bind_ok.mpr ⟨ids, read, ?_⟩⟩
    refine bind_ok.mpr ⟨_, entries_listed arrays.1, bind_ok.mpr ⟨_, entries_listed arrays.2.1, ?_⟩⟩
    refine bind_ok.mpr ⟨middle, runs.changed, bind_ok.mpr ⟨byId, runs.extended, ?_⟩⟩
    rw [guard_ok, ungranted.1, ungranted.2.1]
    simp

end DevGate.Policy
