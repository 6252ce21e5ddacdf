import DevGate.Coherence.OverlayInPlace

set_option autoImplicit false

/- A refused overlay and the caller's objects: which entries have been written when the
refusal comes, and when that leaves every object as it was. -/
namespace DevGate.Policy

open Py Evaluators
open Fold (Ends ends_bind)

/-- What an entry in force states for a field of an id. -/
def write (field : Str) (key : Key) (changed : Value) : Option Value :=
  if enabled changed = true ∧ (entryId changed).map Key.str = some key then changed.field? field
  else none

/-- The last value that the entries state for a field of an id. -/
def lastWrite (changes : List Value) (field : Str) (key : Key) : Option Value :=
  changes.reverse.findSome? (write field key)

theorem lastWrite_append (front : List Value) (changed : Value) (field : Str) (key : Key) :
    lastWrite (front ++ [changed]) field key =
      (write field key changed).or (lastWrite front field key) := by
  unfold lastWrite
  rw [List.reverse_append, List.reverse_singleton, List.singleton_append, List.findSome?_cons]
  cases write field key changed <;> rfl

def setIf (field : Str) (value : Option Value) (target : Value) : Value :=
  (value.map (setField target field)).getD target

theorem setStated_eq (changed : Value) (field : Str) (target : Value) :
    setStated changed field target = setIf field (changed.field? field) target := by
  unfold setStated setIf
  cases changed.field? field <;> rfl

theorem setField_setField (target : Value) (field : Str) (first second : Value) :
    setField (setField target field first) field second = setField target field second := by
  cases target with
  | dict kvs => exact congrArg Value.dict (Dict.set_set kvs field first second)
  | _ => rfl

theorem setField_self {target : Value} {field : Str} {value : Value}
    (held : target.field? field = some value) : setField target field value = target := by
  cases target with
  | dict kvs => exact congrArg Value.dict (Dict.set_self held)
  | _ => rfl

theorem setField_comm {target : Value} {field other : Str} (apart : field ≠ other)
    (held : (target.field? field).isSome = true) (value value' : Value) :
    setField (setField target field value) other value' =
      setField (setField target other value') field value := by
  cases target with
  | dict kvs => exact congrArg Value.dict (Dict.set_comm apart held value value')
  | _ => rfl

theorem setIf_setIf (target : Value) (field : Str) (first second : Option Value) :
    setIf field second (setIf field first target) = setIf field (second.or first) target := by
  cases second with
  | none => rfl
  | some new =>
      cases first with
      | none => rfl
      | some old => exact setField_setField target field old new

theorem setIf_comm {target : Value} {field other : Str} (apart : field ≠ other)
    {value value' : Option Value}
    (held : value.isSome = true → (target.field? field).isSome = true) :
    setIf other value' (setIf field value target) = setIf field value (setIf other value' target) := by
  cases value with
  | none => rfl
  | some v =>
      cases value' with
      | none => rfl
      | some v' => exact setField_comm apart (held rfl) v v'

theorem setIf_self {target : Value} {field : Str} {value : Option Value}
    (held : ∀ v, value = some v → target.field? field = some v) : setIf field value target = target := by
  cases value with
  | none => rfl
  | some v => exact setField_self (held v rfl)

theorem field?_setIf {target : Value} {key : Key} (named : idKey target = .ok key)
    (field other : Str) (value : Option Value) :
    (setIf field value target).field? other =
      if field = other then value.or (target.field? other) else target.field? other := by
  cases value with
  | none => simp [setIf]
  | some v => simpa [setIf] using field?_setField named field other v

theorem idKey_setIf {target : Value} {key : Key} (named : idKey target = .ok key) {field : Str}
    (value : Option Value) (other : field ≠ "id") : idKey (setIf field value target) = .ok key := by
  cases value with
  | none => exact named
  | some v => exact idKey_setField named v other

/-- An object after its two fields were set to these, if to any. -/
structure Rewritten (original doc : Value) (newSeverity newEvaluator : Option Value) : Prop where
  named : ∀ key, idKey original = .ok key → idKey doc = .ok key
  severity : doc.field? "severity" = newSeverity.or (original.field? "severity")
  evaluator : doc.field? "evaluator" = newEvaluator.or (original.field? "evaluator")
  -- where each field set was there before, the object has its shape still
  inPlace : (newSeverity.isSome = true → (original.field? "severity").isSome = true) →
    (newEvaluator.isSome = true → (original.field? "evaluator").isSome = true) →
    doc = setIf "severity" newSeverity (setIf "evaluator" newEvaluator original)

theorem Rewritten.refl (original : Value) : Rewritten original original none none where
  named _ := id
  severity := rfl
  evaluator := rfl
  inPlace _ _ := rfl

theorem isSome_right {value old : Option Value} {P : Prop}
    (held : (value.or old).isSome = true → P) : old.isSome = true → P := by
  intro some
  apply held
  rw [Option.isSome_or, some, Bool.or_true]

theorem Rewritten.setSeverity {original doc : Value} {newSeverity newEvaluator : Option Value}
    (so : Rewritten original doc newSeverity newEvaluator) {key : Key} (named : idKey original = .ok key)
    (value : Option Value) :
    Rewritten original (setIf "severity" value doc) (value.or newSeverity) newEvaluator := by
  have docNamed := so.named key named
  refine ⟨fun other own => idKey_setIf (so.named other own) value (by decide), ?_, ?_, ?_⟩
  · rw [field?_setIf docNamed, if_pos rfl, so.severity, Option.or_assoc]
  · rw [field?_setIf docNamed, if_neg (by decide), so.evaluator]
  · intro first second
    rw [so.inPlace (isSome_right first) second, setIf_setIf]

theorem Rewritten.setEvaluator {original doc : Value} {newSeverity newEvaluator : Option Value}
    (so : Rewritten original doc newSeverity newEvaluator) {key : Key} (named : idKey original = .ok key)
    (value : Option Value) :
    Rewritten original (setIf "evaluator" value doc) newSeverity (value.or newEvaluator) := by
  have docNamed := so.named key named
  refine ⟨fun other own => idKey_setIf (so.named other own) value (by decide), ?_, ?_, ?_⟩
  · rw [field?_setIf docNamed, if_neg (by decide), so.severity]
  · rw [field?_setIf docNamed, if_pos rfl, so.evaluator, Option.or_assoc]
  · intro first second
    have held : newSeverity.isSome = true →
        ((setIf "evaluator" newEvaluator original).field? "severity").isSome = true := by
      intro some
      rw [field?_setIf named, if_neg (by decide)]
      exact first some
    rw [so.inPlace first (isSome_right second), setIf_comm (by decide) held, setIf_setIf]

/-- The object is as it was exactly when its fields were set to what they were. -/
theorem Rewritten.same_iff {original doc : Value} {newSeverity newEvaluator : Option Value}
    (so : Rewritten original doc newSeverity newEvaluator) :
    doc = original ↔ (∀ new, newSeverity = some new → original.field? "severity" = some new) ∧
      ∀ new, newEvaluator = some new → original.field? "evaluator" = some new := by
  constructor
  · intro same
    have first := so.severity
    have second := so.evaluator
    rw [same] at first second
    constructor
    · rintro new rfl
      exact first
    · rintro new rfl
      exact second
  · rintro ⟨first, second⟩
    have held : ∀ {field : Str} {value : Option Value},
        (∀ new, value = some new → original.field? field = some new) →
          value.isSome = true → (original.field? field).isSome = true := by
      intro field value restated some
      obtain ⟨new, rfl⟩ := Option.isSome_iff_exists.mp some
      rw [restated new rfl]
      rfl
    rw [so.inPlace (held first) (held second), setIf_self second, setIf_self first]

/-! The objects after some entries. -/

/-- The objects of the index once these entries have written their severities and those
their evaluators; no other object is touched. -/
structure Follows (start : Heap) (index : Dict Key Nat) (severities evaluators : List Value)
    (heap : Heap) : Prop where
  written : ∀ key r, Dict.get? index key = some r →
    Rewritten (start r) (heap r) (lastWrite severities "severity" key)
      (lastWrite evaluators "evaluator" key)
  others : ∀ r, (∀ key, Dict.get? index key ≠ some r) → heap r = start r

theorem Follows.refl (start : Heap) (index : Dict Key Nat) : Follows start index [] [] start where
  written _ _ _ := Rewritten.refl _
  others _ _ := rfl

theorem write_other {changed : Value} {aid : Str} (named : entryId changed = some aid) {key : Key}
    (other : key ≠ .str aid) (field : Str) : write field key changed = none := by
  unfold write
  rw [named, Option.map_some, if_neg]
  rintro ⟨-, same⟩
  exact other (Option.some.inj same).symm

theorem write_own {changed : Value} {aid : Str} (named : entryId changed = some aid)
    (on : enabled changed = true) (field : Str) :
    write field (.str aid) changed = changed.field? field := by
  unfold write
  rw [named, Option.map_some, if_pos ⟨on, rfl⟩]

theorem write_disabled {changed : Value} (off : ¬ enabled changed = true) (field : Str) (key : Key) :
    write field key changed = none := by
  unfold write
  rw [if_neg]
  exact fun both => off both.1

theorem lastWrite_idle {front : List Value} {changed : Value} {field : Str} {key : Key}
    (idle : write field key changed = none) :
    lastWrite (front ++ [changed]) field key = lastWrite front field key := by
  rw [lastWrite_append, idle, Option.none_or]

/-- A disabling entry writes nothing. -/
theorem Follows.disabled {start heap : Heap} {index : Dict Key Nat} {front : List Value}
    (so : Follows start index front front heap) {changed : Value} (off : ¬ enabled changed = true) :
    Follows start index (front ++ [changed]) (front ++ [changed]) heap where
  written key r found := by
    rw [lastWrite_idle (write_disabled off _ key), lastWrite_idle (write_disabled off _ key)]
    exact so.written key r found
  others := so.others

section

variable {start heap : Heap} {index : Dict Key Nat} {front : List Value} {changed : Value}
  {aid : Str} {r : Nat}

/-- An entry writes to the object of its id, and to no other. -/
theorem Follows.update {severities evaluators severities' evaluators' : List Value} {doc : Value}
    (so : Follows start index severities evaluators heap) (apart : Apart index)
    (found : Dict.get? index (.str aid) = some r)
    (here : Rewritten (start r) doc (lastWrite severities' "severity" (.str aid))
      (lastWrite evaluators' "evaluator" (.str aid)))
    (away : ∀ key, key ≠ .str aid →
      lastWrite severities' "severity" key = lastWrite severities "severity" key ∧
        lastWrite evaluators' "evaluator" key = lastWrite evaluators "evaluator" key) :
    Follows start index severities' evaluators' (Function.update heap r doc) where
  written key r' found' := by
    by_cases same : key = .str aid
    · subst same
      rw [found] at found'
      cases found'
      rw [Function.update_self]
      exact here
    · have elsewhere : r' ≠ r := by
        rintro rfl
        exact same (apart.refs key _ r' (Dict.mem_of_get? found') (Dict.mem_of_get? found))
      rw [Function.update_of_ne elsewhere, (away key same).1, (away key same).2]
      exact so.written key r' found'
  others r' outside := by
    rw [Function.update_of_ne]
    · exact so.others r' outside
    · rintro rfl
      exact outside _ found

variable (so : Follows start index front front heap) (apart : Apart index)
  (found : Dict.get? index (.str aid) = some r) (own : ∃ key, idKey (start r) = .ok key)
  (named : entryId changed = some aid) (on : enabled changed = true)
include so apart found own named on

/-- The severity of an entry, written. -/
theorem Follows.severity :
    Follows start index (front ++ [changed]) front
      (Function.update heap r (setStated changed "severity" (heap r))) := by
  obtain ⟨key, own⟩ := own
  refine so.update apart found ?_ ?_
  · rw [lastWrite_append, write_own named on, setStated_eq]
    exact (so.written _ r found).setSeverity own _
  · intro other away
    exact ⟨lastWrite_idle (write_other named away _), rfl⟩

/-- Both fields of an entry, written. -/
theorem Follows.entry :
    Follows start index (front ++ [changed]) (front ++ [changed])
      (Function.update heap r (overlaid changed (heap r))) := by
  obtain ⟨key, own⟩ := own
  refine so.update apart found ?_ ?_
  · unfold overlaid
    rw [lastWrite_append, lastWrite_append, write_own named on, write_own named on, setStated_eq,
      setStated_eq]
    exact ((so.written _ r found).setSeverity own _).setEvaluator own _
  · intro other away
    exact ⟨lastWrite_idle (write_other named away _), lastWrite_idle (write_other named away _)⟩

end

/-- What the entries last state is what the object of the id has. -/
def Restates (index : Dict Key Value) (changes : List Value) (field : Str) : Prop :=
  ∀ key target new, Dict.get? index key = some target → lastWrite changes field key = some new →
    target.field? field = some new

theorem Follows.clean_iff {start heap : Heap} {index : Dict Key Nat} {severities evaluators : List Value}
    (so : Follows start index severities evaluators heap) {refs : List Nat}
    (inside : ∀ key r, Dict.get? index key = some r → r ∈ refs) :
    (∀ r ∈ refs, heap r = start r) ↔
      Restates (view start index) severities "severity" ∧
        Restates (view start index) evaluators "evaluator" := by
  unfold Restates
  simp only [get?_view, Option.map_eq_some_iff]
  constructor
  · intro clean
    constructor
    · rintro key target new ⟨r, found, rfl⟩ last
      exact ((so.written key r found).same_iff.mp (clean r (inside key r found))).1 new last
    · rintro key target new ⟨r, found, rfl⟩ last
      exact ((so.written key r found).same_iff.mp (clean r (inside key r found))).2 new last
  · rintro ⟨first, second⟩ r -
    by_cases indexed : ∃ key, Dict.get? index key = some r
    · obtain ⟨key, found⟩ := indexed
      refine (so.written key r found).same_iff.mpr ⟨?_, ?_⟩
      · exact fun new last => first key (start r) new ⟨r, found, rfl⟩ last
      · exact fun new last => second key (start r) new ⟨r, found, rfl⟩ last
    · exact so.others r (fun key found => indexed ⟨key, found⟩)

/-! What an entry is refused for. -/

/-- A severity that an entry may not set: unknown, or below a floor that has a rank. -/
def SeverityRefused (central : Central) (aid : Str) (new : Value) : Prop :=
  ∃ floor, central.floors.get aid = .ok floor ∧
    (rank? new = .ok none ∨ ∃ n m, rank? new = .ok (some n) ∧ (floor.getD .null).truthy = true ∧
      rank (floor.getD .null) = .ok m ∧ n < m)

/-- An OverlayError was raised. -/
def Refuses {α : Type} (x : Except Exc α) : Prop := ∃ e, x = .error e ∧ e.isA [overlayError] = true

theorem refuses_ok {α : Type} (a : α) : ¬ Refuses (.ok a : Except Exc α) := by
  rintro ⟨e, same, -⟩
  cases same

theorem refuses_error {α : Type} {e : Exc} :
    Refuses (.error e : Except Exc α) ↔ e.isA [overlayError] = true := by
  constructor
  · rintro ⟨e', same, kind⟩
    cases same
    exact kind
  · exact fun kind => ⟨e, rfl, kind⟩

theorem refuses_bind {α β : Type} {x : Except Exc α} {f : α → Except Exc β}
    (quiet : ¬ Refuses x) : Refuses (x >>= f) ↔ ∃ a, x = .ok a ∧ Refuses (f a) := by
  cases x with
  | error e =>
      constructor
      · intro refused
        exact absurd (refuses_error.mpr (refuses_error.mp refused)) quiet
      · rintro ⟨a, same, -⟩
        cases same
  | ok a =>
      constructor
      · exact fun later => ⟨a, rfl, later⟩
      · rintro ⟨a', same, later⟩
        cases same
        exact later

theorem get_quiet (v : Value) (key : Str) : ¬ Refuses (v.get key) := by
  rintro ⟨e, raised, kind⟩
  cases v <;> cases raised <;> cases kind

theorem rank?_quiet (v : Value) : ¬ Refuses (rank? v) := by
  rintro ⟨e, raised, kind⟩
  cases v <;> cases raised <;> cases kind

theorem rank_quiet (v : Value) : ¬ Refuses (rank v) := by
  unfold rank
  rw [refuses_bind (rank?_quiet v)]
  rintro ⟨known, -, e, raised, kind⟩
  cases known with
  | none =>
      cases raised
      cases kind
  | some n => cases raised

theorem setSeverity_refuses {central : Central} {aid : Str} {target new : Value} :
    Refuses (setSeverity central aid target new) ↔ SeverityRefused central aid new := by
  unfold setSeverity SeverityRefused
  rw [refuses_bind (get_quiet _ _)]
  refine exists_congr (fun floor => and_congr_right (fun _ => ?_))
  rw [refuses_bind (rank?_quiet new)]
  constructor
  · rintro ⟨known, ranked, refused⟩
    cases known with
    | none => exact .inl ranked
    | some n =>
        dsimp only at refused
        split at refused
        · rename_i truthy
          rw [refuses_bind (rank_quiet _)] at refused
          obtain ⟨m, floorRank, refused⟩ := refused
          rw [ok_bind] at refused
          split at refused
          · rename_i low
            exact .inr ⟨n, m, ranked, truthy, floorRank, of_decide_eq_true low⟩
          · exact absurd refused (refuses_ok _)
        · rw [ok_bind] at refused
          exact absurd refused (refuses_ok _)
  · rintro (ranked | ⟨n, m, ranked, truthy, floorRank, low⟩)
    · exact ⟨none, ranked, refuses_error.mpr rfl⟩
    · refine ⟨some n, ranked, ?_⟩
      dsimp only
      rw [if_pos truthy, floorRank, ok_bind, ok_bind, if_pos (decide_eq_true low)]
      exact refuses_error.mpr rfl

theorem setEvaluator_refuses {central : Central} {aid : Str} {target ev : Value} :
    Refuses (setEvaluator central aid target ev) ↔ ¬ EvaluatorFits central ev := by
  have all : ∀ e, setEvaluator central aid target ev = .error e → e.isA [overlayError] = true := by
    intro e raised
    unfold setEvaluator at raised
    split at raised
    · dsimp only at raised
      split at raised
      · cases raised
        rfl
      · cases raised
    · cases raised
      rfl
  constructor
  · rintro ⟨e, raised, -⟩ fits
    rw [setEvaluator_iff.mpr ⟨fits, rfl⟩] at raised
    cases raised
  · intro unfit
    cases ran : setEvaluator central aid target ev with
    | ok next => exact absurd (setEvaluator_iff.mp ran).1 unfit
    | error e => exact refuses_error.mpr (all e ran)

theorem override_refuses {changed target : Value} {field : Str} {refused : Value → Prop}
    {change : Value → Value → Except Exc Value}
    (refuses : ∀ target new, Refuses (change target new) ↔ refused new) :
    Refuses (override changed field change target) ↔
      ∃ new, changed.field? field = some new ∧ refused new := by
  unfold override
  cases changed.field? field with
  | none =>
      simp only [reduceCtorEq, false_and, exists_false, iff_false]
      exact refuses_ok _
  | some new => simp [refuses]

/-- An entry refused before it writes, on a list that has the ids of `live`. -/
def Halts (central : Central) (live : Str → Prop) (changed : Value) : Prop :=
  ∀ aid, entryId changed = some aid →
    if enabled changed then
      ¬ live aid ∨ ∃ new, changed.field? "severity" = some new ∧ SeverityRefused central aid new
    else Key.str aid ∈ central.required

/-- An entry refused for its evaluator, when its severity has been written. -/
def HaltsMidway (central : Central) (live : Str → Prop) (changed : Value) : Prop :=
  ∃ aid, entryId changed = some aid ∧ enabled changed = true ∧ live aid ∧
    (∀ new, changed.field? "severity" = some new → SeverityFits central aid new) ∧
      ∃ ev, changed.field? "evaluator" = some ev ∧ ¬ EvaluatorFits central ev

/-- The ids of the index, at references. -/
def Live (byId : Dict Key Nat) (aid : Str) : Prop := (Dict.get? byId (.str aid)).isSome = true

section

variable {central : Central} {heap heap' : Heap} {byId byId' : Dict Key Nat} {changed : Value}
  {aid : Str} {r : Nat}

theorem changeAt_disabled (named : entryId changed = some aid) (off : ¬ enabled changed = true) :
    changeAt central heap byId changed =
      (heap, if Key.str aid ∈ central.required then
        .error ⟨overlayError, ["overlay disables centrally required assertion ", .repr (.str aid)]⟩
      else .ok (Dict.erase byId (.str aid))) := by
  unfold enabled at off
  rw [Bool.not_eq_true', Bool.not_eq_false] at off
  unfold changeAt
  rw [named]
  dsimp only
  rw [if_pos off]
  split <;> rfl

theorem changeAt_unknown (named : entryId changed = some aid) (on : enabled changed = true)
    (unknown : Dict.get? byId (.str aid) = none) :
    changeAt central heap byId changed =
      (heap, .error ⟨overlayError, ["overlay references unknown assertion ", .repr (.str aid)]⟩) := by
  unfold enabled at on
  rw [Bool.not_eq_true'] at on
  unfold changeAt
  rw [named]
  dsimp only
  rw [if_neg (Bool.eq_false_iff.mp on), unknown]

section

variable (named : entryId changed = some aid) (on : enabled changed = true)
  (found : Dict.get? byId (.str aid) = some r)
include named on found

theorem changeAt_severity {e : Exc}
    (raised : override changed "severity" (setSeverity central aid) (heap r) = .error e) :
    changeAt central heap byId changed = (heap, .error e) := by
  unfold enabled at on
  rw [Bool.not_eq_true'] at on
  unfold changeAt
  rw [named]
  dsimp only
  rw [if_neg (Bool.eq_false_iff.mp on), found]
  dsimp only
  rw [overrideAt_error raised]

theorem changeAt_evaluator {middle : Value} {e : Exc}
    (first : override changed "severity" (setSeverity central aid) (heap r) = .ok middle)
    (raised : override changed "evaluator" (setEvaluator central aid) middle = .error e) :
    changeAt central heap byId changed = (Function.update heap r middle, .error e) := by
  unfold enabled at on
  rw [Bool.not_eq_true'] at on
  have written : Function.update heap r middle r = middle := Function.update_self ..
  rw [← written] at raised
  unfold changeAt
  rw [named]
  dsimp only
  rw [if_neg (Bool.eq_false_iff.mp on), found]
  dsimp only
  rw [overrideAt_ok first]
  dsimp only
  rw [overrideAt_error raised]

theorem changeAt_both {middle final : Value}
    (first : override changed "severity" (setSeverity central aid) (heap r) = .ok middle)
    (second : override changed "evaluator" (setEvaluator central aid) middle = .ok final) :
    changeAt central heap byId changed = (Function.update heap r final, .ok byId) := by
  unfold enabled at on
  rw [Bool.not_eq_true'] at on
  have written : Function.update heap r middle r = middle := Function.update_self ..
  rw [← written] at second
  unfold changeAt
  rw [named]
  dsimp only
  rw [if_neg (Bool.eq_false_iff.mp on), found]
  dsimp only
  rw [overrideAt_ok first]
  dsimp only
  rw [overrideAt_ok second, Function.update_idem]

end

theorem changeAt_ok (ran : changeAt central heap byId changed = (heap', .ok byId')) :
    ∃ aid, entryId changed = some aid ∧
      if enabled changed then
        byId' = byId ∧ ∃ r, Dict.get? byId (.str aid) = some r ∧
          heap' = Function.update heap r (overlaid changed (heap r))
      else byId' = Dict.erase byId (.str aid) ∧ heap' = heap := by
  cases named : entryId changed with
  | none =>
      unfold changeAt at ran
      rw [named] at ran
      cases ran
  | some aid =>
      refine ⟨aid, rfl, ?_⟩
      by_cases on : enabled changed = true
      · rw [if_pos on]
        cases found : Dict.get? byId (.str aid) with
        | none =>
            rw [changeAt_unknown named on found] at ran
            cases ran
        | some r =>
            cases first : override changed "severity" (setSeverity central aid) (heap r) with
            | error e =>
                rw [changeAt_severity named on found first] at ran
                cases ran
            | ok middle =>
                cases second : override changed "evaluator" (setEvaluator central aid) middle with
                | error e =>
                    rw [changeAt_evaluator named on found first second] at ran
                    cases ran
                | ok final =>
                    rw [changeAt_both named on found first second] at ran
                    cases ran
                    refine ⟨rfl, r, rfl, ?_⟩
                    have severity := ((override_iff (fun _ _ _ => setSeverity_iff)).mp first).2
                    have evaluator := ((override_iff (fun _ _ _ => setEvaluator_iff)).mp second).2
                    unfold overlaid
                    rw [← severity, ← evaluator]
      · rw [if_neg on]
        rw [changeAt_disabled named on] at ran
        split at ran
        · cases ran
        · cases ran
          exact ⟨rfl, rfl⟩

theorem halts_iff (live : Str → Prop) (named : entryId changed = some aid) :
    Halts central live changed ↔
      if enabled changed then
        ¬ live aid ∨ ∃ new, changed.field? "severity" = some new ∧ SeverityRefused central aid new
      else Key.str aid ∈ central.required := by
  unfold Halts
  simp only [named, Option.some.injEq, forall_eq']

theorem not_haltsMidway_disabled (live : Str → Prop) (off : ¬ enabled changed = true) :
    ¬ HaltsMidway central live changed := by
  rintro ⟨-, -, on, -⟩
  exact off on

/-- A refusal that left `heap'`, of a step that raised `e` and left `heap`. -/
theorem raised_iff {step : Heap × Except Exc (Dict Key Nat)} {e : Exc}
    (ran : step = (heap, .error e)) :
    (∃ e', step = (heap', .error e') ∧ e'.isA [overlayError] = true) ↔
      e.isA [overlayError] = true ∧ heap' = heap := by
  rw [ran]
  constructor
  · rintro ⟨e', same, kind⟩
    cases same
    exact ⟨kind, rfl⟩
  · rintro ⟨kind, rfl⟩
    exact ⟨e, rfl, kind⟩

theorem not_raised {step : Heap × Except Exc (Dict Key Nat)} (ran : step = (heap, .ok byId)) :
    ¬ ∃ e, step = (heap', .error e) ∧ e.isA [overlayError] = true := by
  rw [ran]
  rintro ⟨e, same, -⟩
  cases same

section

variable (named : entryId changed = some aid) (on : enabled changed = true)
  (found : Dict.get? byId (.str aid) = some r)
include named on found

theorem halts_enabled : Halts central (Live byId) changed ↔
    Refuses (override changed "severity" (setSeverity central aid) (heap r)) := by
  have live : Live byId aid := by
    unfold Live
    rw [found]
    rfl
  have severities : Refuses (override changed "severity" (setSeverity central aid) (heap r)) ↔
      ∃ new, changed.field? "severity" = some new ∧ SeverityRefused central aid new :=
    override_refuses (fun _ _ => setSeverity_refuses)
  rw [halts_iff _ named, if_pos on, severities]
  exact ⟨fun refused => refused.resolve_left (not_not.mpr live), .inr⟩

theorem haltsMidway_enabled : HaltsMidway central (Live byId) changed ↔
    ∃ middle, override changed "severity" (setSeverity central aid) (heap r) = .ok middle ∧
      Refuses (override changed "evaluator" (setEvaluator central aid) middle) := by
  have severities : ∀ middle,
      override changed "severity" (setSeverity central aid) (heap r) = .ok middle ↔
        (∀ new, changed.field? "severity" = some new → SeverityFits central aid new) ∧
          middle = setStated changed "severity" (heap r) :=
    fun _ => override_iff (fun _ _ _ => setSeverity_iff)
  have evaluators : ∀ middle,
      Refuses (override changed "evaluator" (setEvaluator central aid) middle) ↔
        ∃ ev, changed.field? "evaluator" = some ev ∧ ¬ EvaluatorFits central ev :=
    fun _ => override_refuses (fun _ _ => setEvaluator_refuses)
  constructor
  · rintro ⟨aid', named', -, -, fits, unfit⟩
    rw [named] at named'
    cases named'
    exact ⟨_, (severities _).mpr ⟨fits, rfl⟩, (evaluators _).mpr unfit⟩
  · rintro ⟨middle, first, second⟩
    refine ⟨aid, named, on, ?_, ((severities middle).mp first).1, (evaluators middle).mp second⟩
    unfold Live
    rw [found]
    rfl

end

/-- What the severity override left is what stands when the evaluator is refused. -/
theorem written_iff {middle : Value} (named : entryId changed = some aid)
    (found : Dict.get? byId (.str aid) = some r)
    (first : override changed "severity" (setSeverity central aid) (heap r) = .ok middle) :
    (∃ aid r, entryId changed = some aid ∧ Dict.get? byId (.str aid) = some r ∧
      heap' = Function.update heap r (setStated changed "severity" (heap r))) ↔
        heap' = Function.update heap r middle := by
  have severity := ((override_iff (fun _ _ _ => setSeverity_iff)).mp first).2
  constructor
  · rintro ⟨aid', r', named', found', rfl⟩
    rw [named] at named'
    cases named'
    rw [found] at found'
    cases found'
    rw [severity]
  · rintro rfl
    exact ⟨aid, r, named, found, by rw [severity]⟩

/-- An entry that is refused has written nothing, or its severity. -/
theorem changeAt_refuses : (∃ e, changeAt central heap byId changed = (heap', .error e) ∧
      e.isA [overlayError] = true) ↔
    (Halts central (Live byId) changed ∧ heap' = heap) ∨
      (HaltsMidway central (Live byId) changed ∧ ∃ aid r, entryId changed = some aid ∧
        Dict.get? byId (.str aid) = some r ∧
          heap' = Function.update heap r (setStated changed "severity" (heap r))) := by
  cases named : entryId changed with
  | none =>
      have ran : changeAt central heap byId changed =
          (heap, .error ⟨overlayError,
            ["overlay assertion entry must be an object with a string id"]⟩) := by
        unfold changeAt
        rw [named]
      have halts : Halts central (Live byId) changed := by
        intro aid own
        rw [named] at own
        cases own
      rw [raised_iff ran]
      constructor
      · exact fun refused => .inl ⟨halts, refused.2⟩
      · rintro (⟨-, same⟩ | ⟨-, aid, r, own, -⟩)
        · exact ⟨rfl, same⟩
        · cases own
  | some aid =>
      rw [← named]
      by_cases on : enabled changed = true
      · cases found : Dict.get? byId (.str aid) with
        | none =>
            have dead : ¬ Live byId aid := by
              unfold Live
              rw [found]
              exact Bool.false_ne_true
            rw [raised_iff (changeAt_unknown named on found), halts_iff _ named, if_pos on]
            constructor
            · exact fun refused => .inl ⟨.inl dead, refused.2⟩
            · rintro (⟨-, same⟩ | ⟨-, aid', r, named', found', -⟩)
              · exact ⟨rfl, same⟩
              · rw [named] at named'
                cases named'
                rw [found] at found'
                cases found'
        | some r =>
            have halts : Halts central (Live byId) changed ↔
                Refuses (override changed "severity" (setSeverity central aid) (heap r)) :=
              halts_enabled named on found
            have midway : HaltsMidway central (Live byId) changed ↔
                ∃ middle, override changed "severity" (setSeverity central aid) (heap r) = .ok middle ∧
                  Refuses (override changed "evaluator" (setEvaluator central aid) middle) :=
              haltsMidway_enabled named on found
            rw [halts, midway]
            cases first : override changed "severity" (setSeverity central aid) (heap r) with
            | error e =>
                rw [raised_iff (changeAt_severity named on found first), refuses_error]
                simp
            | ok middle =>
                rw [written_iff named found first]
                cases second : override changed "evaluator" (setEvaluator central aid) middle with
                | error e =>
                    rw [raised_iff (changeAt_evaluator named on found first second)]
                    simp [refuses_ok, second, refuses_error]
                | ok final =>
                    simp [not_raised (changeAt_both named on found first second), refuses_ok, second]
      · rw [halts_iff _ named, if_neg on]
        have never : ¬ HaltsMidway central (Live byId) changed := not_haltsMidway_disabled _ on
        have ran : changeAt central heap byId changed =
            (heap, if Key.str aid ∈ central.required then
              .error ⟨overlayError, ["overlay disables centrally required assertion ", .repr (.str aid)]⟩
            else .ok (Dict.erase byId (.str aid))) := changeAt_disabled named on
        by_cases needed : Key.str aid ∈ central.required
        · rw [if_pos needed] at ran
          rw [raised_iff ran]
          constructor
          · exact fun refused => .inl ⟨needed, refused.2⟩
          · rintro (⟨-, same⟩ | ⟨midway, -⟩)
            · exact ⟨rfl, same⟩
            · exact absurd midway never
        · rw [if_neg needed] at ran
          constructor
          · exact fun raised => absurd raised (not_raised ran)
          · rintro (⟨required, -⟩ | ⟨midway, -⟩)
            · exact absurd required needed
            · exact absurd midway never

end

end DevGate.Policy
