import DevGate.Coherence.OverlayMinimums

set_option autoImplicit false

/- When an applied overlay keeps every severity: the guard compares with the central
floor, not with the severity an assertion has. -/
namespace DevGate.Policy

open Py Evaluators

/-- A known severity of rank `n` or more. -/
def AtLeast (n : Nat) (severity : Option Value) : Prop :=
  ∃ v m, severity = some v ∧ rank v = .ok m ∧ n ≤ m

/-- Every input assertion of a known severity still has that severity, or a higher
one, wherever its id is returned. -/
def KeepsSeverities (assertions result : List Value) : Prop :=
  ∀ a ∈ assertions, ∀ key v n, idKey a = .ok key → a.field? "severity" = some v → rank v = .ok n →
    ∀ out ∈ result, idKey out = .ok key → AtLeast n (out.field? "severity")

/-- An entry disables the id `key`. -/
def Disables (changes : List Value) (key : Key) : Prop :=
  ∃ changed ∈ changes, ∃ aid, entryId changed = some aid ∧ key = .str aid ∧
    isTruthy (changed.field? "disabled") = true

/-- The severity an entry states for the id `key`. -/
def statedSeverity (key : Key) (changed : Value) : Option Value :=
  match entryId changed with
  | none => none
  | some aid => if key = .str aid then changed.field? "severity" else none

/-- The last one the entries state. -/
def lastStated (changes : List Value) (key : Key) : Option Value :=
  (changes.filterMap (statedSeverity key)).getLast?

/-- `b` is the last input assertion of its id. -/
def LastWith (assertions : List Value) (key : Key) (b : Value) : Prop :=
  ∃ front back, assertions = front ++ b :: back ∧ idKey b = .ok key ∧
    ∀ c ∈ back, idKey c ≠ .ok key

/-- What the overlay itself says lowers nothing: an addition of the assertion's id
ranks as high as the assertion, and, unless an entry disables the id, so does the
last severity stated for it, or where none is, that of the last input of that id. -/
def Raises (assertions : List Value) (overlay : Value) : Prop :=
  ∀ a ∈ assertions, ∀ key v n, idKey a = .ok key → a.field? "severity" = some v → rank v = .ok n →
    (∀ added ∈ listed overlay "add_assertions", idKey added = .ok key →
      AtLeast n (added.field? "severity")) ∧
    (¬Disables (listed overlay "assertions") key → ∀ b, LastWith assertions key b →
      AtLeast n ((lastStated (listed overlay "assertions") key).or (b.field? "severity")))

theorem setSeverity_eq {central : Central} {aid : Str} {target new next : Value}
    (set : setSeverity central aid target new = .ok next) :
    next = setField target "severity" new := by
  unfold setSeverity at set
  obtain ⟨floor, -, set⟩ := bind_ok.mp set
  obtain ⟨known, -, set⟩ := bind_ok.mp set
  cases known with
  | none => cases set
  | some n =>
      dsimp only at set
      split at set
      · obtain ⟨m, -, set⟩ := bind_ok.mp set
        rw [ok_bind, guard_ok] at set
        exact (Except.ok.inj set.2).symm
      · rw [ok_bind, guard_ok] at set
        exact (Except.ok.inj set.2).symm

theorem setEvaluator_eq {central : Central} {aid : Str} {target ev next : Value}
    (set : setEvaluator central aid target ev = .ok next) :
    next = setField target "evaluator" ev := by
  unfold setEvaluator at set
  split at set
  · exact (Except.ok.inj (guard_ok.mp set).2).symm
  · cases set

/-- What the overrides of an entry leave of the severity. -/
theorem override_severity {central : Central} {aid : Str} {changed target middle final : Value}
    {key : Key} (named : idKey target = .ok key)
    (severity : override changed "severity" (setSeverity central aid) target = .ok middle)
    (evaluator : override changed "evaluator" (setEvaluator central aid) middle = .ok final) :
    idKey final = .ok key ∧
      final.field? "severity" = (changed.field? "severity").or (target.field? "severity") := by
  have first : idKey middle = .ok key ∧
      middle.field? "severity" = (changed.field? "severity").or (target.field? "severity") := by
    rcases override_ok severity with ⟨unstated, rfl⟩ | ⟨value, stated, set⟩
    · rw [unstated]
      exact ⟨named, rfl⟩
    · rw [setSeverity_eq set, stated]
      exact ⟨idKey_setField named value (by decide),
        by rw [field?_setField named, if_pos rfl, Option.some_or]⟩
  rcases override_ok evaluator with ⟨-, rfl⟩ | ⟨value, -, set⟩
  · exact first
  · rw [setEvaluator_eq set]
    refine ⟨idKey_setField first.1 value (by decide), ?_⟩
    rw [field?_setField first.1, if_neg (by decide)]
    exact first.2

/-- An entry drops its id, or sets the severity of the assertion it names. -/
theorem applyChange_severity {central : Central} {byId next : Dict Key Value} {changed : Value}
    (ran : applyChange central byId changed = .ok next) :
    ∃ aid, entryId changed = some aid ∧
      ((isTruthy (changed.field? "disabled") = true ∧ next = Dict.erase byId (.str aid)) ∨
        isTruthy (changed.field? "disabled") = false ∧ ∃ target final,
          Dict.get? byId (.str aid) = some target ∧ next = Dict.set byId (.str aid) final ∧
          (idKey target = .ok (.str aid) → idKey final = .ok (.str aid) ∧
            final.field? "severity" = (changed.field? "severity").or (target.field? "severity"))) := by
  unfold applyChange at ran
  split at ran
  · cases ran
  · rename_i aid named
    refine ⟨aid, named, ?_⟩
    by_cases off : isTruthy (changed.field? "disabled") = true
    · rw [if_pos off] at ran
      exact .inl ⟨off, (Except.ok.inj (guard_ok.mp ran).2).symm⟩
    · rw [if_neg off] at ran
      split at ran
      · cases ran
      · rename_i target found
        obtain ⟨middle, severity, ran⟩ := bind_ok.mp ran
        obtain ⟨final, evaluator, ran⟩ := bind_ok.mp ran
        cases ran
        exact .inr ⟨Bool.eq_false_iff.mpr off, target, final, found, rfl,
          fun own => override_severity own severity evaluator⟩

theorem disables_append {changes : List Value} {changed : Value} {aid : Str}
    (named : entryId changed = some aid) (key : Key) :
    Disables (changes ++ [changed]) key ↔ Disables changes key ∨
      (key = .str aid ∧ isTruthy (changed.field? "disabled") = true) := by
  constructor
  · rintro ⟨entry, member, id, idNamed, same, off⟩
    rcases List.mem_append.mp member with before | here
    · exact .inl ⟨entry, before, id, idNamed, same, off⟩
    · rw [List.mem_singleton.mp here] at idNamed off
      rw [named, Option.some.injEq] at idNamed
      rw [idNamed]
      exact .inr ⟨same, off⟩
  · rintro (⟨entry, member, rest⟩ | ⟨same, off⟩)
    · exact ⟨entry, List.mem_append_left _ member, rest⟩
    · exact ⟨changed, List.mem_append_right _ List.mem_cons_self, aid, named, same, off⟩

theorem lastStated_append {changes : List Value} {changed : Value} {aid : Str}
    (named : entryId changed = some aid) (key : Key) :
    lastStated (changes ++ [changed]) key =
      if key = .str aid then (changed.field? "severity").or (lastStated changes key)
      else lastStated changes key := by
  unfold lastStated
  rw [List.filterMap_append, List.getLast?_append]
  have single : ([changed].filterMap (statedSeverity key)).getLast? =
      if key = .str aid then changed.field? "severity" else none := by
    unfold statedSeverity
    rw [List.filterMap_cons, named]
    dsimp only
    by_cases same : key = .str aid
    · rw [if_pos same]
      cases changed.field? "severity" <;> rfl
    · rw [if_neg same]
      rfl
  rw [single]
  split <;> rfl

/-- What the entries so far leave of the originals. -/
structure Leaves (originals : Dict Key Value) (changes : List Value) (byId : Dict Key Value) :
    Prop where
  dropped : ∀ key, Disables changes key → Dict.get? byId key = none
  known : ∀ key doc, Dict.get? byId key = some doc → ∃ b, Dict.get? originals key = some b
  left : ∀ key b, Dict.get? originals key = some b → ¬Disables changes key →
    ∃ doc, Dict.get? byId key = some doc ∧ idKey doc = .ok key ∧
      doc.field? "severity" = (lastStated changes key).or (b.field? "severity")

theorem Leaves.step {central : Central} {originals byId next : Dict Key Value}
    {changes : List Value} {changed : Value} (leaves : Leaves originals changes byId)
    (ran : applyChange central byId changed = .ok next) :
    Leaves originals (changes ++ [changed]) next := by
  obtain ⟨aid, named, ⟨off, rfl⟩ | ⟨on, target, final, found, rfl, sets⟩⟩ :=
    applyChange_severity ran
  · refine ⟨?_, ?_, ?_⟩
    · intro key disabled
      rw [Dict.get?_erase]
      split
      · rfl
      · rename_i other
        rcases (disables_append named key).mp disabled with before | ⟨same, -⟩
        · exact leaves.dropped key before
        · exact absurd same.symm other
    · intro key doc shown
      rw [Dict.get?_erase] at shown
      split at shown
      · cases shown
      · exact leaves.known key doc shown
    · intro key b original stays
      rw [disables_append named, not_or, not_and] at stays
      have other : key ≠ .str aid := fun same => stays.2 same off
      rw [Dict.get?_erase, if_neg (Ne.symm other), lastStated_append named, if_neg other]
      exact leaves.left key b original stays.1
  · have stands : ¬Disables changes (.str aid) := by
      intro disabled
      have gone := leaves.dropped _ disabled
      rw [found] at gone
      cases gone
    have same : ∀ key, Disables (changes ++ [changed]) key ↔ Disables changes key := by
      intro key
      rw [disables_append named, on]
      simp
    refine ⟨?_, ?_, ?_⟩
    · intro key disabled
      have before := (same key).mp disabled
      rw [Dict.get?_set, if_neg]
      · exact leaves.dropped key before
      · rintro rfl
        exact stands before
    · intro key doc shown
      rw [Dict.get?_set] at shown
      split at shown
      · rename_i here
        exact here ▸ leaves.known _ target found
      · exact leaves.known key doc shown
    · intro key b original stays
      obtain ⟨doc, shown, own, severity⟩ := leaves.left key b original (mt (same key).mpr stays)
      rw [Dict.get?_set, lastStated_append named]
      by_cases here : key = .str aid
      · subst here
        rw [found, Option.some.injEq] at shown
        subst shown
        obtain ⟨finalOwn, finalSeverity⟩ := sets own
        rw [if_pos rfl, if_pos rfl, Option.or_assoc, ← severity]
        exact ⟨final, rfl, finalOwn, finalSeverity⟩
      · rw [if_neg (Ne.symm here), if_neg here]
        exact ⟨doc, shown, own, severity⟩

theorem foldlM_leaves {central : Central} {originals : Dict Key Value} (changes : List Value)
    {before : List Value} {byId next : Dict Key Value} (leaves : Leaves originals before byId)
    (ran : changes.foldlM (applyChange central) byId = .ok next) :
    Leaves originals (before ++ changes) next := by
  induction changes generalizing before byId with
  | nil =>
      cases ran
      rwa [List.append_nil]
  | cons changed rest ih =>
      rw [List.foldlM_cons] at ran
      obtain ⟨middle, here, ran⟩ := bind_ok.mp ran
      have later := ih (leaves.step here) ran
      rwa [List.append_assoc, List.singleton_append] at later

theorem lastWith_append {front : List Value} {a : Value} {key : Key} {b : Value} :
    LastWith (front ++ [a]) key b ↔
      (idKey a = .ok key ∧ b = a) ∨ (idKey a ≠ .ok key ∧ LastWith front key b) := by
  constructor
  · rintro ⟨before, back, split, own, none⟩
    rcases List.eq_nil_or_concat back with rfl | ⟨back', c, rfl⟩
    · obtain ⟨-, last⟩ := List.append_inj' split rfl
      rw [List.singleton_inj] at last
      exact .inl ⟨last ▸ own, last.symm⟩
    · rw [List.concat_eq_append, ← List.cons_append, ← List.append_assoc] at split
      obtain ⟨rest, last⟩ := List.append_inj' split rfl
      rw [List.singleton_inj] at last
      subst last
      rw [List.concat_eq_append] at none
      exact .inr ⟨none a (by simp), before, back', rest, own,
        fun c member => none c (List.mem_append_left _ member)⟩
  · rintro (⟨own, rfl⟩ | ⟨other, before, back, rfl, own, none⟩)
    · exact ⟨front, [], rfl, own, by simp⟩
    · refine ⟨before, back ++ [a], by simp, own, ?_⟩
      intro c member
      rcases List.mem_append.mp member with inside | last
      · exact none c inside
      · rw [List.mem_singleton.mp last]
        exact other

/-- The index holds the last assertion of each id. -/
theorem get?_indexById_last {assertions : List Value} {ids : List Key}
    (read : assertions.mapM idKey = .ok ids) (key : Key) (b : Value) :
    Dict.get? (indexById ids assertions) key = some b ↔ LastWith assertions key b := by
  induction assertions using List.reverseRecOn generalizing ids with
  | nil =>
      cases read
      simp [indexById, Dict.ofPairs, LastWith]
  | append_singleton front a ih =>
      rw [List.mapM_append] at read
      obtain ⟨keys, before, read⟩ := bind_ok.mp read
      obtain ⟨last, here, read⟩ := bind_ok.mp read
      cases read
      rw [List.mapM_cons] at here
      obtain ⟨k, own, here⟩ := bind_ok.mp here
      cases here
      have lengths := (mem_zip_of_mapM before).1
      have whole : indexById (keys ++ [k]) (front ++ [a]) =
          Dict.set (indexById keys front) k a := by
        unfold indexById Dict.ofPairs
        rw [List.zip_append lengths, List.foldl_append]
        rfl
      show Dict.get? (indexById (keys ++ [k]) (front ++ [a])) key = some b ↔ _
      rw [whole, Dict.get?_set, lastWith_append, own, Except.ok.injEq, ← ih before]
      by_cases same : k = key
      · simp [same, eq_comm]
      · simp [same]

theorem lastWith_mem {assertions : List Value} {key : Key} {b : Value}
    (last : LastWith assertions key b) : b ∈ assertions ∧ idKey b = .ok key := by
  obtain ⟨front, back, rfl, own, -⟩ := last
  exact ⟨by simp, own⟩

theorem leaves_start (originals : Dict Key Value)
    (own : ∀ key b, Dict.get? originals key = some b → idKey b = .ok key) :
    Leaves originals [] originals := by
  refine ⟨?_, fun key doc shown => ⟨doc, shown⟩, ?_⟩
  · rintro key ⟨_, member, -⟩
    cases member
  · intro key b shown _
    exact ⟨b, shown, own key b shown, rfl⟩

/-- An accepted overlay keeps every severity exactly when what it says lowers none. -/
theorem keepsSeverities_iff {assertions : List Value} {overlay : Value} {bundle : Dict Str Value}
    {result : List Value} (ran : applyOverlay assertions overlay bundle = .ok result) :
    KeepsSeverities assertions result ↔ Raises assertions overlay := by
  have bundled := ran
  unfold applyOverlay at bundled
  obtain ⟨central, read, -⟩ := bind_ok.mp bundled
  obtain ⟨ids, middle, byId, named, changed, extended, rfl⟩ := applyOverlay_ok read ran
  have index := get?_indexById_last named
  have leaves := foldlM_leaves (listed overlay "assertions")
    (leaves_start _ (fun key b shown => (lastWith_mem ((index key b).mp shown)).2)) changed
  rw [List.nil_append] at leaves
  have extension := foldlM_applyAddition (listed overlay "add_assertions") extended
  have inIds : ∀ key b, LastWith assertions key b → key ∈ ids := by
    intro key b last
    have pair := ((mem_zip_of_mapM named).2 key b).mpr (lastWith_mem last)
    exact (List.of_mem_zip pair).1
  constructor
  · intro keeps a inside key v n own stated ranked
    have kept := keeps a inside key v n own stated ranked
    refine ⟨fun added member same => kept added (List.mem_append_right _ member) same, ?_⟩
    intro stays b last
    obtain ⟨doc, shown, docOwn, severity⟩ := leaves.left key b ((index key b).mpr last) stays
    have returned : doc ∈ ids.filterMap (Dict.get? byId) :=
      List.mem_filterMap.mpr ⟨key, inIds key b last, extension.old key doc shown⟩
    rw [← severity]
    exact kept doc (List.mem_append_left _ returned) docOwn
  · intro raises a inside key v n own stated ranked out member same
    obtain ⟨additions, changes⟩ := raises a inside key v n own stated ranked
    rcases List.mem_append.mp member with kept | added
    · obtain ⟨key', -, found⟩ := List.mem_filterMap.mp kept
      rcases extension.new key' out found with added | ⟨shown, -⟩
      · exact additions out added same
      · obtain ⟨b, original⟩ := leaves.known key' out shown
        have stays : ¬Disables (listed overlay "assertions") key' := by
          intro disabled
          have gone := leaves.dropped key' disabled
          rw [shown] at gone
          cases gone
        obtain ⟨doc, docShown, docOwn, severity⟩ := leaves.left key' b original stays
        rw [shown, Option.some.injEq] at docShown
        subst docShown
        rw [same, Except.ok.injEq] at docOwn
        subst docOwn
        rw [severity]
        exact changes stays b ((index key b).mp original)
    · exact additions out added same

/-- An overlay that raises `a1`: what it says lowers nothing. -/
theorem raising_keepsSeverities :
    ∃ result, applyOverlay [highAssertion] raising floorBundle = .ok result ∧
      KeepsSeverities [highAssertion] result := by
  obtain ⟨result, ran⟩ : ∃ result, applyOverlay [highAssertion] raising floorBundle = .ok result :=
    ⟨_, rfl⟩
  refine ⟨result, ran, (keepsSeverities_iff ran).mpr ?_⟩
  intro a inside key v n own stated ranked
  rw [List.mem_singleton.mp inside] at own stated
  cases own
  cases stated
  cases ranked
  refine ⟨?_, fun _ b _ => ⟨.str "critical", 3, rfl, rfl, by decide⟩⟩
  intro added member same
  rw [List.mem_singleton.mp member] at same
  cases same

/-- An overlay that lowers `a1`, which has no floor. -/
def lowering : Value :=
  .dict [("assertions", .list [.dict [("id", .str "a1"), ("severity", .str "low")]])]

theorem lowering_not_keepsSeverities :
    ∃ result, applyOverlay [highAssertion] lowering [] = .ok result ∧
      ¬KeepsSeverities [highAssertion] result := by
  refine ⟨_, rfl, ?_⟩
  intro keeps
  obtain ⟨v, m, stated, ranked, high⟩ := keeps highAssertion List.mem_cons_self (.str "a1")
    (.str "high") 2 rfl rfl rfl _ List.mem_cons_self rfl
  cases stated
  cases ranked
  omega

end DevGate.Policy
