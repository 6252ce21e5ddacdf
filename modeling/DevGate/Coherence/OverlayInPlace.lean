import DevGate.Coherence.OverlayAdmission

set_option autoImplicit false

/- apply_overlay on the caller's own objects: the assertions are references, an entry
writes to the object it names, and a call that raises has written what it has written. -/
namespace DevGate.Policy

open Py Evaluators

/-- The objects of the caller, by reference. -/
abbrev Heap := Nat → Value

/-- `if field in changed`: write the change to the object. -/
def overrideAt (changed : Value) (field : Str) (change : Value → Value → Except Exc Value)
    (heap : Heap) (r : Nat) : Heap × Except Exc Unit :=
  match changed.field? field with
  | none => (heap, .ok ())
  | some value =>
      match change (heap r) value with
      | .ok target => (Function.update heap r target, .ok ())
      | .error e => (heap, .error e)

/-- One entry of the overlay's `assertions`. -/
def changeAt (central : Central) (heap : Heap) (byId : Dict Key Nat) (changed : Value) :
    Heap × Except Exc (Dict Key Nat) :=
  match entryId changed with
  | none =>
      (heap, .error ⟨overlayError,
        ["overlay assertion entry must be an object with a string id"]⟩)
  | some aid =>
      if isTruthy (changed.field? "disabled") then
        if Key.str aid ∈ central.required then
          (heap, .error ⟨overlayError, ["overlay disables centrally required assertion ",
            .repr (.str aid)]⟩)
        else (heap, .ok (Dict.erase byId (.str aid)))
      else match Dict.get? byId (.str aid) with
        | none =>
            (heap, .error ⟨overlayError, ["overlay references unknown assertion ",
              .repr (.str aid)]⟩)
        | some r =>
            match overrideAt changed "severity" (setSeverity central aid) heap r with
            | (heap, .error e) => (heap, .error e)
            | (heap, .ok ()) =>
                match overrideAt changed "evaluator" (setEvaluator central aid) heap r with
                | (heap, .error e) => (heap, .error e)
                | (heap, .ok ()) => (heap, .ok byId)

def changesAt (central : Central) (heap : Heap) (byId : Dict Key Nat) :
    List Value → Heap × Except Exc (Dict Key Nat)
  | [] => (heap, .ok byId)
  | changed :: rest =>
      match changeAt central heap byId changed with
      | (heap, .error e) => (heap, .error e)
      | (heap, .ok byId) => changesAt central heap byId rest

/-- What stands behind the references. -/
def view (heap : Heap) (byId : Dict Key Nat) : Dict Key Value :=
  byId.map (fun kr => (kr.1, heap kr.2))

/-- `{a["id"]: a for a in assertions}`, of references. -/
def indexRefs (ids : List Key) (refs : List Nat) : Dict Key Nat := Dict.ofPairs (ids.zip refs)

/-- The additions, the grants and the returned list, once the changes are in. -/
def finish (ids : List Key) (byId : Dict Key Value) (kvs : Dict Str Value) (additions : List Value) :
    Except Exc (List Value) := do
  let byId ← additions.foldlM applyAddition byId
  if isTruthy (Dict.get? kvs "capability_grants") ∨ isTruthy (Dict.get? kvs "network") then
    .error ⟨overlayError, ["overlay may not grant network access or secrets; ",
      "capabilities are control-plane policy"]⟩
  else .ok (ids.filterMap (Dict.get? byId) ++ additions)

/-- The changes, and what follows them. -/
def applyEntriesAt (central : Central) (ids : List Key) (heap : Heap) (refs : List Nat)
    (kvs : Dict Str Value) (changes additions : List Value) : Heap × Except Exc (List Value) :=
  match changesAt central heap (indexRefs ids refs) changes with
  | (heap, .error e) => (heap, .error e)
  | (heap, .ok byId) => (heap, finish ids (view heap byId) kvs additions)

/-- What the call reads before its first entry. -/
def preamble (assertions : List Value) (overlay : Value) (bundle : Dict Str Value) :
    Except Exc (Central × List Key × Dict Str Value × List Value × List Value) := do
  let central ← readCentral bundle
  let ids ← assertions.mapM idKey
  match overlay with
  | .dict kvs => do
      let changes ← entries kvs "assertions"
      let additions ← entries kvs "add_assertions"
      return (central, ids, kvs, changes, additions)
  | _ => .error ⟨overlayError, ["overlay must be an object"]⟩

/-- `apply_overlay`, and the objects as it leaves them. -/
def applyOverlayAt (heap : Heap) (refs : List Nat) (overlay : Value) (bundle : Dict Str Value) :
    Heap × Except Exc (List Value) :=
  match preamble (refs.map heap) overlay bundle with
  | .error e => (heap, .error e)
  | .ok (central, ids, kvs, changes, additions) =>
      applyEntriesAt central ids heap refs kvs changes additions

theorem get?_view (heap : Heap) (byId : Dict Key Nat) (key : Key) :
    Dict.get? (view heap byId) key = (Dict.get? byId key).map heap := by
  induction byId with
  | nil => rfl
  | cons kr rest ih =>
      obtain ⟨k, r⟩ := kr
      unfold view at ih ⊢
      rw [List.map_cons, Dict.get?_cons, Dict.get?_cons, ih]
      split <;> rfl

/-- No object stands under two ids. -/
structure Apart (byId : Dict Key Nat) : Prop where
  keys : (byId.map Prod.fst).Nodup
  refs : ∀ k k' r, (k, r) ∈ byId → (k', r) ∈ byId → k = k'

theorem view_update {heap : Heap} {byId : Dict Key Nat} (apart : Apart byId) {key : Key} {r : Nat}
    (found : Dict.get? byId key = some r) (v : Value) :
    view (Function.update heap r v) byId = Dict.set (view heap byId) key v := by
  have mine := Dict.mem_of_get? found
  have others : ∀ kr ∈ byId, kr.1 ≠ key → Function.update heap r v kr.2 = heap kr.2 := by
    intro kr inside other
    rw [Function.update_of_ne]
    intro same
    exact other (apart.refs kr.1 key r (same ▸ inside) mine)
  have keys := apart.keys
  clear apart mine
  induction byId with
  | nil => cases found
  | cons kr rest ih =>
      obtain ⟨k, r'⟩ := kr
      rw [List.map_cons, List.nodup_cons] at keys
      rw [Dict.get?_cons] at found
      unfold view at ih ⊢
      rw [List.map_cons, List.map_cons, Dict.set]
      by_cases here : k = key
      · rw [if_pos here] at found ⊢
        cases found
        rw [Function.update_self]
        congr 1
        apply List.map_congr_left
        intro kr inside
        rw [others kr (List.mem_cons_of_mem _ inside)]
        intro same
        exact keys.1 (List.mem_map.mpr ⟨kr, inside, same.trans here.symm⟩)
      · rw [if_neg here] at found ⊢
        rw [others (k, r') List.mem_cons_self here,
          ih found (fun kr inside => others kr (List.mem_cons_of_mem _ inside)) keys.2]

theorem Apart.erase {byId : Dict Key Nat} (apart : Apart byId) (key : Key) :
    Apart (Dict.erase byId key) where
  keys := apart.keys.sublist (List.filter_sublist.map Prod.fst)
  refs k k' r inside inside' :=
    apart.refs k k' r (List.mem_of_mem_filter inside) (List.mem_of_mem_filter inside')

theorem view_erase (heap : Heap) (byId : Dict Key Nat) (key : Key) :
    view heap (Dict.erase byId key) = Dict.erase (view heap byId) key := by
  unfold view Dict.erase
  rw [List.filter_map]
  rfl

theorem overrideAt_ok {changed : Value} {field : Str} {change : Value → Value → Except Exc Value}
    {heap : Heap} {r : Nat} {target : Value} (ran : override changed field change (heap r) = .ok target) :
    overrideAt changed field change heap r = (Function.update heap r target, .ok ()) := by
  unfold override at ran
  unfold overrideAt
  cases stated : changed.field? field with
  | none =>
      rw [stated] at ran
      cases ran
      rw [Function.update_eq_self]
  | some value =>
      rw [stated] at ran
      dsimp only at ran ⊢
      rw [ran]

theorem overrideAt_error {changed : Value} {field : Str}
    {change : Value → Value → Except Exc Value} {heap : Heap} {r : Nat} {e : Exc}
    (raised : override changed field change (heap r) = .error e) :
    overrideAt changed field change heap r = (heap, .error e) := by
  unfold override at raised
  unfold overrideAt
  cases stated : changed.field? field with
  | none =>
      rw [stated] at raised
      cases raised
  | some value =>
      rw [stated] at raised
      dsimp only at raised ⊢
      rw [raised]

/-- An entry does to the objects what `applyChange` does to their values. -/
theorem changeAt_view (central : Central) (heap : Heap) {byId : Dict Key Nat} (apart : Apart byId)
    (changed : Value) :
    (changeAt central heap byId changed).2.map (view (changeAt central heap byId changed).1) =
      applyChange central (view heap byId) changed := by
  unfold changeAt applyChange
  cases entryId changed with
  | none => rfl
  | some aid =>
      dsimp only
      by_cases off : isTruthy (changed.field? "disabled") = true
      · rw [if_pos off, if_pos off]
        by_cases needed : Key.str aid ∈ central.required
        · rw [if_pos needed, if_pos needed]
          rfl
        · rw [if_neg needed, if_neg needed]
          exact congrArg Except.ok (view_erase heap byId (.str aid))
      · rw [if_neg off, if_neg off, get?_view]
        cases found : Dict.get? byId (.str aid) with
        | none => rfl
        | some r =>
            dsimp only [Option.map_some]
            cases first : override changed "severity" (setSeverity central aid) (heap r) with
            | error e =>
                rw [overrideAt_error first]
                rfl
            | ok middle =>
                rw [overrideAt_ok first, ok_bind]
                dsimp only
                have written : Function.update heap r middle r = middle := Function.update_self ..
                cases second : override changed "evaluator" (setEvaluator central aid) middle with
                | error e =>
                    rw [← written] at second
                    rw [overrideAt_error second]
                    rfl
                | ok final =>
                    rw [← written] at second
                    rw [overrideAt_ok second, Function.update_idem]
                    exact congrArg Except.ok (view_update apart found final)

/-- An entry drops an id, or keeps the index. -/
theorem changeAt_index {central : Central} {heap heap' : Heap} {byId byId' : Dict Key Nat}
    {changed : Value} (ran : changeAt central heap byId changed = (heap', .ok byId')) :
    byId' = byId ∨ ∃ key, byId' = Dict.erase byId key := by
  unfold changeAt at ran
  split at ran
  · cases ran
  · rename_i aid named
    split at ran
    · split at ran
      · cases ran
      · cases ran
        exact .inr ⟨_, rfl⟩
    · split at ran
      · cases ran
      · split at ran
        · cases ran
        · split at ran
          · cases ran
          · cases ran
            exact .inl rfl

theorem Apart.change {central : Central} {heap heap' : Heap} {byId byId' : Dict Key Nat}
    {changed : Value} (apart : Apart byId)
    (ran : changeAt central heap byId changed = (heap', .ok byId')) : Apart byId' := by
  rcases changeAt_index ran with rfl | ⟨key, rfl⟩
  · exact apart
  · exact apart.erase key

theorem changesAt_view (central : Central) (changes : List Value) {heap : Heap}
    {byId : Dict Key Nat} (apart : Apart byId) :
    (changesAt central heap byId changes).2.map (view (changesAt central heap byId changes).1) =
      changes.foldlM (applyChange central) (view heap byId) := by
  induction changes generalizing heap byId with
  | nil => rfl
  | cons changed rest ih =>
      rw [List.foldlM_cons, ← changeAt_view central heap apart changed, changesAt]
      rcases ran : changeAt central heap byId changed with ⟨heap', e | byId'⟩
      · rfl
      · exact ih (apart.change ran)

theorem mem_indexRefs {heap : Heap} {refs : List Nat} {ids : List Key}
    (read : (refs.map heap).mapM idKey = .ok ids) {key : Key} {r : Nat}
    (inside : (key, r) ∈ indexRefs ids refs) : r ∈ refs ∧ idKey (heap r) = .ok key := by
  have zipped := Dict.mem_of_mem_ofPairs inside
  refine ⟨(List.of_mem_zip zipped).2, ?_⟩
  have viewed : (key, heap r) ∈ ids.zip (refs.map heap) := by
    rw [List.zip_map_right]
    exact List.mem_map.mpr ⟨(key, r), zipped, rfl⟩
  exact (((mem_zip_of_mapM read).2 key (heap r)).mp viewed).2

theorem apart_indexRefs {heap : Heap} {refs : List Nat} {ids : List Key}
    (read : (refs.map heap).mapM idKey = .ok ids) : Apart (indexRefs ids refs) where
  keys := Dict.nodup_ofPairs _
  refs k k' r inside inside' := by
    have first := (mem_indexRefs read inside).2
    rw [(mem_indexRefs read inside').2] at first
    exact (Except.ok.inj first).symm

theorem view_indexRefs (heap : Heap) (ids : List Key) (refs : List Nat) :
    view heap (indexRefs ids refs) = indexById ids (refs.map heap) := by
  unfold view indexRefs indexById
  rw [← Dict.ofPairs_map, List.zip_map_right]
  rfl

/-- What the call returns or raises is what `applyOverlay` does on the values of the objects. -/
theorem applyOverlayAt_outcome (heap : Heap) (refs : List Nat) (overlay : Value)
    (bundle : Dict Str Value) :
    (applyOverlayAt heap refs overlay bundle).2 = applyOverlay (refs.map heap) overlay bundle := by
  unfold applyOverlayAt preamble applyOverlay
  cases readCentral bundle with
  | error e => rfl
  | ok central =>
      rw [ok_bind, ok_bind]
      cases read : (refs.map heap).mapM idKey with
      | error e => rfl
      | ok ids =>
          rw [ok_bind, ok_bind]
          cases overlay with
          | dict kvs =>
              dsimp only
              cases entries kvs "assertions" with
              | error e => rfl
              | ok changes =>
                  rw [ok_bind, ok_bind]
                  cases entries kvs "add_assertions" with
                  | error e => rfl
                  | ok additions =>
                      rw [ok_bind, ok_bind, ← view_indexRefs,
                        ← changesAt_view central changes (apart_indexRefs read)]
                      dsimp only [pure, Except.pure]
                      unfold applyEntriesAt
                      rcases changesAt central heap (indexRefs ids refs) changes with
                        ⟨heap', e | byId'⟩
                      · rfl
                      · rfl
          | _ => rfl

end DevGate.Policy
