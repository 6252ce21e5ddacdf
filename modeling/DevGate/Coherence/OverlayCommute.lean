import DevGate.Coherence.OverlayAdmission

set_option autoImplicit false

/- Two overlays that name no id in common, one after the other in either order. -/
namespace DevGate.Policy

open Py Evaluators
open Fold (Ends ends_bind)

/-- Every value stands under its own id. -/
def Owned (byId : Dict Key Value) : Prop :=
  ∀ key v, Dict.get? byId key = some v → idKey v = .ok key

theorem idKey_setStated {target : Value} {key : Key} (named : idKey target = .ok key)
    (changed : Value) {field : Str} (other : field ≠ "id") :
    idKey (setStated changed field target) = .ok key := by
  unfold setStated
  split
  · exact idKey_setField named _ other
  · exact named

theorem idKey_overlaid {target : Value} {key : Key} (named : idKey target = .ok key)
    (changed : Value) : idKey (overlaid changed target) = .ok key :=
  idKey_setStated (idKey_setStated named changed (by decide)) changed (by decide)

theorem Owned.set {byId : Dict Key Value} (owned : Owned byId) {key : Key} {v : Value}
    (named : idKey v = .ok key) : Owned (Dict.set byId key v) := by
  intro other w found
  rw [Dict.get?_set] at found
  split at found
  · rename_i same
    cases found
    rw [← same]
    exact named
  · exact owned other w found

theorem Owned.change {central : Central} {byId next : Dict Key Value} {changed : Value}
    (owned : Owned byId) (ran : applyChange central byId changed = .ok next) : Owned next := by
  obtain ⟨aid, -, -, effect⟩ := applyChange_iff.mp ran
  split at effect
  · obtain ⟨target, found, rfl⟩ := effect
    exact owned.set (idKey_overlaid (owned _ target found) changed)
  · subst effect
    intro key v found
    rw [Dict.get?_erase] at found
    split at found
    · cases found
    · exact owned key v found

theorem Owned.addition {byId next : Dict Key Value} {added : Value} (owned : Owned byId)
    (ran : applyAddition byId added = .ok next) : Owned next := by
  obtain ⟨aid, named, -, rfl⟩ := applyAddition_iff.mp ran
  exact owned.set (idKey_of_entryId named)

theorem owned_indexById {assertions : List Value} {ids : List Key}
    (read : assertions.mapM idKey = .ok ids) : Owned (indexById ids assertions) := by
  intro key v found
  unfold indexById at found
  rw [Dict.get?_ofPairs] at found
  have member := List.mem_reverse.mp (Dict.mem_of_get? found)
  exact (((mem_zip_of_mapM read).2 key v).mp member).2

theorem Runs.owned {central : Central} {ids : List Key} {assertions : List Value}
    {overlay : Dict Str Value} {middle byId : Dict Key Value}
    (runs : Runs central ids assertions overlay middle byId)
    (read : assertions.mapM idKey = .ok ids) : Owned byId := by
  have changed := Fold.foldlM_keeps (fun _ _ _ _ kept ran => Owned.change kept ran)
    (owned_indexById read) runs.changed
  exact Fold.foldlM_keeps (fun _ _ _ _ kept ran => Owned.addition kept ran) changed runs.extended

/-! What an overlay leaves alone, and what it depends on. -/

/-- An entry or an addition of the overlay has the id. -/
def Names (overlay : Dict Str Value) (key : Key) : Prop :=
  ∃ entry ∈ listed (.dict overlay) "assertions" ++ listed (.dict overlay) "add_assertions",
    ∃ aid, entryId entry = some aid ∧ key = .str aid

/-- An entry that has another id leaves a key alone. -/
theorem applyChange_frame {central : Central} {byId next : Dict Key Value} {changed : Value}
    (ran : applyChange central byId changed = .ok next) {key : Key}
    (other : ∀ aid, entryId changed = some aid → key ≠ .str aid) :
    Dict.get? next key = Dict.get? byId key := by
  obtain ⟨aid, named, -, effect⟩ := applyChange_iff.mp ran
  have apart := other aid named
  split at effect
  · obtain ⟨target, -, rfl⟩ := effect
    rw [Dict.get?_set, if_neg (Ne.symm apart)]
  · subst effect
    rw [Dict.get?_erase, if_neg (Ne.symm apart)]

theorem applyAddition_frame {byId next : Dict Key Value} {added : Value}
    (ran : applyAddition byId added = .ok next) {key : Key}
    (other : ∀ aid, entryId added = some aid → key ≠ .str aid) :
    Dict.get? next key = Dict.get? byId key := by
  obtain ⟨aid, named, -, rfl⟩ := applyAddition_iff.mp ran
  rw [Dict.get?_set, if_neg (Ne.symm (other aid named))]

theorem Runs.frame {central : Central} {ids : List Key} {assertions : List Value}
    {overlay : Dict Str Value} {middle byId : Dict Key Value}
    (runs : Runs central ids assertions overlay middle byId) {key : Key}
    (unnamed : ¬ Names overlay key) :
    Dict.get? byId key = Dict.get? (indexById ids assertions) key := by
  have changed : Dict.get? middle key = Dict.get? (indexById ids assertions) key := by
    refine Fold.foldlM_keeps (P := fun d => Dict.get? d key = _) ?_ rfl runs.changed
    intro entry member d next kept ran
    rw [applyChange_frame ran, kept]
    intro aid named same
    exact unnamed ⟨entry, List.mem_append_left _ member, aid, named, same⟩
  refine Fold.foldlM_keeps (P := fun d => Dict.get? d key = _) ?_ changed runs.extended
  intro entry member d next kept ran
  rw [applyAddition_frame ran, kept]
  intro aid named same
  exact unnamed ⟨entry, List.mem_append_right _ member, aid, named, same⟩

/-- What an entry leaves of a key depends on that key only. -/
theorem applyChange_local {central : Central} {byId byId' next next' : Dict Key Value}
    {changed : Value} (ran : applyChange central byId changed = .ok next)
    (ran' : applyChange central byId' changed = .ok next') {key : Key}
    (same : Dict.get? byId key = Dict.get? byId' key) :
    Dict.get? next key = Dict.get? next' key := by
  obtain ⟨aid, named, -, effect⟩ := applyChange_iff.mp ran
  obtain ⟨aid', named', -, effect'⟩ := applyChange_iff.mp ran'
  rw [named, Option.some.injEq] at named'
  subst named'
  split at effect
  · rename_i on
    rw [if_pos on] at effect'
    obtain ⟨target, found, rfl⟩ := effect
    obtain ⟨target', found', rfl⟩ := effect'
    rw [Dict.get?_set, Dict.get?_set]
    split
    · rename_i here
      rw [here, same] at found
      rw [here, found, Option.some.injEq] at found'
      rw [found']
    · exact same
  · rename_i off
    rw [if_neg off] at effect'
    subst effect effect'
    rw [Dict.get?_erase, Dict.get?_erase, same]

theorem applyAddition_local {byId byId' next next' : Dict Key Value} {added : Value}
    (ran : applyAddition byId added = .ok next) (ran' : applyAddition byId' added = .ok next')
    {key : Key} (same : Dict.get? byId key = Dict.get? byId' key) :
    Dict.get? next key = Dict.get? next' key := by
  obtain ⟨aid, named, -, rfl⟩ := applyAddition_iff.mp ran
  obtain ⟨aid', named', -, rfl⟩ := applyAddition_iff.mp ran'
  rw [named, Option.some.injEq] at named'
  subst named'
  rw [Dict.get?_set, Dict.get?_set, same]

theorem Runs.local_ {central : Central} {ids ids' : List Key} {assertions assertions' : List Value}
    {overlay : Dict Str Value} {middle byId middle' byId' : Dict Key Value}
    (runs : Runs central ids assertions overlay middle byId)
    (runs' : Runs central ids' assertions' overlay middle' byId') {key : Key}
    (same : Dict.get? (indexById ids assertions) key = Dict.get? (indexById ids' assertions') key) :
    Dict.get? byId key = Dict.get? byId' key := by
  have changed : Dict.get? middle key = Dict.get? middle' key :=
    Fold.foldlM_relates (f := applyChange central)
      (R := fun d d' => Dict.get? d key = Dict.get? d' key)
      (fun _ _ _ _ _ _ same ran ran' => applyChange_local ran ran' same) same
      runs.changed runs'.changed
  exact Fold.foldlM_relates (f := applyAddition)
    (R := fun d d' => Dict.get? d key = Dict.get? d' key)
    (fun _ _ _ _ _ _ same ran ran' => applyAddition_local ran ran' same) changed
    runs.extended runs'.extended

/-! The returned list. -/

/-- The ids of the additions, as keys. -/
def additionKeys (additions : List Value) : List Key :=
  additions.filterMap (fun added => (entryId added).map Key.str)

/-- The additions stand in the dictionary under their ids, which were free. -/
theorem additions_stand (additions : List Value) {middle byId : Dict Key Value}
    (ran : additions.foldlM applyAddition middle = .ok byId) :
    List.Forall₂ (fun key added => Dict.get? byId key = some added) (additionKeys additions)
      additions ∧
    (additionKeys additions).Nodup ∧ ∀ key ∈ additionKeys additions, Dict.get? middle key = none := by
  induction additions generalizing middle with
  | nil => exact ⟨.nil, List.nodup_nil, by simp [additionKeys]⟩
  | cons added rest ih =>
      rw [List.foldlM_cons] at ran
      obtain ⟨next, here, later⟩ := bind_ok.mp ran
      obtain ⟨aid, named, fresh, rfl⟩ := applyAddition_iff.mp here
      obtain ⟨stand, distinct, free⟩ := ih later
      have keys : additionKeys (added :: rest) = .str aid :: additionKeys rest := by
        unfold additionKeys
        rw [List.filterMap_cons, named]
        rfl
      have here_ : Dict.get? byId (.str aid) = some added :=
        (foldlM_applyAddition rest later).old _ _ (Dict.get?_set_self _ _ _)
      have new : Key.str aid ∉ additionKeys rest := by
        intro inside
        have taken := free _ inside
        rw [Dict.get?_set_self] at taken
        cases taken
      rw [keys, List.forall_mem_cons, List.nodup_cons]
      refine ⟨.cons here_ stand, ⟨new, distinct⟩, ?_, ?_⟩
      · unfold Has at fresh
        simpa using fresh
      · intro key inside
        have absent := free key inside
        rw [Dict.get?_set] at absent
        split at absent
        · cases absent
        · exact absent

theorem filterMap_stand {byId : Dict Key Value} {keys : List Key} {vs : List Value}
    (stand : List.Forall₂ (fun key v => Dict.get? byId key = some v) keys vs) :
    keys.filterMap (Dict.get? byId) = vs := by
  induction stand with
  | nil => rfl
  | cons here _ ih => rw [List.filterMap_cons_some here, ih]

/-- The returned list, as a lookup of the ids and of the added ids. -/
theorem Runs.result {central : Central} {ids : List Key} {assertions : List Value}
    {overlay : Dict Str Value} {middle byId : Dict Key Value}
    (runs : Runs central ids assertions overlay middle byId) :
    ids.filterMap (Dict.get? byId) ++ listed (.dict overlay) "add_assertions" =
      (ids ++ additionKeys (listed (.dict overlay) "add_assertions")).filterMap
        (Dict.get? byId) := by
  rw [List.filterMap_append, filterMap_stand (additions_stand _ runs.extended).1]

/-- The keys of a list that are in the dictionary. -/
def present (byId : Dict Key Value) (keys : List Key) : List Key :=
  keys.filter (fun key => (Dict.get? byId key).isSome)

/-- The values under some keys have those keys as their ids. -/
theorem mapM_idKey_lookup {byId : Dict Key Value} (owned : Owned byId) (keys : List Key) :
    (keys.filterMap (Dict.get? byId)).mapM idKey = .ok (present byId keys) := by
  induction keys with
  | nil => rfl
  | cons key rest ih =>
      unfold present at ih ⊢
      cases found : Dict.get? byId key with
      | none =>
          rw [List.filterMap_cons_none found, List.filter_cons_of_neg (by simp [found])]
          exact ih
      | some v =>
          rw [List.filterMap_cons_some found, List.filter_cons_of_pos (by simp [found]),
            List.mapM_cons, owned key v found, ok_bind, ih]
          rfl

/-- A list read back from a dictionary indexes to it, on the keys it was read from. -/
theorem get?_indexById_lookup {byId : Dict Key Value} (owned : Owned byId) {keys : List Key}
    (covers : ∀ key v, Dict.get? byId key = some v → key ∈ keys) (key : Key) :
    Dict.get? (indexById (present byId keys) (keys.filterMap (Dict.get? byId))) key =
      Dict.get? byId key := by
  have read := mapM_idKey_lookup owned keys
  have agrees : ∀ v, Dict.get? (indexById (present byId keys) (keys.filterMap (Dict.get? byId))) key =
      some v → Dict.get? byId key = some v := by
    intro v found
    obtain ⟨member, named⟩ := lastWith_mem ((get?_indexById_last read key v).mp found)
    obtain ⟨other, -, stood⟩ := List.mem_filterMap.mp member
    have same := owned other v stood
    rw [named, Except.ok.injEq] at same
    rw [same, stood]
  cases held : Dict.get? byId key with
  | none =>
      cases found : Dict.get? (indexById (present byId keys) (keys.filterMap (Dict.get? byId))) key with
      | none => rfl
      | some v =>
          have stood := agrees v found
          rw [held] at stood
          cases stood
  | some v =>
      have listed_ : key ∈ present byId keys :=
        List.mem_filter.mpr ⟨covers key v held, by rw [held]; rfl⟩
      obtain ⟨w, found⟩ := Option.isSome_iff_exists.mp ((indexById_isSome read key).mpr listed_)
      have stood := agrees w found
      rw [held, Option.some.injEq] at stood
      rw [found, stood]

/-! Two overlays. -/

theorem names_of_additionKeys {overlay : Dict Str Value} {key : Key}
    (inside : key ∈ additionKeys (listed (.dict overlay) "add_assertions")) : Names overlay key := by
  obtain ⟨added, member, named⟩ := List.mem_filterMap.mp inside
  obtain ⟨aid, known, same⟩ := Option.map_eq_some_iff.mp named
  exact ⟨added, List.mem_append_right _ member, aid, known, same.symm⟩

/-- The keys of the dictionary are ids of the list or of the additions. -/
theorem Runs.covers {central : Central} {ids : List Key} {assertions : List Value}
    {overlay : Dict Str Value} {middle byId : Dict Key Value}
    (runs : Runs central ids assertions overlay middle byId)
    (read : assertions.mapM idKey = .ok ids) (key : Key) (v : Value)
    (held : Dict.get? byId key = some v) :
    key ∈ ids ++ additionKeys (listed (.dict overlay) "add_assertions") := by
  have started : ∀ key v, Dict.get? (indexById ids assertions) key = some v → key ∈ ids := by
    intro key v found
    have pair := (mem_zip_of_mapM read).2 key v
    exact (List.of_mem_zip (pair.mpr (lastWith_mem ((get?_indexById_last read key v).mp found)))).1
  have changed : ∀ key v, Dict.get? middle key = some v → key ∈ ids := by
    refine Fold.foldlM_keeps (P := fun d => ∀ key v, Dict.get? d key = some v → key ∈ ids) ?_ started
      runs.changed
    intro entry _ d next kept ran key v found
    obtain ⟨aid, -, -, effect⟩ := applyChange_iff.mp ran
    split at effect
    · obtain ⟨target, stood, rfl⟩ := effect
      rw [Dict.get?_set] at found
      split at found
      · rename_i same
        rw [← same]
        exact kept _ target stood
      · exact kept key v found
    · subst effect
      rw [Dict.get?_erase] at found
      split at found
      · cases found
      · exact kept key v found
  rcases (foldlM_applyAddition _ runs.extended).new key v held with added | ⟨before, -⟩
  · obtain ⟨aid, named⟩ := (foldlM_applyAddition _ runs.extended).named v added
    have own := runs.owned read key v held
    rw [idKey_of_entryId named, Except.ok.injEq] at own
    refine List.mem_append_right _ (List.mem_filterMap.mpr ⟨v, added, ?_⟩)
    rw [named, Option.map_some, own]
  · exact List.mem_append_left _ (changed key v before)

/-- The overlays name no id in common. -/
def Independent (first second : Dict Str Value) : Prop :=
  ∀ key, Names first key → ¬ Names second key

theorem Independent.symm {first second : Dict Str Value} (apart : Independent first second) :
    Independent second first := fun key named other => apart key other named

/-- Whether an overlay is admitted depends on the ids it names. -/
theorem Admitted.congr {central : Central} {ids ids' : List Key} {overlay : Dict Str Value}
    (admitted : Admitted central ids overlay)
    (same : ∀ aid, Names overlay (.str aid) → (Key.str aid ∈ ids ↔ Key.str aid ∈ ids')) :
    Admitted central ids' overlay where
  arrays := admitted.arrays
  ungranted := admitted.ungranted
  changes := by
    intro front changed back split
    obtain ⟨aid, named, fits, live⟩ := admitted.changes front changed back split
    refine ⟨aid, named, fits, fun on => ⟨(same aid ?_).mp (live on).1, (live on).2⟩⟩
    exact ⟨changed, List.mem_append_left _ (by rw [split]; simp), aid, named, rfl⟩
  additions := by
    intro front added back split
    obtain ⟨aid, named, fresh, first⟩ := admitted.additions front added back split
    have here : Names overlay (.str aid) :=
      ⟨added, List.mem_append_right _ (by rw [split]; simp), aid, named, rfl⟩
    exact ⟨aid, named, fun both => fresh ⟨(same aid here).mpr both.1, both.2⟩, first⟩

/-- The list that an overlay returned, the ids it has, and its index. -/
theorem Runs.returned {central : Central} {ids : List Key} {assertions : List Value}
    {overlay : Dict Str Value} {middle byId : Dict Key Value}
    (runs : Runs central ids assertions overlay middle byId)
    (read : assertions.mapM idKey = .ok ids) :
    let keys := ids ++ additionKeys (listed (.dict overlay) "add_assertions")
    (keys.filterMap (Dict.get? byId)).mapM idKey = .ok (present byId keys) ∧
      ∀ key, Dict.get? (indexById (present byId keys) (keys.filterMap (Dict.get? byId))) key =
        Dict.get? byId key :=
  ⟨mapM_idKey_lookup (runs.owned read) _,
    get?_indexById_lookup (runs.owned read) (runs.covers read)⟩

/-- An id that the first overlay does not name is in its result when it was in the list. -/
theorem Runs.present_iff {central : Central} {ids : List Key} {assertions : List Value}
    {overlay : Dict Str Value} {middle byId : Dict Key Value}
    (runs : Runs central ids assertions overlay middle byId)
    (read : assertions.mapM idKey = .ok ids) {aid : Str} (unnamed : ¬ Names overlay (.str aid)) :
    Key.str aid ∈ present byId (ids ++ additionKeys (listed (.dict overlay) "add_assertions")) ↔
      Key.str aid ∈ ids := by
  have held : (Dict.get? byId (.str aid)).isSome = true ↔ Key.str aid ∈ ids := by
    rw [runs.frame unnamed]
    exact has_indexById read aid
  rw [present, List.mem_filter, held]
  exact ⟨fun both => both.2, fun inside => ⟨List.mem_append_left _ inside, inside⟩⟩

def applyBoth (assertions : List Value) (first second : Dict Str Value) (bundle : Dict Str Value) :
    Except Exc (List Value) := do
  applyOverlay (← applyOverlay assertions (.dict first) bundle) (.dict second) bundle

/-- Both overlays were admitted by the list itself. -/
def BothAdmitted (assertions : List Value) (bundle first second : Dict Str Value) : Prop :=
  ∃ central ids, readCentral bundle = .ok central ∧ assertions.mapM idKey = .ok ids ∧
    Admitted central ids first ∧ Admitted central ids second

/-- The ids of a list that two overlays went over, added ids included. -/
def allKeys (ids : List Key) (first second : Dict Str Value) : List Key :=
  ids ++ additionKeys (listed (.dict first) "add_assertions") ++
    additionKeys (listed (.dict second) "add_assertions")

/-- What the two overlays leave: of the ids that the first names, its own assertions, and of
the others those of the second. -/
structure Joins (central : Central) (ids : List Key) (assertions : List Value)
    (first second : Dict Str Value) (d : Dict Key Value) : Prop where
  owned : Owned d
  named : ∀ middle byId, Runs central ids assertions first middle byId → ∀ key,
    Names first key → Dict.get? d key = Dict.get? byId key
  others : ∀ middle byId, Runs central ids assertions second middle byId → ∀ key,
    ¬ Names first key → Dict.get? d key = Dict.get? byId key

theorem Runs.unique {central : Central} {ids : List Key} {assertions : List Value}
    {overlay : Dict Str Value} {middle byId middle' byId' : Dict Key Value}
    (runs : Runs central ids assertions overlay middle byId)
    (runs' : Runs central ids assertions overlay middle' byId') : byId' = byId := by
  have changed := runs'.changed
  rw [runs.changed, Except.ok.injEq] at changed
  subst changed
  have extended := runs'.extended
  rw [runs.extended, Except.ok.injEq] at extended
  exact extended.symm

theorem joins_of_runs {central : Central} {ids : List Key} {assertions : List Value}
    {first second : Dict Str Value} {middle byId middle' d : Dict Key Value}
    (apart : Independent first second) (read : assertions.mapM idKey = .ok ids)
    (runs : Runs central ids assertions first middle byId)
    (later : Runs central
      (present byId (ids ++ additionKeys (listed (.dict first) "add_assertions")))
      ((ids ++ additionKeys (listed (.dict first) "add_assertions")).filterMap (Dict.get? byId))
      second middle' d) : Joins central ids assertions first second d := by
  obtain ⟨reread, index⟩ := runs.returned read
  refine ⟨later.owned reread, ?_, ?_⟩
  · intro _ _ runs' key named
    rw [runs.unique runs', later.frame (apart key named), index]
  · intro _ _ runs' key other
    apply later.local_ runs'
    rw [index, runs.frame other]

/-- A key that the joined dictionary holds stands in the first result or is added. -/
theorem lookup_present {central : Central} {ids : List Key} {assertions : List Value}
    {first second : Dict Str Value} {middle byId d : Dict Key Value}
    (read : assertions.mapM idKey = .ok ids)
    (runs : Runs central ids assertions first middle byId)
    (joins : Joins central ids assertions first second d) :
    (present byId (ids ++ additionKeys (listed (.dict first) "add_assertions"))).filterMap
        (Dict.get? d) =
      (ids ++ additionKeys (listed (.dict first) "add_assertions")).filterMap (Dict.get? d) := by
  have dropped : ∀ key ∈ ids ++ additionKeys (listed (.dict first) "add_assertions"),
      Dict.get? byId key = none → Dict.get? d key = none := by
    intro key inside gone
    by_cases named : Names first key
    · rw [joins.named middle byId runs key named, gone]
    · -- an id that the first overlay leaves alone is in the list, so it is not gone
      have original : key ∈ ids := by
        rcases List.mem_append.mp inside with here | added
        · exact here
        · exact absurd (names_of_additionKeys added) named
      have held := (indexById_isSome read key).mpr original
      rw [← runs.frame named, gone] at held
      cases held
  unfold present
  rw [List.filterMap_filter]
  apply List.filterMap_congr
  intro key inside
  cases held : Dict.get? byId key with
  | none => simp [dropped key inside held]
  | some v => simp

theorem applyBoth_result {assertions : List Value} {bundle first second : Dict Str Value}
    {out : List Value} (apart : Independent first second)
    (ran : applyBoth assertions first second bundle = .ok out) :
    ∃ central ids d, readCentral bundle = .ok central ∧ assertions.mapM idKey = .ok ids ∧
      Admitted central ids first ∧ Admitted central ids second ∧
      Joins central ids assertions first second d ∧
      out = (allKeys ids first second).filterMap (Dict.get? d) := by
  unfold applyBoth at ran
  obtain ⟨middleOut, firstRan, secondRan⟩ := bind_ok.mp ran
  obtain ⟨central, ids, m, b, central_, read, admitted, runs, rfl⟩ := applyOverlay_iff.mp firstRan
  obtain ⟨central', ids', m', d, central_', read', admitted', later, rfl⟩ :=
    applyOverlay_iff.mp secondRan
  rw [central_, Except.ok.injEq] at central_'
  subst central_'
  rw [runs.result] at read' later
  rw [(runs.returned read).1, Except.ok.injEq] at read'
  subst read'
  have joins := joins_of_runs apart read runs later
  refine ⟨central, ids, d, central_, read, admitted, ?_, joins, ?_⟩
  · refine admitted'.congr ?_
    intro aid named
    exact runs.present_iff read (apart.symm _ named)
  · rw [later.result, allKeys, List.filterMap_append, List.filterMap_append,
      lookup_present read runs joins]

/-- One overlay after the other is accepted exactly when the list admits both. -/
theorem applyBoth_ends {assertions : List Value} {bundle first second : Dict Str Value}
    (apart : Independent first second) :
    Ends (applyBoth assertions first second bundle) ↔
      BothAdmitted assertions bundle first second := by
  constructor
  · rintro ⟨out, ran⟩
    obtain ⟨central, ids, -, central_, read, admitted, admitted', -⟩ := applyBoth_result apart ran
    exact ⟨central, ids, central_, read, admitted, admitted'⟩
  · rintro ⟨central, ids, central_, read, admitted, admitted'⟩
    obtain ⟨m, b, runs⟩ := runs_of_admitted read admitted
    have firstRan := applyOverlay_iff.mpr ⟨central, ids, m, b, central_, read, admitted, runs, rfl⟩
    rw [runs.result] at firstRan
    have admittedLater := admitted'.congr
      (fun aid named => (runs.present_iff read (apart.symm _ named)).symm)
    obtain ⟨m', d, later⟩ := runs_of_admitted (runs.returned read).1 admittedLater
    have secondRan := applyOverlay_iff.mpr
      ⟨central, _, m', d, central_, (runs.returned read).1, admittedLater, later, rfl⟩
    unfold applyBoth
    exact ends_bind.mpr ⟨_, firstRan, _, secondRan⟩

theorem BothAdmitted.symm {assertions : List Value} {bundle first second : Dict Str Value}
    (both : BothAdmitted assertions bundle first second) :
    BothAdmitted assertions bundle second first := by
  obtain ⟨central, ids, central_, read, admitted, admitted'⟩ := both
  exact ⟨central, ids, central_, read, admitted', admitted⟩

/-- In either order the overlays leave the same assertions under every id. -/
theorem Joins.agree {central : Central} {ids : List Key} {assertions : List Value}
    {first second : Dict Str Value} {d d' : Dict Key Value} (apart : Independent first second)
    (read : assertions.mapM idKey = .ok ids) (admitted : Admitted central ids first)
    (admitted' : Admitted central ids second) (joins : Joins central ids assertions first second d)
    (joins' : Joins central ids assertions second first d') (key : Key) :
    Dict.get? d key = Dict.get? d' key := by
  obtain ⟨m, b, runs⟩ := runs_of_admitted read admitted
  obtain ⟨m', b', runs'⟩ := runs_of_admitted read admitted'
  by_cases inFirst : Names first key
  · rw [joins.named m b runs key inFirst, joins'.others m b runs key (apart key inFirst)]
  · rw [joins.others m' b' runs' key inFirst]
    by_cases inSecond : Names second key
    · rw [joins'.named m' b' runs' key inSecond]
    · rw [joins'.others m b runs key inSecond, runs.frame inFirst, runs'.frame inSecond]

/-- The overlay adds an id of the list, which it must disable to do so. -/
def Readds (ids : List Key) (overlay : Dict Str Value) : Prop :=
  ∃ key ∈ ids, key ∈ additionKeys (listed (.dict overlay) "add_assertions")

theorem forall₂_left {α β : Type} {R : α → β → Prop} {xs : List α} {ys : List β}
    (related : List.Forall₂ R xs ys) : ∀ x ∈ xs, ∃ y, R x y := by
  induction related with
  | nil => simp
  | cons here _ ih =>
      rw [List.forall_mem_cons]
      exact ⟨⟨_, here⟩, ih⟩

theorem Runs.added_stand {central : Central} {ids : List Key} {assertions : List Value}
    {overlay : Dict Str Value} {middle byId : Dict Key Value}
    (runs : Runs central ids assertions overlay middle byId) {key : Key}
    (added : key ∈ additionKeys (listed (.dict overlay) "add_assertions")) :
    (Dict.get? byId key).isSome = true := by
  obtain ⟨v, held⟩ := forall₂_left (additions_stand _ runs.extended).1 key added
  rw [held]
  rfl

/-- The joined ids are distinct exactly when neither overlay adds an id of the list. -/
theorem present_nodup_iff {central : Central} {ids : List Key} {assertions : List Value}
    {first second : Dict Str Value} {d : Dict Key Value} (apart : Independent first second)
    (read : assertions.mapM idKey = .ok ids) (distinct : ids.Nodup)
    (admitted : Admitted central ids first) (admitted' : Admitted central ids second)
    (joins : Joins central ids assertions first second d) :
    (present d (allKeys ids first second)).Nodup ↔ ¬ Readds ids first ∧ ¬ Readds ids second := by
  obtain ⟨m, b, runs⟩ := runs_of_admitted read admitted
  obtain ⟨m', b', runs'⟩ := runs_of_admitted read admitted'
  have heldFirst : ∀ key ∈ additionKeys (listed (.dict first) "add_assertions"),
      (Dict.get? d key).isSome = true := by
    intro key added
    rw [joins.named m b runs key (names_of_additionKeys added)]
    exact runs.added_stand added
  have heldSecond : ∀ key ∈ additionKeys (listed (.dict second) "add_assertions"),
      (Dict.get? d key).isSome = true := by
    intro key added
    rw [joins.others m' b' runs' key
      (fun named => apart key named (names_of_additionKeys added))]
    exact runs'.added_stand added
  constructor
  · intro nodup
    unfold present allKeys at nodup
    rw [List.filter_append, List.filter_append, List.append_assoc, List.nodup_append] at nodup
    obtain ⟨-, -, clear⟩ := nodup
    refine ⟨?_, ?_⟩
    · rintro ⟨key, inside, added⟩
      have held := heldFirst key added
      exact clear key (List.mem_filter.mpr ⟨inside, held⟩) key
        (List.mem_append_left _ (List.mem_filter.mpr ⟨added, held⟩)) rfl
    · rintro ⟨key, inside, added⟩
      have held := heldSecond key added
      exact clear key (List.mem_filter.mpr ⟨inside, held⟩) key
        (List.mem_append_right _ (List.mem_filter.mpr ⟨added, held⟩)) rfl
  · rintro ⟨newFirst, newSecond⟩
    apply List.Nodup.filter
    unfold allKeys
    rw [List.append_assoc, List.nodup_append, List.nodup_append]
    refine ⟨distinct, ⟨(additions_stand _ runs.extended).2.1,
      (additions_stand _ runs'.extended).2.1, ?_⟩, ?_⟩
    · rintro key inFirst other inSecond rfl
      exact apart key (names_of_additionKeys inFirst) (names_of_additionKeys inSecond)
    · rintro key inside other added rfl
      rcases List.mem_append.mp added with inFirst | inSecond
      · exact newFirst ⟨key, inside, inFirst⟩
      · exact newSecond ⟨key, inside, inSecond⟩

/-- The two orders are accepted alike, and leave distinct ids and the same assertions. -/
structure Commutes (assertions : List Value) (bundle first second : Dict Str Value) : Prop where
  success : Ends (applyBoth assertions first second bundle) ↔
    Ends (applyBoth assertions second first bundle)
  same : ∀ out out', applyBoth assertions first second bundle = .ok out →
    applyBoth assertions second first bundle = .ok out' →
    DistinctIds out ∧ DistinctIds out' ∧ out.Perm out'

/-- The results of the two orders are the same up to the order of the additions. -/
theorem results_perm {assertions : List Value} {bundle first second : Dict Str Value}
    {out out' : List Value} (apart : Independent first second)
    (ran : applyBoth assertions first second bundle = .ok out)
    (ran' : applyBoth assertions second first bundle = .ok out') : out.Perm out' := by
  obtain ⟨central, ids, d, central_, read, admitted, admitted', joins, rfl⟩ :=
    applyBoth_result apart ran
  obtain ⟨central', ids', d', central_', read', -, -, joins', rfl⟩ :=
    applyBoth_result apart.symm ran'
  rw [central_, Except.ok.injEq] at central_'
  rw [read, Except.ok.injEq] at read'
  subst central_' read'
  have agree : Dict.get? d = Dict.get? d' :=
    funext (joins.agree apart read admitted admitted' joins')
  rw [agree]
  apply List.Perm.filterMap
  unfold allKeys
  rw [List.append_assoc, List.append_assoc]
  exact List.Perm.append_left ids List.perm_append_comm

/-- An assertion with an id and a severity. -/
def ranked (id severity : Str) : Value := .dict [("id", .str id), ("severity", .str severity)]

/-- An overlay of one change. -/
def raisingOne (id severity : Str) : Dict Str Value := [("assertions", .list [ranked id severity])]

/-- An overlay that disables `a1` and adds it again. -/
def replacing : Dict Str Value :=
  [("assertions", .list [.dict [("id", .str "a1"), ("disabled", .bool true)]]),
    ("add_assertions", .list [ranked "a1" "high"])]

end DevGate.Policy
