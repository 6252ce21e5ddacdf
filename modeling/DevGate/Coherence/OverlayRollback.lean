import DevGate.Coherence.OverlayRefusal

set_option autoImplicit false

/- The runs of apply_overlay on the caller's objects that end in a refusal, and which of
them leave the objects as they were. -/
namespace DevGate.Policy

open Py Evaluators
open Fold (Ends ends_bind)

theorem changesAt_append {central : Central} (front : List Value) {changed : Value}
    {heap heap' : Heap} {byId byId' : Dict Key Nat} :
    changesAt central heap byId (front ++ [changed]) = (heap', .ok byId') ↔
      ∃ middle index, changesAt central heap byId front = (middle, .ok index) ∧
        changeAt central middle index changed = (heap', .ok byId') := by
  induction front generalizing heap byId with
  | nil =>
      have single : changesAt central heap byId [changed] = changeAt central heap byId changed := by
        rw [changesAt]
        rcases changeAt central heap byId changed with ⟨next, e | after⟩
        · rfl
        · rfl
      rw [List.nil_append, single]
      constructor
      · exact fun ran => ⟨heap, byId, rfl, ran⟩
      · rintro ⟨middle, index, start, ran⟩
        cases start
        exact ran
  | cons first rest ih =>
      rw [List.cons_append, changesAt, changesAt]
      rcases changeAt central heap byId first with ⟨next, e | after⟩
      · constructor
        · intro ran
          cases ran
        · rintro ⟨middle, index, start, -⟩
          cases start
      · exact ih

/-- A run that raises goes through the entries before the one that does. -/
theorem changesAt_raises {central : Central} (changes : List Value) {heap heap' : Heap}
    {byId : Dict Key Nat} {e : Exc} :
    changesAt central heap byId changes = (heap', .error e) ↔
      ∃ front changed back middle index, changes = front ++ changed :: back ∧
        changesAt central heap byId front = (middle, .ok index) ∧
          changeAt central middle index changed = (heap', .error e) := by
  induction changes generalizing heap byId with
  | nil =>
      constructor
      · intro ran
        cases ran
      · rintro ⟨front, changed, back, middle, index, split, -⟩
        simp at split
  | cons first rest ih =>
      rw [changesAt]
      rcases step : changeAt central heap byId first with ⟨next, e' | after⟩
      · constructor
        · intro ran
          refine ⟨[], first, rest, heap, byId, rfl, rfl, ?_⟩
          rw [step]
          cases ran
          rfl
        · rintro ⟨front, changed, back, middle, index, split, before, here⟩
          cases front with
          | nil =>
              cases split
              cases before
              rw [step] at here
              cases here
              rfl
          | cons other front =>
              cases split
              rw [changesAt, step] at before
              cases before
      · refine (ih).trans ?_
        constructor
        · rintro ⟨front, changed, back, middle, index, rfl, before, here⟩
          refine ⟨first :: front, changed, back, middle, index, rfl, ?_, here⟩
          rw [changesAt, step]
          exact before
        · rintro ⟨front, changed, back, middle, index, split, before, here⟩
          cases front with
          | nil =>
              cases split
              cases before
              rw [step] at here
              cases here
          | cons other front =>
              cases split
              rw [changesAt, step] at before
              exact ⟨front, changed, back, middle, index, rfl, before, here⟩

theorem has_view (heap : Heap) (byId : Dict Key Nat) : Has (view heap byId) = Live byId := by
  funext aid
  unfold Has Live
  rw [get?_view, Option.isSome_map]

/-- The objects and the index once the entries of `front` are in. -/
structure Reached (start : Heap) (index : Dict Key Nat) (front : List Value) (heap : Heap)
    (byId : Dict Key Nat) : Prop where
  follows : Follows start index front front heap
  inside : ∀ key r, Dict.get? byId key = some r → Dict.get? index key = some r
  live : ∀ aid, Live byId aid ↔ Live index aid ∧ ¬ DisabledIn front aid

/-- References to the assertions of the list, by id. -/
structure Indexes (start : Heap) (index : Dict Key Nat) : Prop where
  apart : Apart index
  named : ∀ key r, Dict.get? index key = some r → ∃ key, idKey (start r) = .ok key

theorem Reached.step {central : Central} {start heap heap' : Heap} {index byId byId' : Dict Key Nat}
    {front : List Value} {changed : Value} (indexes : Indexes start index)
    (so : Reached start index front heap byId)
    (ran : changeAt central heap byId changed = (heap', .ok byId')) :
    Reached start index (front ++ [changed]) heap' byId' := by
  obtain ⟨aid, named, effect⟩ := changeAt_ok ran
  by_cases on : enabled changed = true
  · rw [if_pos on] at effect
    obtain ⟨rfl, r, found, rfl⟩ := effect
    have known := so.inside _ r found
    refine ⟨so.follows.entry indexes.apart known (indexes.named _ r known) named on, so.inside, ?_⟩
    intro other
    rw [so.live, disabledIn_append]
    have idle : ¬ DisabledIn [changed] other := by
      unfold DisabledIn
      simp [on]
    tauto
  · rw [if_neg on] at effect
    obtain ⟨rfl, rfl⟩ := effect
    refine ⟨so.follows.disabled on, ?_, ?_⟩
    · intro key r found
      rw [Dict.get?_erase] at found
      split at found
      · cases found
      · exact so.inside key r found
    · intro other
      have dropped : Live (Dict.erase byId (.str aid)) other ↔ Live byId other ∧ aid ≠ other := by
        unfold Live
        rw [Dict.get?_erase]
        by_cases same : aid = other
        · simp [same]
        · simp [same]
      have disables : DisabledIn [changed] other ↔ aid = other := by
        unfold DisabledIn
        simp [named, on]
      rw [dropped, so.live, disabledIn_append, disables]
      tauto

/-- A run of entries keeps the objects and the index as the entries describe them. -/
theorem reached {central : Central} {start : Heap} {index : Dict Key Nat}
    (indexes : Indexes start index) (front : List Value) {heap : Heap} {byId : Dict Key Nat}
    (ran : changesAt central start index front = (heap, .ok byId)) :
    Reached start index front heap byId := by
  induction front using List.reverseRecOn generalizing heap byId with
  | nil =>
      cases ran
      refine ⟨Follows.refl start index, fun _ _ => id, ?_⟩
      intro aid
      simp [DisabledIn]
  | append_singleton front changed ih =>
      obtain ⟨middle, before, ran, here⟩ := (changesAt_append front).mp ran
      exact (ih ran).step indexes here

/-- The entries go through at references exactly when they are admitted. -/
theorem changesAt_ends {central : Central} {start : Heap} {index : Dict Key Nat} (apart : Apart index)
    {changes : List Value} :
    (∃ heap byId, changesAt central start index changes = (heap, .ok byId)) ↔
      ChangesAdmitted central (Live index) changes := by
  rw [← has_view start, ← changes_end, ← changesAt_view central changes apart]
  rcases changesAt central start index changes with ⟨heap, e | byId⟩
  · constructor
    · rintro ⟨heap', byId, same⟩
      cases same
    · rintro ⟨byId, same⟩
      cases same
  · exact ⟨fun _ => ⟨_, rfl⟩, fun _ => ⟨heap, byId, rfl⟩⟩

/-! Which overlays are refused, and what they have written by then. -/

/-- The ids left by the entries of `front`. -/
def Remaining (ids : List Key) (front : List Value) (aid : Str) : Prop :=
  Key.str aid ∈ ids ∧ ¬ DisabledIn front aid

/-- An overlay refused when the first entries have set their severities, and the second
their evaluators. -/
inductive Refused (central : Central) (ids : List Key) (overlay : Dict Str Value) :
    List Value → List Value → Prop where
  | early (front : List Value) (changed : Value) (back : List Value)
      (split : listed (.dict overlay) "assertions" = front ++ changed :: back)
      (before : ChangesAdmitted central (fun aid => Key.str aid ∈ ids) front)
      (halts : Halts central (Remaining ids front) changed) : Refused central ids overlay front front
  | midway (front : List Value) (changed : Value) (back : List Value)
      (split : listed (.dict overlay) "assertions" = front ++ changed :: back)
      (before : ChangesAdmitted central (fun aid => Key.str aid ∈ ids) front)
      (halts : HaltsMidway central (Remaining ids front) changed) :
      Refused central ids overlay (front ++ [changed]) front
  | later
      (before : ChangesAdmitted central (fun aid => Key.str aid ∈ ids)
        (listed (.dict overlay) "assertions"))
      (after : ¬ AdditionsAdmitted (Remaining ids (listed (.dict overlay) "assertions"))
          (listed (.dict overlay) "add_assertions") ∨
        isTruthy (Dict.get? overlay "capability_grants") = true ∨
          isTruthy (Dict.get? overlay "network") = true) :
      Refused central ids overlay (listed (.dict overlay) "assertions")
        (listed (.dict overlay) "assertions")

theorem additions_raise {byId : Dict Key Value} {additions : List Value} {e : Exc}
    (raised : additions.foldlM applyAddition byId = .error e) : e.isA [overlayError] = true := by
  obtain ⟨added, -, mid, -, here⟩ :=
    Fold.foldlM_raises (P := fun _ => True) (fun _ _ _ _ _ _ => trivial) trivial raised
  unfold applyAddition at here
  split at here
  · cases here
    rfl
  · split at here
    · cases here
      rfl
    · cases here

theorem finish_refuses {ids : List Key} {byId : Dict Key Value} {overlay : Dict Str Value}
    {additions : List Value} :
    Refuses (finish ids byId overlay additions) ↔ ¬ AdditionsAdmitted (Has byId) additions ∨
      isTruthy (Dict.get? overlay "capability_grants") = true ∨
        isTruthy (Dict.get? overlay "network") = true := by
  rw [← additions_end]
  unfold finish
  cases ran : additions.foldlM applyAddition byId with
  | error e =>
      rw [error_bind, refuses_error]
      simp [additions_raise ran]
  | ok after =>
      rw [ok_bind]
      simp only [Fold.ends_ok, not_true_eq_false, false_or]
      split
      · rename_i granted
        exact ⟨fun _ => granted, fun _ => refuses_error.mpr rfl⟩
      · rename_i ungranted
        exact ⟨fun refused => absurd refused (refuses_ok _), fun granted => absurd granted ungranted⟩

theorem live_indexRefs {heap : Heap} {refs : List Nat} {ids : List Key}
    (read : (refs.map heap).mapM idKey = .ok ids) :
    Live (indexRefs ids refs) = fun aid => Key.str aid ∈ ids := by
  rw [← has_view heap, view_indexRefs, has_eq_ids read]

theorem indexes_indexRefs {heap : Heap} {refs : List Nat} {ids : List Key}
    (read : (refs.map heap).mapM idKey = .ok ids) : Indexes heap (indexRefs ids refs) where
  apart := apart_indexRefs read
  named key _ found := ⟨key, (mem_indexRefs read (Dict.mem_of_get? found)).2⟩

section

variable {central : Central} {ids : List Key} {heap heap' : Heap} {refs : List Nat}
  {overlay : Dict Str Value}

theorem Reached.remaining {front : List Value} {middle : Heap} {byId : Dict Key Nat}
    (read : (refs.map heap).mapM idKey = .ok ids)
    (so : Reached heap (indexRefs ids refs) front middle byId) : Live byId = Remaining ids front := by
  funext aid
  rw [so.live, live_indexRefs read]
  rfl

/-- A refused call has written what its overlay says, up to the refusal. -/
theorem refused_of_raises (read : (refs.map heap).mapM idKey = .ok ids) {e : Exc}
    (raised : applyEntriesAt central ids heap refs overlay (listed (.dict overlay) "assertions")
      (listed (.dict overlay) "add_assertions") = (heap', .error e))
    (kind : e.isA [overlayError] = true) :
    ∃ severities evaluators, Refused central ids overlay severities evaluators ∧
      Follows heap (indexRefs ids refs) severities evaluators heap' := by
  have indexes := indexes_indexRefs read
  have admitted : ∀ front middle byId,
      changesAt central heap (indexRefs ids refs) front = (middle, .ok byId) →
        ChangesAdmitted central (fun aid => Key.str aid ∈ ids) front := by
    intro front middle byId ran
    rw [← live_indexRefs read]
    exact (changesAt_ends indexes.apart).mp ⟨middle, byId, ran⟩
  unfold applyEntriesAt at raised
  rcases ran : changesAt central heap (indexRefs ids refs) (listed (.dict overlay) "assertions")
    with ⟨last, e' | byId⟩
  · rw [ran] at raised
    cases raised
    obtain ⟨front, changed, back, middle, byId, split, before, here⟩ := (changesAt_raises _).mp ran
    have so := reached indexes front before
    rcases changeAt_refuses.mp ⟨e, here, kind⟩ with ⟨halts, rfl⟩ | ⟨halts, aid, r, named, found, rfl⟩
    · rw [so.remaining read] at halts
      exact ⟨front, front, .early front changed back split (admitted _ _ _ before) halts, so.follows⟩
    · rw [so.remaining read] at halts
      refine ⟨_, _, .midway front changed back split (admitted _ _ _ before) halts, ?_⟩
      have known := so.inside _ r found
      obtain ⟨-, -, on, -⟩ := halts
      exact so.follows.severity indexes.apart known (indexes.named _ r known) named on
  · rw [ran] at raised
    obtain ⟨rfl, outcome⟩ := Prod.mk.inj raised
    have so := reached indexes _ ran
    refine ⟨_, _, .later (admitted _ _ _ ran) ?_, so.follows⟩
    have refused : Refuses (finish ids (view last byId) overlay
        (listed (.dict overlay) "add_assertions")) := ⟨e, outcome, kind⟩
    rw [finish_refuses, has_view, so.remaining read] at refused
    exact refused

/-- A refused overlay makes the call raise, with that written. -/
theorem raises_of_refused (read : (refs.map heap).mapM idKey = .ok ids)
    {severities evaluators : List Value} (refused : Refused central ids overlay severities evaluators) :
    ∃ heap' e, applyEntriesAt central ids heap refs overlay (listed (.dict overlay) "assertions")
        (listed (.dict overlay) "add_assertions") = (heap', .error e) ∧
      e.isA [overlayError] = true ∧
        Follows heap (indexRefs ids refs) severities evaluators heap' := by
  have indexes := indexes_indexRefs read
  have runs : ∀ front, ChangesAdmitted central (fun aid => Key.str aid ∈ ids) front →
      ∃ middle byId, changesAt central heap (indexRefs ids refs) front = (middle, .ok byId) := by
    intro front admitted
    rw [← live_indexRefs read] at admitted
    exact (changesAt_ends indexes.apart).mpr admitted
  unfold applyEntriesAt
  cases refused with
  | early front changed back split before halts =>
      obtain ⟨middle, byId, ran⟩ := runs _ before
      have so := reached indexes _ ran
      rw [← so.remaining read] at halts
      obtain ⟨e, here, kind⟩ := changeAt_refuses.mpr (.inl ⟨halts, rfl⟩)
      have raised := (changesAt_raises _).mpr ⟨_, changed, back, middle, byId, split, ran, here⟩
      rw [raised]
      exact ⟨middle, e, rfl, kind, so.follows⟩
  | midway front changed back split before halts =>
      obtain ⟨middle, byId, ran⟩ := runs _ before
      have so := reached indexes _ ran
      rw [← so.remaining read] at halts
      have midway := halts
      obtain ⟨aid, named, on, live, -⟩ := midway
      obtain ⟨r, found⟩ := Option.isSome_iff_exists.mp live
      obtain ⟨e, here, kind⟩ := changeAt_refuses.mpr (.inr ⟨halts, aid, r, named, found, rfl⟩)
      have raised := (changesAt_raises _).mpr ⟨_, changed, back, middle, byId, split, ran, here⟩
      rw [raised]
      have known := so.inside _ r found
      exact ⟨_, e, rfl, kind,
        so.follows.severity indexes.apart known (indexes.named _ r known) named on⟩
  | later before after =>
      obtain ⟨middle, byId, ran⟩ := runs _ before
      have so := reached indexes _ ran
      rw [← so.remaining read, ← has_view middle] at after
      obtain ⟨e, outcome, kind⟩ := (@finish_refuses ids _ _ _).mpr after
      rw [ran]
      exact ⟨middle, e, congrArg (Prod.mk middle) outcome, kind, so.follows⟩

end

/-- Every object of the caller's list is as it was, when OverlayError is raised. -/
def LeavesNoTrace (heap : Heap) (refs : List Nat) (overlay : Value) (bundle : Dict Str Value) : Prop :=
  ∀ e, (applyOverlayAt heap refs overlay bundle).2 = .error e → e.isA [overlayError] = true →
    ∀ r ∈ refs, (applyOverlayAt heap refs overlay bundle).1 r = heap r

/-- An overlay refused at one of its entries, or after them, has stated last, for every
assertion it names, the severity and the evaluator that the assertion has. -/
def Restated (assertions : List Value) (overlay : Value) (bundle : Dict Str Value) : Prop :=
  ∀ central ids kvs severities evaluators, readCentral bundle = .ok central →
    assertions.mapM idKey = .ok ids → overlay = .dict kvs →
    (∀ key ∈ [("assertions" : Str), "add_assertions"], Ends (entries kvs key)) →
    Refused central ids kvs severities evaluators →
      Restates (indexById ids assertions) severities "severity" ∧
        Restates (indexById ids assertions) evaluators "evaluator"

/-- What the call reads before its entries. -/
theorem preamble_ok {assertions : List Value} {overlay : Value} {bundle : Dict Str Value}
    {central : Central} {ids : List Key} {kvs : Dict Str Value} {changes additions : List Value} :
    preamble assertions overlay bundle = .ok (central, ids, kvs, changes, additions) ↔
      readCentral bundle = .ok central ∧ assertions.mapM idKey = .ok ids ∧ overlay = .dict kvs ∧
        (∀ key ∈ [("assertions" : Str), "add_assertions"], Ends (entries kvs key)) ∧
          changes = listed (.dict kvs) "assertions" ∧
            additions = listed (.dict kvs) "add_assertions" := by
  unfold preamble
  simp only [List.forall_mem_cons, List.not_mem_nil, false_implies, implies_true, and_true]
  constructor
  · intro ran
    obtain ⟨central', bundled, ran⟩ := bind_ok.mp ran
    obtain ⟨ids', read, ran⟩ := bind_ok.mp ran
    cases overlay with
    | dict kvs' =>
        obtain ⟨changes', first, ran⟩ := bind_ok.mp ran
        obtain ⟨additions', second, ran⟩ := bind_ok.mp ran
        cases ran
        exact ⟨bundled, read, rfl, ⟨⟨_, first⟩, ⟨_, second⟩⟩, entries_ok first, entries_ok second⟩
    | _ => cases ran
  · rintro ⟨bundled, read, rfl, ⟨first, second⟩, rfl, rfl⟩
    refine bind_ok.mpr ⟨central, bundled, bind_ok.mpr ⟨ids, read, ?_⟩⟩
    exact bind_ok.mpr ⟨_, entries_listed first, bind_ok.mpr ⟨_, entries_listed second, rfl⟩⟩

theorem leavesNoTrace_iff (heap : Heap) (refs : List Nat) (overlay : Value) (bundle : Dict Str Value) :
    LeavesNoTrace heap refs overlay bundle ↔ Restated (refs.map heap) overlay bundle := by
  have cleans : ∀ ids, (refs.map heap).mapM idKey = .ok ids → ∀ key r,
      Dict.get? (indexRefs ids refs) key = some r → r ∈ refs :=
    fun ids read key r found => (mem_indexRefs read (Dict.mem_of_get? found)).1
  constructor
  · intro clean central ids kvs severities evaluators bundled read shape arrays refused
    obtain ⟨heap', e, ran, kind, follows⟩ := raises_of_refused read refused
    have called : applyOverlayAt heap refs overlay bundle = (heap', .error e) := by
      unfold applyOverlayAt
      rw [preamble_ok.mpr ⟨bundled, read, shape, arrays, rfl, rfl⟩]
      exact ran
    rw [← view_indexRefs]
    refine (follows.clean_iff (cleans ids read)).mp ?_
    unfold LeavesNoTrace at clean
    rw [called] at clean
    exact clean e rfl kind
  · intro restated e raised kind r member
    unfold applyOverlayAt at raised ⊢
    rcases start : preamble (refs.map heap) overlay bundle with e' |
      ⟨central, ids, kvs, changes, additions⟩
    · rfl
    · rw [start] at raised
      obtain ⟨bundled, read, shape, arrays, rfl, rfl⟩ := preamble_ok.mp start
      obtain ⟨severities, evaluators, refused, follows⟩ :=
        refused_of_raises read (Prod.ext rfl raised) kind
      have stands := restated central ids kvs severities evaluators bundled read shape arrays refused
      rw [← view_indexRefs] at stands
      exact (follows.clean_iff (cleans ids read)).mpr stands r member

/-- A legal raise first, then the attack: the raise stays. -/
theorem raise_survives_refusal :
    ¬ LeavesNoTrace
      (fun _ => .dict [("id", .str "a1"), ("severity", .str "medium")]) [0]
      (.dict [("assertions", .list [.dict [("id", .str "a1"), ("severity", .str "critical")],
        .dict [("id", .str "a1"), ("disabled", .bool true)]])])
      [("required_assertions", .list [.str "a1"])] := by
  intro clean
  have kept := clean ⟨overlayError, ["overlay disables centrally required assertion ",
    .repr (.str "a1")]⟩ rfl rfl 0 List.mem_cons_self
  exact absurd kept (by decide)

end DevGate.Policy
