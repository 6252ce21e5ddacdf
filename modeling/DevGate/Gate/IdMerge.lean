import DevGate.Lib.KeyedMerge
import DevGate.Lib.Fold
import DevGate.Py.Exc

set_option autoImplicit false

/- `gate_overlay.merge_by_id`: the entries of a project's overlay merged over the
bundled ones, by an id that an entry may lack. -/
namespace DevGate.Gate.ById

open Py Keyed

/-- `entry.get(id_key)` as a key of `index`, nothing where it is None. A NaN is found again:
the JSON reader makes every NaN one object. -/
def entryId (idKey : Str) (entry : Value) : Except Exc (Option Key) := do
  match ← entry.get idKey with
  | none => return none
  | some .null => return none
  | some eid => return some (← eid.key)

/-- The body of the loop over the bundled entries, on `out` and `index`. -/
def indexEntry (idKey : Str) (state : List Value × Dict Key Nat) (entry : Value) :
    Except Exc (List Value × Dict Key Nat) := do
  match ← entryId idKey entry with
  | none => return (state.1 ++ [entry], state.2)
  | some eid => return (state.1 ++ [entry], Dict.set state.2 eid state.1.length)

/-- The body of the loop over the overlay. -/
def replaceEntry (idKey : Str) (state : List Value × Dict Key Nat) (entry : Value) :
    Except Exc (List Value × Dict Key Nat) := do
  match ← entryId idKey entry with
  | none => return (state.1 ++ [entry], state.2)
  | some eid =>
      match Dict.get? state.2 eid with
      | some i => return (state.1.set i entry, state.2)
      | none => return (state.1 ++ [entry], Dict.set state.2 eid state.1.length)

/-- `merge_by_id`. -/
def mergeById (bundled overlay : List Value) (idKey : Str) : Except Exc (List Value) := do
  let indexed ← bundled.foldlM (indexEntry idKey) ([], [])
  return (← overlay.foldlM (replaceEntry idKey) indexed).1

/-- The id of an entry that has one. -/
def id? (idKey : Str) (entry : Value) : Option Key := (entryId idKey entry).toOption.join

/-- An object whose id, where it has one, can be a key. -/
def Keyable (idKey : Str) (entry : Value) : Prop := ∃ key, entryId idKey entry = .ok key

section

variable {idKey : Str}

theorem entryId_of_keyable {entry : Value} (keyable : Keyable idKey entry) :
    entryId idKey entry = .ok (id? idKey entry) := by
  obtain ⟨key, read⟩ := keyable
  unfold id?
  rw [read]
  rfl

/-- The index finds the last entry of each id. -/
def Exact (idKey : Str) (out : List Value) (index : Dict Key Nat) : Prop :=
  ∀ k, Dict.get? index k = lastIndex (id? idKey) k out

theorem Exact.unkeyed {out : List Value} {index : Dict Key Nat} (exact_ : Exact idKey out index)
    {entry : Value} (unkeyed : id? idKey entry = none) : Exact idKey (out ++ [entry]) index := by
  intro k
  rw [lastIndex_concat, if_neg (by rw [unkeyed]; exact nofun)]
  exact exact_ k

theorem Exact.keyed {out : List Value} {index : Dict Key Nat} (exact_ : Exact idKey out index)
    {entry : Value} {key : Key} (keyed : id? idKey entry = some key) :
    Exact idKey (out ++ [entry]) (Dict.set index key out.length) := by
  intro k
  rw [lastIndex_concat, Dict.get?_set, keyed]
  simp only [Option.some.injEq]
  rw [exact_ k]

theorem indexEntry_keyable {out : List Value} {index : Dict Key Nat} (exact_ : Exact idKey out index)
    {entry : Value} (keyable : Keyable idKey entry) :
    ∃ index', indexEntry idKey (out, index) entry = .ok (out ++ [entry], index') ∧
      Exact idKey (out ++ [entry]) index' := by
  unfold indexEntry
  rw [entryId_of_keyable keyable, ok_bind]
  cases named : id? idKey entry with
  | none => exact ⟨index, rfl, exact_.unkeyed named⟩
  | some key => exact ⟨_, rfl, exact_.keyed named⟩

theorem indexEntries_keyable {bundled : List Value} (keyable : ∀ e ∈ bundled, Keyable idKey e) :
    ∃ index, bundled.foldlM (indexEntry idKey) ([], []) = .ok (bundled, index) ∧
      Exact idKey bundled index := by
  induction bundled using List.reverseRecOn with
  | nil => exact ⟨[], rfl, fun _ => rfl⟩
  | append_singleton front entry ih =>
      obtain ⟨index, ran, exact_⟩ := ih (fun e inside => keyable e (List.mem_append_left _ inside))
      obtain ⟨index', step, exact'⟩ :=
        indexEntry_keyable exact_ (keyable entry (List.mem_append_right _ List.mem_cons_self))
      refine ⟨index', ?_, exact'⟩
      rw [List.foldlM_append, ran, ok_bind, List.foldlM_cons, step]
      rfl

/-- One overlay entry is placed, and the index stays exact. -/
theorem replaceEntry_keyable {out : List Value} {index : Dict Key Nat}
    (exact_ : Exact idKey out index) {entry : Value} (keyable : Keyable idKey entry) :
    ∃ index', replaceEntry idKey (out, index) entry = .ok (place (id? idKey) out entry, index') ∧
      Exact idKey (place (id? idKey) out entry) index' := by
  unfold replaceEntry
  rw [entryId_of_keyable keyable, ok_bind]
  cases named : id? idKey entry with
  | none =>
      have added : place (id? idKey) out entry = out ++ [entry] :=
        place_of_absent _ (fun k same => by rw [named] at same; cases same)
      rw [added]
      exact ⟨index, rfl, exact_.unkeyed named⟩
  | some key =>
      dsimp only
      rw [exact_ key]
      cases found : lastIndex (id? idKey) key out with
      | none =>
          have added : place (id? idKey) out entry = out ++ [entry] :=
            place_of_absent _ (fun k same => by
              rw [named, Option.some.injEq] at same
              exact same ▸ found)
          rw [added]
          exact ⟨_, rfl, exact_.keyed named⟩
      | some i =>
          rw [place_of_found _ entry named found]
          refine ⟨index, rfl, fun k => ?_⟩
          rw [lastIndex_place_of_found _ named found]
          exact exact_ k

theorem replaceEntries_keyable {overlay : List Value} (keyable : ∀ e ∈ overlay, Keyable idKey e) :
    ∀ {out : List Value} {index : Dict Key Nat}, Exact idKey out index → ∃ index',
      overlay.foldlM (replaceEntry idKey) (out, index) =
        .ok (overlay.foldl (place (id? idKey)) out, index') := by
  induction overlay with
  | nil => exact fun {_ index} _ => ⟨index, rfl⟩
  | cons entry rest ih =>
      intro out index exact_
      obtain ⟨index', step, exact'⟩ := replaceEntry_keyable exact_ (keyable entry List.mem_cons_self)
      obtain ⟨last, ran⟩ := ih (fun e inside => keyable e (List.mem_cons_of_mem _ inside)) exact'
      refine ⟨last, ?_⟩
      rw [List.foldlM_cons, step, ok_bind]
      exact ran

/-- Entries whose ids can be keys are merged by placing the overlay's one after the other. -/
theorem mergeById_keyable {bundled overlay : List Value} (left : ∀ e ∈ bundled, Keyable idKey e)
    (right : ∀ e ∈ overlay, Keyable idKey e) :
    mergeById bundled overlay idKey = .ok (overlay.foldl (place (id? idKey)) bundled) := by
  obtain ⟨index, ran, exact_⟩ := indexEntries_keyable left
  obtain ⟨index', ran'⟩ := replaceEntries_keyable right exact_
  unfold mergeById
  rw [ran, ok_bind, ran']
  rfl

theorem keyable_of_foldlM {σ : Type} {step : σ → Value → Except Exc σ}
    (reads : ∀ s s' e, step s e = .ok s' → Keyable idKey e) {entries : List Value} :
    ∀ {s s' : σ}, entries.foldlM step s = .ok s' → ∀ e ∈ entries, Keyable idKey e := by
  induction entries with
  | nil => exact fun _ _ member => nomatch member
  | cons entry rest ih =>
      intro s s' ran e member
      rw [List.foldlM_cons] at ran
      obtain ⟨next, here, later⟩ := bind_ok.mp ran
      rcases List.mem_cons.mp member with rfl | member
      · exact reads s next e here
      · exact ih later e member

/-- The merge returns where every entry is an object whose id can be a key. -/
theorem mergeById_ok {bundled overlay out : List Value} :
    mergeById bundled overlay idKey = .ok out ↔
      ((∀ e ∈ bundled, Keyable idKey e) ∧ (∀ e ∈ overlay, Keyable idKey e)) ∧
        out = overlay.foldl (place (id? idKey)) bundled := by
  constructor
  · intro merged
    obtain ⟨indexed, first, second⟩ := bind_ok.mp merged
    obtain ⟨state, second, -⟩ := bind_ok.mp second
    have left : ∀ e ∈ bundled, Keyable idKey e := by
      apply keyable_of_foldlM _ first
      intro s s' e step
      obtain ⟨key, read, -⟩ := bind_ok.mp step
      exact ⟨key, read⟩
    have right : ∀ e ∈ overlay, Keyable idKey e := by
      apply keyable_of_foldlM _ second
      intro s s' e step
      obtain ⟨key, read, -⟩ := bind_ok.mp step
      exact ⟨key, read⟩
    rw [mergeById_keyable left right, Except.ok.injEq] at merged
    exact ⟨⟨left, right⟩, merged.symm⟩
  · rintro ⟨⟨left, right⟩, rfl⟩
    exact mergeById_keyable left right

end

end DevGate.Gate.ById
