import DevGate.Gate.ScaffoldText
import DevGate.Py.JsonRoundTrip

set_option autoImplicit false

/- The findings of each capability, and the blocks they are given. -/
namespace DevGate.Gate.Scaffold

open Py

def keyOf (b : Finding × Str) : Str × Str := b.1.key

section

variable (u : Chars) (cap : Str)

/-- A new block has an id of its own, in the grammar. -/
theorem newBlocks_ids (haveIds : List Str) (covered : List (Str × Str)) (fs : List Finding) :
    ((newBlocks u cap haveIds covered fs).map Prod.snd).Nodup ∧
      ∀ b ∈ newBlocks u cap haveIds covered fs, b.2 ∉ haveIds ∧ IsId b.2 := by
  induction fs generalizing haveIds covered with
  | nil => exact ⟨List.nodup_nil, fun b inside => by cases inside⟩
  | cons f fs ih =>
      unfold newBlocks
      split
      · exact ih haveIds covered
      · let rid := freeId haveIds (slug u cap 20 ++ "-" ++ slug u f.sourceId 40)
        have stem : IsId (slug u cap 20 ++ "-" ++ slug u f.sourceId 40) := by
          refine ⟨List.append_ne_nil_of_left_ne_nil
            (List.append_ne_nil_of_right_ne_nil _ (by decide)) _, fun c inside => ?_⟩
          rcases List.mem_append.mp inside with front | back
          · rcases List.mem_append.mp front with front | mark
            · exact slug_inId u cap 20 c front
            · rw [List.mem_singleton.mp mark]
              decide
          · exact slug_inId u f.sourceId 40 c back
        obtain ⟨nodup, each⟩ := ih (rid :: haveIds) (f.key :: covered)
        constructor
        · rw [List.map_cons, List.nodup_cons]
          refine ⟨fun inside => ?_, nodup⟩
          obtain ⟨b, member, same⟩ := List.mem_map.mp inside
          refine (each b member).1 ?_
          rw [same]
          exact List.mem_cons_self
        · rw [List.forall_mem_cons]
          refine ⟨⟨freeId_not_mem haveIds _, freeId_isId stem⟩, fun b member => ⟨fun inside => ?_, ?_⟩⟩
          · exact (each b member).1 (List.mem_cons_of_mem _ inside)
          · exact (each b member).2

/-- The blocks are for the findings without a provenance, one for each. -/
theorem newBlocks_keys (haveIds : List Str) (covered : List (Str × Str)) (fs : List Finding) :
    ((newBlocks u cap haveIds covered fs).map keyOf).Nodup ∧
      (∀ b ∈ newBlocks u cap haveIds covered fs, b.1 ∈ fs ∧ b.1.key ∉ covered) ∧
        ∀ f ∈ fs, f.key ∉ covered → f.key ∈ (newBlocks u cap haveIds covered fs).map keyOf := by
  induction fs generalizing haveIds covered with
  | nil => exact ⟨List.nodup_nil, (fun b inside => by cases inside), fun f inside => by cases inside⟩
  | cons f fs ih =>
      unfold newBlocks
      split
      · next known =>
          obtain ⟨nodup, each, all⟩ := ih haveIds covered
          refine ⟨nodup, fun b inside => ⟨List.mem_cons_of_mem _ (each b inside).1, (each b inside).2⟩, ?_⟩
          intro g inside unknown
          rcases List.mem_cons.mp inside with rfl | inside
          · exact absurd known unknown
          · exact all g inside unknown
      · next unknown =>
          obtain ⟨nodup, each, all⟩ := ih (freeId haveIds (slug u cap 20 ++ "-" ++
            slug u f.sourceId 40) :: haveIds) (f.key :: covered)
          refine ⟨?_, ?_, ?_⟩
          · rw [List.map_cons, List.nodup_cons]
            refine ⟨fun inside => ?_, nodup⟩
            obtain ⟨b, member, same⟩ := List.mem_map.mp inside
            refine (each b member).2 ?_
            have own : b.1.key = f.key := same
            rw [own]
            exact List.mem_cons_self
          · rw [List.forall_mem_cons]
            refine ⟨⟨List.mem_cons_self, unknown⟩, fun b inside => ?_⟩
            obtain ⟨member, free⟩ := each b inside
            exact ⟨List.mem_cons_of_mem _ member, fun old => free (List.mem_cons_of_mem _ old)⟩
          · intro g inside free
            rw [List.map_cons, List.mem_cons]
            by_cases same : g.key = f.key
            · exact .inl same
            · rcases List.mem_cons.mp inside with rfl | inside
              · exact absurd rfl same
              · refine .inr (all g inside ?_)
                rw [List.mem_cons, not_or]
                exact ⟨same, free⟩

end

/-! The findings of a capability. -/

theorem distinct_subset {fs : List Finding} : ∀ g ∈ distinct fs, g ∈ fs := by
  intro g inside
  obtain ⟨kv, member, rfl⟩ := List.mem_map.mp inside
  obtain ⟨f, known, rfl⟩ := List.mem_map.mp (Dict.mem_of_mem_ofPairs member)
  exact known

theorem distinct_complete {fs : List Finding} {f : Finding} (inside : f ∈ fs) :
    ∃ g ∈ distinct fs, g.key = f.key := by
  have pair : (f.key, f) ∈ (fs.map (fun f => (f.key, f))).reverse :=
    List.mem_reverse.mpr (List.mem_map_of_mem inside)
  have found : (Dict.get? (Dict.ofPairs (fs.map (fun f => (f.key, f)))) f.key).isSome = true := by
    rw [Dict.get?_ofPairs, Dict.get?_isSome_iff]
    exact List.mem_map_of_mem (f := Prod.fst) pair
  obtain ⟨g, got⟩ := Option.isSome_iff_exists.mp found
  have member := Dict.mem_of_get? got
  refine ⟨g, List.mem_map_of_mem (f := Prod.snd) member, ?_⟩
  obtain ⟨own, _, same⟩ := List.mem_map.mp (Dict.mem_of_mem_ofPairs member)
  obtain ⟨key, rfl⟩ := Prod.mk.inj same
  exact key

/-- Every finding is among those of its capability, and they are all of it. -/
structure Grouped (capability : Option Str) (findings : List Finding)
    (groups : Dict Str (List Finding)) : Prop where
  nodup : (groups.map Prod.fst).Nodup
  sound : ∀ g ∈ groups, ∀ f ∈ g.2, f ∈ findings ∧ capOf capability f = g.1
  complete : ∀ f ∈ findings, ∃ g ∈ groups, g.1 = capOf capability f ∧ f ∈ g.2

theorem Grouped.add {capability : Option Str} {findings : List Finding}
    {groups : Dict Str (List Finding)} (grouped : Grouped capability findings groups) (f : Finding) :
    Grouped capability (findings ++ [f]) (Dict.set groups (capOf capability f)
      ((Dict.get? groups (capOf capability f)).getD [] ++ [f])) where
  nodup := Dict.nodup_set grouped.nodup _ _
  sound := by
    intro g inside h member
    rcases Dict.mem_set inside with rfl | old
    · dsimp only at member ⊢
      rcases List.mem_append.mp member with known | own
      · cases found : Dict.get? groups (capOf capability f) with
        | none =>
            rw [found] at known
            cases known
        | some fs =>
            rw [found] at known
            obtain ⟨listed, same⟩ := grouped.sound _ (Dict.mem_of_get? found) h known
            exact ⟨List.mem_append_left _ listed, same⟩
      · rw [List.mem_singleton.mp own]
        exact ⟨List.mem_append_right _ (List.mem_singleton_self f), rfl⟩
    · obtain ⟨listed, same⟩ := grouped.sound g old h member
      exact ⟨List.mem_append_left _ listed, same⟩
  complete := by
    intro h listed
    have held (cap : Str) (fs : List Finding) (found : Dict.get? (Dict.set groups (capOf capability f)
        ((Dict.get? groups (capOf capability f)).getD [] ++ [f])) cap = some fs) (member : h ∈ fs)
        (same : cap = capOf capability h) : ∃ g ∈ Dict.set groups (capOf capability f)
          ((Dict.get? groups (capOf capability f)).getD [] ++ [f]), g.1 = capOf capability h ∧ h ∈ g.2 :=
      ⟨_, Dict.mem_of_get? found, same, member⟩
    rcases List.mem_append.mp listed with known | own
    · obtain ⟨g, member, same, inside⟩ := grouped.complete h known
      have got := Dict.get?_of_mem grouped.nodup member
      by_cases here : capOf capability f = g.1
      · refine held g.1 _ ((Dict.get?_set groups _ g.1 _).trans (if_pos here)) ?_ same
        rw [here, got]
        exact List.mem_append_left _ inside
      · exact held g.1 g.2 (((Dict.get?_set groups _ g.1 _).trans (if_neg here)).trans got) inside same
    · rw [List.mem_singleton.mp own] at held ⊢
      exact held _ _ (Dict.get?_set_self groups _ _)
        (List.mem_append_right _ (List.mem_singleton_self f)) rfl

theorem grouped_byCap (capability : Option Str) (findings : List Finding) :
    Grouped capability findings (byCap capability findings) := by
  unfold byCap
  induction findings using List.reverseRecOn with
  | nil => exact ⟨List.nodup_nil, (fun g inside => by cases inside), fun f inside => by cases inside⟩
  | append_singleton findings f ih =>
      rw [List.foldl_append, List.foldl_cons, List.foldl_nil]
      exact ih.add f

theorem grouped_sorted (capability : Option Str) (findings : List Finding) :
    Grouped capability findings (Json.sortKeys (byCap capability findings)) := by
  have grouped := grouped_byCap capability findings
  have perm := Json.sortKeys_perm (byCap capability findings)
  exact
    { nodup := ((perm.map Prod.fst).nodup_iff).mpr grouped.nodup
      sound := fun g inside => grouped.sound g (perm.mem_iff.mp inside)
      complete := fun f listed => by
        obtain ⟨g, inside, same⟩ := grouped.complete f listed
        exact ⟨g, perm.mem_iff.mpr inside, same⟩ }

end DevGate.Gate.Scaffold
