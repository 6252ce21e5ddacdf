import Mathlib.Data.List.Infix

set_option autoImplicit false

/- Tables that answer a path by the one longest key above it, as nested mounts do. -/
namespace PrefixTable

variable {α β : Type} [DecidableEq α]

/-- No key above the path is longer. -/
def longest (table : List (List α × β)) (path : List α) (key : List α) : Bool :=
  table.all (fun e => !e.1.isPrefixOf path || e.1.length ≤ key.length)

/-- The entry with the longest key above the path, where it is the only one, with
what follows the key. -/
def lookup (table : List (List α × β)) (path : List α) : Option (β × List α) :=
  match table.filter (fun e => e.1.isPrefixOf path && longest table path e.1) with
  | [e] => some (e.2, path.drop e.1.length)
  | _ => none

theorem longest_iff {table : List (List α × β)} {path key : List α} :
    longest table path key = true ↔ ∀ e ∈ table, e.1 <+: path → e.1.length ≤ key.length := by
  unfold longest
  rw [List.all_eq_true]
  apply forall₂_congr
  intro e _
  rw [Bool.or_eq_true, Bool.not_eq_true', decide_eq_true_eq, ← Bool.not_eq_true,
    List.isPrefixOf_iff_prefix, ← imp_iff_not_or]

/-- An answer is an entry of the table that every other entry above the path is
shorter than. -/
theorem lookup_eq_some {table : List (List α × β)} {path rest : List α} {b : β} :
    lookup table path = some (b, rest) ↔
      ∃ front key back, table = front ++ (key, b) :: back ∧ path = key ++ rest ∧
        ∀ e ∈ front ++ back, e.1 <+: path → e.1.length < key.length := by
  constructor
  · intro found
    unfold lookup at found
    split at found
    · rename_i e only
      obtain ⟨key, b'⟩ := e
      rw [Option.some.injEq, Prod.mk.injEq] at found
      obtain ⟨rfl, rest_eq⟩ := found
      obtain ⟨front, back, split, early, here, late⟩ := List.filter_eq_cons_iff.mp only
      rw [Bool.and_eq_true, List.isPrefixOf_iff_prefix, longest_iff] at here
      obtain ⟨⟨tail, whole⟩, top⟩ := here
      refine ⟨front, key, back, split, ?_, ?_⟩
      · rw [← rest_eq, ← whole, List.drop_left]
      · intro e member above
        have inside : e ∈ table := by
          rw [split]
          rcases List.mem_append.mp member with first | second
          · exact List.mem_append_left _ first
          · exact List.mem_append_right _ (List.mem_cons_of_mem _ second)
        have le := top e inside above
        by_contra notLess
        have picked : (e.1.isPrefixOf path && longest table path e.1) = true := by
          rw [Bool.and_eq_true, List.isPrefixOf_iff_prefix, longest_iff]
          exact ⟨above, fun e' inside' above' => (top e' inside' above').trans (not_lt.mp notLess)⟩
        rcases List.mem_append.mp member with first | second
        · exact early e first picked
        · have kept : e ∈ back.filter (fun e => e.1.isPrefixOf path && longest table path e.1) :=
            List.mem_filter.mpr ⟨second, picked⟩
          rw [late] at kept
          exact absurd kept List.not_mem_nil
    · cases found
  · rintro ⟨front, key, back, rfl, rfl, shorter⟩
    have others (e : List α × β) (member : e ∈ front ++ back) :
        (e.1.isPrefixOf (key ++ rest) &&
          longest (front ++ (key, b) :: back) (key ++ rest) e.1) = false := by
      rw [← Bool.not_eq_true, Bool.and_eq_true, List.isPrefixOf_iff_prefix, longest_iff]
      rintro ⟨above, top⟩
      have le := top (key, b) (List.mem_append_right _ List.mem_cons_self) (List.prefix_append _ _)
      exact absurd (shorter e member above) (not_lt.mpr le)
    have here : (key.isPrefixOf (key ++ rest) &&
        longest (front ++ (key, b) :: back) (key ++ rest) key) = true := by
      rw [Bool.and_eq_true, List.isPrefixOf_iff_prefix, longest_iff]
      refine ⟨List.prefix_append _ _, fun e member above => ?_⟩
      rcases List.mem_append.mp member with first | second
      · exact (shorter e (List.mem_append_left _ first) above).le
      · rcases List.mem_cons.mp second with rfl | later
        · exact le_refl _
        · exact (shorter e (List.mem_append_right _ later) above).le
    have only : (front ++ (key, b) :: back).filter (fun e => e.1.isPrefixOf (key ++ rest) &&
        longest (front ++ (key, b) :: back) (key ++ rest) e.1) = [(key, b)] := by
      refine List.filter_eq_cons_iff.mpr ⟨front, back, rfl, fun e member => ?_, here, ?_⟩
      · rw [others e (List.mem_append_left _ member)]
        exact Bool.false_ne_true
      · rw [List.filter_eq_nil_iff]
        intro e member
        rw [others e (List.mem_append_right _ member)]
        exact Bool.false_ne_true
    unfold lookup
    rw [only]
    simp

example : lookup [([1], "a"), ([1, 2], "b")] [1, 2, 3] = some ("b", [3]) := by decide

end PrefixTable
