import Mathlib.Data.List.Basic

set_option autoImplicit false

/- Replacement of a sequence by another wherever it stands, from left to right. -/
namespace Substitute

variable {α : Type} [DecidableEq α]

/-- The first argument counts the letters of a match still to be dropped. -/
def replaceFrom (old new : List α) : Nat → List α → List α
  | _, [] => []
  | n + 1, _ :: rest => replaceFrom old new n rest
  | 0, a :: rest =>
      if old.isPrefixOf (a :: rest) then new ++ replaceFrom old new (old.length - 1) rest
      else a :: replaceFrom old new 0 rest

def replaceAll (old new s : List α) : List α := replaceFrom old new 0 s

section

variable {old new : List α}

theorem replaceFrom_drop (n : Nat) (s : List α) :
    replaceFrom old new n s = replaceAll old new (s.drop n) := by
  induction s generalizing n with
  | nil =>
      rw [List.drop_nil]
      cases n <;> rfl
  | cons a rest ih =>
      cases n with
      | zero => rfl
      | succ n => exact ih n

/-- Where it stands it is replaced. -/
theorem replaceAll_match (some_ : old ≠ []) (rest : List α) :
    replaceAll old new (old ++ rest) = new ++ replaceAll old new rest := by
  obtain ⟨a, later, rfl⟩ := List.exists_cons_of_ne_nil some_
  have here : (a :: later).isPrefixOf (a :: (later ++ rest)) = true :=
    List.isPrefixOf_iff_prefix.mpr (List.prefix_append (a :: later) rest)
  rw [replaceAll, List.cons_append, replaceFrom, if_pos here, replaceFrom_drop, List.length_cons,
    Nat.add_sub_cancel, List.drop_left]

theorem replaceAll_other {a : α} {rest : List α} (other : ¬ old <+: a :: rest) :
    replaceAll old new (a :: rest) = a :: replaceAll old new rest := by
  rw [replaceAll, replaceFrom, if_neg (fun here => other (List.isPrefixOf_iff_prefix.mp here))]
  rfl

/-- A part where it starts nowhere stays as it is. -/
theorem replaceAll_pass {front rest : List α}
    (clear : ∀ i < front.length, ¬ old <+: (front ++ rest).drop i) :
    replaceAll old new (front ++ rest) = front ++ replaceAll old new rest := by
  induction front with
  | nil => rfl
  | cons a front ih =>
      have first : ¬ old <+: a :: (front ++ rest) := clear 0 (Nat.succ_pos _)
      rw [List.cons_append, replaceAll_other first, ih, List.cons_append]
      intro i small
      exact clear (i + 1) (Nat.succ_lt_succ small)

/-- Induction along a replacement: where the sequence stands what comes after it is next, and
elsewhere the next letter. -/
theorem replaceAll_induction {P : List α → Prop} (some_ : old ≠ []) (nil : P [])
    (found : ∀ rest, P rest → P (old ++ rest))
    (passed : ∀ a rest, ¬ old <+: a :: rest → P rest → P (a :: rest)) (s : List α) : P s := by
  induction long : s.length using Nat.strongRecOn generalizing s with
  | ind n ih =>
      subst long
      by_cases here : old <+: s
      · obtain ⟨rest, rfl⟩ := here
        have filled := List.length_pos_iff.mpr some_
        have shorter : rest.length < (old ++ rest).length := by
          rw [List.length_append]
          omega
        exact found rest (ih _ shorter rest rfl)
      · cases s with
        | nil => exact nil
        | cons a rest => exact passed a rest here (ih _ (Nat.lt_succ_self _) rest rfl)

/-- What stands in the result was put in or was there before. -/
theorem mem_replaceFrom {n : Nat} {s : List α} {a : α} (inside : a ∈ replaceFrom old new n s) :
    a ∈ new ∨ a ∈ s := by
  induction n, s using replaceFrom.induct old with
  | case1 n =>
      rw [replaceFrom] at inside
      exact Or.inr inside
  | case2 n b rest ih =>
      rw [replaceFrom] at inside
      exact (ih inside).imp_right (List.mem_cons_of_mem b)
  | case3 b rest here ih =>
      rw [replaceFrom, if_pos here, List.mem_append] at inside
      rcases inside with put | later
      · exact Or.inl put
      · exact (ih later).imp_right (List.mem_cons_of_mem b)
  | case4 b rest other ih =>
      rw [replaceFrom, if_neg other, List.mem_cons] at inside
      rcases inside with rfl | later
      · exact Or.inr List.mem_cons_self
      · exact (ih later).imp_right (List.mem_cons_of_mem b)

/-- A letter that is replaced is gone. -/
theorem not_mem_replaceAll {a b : α} (other : b ≠ a) (s : List α) : a ∉ replaceAll [a] [b] s := by
  induction s with
  | nil => exact List.not_mem_nil
  | cons c rest ih =>
      by_cases same : c = a
      · subst same
        have split : c :: rest = [c] ++ rest := rfl
        rw [split, replaceAll_match (by simp), List.singleton_append, List.mem_cons, not_or]
        exact ⟨Ne.symm other, ih⟩
      · rw [replaceAll_other (by rw [List.cons_prefix_cons]; exact fun front => same front.1.symm),
          List.mem_cons, not_or]
        exact ⟨Ne.symm same, ih⟩

end

end Substitute
