import DevGate.Py.Str

set_option autoImplicit false

/- `r in s` is `r <:+: s`; `s.replace(old, new)` for a non-empty `old`. -/
namespace Py.Str

/-- Replacement from left to right; the first argument counts the characters of a
match still to be dropped. -/
def replaceFrom (old new : Str) : Nat → Str → Str
  | _, [] => []
  | n + 1, _ :: rest => replaceFrom old new n rest
  | 0, c :: rest =>
      if old <+: c :: rest then new ++ replaceFrom old new (old.length - 1) rest
      else c :: replaceFrom old new 0 rest

def replaceAll (old new s : Str) : Str := replaceFrom old new 0 s

/-- Two texts that may share characters where both stand in a third. -/
def Overlaps (r new : Str) : Prop :=
  r <:+: new ∨ new <:+: r ∨
    ∃ x, x ≠ [] ∧ (x <:+ r ∧ x <+: new ∨ x <+: r ∧ x <:+ new)

/-- What does not overlap an inserted text stands on one side of it. -/
theorem infix_of_apart {r new front back : Str} (apart : ¬ Overlaps r new)
    (found : r <:+: front ++ (new ++ back)) : r <:+: front ∨ r <:+: back := by
  obtain ⟨a, b, whole⟩ := found
  rw [List.append_assoc] at whole
  rcases List.append_eq_append_iff.mp whole with ⟨c, rfl, rest⟩ | ⟨c, rfl, rest⟩
  · -- it starts before the inserted text
    rcases List.append_eq_append_iff.mp rest with ⟨d, rfl, -⟩ | ⟨d, rfl, later⟩
    · exact Or.inl ⟨a, d, List.append_assoc _ _ _⟩
    · rcases List.append_eq_append_iff.mp later with ⟨e, rfl, -⟩ | ⟨e, rfl, -⟩
      · exact absurd (Or.inr (Or.inl ⟨c, e, List.append_assoc _ _ _⟩)) apart
      · by_cases none : d = []
        · subst none
          exact Or.inl ⟨a, [], by simp⟩
        · have shared : d <:+ c ++ d ∧ d <+: d ++ e := ⟨List.suffix_append _ _, List.prefix_append _ _⟩
          exact absurd (Or.inr (Or.inr ⟨d, none, Or.inl shared⟩)) apart
  · rcases List.append_eq_append_iff.mp rest with ⟨d, rfl, rfl⟩ | ⟨d, rfl, later⟩
    · exact Or.inr ⟨d, b, List.append_assoc _ _ _⟩
    · rcases List.append_eq_append_iff.mp later with ⟨e, rfl, -⟩ | ⟨e, rfl, rfl⟩
      · exact absurd (Or.inl ⟨c, e, List.append_assoc _ _ _⟩) apart
      · by_cases none : d = []
        · subst none
          exact Or.inr ⟨[], b, by simp⟩
        · have shared : d <+: d ++ e ∧ d <:+ c ++ d := ⟨List.prefix_append _ _, List.suffix_append _ _⟩
          exact absurd (Or.inr (Or.inr ⟨d, none, Or.inr shared⟩)) apart

/-- Replacing one text brings no other about that is apart from what is inserted. -/
theorem infix_of_replaceFrom {r old new : Str} (apart : ¬ Overlaps r new) (n : Nat) (s front : Str)
    (fresh : n = 0 ∨ front = []) (found : r <:+: front ++ replaceFrom old new n s) :
    r <:+: front ++ s := by
  induction n, s using replaceFrom.induct old generalizing front with
  | case1 n => simpa [replaceFrom] using found
  | case2 n c rest ih =>
      have empty : front = [] := fresh.resolve_left (Nat.succ_ne_zero n)
      subst empty
      rw [replaceFrom] at found
      exact List.infix_cons (ih [] (Or.inr rfl) found)
  | case3 c rest matched ih =>
      simp only [replaceFrom, matched, ↓reduceIte] at found
      rcases infix_of_apart apart found with left | right
      · exact left.trans (List.prefix_append _ _).isInfix
      · have later := ih [] (Or.inr rfl) right
        exact later.trans ((List.suffix_cons c rest).trans (List.suffix_append _ _)).isInfix
  | case4 c rest other ih =>
      simp only [replaceFrom, other, ↓reduceIte] at found
      have moved : front ++ c :: replaceFrom old new 0 rest =
          (front ++ [c]) ++ replaceFrom old new 0 rest := by simp
      rw [moved] at found
      have later := ih (front ++ [c]) (Or.inl rfl) found
      simpa using later

theorem infix_of_replaceAll {r old new s : Str} (apart : ¬ Overlaps r new)
    (found : r <:+: replaceAll old new s) : r <:+: s :=
  infix_of_replaceFrom apart 0 s [] (Or.inl rfl) found

theorem not_infix_of_clear {r front s : Str} (filled : r ≠ [])
    (clear : ∀ k < front.length, ¬ r <+: (front ++ s).drop k) : ¬ r <:+: front := by
  intro ⟨a, b, whole⟩
  have long := congrArg List.length whole
  simp only [List.length_append] at long
  have some_ := List.length_pos_iff.mpr filled
  apply clear a.length (by omega)
  rw [← whole, List.append_assoc, List.append_assoc, List.drop_left]
  exact List.prefix_append _ _

/-- Where no match starts in the text read so far, none is left of the replaced one. -/
theorem not_infix_replaceFrom {r new : Str} (filled : r ≠ []) (apart : ¬ Overlaps r new) (n : Nat)
    (s front : Str) (fresh : n = 0 ∨ front = [])
    (clear : ∀ k < front.length, ¬ r <+: (front ++ s).drop k) :
    ¬ r <:+: front ++ replaceFrom r new n s := by
  induction n, s using replaceFrom.induct r generalizing front with
  | case1 n =>
      rw [replaceFrom, List.append_nil]
      exact not_infix_of_clear filled clear
  | case2 n c rest ih =>
      have empty : front = [] := fresh.resolve_left (Nat.succ_ne_zero n)
      subst empty
      rw [replaceFrom]
      exact ih [] (Or.inr rfl) (by simp)
  | case3 c rest matched ih =>
      simp only [replaceFrom, matched, ↓reduceIte]
      intro found
      rcases infix_of_apart apart found with left | right
      · exact not_infix_of_clear filled clear left
      · exact ih [] (Or.inr rfl) (by simp) right
  | case4 c rest other ih =>
      simp only [replaceFrom, other, ↓reduceIte]
      have moved : front ++ c :: replaceFrom r new 0 rest =
          (front ++ [c]) ++ replaceFrom r new 0 rest := by simp
      have text : front ++ [c] ++ rest = front ++ c :: rest := by simp
      rw [moved]
      apply ih (front ++ [c]) (Or.inl rfl)
      rw [text]
      intro k small
      rw [List.length_append, List.length_singleton] at small
      by_cases last : k = front.length
      · rw [last, List.drop_left]
        exact other
      · exact clear k (by omega)

theorem not_infix_replaceAll {r new : Str} (filled : r ≠ []) (apart : ¬ Overlaps r new) (s : Str) :
    ¬ r <:+: replaceAll r new s :=
  not_infix_replaceFrom filled apart 0 s [] (Or.inl rfl) (by simp)

/-- After all replacements, nothing is left of a replaced text apart from what is inserted. -/
theorem not_infix_foldl_replaceAll {r new : Str} {values : List Str} (filled : r ≠ [])
    (apart : ¬ Overlaps r new) (listed : r ∈ values) (s : Str) :
    ¬ r <:+: values.foldl (fun s q => replaceAll q new s) s := by
  have later : ∀ (qs : List Str) (t : Str), r <:+: qs.foldl (fun s q => replaceAll q new s) t →
      r <:+: t := by
    intro qs
    induction qs with
    | nil => exact fun t found => found
    | cons q qs ih => exact fun t found => infix_of_replaceAll apart (ih _ found)
  induction values generalizing s with
  | nil => cases listed
  | cons q values ih =>
      rw [List.foldl_cons]
      rcases List.mem_cons.mp listed with rfl | deeper
      · exact fun found => not_infix_replaceAll filled apart s (later values _ found)
      · exact ih deeper _

end Py.Str
