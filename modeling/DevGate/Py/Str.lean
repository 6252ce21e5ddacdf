import Mathlib

set_option autoImplicit false

/- Python's `str`: a sequence of code points, lone surrogates included. -/
namespace Py

abbrev Chr := Fin 0x110000

instance Chr.neZero : NeZero 0x110000 := ⟨by decide⟩

abbrev Str := List Chr

instance Chr.lawfulBEq : LawfulBEq Chr := inferInstance

instance Str.lawfulBEq : LawfulBEq Str := inferInstance

def Chr.ofChar (c : Char) : Chr :=
  ⟨c.toNat, by
    have valid := c.valid
    simp only [UInt32.isValidChar, Nat.isValidChar] at valid
    show c.val.toNat < 0x110000
    omega⟩

def Str.ofString (s : String) : Str := s.toList.map Chr.ofChar

instance : Coe Char Chr := ⟨Chr.ofChar⟩
instance : Coe String Str := ⟨Str.ofString⟩

theorem Chr.ofChar_injective : Function.Injective Chr.ofChar := by
  intro a b same
  have value := congrArg (fun c : Chr => c.val) same
  exact Char.toNat_inj.mp value

theorem Chr.ofChar_inj (a b : Char) : Chr.ofChar a = Chr.ofChar b ↔ a = b :=
  Chr.ofChar_injective.eq_iff

theorem Str.ofString_injective : Function.Injective Str.ofString := by
  intro a b same
  exact String.toList_inj.mp (List.map_injective_iff.mpr Chr.ofChar_injective same)

@[simp] theorem Str.ofString_inj (a b : String) : Str.ofString a = Str.ofString b ↔ a = b :=
  Str.ofString_injective.eq_iff

/-- `s <= t`, by code points. -/
def Str.le : Str → Str → Bool
  | [], _ => true
  | _ :: _, [] => false
  | c :: s, d :: t => c < d || (c == d && Str.le s t)

theorem Str.le_refl (s : Str) : Str.le s s = true := by
  induction s with
  | nil => rfl
  | cons c s ih => simp [Str.le, ih]

theorem Str.le_total (s t : Str) : (Str.le s t || Str.le t s) = true := by
  induction s generalizing t with
  | nil => simp [Str.le]
  | cons c s ih =>
      cases t with
      | nil => simp [Str.le]
      | cons d t =>
          have tails := ih t
          simp only [Str.le, Bool.or_eq_true, Bool.and_eq_true, decide_eq_true_eq,
            beq_iff_eq] at tails ⊢
          rcases lt_trichotomy c d with before | same | after
          · exact Or.inl (Or.inl before)
          · subst same
            simpa using tails
          · exact Or.inr (Or.inl after)

theorem Str.le_antisymm {s t : Str} (forth : Str.le s t = true) (back : Str.le t s = true) :
    s = t := by
  induction s generalizing t with
  | nil =>
      cases t with
      | nil => rfl
      | cons d t => simp [Str.le] at back
  | cons c s ih =>
      cases t with
      | nil => simp [Str.le] at forth
      | cons d t =>
          simp only [Str.le, Bool.or_eq_true, Bool.and_eq_true, decide_eq_true_eq,
            beq_iff_eq] at forth back
          rcases forth with before | ⟨rfl, forth⟩
          · rcases back with after | ⟨rfl, -⟩
            · exact absurd before (lt_asymm after)
            · exact absurd before (lt_irrefl _)
          · rcases back with after | ⟨-, back⟩
            · exact absurd after (lt_irrefl _)
            · rw [ih forth back]

theorem Str.le_trans {s t u : Str} (first : Str.le s t = true) (second : Str.le t u = true) :
    Str.le s u = true := by
  induction s generalizing t u with
  | nil => rfl
  | cons c s ih =>
      cases t with
      | nil => simp [Str.le] at first
      | cons d t =>
          cases u with
          | nil => simp [Str.le] at second
          | cons e u =>
              simp only [Str.le, Bool.or_eq_true, Bool.and_eq_true, decide_eq_true_eq,
                beq_iff_eq] at first second ⊢
              rcases first with before | ⟨rfl, first⟩
              · rcases second with after | ⟨rfl, -⟩
                · exact Or.inl (lt_trans before after)
                · exact Or.inl before
              · rcases second with after | ⟨rfl, second⟩
                · exact Or.inl after
                · exact Or.inr ⟨rfl, ih first second⟩

/-- `sorted(names)`. -/
def Str.sorted (names : List Str) : List Str := names.insertionSort (fun s t => Str.le s t = true)

theorem Str.perm_sorted (names : List Str) : List.Perm (Str.sorted names) names :=
  List.perm_insertionSort _ names

@[simp] theorem Str.sorted_eq_nil_iff (names : List Str) : Str.sorted names = [] ↔ names = [] := by
  constructor
  · intro empty
    have same := Str.perm_sorted names
    rw [empty] at same
    exact same.symm.eq_nil
  · rintro rfl
    rfl

/-- `s.split(sep)` for a one-character separator: never empty. -/
def Str.split (sep : Chr) : Str → List Str
  | [] => [[]]
  | c :: rest =>
      if c = sep then [] :: Str.split sep rest
      else match Str.split sep rest with
        | [] => [[c]]
        | piece :: pieces => (c :: piece) :: pieces

/-- `sep.join(parts)`. -/
def Str.join (sep : Str) : List Str → Str
  | [] => []
  | [part] => part
  | part :: next :: rest => part ++ sep ++ Str.join sep (next :: rest)

theorem Str.split_ne_nil (sep : Chr) (s : Str) : Str.split sep s ≠ [] := by
  cases s with
  | nil => simp [Str.split]
  | cons c rest =>
      unfold Str.split
      split
      · exact List.cons_ne_nil _ _
      · split <;> exact List.cons_ne_nil _ _

theorem Str.split_cons_ne (sep c : Chr) (rest : Str) (other : c ≠ sep) :
    ∃ piece pieces, Str.split sep rest = piece :: pieces ∧
      Str.split sep (c :: rest) = (c :: piece) :: pieces := by
  obtain ⟨piece, pieces, cut⟩ := List.exists_cons_of_ne_nil (Str.split_ne_nil sep rest)
  exact ⟨piece, pieces, cut, by simp only [Str.split, other, cut, ↓reduceIte]⟩

@[simp] theorem Str.split_cons_sep (sep : Chr) (rest : Str) :
    Str.split sep (sep :: rest) = [] :: Str.split sep rest := by
  simp [Str.split]

theorem Str.split_of_not_mem (sep : Chr) (s : Str) (absent : sep ∉ s) :
    Str.split sep s = [s] := by
  induction s with
  | nil => rfl
  | cons c rest ih =>
      simp only [List.mem_cons, not_or] at absent
      simp only [Str.split, Ne.symm absent.1, ih absent.2, ↓reduceIte]

/-- Every separator in the text cuts it, whatever stands on either side. -/
theorem Str.split_append_sep (sep : Chr) (front back : Str) :
    Str.split sep (front ++ sep :: back) = Str.split sep front ++ Str.split sep back := by
  induction front with
  | nil => simp [Str.split]
  | cons c rest ih =>
      by_cases same : c = sep
      · subst same
        simp only [List.cons_append, Str.split_cons_sep, ih]
      · obtain ⟨piece, pieces, cut, whole⟩ := Str.split_cons_ne sep c rest same
        obtain ⟨piece', pieces', cut', whole'⟩ :=
          Str.split_cons_ne sep c (rest ++ sep :: back) same
        rw [ih, cut, List.cons_append] at cut'
        obtain ⟨rfl, rfl⟩ := List.cons.inj cut'
        rw [List.cons_append, whole', whole, List.cons_append]

theorem Str.not_mem_of_mem_split (sep : Chr) (s : Str) :
    ∀ piece ∈ Str.split sep s, sep ∉ piece := by
  induction s with
  | nil => simp [Str.split]
  | cons c rest ih =>
      by_cases same : c = sep
      · subst same
        intro piece member
        rw [Str.split_cons_sep, List.mem_cons] at member
        rcases member with rfl | member
        · exact List.not_mem_nil
        · exact ih piece member
      · obtain ⟨first, pieces, cut, whole⟩ := Str.split_cons_ne sep c rest same
        rw [whole]
        rw [cut] at ih
        intro piece member
        rcases List.mem_cons.mp member with rfl | member
        · simp only [List.mem_cons, not_or]
          exact ⟨Ne.symm same, ih first (by simp)⟩
        · exact ih piece (List.mem_cons_of_mem _ member)

theorem Str.join_cons (sep part : Str) (rest : List Str) (more : rest ≠ []) :
    Str.join sep (part :: rest) = part ++ sep ++ Str.join sep rest := by
  obtain ⟨next, tail, rfl⟩ := List.exists_cons_of_ne_nil more
  rfl

theorem Str.join_append (sep : Str) (front back : List Str) (some : front ≠ [])
    (more : back ≠ []) :
    Str.join sep (front ++ back) = Str.join sep front ++ sep ++ Str.join sep back := by
  induction front with
  | nil => exact absurd rfl some
  | cons part rest ih =>
      by_cases last : rest = []
      · subst last
        rw [List.cons_append, List.nil_append, Str.join_cons _ _ _ more]
        rfl
      · rw [List.cons_append, Str.join_cons _ _ _ (by simp [last]), ih last,
          Str.join_cons _ _ _ last]
        simp only [List.append_assoc]

/-- Splitting a joined text concatenates the pieces of its parts. -/
theorem Str.split_join (sep : Chr) (parts : List Str) (some : parts ≠ []) :
    Str.split sep (Str.join [sep] parts) = parts.flatMap (Str.split sep) := by
  induction parts with
  | nil => exact absurd rfl some
  | cons part rest ih =>
      by_cases last : rest = []
      · subst last
        simp [Str.join]
      · rw [Str.join_cons _ _ _ last, List.append_assoc, List.singleton_append,
          Str.split_append_sep, ih last, List.flatMap_cons]

theorem Str.join_split (sep : Chr) (s : Str) : Str.join [sep] (Str.split sep s) = s := by
  induction s with
  | nil => rfl
  | cons c rest ih =>
      by_cases same : c = sep
      · subst same
        rw [Str.split_cons_sep, Str.join_cons _ _ _ (Str.split_ne_nil _ _), ih]
        rfl
      · obtain ⟨piece, pieces, cut, whole⟩ := Str.split_cons_ne sep c rest same
        rw [whole]
        rw [cut] at ih
        cases pieces with
        | nil => simpa [Str.join] using ih
        | cons next tail => simpa [Str.join] using ih

/-- A list of parts free of the separator is recovered from its join. -/
theorem Str.split_join_of_not_mem (sep : Chr) (parts : List Str) (some : parts ≠ [])
    (free : ∀ part ∈ parts, sep ∉ part) : Str.split sep (Str.join [sep] parts) = parts := by
  rw [Str.split_join sep parts some]
  induction parts with
  | nil => rfl
  | cons part rest ih =>
      rw [List.flatMap_cons, Str.split_of_not_mem sep part (free part (by simp))]
      by_cases last : rest = []
      · subst last
        rfl
      · rw [ih last (fun p member => free p (List.mem_cons_of_mem _ member))]
        rfl

theorem Str.split_injective (sep : Chr) : Function.Injective (Str.split sep) := by
  intro a b same
  rw [← Str.join_split sep a, ← Str.join_split sep b, same]

/-- `str(n)` of a natural number. -/
def Str.ofNat (n : Nat) : Str := (Nat.toDigits 10 n).map Chr.ofChar

/-- `str(n)` of an integer. -/
def Str.ofInt : Int → Str
  | .ofNat n => Str.ofNat n
  | .negSucc n => Chr.ofChar '-' :: Str.ofNat (n + 1)

theorem Str.ofNat_injective : Function.Injective Str.ofNat := by
  intro a b same
  have digits := List.map_injective_iff.mpr Chr.ofChar_injective same
  rw [← Nat.ofDigitChars_ten_toDigits (n := a), ← Nat.ofDigitChars_ten_toDigits (n := b), digits]

theorem Str.mem_ofNat (n : Nat) (c : Chr) (member : c ∈ Str.ofNat n) :
    ∃ d : Char, d.isDigit ∧ c = Chr.ofChar d := by
  obtain ⟨d, digit, rfl⟩ := List.mem_map.mp member
  exact ⟨d, Nat.isDigit_of_mem_toDigits (by decide) (by decide) digit, rfl⟩

theorem Str.not_mem_ofNat (n : Nat) (c : Char) (other : c.isDigit = false) :
    Chr.ofChar c ∉ Str.ofNat n := by
  intro member
  obtain ⟨d, digit, same⟩ := Str.mem_ofNat n _ member
  rw [Chr.ofChar_inj] at same
  rw [same, digit] at other
  cases other

theorem Str.not_mem_ofInt (n : Int) (c : Char) (other : c.isDigit = false) (sign : c ≠ '-') :
    Chr.ofChar c ∉ Str.ofInt n := by
  cases n with
  | ofNat n => exact Str.not_mem_ofNat n c other
  | negSucc n =>
      simp only [Str.ofInt, List.mem_cons, Chr.ofChar_inj, not_or]
      exact ⟨sign, Str.not_mem_ofNat (n + 1) c other⟩

theorem Str.ofInt_injective : Function.Injective Str.ofInt := by
  have apart : ∀ m n : Nat, Str.ofNat m ≠ Chr.ofChar '-' :: Str.ofNat n := by
    intro m n same
    have member : Chr.ofChar '-' ∈ Str.ofNat m := by rw [same]; simp
    exact Str.not_mem_ofNat m '-' (by decide) member
  intro a b same
  cases a with
  | ofNat m =>
      cases b with
      | ofNat n => exact congrArg Int.ofNat (Str.ofNat_injective same)
      | negSucc n => exact absurd same (apart m (n + 1))
  | negSucc m =>
      cases b with
      | ofNat n => exact absurd same.symm (apart n (m + 1))
      | negSucc n =>
          have inner := Str.ofNat_injective (List.cons.inj same).2
          exact congrArg Int.negSucc (Nat.succ.inj inner)

end Py
