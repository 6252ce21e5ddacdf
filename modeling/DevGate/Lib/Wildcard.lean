import Mathlib.Data.List.Basic

set_option autoImplicit false

/- Patterns of letters and wildcards: what they take, and patterns some parts of which may be
left out. -/
namespace Wildcard

inductive Piece (α : Type) where
  | lit (a : α)
  | one
  | many
  deriving DecidableEq

variable {α : Type} [DecidableEq α]

/-- Any number of free letters, and then what `k` takes. -/
def skip (free : α → Bool) (k : List α → Bool) : List α → Bool
  | [] => k []
  | a :: s => k (a :: s) || free a && skip free k s

/-- The pieces take a front of the text, and `k` the rest. -/
def fits (free : α → Bool) : List (Piece α) → (List α → Bool) → List α → Bool
  | [], k, s => k s
  | .lit _ :: _, _, [] => false
  | .lit a :: ps, k, b :: s => a == b && fits free ps k s
  | .one :: _, _, [] => false
  | .one :: ps, k, b :: s => free b && fits free ps k s
  | .many :: ps, k, s => skip free (fits free ps k) s

/-- A part that has to be there, or one that may be left out. -/
inductive Item (α : Type) where
  | must (p : Piece α)
  | may (ps : List (Piece α))
  deriving DecidableEq

def takes (free : α → Bool) : List (Item α) → List α → Bool
  | [], s => s.isEmpty
  | .must p :: items, s => fits free [p] (takes free items) s
  | .may ps :: items, s => fits free ps (takes free items) s || takes free items s

/-- The pattern takes the whole text. -/
def matchesAll (free : α → Bool) (ps : List (Piece α)) (s : List α) : Bool :=
  fits free ps List.isEmpty s

/-- The patterns that are left when each optional part is taken or left out. -/
def forms : List (Item α) → List (List (Piece α))
  | [] => [[]]
  | .must p :: items => (forms items).map (fun form => p :: form)
  | .may ps :: items => (forms items).map (fun form => ps ++ form) ++ forms items

/-- The text is made of what the pieces stand for. -/
def Spells (free : α → Bool) : List (Piece α) → List α → Prop
  | [], s => s = []
  | .lit a :: ps, s => ∃ rest, s = a :: rest ∧ Spells free ps rest
  | .one :: ps, s => ∃ b rest, s = b :: rest ∧ free b = true ∧ Spells free ps rest
  | .many :: ps, s => ∃ front rest, s = front ++ rest ∧ (∀ b ∈ front, free b = true) ∧
      Spells free ps rest

section

variable {free : α → Bool}

omit [DecidableEq α] in
theorem skip_iff {k : List α → Bool} {s : List α} :
    skip free k s = true ↔
      ∃ front rest, s = front ++ rest ∧ (∀ b ∈ front, free b = true) ∧ k rest = true := by
  induction s with
  | nil =>
      constructor
      · intro taken
        exact ⟨[], [], rfl, by simp, taken⟩
      · rintro ⟨front, rest, split, -, taken⟩
        obtain ⟨rfl, rfl⟩ := List.append_eq_nil_iff.mp split.symm
        exact taken
  | cons a s ih =>
      rw [skip, Bool.or_eq_true, Bool.and_eq_true, ih]
      constructor
      · rintro (taken | ⟨first, front, rest, rfl, free_, taken⟩)
        · exact ⟨[], a :: s, rfl, by simp, taken⟩
        · exact ⟨a :: front, rest, rfl, List.forall_mem_cons.mpr ⟨first, free_⟩, taken⟩
      · rintro ⟨front, rest, split, free_, taken⟩
        cases front with
        | nil =>
            rw [List.nil_append] at split
            exact Or.inl (split ▸ taken)
        | cons b front =>
            cases split
            rw [List.forall_mem_cons] at free_
            exact Or.inr ⟨free_.1, front, rest, rfl, free_.2, taken⟩

theorem fits_iff {ps : List (Piece α)} {k : List α → Bool} {s : List α} :
    fits free ps k s = true ↔ ∃ front rest, s = front ++ rest ∧ Spells free ps front ∧ k rest = true := by
  induction ps generalizing s with
  | nil =>
      simp only [fits, Spells]
      constructor
      · intro taken
        exact ⟨[], s, rfl, rfl, taken⟩
      · rintro ⟨front, rest, rfl, rfl, taken⟩
        exact taken
  | cons p ps ih =>
      cases p with
      | lit a =>
          cases s with
          | nil =>
              refine iff_of_false (by simp [fits]) ?_
              rintro ⟨front, rest, split, ⟨later, rfl, -⟩, -⟩
              cases split
          | cons b s =>
              rw [fits, Bool.and_eq_true, beq_iff_eq, ih]
              constructor
              · rintro ⟨rfl, front, rest, rfl, spelled, taken⟩
                exact ⟨a :: front, rest, rfl, ⟨front, rfl, spelled⟩, taken⟩
              · rintro ⟨front, rest, split, ⟨later, rfl, spelled⟩, taken⟩
                cases split
                exact ⟨rfl, later, rest, rfl, spelled, taken⟩
      | one =>
          cases s with
          | nil =>
              refine iff_of_false (by simp [fits]) ?_
              rintro ⟨front, rest, split, ⟨b, later, rfl, -⟩, -⟩
              cases split
          | cons b s =>
              rw [fits, Bool.and_eq_true, ih]
              constructor
              · rintro ⟨first, front, rest, rfl, spelled, taken⟩
                exact ⟨b :: front, rest, rfl, ⟨b, front, rfl, first, spelled⟩, taken⟩
              · rintro ⟨front, rest, split, ⟨c, later, rfl, first, spelled⟩, taken⟩
                cases split
                exact ⟨first, later, rest, rfl, spelled, taken⟩
      | many =>
          rw [fits, skip_iff]
          constructor
          · rintro ⟨front, rest, rfl, free_, taken⟩
            obtain ⟨middle, last, rfl, spelled, taken⟩ := ih.mp taken
            exact ⟨front ++ middle, last, by rw [List.append_assoc],
              ⟨front, middle, rfl, free_, spelled⟩, taken⟩
          · rintro ⟨whole, last, rfl, ⟨front, middle, rfl, free_, spelled⟩, taken⟩
            exact ⟨front, middle ++ last, by rw [List.append_assoc], free_,
              ih.mpr ⟨middle, last, rfl, spelled, taken⟩⟩

theorem matchesAll_iff {ps : List (Piece α)} {s : List α} :
    matchesAll free ps s = true ↔ Spells free ps s := by
  unfold matchesAll
  rw [fits_iff]
  constructor
  · rintro ⟨front, rest, rfl, spelled, empty⟩
    rw [List.isEmpty_iff] at empty
    rw [empty, List.append_nil]
    exact spelled
  · intro spelled
    exact ⟨s, [], (List.append_nil s).symm, spelled, rfl⟩

omit [DecidableEq α] in
theorem spells_append {front back : List (Piece α)} {s : List α} :
    Spells free (front ++ back) s ↔
      ∃ t rest, s = t ++ rest ∧ Spells free front t ∧ Spells free back rest := by
  induction front generalizing s with
  | nil =>
      constructor
      · intro spelled
        exact ⟨[], s, rfl, rfl, spelled⟩
      · rintro ⟨t, rest, rfl, empty, spelled⟩
        cases empty
        exact spelled
  | cons p front ih =>
      cases p with
      | lit a =>
          constructor
          · rintro ⟨later, rfl, spelled⟩
            obtain ⟨t, rest, rfl, first, second⟩ := ih.mp spelled
            exact ⟨a :: t, rest, rfl, ⟨t, rfl, first⟩, second⟩
          · rintro ⟨_, rest, rfl, ⟨t, rfl, first⟩, second⟩
            exact ⟨t ++ rest, rfl, ih.mpr ⟨t, rest, rfl, first, second⟩⟩
      | one =>
          constructor
          · rintro ⟨b, later, rfl, free_, spelled⟩
            obtain ⟨t, rest, rfl, first, second⟩ := ih.mp spelled
            exact ⟨b :: t, rest, rfl, ⟨b, t, rfl, free_, first⟩, second⟩
          · rintro ⟨_, rest, rfl, ⟨b, t, rfl, free_, first⟩, second⟩
            exact ⟨b, t ++ rest, rfl, free_, ih.mpr ⟨t, rest, rfl, first, second⟩⟩
      | many =>
          constructor
          · rintro ⟨skipped, later, rfl, free_, spelled⟩
            obtain ⟨t, rest, rfl, first, second⟩ := ih.mp spelled
            exact ⟨skipped ++ t, rest, by rw [List.append_assoc], ⟨skipped, t, rfl, free_, first⟩,
              second⟩
          · rintro ⟨_, rest, rfl, ⟨skipped, t, rfl, free_, first⟩, second⟩
            exact ⟨skipped, t ++ rest, by rw [List.append_assoc], free_,
              ih.mpr ⟨t, rest, rfl, first, second⟩⟩

/-- A pattern with optional parts takes what one of its forms does. -/
theorem takes_iff {items : List (Item α)} {s : List α} :
    takes free items s = true ↔ ∃ form ∈ forms items, Spells free form s := by
  induction items generalizing s with
  | nil => simp [takes, forms, Spells]
  | cons item items ih =>
      have after (ps : List (Piece α)) : fits free ps (takes free items) s = true ↔
          ∃ form ∈ forms items, Spells free (ps ++ form) s := by
        rw [fits_iff]
        simp only [ih, spells_append]
        constructor
        · rintro ⟨front, rest, split, spelled, form, inside, later⟩
          exact ⟨form, inside, front, rest, split, spelled, later⟩
        · rintro ⟨form, inside, front, rest, split, spelled, later⟩
          exact ⟨front, rest, split, spelled, form, inside, later⟩
      cases item with
      | must p =>
          rw [takes, after, forms]
          simp only [List.mem_map, exists_exists_and_eq_and]
          rfl
      | may ps =>
          rw [takes, Bool.or_eq_true, after, ih, forms]
          simp only [List.mem_append, or_and_right, exists_or, List.mem_map, exists_exists_and_eq_and]

omit [DecidableEq α] in
/-- Only the letters of the text have to be free. -/
theorem Spells.congr {other : α → Bool} {ps : List (Piece α)} {s : List α}
    (same : ∀ a ∈ s, free a = other a) (spelled : Spells free ps s) : Spells other ps s := by
  induction ps generalizing s with
  | nil => exact spelled
  | cons p ps ih =>
      cases p with
      | lit a =>
          obtain ⟨rest, rfl, later⟩ := spelled
          exact ⟨rest, rfl, ih (fun b inside => same b (List.mem_cons_of_mem a inside)) later⟩
      | one =>
          obtain ⟨b, rest, rfl, here, later⟩ := spelled
          rw [List.forall_mem_cons] at same
          exact ⟨b, rest, rfl, same.1 ▸ here, ih same.2 later⟩
      | many =>
          obtain ⟨front, rest, rfl, here, later⟩ := spelled
          rw [List.forall_mem_append] at same
          exact ⟨front, rest, rfl, fun b inside => same.1 b inside ▸ here b inside, ih same.2 later⟩

omit [DecidableEq α] in
/-- Two stars are one. -/
theorem spells_many_many {ps : List (Piece α)} {s : List α} :
    Spells free (.many :: .many :: ps) s ↔ Spells free (.many :: ps) s := by
  constructor
  · rintro ⟨front, _, rfl, first, middle, rest, rfl, second, spelled⟩
    refine ⟨front ++ middle, rest, by rw [List.append_assoc], ?_, spelled⟩
    exact List.forall_mem_append.mpr ⟨first, second⟩
  · rintro ⟨front, rest, rfl, first, spelled⟩
    exact ⟨front, rest, rfl, first, [], rest, rfl, by simp, spelled⟩

/-- The form in which no optional part is left out. -/
def full : List (Item α) → List (Piece α) :=
  List.flatMap (fun item =>
    match item with
    | .must p => [p]
    | .may ps => ps)

omit [DecidableEq α] in
theorem full_mem_forms (items : List (Item α)) : full items ∈ forms items := by
  induction items with
  | nil => exact List.mem_singleton.mpr rfl
  | cons item items ih =>
      cases item with
      | must p => exact List.mem_map.mpr ⟨full items, ih, rfl⟩
      | may ps => exact List.mem_append_left _ (List.mem_map.mpr ⟨full items, ih, rfl⟩)

end

end Wildcard
