import DevGate.Py.Datetime
import DevGate.Py.JsonRead

set_option autoImplicit false

/- The characters of a text that `datetime.fromisoformat` accepts. -/
namespace Py.Datetime

open Json (Tidy)

/-- No surrogates. -/
def Plain (s : Str) : Prop := ∀ c ∈ s, c.isSurrogate = false

theorem Plain.append {s t : Str} (left : Plain s) (right : Plain t) : Plain (s ++ t) :=
  List.forall_mem_append.mpr ⟨left, right⟩

theorem Plain.cons {c : Chr} {s : Str} (first : c.isSurrogate = false) (rest : Plain s) :
    Plain (c :: s) := List.forall_mem_cons.mpr ⟨first, rest⟩

theorem plain_digit {c : Chr} (digit : c.digit?.isSome = true) : c.isSurrogate = false := by
  unfold Chr.digit? at digit
  split at digit
  · rename_i range
    unfold Chr.isSurrogate
    rw [Bool.and_eq_false_iff]
    left
    rw [decide_eq_false_iff_not]
    omega
  · cases digit

/-- A fold that is stuck where it has nothing took every step. -/
theorem foldl_some {f : Option Nat → Chr → Option Nat} (stuck : ∀ c, f none c = none) {s : Str}
    {start : Option Nat} {n : Nat} (ran : s.foldl f start = some n) :
    ∀ c ∈ s, ∃ m k, f (some m) c = some k := by
  have none_ (s : Str) : s.foldl f none = none := by
    induction s with
    | nil => rfl
    | cons c rest ih => rw [List.foldl_cons, stuck, ih]
  induction s generalizing start with
  | nil => simp
  | cons c rest ih =>
      rw [List.foldl_cons] at ran
      refine List.forall_mem_cons.mpr ⟨?_, ih ran⟩
      cases stepped : f start c with
      | none =>
          rw [stepped, none_] at ran
          cases ran
      | some k =>
          cases start with
          | none => cases (stuck c).symm.trans stepped
          | some m => exact ⟨m, k, stepped⟩

theorem number?_digits {s : Str} {n : Nat} (read : Str.number? s = some n) :
    ∀ c ∈ s, c.digit?.isSome = true := by
  unfold Str.number? at read
  split at read
  · cases read
  · intro c inside
    obtain ⟨m, k, stepped⟩ := foldl_some (fun _ => rfl) read c inside
    obtain ⟨_, -, stepped⟩ := Option.bind_eq_some_iff.mp stepped
    obtain ⟨d, digit, -⟩ := Option.bind_eq_some_iff.mp stepped
    rw [digit]
    rfl

/-- Digits, and what follows them. -/
theorem digits?_plain {width n : Nat} {s rest : Str} (read : Str.digits? width s = some (n, rest)) :
    ∃ front, s = front ++ rest ∧ front.length = width ∧ Plain front := by
  unfold Str.digits? at read
  split at read
  · cases read
  · rename_i long
    obtain ⟨m, number, same⟩ := Option.map_eq_some_iff.mp read
    cases same
    refine ⟨s.take width, (List.take_append_drop width s).symm, ?_, ?_⟩
    · rw [List.length_take]
      omega
    · exact fun c inside => plain_digit (number?_digits number c inside)

theorem parseFraction_plain {s : Str} {n : Nat} (read : parseFraction s = some n) : Plain s := by
  unfold parseFraction at read
  split at read
  · rename_i mark rest
    split at read
    · rename_i marks
      split at read
      · rename_i digits
        refine Plain.cons ?_ (fun c inside => plain_digit (List.all_eq_true.mp digits c inside))
        rcases marks with rfl | rfl <;> decide
      · cases read
    · cases read
  · intro c inside
    cases inside

theorem plain_of_marked {r : Str} {mark : Chr} (plain : mark.isSurrogate = false)
    (later : Plain (if (r.head? == some mark) = true then r.drop 1 else r)) : Plain r := by
  split at later
  · rename_i marked
    cases r with
    | nil => exact later
    | cons c rest =>
        rw [beq_iff_eq, List.head?_cons, Option.some.injEq] at marked
        subst marked
        exact Plain.cons plain later
  · exact later

theorem plain_of_digits? {width n : Nat} {s rest : Str} (read : Str.digits? width s = some (n, rest))
    (later : Plain rest) : Plain s := by
  obtain ⟨front, rfl, -, plain⟩ := digits?_plain read
  exact plain.append later

/-- A clock, its marks included. -/
theorem parseClock_plain {s : Str} {clock : Nat × Nat × Nat × Nat} (read : parseClock s = some clock) :
    Plain s := by
  unfold parseClock at read
  obtain ⟨⟨hour, r₁⟩, first, read₁⟩ := Option.bind_eq_some_iff.mp read
  refine plain_of_digits? first ?_
  dsimp only at read₁
  split at read₁
  · rename_i ends
    rw [ends]
    exact List.forall_mem_nil _
  · obtain ⟨⟨minute, r₂⟩, second, read₂⟩ := Option.bind_eq_some_iff.mp read₁
    refine plain_of_marked (by decide) (plain_of_digits? second ?_)
    dsimp only at read₂
    split at read₂
    · rename_i ends
      rw [ends]
      exact List.forall_mem_nil _
    · split at read₂
      · cases read₂
      · rename_i separated
        obtain ⟨⟨second, r₃⟩, third, read₃⟩ := Option.bind_eq_some_iff.mp read₂
        obtain ⟨micro, fraction, -⟩ := Option.bind_eq_some_iff.mp read₃
        have later := plain_of_digits? third (parseFraction_plain fraction)
        split at later
        · rename_i colon
          rw [colon, Bool.true_and, Bool.not_eq_true, bne_eq_false_iff_eq] at separated
          refine plain_of_marked (by decide : (Chr.ofChar ':').isSurrogate = false) ?_
          rw [separated, beq_self_eq_true, if_pos rfl]
          exact later
        · exact later

theorem parseOffset_plain {mark : Chr} {rest : Str} {offset : Option Int}
    (read : parseOffset (mark :: rest) = some offset) : Plain rest := by
  rw [parseOffset] at read
  split at read
  · split at read
    · rename_i ends
      rw [ends]
      exact List.forall_mem_nil _
    · cases read
  · obtain ⟨clock, first, -⟩ := Option.bind_eq_some_iff.mp read
    exact parseClock_plain first

theorem plain_offsetMark {c : Chr} (mark : isOffsetMark c = true) : c.isSurrogate = false := by
  unfold isOffsetMark at mark
  rw [Bool.or_eq_true, Bool.or_eq_true, beq_iff_eq, beq_iff_eq, beq_iff_eq] at mark
  rcases mark with (rfl | rfl) | rfl <;> decide

theorem parseTime_plain {s : Str} {time : Int × Option Int} (read : parseTime s = some time) :
    Plain s := by
  unfold parseTime at read
  obtain ⟨clock, first, read₁⟩ := Option.bind_eq_some_iff.mp read
  obtain ⟨offset, second, -⟩ := Option.bind_eq_some_iff.mp read₁
  rw [← List.takeWhile_append_dropWhile (p := fun c => !isOffsetMark c) (l := s)]
  refine (parseClock_plain first).append ?_
  cases tail : s.dropWhile (fun c => !isOffsetMark c) with
  | nil => exact List.forall_mem_nil _
  | cons mark rest =>
      rw [tail] at second
      refine Plain.cons (plain_offsetMark ?_) (parseOffset_plain second)
      have stopped := List.head?_dropWhile_not (fun c => !isOffsetMark c) s
      rw [tail, List.head?_cons] at stopped
      simpa using stopped

theorem dash?_some {uses : Bool} {s rest : Str} (read : dash? uses s = some rest) :
    s = (if uses then [Chr.ofChar '-'] else []) ++ rest := by
  unfold dash? at read
  split at read
  · rename_i marked
    cases read
    cases uses with
    | true =>
        cases s with
        | nil => cases marked
        | cons c rest =>
            rw [beq_iff_eq, List.head?_cons, Option.some.injEq] at marked
            rw [marked]
            rfl
    | false => rfl
  · cases read

theorem plain_dash (uses : Bool) : Plain (if uses then [Chr.ofChar '-'] else []) := by
  cases uses with
  | true => exact Plain.cons (by decide) (List.forall_mem_nil _)
  | false => exact List.forall_mem_nil _

theorem plain_take {front rest : Str} (plain : Plain front) {n : Nat} (short : n ≤ front.length) :
    Plain ((front ++ rest).take n) := by
  rw [List.take_append_of_le_length short]
  exact fun c inside => plain c (List.mem_of_mem_take inside)

/-- The first eight characters of a date, and ten of one with dashes. -/
theorem parseDate_plain {s : Str} {ordinal : Nat} (read : parseDate s = some ordinal) :
    Plain (s.take 8) ∧ ((s.drop 4).head? = some (Chr.ofChar '-') → Plain (s.take 10)) := by
  unfold parseDate at read
  obtain ⟨⟨year, r₁⟩, first, read₁⟩ := Option.bind_eq_some_iff.mp read
  obtain ⟨front, rfl, four, plain⟩ := digits?_plain first
  dsimp only at read₁
  have later : Plain ((if (r₁.head? == some (Chr.ofChar '-')) = true then r₁.drop 1 else r₁).take
      (if (r₁.head? == some (Chr.ofChar '-')) = true then 5 else 4)) := by
    generalize (if (r₁.head? == some (Chr.ofChar '-')) = true then r₁.drop 1 else r₁) = r at read₁
    generalize (r₁.head? == some (Chr.ofChar '-')) = uses at read₁
    split at read₁
    · rename_i week
      cases r with
      | nil =>
          rw [List.take_nil]
          exact List.forall_mem_nil _
      | cons c r =>
          rw [beq_iff_eq, List.head?_cons, Option.some.injEq] at week
          subst week
          obtain ⟨⟨number, q⟩, second, read₂⟩ := Option.bind_eq_some_iff.mp read₁
          obtain ⟨digits, same, two, plain₂⟩ := digits?_plain second
          rw [List.drop_one, List.tail_cons] at same
          subst same
          have weekly : Plain (Chr.ofChar 'W' :: digits) := Plain.cons (by decide) plain₂
          dsimp only at read₂
          split at read₂
          · rename_i ends
            rw [ends, List.append_nil]
            exact fun d inside => weekly d (List.mem_of_mem_take inside)
          · obtain ⟨q', dashed, read₃⟩ := Option.bind_eq_some_iff.mp read₂
            obtain ⟨⟨day, rest⟩, third, -⟩ := Option.bind_eq_some_iff.mp read₃
            obtain ⟨digit, same, one, plain₃⟩ := digits?_plain third
            subst same
            rw [dash?_some dashed, ← List.cons_append, ← List.append_assoc, ← List.append_assoc]
            refine plain_take ((weekly.append (plain_dash uses)).append plain₃) ?_
            cases uses <;> simp [two, one]
    · obtain ⟨⟨month, q⟩, second, read₂⟩ := Option.bind_eq_some_iff.mp read₁
      obtain ⟨digits, same, two, plain₂⟩ := digits?_plain second
      subst same
      obtain ⟨q', dashed, read₃⟩ := Option.bind_eq_some_iff.mp read₂
      obtain ⟨⟨day, rest⟩, third, -⟩ := Option.bind_eq_some_iff.mp read₃
      obtain ⟨digit, same, one, plain₃⟩ := digits?_plain third
      subst same
      have cut := dash?_some dashed
      dsimp only at cut
      rw [cut, ← List.append_assoc, ← List.append_assoc]
      refine plain_take ((plain₂.append (plain_dash uses)).append plain₃) ?_
      cases uses <;> simp [two, one]
  have whole {n : Nat} (rest : Plain (r₁.take n)) : Plain ((front ++ r₁).take (4 + n)) := by
    rw [← four, List.take_length_add_append]
    exact plain.append rest
  have shorter {n m : Nat} (le : n ≤ m) (rest : Plain (r₁.take m)) : Plain (r₁.take n) := by
    intro c inside
    refine rest c (List.IsPrefix.subset (List.take_prefix_take_left le) inside)
  have dropped : (front ++ r₁).drop 4 = r₁ := by
    rw [← four, List.drop_left]
  rw [dropped]
  cases marked : (r₁.head? == some (Chr.ofChar '-')) with
  | true =>
      rw [marked, if_pos rfl, if_pos rfl] at later
      have six : Plain (r₁.take 6) := by
        cases r₁ with
        | nil => exact List.forall_mem_nil _
        | cons c rest =>
            rw [beq_iff_eq, List.head?_cons, Option.some.injEq] at marked
            subst marked
            exact Plain.cons (by decide) later
      exact ⟨whole (@shorter 4 6 (by decide) six), fun _ => whole six⟩
  | false =>
      rw [marked, if_neg Bool.false_ne_true, if_neg Bool.false_ne_true] at later
      refine ⟨whole later, fun dash => ?_⟩
      rw [dash] at marked
      cases marked

/-- A date ends after eight characters, or after ten with dashes. -/
theorem separatorAt_cases (s : Str) :
    separatorAt s ≤ 8 ∨ separatorAt s = 10 ∧ (s.drop 4).head? = some (Chr.ofChar '-') := by
  unfold separatorAt
  dsimp only
  split
  · left
    omega
  · split
    · rename_i dash
      split
      · split
        · split
          · exact Or.inl le_rfl
          · exact Or.inr ⟨rfl, dash⟩
        · exact Or.inl le_rfl
      · exact Or.inr ⟨rfl, dash⟩
    · left
      split
      · split
        · omega
        · split
          · omega
          · omega
      · exact le_rfl

/-- All but the character between the date and the time. -/
theorem parse?_plain {s : Str} {t : Datetime} (read : parse? s = some t) :
    Plain s ∨ ∃ front mark back, s = front ++ mark :: back ∧ Plain front ∧ Plain back := by
  unfold parse? at read
  split at read
  · cases read
  · obtain ⟨ordinal, date, read₁⟩ := Option.bind_eq_some_iff.mp read
    obtain ⟨eight, ten⟩ := parseDate_plain date
    have front : Plain (s.take (separatorAt s)) := by
      rcases separatorAt_cases s with early | ⟨late, dash⟩
      · rw [List.take_take, min_eq_right early] at eight
        exact eight
      · rw [late] at ten ⊢
        rw [List.take_take, min_self] at ten
        refine ten ?_
        rw [List.drop_take, List.head?_take, if_neg (by decide)]
        exact dash
    dsimp only at read₁
    split at read₁
    · rename_i short
      rw [List.take_of_length_le short] at front
      exact Or.inl front
    · rename_i long
      rw [not_le] at long
      obtain ⟨time, clocked, -⟩ := Option.bind_eq_some_iff.mp read₁
      refine Or.inr ⟨s.take (separatorAt s), s[separatorAt s], s.drop (separatorAt s + 1), ?_, front,
        parseTime_plain clocked⟩
      rw [List.getElem_cons_drop, List.take_append_drop]

theorem tidy_cons {a : Chr} {s : Str} (plain : a.isSurrogate = false ∨ Plain s) (tidy : Tidy s) :
    Tidy (a :: s) := by
  cases s with
  | nil => exact List.isChain_singleton a
  | cons b s =>
      refine List.isChain_cons_cons.mpr ⟨?_, tidy⟩
      rintro ⟨high, low⟩
      rcases plain with plain | plain
      · cases plain.symm.trans (Json.Chr.isSurrogate_of_isHigh high)
      · cases (plain b List.mem_cons_self).symm.trans (Json.Chr.isSurrogate_of_isLow low)

theorem Plain.tidy {s : Str} (plain : Plain s) : Tidy s := by
  apply Json.tidy_of_not_high
  intro c inside
  rw [← Bool.not_eq_true]
  intro high
  cases (plain c inside).symm.trans (Json.Chr.isSurrogate_of_isHigh high)

theorem tidy_append {front s : Str} (plain : Plain front) (tidy : Tidy s) : Tidy (front ++ s) := by
  induction front with
  | nil => exact tidy
  | cons a front ih =>
      rw [Plain, List.forall_mem_cons] at plain
      exact tidy_cons (Or.inl plain.1) (ih plain.2)

/-- An accepted text has no two surrogates next to each other. -/
theorem parse?_tidy {s : Str} {t : Datetime} (read : parse? s = some t) : Tidy s := by
  rcases parse?_plain read with plain | ⟨front, mark, back, rfl, plain, plain'⟩
  · exact plain.tidy
  · exact tidy_append plain (tidy_cons (Or.inr plain') plain'.tidy)

/-- Nor has one that is accepted once a character of it is spelled out. -/
theorem tidy_of_replace {s t : Str} {c : Chr} (plain : c.isSurrogate = false)
    (tidy : Tidy (Str.replace s c t)) : Tidy s := by
  induction s with
  | nil => exact List.isChain_nil
  | cons a s ih =>
      have later : Tidy (Str.replace s c t) := by
        unfold Str.replace at tidy ⊢
        rw [List.flatMap_cons] at tidy
        exact tidy.right_of_append
      cases s with
      | nil => exact List.isChain_singleton a
      | cons b s =>
          refine List.isChain_cons_cons.mpr ⟨?_, ih later⟩
          rintro ⟨high, low⟩
          have first : a ≠ c := by
            rintro rfl
            cases plain.symm.trans (Json.Chr.isSurrogate_of_isHigh high)
          have second : b ≠ c := by
            rintro rfl
            cases plain.symm.trans (Json.Chr.isSurrogate_of_isLow low)
          unfold Str.replace at tidy
          rw [List.flatMap_cons, List.flatMap_cons, if_neg first, if_neg second] at tidy
          exact (List.isChain_cons_cons.mp tidy).1 ⟨high, low⟩

end Py.Datetime
