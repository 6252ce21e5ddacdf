import DevGate.Py.Str

set_option autoImplicit false

/- UTC times in one layout of fixed widths: their texts compare as the times do. -/
namespace Py.Utc

/-- `width` digits of `n`, with leading zeros. -/
def padded : Nat → Nat → Str
  | 0, _ => []
  | width + 1, n => Fin.ofNat 0x110000 (48 + n / 10 ^ width) :: padded width (n % 10 ^ width)

/-- The fields of a time, the largest first: how many digits each has, and the text
that follows it. -/
abbrev Layout := List (Nat × Str)

/-- `YYYY-MM-DDThh:mm:ssZ`. -/
def isoSeconds : Layout := [(4, "-"), (2, "-"), (2, "T"), (2, ":"), (2, ":"), (2, "Z")]

def Layout.write : Layout → List Nat → Str
  | (width, mark) :: layout, n :: fields => padded width n ++ (mark ++ Layout.write layout fields)
  | _, _ => []

/-- Each field has its digits. -/
def Layout.Fits : Layout → List Nat → Prop
  | (width, _) :: layout, n :: fields => n < 10 ^ width ∧ Layout.Fits layout fields
  | [], [] => True
  | _, _ => False

/-- Not after, field by field. -/
def notAfter : List Nat → List Nat → Bool
  | n :: fields, m :: others => n < m || (n == m && notAfter fields others)
  | _, _ => true

theorem le_append (front : Str) {s t : Str} (order : Str.le s t = true) :
    Str.le (front ++ s) (front ++ t) = true := by
  induction front with
  | nil => exact order
  | cons c front ih => simp [Str.le, ih]

theorem digit_val {d : Nat} (small : d < 10) : (Fin.ofNat 0x110000 (48 + d) : Chr).val = 48 + d := by
  have fits : 48 + d < 0x110000 := by omega
  exact Nat.mod_eq_of_lt fits

/-- The smaller number has the smaller digits, whatever follows them. -/
theorem padded_lt {width n m : Nat} (order : n < m) (small : m < 10 ^ width) (s t : Str) :
    Str.le (padded width n ++ s) (padded width m ++ t) = true := by
  induction width generalizing n m with
  | zero => omega
  | succ width ih =>
      have positive : 0 < 10 ^ width := Nat.pow_pos (by decide)
      rw [Nat.pow_succ] at small
      have top : m / 10 ^ width < 10 := Nat.div_lt_of_lt_mul small
      have digits : n / 10 ^ width ≤ m / 10 ^ width := Nat.div_le_div_right order.le
      have left := digit_val (show n / 10 ^ width < 10 by omega)
      have right := digit_val top
      rw [padded, padded, List.cons_append, List.cons_append, Str.le, Bool.or_eq_true,
        decide_eq_true_eq, Fin.lt_def, left, right, Bool.and_eq_true, beq_iff_eq]
      by_cases same : n / 10 ^ width = m / 10 ^ width
      · apply Or.inr
        refine ⟨by rw [same], ih ?_ (Nat.mod_lt _ positive)⟩
        have first := Nat.div_add_mod n (10 ^ width)
        have second := Nat.div_add_mod m (10 ^ width)
        rw [same] at first
        omega
      · apply Or.inl
        omega

theorem write_le {layout : Layout} {fields others : List Nat} (order : notAfter fields others = true)
    (fits : layout.Fits fields) (fits' : layout.Fits others) :
    Str.le (layout.write fields) (layout.write others) = true := by
  induction layout generalizing fields others with
  | nil =>
      unfold Layout.write
      exact Str.le_refl _
  | cons field layout ih =>
      cases fields with
      | nil => exact absurd fits (by simp [Layout.Fits])
      | cons n fields =>
          cases others with
          | nil => exact absurd fits' (by simp [Layout.Fits])
          | cons m others =>
              simp only [notAfter, Bool.or_eq_true, Bool.and_eq_true, decide_eq_true_eq,
                beq_iff_eq] at order
              rcases order with before | ⟨rfl, later⟩
              · exact padded_lt before fits'.1 _ _
              · exact le_append _ (le_append _ (ih later fits.2 fits'.2))

example : isoSeconds.write [2026, 1, 2, 3, 4, 5] = "2026-01-02T03:04:05Z" := by decide

end Py.Utc
