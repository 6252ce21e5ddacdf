import DevGate.Py.Json
import Mathlib.Data.Int.Log
import Mathlib.Tactic.Linarith
import Mathlib.Tactic.NormNum
import Mathlib.Tactic.Positivity
import Mathlib.Tactic.FieldSimp
import Mathlib.Tactic.Ring

set_option autoImplicit false

/- How far a double is below the number it stands for. -/
namespace Py.Json

theorem roundEven_ge (q : Rat) : q - 1 / 2 ≤ roundEven q := by
  have below : (q.floor : Rat) ≤ q := Rat.floor_le q
  have above : q < q.floor + 1 := by exact_mod_cast Rat.lt_floor_add_one q
  unfold roundEven
  simp only
  split
  · linarith
  · split
    · push_cast
      linarith
    · split
      · linarith
      · push_cast
        linarith

/-- Half a unit in the last place, relative to the number. -/
def unit : Rat := 2 ^ (-53 : Int)

/-- A normal number is rounded down by less than a unit, or else up to infinity. -/
theorem double_ge {q : Rat} (normal : (2 : Rat) ^ (-1022 : Int) ≤ q) :
    double q = .inf false ∨ ∃ v, double q = .fin v ∧ q * (1 - unit) ≤ v := by
  have positive : 0 < q := lt_of_lt_of_le (by positivity) normal
  have size : |q| = q := abs_of_pos positive
  have high : -1022 ≤ Int.log 2 q := by
    have step := Int.log_mono_right (b := 2) (by positivity : (0 : Rat) < 2 ^ (-1022 : Int)) normal
    rwa [show ((2 : Rat)) = ((2 : Nat) : Rat) from rfl, Int.log_zpow (by decide)] at step
  have power : (2 : Rat) ^ Int.log 2 q ≤ q := by
    exact_mod_cast Int.zpow_log_le_self (b := 2) (by decide) positive
  unfold double
  rw [if_neg positive.ne', size, max_eq_left high]
  simp only
  generalize ulpIs : (2 : Rat) ^ (Int.log 2 q - 52) = ulp
  have ulpPositive : 0 < ulp := by
    rw [← ulpIs]
    positivity
  have half : ulp / 2 ≤ q * unit := by
    have same : ulp / 2 = 2 ^ Int.log 2 q * unit := by
      rw [← ulpIs, unit, ← zpow_add₀ (by norm_num), div_eq_iff (by norm_num), ← zpow_add_one₀ (by norm_num)]
      congr 1
      omega
    rw [same]
    exact mul_le_mul_of_nonneg_right power (by unfold unit; positivity)
  have near : q * (1 - unit) ≤ roundEven (q / ulp) * ulp := by
    have round := mul_le_mul_of_nonneg_right (roundEven_ge (q / ulp)) ulpPositive.le
    have cancel : (q / ulp - 1 / 2) * ulp = q - ulp / 2 := by
      field_simp
    rw [cancel] at round
    linarith
  split
  · apply Or.inl
    rw [decide_eq_false positive.le.not_gt]
  · exact Or.inr ⟨_, rfl, near⟩

end Py.Json
