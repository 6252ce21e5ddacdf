import Mathlib.Tactic.Common

set_option autoImplicit false

/- Recursive checks on a stack of some depth. A run is given the depth and what a call past the
end of the stack does; from some depth on a run that ends depends on neither. -/
namespace Depth

variable {α β ε : Type}

/-- With enough depth, the run ends with the outcome. -/
def Ends (run : Nat → β → β) (outcome : β) : Prop :=
  ∃ depth, ∀ n, depth ≤ n → ∀ full, run n full = outcome

/-- The run ends, and finds nothing exactly if the property holds. -/
def Decides (run : Nat → Except ε (List α) → Except ε (List α)) (holds : Prop) : Prop :=
  ∃ outcome, Ends run outcome ∧ (outcome = .ok [] ↔ holds)

/-- The findings of two checks. -/
def join (first second : Except ε (List α)) : Except ε (List α) := do
  let here ← first
  return here ++ (← second)

@[simp] theorem join_nil {first second : Except ε (List α)} :
    join first second = .ok [] ↔ first = .ok [] ∧ second = .ok [] := by
  cases first <;> cases second <;> simp [join, bind, Except.bind, pure, Except.pure]

theorem Ends.unique {run : Nat → β → β} {one other : β} (first : Ends run one)
    (second : Ends run other) : one = other := by
  obtain ⟨m, first⟩ := first
  obtain ⟨n, second⟩ := second
  exact (first (max m n) (Nat.le_max_left m n) one).symm.trans
    (second (max m n) (Nat.le_max_right m n) one)

theorem Ends.below {run : Nat → β → β} {outcome : β} (ends : Ends run outcome)
    {outer : Nat → β → β} (calls : ∀ n full, outer (n + 1) full = run n full) :
    Ends outer outcome := by
  obtain ⟨depth, settled⟩ := ends
  refine ⟨depth + 1, fun n enough full => ?_⟩
  obtain ⟨m, rfl⟩ : ∃ m, n = m + 1 := ⟨n - 1, by omega⟩
  rw [calls]
  exact settled m (by omega) full

theorem Decides.fixed {outcome : Except ε (List α)} {holds : Prop}
    (decided : outcome = .ok [] ↔ holds) : Decides (fun _ _ => outcome) holds :=
  ⟨outcome, ⟨0, fun _ _ _ => rfl⟩, decided⟩

theorem Decides.congr {run : Nat → Except ε (List α) → Except ε (List α)} {holds other : Prop}
    (decides : Decides run holds) (same : holds ↔ other) : Decides run other := by
  obtain ⟨outcome, ends, decided⟩ := decides
  exact ⟨outcome, ends, decided.trans same⟩

theorem Decides.below {run outer : Nat → Except ε (List α) → Except ε (List α)} {holds : Prop}
    (decides : Decides run holds) (calls : ∀ n full, outer (n + 1) full = run n full) :
    Decides outer holds := by
  obtain ⟨outcome, ends, decided⟩ := decides
  exact ⟨outcome, ends.below calls, decided⟩

/-- A check around a run. -/
theorem Decides.around {run : Nat → Except ε (List α) → Except ε (List α)} {P Q : Prop}
    {check : Except ε (List α) → Except ε (List α)} (decides : Decides run P)
    (checked : ∀ inner, check inner = .ok [] ↔ Q ∧ inner = .ok []) :
    Decides (fun n full => check (run n full)) (Q ∧ P) := by
  obtain ⟨outcome, ⟨depth, ends⟩, decided⟩ := decides
  refine ⟨check outcome, ⟨depth, fun n enough full => ?_⟩, ?_⟩
  · have settled := ends n enough full
    dsimp only
    rw [settled]
  · rw [checked, decided]

theorem Decides.join {one other : Nat → Except ε (List α) → Except ε (List α)} {P Q : Prop}
    (first : Decides one P) (second : Decides other Q) :
    Decides (fun n full => Depth.join (one n full) (other n full)) (P ∧ Q) := by
  obtain ⟨o, ⟨m, ends⟩, decided⟩ := first
  obtain ⟨o', ⟨m', ends'⟩, decided'⟩ := second
  refine ⟨Depth.join o o', ⟨max m m', fun n enough full => ?_⟩, ?_⟩
  · have settled := ends n (Nat.le_trans (Nat.le_max_left m m') enough) full
    have settled' := ends' n (Nat.le_trans (Nat.le_max_right m m') enough) full
    dsimp only
    rw [settled, settled']
  · rw [join_nil, decided, decided']

end Depth
