import Mathlib

set_option autoImplicit false

/- Runs of a deterministic state machine over a list of operations. -/
namespace Machine

variable {σ ι : Type}

def run (step : σ → ι → σ) (s : σ) (ops : List ι) : σ := ops.foldl step s

@[simp] theorem run_nil (step : σ → ι → σ) (s : σ) : run step s [] = s := rfl

@[simp] theorem run_cons (step : σ → ι → σ) (s : σ) (op : ι) (ops : List ι) :
    run step s (op :: ops) = run step (step s op) ops := rfl

theorem run_append (step : σ → ι → σ) (s : σ) (first second : List ι) :
    run step s (first ++ second) = run step (run step s first) second :=
  List.foldl_append

/-- What every step preserves holds after every run. -/
theorem run_invariant {step : σ → ι → σ} {I : σ → Prop}
    (preserved : ∀ s op, I s → I (step s op)) (s : σ) (start : I s) (ops : List ι) :
    I (run step s ops) := by
  induction ops generalizing s with
  | nil => exact start
  | cons op ops ih => exact ih (step s op) (preserved s op start)

/-- The property holds in every state the run passes through. -/
def Always (step : σ → ι → σ) (P : σ → Prop) (s : σ) (ops : List ι) : Prop :=
  ∀ before after, ops = before ++ after → P (run step s before)

/-- Every operation of the run is allowed in the state it meets. -/
def Allows (step : σ → ι → σ) (A : σ → ι → Prop) (s : σ) (ops : List ι) : Prop :=
  ∀ before op after, ops = before ++ op :: after → A (run step s before) op

theorem always_cons (step : σ → ι → σ) (P : σ → Prop) (s : σ) (op : ι) (ops : List ι) :
    Always step P s (op :: ops) ↔ P s ∧ Always step P (step s op) ops := by
  constructor
  · intro always
    refine ⟨always [] _ rfl, ?_⟩
    rintro before after rfl
    exact always (op :: before) after rfl
  · rintro ⟨here, later⟩ before after split
    cases before with
    | nil => exact here
    | cons first before =>
        obtain ⟨rfl, rest⟩ := List.cons.inj split
        exact later before after rest

theorem allows_cons (step : σ → ι → σ) (A : σ → ι → Prop) (s : σ) (op : ι) (ops : List ι) :
    Allows step A s (op :: ops) ↔ A s op ∧ Allows step A (step s op) ops := by
  constructor
  · intro allows
    refine ⟨allows [] op _ rfl, ?_⟩
    rintro before next after rfl
    exact allows (op :: before) next after rfl
  · rintro ⟨here, later⟩ before next after split
    cases before with
    | nil =>
        obtain ⟨rfl, -⟩ := List.cons.inj split
        exact here
    | cons first before =>
        obtain ⟨rfl, rest⟩ := List.cons.inj split
        exact later before next after rest

/-- When one step keeps a property exactly on the allowed operations, a whole
run keeps it exactly when all of its operations are allowed. -/
theorem always_iff_allows {step : σ → ι → σ} {I P : σ → Prop} {A : σ → ι → Prop}
    (preserved : ∀ s op, I s → I (step s op))
    (exact_step : ∀ s op, I s → P s → (P (step s op) ↔ A s op))
    (s : σ) (start : I s) (holds : P s) (ops : List ι) :
    Always step P s ops ↔ Allows step A s ops := by
  induction ops generalizing s with
  | nil =>
      constructor
      · intro _ before op after split
        simp at split
      · intro _ before after split
        obtain ⟨rfl, rfl⟩ := List.append_eq_nil_iff.mp split.symm
        exact holds
  | cons op ops ih =>
      rw [always_cons, allows_cons]
      constructor
      · rintro ⟨-, later⟩
        have next : P (step s op) := later [] ops rfl
        exact ⟨(exact_step s op start holds).mp next,
          (ih (step s op) (preserved s op start) next).mp later⟩
      · rintro ⟨allowed, later⟩
        have next : P (step s op) := (exact_step s op start holds).mpr allowed
        exact ⟨holds, (ih (step s op) (preserved s op start) next).mpr later⟩

/-- When two step properties agree in the states `P`, which the second keeps,
they agree over whole runs. -/
theorem allows_congr {step : σ → ι → σ} {P : σ → Prop} {S A : σ → ι → Prop}
    (agree : ∀ s op, P s → (S s op ↔ A s op)) (kept : ∀ s op, P s → A s op → P (step s op))
    (s : σ) (start : P s) (ops : List ι) : Allows step S s ops ↔ Allows step A s ops := by
  induction ops generalizing s with
  | nil => simp [Allows]
  | cons op ops ih =>
      rw [allows_cons, allows_cons, agree s op start]
      constructor
      · rintro ⟨here, later⟩
        exact ⟨here, (ih _ (kept s op start here)).mp later⟩
      · rintro ⟨here, later⟩
        exact ⟨here, (ih _ (kept s op start here)).mpr later⟩

/-- A property that allowed operations keep holds all along an allowed run. -/
theorem always_of_allows {step : σ → ι → σ} {P : σ → Prop} {A : σ → ι → Prop}
    (kept : ∀ s op, P s → A s op → P (step s op)) (s : σ) (start : P s) (ops : List ι)
    (allowed : Allows step A s ops) : Always step P s ops := by
  induction ops generalizing s with
  | nil =>
      intro before after split
      obtain ⟨rfl, rfl⟩ := List.append_eq_nil_iff.mp split.symm
      exact start
  | cons op ops ih =>
      rw [allows_cons] at allowed
      rw [always_cons]
      exact ⟨start, ih _ (kept s op start allowed.1) allowed.2⟩

theorem allows_and {step : σ → ι → σ} {S A : σ → ι → Prop} {s : σ} {ops : List ι} :
    Allows step (fun s op => S s op ∧ A s op) s ops ↔ Allows step S s ops ∧ Allows step A s ops := by
  constructor
  · intro both
    exact ⟨fun b op a split => (both b op a split).1, fun b op a split => (both b op a split).2⟩
  · rintro ⟨first, second⟩ b op a split
    exact ⟨first b op a split, second b op a split⟩

/-- Holding all along a run is holding at its start and after each operation. -/
theorem always_iff_after {step : σ → ι → σ} {P : σ → Prop} (s : σ) (ops : List ι) :
    Always step P s ops ↔ P s ∧ Allows step (fun s op => P (step s op)) s ops := by
  induction ops generalizing s with
  | nil =>
      constructor
      · intro always
        exact ⟨always [] [] rfl, by simp [Allows]⟩
      · rintro ⟨here, -⟩ before after split
        obtain ⟨rfl, rfl⟩ := List.append_eq_nil_iff.mp split.symm
        exact here
  | cons op ops ih => rw [always_cons, allows_cons, ih]

end Machine
