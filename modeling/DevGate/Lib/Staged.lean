import Mathlib.Data.List.Basic

set_option autoImplicit false

/- A task done in stages, each of which checks and then writes: a stage that fails ends it. -/
namespace Staged

/-- A stage as it comes out: what it has written by its end, and whether it passed. -/
structure Stage (ω : Type) where
  left : List ω
  passed : Bool

variable {ω : Type}

/-- The stages as one: what they have written, and whether all of them passed. -/
def run : List (Stage ω) → Stage ω
  | [] => { left := [], passed := true }
  | stage :: rest =>
      if stage.passed then { left := stage.left ++ (run rest).left, passed := (run rest).passed }
      else stage

theorem run_passed {stage : Stage ω} (passed : stage.passed = true) (rest : List (Stage ω)) :
    run (stage :: rest) =
      { left := stage.left ++ (run rest).left, passed := (run rest).passed } := by
  rw [run, if_pos passed]

theorem run_stopped {stage : Stage ω} (stopped : stage.passed = false) (rest : List (Stage ω)) :
    run (stage :: rest) = stage := by
  rw [run, if_neg (by rw [stopped]; exact Bool.false_ne_true)]

theorem run_one (stage : Stage ω) : run [stage] = stage := by
  cases passed : stage.passed with
  | false => exact run_stopped passed []
  | true =>
      obtain ⟨left, verdict⟩ := stage
      cases passed
      rw [run_passed rfl, run, List.append_nil]

/-- What the stages have written was written by one of them. -/
theorem mem_run {stages : List (Stage ω)} {write : ω} (inside : write ∈ (run stages).left) :
    ∃ stage ∈ stages, write ∈ stage.left := by
  induction stages with
  | nil => cases inside
  | cons stage rest ih =>
      cases passed : stage.passed with
      | false =>
          rw [run_stopped passed] at inside
          exact ⟨stage, List.mem_cons_self, inside⟩
      | true =>
          rw [run_passed passed, List.mem_append] at inside
          cases inside with
          | inl here => exact ⟨stage, List.mem_cons_self, here⟩
          | inr later =>
              obtain ⟨other, member, wrote⟩ := ih later
              exact ⟨other, List.mem_cons_of_mem _ member, wrote⟩

/-- Each stage that is reached passes, or what is written by its end is harmless. -/
def Settled (harmless : List ω → Prop) (stages : List (Stage ω)) : Prop :=
  ∀ front stage back, stages = front ++ stage :: back → (∀ before ∈ front, before.passed = true) →
    stage.passed = true ∨ harmless (front.flatMap Stage.left ++ stage.left)

theorem settled_nil {harmless : List ω → Prop} : Settled harmless [] := by
  intro front stage back split
  simp at split

theorem settled_cons {harmless : List ω → Prop} {stage : Stage ω} {rest : List (Stage ω)} :
    Settled harmless (stage :: rest) ↔
      (stage.passed = true ∨ harmless stage.left) ∧
        (stage.passed = true → Settled (fun later => harmless (stage.left ++ later)) rest) := by
  constructor
  · intro settled
    refine ⟨settled [] stage rest rfl (by simp), ?_⟩
    rintro passed front next back rfl reached
    have whole := settled (stage :: front) next back rfl
      (List.forall_mem_cons.mpr ⟨passed, reached⟩)
    rwa [List.flatMap_cons, List.append_assoc] at whole
  · rintro ⟨here, later⟩ front next back split reached
    cases front with
    | nil =>
        cases split
        exact here
    | cons first front =>
        cases split
        obtain ⟨passed, reached⟩ := List.forall_mem_cons.mp reached
        rw [List.flatMap_cons, List.append_assoc]
        exact later passed front next back rfl reached

/-- A task that fails has done no harm exactly where its stages are settled. -/
theorem harmless_iff {harmless : List ω → Prop} {stages : List (Stage ω)} :
    ((run stages).passed = false → harmless (run stages).left) ↔ Settled harmless stages := by
  induction stages generalizing harmless with
  | nil => exact iff_of_true (by simp [run]) settled_nil
  | cons stage rest ih =>
      rw [settled_cons]
      cases passed : stage.passed with
      | false =>
          rw [run_stopped passed]
          simp [passed]
      | true =>
          rw [run_passed passed, ← ih]
          simp

end Staged
