import DevGate.Lib.Fold
import DevGate.Py.Exc

set_option autoImplicit false

/- What a sequence of steps may raise, step by step. -/
namespace Py

section

variable {ε α β : Type} {P : ε → Prop}

/-- A sequence raises what its first step raises, and what its second does where it is reached. -/
theorem fails_bind_iff {x : Except ε α} {f : α → Except ε β} :
    Fails P (x >>= f) ↔ Fails P x ∧ ∀ a, x = .ok a → Fails P (f a) := by
  constructor
  · intro fails
    cases x with
    | error e => exact ⟨Fails.error (fails e rfl), fun _ ran => by cases ran⟩
    | ok a =>
        refine ⟨Fails.ok, ?_⟩
        rintro a' ⟨⟩
        exact fails
  · rintro ⟨first, next⟩
    exact first.bind next

/-- Where what a step answers does not matter to what comes after, only that it ends does. -/
theorem fails_step_iff {x : Except ε α} {f : α → Except ε β} {Q : Prop}
    (later : ∀ a, Fails P (f a) ↔ Q) : Fails P (x >>= f) ↔ Fails P x ∧ (Fold.Ends x → Q) := by
  simp only [fails_bind_iff, later]
  refine and_congr_right (fun _ => ?_)
  constructor
  · rintro next ⟨a, ran⟩
    exact next a ran
  · intro next a ran
    exact next ⟨a, ran⟩

/-- What is made of the result raises nothing. -/
theorem fails_map_iff {x : Except ε α} {f : α → β} :
    Fails P (x >>= fun a => .ok (f a)) ↔ Fails P x := by
  rw [fails_bind_iff, and_iff_left (fun _ _ => Fails.ok)]

theorem fails_error_iff {e : ε} : Fails P (.error e : Except ε α) ↔ P e :=
  ⟨fun fails => fails e rfl, Fails.error⟩

theorem fails_ok_iff {a : α} : Fails P (.ok a : Except ε α) ↔ True := iff_of_true Fails.ok trivial

/-- Where nothing that is raised is allowed, nothing is raised. -/
theorem fails_false_iff {x : Except ε α} : Fails (fun _ => False) x ↔ Fold.Ends x := by
  cases x with
  | error e => simp [fails_error_iff]
  | ok a => simp [fails_ok_iff]

theorem ends_map_iff {x : Except ε α} {f : α → β} :
    Fold.Ends (x >>= fun a => .ok (f a)) ↔ Fold.Ends x := by
  rw [← fails_false_iff, ← fails_false_iff, fails_map_iff]

end

/-- A property of each item and those before it, item by item. -/
theorem forall_split_cons {α : Type} {Q : List α → α → Prop} {x : α} {xs : List α} :
    (∀ front y back, x :: xs = front ++ y :: back → Q front y) ↔
      Q [] x ∧ ∀ front y back, xs = front ++ y :: back → Q (x :: front) y := by
  constructor
  · intro each
    exact ⟨each [] x xs rfl, fun front y back split => each (x :: front) y back (by rw [split]; rfl)⟩
  · rintro ⟨here, later⟩ front y back split
    cases front with
    | nil =>
        cases split
        exact here
    | cons z front =>
        cases split
        exact later front y back rfl

/-- A property of each item that those before it let through, item by item. -/
theorem forall_until_cons {α : Type} {passes Q : α → Prop} {x : α} {xs : List α} :
    (∀ front y back, x :: xs = front ++ y :: back → (∀ z ∈ front, passes z) → Q y) ↔
      Q x ∧ (passes x → ∀ front y back, xs = front ++ y :: back → (∀ z ∈ front, passes z) → Q y) := by
  rw [@forall_split_cons α (fun front y => (∀ z ∈ front, passes z) → Q y)]
  simp only [List.forall_mem_cons]
  constructor
  · rintro ⟨here, later⟩
    exact ⟨here (by simp), fun first front y back split passed =>
      later front y back split ⟨first, passed⟩⟩
  · rintro ⟨here, later⟩
    exact ⟨fun _ => here, fun front y back split passed =>
      later passed.1 front y back split passed.2⟩

end Py
