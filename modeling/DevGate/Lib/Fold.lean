import Mathlib.Data.List.Forall2

set_option autoImplicit false

/- Traversals that may raise: when one ends, and what it did at each item. -/
namespace Fold

variable {σ α β ε : Type}

/-- Nothing was raised. -/
def Ends (x : Except ε α) : Prop := ∃ a, x = .ok a

@[simp] theorem ends_ok (a : α) : Ends (.ok a : Except ε α) := ⟨a, rfl⟩

@[simp] theorem ends_error (e : ε) : ¬ Ends (.error e : Except ε α) := by
  rintro ⟨a, same⟩
  cases same

theorem ends_bind {x : Except ε α} {f : α → Except ε β} :
    Ends (x >>= f) ↔ ∃ a, x = .ok a ∧ Ends (f a) := by
  cases x with
  | error e =>
      constructor
      · rintro ⟨b, same⟩
        cases same
      · rintro ⟨a, same, -⟩
        cases same
  | ok a =>
      constructor
      · intro later
        exact ⟨a, rfl, later⟩
      · rintro ⟨a', same, later⟩
        cases same
        exact later

theorem Ends.bind {x : Except ε α} {f : α → Except ε β} (first : Ends x)
    (later : ∀ a, x = .ok a → Ends (f a)) : Ends (x >>= f) := by
  obtain ⟨a, ran⟩ := first
  exact ends_bind.mpr ⟨a, ran, later a ran⟩

theorem ends_ite {c : Prop} [Decidable c] {x y : Except ε α} (left : Ends x) (right : Ends y) :
    Ends (if c then x else y) := by
  by_cases holds : c
  · rwa [if_pos holds]
  · rwa [if_neg holds]

theorem foldlM_ends {f : σ → α → Except ε σ} {xs : List α} (each : ∀ x ∈ xs, ∀ s, Ends (f s x))
    (s : σ) : Ends (xs.foldlM f s) := by
  induction xs generalizing s with
  | nil => exact ends_ok s
  | cons x rest ih =>
      rw [List.foldlM_cons]
      exact (each x List.mem_cons_self s).bind
        (fun s' _ => ih (fun y member => each y (List.mem_cons_of_mem _ member)) s')

/-- A fold that ended took a step at each of its items. -/
theorem ends_of_foldlM {f : σ → α → Except ε σ} {xs : List α} {s : σ} (ran : Ends (xs.foldlM f s)) :
    ∀ x ∈ xs, ∃ s', Ends (f s' x) := by
  induction xs generalizing s with
  | nil => exact fun x member => absurd member List.not_mem_nil
  | cons y rest ih =>
      rw [List.foldlM_cons] at ran
      obtain ⟨s', here, later⟩ := ends_bind.mp ran
      intro x member
      rcases List.mem_cons.mp member with rfl | member
      · exact ⟨s, s', here⟩
      · exact ih later x member

/-- A fold ends when every step it reaches does. -/
theorem foldlM_ends_iff {f : σ → α → Except ε σ} {xs : List α} {s : σ} :
    Ends (xs.foldlM f s) ↔ ∀ front x back mid, xs = front ++ x :: back →
      front.foldlM f s = .ok mid → Ends (f mid x) := by
  induction xs generalizing s with
  | nil =>
      refine ⟨fun _ front x back mid split => ?_, fun _ => ends_ok s⟩
      simp at split
  | cons y rest ih =>
      rw [List.foldlM_cons, ends_bind]
      constructor
      · rintro ⟨next, here, later⟩ front x back mid split reached
        cases front with
        | nil =>
            cases split
            cases reached
            exact ⟨next, here⟩
        | cons z front =>
            cases split
            rw [List.foldlM_cons, here] at reached
            exact ih.mp later front x back mid rfl reached
      · intro each
        obtain ⟨next, here⟩ := each [] y rest s rfl rfl
        refine ⟨next, here, ih.mpr ?_⟩
        intro front x back mid split reached
        refine each (y :: front) x back mid (by rw [split]; rfl) ?_
        rw [List.foldlM_cons, here]
        exact reached

/-- What every step keeps holds at the end. -/
theorem foldlM_keeps {f : σ → α → Except ε σ} {P : σ → Prop} {xs : List α}
    (kept : ∀ x ∈ xs, ∀ s s', P s → f s x = .ok s' → P s') {s s' : σ} (start : P s)
    (ran : xs.foldlM f s = .ok s') : P s' := by
  induction xs generalizing s with
  | nil =>
      cases ran
      exact start
  | cons x rest ih =>
      rw [List.foldlM_cons] at ran
      obtain ⟨mid, here, -⟩ := ends_bind.mp ⟨s', ran⟩
      rw [here] at ran
      exact ih (fun y member => kept y (List.mem_cons_of_mem _ member))
        (kept x List.mem_cons_self s mid start here) ran

/-- What every step builds on the items behind it holds at the end. -/
theorem foldlM_builds {f : σ → α → Except ε σ} {P : List α → σ → Prop} {xs : List α}
    (built : ∀ front x back s s', xs = front ++ x :: back → P front s → f s x = .ok s' →
      P (front ++ [x]) s') {s s' : σ} (start : P [] s) (ran : xs.foldlM f s = .ok s') : P xs s' := by
  have each : ∀ (back front : List α) (s : σ), xs = front ++ back → P front s →
      back.foldlM f s = .ok s' → P xs s' := by
    intro back
    induction back with
    | nil =>
        intro front s split here ran
        cases ran
        rw [split, List.append_nil]
        exact here
    | cons x back ih =>
        intro front s split here ran
        rw [List.foldlM_cons] at ran
        obtain ⟨mid, went, -⟩ := ends_bind.mp ⟨s', ran⟩
        rw [went] at ran
        exact ih (front ++ [x]) mid (by rw [split, List.append_assoc]; rfl)
          (built front x back s mid split here went) ran
  exact each xs [] s rfl start ran

theorem foldlM_stays {f : σ → α → Except ε σ} {xs : List α} {s : σ}
    (stays : ∀ x ∈ xs, f s x = .ok s) : xs.foldlM f s = .ok s := by
  induction xs with
  | nil => rfl
  | cons x rest ih =>
      rw [List.foldlM_cons, stays x List.mem_cons_self]
      exact ih (fun y member => stays y (List.mem_cons_of_mem _ member))

/-- What every pair of steps keeps holds of two folds that both end. -/
theorem foldlM_relates {f : σ → α → Except ε σ} {R : σ → σ → Prop} {xs : List α}
    (kept : ∀ x ∈ xs, ∀ s t s' t', R s t → f s x = .ok s' → f t x = .ok t' → R s' t')
    {s t s' t' : σ} (start : R s t) (ran : xs.foldlM f s = .ok s') (ran' : xs.foldlM f t = .ok t') :
    R s' t' := by
  induction xs generalizing s t with
  | nil =>
      cases ran
      cases ran'
      exact start
  | cons x rest ih =>
      rw [List.foldlM_cons] at ran ran'
      obtain ⟨mid, here, -⟩ := ends_bind.mp ⟨s', ran⟩
      obtain ⟨mid', here', -⟩ := ends_bind.mp ⟨t', ran'⟩
      rw [here] at ran
      rw [here'] at ran'
      exact ih (fun y member => kept y (List.mem_cons_of_mem _ member))
        (kept x List.mem_cons_self s t mid mid' start here here') ran ran'

/-- A fold whose steps raise nothing is a plain one. -/
theorem foldlM_eq_foldl {f : σ → α → Except ε σ} {g : σ → α → σ} {xs : List α}
    (each : ∀ x ∈ xs, ∀ s, f s x = .ok (g s x)) (s : σ) : xs.foldlM f s = .ok (xs.foldl g s) := by
  induction xs generalizing s with
  | nil => rfl
  | cons x rest ih =>
      rw [List.foldlM_cons, each x List.mem_cons_self s, List.foldl_cons]
      exact ih (fun y member => each y (List.mem_cons_of_mem _ member)) (g s x)

theorem mapM_ends {f : α → Except ε β} {xs : List α} :
    Ends (xs.mapM f) ↔ ∀ x ∈ xs, Ends (f x) := by
  induction xs with
  | nil => simp [pure, Except.pure]
  | cons x rest ih =>
      rw [List.mapM_cons, List.forall_mem_cons, ← ih]
      constructor
      · intro ran
        obtain ⟨y, here, later⟩ := ends_bind.mp ran
        obtain ⟨ys, mapped, -⟩ := ends_bind.mp later
        exact ⟨⟨y, here⟩, ys, mapped⟩
      · rintro ⟨here, later⟩
        exact here.bind (fun y _ => later.bind (fun ys _ => ends_ok _))

/-- A traversal that answers pairs its items with its answers. -/
theorem mapM_forall₂ {f : α → Except ε β} {xs : List α} {ys : List β} :
    xs.mapM f = .ok ys ↔ List.Forall₂ (fun x y => f x = .ok y) xs ys := by
  induction xs generalizing ys with
  | nil =>
      rw [List.mapM_nil, List.forall₂_nil_left_iff]
      constructor
      · intro ran
        cases ran
        rfl
      · rintro rfl
        rfl
  | cons x rest ih =>
      rw [List.mapM_cons, List.forall₂_cons_left_iff]
      constructor
      · intro ran
        obtain ⟨y, here, later⟩ := ends_bind.mp ⟨ys, ran⟩
        obtain ⟨zs, mapped, -⟩ := ends_bind.mp later
        rw [here] at ran
        change (rest.mapM f >>= fun zs => pure (y :: zs)) = .ok ys at ran
        rw [mapped] at ran
        cases ran
        exact ⟨y, zs, here, ih.mp mapped, rfl⟩
      · rintro ⟨y, zs, here, mapped, rfl⟩
        rw [here]
        change (rest.mapM f >>= fun zs => pure (y :: zs)) = .ok (y :: zs)
        rw [ih.mpr mapped]
        rfl

/-- Two steps that agree along what they keep make the same fold. -/
theorem foldlM_congr {f g : σ → α → Except ε σ} {P : σ → Prop} {xs : List α}
    (same : ∀ x ∈ xs, ∀ s, P s → f s x = g s x)
    (kept : ∀ x ∈ xs, ∀ s s', P s → g s x = .ok s' → P s') {s : σ} (start : P s) :
    xs.foldlM f s = xs.foldlM g s := by
  induction xs generalizing s with
  | nil => rfl
  | cons x rest ih =>
      rw [List.foldlM_cons, List.foldlM_cons, same x List.mem_cons_self s start]
      cases here : g s x with
      | error e => rfl
      | ok mid =>
          exact ih (fun y member => same y (List.mem_cons_of_mem _ member))
            (fun y member => kept y (List.mem_cons_of_mem _ member))
            (kept x List.mem_cons_self s mid start here)

/-- An exception of a fold is one of a step's. -/
theorem foldlM_raises {f : σ → α → Except ε σ} {P : σ → Prop} {xs : List α}
    (kept : ∀ x ∈ xs, ∀ s s', P s → f s x = .ok s' → P s') {s : σ} (start : P s) {e : ε}
    (raised : xs.foldlM f s = .error e) : ∃ x ∈ xs, ∃ s', P s' ∧ f s' x = .error e := by
  induction xs generalizing s with
  | nil => cases raised
  | cons x rest ih =>
      rw [List.foldlM_cons] at raised
      cases here : f s x with
      | error e' =>
          rw [here] at raised
          cases raised
          exact ⟨x, List.mem_cons_self, s, start, here⟩
      | ok mid =>
          rw [here] at raised
          obtain ⟨y, member, later⟩ := ih (fun y member => kept y (List.mem_cons_of_mem _ member))
            (kept x List.mem_cons_self s mid start here) raised
          exact ⟨y, List.mem_cons_of_mem _ member, later⟩

end Fold
