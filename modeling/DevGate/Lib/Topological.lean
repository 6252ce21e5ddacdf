import Mathlib

set_option autoImplicit false

/- Lists in which everything comes after what it depends on, and values defined
by recursion along the dependencies. -/
namespace Topological

variable {α β : Type}

/-- Each item finds its dependencies in `done` or earlier in the list. -/
def Ordered (deps : α → List α) : List α → List α → Prop
  | _, [] => True
  | done, x :: rest => (∀ d ∈ deps x, d ∈ done) ∧ Ordered deps (done ++ [x]) rest

theorem ordered_append (deps : α → List α) (done front back : List α) :
    Ordered deps done (front ++ back) ↔
      Ordered deps done front ∧ Ordered deps (done ++ front) back := by
  induction front generalizing done with
  | nil => simp [Ordered]
  | cons x rest ih => simp [Ordered, ih, and_assoc]

theorem Ordered.concat {deps : α → List α} {done xs : List α} {x : α}
    (ordered : Ordered deps done xs) (known : ∀ d ∈ deps x, d ∈ done ++ xs) :
    Ordered deps done (xs ++ [x]) := by
  rw [ordered_append]
  exact ⟨ordered, known, trivial⟩

/-- The items are closed under dependencies, and a rank decreases along them. -/
structure Ranked (deps : α → List α) (xs : List α) (rank : α → Nat) : Prop where
  closed : ∀ x ∈ xs, ∀ d ∈ deps x, d ∈ xs ∧ rank d < rank x
  bounded : ∀ x ∈ xs, rank x < xs.length

/-- In an ordered list the position is a rank. -/
theorem Ordered.ranked [DecidableEq α] {deps : α → List α} {xs : List α}
    (ordered : Ordered deps [] xs) (distinct : xs.Nodup) :
    Ranked deps xs (fun x => xs.idxOf x) := by
  refine ⟨?_, fun x member => List.idxOf_lt_length_of_mem member⟩
  intro x member d needed
  obtain ⟨front, back, rfl⟩ := List.append_of_mem member
  have parts := (ordered_append deps [] front (x :: back)).mp ordered
  have early : d ∈ front := parts.2.1 d needed
  have late : x ∉ front := by
    intro twice
    have apart := (List.nodup_append.mp distinct).2.2 x twice x List.mem_cons_self
    exact apart rfl
  refine ⟨List.mem_append_left _ early, ?_⟩
  have before : front.idxOf d < front.length := List.idxOf_lt_length_of_mem early
  show (front ++ x :: back).idxOf d < (front ++ x :: back).idxOf x
  rw [List.idxOf_append_of_mem early, List.idxOf_append_of_notMem late]
  omega

theorem Ranked.perm {deps : α → List α} {xs ys : List α} {rank : α → Nat}
    (ranked : Ranked deps xs rank) (same : List.Perm xs ys) : Ranked deps ys rank := by
  refine ⟨?_, ?_⟩
  · intro x member d needed
    have before := ranked.closed x (same.mem_iff.mpr member) d needed
    exact ⟨same.mem_iff.mp before.1, before.2⟩
  · intro x member
    have bound := ranked.bounded x (same.mem_iff.mpr member)
    have lengths := same.length_eq
    omega

/-- `F f x` reads `f` at the dependencies of `x` only. -/
def Local (deps : α → List α) (F : (α → β) → α → β) : Prop :=
  ∀ x f g, (∀ d ∈ deps x, f d = g d) → F f x = F g x

def Solves (F : (α → β) → α → β) (xs : List α) (f : α → β) : Prop := ∀ x ∈ xs, f x = F f x

/-- A recursion along the dependencies has at most one solution. -/
theorem Ranked.unique {deps : α → List α} {xs : List α} {rank : α → Nat}
    (ranked : Ranked deps xs rank) {F : (α → β) → α → β} (reads : Local deps F) {f g : α → β}
    (left : Solves F xs f) (right : Solves F xs g) : ∀ x ∈ xs, f x = g x := by
  have below : ∀ n, ∀ x ∈ xs, rank x < n → f x = g x := by
    intro n
    induction n with
    | zero => intro x _ none; omega
    | succ n ih =>
        intro x member small
        rw [left x member, right x member]
        apply reads
        intro d needed
        have before := ranked.closed x member d needed
        exact ih d before.1 (by omega)
  intro x member
  exact below (rank x + 1) x member (by omega)

/-- The recursion unfolded `n` times from `start`. -/
def solve (F : (α → β) → α → β) (start : β) : Nat → α → β
  | 0, _ => start
  | n + 1, x => F (solve F start n) x

theorem Ranked.solve_succ {deps : α → List α} {xs : List α} {rank : α → Nat}
    (ranked : Ranked deps xs rank) {F : (α → β) → α → β} (reads : Local deps F) (start : β)
    (n : Nat) : ∀ x ∈ xs, rank x < n → solve F start (n + 1) x = solve F start n x := by
  induction n with
  | zero => intro x _ none; omega
  | succ n ih =>
      intro x member small
      show F (solve F start (n + 1)) x = F (solve F start n) x
      apply reads
      intro d needed
      have before := ranked.closed x member d needed
      exact ih d before.1 (by omega)

/-- Unfolded once for every item, it is solved. -/
theorem Ranked.solves {deps : α → List α} {xs : List α} {rank : α → Nat}
    (ranked : Ranked deps xs rank) {F : (α → β) → α → β} (reads : Local deps F) (start : β) :
    Solves F xs (solve F start xs.length) := by
  intro x member
  have settled := ranked.solve_succ reads start xs.length x member (ranked.bounded x member)
  rw [← settled]
  rfl

/-- `y` is a dependency of `x`, directly or through others. -/
def Reaches (deps : α → List α) : α → α → Prop := Relation.TransGen (fun x d => d ∈ deps x)

def Acyclic (deps : α → List α) : Prop := ∀ x, ¬Reaches deps x x

theorem Ranked.descends {deps : α → List α} {xs : List α} {rank : α → Nat}
    (ranked : Ranked deps xs rank) {x y : α} (member : x ∈ xs) (reaches : Reaches deps x y) :
    y ∈ xs ∧ rank y < rank x := by
  induction reaches with
  | single needed => exact ranked.closed x member _ needed
  | tail _ needed ih =>
      have before := ranked.closed _ ih.1 _ needed
      exact ⟨before.1, by omega⟩

theorem Ranked.acyclic {deps : α → List α} {xs : List α} {rank : α → Nat}
    (ranked : Ranked deps xs rank) (outside : ∀ x, x ∉ xs → deps x = []) : Acyclic deps := by
  intro x cycle
  by_cases member : x ∈ xs
  · have below := (ranked.descends member cycle).2
    omega
  · obtain ⟨d, needed, -⟩ := Relation.TransGen.head'_iff.mp cycle
    rw [outside x member] at needed
    cases needed

open Classical in
/-- Without cycles, the number of items an item reaches is a rank. -/
theorem Acyclic.ranked {deps : α → List α} (acyclic : Acyclic deps) {xs : List α}
    (distinct : xs.Nodup) (closed : ∀ x ∈ xs, ∀ d ∈ deps x, d ∈ xs) :
    ∃ rank, Ranked deps xs rank := by
  refine ⟨fun x => (xs.toFinset.filter (Reaches deps x)).card, ?_, ?_⟩
  · intro x member d needed
    refine ⟨closed x member d needed, Finset.card_lt_card ?_⟩
    rw [Finset.ssubset_iff_of_subset]
    · refine ⟨d, ?_, ?_⟩
      · simp only [Finset.mem_filter, List.mem_toFinset]
        exact ⟨closed x member d needed, .single needed⟩
      · simp only [Finset.mem_filter]
        exact fun inside => acyclic d inside.2
    · intro y inside
      simp only [Finset.mem_filter] at inside ⊢
      exact ⟨inside.1, .head needed inside.2⟩
  · intro x member
    have fewer : (xs.toFinset.filter (Reaches deps x)).card < xs.toFinset.card := by
      apply Finset.card_lt_card
      rw [Finset.ssubset_iff_of_subset (Finset.filter_subset _ _)]
      refine ⟨x, List.mem_toFinset.mpr member, ?_⟩
      simp only [Finset.mem_filter]
      exact fun inside => acyclic x inside.2
    rwa [List.toFinset_card_of_nodup distinct] at fewer

end Topological
