import DevGate.Py.ReScan

set_option autoImplicit false

/- Greedy repetitions of a class, which take a whole run where what follows goes on behind it. -/
namespace Py.Re

variable {α : Type} {p : Chr → Bool}

theorem exec_chr_some {c : Cursor} {k : Cursor → Option α} {a : α} (went : exec (.chr p) c k = some a) :
    ∃ d rest, c.rest = d :: rest ∧ p d = true ∧ k { c with prev := some d, rest := rest } = some a := by
  unfold exec at went
  cases here : c.rest with
  | nil =>
      rw [here] at went
      cases went
  | cons d rest =>
      rw [here] at went
      dsimp only at went
      split at went
      · next taken => exact ⟨d, rest, rfl, taken, went⟩
      · cases went

/-- A text at whose head the class ends. -/
def Ends (p : Chr → Bool) (after : Str) : Prop := ∀ d ∈ after.head?, p d = false

theorem exec_chr_ends {c : Cursor} {k : Cursor → Option α} (ends : Ends p c.rest) :
    exec (.chr p) c k = none := by
  unfold exec
  cases here : c.rest with
  | nil => rfl
  | cons d rest =>
      have other : p d = false := ends d (by rw [here]; rfl)
      simp only [other]
      rfl

theorem loop_run {after : Str} (ends : Ends p after) (captured : Option Str) {w : Str}
    (each : ∀ d ∈ w, p d = true) : ∀ (n : Nat) (prev : Option Chr), w.length < n →
      ∃ prev', ∀ (k : Cursor → Option α) (a : α), k ⟨prev', after, captured⟩ = some a →
        loop (exec (.chr p)) true n ⟨prev, w ++ after, captured⟩ k = some a := by
  induction w with
  | nil =>
      intro n prev room
      obtain ⟨n, rfl⟩ := Nat.exists_eq_add_of_lt room
      refine ⟨prev, fun k a went => ?_⟩
      unfold loop
      dsimp only [List.nil_append]
      rw [exec_chr_ends (c := ⟨prev, after, captured⟩) ends]
      exact went
  | cons d w ih =>
      intro n prev room
      rw [List.forall_mem_cons] at each
      obtain ⟨n, rfl⟩ : ∃ m, n = m + 1 := ⟨n - 1, by omega⟩
      obtain ⟨prev', next⟩ := ih each.2 n (some d) (by simpa using room)
      refine ⟨prev', fun k a went => ?_⟩
      unfold loop
      dsimp only [List.cons_append]
      have again : exec (.chr p) ⟨prev, d :: (w ++ after), captured⟩ (fun c' =>
          if c'.rest.length < (d :: (w ++ after)).length then loop (exec (.chr p)) true n c' k
          else none) = some a := by
        unfold exec
        dsimp only
        rw [if_pos each.1, if_pos (by simp)]
        exact next k a went
      rw [if_pos rfl, again]
      rfl

/-- A run of the class that ends there is taken in full, if what follows goes on behind it. -/
theorem exec_star_run {after : Str} (ends : Ends p after) (captured : Option Str) {w : Str}
    (each : ∀ d ∈ w, p d = true) (prev : Option Chr) :
    ∃ prev', ∀ (k : Cursor → Option α) (a : α), k ⟨prev', after, captured⟩ = some a →
      exec (.star true (.chr p)) ⟨prev, w ++ after, captured⟩ k = some a :=
  loop_run ends captured each _ prev (by simp)

theorem exec_plus_run {after : Str} (ends : Ends p after) (captured : Option Str) {w : Str}
    (filled : w ≠ []) (each : ∀ d ∈ w, p d = true) (prev : Option Chr) :
    ∃ prev', ∀ (k : Cursor → Option α) (a : α), k ⟨prev', after, captured⟩ = some a →
      exec (.plus true (.chr p)) ⟨prev, w ++ after, captured⟩ k = some a := by
  obtain ⟨d, w, rfl⟩ := List.exists_cons_of_ne_nil filled
  rw [List.forall_mem_cons] at each
  obtain ⟨prev', next⟩ := exec_star_run (α := α) ends captured each.2 (some d)
  refine ⟨prev', fun k a went => ?_⟩
  unfold plus
  show exec (.chr p) ⟨prev, d :: (w ++ after), captured⟩
    (fun c' => exec (.star true (.chr p)) c' k) = some a
  unfold exec
  dsimp only
  rw [if_pos each.1]
  exact next k a went

/-- What a repetition took is a run of the class. -/
theorem exec_plus_some {c : Cursor} {k : Cursor → Option α} {a : α}
    (went : exec (.plus true (.chr p)) c k = some a) :
    ∃ w c', c.rest = w ++ c'.rest ∧ w ≠ [] ∧ (∀ d ∈ w, p d = true) ∧ k c' = some a := by
  have went' : exec (.chr p) c (fun c' => exec (.star true (.chr p)) c' k) = some a := went
  obtain ⟨d, rest, here, first, next⟩ := exec_chr_some went'
  have within : (Re.star true (.chr p)).Within p := fun _ inside => inside
  obtain ⟨c', ⟨w, whole, each⟩, later⟩ := exec_sound _ within _ _ _ next
  refine ⟨d :: w, c', ?_, List.cons_ne_nil d w, List.forall_mem_cons.mpr ⟨first, each⟩, later⟩
  rw [here]
  exact congrArg (List.cons d) whole

end Py.Re
