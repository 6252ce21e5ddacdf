import Mathlib.Data.List.Infix
import Mathlib.Data.Option.Basic
import DevGate.Py.Re

set_option autoImplicit false

/- Scanning with a pattern: what stops a match, and which matches a scan finds. -/
namespace Py.Re

/-- No anchors, and no class holds `x`. -/
def Avoids (x : Chr) : Re → Prop
  | .chr p => p x = false
  | .bol => False
  | .eol => False
  | .seq a b => a.Avoids x ∧ b.Avoids x
  | .alt a b => a.Avoids x ∧ b.Avoids x
  | .star _ a => a.Avoids x
  | .group a => a.Avoids x

instance avoidsDecidable (x : Chr) : (r : Re) → Decidable (r.Avoids x)
  | .chr p => inferInstanceAs (Decidable (p x = false))
  | .bol => inferInstanceAs (Decidable False)
  | .eol => inferInstanceAs (Decidable False)
  | .seq a b =>
      have := avoidsDecidable x a
      have := avoidsDecidable x b
      inferInstanceAs (Decidable (a.Avoids x ∧ b.Avoids x))
  | .alt a b =>
      have := avoidsDecidable x a
      have := avoidsDecidable x b
      inferInstanceAs (Decidable (a.Avoids x ∧ b.Avoids x))
  | .star _ a => avoidsDecidable x a
  | .group a => avoidsDecidable x a

/-- The end of the text, or a text that starts with `x`. -/
def Stops (x : Chr) (after : Str) : Prop := ∀ d ∈ after.head?, d = x

/-- `c` stands where `d` does, with `after` behind it. -/
structure Ahead (after : Str) (c d : Cursor) : Prop where
  rest : c.rest = d.rest ++ after
  captured : c.captured = d.captured

section

variable {α β : Type} {R : α → β → Prop} {x : Chr} {after : Str}

/-- The two runs go alike wherever their continuations do. -/
def Alike (R : α → β → Prop) (after : Str)
    (run : Cursor → (Cursor → Option α) → Option α)
    (run' : Cursor → (Cursor → Option β) → Option β) : Prop :=
  ∀ c d k l, Ahead after c d →
    (∀ c' d', Ahead after c' d' → Option.Rel R (k c') (l d')) → Option.Rel R (run c k) (run' d l)

theorem rel_orElse {a a' : Option α} {b b' : Option β} (first : Option.Rel R a b)
    (second : Option.Rel R a' b') : Option.Rel R (a.orElse fun _ => a') (b.orElse fun _ => b') := by
  cases first with
  | some same => exact .some same
  | none => exact second

/-- With fuel for every character left, the loops go alike. -/
theorem loop_alike {once : Cursor → (Cursor → Option α) → Option α}
    {once' : Cursor → (Cursor → Option β) → Option β} (alike : Alike R after once once')
    (greedy : Bool) (n : Nat) : ∀ n' c d k l, c.rest.length < n → d.rest.length < n' →
      Ahead after c d → (∀ c' d', Ahead after c' d' → Option.Rel R (k c') (l d')) →
        Option.Rel R (loop once greedy n c k) (loop once' greedy n' d l) := by
  induction n with
  | zero => intro n' c d k l short; omega
  | succ n ih =>
      intro n' c d k l room room' ahead goesOn
      obtain ⟨n', rfl⟩ := Nat.exists_eq_add_of_lt room'
      have lengths := congrArg List.length ahead.rest
      rw [List.length_append] at lengths
      have again : Option.Rel R
          (once c (fun c' => if c'.rest.length < c.rest.length then loop once greedy n c' k else none))
          (once' d (fun d' => if d'.rest.length < d.rest.length then
            loop once' greedy (d.rest.length + n') d' l else none)) := by
        refine alike c d _ _ ahead (fun c' d' moved => ?_)
        have movedLengths := congrArg List.length moved.rest
        rw [List.length_append] at movedLengths
        by_cases shorter : c'.rest.length < c.rest.length
        · rw [if_pos shorter, if_pos (by omega)]
          exact ih _ c' d' k l (by omega) (by omega) moved goesOn
        · rw [if_neg shorter, if_neg (by omega)]
          exact .none
      have stop := goesOn c d ahead
      unfold loop
      dsimp only
      cases greedy with
      | true => exact rel_orElse again stop
      | false => exact rel_orElse stop again

/-- A pattern that avoids `x` does not look past it. -/
theorem exec_alike (stops : Stops x after) (r : Re) (avoids : r.Avoids x) :
    Alike R after (exec r) (exec r) := by
  induction r with
  | chr p =>
      intro c d k l ahead goesOn
      unfold exec
      rw [ahead.rest]
      cases here : d.rest with
      | nil =>
          rw [List.nil_append]
          cases beyond : after with
          | nil => exact .none
          | cons y rest =>
              have same : y = x := stops y (by rw [beyond]; rfl)
              have refused : p y = false := by
                rw [same]
                exact avoids
              simp only [refused]
              exact .none
      | cons y rest =>
          dsimp only [List.cons_append]
          cases p y with
          | true => exact goesOn _ _ ⟨rfl, ahead.captured⟩
          | false => exact .none
  | bol => exact absurd avoids id
  | eol => exact absurd avoids id
  | seq a b iha ihb =>
      intro c d k l ahead goesOn
      exact iha avoids.1 c d _ _ ahead (fun c' d' moved => ihb avoids.2 c' d' k l moved goesOn)
  | alt a b iha ihb =>
      intro c d k l ahead goesOn
      exact rel_orElse (iha avoids.1 c d k l ahead goesOn) (ihb avoids.2 c d k l ahead goesOn)
  | star greedy a ih =>
      intro c d k l ahead goesOn
      exact loop_alike (ih avoids) greedy _ _ c d k l (by omega) (by omega) ahead goesOn
  | group a ih =>
      intro c d k l ahead goesOn
      refine ih avoids c d _ _ ahead (fun c' d' moved => goesOn _ _ ⟨moved.rest, ?_⟩)
      have lengths := congrArg List.length ahead.rest
      have movedLengths := congrArg List.length moved.rest
      rw [List.length_append] at lengths movedLengths
      have within : c.rest.length - c'.rest.length = d.rest.length - d'.rest.length := by omega
      rw [within, ahead.rest, List.take_append_of_le_length (by omega)]

end

/-- What `findall` reports of a match at the head of `s`. -/
def hitAt (r : Re) (s : Str) : Option Str :=
  (exec r ⟨none, s, none⟩ some).map
    (fun c => c.captured.getD (s.take (s.length - c.rest.length)))

/-- Behind a character that the pattern avoids there is nothing to see. -/
theorem hitAt_append {r : Re} {x : Chr} (avoids : r.Avoids x) {after : Str}
    (stops : Stops x after) (s : Str) : hitAt r (s ++ after) = hitAt r s := by
  have alike := exec_alike (R := Ahead after) stops r avoids ⟨none, s ++ after, none⟩
    ⟨none, s, none⟩ some some ⟨rfl, rfl⟩ (fun c' d' moved => .some moved)
  unfold hitAt
  cases left : exec r ⟨none, s ++ after, none⟩ some with
  | none =>
      rw [left] at alike
      cases alike' : exec r ⟨none, s, none⟩ some with
      | none => rfl
      | some d =>
          rw [alike'] at alike
          cases alike
  | some c =>
      rw [left] at alike
      cases right : exec r ⟨none, s, none⟩ some with
      | none =>
          rw [right] at alike
          cases alike
      | some d =>
          rw [right] at alike
          cases alike with
          | some moved =>
              rw [Option.map_some, Option.map_some, moved.captured, moved.rest]
              congr 2
              rw [List.length_append, List.length_append, Nat.add_sub_add_right,
                List.take_append_of_le_length (by omega)]

/-- Where the scan stands before a match plays no part. -/
theorem exec_prev {r : Re} {x : Chr} (avoids : r.Avoids x) (prev : Option Chr) (s : Str) :
    Option.Rel (Ahead []) (exec r ⟨prev, s, none⟩ some) (exec r ⟨none, s, none⟩ some) := by
  have stops : Stops x [] := by simp [Stops]
  exact exec_alike stops r avoids ⟨prev, s, none⟩ ⟨none, s, none⟩ some some ⟨by simp, rfl⟩
    (fun c' d' moved => .some moved)

theorem hitAt_of_exec {r : Re} {x : Chr} (avoids : r.Avoids x) {prev : Option Chr} {s : Str}
    {c : Cursor} (went : exec r ⟨prev, s, none⟩ some = some c) :
    ∃ d, exec r ⟨none, s, none⟩ some = some d ∧ d.rest = c.rest ∧
      hitAt r s = some (c.captured.getD (s.take (s.length - c.rest.length))) := by
  have same := exec_prev avoids prev s
  rw [went] at same
  unfold hitAt
  cases right : exec r ⟨none, s, none⟩ some with
  | none =>
      rw [right] at same
      cases same
  | some d =>
      rw [right] at same
      cases same with
      | some moved =>
          have rest : c.rest = d.rest := by
            rw [moved.rest, List.append_nil]
          exact ⟨d, rfl, rest.symm, by rw [Option.map_some, moved.captured, rest]⟩

theorem hitAt_eq_none {r : Re} {x : Chr} (avoids : r.Avoids x) {prev : Option Chr} {s : Str}
    (failed : exec r ⟨prev, s, none⟩ some = none) : hitAt r s = none := by
  have same := exec_prev avoids prev s
  rw [failed] at same
  unfold hitAt
  cases right : exec r ⟨none, s, none⟩ some with
  | none => rfl
  | some d =>
      rw [right] at same
      cases same

/-- A literal text that was matched stood there. -/
theorem exec_word_some {α : Type} {cs : List Char} {c : Cursor} {k : Cursor → Option α} {a : α}
    (went : exec (word cs) c k = some a) :
    ∃ c', c.rest = cs.map Chr.ofChar ++ c'.rest ∧ k c' = some a := by
  induction cs generalizing c with
  | nil =>
      rw [word, exec_empty] at went
      exact ⟨c, rfl, went⟩
  | cons d cs ih =>
      unfold word exec char exec at went
      cases here : c.rest with
      | nil =>
          rw [here] at went
          cases went
      | cons y rest =>
          rw [here] at went
          dsimp only at went
          split at went
          · rename_i same
            obtain ⟨c', shape, next⟩ := ih went
            refine ⟨c', ?_, next⟩
            rw [beq_iff_eq.mp same, List.map_cons, List.cons_append, ← shape]
          · cases went

/-- Matches consume something, and none starts inside another. -/
def Sparse (r : Re) : Prop :=
  ∀ s c, exec r ⟨none, s, none⟩ some = some c → ∃ w, s = w ++ c.rest ∧ w ≠ [] ∧
    ∀ v u, w = v ++ u → v ≠ [] → u ≠ [] → hitAt r (u ++ c.rest) = none

/-- The search stops at the first position with a match. -/
theorem searchFrom_eq_none {r : Re} {x : Chr} (avoids : r.Avoids x) {s : Str} {prev : Option Chr}
    (failed : searchFrom r prev s = none) : ∀ u, u <:+ s → hitAt r u = none := by
  induction s generalizing prev with
  | nil =>
      intro u tail
      rw [List.suffix_nil.mp tail]
      unfold searchFrom at failed
      rw [Option.map_eq_none_iff] at failed
      exact hitAt_eq_none avoids failed
  | cons d rest ih =>
      intro u tail
      unfold searchFrom at failed
      split at failed
      · cases failed
      · rename_i here
        rcases List.suffix_cons_iff.mp tail with rfl | later
        · exact hitAt_eq_none avoids here
        · exact ih failed u later

theorem searchFrom_eq_some {r : Re} {x : Chr} (avoids : r.Avoids x) {s start : Str} {c : Cursor}
    {prev : Option Chr} (found : searchFrom r prev s = some (start, c)) :
    start <:+ s ∧ (∃ prev', exec r ⟨prev', start, none⟩ some = some c) ∧
      ∀ u, u <:+ s → start.length < u.length → hitAt r u = none := by
  induction s generalizing prev with
  | nil =>
      unfold searchFrom at found
      obtain ⟨c', here, same⟩ := Option.map_eq_some_iff.mp found
      cases same
      refine ⟨List.suffix_rfl, ⟨prev, here⟩, ?_⟩
      intro u tail longer
      rw [List.suffix_nil.mp tail] at longer
      simp at longer
  | cons d rest ih =>
      unfold searchFrom at found
      split at found
      · rename_i c' here
        cases found
        refine ⟨List.suffix_rfl, ⟨prev, here⟩, ?_⟩
        intro u tail longer
        have short := tail.length_le
        omega
      · rename_i here
        obtain ⟨tail, matched, first⟩ := ih found
        refine ⟨tail.trans (List.suffix_cons d rest), matched, ?_⟩
        intro u inside longer
        rcases List.suffix_cons_iff.mp inside with rfl | later
        · exact hitAt_eq_none avoids here
        · exact first u later longer

/-- A suffix of a match and what follows it: the whole, inside the match, or behind it. -/
theorem suffix_append_cases {w rest u : Str} (tail : u <:+ w ++ rest) :
    u <:+ rest ∨ ∃ v y, w = v ++ y ∧ y ≠ [] ∧ u = y ++ rest := by
  obtain ⟨front, split⟩ := tail
  rcases List.append_eq_append_iff.mp split with ⟨y, rfl, rfl⟩ | ⟨c, -, rfl⟩
  · by_cases empty : y = []
    · exact .inl (by rw [empty]; exact List.suffix_rfl)
    · exact .inr ⟨front, y, rfl, empty, rfl⟩
  · exact .inl (List.suffix_append c u)

theorem mem_findallFrom {r : Re} {x : Chr} (avoids : r.Avoids x) (sparse : Sparse r) {g : Str}
    (n : Nat) : ∀ prev s, s.length < n →
      (g ∈ findallFrom r n prev s ↔ ∃ u, u <:+ s ∧ hitAt r u = some g) := by
  induction n with
  | zero => intro prev s short; omega
  | succ n ih =>
      intro prev s short
      unfold findallFrom
      cases found : searchFrom r prev s with
      | none =>
          dsimp only
          constructor
          · intro member
            cases member
          · rintro ⟨u, tail, hit⟩
            rw [searchFrom_eq_none avoids found u tail] at hit
            cases hit
      | some pair =>
          obtain ⟨start, c⟩ := pair
          obtain ⟨tail, ⟨prev', went⟩, first⟩ := searchFrom_eq_some avoids found
          obtain ⟨d, plain, sameRest, hit⟩ := hitAt_of_exec avoids went
          obtain ⟨w, whole, some_, inside⟩ := sparse start d plain
          rw [sameRest] at whole inside
          have taken : start.take (start.length - c.rest.length) = w := by
            rw [whole, List.length_append, Nat.add_sub_cancel, List.take_left]
          have nonempty : start ≠ [] := by
            rw [whole]
            exact List.append_ne_nil_of_left_ne_nil some_ _
          have shorter : c.rest.length < n := by
            have bound := tail.length_le
            have lengths := congrArg List.length whole
            rw [List.length_append] at lengths
            have positive := List.length_pos_of_ne_nil some_
            omega
          dsimp only
          rw [taken, if_neg some_, if_neg nonempty, List.mem_cons, ih c.prev c.rest shorter]
          rw [taken] at hit
          constructor
          · rintro (rfl | ⟨u, later, here⟩)
            · exact ⟨start, tail, hit⟩
            · refine ⟨u, later.trans (List.IsSuffix.trans ?_ tail), here⟩
              rw [whole]
              exact List.suffix_append w c.rest
          · rintro ⟨u, within, here⟩
            by_cases longer : start.length < u.length
            · rw [first u within longer] at here
              cases here
            · have below : u <:+ w ++ c.rest := by
                rw [← whole]
                exact List.suffix_of_suffix_length_le within tail (by omega)
              rcases suffix_append_cases below with later | ⟨v, y, split, filled, rfl⟩
              · exact .inr ⟨u, later, here⟩
              · by_cases all : v = []
                · rw [all, List.nil_append] at split
                  rw [← split, ← whole, hit, Option.some.injEq] at here
                  exact .inl here.symm
                · rw [inside v y split all filled] at here
                  cases here

/-- A scan with a sparse pattern reports the matches at all positions. -/
theorem mem_findall {r : Re} {x : Chr} (avoids : r.Avoids x) (sparse : Sparse r) {g s : Str} :
    g ∈ findall r s ↔ ∃ u, u <:+ s ∧ hitAt r u = some g :=
  mem_findallFrom avoids sparse (s.length + 1) none s (by omega)

/-- No anchor at the end of a line. -/
def Endless : Re → Prop
  | .chr _ => True
  | .bol => True
  | .eol => False
  | .seq a b => a.Endless ∧ b.Endless
  | .alt a b => a.Endless ∧ b.Endless
  | .star _ a => a.Endless
  | .group a => a.Endless

theorem endless_word (cs : List Char) : (word cs).Endless := by
  induction cs with
  | nil => trivial
  | cons c rest ih => exact ⟨trivial, ih⟩

/-- `c` stands where `d` does, with more text behind it. -/
structure Longer (after : Str) (c d : Cursor) : Prop where
  prev : c.prev = d.prev
  rest : c.rest = d.rest ++ after

section

variable {α β : Type} {after : Str}

/-- Where the second run succeeds the first one does, if its continuation does. -/
def Outlasts (after : Str) (run : Cursor → (Cursor → Option α) → Option α)
    (run' : Cursor → (Cursor → Option β) → Option β) : Prop :=
  ∀ c d k l, Longer after c d →
    (∀ c' d', Longer after c' d' → (l d').isSome → (k c').isSome) →
      (run' d l).isSome → (run c k).isSome

theorem isSome_orElse (a : Option α) (b : Option α) :
    (a.orElse fun _ => b).isSome ↔ a.isSome ∨ b.isSome := by
  cases a <;> simp

theorem loop_isSome_succ (once : Cursor → (Cursor → Option α) → Option α) (greedy : Bool) (n : Nat)
    (c : Cursor) (k : Cursor → Option α) :
    (loop once greedy (n + 1) c k).isSome ↔
      (once c (fun c' => if c'.rest.length < c.rest.length then loop once greedy n c' k
        else none)).isSome ∨ (k c).isSome := by
  conv => lhs; unfold loop
  cases greedy with
  | true => exact isSome_orElse _ _
  | false => exact (isSome_orElse _ _).trans or_comm

theorem loop_outlasts {once : Cursor → (Cursor → Option α) → Option α}
    {once' : Cursor → (Cursor → Option β) → Option β} (outlasts : Outlasts after once once')
    (greedy : Bool) (m : Nat) : ∀ n c d k l, c.rest.length < n → Longer after c d →
      (∀ c' d', Longer after c' d' → (l d').isSome → (k c').isSome) →
        (loop once' greedy m d l).isSome → (loop once greedy n c k).isSome := by
  induction m with
  | zero =>
      intro n c d k l room longer goesOn went
      obtain ⟨n, rfl⟩ := Nat.exists_eq_add_of_lt room
      exact (loop_isSome_succ once greedy _ c k).mpr (.inr (goesOn c d longer went))
  | succ m ih =>
      intro n c d k l room longer goesOn went
      obtain ⟨n, rfl⟩ := Nat.exists_eq_add_of_lt room
      rcases (loop_isSome_succ once' greedy m d l).mp went with again | stop
      · refine (loop_isSome_succ once greedy _ c k).mpr (.inl ?_)
        refine outlasts c d _ _ longer (fun c' d' moved inner => ?_) again
        have lengths := congrArg List.length longer.rest
        have movedLengths := congrArg List.length moved.rest
        rw [List.length_append] at lengths movedLengths
        by_cases shorter : d'.rest.length < d.rest.length
        · rw [if_pos shorter] at inner
          rw [if_pos (by omega)]
          exact ih _ c' d' k l (by omega) moved goesOn inner
        · rw [if_neg shorter] at inner
          cases inner
      · exact (loop_isSome_succ once greedy _ c k).mpr (.inr (goesOn c d longer stop))

/-- More text behind a match does not undo it. -/
theorem exec_outlasts (r : Re) (endless : r.Endless) :
    Outlasts after (@exec α r) (@exec β r) := by
  induction r with
  | chr p =>
      intro c d k l longer goesOn went
      unfold exec at went ⊢
      rw [longer.rest]
      cases here : d.rest with
      | nil =>
          rw [here] at went
          cases went
      | cons y rest =>
          rw [here] at went
          dsimp only [List.cons_append] at went ⊢
          cases accepted : p y with
          | false =>
              rw [accepted] at went
              cases went
          | true =>
              rw [accepted] at went
              exact goesOn { c with prev := some y, rest := rest ++ after }
                { d with prev := some y, rest := rest } ⟨rfl, rfl⟩ went
  | bol =>
      intro c d k l longer goesOn went
      unfold exec at went ⊢
      rw [longer.prev]
      by_cases begins : d.prev = none ∨ d.prev = some (Chr.ofChar '\n')
      · rw [if_pos begins] at went ⊢
        exact goesOn c d longer went
      · rw [if_neg begins] at went
        cases went
  | eol => exact absurd endless id
  | seq a b iha ihb =>
      intro c d k l longer goesOn went
      exact iha endless.1 c d _ _ longer
        (fun c' d' moved inner => ihb endless.2 c' d' k l moved goesOn inner) went
  | alt a b iha ihb =>
      intro c d k l longer goesOn went
      unfold exec at went ⊢
      rw [isSome_orElse] at went ⊢
      rcases went with left | right
      · exact .inl (iha endless.1 c d k l longer goesOn left)
      · exact .inr (ihb endless.2 c d k l longer goesOn right)
  | star greedy a ih =>
      intro c d k l longer goesOn went
      exact loop_outlasts (ih endless) greedy _ _ c d k l (by omega) longer goesOn went
  | group a ih =>
      intro c d k l longer goesOn went
      unfold exec at went ⊢
      refine ih endless c d _ _ longer (fun c' d' moved inner => ?_) went
      refine goesOn _ _ ?_ inner
      exact ⟨moved.prev, moved.rest⟩

end

/-- What was found in a text is found in every longer one. -/
theorem searchFrom_append {r : Re} (endless : r.Endless) (after : Str) {s : Str} {prev : Option Chr}
    (found : (searchFrom r prev s).isSome) : (searchFrom r prev (s ++ after)).isSome := by
  have further (u : Str) (before : Option Chr) (went : (exec r ⟨before, u, none⟩ some).isSome) :
      (exec r ⟨before, u ++ after, none⟩ some).isSome :=
    exec_outlasts r endless ⟨before, u ++ after, none⟩ ⟨before, u, none⟩ some some ⟨rfl, rfl⟩
      (fun _ _ _ _ => rfl) went
  have starts (u : Str) (before : Option Chr) (went : (exec r ⟨before, u, none⟩ some).isSome) :
      (searchFrom r before u).isSome := by
    cases u with
    | nil =>
        unfold searchFrom
        rw [Option.isSome_map]
        exact went
    | cons d rest =>
        obtain ⟨c, ended⟩ := Option.isSome_iff_exists.mp went
        unfold searchFrom
        rw [ended]
        rfl
  induction s generalizing prev with
  | nil =>
      unfold searchFrom at found
      rw [Option.isSome_map] at found
      exact starts _ _ (further [] prev found)
  | cons d rest ih =>
      cases here : exec r ⟨prev, d :: rest, none⟩ some with
      | some c =>
          refine starts _ _ (further (d :: rest) prev ?_)
          rw [here]
          rfl
      | none =>
          unfold searchFrom at found
          rw [here] at found
          have later := ih found
          rw [List.cons_append]
          unfold searchFrom
          cases exec r ⟨prev, d :: (rest ++ after), none⟩ some with
          | some c => rfl
          | none => exact later

end Py.Re
