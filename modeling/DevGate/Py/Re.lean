import DevGate.Py.Str

set_option autoImplicit false

/- A backtracking matcher for the `re` patterns with one capture group: the
alternatives are tried in priority order, and the first way to go on wins. -/
namespace Py

inductive Re where
  | chr (p : Chr → Bool)
  | bol
  | eol
  | seq (a b : Re)
  | alt (a b : Re)
  | star (greedy : Bool) (a : Re)
  | group (a : Re)

namespace Re

def char (c : Char) : Re := .chr (fun d => d == Chr.ofChar c)

/-- A literal text; the empty pattern is a star over no character. -/
def word : List Char → Re
  | [] => .star true (.chr (fun _ => false))
  | c :: rest => .seq (.char c) (.word rest)

/-- A lower-case ASCII letter under IGNORECASE. -/
def letter (c : Char) : Re :=
  .chr (fun d => d == Chr.ofChar c || d.val + 32 == c.toNat && c.isLower)

def wordIgnoreCase : List Char → Re
  | [] => .star true (.chr (fun _ => false))
  | c :: rest => .seq (.letter c) (.wordIgnoreCase rest)

def plus (greedy : Bool) (a : Re) : Re := .seq a (.star greedy a)

def times (a : Re) : Nat → Re
  | 0 => .star true (.chr (fun _ => false))
  | n + 1 => .seq a (.times a n)

/-- `[...]` over ASCII characters. -/
def oneOf (cs : List Char) : Re := .chr (fun d => cs.any (fun c => d == Chr.ofChar c))

/-- `\s`: the characters with `str.isspace`. -/
def isSpace (c : Chr) : Bool :=
  let n := c.val
  (9 ≤ n && n ≤ 13) || (28 ≤ n && n ≤ 32) || n == 0x85 || n == 0xa0 || n == 0x1680 ||
    (0x2000 ≤ n && n ≤ 0x200a) || n == 0x2028 || n == 0x2029 || n == 0x202f || n == 0x205f ||
    n == 0x3000

def space : Re := .chr isSpace

/-- `.` without DOTALL. -/
def dot : Re := .chr (fun c => c != Chr.ofChar '\n')

structure Cursor where
  prev : Option Chr
  rest : Str
  captured : Option Str

/-- Repetition: an iteration that consumes nothing ends the loop. -/
def loop {α : Type} (once : Cursor → (Cursor → Option α) → Option α) (greedy : Bool) :
    Nat → Cursor → (Cursor → Option α) → Option α
  | 0, c, k => k c
  | n + 1, c, k =>
      let again := once c (fun c' =>
        if c'.rest.length < c.rest.length then loop once greedy n c' k else none)
      if greedy then again.orElse (fun _ => k c) else (k c).orElse (fun _ => again)

def exec {α : Type} : Re → Cursor → (Cursor → Option α) → Option α
  | .chr p, c, k =>
      match c.rest with
      | d :: rest => if p d then k { c with prev := some d, rest := rest } else none
      | [] => none
  | .bol, c, k => if c.prev = none ∨ c.prev = some (Chr.ofChar '\n') then k c else none
  | .eol, c, k => if c.rest = [] ∨ c.rest.head? = some (Chr.ofChar '\n') then k c else none
  | .seq a b, c, k => exec a c (fun c' => exec b c' k)
  | .alt a b, c, k => (exec a c k).orElse (fun _ => exec b c k)
  | .star greedy a, c, k => loop (exec a) greedy (c.rest.length + 1) c k
  | .group a, c, k => exec a c (fun c' =>
      k { c' with captured := some (c.rest.take (c.rest.length - c'.rest.length)) })

/-- `re.fullmatch(pattern, s) is not None`. -/
def fullmatch (r : Re) (s : Str) : Bool :=
  (exec r ⟨none, s, none⟩ (fun c => if c.rest = [] then some () else none)).isSome

/-- The first match at or after each position: the text before it, and where it ended. -/
def searchFrom (r : Re) : Option Chr → Str → Option (Str × Cursor)
  | prev, [] => (exec r ⟨prev, [], none⟩ some).map (fun c => ([], c))
  | prev, d :: rest =>
      match exec r ⟨prev, d :: rest, none⟩ some with
      | some c => some (d :: rest, c)
      | none => searchFrom r (some d) rest

/-- `re.search(pattern, s).group(1)`. -/
def search (r : Re) (s : Str) : Option Str :=
  (searchFrom r none s).bind (fun found => found.2.captured)

/-- `re.findall`: group 1 where the pattern has one, else the whole match. An
empty match moves on by one character. -/
def findallFrom (r : Re) : Nat → Option Chr → Str → List Str
  | 0, _, _ => []
  | n + 1, prev, s =>
      match searchFrom r prev s with
      | none => []
      | some (start, c) =>
          let whole := start.take (start.length - c.rest.length)
          let next := if whole = [] then (start.head?, start.drop 1) else (c.prev, c.rest)
          c.captured.getD whole :: (if start = [] then [] else findallFrom r n next.1 next.2)

def findall (r : Re) (s : Str) : List Str := findallFrom r (s.length + 1) none s

theorem exec_empty {α : Type} (c : Cursor) (k : Cursor → Option α) :
    exec (star true (.chr (fun _ => false))) c k = k c := by
  obtain ⟨prev, rest, captured⟩ := c
  cases rest <;> rfl

/-- A literal text is matched where it stands. -/
theorem exec_word {α : Type} (cs : List Char) (prev : Option Chr) (rest : Str)
    (captured : Option Str) :
    ∃ prev', ∀ k : Cursor → Option α,
      exec (word cs) ⟨prev, cs.map Chr.ofChar ++ rest, captured⟩ k = k ⟨prev', rest, captured⟩ := by
  induction cs generalizing prev with
  | nil => exact ⟨prev, fun k => exec_empty _ k⟩
  | cons c cs ih =>
      obtain ⟨prev', next⟩ := ih (some (Chr.ofChar c))
      refine ⟨prev', fun k => ?_⟩
      rw [← next k]
      simp [word, exec, char]

/-- As many characters of a class as it is repeated. -/
theorem exec_times {α : Type} {cs : List Char} {s : Str} (each : ∀ c ∈ s, c ∈ cs.map Chr.ofChar)
    (prev : Option Chr) (rest : Str) (captured : Option Str) :
    ∃ prev', ∀ k : Cursor → Option α,
      exec (times (oneOf cs) s.length) ⟨prev, s ++ rest, captured⟩ k = k ⟨prev', rest, captured⟩ := by
  induction s generalizing prev with
  | nil => exact ⟨prev, fun k => exec_empty _ k⟩
  | cons c s ih =>
      rw [List.forall_mem_cons] at each
      obtain ⟨prev', next⟩ := ih each.2 (some c)
      have listed : cs.any (fun d => c == Chr.ofChar d) = true := by
        obtain ⟨d, inside, same⟩ := List.mem_map.mp each.1
        exact List.any_eq_true.mpr ⟨d, inside, beq_iff_eq.mpr same.symm⟩
      refine ⟨prev', fun k => ?_⟩
      rw [← next k]
      simp only [List.length_cons, times, oneOf, exec, List.cons_append, listed, ↓reduceIte]

theorem fullmatch_word_times (mark : List Char) {cs : List Char} {s : Str}
    (each : ∀ c ∈ s, c ∈ cs.map Chr.ofChar) :
    fullmatch (.seq (word mark) (times (oneOf cs) s.length)) (mark.map Chr.ofChar ++ s) = true := by
  obtain ⟨prev, first⟩ := exec_word mark none s none
  obtain ⟨prev', second⟩ := exec_times each prev [] none
  rw [List.append_nil] at second
  rw [fullmatch, exec, first, second]
  rfl

/-- Every class of the pattern lies inside `p`. -/
def Within (p : Chr → Bool) : Re → Prop
  | .chr q => ∀ c, q c = true → p c = true
  | .bol => True
  | .eol => True
  | .seq a b => a.Within p ∧ b.Within p
  | .alt a b => a.Within p ∧ b.Within p
  | .star _ a => a.Within p
  | .group a => a.Within p

theorem within_oneOf {p : Chr → Bool} {cs : List Char}
    (each : cs.all (fun d => p (Chr.ofChar d)) = true) : (oneOf cs).Within p := by
  intro c listed
  obtain ⟨d, inside, same⟩ := List.any_eq_true.mp listed
  rw [beq_iff_eq.mp same]
  exact List.all_eq_true.mp each d inside

theorem within_empty (p : Chr → Bool) : (star true (.chr (fun _ => false))).Within p := by
  intro c never
  cases never

theorem within_word {p : Chr → Bool} {cs : List Char}
    (each : cs.all (fun d => p (Chr.ofChar d)) = true) : (word cs).Within p := by
  induction cs with
  | nil => exact within_empty p
  | cons d rest ih =>
      rw [List.all_cons, Bool.and_eq_true] at each
      refine ⟨?_, ih each.2⟩
      intro c same
      rw [beq_iff_eq.mp same]
      exact each.1

theorem within_times {p : Chr → Bool} {a : Re} (within : a.Within p) (n : Nat) :
    (times a n).Within p := by
  induction n with
  | zero => exact within_empty p
  | succ n ih => exact ⟨within, ih⟩

/-- A step from `c` to `c'` that consumed only characters of `p`. -/
def Consumes (p : Chr → Bool) (c c' : Cursor) : Prop :=
  ∃ w : Str, c.rest = w ++ c'.rest ∧ ∀ d ∈ w, p d = true

theorem Consumes.refl (p : Chr → Bool) (c : Cursor) : Consumes p c c :=
  ⟨[], rfl, fun _ member => absurd member List.not_mem_nil⟩

theorem Consumes.trans {p : Chr → Bool} {a b c : Cursor} (first : Consumes p a b)
    (second : Consumes p b c) : Consumes p a c := by
  obtain ⟨v, front, inside⟩ := first
  obtain ⟨w, back, inside'⟩ := second
  refine ⟨v ++ w, by rw [front, back, List.append_assoc], ?_⟩
  intro d member
  rcases List.mem_append.mp member with member | member
  · exact inside d member
  · exact inside' d member

/-- A result of `run` comes from going on at a cursor it has moved to inside `p`. -/
def Sound {α : Type} (p : Chr → Bool) (run : Cursor → (Cursor → Option α) → Option α) : Prop :=
  ∀ c k x, run c k = some x → ∃ c', Consumes p c c' ∧ k c' = some x

theorem orElse_some {α : Type} {first : Option α} {second : Unit → Option α} {x : α}
    (went : first.orElse second = some x) : first = some x ∨ second () = some x := by
  cases first with
  | none => exact Or.inr went
  | some y => exact Or.inl went

theorem loop_sound {α : Type} {p : Chr → Bool} {once : Cursor → (Cursor → Option α) → Option α}
    (sound : Sound p once) (greedy : Bool) (n : Nat) : Sound p (loop once greedy n) := by
  induction n with
  | zero => exact fun c k x went => ⟨c, .refl p c, went⟩
  | succ n ih =>
      intro c k x went
      have iterated : ∀ x, once c (fun c' =>
          if c'.rest.length < c.rest.length then loop once greedy n c' k else none) = some x →
            ∃ c', Consumes p c c' ∧ k c' = some x := by
        intro x went
        obtain ⟨c', moved, next⟩ := sound _ _ _ went
        split at next
        · obtain ⟨c'', moved', last⟩ := ih c' k x next
          exact ⟨c'', moved.trans moved', last⟩
        · cases next
      unfold loop at went
      dsimp only at went
      split at went
      · rcases orElse_some went with again | stop
        · exact iterated x again
        · exact ⟨c, .refl p c, stop⟩
      · rcases orElse_some went with stop | again
        · exact ⟨c, .refl p c, stop⟩
        · exact iterated x again

theorem exec_sound {α : Type} {p : Chr → Bool} (r : Re) (within : r.Within p) :
    Sound (α := α) p (exec r) := by
  induction r with
  | chr q =>
      intro c k x went
      unfold exec at went
      split at went
      · rename_i d rest shown
        split at went
        · rename_i fits
          refine ⟨{ c with prev := some d, rest := rest }, ⟨[d], shown, ?_⟩, went⟩
          intro d' member
          rw [List.mem_singleton.mp member]
          exact within d fits
        · cases went
      · cases went
  | bol =>
      intro c k x went
      unfold exec at went
      split at went
      · exact ⟨c, .refl p c, went⟩
      · cases went
  | eol =>
      intro c k x went
      unfold exec at went
      split at went
      · exact ⟨c, .refl p c, went⟩
      · cases went
  | seq a b iha ihb =>
      intro c k x went
      obtain ⟨c', moved, next⟩ := iha within.1 _ _ _ went
      obtain ⟨c'', moved', last⟩ := ihb within.2 _ _ _ next
      exact ⟨c'', moved.trans moved', last⟩
  | alt a b iha ihb =>
      intro c k x went
      rcases orElse_some went with first | second
      · exact iha within.1 _ _ _ first
      · exact ihb within.2 _ _ _ second
  | star greedy a ih =>
      intro c k x went
      exact loop_sound (ih within) greedy _ c k x went
  | group a ih =>
      intro c k x went
      obtain ⟨c', moved, next⟩ := ih within _ _ _ went
      exact ⟨{ c' with captured := some (c.rest.take (c.rest.length - c'.rest.length)) },
        moved, next⟩

/-- A text matched in full uses only the characters the pattern names. -/
theorem fullmatch_within {p : Chr → Bool} {r : Re} (within : r.Within p) {s : Str}
    (matched : fullmatch r s = true) : ∀ c ∈ s, p c = true := by
  obtain ⟨x, went⟩ := Option.isSome_iff_exists.mp matched
  obtain ⟨c', ⟨w, whole, inside⟩, stop⟩ := exec_sound r within _ _ _ went
  dsimp only at whole
  split at stop
  · rename_i done
    rw [done, List.append_nil] at whole
    rw [whole]
    exact inside
  · cases stop

end Re

end Py
