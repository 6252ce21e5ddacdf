import DevGate.Py.Utf8

set_option autoImplicit false

/- `Path.read_text(errors=...)` with a handler that keeps going: ill-formed bytes are
left out ("ignore") or stand as U+FFFD ("replace"). -/
namespace Py

namespace Utf8

/-- The character is the first of the first stretch. -/
def consTo (c : Chr) : List Str → List Str
  | [] => [[c]]
  | run :: rest => (c :: run) :: rest

/-- A byte at the start of a character; `next` goes on with what follows it. -/
def startWith (next : Option Pending → List Str) (b : Nat) : List Str :=
  if b < 0x80 then consTo (Fin.ofNat 0x110000 b) (next none)
  else match lead false b with
    | none => [] :: next none
    | some p => next (some p)

/-- The well-formed stretches, one more than there are ill-formed sequences: such a
sequence ends before the first byte that cannot continue it. -/
def runsFrom : Option Pending → Bytes → List Str
  | none, [] => [[]]
  | some _, [] => [[], []]
  | none, b :: rest => startWith (fun pending => runsFrom pending rest) b.toNat
  | some p, b :: rest =>
      if p.low ≤ b.toNat ∧ b.toNat ≤ p.high then
        let bits := p.bits * 64 + (b.toNat - 0x80)
        if p.missing ≤ 1 then consTo (Fin.ofNat 0x110000 bits) (runsFrom none rest)
        else runsFrom (some ⟨bits, p.missing - 1, 0x80, 0xbf⟩) rest
      else [] :: startWith (fun pending => runsFrom pending rest) b.toNat

def runs (bytes : Bytes) : List Str := runsFrom none bytes

def replacement : Chr := Fin.ofNat 0x110000 0xfffd

/-- `read_text(errors="ignore")`. -/
def readIgnore (bytes : Bytes) : Str := newlines false (runs bytes).flatten

/-- `read_text(errors="replace")`. -/
def readReplace (bytes : Bytes) : Str := newlines false (Str.join [replacement] (runs bytes))

/-- Well-formed bytes are one stretch. -/
theorem runsFrom_of_decodeFrom (bytes : Bytes) : ∀ pending s,
    decodeFrom false pending bytes = .ok s → runsFrom pending bytes = [s] := by
  induction bytes with
  | nil =>
      intro pending s decoded
      cases pending with
      | none =>
          cases decoded
          rfl
      | some p => cases decoded
  | cons b rest ih =>
      intro pending s decoded
      cases pending with
      | none =>
          unfold decodeFrom at decoded
          unfold runsFrom startWith
          by_cases low : b.toNat < 0x80
          · rw [if_pos low] at decoded ⊢
            obtain ⟨t, later, decoded⟩ := bind_ok.mp decoded
            cases decoded
            dsimp only
            rw [ih none t later]
            rfl
          · rw [if_neg low] at decoded ⊢
            cases started : lead false b.toNat with
            | none =>
                rw [started] at decoded
                cases decoded
            | some p =>
                rw [started] at decoded
                exact ih (some p) s decoded
      | some p =>
          unfold decodeFrom at decoded
          unfold runsFrom
          by_cases inside : p.low ≤ b.toNat ∧ b.toNat ≤ p.high
          · rw [if_pos inside] at decoded ⊢
            dsimp only at decoded ⊢
            by_cases last : p.missing ≤ 1
            · rw [if_pos last] at decoded ⊢
              obtain ⟨t, later, decoded⟩ := bind_ok.mp decoded
              cases decoded
              rw [ih none t later]
              rfl
            · rw [if_neg last] at decoded ⊢
              exact ih _ s decoded
          · rw [if_neg inside] at decoded
            cases decoded

/-- Whether a text that follows `s` comes after a carriage return. -/
def afterReturn : Bool → Str → Bool
  | before, [] => before
  | _, c :: rest => afterReturn (c = Chr.ofChar '\r') rest

theorem newlines_cons (before : Bool) (c : Chr) (rest : Str) :
    newlines before (c :: rest) =
      if c = Chr.ofChar '\r' then Chr.ofChar '\n' :: newlines true rest
      else if c = Chr.ofChar '\n' ∧ before = true then newlines false rest
      else c :: newlines false rest := rfl

theorem newlines_append (before : Bool) (s t : Str) :
    newlines before (s ++ t) = newlines before s ++ newlines (afterReturn before s) t := by
  induction s generalizing before with
  | nil => rfl
  | cons c rest ih =>
      rw [List.cons_append, newlines_cons, newlines_cons]
      unfold afterReturn
      by_cases carriage : c = Chr.ofChar '\r'
      · rw [if_pos carriage, if_pos carriage, ih, decide_eq_true carriage]
        rfl
      · rw [if_neg carriage, if_neg carriage, decide_eq_false carriage, ih]
        split <;> rfl

theorem newlines_append_of_not_mem {s : Str} (absent : Chr.ofChar '\r' ∉ s) (t : Str) :
    newlines false (s ++ t) = s ++ newlines false t := by
  induction s with
  | nil => rfl
  | cons c s ih =>
      rw [List.mem_cons, not_or] at absent
      rw [List.cons_append, newlines_cons, if_neg (Ne.symm absent.1),
        if_neg (fun both => absurd both.2 (by decide)), ih absent.2]
      rfl

/-- A text that does not start with a line feed is read alike behind any other. -/
theorem newlines_behind (s : Str) {t : Str} (head : ∀ c ∈ t.head?, c ≠ Chr.ofChar '\n') :
    newlines false (s ++ t) = newlines false s ++ newlines false t := by
  rw [newlines_append]
  refine congrArg _ ?_
  cases t with
  | nil => rfl
  | cons c t =>
      have other : c ≠ Chr.ofChar '\n' := head c rfl
      simp only [newlines_cons, other, false_and, ↓reduceIte]

theorem afterReturn_concat (before : Bool) (s : Str) (c : Chr) :
    afterReturn before (s ++ [c]) = decide (c = Chr.ofChar '\r') := by
  induction s generalizing before with
  | nil => rfl
  | cons d rest ih => exact ih _

/-- Past a line feed, reading on after a carriage return or not is the same. -/
theorem newlines_true (s : Str) :
    newlines false s = newlines true s ∨
      newlines false s = Chr.ofChar '\n' :: newlines true s := by
  cases s with
  | nil => exact .inl rfl
  | cons c rest =>
      rw [newlines_cons, newlines_cons]
      by_cases carriage : c = Chr.ofChar '\r'
      · rw [if_pos carriage, if_pos carriage]
        exact .inl rfl
      · rw [if_neg carriage, if_neg carriage, if_neg (by simp)]
        by_cases feed : c = Chr.ofChar '\n'
        · rw [if_pos ⟨feed, rfl⟩, feed]
          exact .inr rfl
        · rw [if_neg (fun both => feed both.1)]
          exact .inl rfl

/-- The stretches with their newlines read through the ill-formed bytes. -/
def carried : Bool → List Str → List Str
  | _, [] => []
  | before, run :: rest => newlines before run :: carried (afterReturn before run) rest

theorem newlines_flatten (before : Bool) (rs : List Str) :
    newlines before rs.flatten = (carried before rs).flatten := by
  induction rs generalizing before with
  | nil => rfl
  | cons run rest ih =>
      rw [List.flatten_cons, newlines_append, ih]
      rfl

theorem newlines_join (rs : List Str) :
    newlines false (Str.join [replacement] rs) =
      Str.join [replacement] (rs.map (newlines false)) := by
  induction rs with
  | nil => rfl
  | cons run rest ih =>
      by_cases last : rest = []
      · subst last
        rfl
      · have other : replacement ≠ Chr.ofChar '\r' := by decide
        have mark : newlines (afterReturn false run) [replacement] = [replacement] := by
          rw [newlines_cons, if_neg other, if_neg (fun both => absurd both.1 (by decide))]
          rfl
        rw [Str.join_cons _ _ _ last, newlines_append, newlines_append, afterReturn_concat, mark,
          decide_eq_false other, ih, List.map_cons, Str.join_cons _ _ _ (by simpa using last)]

end Utf8

end Py
