import DevGate.Py.Exc
import DevGate.Py.Sha256

set_option autoImplicit false

/- `Path.read_text(encoding="utf-8")`: strict decoding, then universal newlines. -/
namespace Py

namespace Utf8

/-- A character with continuation bytes still to come: the bits read so far, how
many bytes are missing, and the range of the next one. -/
structure Pending where
  bits : Nat
  missing : Nat
  low : Nat
  high : Nat

/-- What a lead byte from 0x80 on starts; `passes` lets surrogates through
(`surrogatepass`). -/
def lead (passes : Bool) (b : Nat) : Option Pending :=
  if b < 0xc2 then none
  else if b < 0xe0 then some ⟨b - 0xc0, 1, 0x80, 0xbf⟩
  else if b = 0xe0 then some ⟨0, 2, 0xa0, 0xbf⟩
  else if b = 0xed then some ⟨0xd, 2, 0x80, if passes then 0xbf else 0x9f⟩
  else if b < 0xf0 then some ⟨b - 0xe0, 2, 0x80, 0xbf⟩
  else if b = 0xf0 then some ⟨0, 3, 0x90, 0xbf⟩
  else if b < 0xf4 then some ⟨b - 0xf0, 3, 0x80, 0xbf⟩
  else if b = 0xf4 then some ⟨4, 3, 0x80, 0x8f⟩
  else none

def fail (reason : Str) : Exc := ⟨.unicodeDecodeError, ["'utf-8' codec can't decode: ", reason]⟩

def decodeFrom (passes : Bool) : Option Pending → Bytes → Except Exc Str
  | none, [] => .ok []
  | some _, [] => .error (fail "unexpected end of data")
  | none, b :: rest =>
      if b.toNat < 0x80 then do return Fin.ofNat 0x110000 b.toNat :: (← decodeFrom passes none rest)
      else match lead passes b.toNat with
        | none => .error (fail "invalid start byte")
        | some p => decodeFrom passes (some p) rest
  | some p, b :: rest =>
      if p.low ≤ b.toNat ∧ b.toNat ≤ p.high then
        let bits := p.bits * 64 + (b.toNat - 0x80)
        if p.missing ≤ 1 then do return Fin.ofNat 0x110000 bits :: (← decodeFrom passes none rest)
        else decodeFrom passes (some ⟨bits, p.missing - 1, 0x80, 0xbf⟩) rest
      else .error (fail "invalid continuation byte")

def decode (passes : Bool) (bytes : Bytes) : Except Exc Str := decodeFrom passes none bytes

/-- Universal newlines: `\r\n` and `\r` are read as `\n`. -/
def newlines : Bool → Str → Str
  | _, [] => []
  | afterReturn, c :: rest =>
      if c = Chr.ofChar '\r' then Chr.ofChar '\n' :: newlines true rest
      else if c = Chr.ofChar '\n' ∧ afterReturn = true then newlines false rest
      else c :: newlines false rest

def readText (bytes : Bytes) : Except Exc Str := do return newlines false (← decode false bytes)

/-- `.encode("utf-8")` of a text of ASCII characters. -/
def ascii (s : Str) : Bytes := s.map (fun c => UInt8.ofNat c.val)

def IsAscii (s : Str) : Prop := ∀ c ∈ s, c.val < 0x80

theorem decode_ascii {s : Str} (plain : IsAscii s) (passes : Bool) :
    decode passes (ascii s) = .ok s := by
  unfold decode
  induction s with
  | nil => rfl
  | cons c s ih =>
      have small := plain c List.mem_cons_self
      have value : (UInt8.ofNat c.val).toNat = c.val := by
        rw [UInt8.toNat_ofNat']
        omega
      have back : Fin.ofNat 0x110000 c.val = c := by
        apply Fin.ext
        show c.val % 0x110000 = c.val
        omega
      have rest := ih (fun c member => plain c (List.mem_cons_of_mem _ member))
      show decodeFrom passes none (UInt8.ofNat c.val :: ascii s) = .ok (c :: s)
      rw [decodeFrom, value, if_pos small, rest, back]
      rfl

theorem newlines_of_not_mem {s : Str} (absent : Chr.ofChar '\r' ∉ s) :
    newlines false s = s := by
  induction s with
  | nil => rfl
  | cons c s ih =>
      rw [List.mem_cons, not_or] at absent
      rw [newlines, if_neg (Ne.symm absent.1), if_neg (by simp), ih absent.2]

theorem readText_ascii {s : Str} (plain : IsAscii s) (absent : Chr.ofChar '\r' ∉ s) :
    readText (ascii s) = .ok s := by
  unfold readText
  rw [decode_ascii plain false, ok_bind, newlines_of_not_mem absent]
  rfl

end Utf8

/-- `"\ud800" <= c <= "\udfff"`. -/
def Chr.isSurrogate (c : Chr) : Bool := 0xd800 ≤ c.val && c.val ≤ 0xdfff

namespace Utf8

/-- Every continuation of what was read so far spells a code point that is not a
surrogate. -/
structure Pending.Clear (p : Pending) : Prop where
  missing : p.missing = 1 ∨ p.missing = 2 ∨ p.missing = 3
  low : 0x80 ≤ p.low
  values : ∀ b t, p.low ≤ b → b ≤ p.high → t < 64 ^ (p.missing - 1) →
    (p.bits * 64 + (b - 0x80)) * 64 ^ (p.missing - 1) + t < 0xd800 ∨
      (0xe000 ≤ (p.bits * 64 + (b - 0x80)) * 64 ^ (p.missing - 1) + t ∧
        (p.bits * 64 + (b - 0x80)) * 64 ^ (p.missing - 1) + t < 0x110000)

theorem lead_clear {b : Nat} {p : Pending} (starts : lead false b = some p) : p.Clear := by
  simp only [lead, Bool.false_eq_true, ↓reduceIte] at starts
  repeat' split at starts
  all_goals simp only [Option.some.injEq, reduceCtorEq] at starts
  all_goals
    subst starts
    refine ⟨by simp, by simp, ?_⟩
    intro b t above below small
    simp only [Nat.reduceSub, Nat.reducePow] at small above below ⊢
    omega

theorem Pending.Clear.next {p : Pending} (clear : p.Clear) {b : Nat} (above : p.low ≤ b)
    (below : b ≤ p.high) (more : ¬ p.missing ≤ 1) :
    (⟨p.bits * 64 + (b - 0x80), p.missing - 1, 0x80, 0xbf⟩ : Pending).Clear := by
  obtain ⟨bits, missing, low, high⟩ := p
  have values := clear.values b
  have count := clear.missing
  dsimp only at count more values above below
  refine ⟨?_, Nat.le_refl _, ?_⟩
  · dsimp only
    omega
  · intro c t above' below' small
    dsimp only at above' below' small ⊢
    rcases count with rfl | rfl | rfl
    · omega
    · have inner := values ((c - 0x80) * 64 ^ 0 + t) above below
      simp only [Nat.reduceSub, Nat.reducePow] at inner small ⊢
      omega
    · have inner := values ((c - 0x80) * 64 ^ 1 + t) above below
      simp only [Nat.reduceSub, Nat.reducePow] at inner small ⊢
      omega

/-- Decoded text has no surrogates. -/
theorem decodeFrom_clear (bytes : Bytes) {pending : Option Pending} {s : Str}
    (clear : ∀ p, pending = some p → p.Clear) (decoded : decodeFrom false pending bytes = .ok s) :
    ∀ c ∈ s, c.isSurrogate = false := by
  induction bytes generalizing pending s with
  | nil =>
      cases pending with
      | none =>
          cases decoded
          simp
      | some p => cases decoded
  | cons b rest ih =>
      cases pending with
      | none =>
          rw [decodeFrom] at decoded
          split at decoded
          · rename_i small
            obtain ⟨later, ran, decoded⟩ := bind_ok.mp decoded
            cases decoded
            rw [List.forall_mem_cons]
            refine ⟨?_, ih (by simp) ran⟩
            simp only [Chr.isSurrogate, Fin.ofNat, Bool.and_eq_false_iff, decide_eq_false_iff_not]
            omega
          · split at decoded
            · cases decoded
            · rename_i p starts
              exact ih (fun q same => Option.some.inj same ▸ lead_clear starts) decoded
      | some p =>
          have open_ := clear p rfl
          rw [decodeFrom] at decoded
          split at decoded
          · rename_i range
            split at decoded
            · rename_i last
              obtain ⟨later, ran, decoded⟩ := bind_ok.mp decoded
              cases decoded
              rw [List.forall_mem_cons]
              refine ⟨?_, ih (by simp) ran⟩
              have one : p.missing = 1 := by
                have count := open_.missing
                omega
              have value := open_.values b.toNat 0 range.1 range.2 (by simp [one])
              simp only [one, Nat.sub_self, Nat.pow_zero, Nat.mul_one, Nat.add_zero] at value
              simp only [Chr.isSurrogate, Fin.ofNat, Bool.and_eq_false_iff,
                decide_eq_false_iff_not]
              omega
            · rename_i more
              exact ih (fun q same => Option.some.inj same ▸ open_.next range.1 range.2 more) decoded
          · cases decoded

theorem newlines_clear (afterReturn : Bool) (s : Str) (clear : ∀ c ∈ s, c.isSurrogate = false) :
    ∀ c ∈ newlines afterReturn s, c.isSurrogate = false := by
  induction s generalizing afterReturn with
  | nil => simp [newlines]
  | cons d s ih =>
      rw [List.forall_mem_cons] at clear
      have newline : (Chr.ofChar '\n').isSurrogate = false := by decide
      unfold newlines
      split
      · rw [List.forall_mem_cons]
        exact ⟨newline, ih true clear.2⟩
      · split
        · exact ih false clear.2
        · rw [List.forall_mem_cons]
          exact ⟨clear.1, ih false clear.2⟩

theorem readText_clear {bytes : Bytes} {s : Str} (read : readText bytes = .ok s) :
    ∀ c ∈ s, c.isSurrogate = false := by
  unfold readText at read
  obtain ⟨decoded, ran, read⟩ := bind_ok.mp read
  cases read
  exact newlines_clear false decoded (decodeFrom_clear bytes (by simp) ran)

end Utf8

end Py
