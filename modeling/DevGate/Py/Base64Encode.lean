import DevGate.Py.Base64

set_option autoImplicit false

/- `base64.b64encode(payload).decode("ascii")`, and what decodes it. -/
namespace Py.Base64

/-- The character of six bits. -/
def letter (n : Nat) : Chr := alphabet.getD n pad

def encode : Bytes → Str
  | [] => []
  | [a] => [letter (a.toNat / 4), letter (a.toNat % 4 * 16), pad, pad]
  | [a, b] =>
      [letter (a.toNat / 4), letter (a.toNat % 4 * 16 + b.toNat / 16), letter (b.toNat % 16 * 4), pad]
  | a :: b :: c :: rest =>
      letter (a.toNat / 4) :: letter (a.toNat % 4 * 16 + b.toNat / 16) ::
        letter (b.toNat % 16 * 4 + c.toNat / 64) :: letter (c.toNat % 64) :: encode rest

theorem sextet_letter : ∀ n < 64, sextet? (letter n) = some n ∧ letter n ≠ pad := by
  decide +kernel

theorem byte_eq {a : UInt8} {n : Nat} (same : n = a.toNat) : UInt8.ofNat n = a := by
  rw [same, UInt8.ofNat_toNat]

/-- The payload comes back. -/
theorem decode_encode (bytes : Bytes) : decode? (encode bytes) = some bytes := by
  induction bytes using encode.induct with
  | case1 => rfl
  | case2 a =>
      have bound := a.toNat_lt
      have first := (sextet_letter (a.toNat / 4) (by omega)).1
      have second := (sextet_letter (a.toNat % 4 * 16) (by omega)).1
      have high : UInt8.ofNat (4 * (a.toNat / 4) + a.toNat % 4 * 16 / 16) = a := by
        apply byte_eq
        omega
      simp only [encode, decode?, first, second, high, and_self, ↓reduceIte, Option.bind_eq_bind,
        Option.bind_some, pure]
  | case3 a b =>
      have bound := a.toNat_lt
      have bound' := b.toNat_lt
      have first := (sextet_letter (a.toNat / 4) (by omega)).1
      have second := (sextet_letter (a.toNat % 4 * 16 + b.toNat / 16) (by omega)).1
      have third := sextet_letter (b.toNat % 16 * 4) (by omega)
      have high : UInt8.ofNat (4 * (a.toNat / 4) + (a.toNat % 4 * 16 + b.toNat / 16) / 16) = a := by
        apply byte_eq
        omega
      have low : UInt8.ofNat (16 * ((a.toNat % 4 * 16 + b.toNat / 16) % 16) +
          b.toNat % 16 * 4 / 4) = b := by
        apply byte_eq
        omega
      simp only [encode, decode?, first, second, third.1, third.2, high, low, and_self, ↓reduceIte,
        Option.bind_eq_bind, Option.bind_some, pure]
  | case4 a b c rest ih =>
      have bound := a.toNat_lt
      have bound' := b.toNat_lt
      have bound'' := c.toNat_lt
      have first := (sextet_letter (a.toNat / 4) (by omega)).1
      have second := (sextet_letter (a.toNat % 4 * 16 + b.toNat / 16) (by omega)).1
      have third := (sextet_letter (b.toNat % 16 * 4 + c.toNat / 64) (by omega)).1
      have fourth := sextet_letter (c.toNat % 64) (by omega)
      have high : UInt8.ofNat (4 * (a.toNat / 4) + (a.toNat % 4 * 16 + b.toNat / 16) / 16) = a := by
        apply byte_eq
        omega
      have middle : UInt8.ofNat (16 * ((a.toNat % 4 * 16 + b.toNat / 16) % 16) +
          (b.toNat % 16 * 4 + c.toNat / 64) / 4) = b := by
        apply byte_eq
        omega
      have low : UInt8.ofNat (64 * ((b.toNat % 16 * 4 + c.toNat / 64) % 4) + c.toNat % 64) = c := by
        apply byte_eq
        omega
      simp only [encode, decode?, first, second, third, fourth.1, fourth.2, false_and, high, middle,
        low, ih, ↓reduceIte, Option.bind_eq_bind, Option.bind_some, pure]

theorem printable_letter : ∀ n < 64, 0x20 ≤ (letter n).val ∧ (letter n).val ≤ 0x7e := by
  decide +kernel

theorem printable_encode (bytes : Bytes) : ∀ c ∈ encode bytes, 0x20 ≤ c.val ∧ c.val ≤ 0x7e := by
  have padding : 0x20 ≤ pad.val ∧ pad.val ≤ 0x7e := by decide
  induction bytes using encode.induct with
  | case1 => nofun
  | case2 a =>
      have bound := a.toNat_lt
      simp only [encode, List.forall_mem_cons]
      exact ⟨printable_letter _ (by omega), printable_letter _ (by omega), padding, padding, nofun⟩
  | case3 a b =>
      have bound := a.toNat_lt
      have bound' := b.toNat_lt
      simp only [encode, List.forall_mem_cons]
      exact ⟨printable_letter _ (by omega), printable_letter _ (by omega),
        printable_letter _ (by omega), padding, nofun⟩
  | case4 a b c rest ih =>
      have bound := a.toNat_lt
      have bound' := b.toNat_lt
      have bound'' := c.toNat_lt
      simp only [encode, List.forall_mem_cons]
      exact ⟨printable_letter _ (by omega), printable_letter _ (by omega),
        printable_letter _ (by omega), printable_letter _ (by omega), ih⟩

end Py.Base64
