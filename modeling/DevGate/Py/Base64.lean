import DevGate.Py.Utf8

set_option autoImplicit false

/- `base64.b64decode(s, validate=True)`. -/
namespace Py.Base64

def alphabet : List Chr :=
  ("ABCDEFGHIJKLMNOPQRSTUVWXYZabcdefghijklmnopqrstuvwxyz0123456789+/" : Str)

/-- The six bits of a character of the alphabet. -/
def sextet? (c : Chr) : Option Nat :=
  if c ∈ alphabet then some (alphabet.idxOf c) else none

def pad : Chr := Chr.ofChar '='

/-- Groups of four characters; the last one may be padded. -/
def decode? : Str → Option Bytes
  | [] => some []
  | a :: b :: c :: d :: rest => do
      let first ← sextet? a
      let second ← sextet? b
      let high := UInt8.ofNat (4 * first + second / 16)
      if d = pad ∧ rest = [] then
        if c = pad then return [high]
        else
          let third ← sextet? c
          return [high, UInt8.ofNat (16 * (second % 16) + third / 4)]
      else
        let third ← sextet? c
        let fourth ← sextet? d
        return high :: UInt8.ofNat (16 * (second % 16) + third / 4) ::
          UInt8.ofNat (64 * (third % 4) + fourth) :: (← decode? rest)
  | _ => none

def binasciiError : ExcClass := .user "Error" .valueError

/-- A text of other characters, or in groups that do not close, is a ValueError; what is no
text is a TypeError. -/
def decode (v : Value) : Except Exc Bytes :=
  match v with
  | .str s =>
      match decode? s with
      | some bytes => .ok bytes
      | none =>
          if s.all (fun c => c.val < 0x80) then
            .error ⟨binasciiError, ["Invalid base64-encoded string"]⟩
          else .error ⟨.valueError, ["string argument should contain only ASCII characters"]⟩
  | other => .error ⟨.typeError, ["argument should be a bytes-like object or ASCII string, not ",
      .repr (.str other.typeName)]⟩

theorem decode_fails (v : Value) : Fails (fun e => e.isA [.valueError, .typeError] = true) (decode v) := by
  unfold decode
  split
  · split
    · exact Fails.ok
    · split
      · exact Fails.error (by decide)
      · exact Fails.error (by decide)
  · exact Fails.error (by rfl)

example : decode (.str "aGVsbG8=") = .ok (Utf8.ascii "hello") := by decide +kernel

end Py.Base64
