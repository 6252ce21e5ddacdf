import DevGate.Py.Exc
import DevGate.Py.Re
import DevGate.Py.Sha256
import DevGate.Py.Utf8

set_option autoImplicit false

/- HMAC-SHA256, `bytes.fromhex` and `str.strip`. -/
namespace Py

/-- `hmac.new(key, message, hashlib.sha256).hexdigest()`. -/
def hmacSha256 (key message : Bytes) : Str :=
  let key := if 64 < key.length then Sha256.digest key else key
  let block := key ++ List.replicate (64 - key.length) 0
  let inner := Sha256.digest (block.map (fun b => b ^^^ 0x36) ++ message)
  sha256 (block.map (fun b => b ^^^ 0x5c) ++ inner)

def hexValue? (c : Chr) : Option Nat :=
  if 48 ≤ c.val ∧ c.val ≤ 57 then some (c.val - 48)
  else if 97 ≤ c.val ∧ c.val ≤ 102 then some (c.val - 87)
  else if 65 ≤ c.val ∧ c.val ≤ 70 then some (c.val - 55)
  else none

def isAsciiSpace (c : Chr) : Bool := c.val == 32 || (9 ≤ c.val && c.val ≤ 13)

/-- `bytes.fromhex(s)`: pairs of hex digits, with white space between the pairs. -/
def fromhex? : Str → Option Bytes
  | [] => some []
  | [c] => if isAsciiSpace c then some [] else none
  | c :: d :: rest =>
      if isAsciiSpace c then fromhex? (d :: rest)
      else do
        let high ← hexValue? c
        let low ← hexValue? d
        return UInt8.ofNat (16 * high + low) :: (← fromhex? rest)

def fromhex (s : Str) : Except Exc Bytes :=
  match fromhex? s with
  | some bytes => .ok bytes
  | none => .error ⟨.valueError, ["non-hexadecimal number found in fromhex() arg"]⟩

/-- `s.strip()`. -/
def Str.strip (s : Str) : Str :=
  ((s.dropWhile Re.isSpace).reverse.dropWhile Re.isSpace).reverse

example : hmacSha256 (Utf8.ascii "key") (Utf8.ascii "The quick brown fox jumps over the lazy dog") =
    "f7bc83f430538424b13298e6aa6fb143ef4d59a14946175997479dbc2d1a3cd8" := by decide +kernel

end Py
