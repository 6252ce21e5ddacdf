import DevGate.Py.Str

set_option autoImplicit false

/- hashlib.sha256, over lists of bytes. -/
namespace Py

abbrev Bytes := List UInt8

namespace Sha256

/-- The round constants. -/
def constants : List UInt32 := [
  0x428a2f98, 0x71374491, 0xb5c0fbcf, 0xe9b5dba5, 0x3956c25b, 0x59f111f1, 0x923f82a4, 0xab1c5ed5,
  0xd807aa98, 0x12835b01, 0x243185be, 0x550c7dc3, 0x72be5d74, 0x80deb1fe, 0x9bdc06a7, 0xc19bf174,
  0xe49b69c1, 0xefbe4786, 0x0fc19dc6, 0x240ca1cc, 0x2de92c6f, 0x4a7484aa, 0x5cb0a9dc, 0x76f988da,
  0x983e5152, 0xa831c66d, 0xb00327c8, 0xbf597fc7, 0xc6e00bf3, 0xd5a79147, 0x06ca6351, 0x14292967,
  0x27b70a85, 0x2e1b2138, 0x4d2c6dfc, 0x53380d13, 0x650a7354, 0x766a0abb, 0x81c2c92e, 0x92722c85,
  0xa2bfe8a1, 0xa81a664b, 0xc24b8b70, 0xc76c51a3, 0xd192e819, 0xd6990624, 0xf40e3585, 0x106aa070,
  0x19a4c116, 0x1e376c08, 0x2748774c, 0x34b0bcb5, 0x391c0cb3, 0x4ed8aa4a, 0x5b9cca4f, 0x682e6ff3,
  0x748f82ee, 0x78a5636f, 0x84c87814, 0x8cc70208, 0x90befffa, 0xa4506ceb, 0xbef9a3f7, 0xc67178f2]

/-- The chaining state. -/
structure State where
  a : UInt32
  b : UInt32
  c : UInt32
  d : UInt32
  e : UInt32
  f : UInt32
  g : UInt32
  h : UInt32

def State.start : State where
  a := 0x6a09e667
  b := 0xbb67ae85
  c := 0x3c6ef372
  d := 0xa54ff53a
  e := 0x510e527f
  f := 0x9b05688c
  g := 0x1f83d9ab
  h := 0x5be0cd19

def rotr (x n : UInt32) : UInt32 := (x >>> n) ||| (x <<< (32 - n))

/-- One round, with the round's constant and schedule word. -/
def round (s : State) (kw : UInt32 × UInt32) : State :=
  let mix := rotr s.e 6 ^^^ rotr s.e 11 ^^^ rotr s.e 25
  let choice := (s.e &&& s.f) ^^^ (~~~s.e &&& s.g)
  let first := s.h + mix + choice + kw.1 + kw.2
  let spread := rotr s.a 2 ^^^ rotr s.a 13 ^^^ rotr s.a 22
  let majority := (s.a &&& s.b) ^^^ (s.a &&& s.c) ^^^ (s.b &&& s.c)
  ⟨first + (spread + majority), s.a, s.b, s.c, s.d + first, s.e, s.f, s.g⟩

/-- The next schedule word, from the words so far, latest first. -/
def nextWord (recent : List UInt32) : UInt32 :=
  let w (i : Nat) := recent.getD i 0
  let low := rotr (w 14) 7 ^^^ rotr (w 14) 18 ^^^ (w 14 >>> 3)
  let high := rotr (w 1) 17 ^^^ rotr (w 1) 19 ^^^ (w 1 >>> 10)
  w 15 + low + w 6 + high

def extend : Nat → List UInt32 → List UInt32
  | 0, recent => recent
  | n + 1, recent => extend n (nextWord recent :: recent)

def word (bytes : Bytes) : UInt32 :=
  bytes.foldl (fun acc byte => (acc <<< 8) ||| byte.toUInt32) 0

/-- Consecutive pieces of `size` items, the first `n` of them. -/
def pieces {α : Type} (size : Nat) : Nat → List α → List (List α)
  | 0, _ => []
  | n + 1, items => items.take size :: pieces size n (items.drop size)

def compress (s : State) (block : Bytes) : State :=
  let words := (pieces 4 16 block).map word
  let schedule := (extend 48 words.reverse).reverse
  let out := (constants.zip schedule).foldl round s
  ⟨s.a + out.a, s.b + out.b, s.c + out.c, s.d + out.d, s.e + out.e, s.f + out.f, s.g + out.g,
    s.h + out.h⟩

/-- `n`, as `size` bytes, most significant first. -/
def bigEndian : Nat → Nat → Bytes
  | 0, _ => []
  | size + 1, n => bigEndian size (n / 256) ++ [UInt8.ofNat n]

def pad (message : Bytes) : Bytes :=
  message ++ 0x80 :: List.replicate ((119 - message.length % 64) % 64) 0 ++
    bigEndian 8 (8 * message.length)

def digest (message : Bytes) : Bytes :=
  let padded := pad message
  let s := (pieces 64 (padded.length / 64) padded).foldl compress .start
  [s.a, s.b, s.c, s.d, s.e, s.f, s.g, s.h].flatMap (fun w => bigEndian 4 w.toNat)

end Sha256

def hexDigits : List Char := "0123456789abcdef".toList

def hexDigit (n : Nat) : Chr := Chr.ofChar (hexDigits.getD n '0')

def hexByte (byte : UInt8) : Str := [hexDigit (byte.toNat / 16), hexDigit (byte.toNat % 16)]

/-- `sha256(message).hexdigest()`. -/
def sha256 (message : Bytes) : Str := (Sha256.digest message).flatMap hexByte

example : sha256 [0x61, 0x62, 0x63] =
    "ba7816bf8f01cfea414140de5dae2223b00361a396177a9cb410ff61f20015ad" := by decide +kernel

theorem Sha256.length_bigEndian (size n : Nat) : (bigEndian size n).length = size := by
  induction size generalizing n with
  | zero => rfl
  | succ size ih => rw [bigEndian, List.length_append, ih, List.length_singleton]

theorem Sha256.length_digest (message : Bytes) : (digest message).length = 32 := by
  simp only [digest, List.flatMap_cons, List.flatMap_nil, List.length_append, length_bigEndian,
    List.length_nil]

theorem length_sha256 (message : Bytes) : (sha256 message).length = 64 := by
  have two : ∀ bytes : Bytes, (bytes.flatMap hexByte).length = 2 * bytes.length := by
    intro bytes
    induction bytes with
    | nil => rfl
    | cons byte bytes ih =>
        rw [List.flatMap_cons, List.length_append, ih, List.length_cons]
        show 2 + _ = _
        omega
  rw [sha256, two, Sha256.length_digest]

theorem hexDigit_mem (n : Nat) : hexDigit n ∈ hexDigits.map Chr.ofChar := by
  unfold hexDigit
  apply List.mem_map_of_mem
  rw [List.getD_eq_getElem?_getD]
  cases found : hexDigits[n]? with
  | none => decide
  | some d => exact List.mem_of_getElem? found

theorem mem_sha256 {message : Bytes} {c : Chr} (inside : c ∈ sha256 message) :
    c ∈ hexDigits.map Chr.ofChar := by
  obtain ⟨byte, -, spelled⟩ := List.mem_flatMap.mp inside
  simp only [hexByte, List.mem_cons, List.not_mem_nil, or_false] at spelled
  rcases spelled with rfl | rfl
  · exact hexDigit_mem _
  · exact hexDigit_mem _

end Py
