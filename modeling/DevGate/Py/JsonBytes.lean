import DevGate.Py.JsonRoundTrip

set_option autoImplicit false

/- `json.loads` of bytes: `detect_encoding`, then `decode(.., "surrogatepass")`. -/
namespace Py.Json

inductive Encoding where
  | utf8
  | utf8Sig
  | utf16 (big : Bool)
  | utf32 (big : Bool)
  deriving DecidableEq

/-- The encoding, and the length of the byte order mark that names it. -/
def detectEncoding (b : Bytes) : Encoding × Nat :=
  if b.take 4 = [0x00, 0x00, 0xfe, 0xff] then (.utf32 true, 4)
  else if b.take 4 = [0xff, 0xfe, 0x00, 0x00] then (.utf32 false, 4)
  else if b.take 2 = [0xfe, 0xff] then (.utf16 true, 2)
  else if b.take 2 = [0xff, 0xfe] then (.utf16 false, 2)
  else if b.take 3 = [0xef, 0xbb, 0xbf] then (.utf8Sig, 3)
  else match b with
    | [b₀, b₁] =>
        if b₀ = 0 then (.utf16 true, 0)
        else if b₁ = 0 then (.utf16 false, 0)
        else (.utf8, 0)
    | b₀ :: b₁ :: b₂ :: b₃ :: _ =>
        if b₀ = 0 then (if b₁ ≠ 0 then (.utf16 true, 0) else (.utf32 true, 0))
        else if b₁ = 0 then (if b₂ ≠ 0 ∨ b₃ ≠ 0 then (.utf16 false, 0) else (.utf32 false, 0))
        else (.utf8, 0)
    | _ => (.utf8, 0)

def unitsFail (reason : Str) : Exc := ⟨.unicodeDecodeError, ["codec can't decode: ", reason]⟩

/-- Code units of `size` bytes. -/
def units (size : Nat) (big : Bool) (b : Bytes) : Except Exc (List Nat) :=
  if b.length % size ≠ 0 then .error (unitsFail "truncated data")
  else .ok ((Sha256.pieces size (b.length / size) b).map (fun piece =>
    (if big then piece else piece.reverse).foldl (fun n byte => 256 * n + byte.toNat) 0))

/-- Surrogates pass; the two halves of a pair are one character in UTF-16. -/
def decodeBytes (b : Bytes) : Except Exc Str :=
  let (encoding, mark) := detectEncoding b
  match encoding with
  | .utf8 => Utf8.decode true b
  | .utf8Sig => Utf8.decode true (b.drop mark)
  | .utf16 big => do
      return merge ((← units 2 big (b.drop mark)).map (Fin.ofNat 0x110000))
  | .utf32 big => do
      let found ← units 4 big (b.drop mark)
      if found.any (fun n => 0x110000 ≤ n) then
        .error (unitsFail "code point not in range(0x110000)")
      else return found.map (Fin.ofNat 0x110000)

def loadBytes (b : Bytes) : Except Exc Value := do decodeText (← decodeBytes b)

theorem detectEncoding_printable {s : Str} (printable : Printable s) :
    detectEncoding (Utf8.ascii s) = (.utf8, 0) := by
  have range : ∀ b ∈ Utf8.ascii s, 0x20 ≤ b.toNat ∧ b.toNat ≤ 0x7e := by
    intro b inside
    obtain ⟨c, member, rfl⟩ := List.mem_map.mp inside
    have bounds := printable c member
    rw [UInt8.toNat_ofNat']
    omega
  have apart : ∀ (n : Nat) (first : UInt8) (rest : Bytes), (first.toNat < 0x20 ∨ 0x7e < first.toNat) →
      (Utf8.ascii s).take n ≠ first :: rest := by
    intro n first rest outside same
    have member : first ∈ Utf8.ascii s := by
      apply List.mem_of_mem_take (i := n)
      rw [same]
      exact List.mem_cons_self
    have bounds := range first member
    omega
  have filled : ∀ b ∈ Utf8.ascii s, b ≠ 0 := by
    rintro b inside rfl
    exact absurd (range 0 inside).1 (by decide)
  unfold detectEncoding
  rw [if_neg (apart 4 _ _ (by decide)), if_neg (apart 4 _ _ (by decide)),
    if_neg (apart 2 _ _ (by decide)), if_neg (apart 2 _ _ (by decide)),
    if_neg (apart 3 _ _ (by decide))]
  split
  · rename_i b₀ b₁ same
    rw [same] at filled
    rw [if_neg (filled b₀ (by simp)), if_neg (filled b₁ (by simp))]
  · rename_i b₀ b₁ b₂ b₃ rest same
    rw [same] at filled
    rw [if_neg (filled b₀ (by simp)), if_neg (filled b₁ (by simp))]
  · rfl

theorem loadBytes_dumps {v : Value} (exact_ : Exact v) :
    loadBytes (Utf8.ascii (dumps v)) = .ok (decoded v) := by
  unfold loadBytes decodeBytes
  rw [detectEncoding_printable (printable_dumps v)]
  simp only
  rw [Utf8.decode_ascii (ascii_dumps v), ok_bind, decodeText_dumps exact_]

end Py.Json
