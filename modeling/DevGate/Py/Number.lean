import DevGate.Py.Hmac
import DevGate.Py.Json

set_option autoImplicit false

/- `int(v)` and `float(v)` of a decoded value. -/
namespace Py

/-- The character tables of the interpreter. -/
structure Unicode where
  /-- The value of a decimal digit of any script. -/
  decimal : Chr → Option Nat
  isDigit : Chr → Bool
  lower : Str → Str

def overflowError : ExcClass := .user "OverflowError" (.user "ArithmeticError" .exception)

/-- A sign, and the text after it. -/
def signed : Str → Bool × Str
  | [] => (false, [])
  | c :: rest =>
      if c = Chr.ofChar '-' then (true, rest)
      else if c = Chr.ofChar '+' then (false, rest)
      else (false, c :: rest)

def natOfDigits (ds : List Nat) : Nat := ds.foldl (fun n d => 10 * n + d) 0

namespace Unicode

variable (u : Unicode)

/-- Decimal digits, with single underscores between them. -/
def digits : Str → Option (List Nat)
  | [] => none
  | c :: rest => do
      let d ← u.decimal c
      match rest with
      | [] => return [d]
      | mark :: more =>
          if mark = Chr.ofChar '_' then return d :: (← digits more)
          else return d :: (← digits (mark :: more))

def int? (s : Str) : Option Int := do
  let (negative, body) := signed (Str.strip s)
  let ds ← u.digits body
  if Json.maxDigits < ds.length then none
  else return if negative then -(natOfDigits ds : Int) else natOfDigits ds

/-- `int(v)`. -/
def int (v : Value) : Except Exc Int :=
  match v with
  | .bool b => .ok (if b then 1 else 0)
  | .int n => .ok n
  | .float (.fin q) => .ok (if q < 0 then -(-q).floor else q.floor)
  | .float (.inf _) => .error ⟨overflowError, ["cannot convert float infinity to integer"]⟩
  | .float .nan => .error ⟨.valueError, ["cannot convert float NaN to integer"]⟩
  | .str s =>
      match u.int? s with
      | some n => .ok n
      | none => .error ⟨.valueError, ["invalid literal for int() with base 10: ", .repr v]⟩
  | other => .error ⟨.typeError, ["int() argument must be a string, a bytes-like object or a real number, ",
      "not '", other.typeName, "'"]⟩

def asciiLower (c : Chr) : Chr := if 65 ≤ c.val ∧ c.val ≤ 90 then Fin.ofNat 0x110000 (c.val + 32) else c

def isExponentMark (c : Chr) : Bool := asciiLower c == Chr.ofChar 'e'

/-- The digits before and after the point; one side may be missing. -/
def mantissa (s : Str) : Option (List Nat × List Nat) :=
  match Str.split (Chr.ofChar '.') s with
  | [whole] => (u.digits whole).map (fun ds => (ds, []))
  | [whole, part] =>
      if whole = [] then (u.digits part).map (fun ds => ([], ds))
      else if part = [] then (u.digits whole).map (fun ds => (ds, []))
      else do return (← u.digits whole, ← u.digits part)
  | _ => none

def exponent (s : Str) : Option Int :=
  match s with
  | [] => some 0
  | _ :: rest => do
      let (negative, body) := signed rest
      let ds ← u.digits body
      return if negative then -(natOfDigits ds : Int) else natOfDigits ds

def float? (s : Str) : Option Flt :=
  let (negative, body) := signed (Str.strip s)
  let low := body.map asciiLower
  if low = "inf" ∨ low = "infinity" then some (.inf negative)
  else if low = "nan" then some .nan
  else do
    let (whole, part) ← u.mantissa (body.takeWhile (fun c => !isExponentMark c))
    let power ← u.exponent (body.dropWhile (fun c => !isExponentMark c))
    let size : Rat := natOfDigits (whole ++ part) * (10 : Rat) ^ (power - part.length)
    return Json.double (if negative then -size else size)

/-- `float(v)`. -/
def float (v : Value) : Except Exc Flt :=
  match v with
  | .bool b => .ok (.fin (if b then 1 else 0))
  | .int n =>
      match Json.double n with
      | .inf _ => .error ⟨overflowError, ["int too large to convert to float"]⟩
      | x => .ok x
  | .float x => .ok x
  | .str s =>
      match u.float? s with
      | some x => .ok x
      | none => .error ⟨.valueError, ["could not convert string to float: ", .repr v]⟩
  | other => .error ⟨.typeError, ["float() argument must be a string or a real number, not '",
      other.typeName, "'"]⟩

end Unicode

end Py
