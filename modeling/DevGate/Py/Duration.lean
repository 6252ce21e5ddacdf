import DevGate.Py.Datetime
import DevGate.Py.Json

set_option autoImplicit false

/- Differences of datetimes, and the arithmetic and printing of floats that ages
and windows are compared with. -/
namespace Py

/-- `a < b` of floats: NaN has no order. -/
def Flt.lt : Flt → Flt → Bool
  | .fin a, .fin b => a < b
  | .inf negative, .fin _ => negative
  | .fin _, .inf negative => !negative
  | .inf negative, .inf other => negative && !other
  | _, _ => false

/-- `round(x, 2)`. -/
def Flt.round2 : Flt → Flt
  | .fin q => Json.double (Json.roundEven (q * 100) / 100)
  | other => other

/-- `x / n` of a float and an integer. -/
def Flt.div (x : Flt) (n : Nat) : Flt :=
  match x with
  | .fin q => Json.double (q / n)
  | other => other

/-- `x > v`. -/
def Flt.exceeds (x : Flt) (v : Value) : Except Exc Bool :=
  match v.num? with
  | some y => .ok (y.lt x)
  | none => .error ⟨.typeError, ["'>' not supported between instances of 'float' and '", v.typeName,
      "'"]⟩

/-- `a - b`, in microseconds. -/
def Datetime.sub (a b : Datetime) : Except Exc Int :=
  if a.offset.isSome = b.offset.isSome then .ok (a.instant - b.instant)
  else .error ⟨.typeError, ["can't subtract offset-naive and offset-aware datetimes"]⟩

/-- `delta.total_seconds()`. -/
def totalSeconds (micros : Int) : Flt := Json.double (micros / 1000000)

/-- `a <= b` of floats. -/
def Flt.le (a b : Flt) : Bool := a.lt b || (a == b && a != .nan)

/-- `x * n` of a float and a positive integer. -/
def Flt.mul (x : Flt) (n : Nat) : Flt :=
  match x with
  | .fin q => Json.double (q * n)
  | other => other

/-- `n + x` of an integer and a float. -/
def Flt.plus (n : Nat) (x : Flt) : Flt :=
  match x with
  | .fin q => Json.double (n + q)
  | other => other

/-- `width` digits of `n`. -/
def Str.padNat (width n : Nat) : Str :=
  let digits := Str.ofNat n
  List.replicate (width - digits.length) (Chr.ofChar '0') ++ digits

/-- `f"{x:.{digits}f}"`. -/
def Flt.fixed (digits : Nat) : Flt → Str
  | .nan => "nan"
  | .inf negative => if negative then "-inf" else "inf"
  | .fin q =>
      let scaled := (Json.roundEven (|q| * 10 ^ digits)).toNat
      (if q < 0 then "-" else ("" : String)) ++ Str.ofNat (scaled / 10 ^ digits) ++
        (if digits = 0 then [] else Chr.ofChar '.' :: Str.padNat digits (scaled % 10 ^ digits))

theorem double_ne_nan (q : Rat) : Json.double q ≠ .nan := by
  unfold Json.double
  dsimp only
  split_ifs <;> simp

theorem totalSeconds_ne_nan (micros : Int) : totalSeconds micros ≠ .nan := double_ne_nan _

/-- With a cap that is a number, not above it is within it. -/
theorem Flt.le_iff_not_lt {a b : Flt} (left : a ≠ .nan) (right : b ≠ .nan) :
    a.le b = true ↔ b.lt a = false := by
  cases a with
  | nan => exact absurd rfl left
  | fin p =>
      cases b with
      | nan => exact absurd rfl right
      | fin q =>
          simp only [Flt.le, Flt.lt, Bool.or_eq_true, decide_eq_true_eq, Bool.and_eq_true, beq_iff_eq,
            Flt.fin.injEq, decide_eq_false_iff_not, not_lt]
          constructor
          · rintro (less | ⟨same, -⟩)
            · exact le_of_lt less
            · exact le_of_eq same
          · intro le
            rcases lt_or_eq_of_le le with less | same
            · exact Or.inl less
            · exact Or.inr ⟨same, by simp⟩
      | inf other => cases other <;> simp [Flt.le, Flt.lt]
  | inf negative =>
      cases b with
      | nan => exact absurd rfl right
      | fin q => cases negative <;> simp [Flt.le, Flt.lt]
      | inf other => cases negative <;> cases other <;> simp [Flt.le, Flt.lt]

end Py
