import DevGate.Py.Duration
import DevGate.Py.Number

set_option autoImplicit false

/- `timedelta(days=...)`, and a datetime that much later. -/
namespace Py

/-- Microseconds, where the days are not too many. -/
def checkedDelta (micros : Int) : Except Exc Int :=
  let days := micros / Datetime.dayMicros
  if -999999999 ≤ days ∧ days ≤ 999999999 then .ok micros
  else .error ⟨overflowError, ["days=", .str (.int days), "; must have magnitude <= 999999999"]⟩

/-- Towards zero. -/
def truncate (q : Rat) : Int := if q < 0 then -⌊-q⌋ else ⌊q⌋

/-- `timedelta(days=v)`, in microseconds: the fraction of a day is a float of them, and half
microseconds go to the even one. -/
def timedeltaDays (v : Value) : Except Exc Int :=
  match v with
  | .int n => checkedDelta (n * Datetime.dayMicros)
  | .bool b => checkedDelta (if b then Datetime.dayMicros else 0)
  | .float (.fin q) =>
      match Json.double ((q - truncate q) * Datetime.dayMicros) with
      | .fin part => checkedDelta (Json.roundEven (truncate q * Datetime.dayMicros + part))
      | _ => checkedDelta (truncate q * Datetime.dayMicros)
  | .float (.inf _) => .error ⟨overflowError, ["cannot convert float infinity to integer"]⟩
  | .float .nan => .error ⟨.valueError, ["cannot convert float NaN to integer"]⟩
  | other => .error ⟨.typeError, ["unsupported type for timedelta days component: ",
      other.typeName]⟩

/-- `t + delta`. -/
def Datetime.add (t : Datetime) (delta : Int) : Except Exc Datetime :=
  let clock := t.clock + delta
  if dayMicros ≤ clock ∧ clock < (maxOrdinal + 1) * dayMicros then .ok { t with clock }
  else .error ⟨overflowError, ["date value out of range"]⟩

theorem Datetime.add_ok {t later : Datetime} {delta : Int} :
    t.add delta = .ok later ↔ (dayMicros ≤ t.clock + delta ∧
      t.clock + delta < (maxOrdinal + 1) * dayMicros) ∧ later = { t with clock := t.clock + delta } := by
  unfold Datetime.add
  dsimp only
  split
  · rename_i inside
    simp [inside, eq_comm]
  · rename_i outside
    simp [outside]

example : timedeltaDays (.float (.fin (3 / 2))) = .ok 129600000000 := by decide +kernel

end Py
