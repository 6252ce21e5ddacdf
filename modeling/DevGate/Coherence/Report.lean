import DevGate.Coherence.Policy
import DevGate.Py.Duration

set_option autoImplicit false

/- hub/coherence/report.py, advisory_age: how long a repository has been advisory, against the
central cap. -/
namespace DevGate.Report

open Py
open Policy (parse)

/-- `DAY`. -/
def day : Nat := 86400

/-- What `advisory_age` answers. -/
structure Age where
  days : Option Flt := none
  cap : Value
  expired : Bool := false
  expiry : Option Value := none
  notes : List Text := []

/-- The age of a recorded start, against a claimed expiry or else the cap. -/
def measure (cap : Value) (ref : Datetime) (started expiry : Value) : Except Exc Age := do
  let age := (totalSeconds (← ref.sub (← parse started))).div day
  let shown := age.round2
  let out : Age := { days := some shown, cap }
  if expiry.truthy then
    let reached ← (← parse expiry).le ref
    return { out with
      expiry := some expiry
      expired := reached
      notes := if reached then [["advisory expiry reached; promotion requires escalation or an ",
        "approved renewal (coh-pol-03)"]] else [] }
  else
    let past ← if cap.truthy then age.exceeds cap else pure false
    return { out with
      expired := past
      notes := if past then [["advisory age ", .str (.float shown), "d exceeds the central ",
        "cap of ", .str cap, "d with no renewal recorded"]] else [] }

/-- `advisory_age`. -/
def advisoryAge (record : Dict Str Value) (cap referenceTime : Value) : Except Exc Age := do
  let ref ← parse referenceTime
  if ((Dict.get? record "stage").getD .null).eq (.int 0) then
    return { cap, notes := [["inventory stage; cap does not apply"]] }
  else
    let started := (Dict.get? record "advisory_started").getD .null
    if started.truthy then
      measure cap ref started ((Dict.get? record "advisory_expiry").getD .null)
    else return { cap, notes := [["no recorded advisory start; cap not measured"]] }

end DevGate.Report
