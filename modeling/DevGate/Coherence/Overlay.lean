import DevGate.Coherence.Evaluators

set_option autoImplicit false

/- hub/coherence/policy.py, apply_overlay: the repository's overlay over the
assertions, under the central policy bundle. -/
namespace DevGate.Policy

open Py Evaluators

def overlayError : ExcClass := .user "OverlayError" .valueError

/-- `_SEVERITY_RANK`. -/
def severityRank : Dict Str Nat := [("low", 0), ("medium", 1), ("high", 2), ("critical", 3)]

/-- `_SEVERITY_RANK.get(v)`: nothing where `v not in _SEVERITY_RANK`. -/
def rank? (v : Value) : Except Exc (Option Nat) := do
  match ← v.key with
  | .str name => .ok (Dict.get? severityRank name)
  | _ => .ok none

/-- `_SEVERITY_RANK[v]`. -/
def rank (v : Value) : Except Exc Nat := do
  match ← rank? v with
  | some n => .ok n
  | none => .error ⟨.keyError, [.repr v]⟩

/-- `list(v or [])`. -/
def listOr (v : Option Value) : Except Exc (List Value) :=
  if isTruthy v then (v.getD .null).iter else .ok []

/-- `central_required`. -/
def centralRequired (bundle : Dict Str Value) : Except Exc (List Value) :=
  listOr (Dict.get? bundle "required_assertions")

/-- `v["id"]`, as a dictionary key. -/
def idKey (v : Value) : Except Exc Key := do (← v.item "id").key

/-- What `apply_overlay` reads from the central bundle. -/
structure Central where
  approved : List Key
  floors : Value
  required : List Key

def readCentral (bundle : Dict Str Value) : Except Exc Central := do
  let approved ← (← listOr (Dict.get? bundle "approved_evaluators")).mapM idKey
  let floors := (Dict.get? bundle "assertion_severity_floor").getD .null
  let required ← (← centralRequired bundle).mapM Value.key
  .ok ⟨approved, if floors.truthy then floors else .dict [], required⟩

/-- The id of an object that has a string id. -/
def entryId (entry : Value) : Option Str := (entry.field? "id").bind Value.str?

/-- `target[key] = value`; a target has been subscripted with "id" before. -/
def setField (target : Value) (key : Str) (value : Value) : Value :=
  match target with
  | .dict kvs => .dict (Dict.set kvs key value)
  | other => other

def setSeverity (central : Central) (aid : Str) (target new : Value) : Except Exc Value := do
  let floor := (← central.floors.get aid).getD .null
  match ← rank? new with
  | none =>
      .error ⟨overlayError, ["overlay sets unknown severity ", .repr new, " for ", .repr (.str aid),
        "; expected one of ['critical', 'high', 'low', 'medium']"]⟩
  | some n =>
      let lowered ← if floor.truthy then do .ok (decide (n < (← rank floor))) else .ok false
      if lowered then
        .error ⟨overlayError, ["overlay lowers severity of ", .repr (.str aid),
          " below central floor ", .repr floor]⟩
      else .ok (setField target "severity" new)

def setEvaluator (central : Central) (aid : Str) (target ev : Value) : Except Exc Value :=
  match entryId ev with
  | some (c :: rest) =>
      let eid : Str := c :: rest
      if central.approved ≠ [] ∧ Key.str eid ∉ central.approved then
        .error ⟨overlayError, ["overlay selects unapproved evaluator ", .repr (.str eid), " for ",
          .repr (.str aid)]⟩
      else .ok (setField target "evaluator" ev)
  | _ => .error ⟨overlayError, ["overlay sets malformed evaluator reference for ",
      .repr (.str aid)]⟩

/-- `if key in changed`: apply the change to the target. -/
def override (changed : Value) (key : Str) (change : Value → Value → Except Exc Value)
    (target : Value) : Except Exc Value :=
  match changed.field? key with
  | some value => change target value
  | none => .ok target

/-- One entry of the overlay's `assertions`. -/
def applyChange (central : Central) (byId : Dict Key Value) (changed : Value) :
    Except Exc (Dict Key Value) :=
  match entryId changed with
  | none =>
      .error ⟨overlayError, ["overlay assertion entry must be an object with a string id"]⟩
  | some aid =>
      if isTruthy (changed.field? "disabled") then
        if Key.str aid ∈ central.required then
          .error ⟨overlayError, ["overlay disables centrally required assertion ",
            .repr (.str aid)]⟩
        else .ok (Dict.erase byId (.str aid))
      else match Dict.get? byId (.str aid) with
        | none =>
            .error ⟨overlayError, ["overlay references unknown assertion ", .repr (.str aid)]⟩
        | some target => do
            let target ← override changed "severity" (setSeverity central aid) target
            let target ← override changed "evaluator" (setEvaluator central aid) target
            .ok (Dict.set byId (.str aid) target)

/-- One entry of `add_assertions`. -/
def applyAddition (byId : Dict Key Value) (added : Value) : Except Exc (Dict Key Value) :=
  match entryId added with
  | none =>
      .error ⟨overlayError, ["overlay add_assertions entry must be an object with a string id"]⟩
  | some aid =>
      if Dict.contains byId (Key.str aid) then
        .error ⟨overlayError, ["overlay redefines existing assertion ", .repr (.str aid)]⟩
      else .ok (Dict.set byId (.str aid) added)

/-- `overlay.get(key, [])`, which must be an array. -/
def entries (overlay : Dict Str Value) (key : Str) : Except Exc (List Value) :=
  match (Dict.get? overlay key).getD (.list []) with
  | .list vs => .ok vs
  | _ => .error ⟨overlayError, ["overlay ", key, " must be an array"]⟩

/-- `{a["id"]: a for a in assertions}`, from the ids. -/
def indexById (ids : List Key) (assertions : List Value) : Dict Key Value :=
  Dict.ofPairs (ids.zip assertions)

def applyOverlay (assertions : List Value) (overlay : Value) (bundle : Dict Str Value) :
    Except Exc (List Value) := do
  let central ← readCentral bundle
  let ids ← assertions.mapM idKey
  match overlay with
  | .dict kvs => do
      let changes ← entries kvs "assertions"
      let additions ← entries kvs "add_assertions"
      let byId ← changes.foldlM (applyChange central) (indexById ids assertions)
      let byId ← additions.foldlM applyAddition byId
      if isTruthy (Dict.get? kvs "capability_grants") ∨ isTruthy (Dict.get? kvs "network") then
        .error ⟨overlayError, ["overlay may not grant network access or secrets; ",
          "capabilities are control-plane policy"]⟩
      else .ok (ids.filterMap (Dict.get? byId) ++ additions)
  | _ => .error ⟨overlayError, ["overlay must be an object"]⟩

end DevGate.Policy
