import DevGate.Coherence.Context
import DevGate.Coherence.Overlay

set_option autoImplicit false

/- hub/coherence/policy.py: the policy bundle, the authority it needs, and the adoption sets. -/
namespace DevGate.Policy

open Py Canon
open Adoption (policyError)
open Context (memberOf)
open Evaluators (isTruthy)

/-- `_parse` of a decoded value. -/
def parse (v : Value) : Except Exc Datetime :=
  match v with
  | .str ts => Adoption.parse ts
  | other => .error ⟨.attributeError, ["'", other.typeName, "' object has no attribute 'replace'"]⟩

/-- A date-time of a frozen contract: a text that parses, with its offset. -/
theorem parse_dateTime {v : Value} (accepted : Schemacheck.Accepts Schemacheck.dateTime v) :
    ∃ t, parse v = .ok t ∧ t.offset.isSome = true ∧ v.truthy = true := by
  obtain ⟨text, rfl⟩ := Schemacheck.isType_string (accepted.type rfl)
  have valid := accepted.dateTime rfl
  unfold Schemacheck.validDateTime at valid
  cases found : Datetime.fromisoformat (text.replace (Chr.ofChar 'Z') "+00:00") with
  | error e => simp [found] at valid
  | ok t =>
      refine ⟨t, found, by simpa [found] using valid, ?_⟩
      have filled : text ≠ [] := by
        rintro rfl
        cases found
      simpa [Value.truthy] using filled

/-- `_ON_EXPIRY`. -/
def onExpiry : List Value := [.str "block"]

/-- `_RENEWAL_REQUIRES`. -/
def renewalRequires : List Value := [.str "central-approval"]

/-- The bundle's limit on a renewal. -/
def checkRenewal (renewal : Value) : Except Exc Unit := do
  ensure renewal.isDict ⟨policyError, ["advisory-escalation: renewal must be an object"]⟩
  let requires := (← renewal.get "requires").getD .null
  ensure (← memberOf requires renewalRequires)
    ⟨policyError, ["advisory-escalation: renewal.requires must be one of ",
      "['central-approval'], got ", .repr requires]⟩
  let days := (← renewal.get "max_extension_days").getD .null
  ensure (days.int?.any (fun n => 1 ≤ n))
    ⟨policyError, ["advisory-escalation: renewal.max_extension_days must be a ",
      "positive integer, got ", .repr days]⟩

/-- The escalation that a bundle with `stages` must declare. -/
def checkEscalation (esc : Value) : Except Exc Unit := do
  ensure (esc ≠ .null)
    ⟨policyError, ["advisory-escalation: bundle declares stages.max_advisory_age_days ",
      "but no advisory_escalation policy for exceeding it (coh-pol-03)"]⟩
  ensure esc.isDict ⟨policyError, ["advisory-escalation: advisory_escalation must be an object"]⟩
  let consequence := (← esc.get "on_expiry").getD .null
  ensure (← memberOf consequence onExpiry)
    ⟨policyError, ["advisory-escalation: on_expiry must be one of ", "['block'], got ",
      .repr consequence]⟩
  match (← esc.get "renewal").getD .null with
  | .null => return ()
  | renewal => checkRenewal renewal

/-- `check_advisory_escalation`. -/
def checkAdvisoryEscalation (bundle : Value) : Except Exc Value :=
  match bundle with
  | .dict kvs =>
      if Dict.contains kvs "stages" then do
        let esc := (Dict.get? kvs "advisory_escalation").getD .null
        checkEscalation esc
        return esc
      else .ok (.dict [])
  | _ => .error ⟨policyError, ["advisory-escalation: policy bundle is not an object"]⟩

/-- `except ValueError: raise PolicyError(msg)`. -/
def orRefuse {α : Type} (x : Except Exc α) (msg : Text) : Except Exc α :=
  match x with
  | .ok a => .ok a
  | .error e => if e.isA [.valueError] then .error ⟨policyError, msg⟩ else .error e

/-- When the window of a grandfather record ends. -/
def validUntil (g : Value) : Option Str := (g.field? "valid_until").bind Value.str?

/-- The ends of the windows recorded for a digest. -/
def windows (digest : Str) : List Value → Except Exc (List Str)
  | [] => .ok []
  | g :: rest =>
      match validUntil g with
      | none => .error ⟨policyError, ["anti-rollback: malformed grandfather record"]⟩
      | some until_ => do
          let later ← windows digest rest
          return if ((g.field? "bundle_digest").getD .null).eq (.str digest) then until_ :: later
            else later

/-- `max(ends)`. -/
def latest : List Str → Str
  | [] => []
  | first :: rest => rest.foldl (fun a b => if Str.le b a then a else b) first

/-- Does a window end after `now`? -/
def isOpen (now : Datetime) (until_ : Str) : Except Exc Bool := do
  let ends ← Adoption.parse until_
  return !(← ends.le now)

/-- One of the recorded windows is open at the evaluation time. -/
def checkWindows (digest expected : Str) (ends : List Str) (evaluationTime : Value) :
    Except Exc Unit := do
  ensure (ends ≠ [])
    ⟨policyError, ["anti-rollback: pinned bundle digest ", digest, " is not the bound ",
      "central bundle ", expected, " and no grandfather window covers it ", "(coh-pol-01)"]⟩
  ensure (evaluationTime ≠ .null)
    ⟨policyError, ["anti-rollback: grandfather window present but the context ",
      "carries no evaluation_time to judge expiry against"]⟩
  let now ← orRefuse (parse evaluationTime)
    ["anti-rollback: context evaluation_time is unparseable"]
  let unexpired ← orRefuse (ends.mapM (isOpen now))
    ["anti-rollback: grandfather window has an unparseable ", "valid_until"]
  ensure (unexpired.any id = true)
    ⟨policyError, ["anti-rollback: grandfather window for ", digest, " expired at ", latest ends,
      " (coh-pol-01)"]⟩

/-- The epoch a bundle declares is not below the bound floor. -/
def checkEpoch (bundle : Dict Str Value) (binding : Dict Str Value) : Except Exc Unit := do
  match ((Dict.get? bundle "bundle_epoch").bind Value.int?).filter (fun n => 0 ≤ n) with
  | none => .error ⟨policyError, ["anti-rollback: bundle does not declare a valid bundle_epoch ",
      "(coh-pol-01)"]⟩
  | some epoch =>
      match ((Dict.get? binding "min_bundle_epoch").getD (.int 0)).int?.filter (fun n => 0 ≤ n) with
      | none => .error ⟨policyError, ["anti-rollback: bound min_bundle_epoch is malformed"]⟩
      | some floor =>
          ensure (floor ≤ epoch)
            ⟨policyError, ["anti-rollback: pinned bundle epoch ", .str (.int epoch),
              " is below the bound ", "floor ", .str (.int floor), " (coh-pol-01)"]⟩

/-- `check_anti_rollback`. -/
def checkAntiRollback (digest : Str) (bundle : Dict Str Value) (binding evaluationTime : Value) :
    Except Exc Unit :=
  match binding with
  | .dict (kv :: kvs) =>
      match (Dict.get? (kv :: kvs) "expected_digest").bind Value.str? with
      | some (c :: rest) =>
          let expected : Str := c :: rest
          if digest ≠ expected then do
            let ends ← windows digest (← listOr (Dict.get? (kv :: kvs) "grandfathers"))
            checkWindows digest expected ends evaluationTime
          else checkEpoch bundle (kv :: kvs)
      | _ => .error ⟨policyError, ["anti-rollback: bound expected_digest is missing or malformed"]⟩
  | _ => .error ⟨policyError,
      ["policy-substitution: context binds no central policy (coh-pol-02); ",
        "refusing to evaluate against repository-chosen policy"]⟩

/-- Under a binding that names a digest: its bundle is held to the epoch, any other to its
windows. -/
theorem checkAntiRollback_eq {digest expected : Str} {bundle binding : Dict Str Value}
    {evaluationTime : Value} (bound : Dict.get? binding "expected_digest" = some (.str expected))
    (filled : expected ≠ []) :
    checkAntiRollback digest bundle (.dict binding) evaluationTime =
      if digest ≠ expected then do
        let ends ← windows digest (← listOr (Dict.get? binding "grandfathers"))
        checkWindows digest expected ends evaluationTime
      else checkEpoch bundle binding := by
  obtain ⟨c, rest, rfl⟩ := List.exists_cons_of_ne_nil filled
  cases binding with
  | nil => cases bound
  | cons kv kvs =>
      have text : (Dict.get? (kv :: kvs) "expected_digest").bind Value.str? = some (c :: rest) := by
        rw [bound]
        rfl
      unfold checkAntiRollback
      dsimp only
      rw [text]

/-- A JSON document of the policy directory. -/
def readJson (disk : Disk) (label : Str) (path : Path) : Except Exc Value :=
  match (do Json.loadText (← disk.read path)) with
  | .ok v => .ok v
  | .error e =>
      if e.isA [.osError, .jsonDecodeError] then
        .error ⟨policyError, (["cannot read ", label, " ", path.str, ": "] : Text) ++ e.msg⟩
      else .error e

def bundleVersion : Str := "devgate.spec-coherence.policy/v1"

/-- The bundle of a policy directory. -/
def readBundle (disk : Disk) (root : Str) : Except Exc Value := do
  let rootP ← disk.resolve (Path.ofStr root)
  ensure (disk.isDir rootP) ⟨policyError, ["policy root is not a directory: ", .repr (.str root)]⟩
  let bundlePath := rootP.join "policy.json"
  ensure (disk.exists_ bundlePath) ⟨policyError, ["missing policy bundle: ", bundlePath.str]⟩
  readJson disk "policy bundle" bundlePath

/-- `resolve`, of a bundle that was read. -/
def authorize (bundle : Value) (expected : Str) (binding evaluationTime : Value) :
    Except Exc (Dict Str Value) := do
  let version := (← bundle.get "api_version").getD .null
  ensure (version.eq (.str bundleVersion))
    ⟨policyError, ["unsupported policy api_version: ", .repr version]⟩
  let computed ← digestObj .policy bundle
  ensure (computed = expected)
    ⟨policyError, ["policy digest mismatch: expected ", expected, ", computed ", computed]⟩
  let kvs := bundle.dict?.getD []
  checkAntiRollback computed kvs binding evaluationTime
  let _ ← checkAdvisoryEscalation bundle
  return Dict.set kvs "policy_digest" (.str computed)

/-- A bundle is authorized under its own digest, in its version, with its authority and its
escalation. -/
theorem authorize_ok {bundle pol : Dict Str Value} {digest expected : Str}
    {binding evaluationTime : Value} (digested : digestObj .policy (.dict bundle) = .ok digest) :
    authorize (.dict bundle) expected binding evaluationTime = .ok pol ↔
      Dict.get? bundle "api_version" = some (.str bundleVersion) ∧ digest = expected ∧
        checkAntiRollback digest bundle binding evaluationTime = .ok () ∧
        (∃ esc, checkAdvisoryEscalation (.dict bundle) = .ok esc) ∧
        Dict.set bundle "policy_digest" (.str digest) = pol := by
  have version : ((Dict.get? bundle "api_version").getD .null).eq (.str bundleVersion) = true ↔
      Dict.get? bundle "api_version" = some (.str bundleVersion) := by
    rw [Value.eq_text]
    cases Dict.get? bundle "api_version" <;> simp
  unfold authorize
  rw [Value.get_dict, ok_bind, digested]
  constructor
  · intro ran
    obtain ⟨_, current, ran⟩ := bind_ok.mp ran
    obtain ⟨_, same, ran⟩ := bind_ok.mp ran
    cases same
    obtain ⟨_, pinned, ran⟩ := bind_ok.mp ran
    obtain ⟨_, authority, ran⟩ := bind_ok.mp ran
    obtain ⟨esc, escalation, ran⟩ := bind_ok.mp ran
    exact ⟨version.mp (ensure_ok.mp current), ensure_ok.mp pinned, authority, ⟨esc, escalation⟩,
      Except.ok.inj ran⟩
  · rintro ⟨current, pinned, authority, ⟨esc, escalation⟩, rfl⟩
    refine bind_ok.mpr ⟨(), ensure_ok.mpr (version.mpr current), ?_⟩
    rw [ok_bind]
    refine bind_ok.mpr ⟨(), ensure_ok.mpr pinned, ?_⟩
    exact bind_ok.mpr ⟨(), authority, bind_ok.mpr ⟨esc, escalation, rfl⟩⟩

/-- `resolve`. -/
def resolve (disk : Disk) (root expected : Str) (binding evaluationTime : Value) :
    Except Exc (Dict Str Value) := do
  authorize (← readBundle disk root) expected binding evaluationTime

/-- `_load_json_set`. -/
def loadJsonSet (disk : Disk) (label : Str) (path : Path) : Except Exc (List Value) := do
  match ← readJson disk label path with
  | .list vs => return vs
  | other => .error ⟨policyError, ["cannot read ", label, " ", path.str,
      ": must be a JSON array, got ", other.typeName]⟩

/-- `_check_entries`. -/
def checkEntries (schema : Schemacheck.Schema) (label : Str) (entries : List Value) : List Text :=
  (entries.mapIdx (fun i entry =>
    (Schemacheck.validate schema entry "$").map (fun e =>
      ([label, "[", Frag.lit (Str.ofNat i), "]: "] : Text) ++ e))).flatten

/-- One of the two sets, where the policy directory has it. -/
def loadSet (disk : Disk) (rootP : Path) (file label : Str) : Except Exc (List Value) := do
  let path := rootP.join file
  if disk.exists_ path then
    let entries ← loadJsonSet disk (label ++ " set") path
    let errs := checkEntries (Issue.setSchema label) label entries
    ensure (errs = [])
      ⟨policyError, (["invalid ", label, " set: "] : Text) ++
        List.intercalate [Frag.lit "; "] (errs.take 5)⟩
    return entries
  else return []

/-- `load_adoption_sets`. -/
def loadAdoptionSets (disk : Disk) (root : Str) : Except Exc (List Value × List Value) := do
  let rootP ← disk.resolve (Path.ofStr root)
  let baseline ← loadSet disk rootP "baseline.json" "baseline"
  let exceptions ← loadSet disk rootP "exceptions.json" "exception"
  return (baseline, exceptions)

/-- `bundle.get("stages") or {}`. -/
def stages (bundle : Dict Str Value) : Value :=
  let found := (Dict.get? bundle "stages").getD .null
  if found.truthy then found else .dict []

/-- The name of an evaluator in the core set. -/
def coreName? (c : Value) : Option Str := c.str?.filter (fun s => s ≠ [])

/-- `enforced_core_classes`. -/
def enforcedCoreClasses (bundle : Dict Str Value) : Except Exc (List Str) := do
  match (← (stages bundle).get "enforced_core_classes").getD .null with
  | .null => return Adoption.defaultEnforcedCore
  | .list (c :: cs) =>
      match (c :: cs).mapM coreName? with
      | some core => return core
      | none => .error ⟨policyError,
          ["stages.enforced_core_classes members must be non-empty strings"]⟩
  | _ => .error ⟨policyError, ["stages.enforced_core_classes must be a non-empty array"]⟩

/-- `load_overlay`. -/
def loadOverlay (disk : Disk) (root : Str) : Except Exc Value := do
  let fp := (← disk.resolve (Path.ofStr root)).join "overlay.json"
  if disk.exists_ fp then readJson disk "overlay" fp else return .dict []

end DevGate.Policy
