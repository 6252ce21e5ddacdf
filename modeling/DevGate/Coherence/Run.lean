import DevGate.Coherence.Invoke
import DevGate.Coherence.Report
import DevGate.Coherence.Result

set_option autoImplicit false

/- `run` of hub/coherence/__main__.py: a request is checked, its inputs are resolved, and what was
found goes up the adoption ladder. -/
namespace DevGate.Run

open Py
open Result (Identities)
open Adoption (policyError)

/-- The arguments of `_fail`. -/
structure Refusal where
  outDir : Str
  errorClass : Str
  reason : Text
  stage : Str
  identities : Identities

/-- What ends a run before its result: an envelope, or an exception that no clause catches. -/
inductive Stop where
  | refused (r : Refusal)
  | raised (e : Exc)

/-- `try: … except (classes) as e: return _fail(..)`. -/
def guarded {α : Type} (classes : List ExcClass) (refusal : Text → Refusal) (x : Except Exc α) :
    Except Stop α :=
  match x with
  | .ok a => .ok a
  | .error e => if e.isA classes then .error (.refused (refusal e.msg)) else .error (.raised e)

theorem guarded_ok {α : Type} {classes : List ExcClass} {refusal : Text → Refusal}
    {x : Except Exc α} {a : α} : guarded classes refusal x = .ok a ↔ x = .ok a := by
  unfold guarded
  cases x with
  | ok b => simp
  | error e =>
      by_cases caught : e.isA classes <;> simp [caught]

/-- A path argument. -/
def pathArg (v : Value) : Except Exc Str :=
  match v with
  | .str s => .ok s
  | other => .error ⟨.typeError, ["argument should be a str or an os.PathLike object where ",
      "__fspath__ returns a str, not '", other.typeName, "'"]⟩

/-- `_check_expected`. -/
def checkExpected (claimed : Value) (actual label : Str) : Except Exc Unit := do
  ensure (claimed.str?.any (fun s => Str.strip s ≠ []))
    ⟨.valueError, [label, ".expected_digest is required and must be a non-empty ",
      "string; verification cannot be skipped"]⟩
  ensure (claimed = .str actual)
    ⟨.valueError, [label, " digest mismatch: request expected ", .str claimed, ", ", "computed ",
      actual]⟩

/-- What a malformed request raises; a `SchemaError` is a ValueError. -/
def malformed : List ExcClass := [.osError, .jsonDecodeError, .valueError]

/-- The checks on a request, and the outputs directory it names. -/
def checkRequest (req : Value) : Except Exc (Dict Str Value × Str) := do
  let errors := Schemacheck.validate Schemacheck.request req "$"
  ensure (errors = [])
    ⟨.valueError, "invalid request: " :: List.intercalate [Frag.lit "; "] (errors.take 5)⟩
  let raw := ((req.field? "outputs").bind Value.str?).getD []
  ensure (Fin.ofNat 0x110000 0 ∉ raw)
    ⟨.valueError, ["outputs contains an embedded NUL character"]⟩
  return (req.dict?.getD [], Str.strip raw)

/-- `_safe_out_dir`. -/
def safeOutDir (req : Dict Str Value) (parent : Str) : Str :=
  match Dict.get? req "outputs" with
  | some (.str raw) =>
      if Str.strip raw ≠ [] ∧ Fin.ofNat 0x110000 0 ∉ raw then Str.strip raw else parent
  | _ => parent

/-- A request that was read, in the directory `parent`. No version of the contract is retired. -/
def accept (parent : Str) (req : Value) : Except Stop (Dict Str Value × Str) := do
  let refusal (text : Text) : Refusal :=
    ⟨parent, "invalid-input", "malformed request: " :: text, "invocation", {}⟩
  match req with
  | .dict kvs =>
      let version := (Dict.get? kvs "api_version").getD .null
      if version.eq (.str Schemacheck.requestVersion) then
        let (kvs, outputs) ← guarded malformed refusal (checkRequest req)
        return (kvs, if outputs = [] then parent else outputs)
      else .error (.refused ⟨safeOutDir kvs parent, "protocol",
        ["unsupported api_version ", .repr version, "; ", "supported: ",
          Schemacheck.requestVersion], "invocation", {}⟩)
  | _ => .error (.refused (refusal ["request must be a JSON object"]))

/-- What a run has resolved its inputs to. -/
structure Inputs where
  subject : Value
  package : Dict Str Value
  context : Dict Str Value
  facts : Dict Str Value
  policy : Dict Str Value
  identities : Identities

section

variable (site : Site) (outDir : Str) (req : Dict Str Value)

/-- `req[key]`. -/
def ref (key : Str) : Except Exc Value := (Value.dict req).item key

/-- `ValueError`, with the resolver's own errors below it, `KeyError` and `TypeError`. -/
def unresolvable : List ExcClass := [.valueError, .keyError, .typeError]

def expected (key actual : Str) : Except Exc Unit := do
  checkExpected ((← (← ref req key).get "expected_digest").getD .null) actual key

/-- The subject manifest, and its digest. -/
def readSubject : Except Exc (Value × Str) := do
  let input ← ref req "subject"
  let kind := (← input.get "kind").getD Invoke.sourceTree
  let subject ← Invoke.subject site (← pathArg (← input.item "root")) kind
  return (subject, ← pathArg (← subject.item "subject_digest"))

def resolveSubject (ids : Identities) : Except Stop (Value × Identities) := do
  let refusal (ids : Identities) (text : Text) : Refusal :=
    ⟨outDir, "invalid-input", text, "subject-resolution", ids⟩
  let (subject, actual) ← guarded unresolvable (refusal ids) (readSubject site req)
  let ids := { ids with subject := some actual }
  guarded unresolvable (refusal ids) (expected req "subject" actual)
  return (subject, ids)

/-- The package, and its digest. -/
def readPackage : Except Exc (Dict Str Value × Str) := do
  let package ← Package.resolve site.disk (← pathArg (← (← ref req "openspec").item "root"))
  return (package, ← pathArg (← (Value.dict package).item "package_digest"))

def resolvePackage (ids : Identities) : Except Stop (Dict Str Value × Identities) := do
  let refusal (ids : Identities) (text : Text) : Refusal :=
    ⟨outDir, "invalid-input", text, "package-resolution", ids⟩
  let (package, actual) ← guarded unresolvable (refusal ids) (readPackage site req)
  let ids := { ids with openspec := some actual }
  guarded unresolvable (refusal ids) (expected req "openspec" actual)
  return (package, ids)

/-- The root of the context, the context and its digest. -/
def readContext : Except Exc (Str × Dict Str Value × Str) := do
  let root ← pathArg (← (← ref req "context").item "root")
  let ctx ← Context.load site.env site.disk root
  return (root, ctx, ← pathArg (← (Value.dict ctx).item "context_digest"))

/-- The captured facts of a context that has the digest the request expects. -/
def readFacts (root actual : Str) (ctx : Dict Str Value) : Except Exc (Dict Str Value) := do
  expected req "context" actual
  Context.loadCapturedFacts site.disk root ctx

def resolveContext (ids : Identities) :
    Except Stop (Dict Str Value × Dict Str Value × Identities) := do
  let refusal (ids : Identities) (text : Text) : Refusal :=
    ⟨outDir, "policy-resolution", text, "context", ids⟩
  let (root, ctx, actual) ← guarded unresolvable (refusal ids) (readContext site req)
  let ids := { ids with context := some actual }
  let facts ← guarded unresolvable (refusal ids) (readFacts site req root actual ctx)
  return (ctx, facts, ids)

/-- `_require(obj, key, where)`. -/
def require (obj : Value) (key where_ : Str) : Except Exc Value :=
  match obj.item key with
  | .ok v => .ok v
  | .error e =>
      if e.isA [.keyError] then
        .error ⟨.keyError, [.repr (.str ("missing required field: " ++ where_ ++ "." ++ key))]⟩
      else .error e

/-- The policy bundle, under the binding and the time of the context, and its digest. -/
def readPolicy (ctx : Dict Str Value) : Except Exc (Dict Str Value × Str) := do
  let input ← ref req "policy"
  let root ← pathArg (← require input "root" "policy")
  let expected ← pathArg (← require input "expected_digest" "policy")
  let pol ← Policy.resolve site.disk root expected ((Dict.get? ctx "policy_binding").getD .null)
    (← (Value.dict ctx).item "evaluation_time")
  return (pol, ← pathArg (← (Value.dict pol).item "policy_digest"))

def resolvePolicy (ctx : Dict Str Value) (ids : Identities) :
    Except Stop (Dict Str Value × Identities) := do
  let refusal (text : Text) : Refusal :=
    ⟨outDir, "policy-resolution", text, "policy-resolution", ids⟩
  let (pol, actual) ← guarded [policyError, .keyError, .typeError] refusal (readPolicy site req ctx)
  return (pol, { ids with policy := some actual })

/-- Subject, package, context and policy resolution. -/
def resolveInputs : Except Stop Inputs := do
  let (subject, ids) ← resolveSubject site outDir req {}
  let (package, ids) ← resolvePackage site outDir req ids
  let (context, facts, ids) ← resolveContext site outDir req ids
  let (policy, identities) ← resolvePolicy site outDir req context ids
  return { subject, package, context, facts, policy, identities }

end

/-- A run of a decoded request, up to its resolved inputs. -/
def front (site : Site) (parent : Str) (req : Value) : Except Stop Inputs := do
  let (kvs, outDir) ← accept parent req
  resolveInputs site outDir kvs

/-- `req.get("repository")`, where it is an object. -/
def recordOf (req : Dict Str Value) : Dict Str Value :=
  ((Dict.get? req "repository").bind Value.dict?).getD []

/-- The age cap that the bundle declares, or else 0. -/
def ageCap (pol : Dict Str Value) : Except Exc Value := do
  return (← (Policy.stages pol).get "max_advisory_age_days").getD (.int 0)

/-- Is the advisory shelter of the repository spent? -/
def advisoryExpired (req pol ctx : Dict Str Value) : Except Exc Bool := do
  let stage ← (Value.dict ctx).item "stage"
  let age ← Report.advisoryAge (Dict.set (recordOf req) "stage" stage) (← ageCap pol)
    (← (Value.dict ctx).item "evaluation_time")
  let escalation ← Policy.checkAdvisoryEscalation (.dict pol)
  return age.expired && ((← escalation.get "on_expiry").getD .null).eq (.str "block")

/-- The severity floors, as the ladder looks them up for the open baseline entries. -/
def severityFloor (baseline : List Adoption.BaselineEntry) (pol : Dict Str Value) :
    Except Exc (Dict Str Str) := do
  let found := (Dict.get? pol "assertion_severity_floor").getD .null
  let floors := if found.truthy then found else .dict []
  let _ ← (baseline.filter Adoption.BaselineEntry.isOpen).mapM (fun b => do
    ((← floors.get b.fingerprint.assertionId).getD .null).key)
  return (floors.dict?.getD []).filterMap (fun kv => kv.2.str?.map (fun name => (kv.1, name)))

/-- The stage of a context, which its schema bounds. -/
def stageOf (ctx : Dict Str Value) : Except Exc Int := do
  let stage ← (Value.dict ctx).item "stage"
  match Attest.integral? stage with
  | some n => return n
  | none => .error ⟨.typeError, ["'<' not supported between instances of '", stage.typeName,
      "' and 'int'"]⟩

/-- The adoption ladder, under the sets of the policy directory. -/
def adopt (disk : Disk) (req pol ctx : Dict Str Value) (ledger : List Evaluate.Row)
    (findings : List Finding) (planned : List Adoption.Planned) :
    Except Exc Adoption.Report := do
  let root ← pathArg (← (← (Value.dict req).item "policy").item "root")
  let (baseline, exceptions) ← Policy.loadAdoptionSets disk root
  let expired ← advisoryExpired req pol ctx
  Context.verifyBoundSets ctx (.list baseline) (.list exceptions)
  let core ← Policy.enforcedCoreClasses pol
  let stage ← stageOf ctx
  let time ← pathArg (← (Value.dict ctx).item "evaluation_time")
  let debts := baseline.filterMap Adoption.BaselineEntry.read
  let floors ← severityFloor debts pol
  Adoption.evaluate ledger findings planned debts
    (exceptions.filterMap Adoption.ExceptionRecord.read)
    { stage, evaluationTime := time, coreClasses := some core, severityFloor := floors,
      advisoryExpired := expired }

end DevGate.Run
