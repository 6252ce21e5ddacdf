import DevGate.Coherence.Context
import DevGate.Coherence.Policy
import DevGate.Lib.Staged

set_option autoImplicit false

/- `issue_context` of hub/coherence/issue.py: an evaluation context is issued, and the adoption
sets it binds are written into the policy directory. -/
namespace DevGate

open Py Canon

namespace Attest

/-- `load_signer_set`. -/
def loadSignerSet (disk : Disk) (path : Str) : Except Exc Value :=
  match (do Json.loadText (← disk.read (Path.ofStr path))) with
  | .ok doc => do
      let errs := Schemacheck.validate Schemacheck.signerSet doc "$"
      ensure (errs = [])
        ⟨attestationError, "invalid signer-set: " :: List.intercalate [Frag.lit "; "] (errs.take 5)⟩
      return doc
  | .error e =>
      if e.isA [.osError, .jsonDecodeError] then
        .error ⟨attestationError, "cannot load signer set: " :: e.msg⟩
      else .error e

/-- `signer_set_digest`. -/
def signerSetDigest (setDoc : Value) : Except Exc Str := digestObj .signerSet setDoc

end Attest

namespace Issue

open Attest (getOr EnvText)

/-- How `write_bytes` ends: done, refused before the file is open, or cut off once it is. -/
inductive WriteEnd where
  | done
  | refused (e : Exc)
  | cut (kept : Nat) (e : Exc)

/-- How the operations of a call on the file system end. -/
structure Faults where
  contextDir : Option Exc
  policyDir : Option Exc
  baseline : WriteEnd
  exceptions : WriteEnd
  context : WriteEnd

/-- The arguments of `issue_context`; a set that is not given is null. -/
structure Call where
  ctxDir : Str
  policyDir : Str
  repo : Str
  registryPath : Str
  evaluationTime : Str
  requestedStage : Option Int := none
  executionProfile : Str := "linux-amd64-v1"
  baselineSet : Value := .null
  exceptionSet : Value := .null
  capabilityGrants : Value := .null
  capturedFacts : Value := .null
  contextId : Str := "pilot-context"
  semantics : Str := "fresh-promotion"
  issuer : Option Str := none
  signerSet : Option Str := none
  policyGrandfathers : Value := .null

def Call.baselineFile (c : Call) : Path := (Path.ofStr c.policyDir).join "baseline.json"

def Call.exceptionsFile (c : Call) : Path := (Path.ofStr c.policyDir).join "exceptions.json"

def Call.contextFile (c : Call) : Path := (Path.ofStr c.ctxDir).join "context.json"

def writeBytes (fate : WriteEnd) (path : Path) (payload : Bytes) : Act Unit := fun world =>
  match fate with
  | .done => (.ok (), { world with log := world.log ++ [(path, payload)] })
  | .refused e => (.error e, world)
  | .cut kept e => (.error e, { world with log := world.log ++ [(path, payload.take kept)] })

/-- A computation on what the file system holds by now. -/
def reading {α : Type} (disk : Disk) (body : Disk → Except Exc α) : Act α :=
  fun world => (body (disk.after world.log), world)

def mkdir (fault : Option Exc) : Except Exc Unit :=
  match fault with
  | none => .ok ()
  | some e => .error e

def recordFields : List Str := ["stage", "owner"]

/-- One record of the stage registry. -/
def checkRecord (repo : Str) (rec : Value) : Except Exc Unit := do
  recordFields.forM (fun f =>
    ensure (rec.isDict ∧ (rec.field? f).isSome)
      ⟨.valueError, ["stage registry ", .repr (.str repo), ": missing ", .repr (.str f)]⟩)
  let stage ← rec.item "stage"
  ensure (Schemacheck.isIn stage Context.validStages)
    ⟨.valueError, ["stage registry ", .repr (.str repo), ": bad stage ", .repr stage]⟩

/-- `load_stage_registry`. -/
def loadStageRegistry (disk : Disk) (path : Str) : Except Exc (Dict Str Value) := do
  match ← Json.loadText (← disk.read (Path.ofStr path)) with
  | .dict data => do
      data.forM (fun record => checkRecord record.1 record.2)
      return data
  | _ => .error ⟨.valueError, ["stage registry must be an object keyed by repo"]⟩

/-- The number that a stage is equal to. -/
def stageNumber (stage : Value) : Int :=
  (([0, 1, 2, 3, 4] : List Int).find? (fun n => Value.same (.int n) stage)).getD 0

/-- `effective_stage`. -/
def effectiveStage (registry : Dict Str Value) (repo : Str) (requested : Option Int) :
    Except Exc Value := do
  match Dict.get? registry repo with
  | none => .error ⟨.valueError, ["no adoption record for ", .repr (.str repo)]⟩
  | some rec => do
      let stage ← rec.item "stage"
      match requested with
      | none => return stage
      | some n =>
          if n < stageNumber stage then
            .error ⟨.valueError, ["requested stage ", .str (.int n), " is weaker than the authoritative ",
              "stage ", .str stage, " for ", .repr (.str repo), " (coh-ctx-02)"]⟩
          else return stage

def readPolicy (disk : Disk) (path : Path) : Except Exc Value :=
  match (do Json.loadText (← disk.read path)) with
  | .ok current => .ok current
  | .error e =>
      if e.isA [.osError, .jsonDecodeError] then
        .error ⟨.valueError, (["cannot read policy bundle ", path.str, ": "] : Text) ++ e.msg⟩
      else .error e

/-- A recorded window, which has to state its three fields. -/
def grandfather (g : Value) : Except Exc Value :=
  match (["bundle_digest", "valid_until", "reason"] : List Str).mapM
      (fun k => (((g.field? k).bind Value.str?).filter (fun s => s ≠ [])).map
        (fun s => (k, Value.str s))) with
  | some fields => .ok (.dict fields)
  | none => .error ⟨.valueError, ["policy_grandfathers entries need bundle_digest, valid_until ",
      "and reason strings"]⟩

/-- The binding of a context to the policy that stands in the policy directory. -/
def policyBinding (disk : Disk) (c : Call) : Except Exc Value := do
  let path := (Path.ofStr c.policyDir).join "policy.json"
  ensure (disk.exists_ path)
    ⟨.valueError, ["no policy.json under ", (Path.ofStr c.policyDir).str,
      ": the issuer cannot bind a ", "central policy (coh-pol-02); place the current bundle first"]⟩
  let current ← readPolicy disk path
  let floor ← getOr current "min_bundle_epoch" (.int 0)
  ensure (floor.int?.any (fun n => 0 ≤ n))
    ⟨.valueError, ["policy bundle ", path.str, ": min_bundle_epoch malformed"]⟩
  let recorded ← (Value.orElse (some c.policyGrandfathers) (.list [])).iter
  let grandfathers ← recorded.mapM grandfather
  return .dict [("expected_digest", .str (← digestObj .policy current)), ("min_bundle_epoch", floor),
    ("grandfathers", .list grandfathers)]

/-- The stage of the context, and its policy binding: all that is checked before the sets. -/
def prepare (faults : Faults) (disk : Disk) (c : Call) : Except Exc (Value × Value) := do
  ensure (c.semantics = "fresh-promotion" ∨ c.semantics = "replay")
    ⟨.valueError, ["invalid semantics ", .repr (.str c.semantics)]⟩
  let registry ← loadStageRegistry disk c.registryPath
  let stage ← effectiveStage registry c.repo c.requestedStage
  mkdir faults.contextDir
  mkdir faults.policyDir
  return (stage, ← policyBinding disk c)

/-- A set that is given is checked, and written. -/
def storeSet (fate : WriteEnd) (file : Path) (label : Str) (entries : Value) : Act (Option Str) :=
  if entries = .null then pure none
  else do
    let digest ← Act.ofExcept (setDigest entries label)
    let payload ← Act.ofExcept (canon entries)
    writeBytes fate file payload
    return some digest

def signerDigest (disk : Disk) (c : Call) : Except Exc (Option Str) :=
  match c.signerSet with
  | none => .ok none
  | some path => do return some (← Attest.signerSetDigest (← Attest.loadSignerSet disk path))

def digestValue (digest : Option Str) : Value := (digest.map Value.str).getD .null

/-- The digests of the sets that a context binds. -/
structure Bound where
  baseline : Option Str
  exceptions : Option Str
  signers : Option Str

def contextDoc (c : Call) (stage binding : Value) (bound : Bound) (issuance : Dict Str Value) :
    Dict Str Value :=
  [("api_version", .str Schemacheck.contextVersion), ("context_id", .str c.contextId),
    ("evaluation_time", .str c.evaluationTime), ("stage", stage), ("semantics", .str c.semantics),
    ("policy_binding", binding), ("baseline_set_digest", digestValue bound.baseline),
    ("exception_set_digest", digestValue bound.exceptions),
    ("signer_set_digest", digestValue bound.signers),
    ("capability_grants", Value.orElse (some c.capabilityGrants) (.list [])),
    ("captured_facts", Value.orElse (some c.capturedFacts) (.list [])),
    ("execution_profile", .str c.executionProfile),
    ("supported_runners", .list [.str c.executionProfile]), ("issuance", .dict issuance)]

/-- `issuer or os.environ.get(CP_IDENTITY_ENV, "cp-stand-in")`. -/
def issuerName (env : Env) (c : Call) : Str :=
  match c.issuer.filter (fun name => name ≠ []) with
  | some name => name
  | none => (env.identity.map EnvText.text).getD "cp-stand-in"

/-- The fields `issuance` of the context, countersigned where a key is configured. -/
def issuance (env : Env) (c : Call) (stage binding : Value) (bound : Bound) :
    Except Exc (Dict Str Value) := do
  let fields : Dict Str Value :=
    [("issued_at", .str c.evaluationTime), ("issuer", .str (issuerName env c))]
  match ← key env with
  | none => return fields
  | some _ =>
      let sig ← signContext env (contextDoc c stage binding bound fields)
      return Dict.set fields "countersignature" (.str sig)

/-- What `issue_context` answers. -/
structure Issued where
  contextDigest : Str
  stage : Value
  baselineSetDigest : Option Str
  exceptionSetDigest : Option Str
  signed : Bool

/-- The end of `issue_context`: the context is put together and written. -/
def writeContext (faults : Faults) (env : Env) (disk : Disk) (c : Call) (prepared : Value × Value)
    (baseline exceptions : Option Str) : Act Issued := do
  let signers ← reading disk (fun now => signerDigest now c)
  let bound : Bound := { baseline, exceptions, signers }
  let issued ← Act.ofExcept (issuance env c prepared.1 prepared.2 bound)
  let ctx := Value.dict (contextDoc c prepared.1 prepared.2 bound issued)
  let payload ← Act.ofExcept (canon ctx)
  writeBytes faults.context c.contextFile payload
  let digest ← Act.ofExcept (digestObj .context ctx)
  return { contextDigest := digest, stage := prepared.1, baselineSetDigest := baseline,
           exceptionSetDigest := exceptions, signed := Dict.contains issued "countersignature" }

/-- `issue_context`. -/
def issueContext (faults : Faults) (env : Env) (disk : Disk) (c : Call) : Act Issued := do
  let prepared ← reading disk (fun now => prepare faults now c)
  let baseline ← storeSet faults.baseline c.baselineFile "baseline" c.baselineSet
  let exceptions ← storeSet faults.exceptions c.exceptionsFile "exception" c.exceptionSet
  writeContext faults env disk c prepared baseline exceptions

end Issue

end DevGate
