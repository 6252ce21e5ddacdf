import DevGate.Coherence.Attest
import DevGate.Coherence.EvidenceValidate
import DevGate.Coherence.Failure
import DevGate.Coherence.Overlay
import DevGate.Coherence.Plan
import DevGate.Coherence.Profiles
import DevGate.Coherence.Run

set_option autoImplicit false

/- `run` of hub/coherence/__main__.py from its resolved inputs to its exit code: the assertions are
loaded, planned and evaluated, what was found is annotated, sealed, reported and attested. -/
namespace DevGate.Run

open Py
open Adoption (policyError)
open Result (Identities)

/-- Where a run takes place: the site, `PROFILE_REGISTRY`, the image digest and the signer of the
environment, the subject as the evaluators read it, and what `first_mutation` answers after each. -/
structure Bench where
  site : Site
  registry : Str
  image : Option Str
  signer : Attest.SignerEnv
  subject : SubjectTree
  drift : Assertion → Option Text

/-- What ends a run before its result: an envelope without or with the ledger, or an exception. -/
inductive Halt where
  | stopped (s : Stop)
  | failed (r : Refusal) (ledger : List Evaluate.Row)

/-- The names of `spec_dir.glob("*.json")`, sorted. -/
def specNames : Shape → List Str
  | .dir entries =>
      Str.sorted ((entries.map Prod.fst).filter (fun name => Str.ofString ".json" <:+ name))
  | .other => []

def loadSpecs (disk : Disk) (dir : Path) : List Str → Except Exc (List Value)
  | [] => .ok []
  | name :: rest => do
      let data ← Json.loadText (← disk.read (dir.sub [name]))
      return (data.list?.getD [data]) ++ (← loadSpecs disk dir rest)

/-- `_load_assertions`. -/
def loadAssertions (tree : Tree) (root : Str) : Except Exc (List Value) :=
  let dir := (Path.ofStr root).join "specs"
  if tree.isDir dir then loadSpecs tree.toDisk dir (specNames (tree.walked dir)) else .ok []

/-- `plan.plan` under the ids of the bundle: what is no string is no id of an assertion, and is
looked up after those before it. -/
def planUnder (docs required : List Value) (requirements : Value) :
    Except Exc (List Assertion) :=
  let names := (required.takeWhile (fun v => v.str?.isSome)).filterMap Value.str?
  match required.find? (fun v => v.str?.isNone) with
  | none => Plan.plan docs names requirements
  | some v => do
      let assertions ← docs.mapM Plan.checkAssertion
      Plan.checkRequirements assertions requirements
      if Plan.dupes (assertions.map Assertion.id) ≠ [] ∨
          names.any (fun name => (Plan.byId assertions name).isNone) then
        Plan.plan docs names requirements
      else do
        let _ ← v.key
        .error ⟨Plan.planError, ["centrally required assertion omitted from package: ", .repr v]⟩

/-- `{a["id"]: a["evidence"]["retention_days"] for a in planned}`. -/
def retentionDays (planned : List Assertion) : Dict Str Value :=
  Dict.ofPairs (planned.map (fun a => (a.id, .int a.retentionDays)))

/-- A run whose findings and rows the ladder has annotated. -/
structure Annotated where
  outDir : Str
  request : Dict Str Value
  inputs : Inputs
  identities : Identities
  planned : List Assertion
  progress : Evaluate.Progress
  report : Adoption.Report

section

variable (b : Bench) (outDir : Str) (req : Dict Str Value)

/-- The evaluator image and its platform. The schema of the context makes its profile a string. -/
def resolveEvaluator (ctx : Dict Str Value) (ids : Identities) : Except Stop Identities := do
  let refusal (text : Text) : Refusal := ⟨outDir, "invalid-input", text, "invocation", ids⟩
  if b.image.any (fun digest => !Profiles.isSha digest) then
    .error (.refused (refusal ["malformed HUB_COHERENCE_EVALUATOR_IMAGE_DIGEST"]))
  else
    let label := ((Dict.get? ctx "execution_profile").bind Value.str?).getD "linux-amd64-v1"
    let (image, platform) ← guarded [Profiles.profileRegistryError] refusal
      (Profiles.resolveEvaluatorIdentity b.site.disk b.registry label b.image)
    return { ids with evaluatorImage := some image, platform := some platform }

/-- The assertions of the package. -/
def readAssertions (ids : Identities) : Except Stop (List Value) :=
  guarded [.osError, .jsonDecodeError]
    (fun text => ⟨outDir, "invalid-input", Frag.lit "cannot load assertions: " :: text, "planning",
      ids⟩)
    (do loadAssertions b.site.tree (← pathArg (← (← ref req "openspec").item "root")))

/-- The assertions under the repository's overlay. -/
def overlaid (pol : Dict Str Value) (docs : List Value) (ids : Identities) :
    Except Stop (List Value) :=
  guarded [Policy.overlayError, policyError]
    (fun text => ⟨outDir, "policy-resolution", text, "overlay", ids⟩)
    (do
      let overlay ← Policy.loadOverlay b.site.disk (← pathArg (← (← ref req "policy").item "root"))
      if overlay.truthy then Policy.applyOverlay docs overlay pol else return docs)

def plan (inputs : Inputs) (docs : List Value) (ids : Identities) : Except Stop (List Assertion) :=
  guarded [Plan.planError] (fun text => ⟨outDir, "invalid-input", text, "planning", ids⟩)
    (do
      planUnder docs (← Policy.centralRequired inputs.policy)
        ((Dict.get? inputs.package "normative_requirements").getD .null))

/-- The evaluators, on the planned assertions. -/
def evaluated (inputs : Inputs) (planned : List Assertion) (ids : Identities) :
    Except Stop Evaluate.Progress :=
  guarded [Evaluate.evaluatorError] (fun text => ⟨outDir, "execution", text, "evaluation", ids⟩)
    (Evaluate.run (Evaluators.builtins inputs.package b.subject) inputs.facts b.drift
      Evaluate.defaultMaxEvaluators planned)

/-- The ladder, on what was found. -/
def adopted (inputs : Inputs) (planned : List Assertion) (progress : Evaluate.Progress)
    (ids : Identities) : Except Stop Adoption.Report :=
  guarded [policyError, .jsonDecodeError, .keyError, .typeError, .valueError]
    (fun text => ⟨outDir, "policy-resolution", text, "adoption", ids⟩)
    (adopt b.site.disk req inputs.policy inputs.context progress.ledger progress.findings
      (planned.map Adoption.Planned.ofAssertion))

/-- The run of an accepted request, up to the adoption ladder. -/
def annotate : Except Halt Annotated := do
  let inputs ← (resolveInputs b.site outDir req).mapError Halt.stopped
  let ids ← (resolveEvaluator b outDir inputs.context inputs.identities).mapError Halt.stopped
  let docs ← (readAssertions b outDir req ids).mapError Halt.stopped
  let docs ← (overlaid b outDir req inputs.policy docs ids).mapError Halt.stopped
  let planned ← (plan outDir inputs docs ids).mapError Halt.stopped
  let progress ← (evaluated b outDir inputs planned ids).mapError Halt.stopped
  match progress.error with
  | some text =>
      .error (.failed ⟨outDir, "execution", text, "evaluation", ids⟩ progress.ledger)
  | none => do
      let report ← (adopted b outDir req inputs planned progress ids).mapError Halt.stopped
      return { outDir, request := req, inputs, identities := ids, planned, progress, report }

end

/-- A run with its result, and the digest of its evidence. -/
structure Decided where
  annotated : Annotated
  evidence : Str
  result : Value

section

variable (p : Printer) (b : Bench)

/-- `evidence.seal`, as `run` calls it. -/
def sealEvidence (a : Annotated) : Act (Except Halt (List Str × Str)) :=
  Act.catching
    (do
      let made ← Evidence.sealFindings b.site.disk
        (a.report.findings.map (fun f => Result.findingDoc p ⟨f, []⟩)) a.outDir []
        (retentionDays a.planned)
      return .ok made)
    [Evidence.evidenceError]
    (fun e => pure (.error
      (.stopped (.refused ⟨a.outDir, "evidence", e.msg, "sealing", a.identities⟩))))

/-- `ctx.get("semantics", "fresh-promotion")`. -/
def semanticsOf (ctx : Dict Str Value) : Value :=
  (Dict.get? ctx "semantics").getD (.str "fresh-promotion")

/-- The canonical result of an annotated run. -/
def payload (a : Annotated) : Act (Except Halt Decided) := do
  match ← sealEvidence p b a with
  | .error halt => return .error halt
  | .ok (refs, digest) => do
      let stage ← Act.ofExcept (stageOf a.inputs.context)
      let res ← Act.ofExcept (Result.build p a.report.ledger
        (List.zipWith (fun f rel => ⟨f, [rel]⟩) a.report.findings refs) a.identities stage
        (semanticsOf a.inputs.context) digest (some a.report.blocked))
      return .ok ⟨a, digest, res⟩

/-- A run of a decoded request, up to its result. -/
def concluded (parent : Str) (req : Value) : Act (Except Halt Decided) :=
  match accept parent req with
  | .error stop => return .error (.stopped stop)
  | .ok (kvs, outDir) =>
      match annotate b outDir kvs with
      | .error halt => return .error halt
      | .ok a => payload p b a

/-- `_fail`, or the exception that no clause catches. -/
def answer : Halt → Act Int
  | .stopped (.refused r) => Result.fail p r.outDir r.errorClass r.reason r.stage r.identities none
  | .stopped (.raised e) => Act.raise e
  | .failed r ledger =>
      Result.fail p r.outDir r.errorClass r.reason r.stage r.identities (some ledger)

end

section

open Verification

/-- The calls on a claim, up to the first one that raises. -/
def callAll (claim : Claim) : List Op → Except Exc Claim
  | [] => .ok claim
  | op :: rest => do
      (call claim op).2
      callAll (call claim op).1 rest

variable (p : Printer) (d : Decided)

/-- What `_emit_decision_claim` binds, and the rungs it climbs: as far as OBSERVED. -/
def claimOps (decision : Str) : List Op :=
  let ids := d.annotated.identities
  let digests : List (Str × Option Str) :=
    [("subject", ids.subject), ("openspec", ids.openspec), ("policy", ids.policy),
      ("context", ids.context), ("evidence-manifest", some d.evidence), ("decision", some decision)]
  let rungs : List (State × Text) :=
    [(.attempted, ["request accepted, identities computed"]), (.executed, ["assertions executed"]),
      (.completed, ["decision computed"]),
      (.tested, ["assertion ledger complete (", .str (.int d.annotated.report.ledger.length),
        " entries)"]),
      (.observed, ["decision ", .str ((d.result.field? "decision").getD .null),
        " sealed with evidence"])]
  digests.filterMap (fun kv => (kv.2.filter (fun digest => digest ≠ [])).map
      (fun digest => .bind (.str kv.1) (.str digest))) ++
    (rungs.map (fun rung => .transition rung.1.name (p.render rung.2)) ++
      [.attachEvidence (.str "evidence-manifest.json")])

/-- The claim that stands beside a decision. -/
def decisionClaim (decision : Str) : Except Exc Claim :=
  let subject := d.annotated.identities.subject
  let name : Str := if (subject.getD []) = [] then "unknown" else subject.getD []
  callAll (newClaim ("coherence-decision:" ++ name.take 23)
    (p.render ["spec-coherence decision for subject ", .str (Result.orNull subject)]) subject
    "devgate-coherence") (claimOps p d decision)

/-- `_emit_decision_claim`: what keeps the claim from its files is a warning. -/
def emitDecisionClaim : Act Unit :=
  Act.catching
    (do
      let payload ← Act.ofExcept (Canon.canon d.result)
      let claim ← Act.ofExcept (decisionClaim p d (Canon.digest .decision payload))
      let path := (Path.ofStr d.annotated.outDir).join "decision.claim.json"
      let bytes ← Act.ofExcept (Canon.canon claim.document)
      Result.emit path bytes
      let digest ← Act.ofExcept (digestClaim claim.document)
      Result.emit (Path.ofStr (path.str ++ ".digest")) (Utf8.ascii digest))
    [verificationError, .osError] (fun _ => pure ())

end

section

variable (p : Printer) (b : Bench)

/-- `seal_run`, as `run` calls it: its code, or that of the envelope in its place. -/
def sealDecision (d : Decided) : Act (Except Int Int) :=
  let a := d.annotated
  Act.catching
    (do
      let code ← Attest.sealRun b.signer a.outDir d.result a.report.ledger a.identities d.evidence
        (.dict a.inputs.context) a.report.blocked
      return .ok code)
    [Attest.attestationError]
    (fun e => do
      return .error (← Result.fail p a.outDir "attestation" e.msg "attestation" a.identities
        (some a.report.ledger)))

/-- The end of a run with a result. -/
def finish (d : Decided) : Act Int := do
  match ← sealDecision p b d with
  | .error code => return code
  | .ok code => do
      emitDecisionClaim p d
      return code

/-- `run`, on a request file that reads as `file` and stands in the directory `parent`. -/
def run (parent : Str) (file : Except Exc Bytes) : Act Int :=
  let refusal (text : Text) : Refusal :=
    ⟨parent, "invalid-input", "malformed request: " :: text, "invocation", {}⟩
  match guarded malformed refusal (do Json.loadText (← file)) with
  | .error stop => answer p (.stopped stop)
  | .ok req => do
      match ← concluded p b parent req with
      | .error halt => answer p halt
      | .ok d => finish p b d

end

end DevGate.Run
