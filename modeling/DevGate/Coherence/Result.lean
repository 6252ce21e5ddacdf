import DevGate.Coherence.Canon
import DevGate.Coherence.Evaluate
import DevGate.Py.Disk
import DevGate.Py.Repr

set_option autoImplicit false

/- hub/coherence/result.py: the canonical result, the decision/exit matrix, and how a
payload reaches its file. -/
namespace DevGate.Result

open Py Canon Evaluate

inductive Decision where
  | pass
  | advisory
  | fail
  | error
  deriving DecidableEq

def Decision.name : Decision → Str
  | .pass => "PASS"
  | .advisory => "ADVISORY"
  | .fail => "FAIL"
  | .error => "ERROR"

def exitPass : Int := 0
def exitAdvisory : Int := 10
def exitFail : Int := 20
def exitInvalidInput : Int := 30
def exitPolicy : Int := 31
def exitExecution : Int := 32
def exitEvidence : Int := 33
def exitProtocol : Int := 40

/-- `exit_map`. -/
def exitMap : Dict Str Int :=
  [("invalid-input", exitInvalidInput), ("policy-resolution", exitPolicy),
    ("evaluator", exitExecution), ("execution", exitExecution), ("evidence", exitEvidence),
    ("attestation", exitEvidence), ("protocol", exitProtocol)]

/-- `_BLOCK_STAGES`. -/
def blockStages : List Int := [2, 3, 4]

def decide (ledger : List Row) (stage : Int) (errorClass : Option Str) (blocked : Option Bool) :
    Decision × Int :=
  match errorClass with
  | some (c :: rest) => (.error, (Dict.get? exitMap (c :: rest)).getD exitExecution)
  | _ =>
      let open_ := ledger.any (fun e => e.outcome = .violated || e.outcome = .unresolved)
      let blocked := blocked.getD (stage ∈ blockStages && open_)
      if blocked then (.fail, exitFail)
      else if open_ then (.advisory, exitAdvisory)
      else (.pass, exitPass)

/-- The identities a run has computed so far. -/
structure Identities where
  subject : Option Str := none
  openspec : Option Str := none
  policy : Option Str := none
  context : Option Str := none
  evaluatorImage : Option Str := none
  platform : Option Value := none

def orNull (s : Option Str) : Value := (s.map Value.str).getD .null

def outcomeName : Outcome → Str
  | .satisfied => "SATISFIED"
  | .violated => "VIOLATED"
  | .unresolved => "UNRESOLVED"

section

variable (p : Printer)

/-- A ledger row. -/
def rowDoc (e : Row) : Value :=
  .dict [("assertion_id", .str e.assertionId), ("version", .int e.version),
    ("outcome", .str (outcomeName e.outcome)), ("reason", orNull (e.reason.map p.render)),
    ("enforcement", .str e.enforcement.name)]

def strs (ss : List Str) : Value := .list (ss.map Value.str)

/-- A key that is set only where there is a value. -/
def optional (key : Str) (s : Option Str) : List (Str × Value) :=
  match s with
  | some s => [(key, .str s)]
  | none => []

/-- A finding, with the evidence that has been sealed for it. -/
structure Reported where
  finding : Finding
  evidenceRefs : List Str

/-- What an evaluator reports. -/
def madePairs (f : Finding) (evidenceRefs : List Str) : List (Str × Value) :=
  [("assertion_id", .str f.assertionId), ("finding_key", .str f.findingKey),
    ("violation_class", orNull f.violationClass), ("outcome", .str (outcomeName f.outcome)),
    ("enforcement", .str f.enforcement.name), ("severity", .str f.severity.name),
    ("subject_locations", strs f.subjectLocations), ("expected", .str (p.render f.expected)),
    ("observed", .str (p.render f.observed)), ("evidence_refs", strs evidenceRefs)]

/-- A finding as the adoption ladder leaves it. -/
def findingDoc (f : Reported) : Value :=
  .dict (madePairs p f.finding f.evidenceRefs ++ (optional "fingerprint" f.finding.fingerprint ++
    (optional "exception_id" f.finding.exceptionId ++ optional "reason" f.finding.reason)))

def sortKey (f : Reported) : List Str :=
  [f.finding.assertionId, f.finding.subjectLocations.headD [], f.finding.findingKey]

/-- `<=` on tuples of strings. -/
def keyLe : List Str → List Str → Bool
  | [], _ => true
  | _ :: _, [] => false
  | s :: ss, t :: ts => if s = t then keyLe ss ts else Str.le s t

def sortFindings (findings : List Reported) : List Reported :=
  findings.insertionSort (fun f g => keyLe (sortKey f) (sortKey g) = true)

def count (ledger : List Row) (o : Outcome) : Value := .int (ledger.countP (fun e => e.outcome = o))

def summary (ledger : List Row) : Value :=
  .dict [("planned", .int ledger.length), ("satisfied", count ledger .satisfied),
    ("violated", count ledger .violated), ("unresolved", count ledger .unresolved)]

/-- `identities[key]`. -/
def need (key : Str) (s : Option Str) : Except Exc Value :=
  match s with
  | some s => .ok (.str s)
  | none => .error ⟨.keyError, [.repr (.str key)]⟩

def needPlatform (v : Option Value) : Except Exc Value :=
  match v with
  | some v => .ok v
  | none => .error ⟨.keyError, [.repr (.str "platform")]⟩

def build (ledger : List Row) (findings : List Reported) (ids : Identities) (stage : Int)
    (semantics : Value) (evidenceDigest : Str) (blocked : Option Bool) : Except Exc Value := do
  let decision := (decide ledger stage none blocked).1
  return .dict [("api_version", .str "devgate.spec-coherence.result/v1"),
    ("decision", .str decision.name), ("semantics", semantics),
    ("subject_digest", ← need "subject_digest" ids.subject),
    ("openspec_digest", ← need "openspec_digest" ids.openspec),
    ("policy_digest", ← need "policy_digest" ids.policy),
    ("context_digest", ← need "context_digest" ids.context),
    ("evaluator_image_digest", ← need "evaluator_image_digest" ids.evaluatorImage),
    ("platform", ← needPlatform ids.platform),
    ("assertion_summary", summary ledger),
    ("assertion_results", .list (ledger.map (rowDoc p))),
    ("findings", .list ((sortFindings findings).map (findingDoc p))),
    ("evidence_manifest_digest", .str evidenceDigest), ("error", .null)]

/-- Identities that could not be computed are null. -/
def identitiesDoc (ids : Identities) : Value :=
  .dict [("subject_digest", orNull ids.subject), ("openspec_digest", orNull ids.openspec),
    ("policy_digest", orNull ids.policy), ("context_digest", orNull ids.context),
    ("evaluator_image_digest", orNull ids.evaluatorImage)]

def errorEnvelope (errorClass reason stage : Str) (ids : Identities) (ledger : Option (List Row)) :
    Value :=
  let env : Dict Str Value :=
    [("api_version", .str "devgate.spec-coherence.result/v1"), ("decision", .str "ERROR"),
      ("error", .dict [("class", .str errorClass), ("reason", .str reason), ("stage", .str stage)]),
      ("identities", identitiesDoc ids)]
  match ledger with
  | some ledger => .dict (Dict.set env "assertion_results" (.list (ledger.map (rowDoc p))))
  | none => .dict env

end

/-- The payload replaces the file as a whole. -/
def emit (path : Path) (payload : Bytes) : Act Unit := Act.replace path payload

/-- Write the payload, to a temporary directory where `out_dir` cannot be written. -/
def emitWithFallback (outDir : Str) (payload : Bytes) : Act Str :=
  Act.catching
    (do
      emit (Path.ofStr (outDir ++ "/result.json")) payload
      return outDir)
    [.osError]
    (fun _ => do
      let fallback ← Act.mkdtemp
      emit (Path.ofStr (fallback ++ "/result.json")) payload
      return fallback)

end DevGate.Result
