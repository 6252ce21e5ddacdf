import DevGate.Coherence.Assertion
import DevGate.Coherence.Evidence
import DevGate.Py.Hmac
import DevGate.Py.JsonBytes

set_option autoImplicit false

/- hub/coherence/attest.py: detached attestations are signed over the canonical
decision and verified against a signer set. -/
namespace DevGate

open Py

namespace Schemacheck

/-- `bound` of an attestation. -/
def boundDigests : Schema where
  type := some (.one .object)
  closed := true
  required := ["subject_digest", "openspec_digest", "policy_digest", "context_digest",
    "evaluator_image_digest", "evidence_manifest_digest"]
  properties := [("subject_digest", digest), ("openspec_digest", digest), ("policy_digest", digest),
    ("context_digest", digest), ("evaluator_image_digest", digest),
    ("evidence_manifest_digest", digest)]

/-- attestation.schema.json. -/
def attestation : Schema where
  type := some (.one .object)
  closed := true
  required := ["api_version", "statement_digest", "bound", "signer", "signature"]
  properties := [
    ("api_version", { const := some (.str "devgate.spec-coherence.attestation/v1") }),
    ("statement_digest", digest),
    ("bound", boundDigests),
    ("signer", {
      type := some (.one .object)
      closed := true
      required := ["key_id", "identity"]
      properties := [("key_id", string), ("identity", string)] }),
    ("signature", string),
    ("issued_at", { type := some (.anyOf [.string, .null]), dateTime := true })]

def keyPattern : Pattern where
  source := "^[0-9a-f]{64,}$"
  re := .seq (.times (.oneOf lowerHex) 64) (.star true (.oneOf lowerHex))

def dateTimeText : Schema := { type := some (.one .string), dateTime := true }

def signer : Schema where
  type := some (.one .object)
  closed := true
  required := ["key_id", "identity", "key", "valid_from", "valid_until"]
  properties := [
    ("key_id", string), ("identity", string),
    ("key", { type := some (.one .string), pattern := some keyPattern, minLength := some 64 }),
    ("valid_from", dateTimeText), ("valid_until", dateTimeText),
    ("revoked", { type := some (.one .boolean) }),
    ("revoked_at", { type := some (.anyOf [.string, .null]), dateTime := true })]

/-- signer-set.schema.json. -/
def signerSet : Schema where
  type := some (.one .object)
  closed := true
  required := ["api_version", "as_of", "signers"]
  properties := [
    ("api_version", { const := some (.str "devgate.spec-coherence.signer-set/v1") }),
    ("as_of", dateTimeText),
    ("signers", { type := some (.one .array), minItems := some 1, items := some signer })]

end Schemacheck

namespace Attest

open Canon
open Result (Identities need emit)

def attestationError : ExcClass := .user "AttestationError" .runtimeError

def signaturePrefix : Str := "hmac-sha256:"

/-- A value of `os.environ`: what its bytes do not spell stands as low surrogates. -/
structure EnvText where
  text : Str
  decoded : text.all (fun c => !c.isHigh) = true

/-- The environment of the signer: its key in hex, its key id and its identity. -/
structure SignerEnv where
  key : Option EnvText
  keyId : Option EnvText
  identity : Option EnvText

/-- An integer or a boolean, as a number. -/
def integral? : Value → Option Int
  | .int n => some n
  | .bool true => some 1
  | .bool false => some 0
  | _ => none

/-- `stage >= 2 and semantics == "fresh-promotion"`. -/
def required (stage semantics : Value) : Except Exc Bool :=
  match integral? stage with
  | some n => .ok (decide (2 ≤ n) && semantics.eq (.str "fresh-promotion"))
  | none => .error ⟨.typeError, ["'>=' not supported between instances of '", stage.typeName,
      "' and 'int'"]⟩

/-- `_key`. -/
def key (env : SignerEnv) : Except Exc (Option Bytes) :=
  let raw := Str.strip ((env.key.map EnvText.text).getD [])
  if raw = [] then .ok none
  else match fromhex? raw with
    | some k => .ok (some k)
    | none => .error ⟨attestationError, ["signer-key-not-configured"]⟩

def signerIdentity (env : SignerEnv) : Str := (env.identity.map EnvText.text).getD "pilot-signer"

def signerKeyId (env : SignerEnv) : Str := (env.keyId.map EnvText.text).getD "signer-1"

def signature (k : Bytes) (payload : Bytes) : Str := signaturePrefix ++ hmacSha256 k payload

/-- What an attestation binds. -/
structure Statement where
  decision : Str
  subject : Value
  openspec : Value
  policy : Value
  context : Value
  evaluatorImage : Str
  evidence : Str
  keyId : Str
  identity : Str
  issuedAt : Value

def Statement.bound (s : Statement) : Value :=
  .dict [("subject_digest", s.subject), ("openspec_digest", s.openspec),
    ("policy_digest", s.policy), ("context_digest", s.context),
    ("evaluator_image_digest", .str s.evaluatorImage),
    ("evidence_manifest_digest", .str s.evidence)]

/-- The attestation without its signature. -/
def Statement.unsigned (s : Statement) : List (Str × Value) :=
  [("api_version", .str "devgate.spec-coherence.attestation/v1"),
    ("statement_digest", .str s.decision), ("bound", s.bound),
    ("signer", .dict [("key_id", .str s.keyId), ("identity", .str s.identity)]),
    ("issued_at", s.issuedAt)]

def statement (env : SignerEnv) (decisionBytes : Bytes) (ids : Identities) (evidenceDigest : Str)
    (evaluationTime : Value) : Except Exc Statement :=
  match ids.evaluatorImage with
  | none => .error ⟨attestationError, ["evaluator-image-digest-required-for-attestation"]⟩
  | some image => do
      return { decision := digest .decision decisionBytes
               subject := ← need "subject_digest" ids.subject
               openspec := ← need "openspec_digest" ids.openspec
               policy := ← need "policy_digest" ids.policy
               context := ← need "context_digest" ids.context
               evaluatorImage := image
               evidence := evidenceDigest
               keyId := signerKeyId env
               identity := signerIdentity env
               issuedAt := evaluationTime }

def sign (env : SignerEnv) (decisionBytes : Bytes) (ids : Identities) (evidenceDigest : Str)
    (evaluationTime : Value) : Except Exc Value := do
  match ← key env with
  | none => .error ⟨attestationError, ["signer-key-not-configured"]⟩
  | some k => do
      let s ← statement env decisionBytes ids evidenceDigest evaluationTime
      let payload ← canon (.dict s.unsigned)
      let attestation : Value := .dict (Dict.set s.unsigned "signature" (.str (signature k payload)))
      let errs := Schemacheck.validate Schemacheck.attestation attestation "$"
      if errs ≠ [] then
        .error ⟨attestationError, "attestation-schema-validation-failed: " ::
          List.intercalate [Frag.lit "; "] (errs.take 3)⟩
      else return attestation

/-- What a signer set accepted by the frozen schema says of a signer. -/
structure Signer where
  keyId : Str
  identity : Str
  key : Str
  validFrom : Str
  validUntil : Str
  revoked : Bool

structure SignerSet where
  asOf : Str
  signers : List Signer

def Signer.read : Value → Option Signer
  | .dict kvs => do
      let keyId ← (Dict.get? kvs "key_id").bind Value.str?
      let identity ← (Dict.get? kvs "identity").bind Value.str?
      let key ← (Dict.get? kvs "key").bind Value.str?
      let validFrom ← (Dict.get? kvs "valid_from").bind Value.str?
      let validUntil ← (Dict.get? kvs "valid_until").bind Value.str?
      let revoked := ((Dict.get? kvs "revoked").getD (.bool false)).truthy
      return { keyId, identity, key, validFrom, validUntil, revoked }
  | _ => none

def SignerSet.read : Value → Option SignerSet
  | .dict kvs => do
      let asOf ← (Dict.get? kvs "as_of").bind Value.str?
      let docs ← (Dict.get? kvs "signers").bind Value.list?
      let signers ← docs.mapM Signer.read
      return { asOf, signers }
  | _ => none

/-- `v.get(key, default)`. -/
def getOr (v : Value) (key : Str) (default : Value) : Except Exc Value := do
  return (← v.get key).getD default

/-- `_check_signer`: the entry, or the reason it is refused for. -/
def checkSigner (attestation : Value) (set : SignerSet) : Except Exc (Except Str Signer) := do
  let signer ← getOr attestation "signer" (.dict [])
  let keyId ← getOr signer "key_id" (.str [])
  match set.signers.find? (fun s => Value.eq (.str s.keyId) keyId) with
  | none => return .error "signer-not-in-set"
  | some entry => do
      let identity ← getOr signer "identity" .null
      if Value.eq (.str entry.identity) identity = false then return .error "signer-identity-mismatch"
      else if entry.revoked then return .error "signer-revoked"
      else if Str.le entry.validFrom set.asOf = false then return .error "signer-not-yet-valid"
      else if Str.le set.asOf entry.validUntil = false then return .error "signer-expired"
      else return .ok entry

/-- `hmac.compare_digest` of an ASCII text and a value. -/
def compareDigest (expected : Str) (presented : Value) : Except Exc Bool :=
  match presented with
  | .str s =>
      if s.all (fun c => c.val < 0x80) then .ok (s = expected)
      else .error ⟨.typeError, ["comparing strings with non-ASCII characters is not supported"]⟩
  | other => .error ⟨.typeError, ["unsupported operand types(s) or combination of types: 'str' and '",
      other.typeName, "'"]⟩

/-- `_check_signature`: is the signature the entry's, over everything else? -/
def checkSignature (attestation : Value) (entry : Signer) : Except Exc Bool :=
  match attestation with
  | .dict kvs => do
      let k ← fromhex entry.key
      let payload ← canon (.dict (Dict.erase kvs "signature"))
      compareDigest (signature k payload) ((Dict.get? kvs "signature").getD (.str []))
  | other => .error ⟨.typeError, ["'", other.typeName, "' object is not iterable"]⟩

def boundKeys : List Str :=
  ["subject_digest", "openspec_digest", "policy_digest", "context_digest",
    "evaluator_image_digest", "evidence_manifest_digest"]

/-- The first bound identity that the result does not state. -/
def unbound (resultDoc bound : Value) : List Str → Except Exc (Option Str)
  | [] => .ok none
  | key :: rest => do
      let stated := (← resultDoc.get key).getD .null
      let claimed := (← bound.get key).getD .null
      if stated.eq claimed then unbound resultDoc bound rest else return some key

/-- `evidence.verify(run_dir, expected)`: a digest that is no text is never met. -/
def evidenceHolds (disk : Disk) (runDir : Str) (expected : Value) : Except Exc Bool :=
  match expected with
  | .str digest => Evidence.verify disk runDir digest
  | _ => Evidence.verify disk runDir []

/-- `json.loads((out / name).read_text(encoding="utf-8"))`. -/
def document (disk : Disk) (out : Path) (name : Str) : Except Exc Value := do
  Json.loadText (← disk.read (out.join name))

/-- The three documents of a run; nothing where one cannot be read. -/
def loadArtifacts (disk : Disk) (out : Path) : Except Exc (Option (Value × Value × Value)) :=
  match (do return (← document disk out "result.json", ← document disk out "attestation.json",
    ← document disk out "evidence-manifest.json")) with
  | .ok documents => .ok (some documents)
  | .error e => if e.isA [.osError, .jsonDecodeError] then .ok none else .error e

/-- The checks of `verify` once its artifacts are read. -/
def verifyArtifacts (disk : Disk) (runDir : Str) (attestation : Value) (set : SignerSet) :
    Except Exc (Bool × Str) := do
  match ← checkSigner attestation set with
  | .error reason => return (false, reason)
  | .ok entry =>
      if ← checkSignature attestation entry then do
        let resultBytes ← disk.read ((Path.ofStr runDir).join "result.json")
        let stated ← getOr attestation "statement_digest" .null
        if Value.eq (.str (digest .decision resultBytes)) stated = false then
          return (false, "decision-digest-mismatch")
        else do
          let resultDoc ← Json.loadBytes resultBytes
          let bound ← getOr attestation "bound" (.dict [])
          match ← unbound resultDoc bound boundKeys with
          | some key => return (false, "bound-digest-mismatch:" ++ key)
          | none =>
              if ← evidenceHolds disk runDir (← bound.item "evidence_manifest_digest") then
                return (true, "ok")
              else return (false, "evidence-tamper")
      else return (false, "signature-mismatch")

def verify (disk : Disk) (runDir : Str) (set : SignerSet) : Except Exc (Bool × Str) :=
  let out := Path.ofStr runDir
  if disk.exists_ (out.join "result.json") && disk.exists_ (out.join "attestation.json") &&
      disk.exists_ (out.join "evidence-manifest.json") then do
    match ← loadArtifacts disk out with
    | none => return (false, "unparseable-artifact")
    | some (_, attestation, _) => verifyArtifacts disk runDir attestation set
  else return (false, "missing-artifact")

/-- A sealed run that also binds the candidate being promoted. -/
def verifyPromotion (disk : Disk) (runDir : Str) (set : SignerSet) (candidateDigest : Str) :
    Except Exc (Bool × Str) := do
  let (ok, reason) ← verify disk runDir set
  if ok then do
    match document disk (Path.ofStr runDir) "attestation.json" with
    | .error e =>
        if e.isA [.osError, .jsonDecodeError] then return (false, "unparseable-artifact") else .error e
    | .ok attestation => do
        let bound ← getOr attestation "bound" (.dict [])
        if Value.eq ((← bound.get "subject_digest").getD .null) (.str candidateDigest) then
          return (true, "ok")
        else return (false, "candidate-digest-mismatch")
  else return (false, reason)

/-- An AttestationError in place of an OSError. -/
def orAttestationError (body : Act Unit) (what : Str) : Act Unit :=
  body.catching [.osError] (fun e => Act.raise ⟨attestationError, Frag.lit what :: e.msg⟩)

def envelope (decision : Value) (exitCode : Int) (stage semantics : Value) (needed signed : Bool)
    (attestationPath : Value) : Value :=
  .dict [("api_version", .str "devgate.spec-coherence.envelope/v1"), ("decision", decision),
    ("exit_code", .int exitCode), ("stage", stage), ("semantics", semantics),
    ("attestation_required", .bool needed), ("signed", .bool signed),
    ("artifacts", .dict [("result", .str "result.json"),
      ("evidence_manifest", .str "evidence-manifest.json"), ("attestation", attestationPath)])]

/-- The noncanonical transport envelope. -/
def emitEnvelope (outDir : Str) (decision : Value) (exitCode : Int) (stage semantics : Value)
    (signed : Bool) (attestationPath : Value) : Act Unit := do
  let needed ← Act.ofExcept (required stage semantics)
  let payload ← Act.ofExcept
    (canon (envelope decision exitCode stage semantics needed signed attestationPath))
  orAttestationError (emit (Path.ofStr (outDir ++ "/run-envelope.json")) payload)
    "envelope-emit-failed:"

/-- The attestation of a run that needs one. -/
def emitAttestation (env : SignerEnv) (outDir : Str) (payload : Bytes) (ids : Identities)
    (evidenceDigest : Str) (evaluationTime : Value) : Act Unit := do
  let attestation ← Act.ofExcept (sign env payload ids evidenceDigest evaluationTime)
  let bytes ← Act.ofExcept (canon attestation)
  orAttestationError (emit (Path.ofStr (outDir ++ "/attestation.json")) bytes)
    "attestation-emit-failed:"

/-- `seal_run`: the decision, its attestation, then the envelope. -/
def sealRun (env : SignerEnv) (outDir : Str) (res : Value) (ledger : List Evaluate.Row)
    (ids : Identities) (evidenceDigest : Str) (ctx : Value) (blocked : Bool) : Act Int := do
  let stage ← Act.ofExcept (ctx.item "stage")
  let semantics ← Act.ofExcept (getOr ctx "semantics" (.str "fresh-promotion"))
  let payload ← Act.ofExcept (canon res)
  let _ ← Result.emitWithFallback outDir payload
  let code := (Result.decide ledger ((integral? stage).getD 0) none (some blocked)).2
  let signed ← Act.ofExcept (required stage semantics)
  if signed then
    let evaluationTime ← Act.ofExcept (ctx.item "evaluation_time")
    emitAttestation env outDir payload ids evidenceDigest evaluationTime
  let decision ← Act.ofExcept (res.item "decision")
  emitEnvelope outDir decision code stage semantics signed
    (if signed then .str "attestation.json" else .null)
  return code

end Attest

end DevGate
