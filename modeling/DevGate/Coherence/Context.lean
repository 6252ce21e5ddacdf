import DevGate.Coherence.Issue

set_option autoImplicit false

/- hub/coherence/context.py: the evaluation context, its captured facts and its bound sets. -/
namespace DevGate

open Py

namespace Schemacheck

def digestOrNull : Schema := { type := some (.anyOf [.string, .null]), pattern := some digestPattern }

def textOrNull : Schema := { type := some (.anyOf [.string, .null]) }

def capabilityGrant : Schema where
  type := some (.one .object)
  closed := true
  required := ["name", "assertion_id"]
  properties := [
    ("name", string), ("assertion_id", string), ("endpoint", textOrNull), ("secret_ref", textOrNull),
    ("ttl_seconds", { type := some (.anyOf [.integer, .null]), minimum := some 0 })]

def capturedFact : Schema where
  type := some (.one .object)
  closed := true
  required := ["fact_id", "digest", "captured_at"]
  properties := [
    ("fact_id", string), ("digest", digestOrNull), ("source", textOrNull), ("captured_at", dateTime)]

def issuance : Schema where
  type := some (.one .object)
  closed := true
  required := ["issued_at", "issuer"]
  properties := [("issued_at", dateTime), ("issuer", string), ("countersignature", textOrNull)]

def grandfather : Schema where
  type := some (.one .object)
  closed := true
  required := ["bundle_digest", "valid_until", "reason"]
  properties := [("bundle_digest", digest), ("valid_until", dateTime), ("reason", string)]

def policyBinding : Schema where
  type := some (.one .object)
  closed := true
  required := ["expected_digest", "min_bundle_epoch", "grandfathers"]
  properties := [
    ("expected_digest", digest),
    ("min_bundle_epoch", { type := some (.one .integer), minimum := some 0 }),
    ("grandfathers", { type := some (.one .array), items := some grandfather })]

def contextVersion : Str := "devgate.spec-coherence.context/v1"

/-- evaluation-context.schema.json. -/
def evaluationContext : Schema where
  type := some (.one .object)
  closed := true
  required := ["api_version", "context_id", "evaluation_time", "stage", "policy_binding",
    "execution_profile", "issuance"]
  properties := [
    ("api_version", { const := some (.str contextVersion) }),
    ("context_id", string),
    ("evaluation_time", dateTime),
    ("stage", { enum := some [.int 0, .int 1, .int 2, .int 3, .int 4] }),
    ("semantics", names ["fresh-promotion", "replay"]),
    ("baseline_set_digest", digestOrNull),
    ("exception_set_digest", digestOrNull),
    ("signer_set_digest", digestOrNull),
    ("capability_grants", { type := some (.one .array), items := some capabilityGrant }),
    ("captured_facts", { type := some (.one .array), items := some capturedFact }),
    ("execution_profile", string),
    ("supported_runners", stringList),
    ("issuance", issuance),
    ("policy_binding", policyBinding)]

end Schemacheck

namespace Context

open Canon
open Attest (getOr)
open Issue (Env issuanceOf)

def contextError : ExcClass := .user "ContextError" .valueError

def validStages : List Value := [.int 0, .int 1, .int 2, .int 3, .int 4]

def validSemantics : List Value := [.str "fresh-promotion", .str "replay"]

/-- `v in {...}`, which hashes `v`. -/
def memberOf (v : Value) (items : List Value) : Except Exc Bool := do
  let _ ← v.key
  return Schemacheck.isIn v items

/-- `context.json`, where it can be read. -/
def readContext (disk : Disk) (fp : Path) : Except Exc Value :=
  match (do Json.loadText (← disk.read fp)) with
  | .ok v => .ok v
  | .error e =>
      if e.isA [.osError, .jsonDecodeError] then
        .error ⟨contextError, (["cannot read context ", fp.str, ": "] : Text) ++ e.msg⟩
      else .error e

/-- The countersignature verifies, where a key is configured. -/
def checkSignature (env : Env) (ctx : Dict Str Value) : Except Exc Unit := do
  if (← Issue.key env).isSome then
    ensure ((← Issue.verifySignature env ctx) = some true)
      ⟨contextError, ["control-plane key configured but context is ",
        "unsigned or the countersignature does not verify"]⟩
  else return ()

/-- The checks of `load` on a context that was read. -/
def checkContext (env : Env) (ctx : Value) : Except Exc (Dict Str Value) := do
  let version := (← ctx.get "api_version").getD .null
  ensure (version.eq (.str Schemacheck.contextVersion))
    ⟨contextError, ["unsupported context api_version: ", .repr version]⟩
  let errors := Schemacheck.validate Schemacheck.evaluationContext ctx "$"
  ensure (errors = [])
    ⟨contextError, "invalid context: " :: List.intercalate [Frag.lit "; "] (errors.take 5)⟩
  let stage := (← ctx.get "stage").getD .null
  ensure (← memberOf stage validStages) ⟨contextError, ["invalid stage: ", .repr stage]⟩
  let semantics ← getOr ctx "semantics" (.str "fresh-promotion")
  ensure (← memberOf semantics validSemantics)
    ⟨contextError, ["invalid semantics: ", .repr semantics]⟩
  let kvs := ctx.dict?.getD []
  let issuer := (← (issuanceOf kvs).get "issuer").getD .null
  ensure issuer.truthy ⟨contextError, ["context has no trusted issuer"]⟩
  checkSignature env kvs
  return Dict.set kvs "context_digest" (.str (← digestObj .context ctx))

/-- What an accepted context is: a document of its schema, with its digest added. -/
theorem checkContext_ok {env : Env} {doc : Value} {ctx : Dict Str Value}
    (checked : checkContext env doc = .ok ctx) :
    ∃ kvs digest, doc = .dict kvs ∧ Schemacheck.Accepts Schemacheck.evaluationContext doc ∧
      checkSignature env kvs = .ok () ∧ digestObj .context doc = .ok digest ∧
      ctx = Dict.set kvs "context_digest" (.str digest) := by
  unfold checkContext at checked
  obtain ⟨version, got, checked⟩ := bind_ok.mp checked
  obtain ⟨kvs, rfl, -⟩ := Value.get_ok.mp got
  obtain ⟨_, -, checked⟩ := bind_ok.mp checked
  obtain ⟨_, valid, checked⟩ := bind_ok.mp checked
  obtain ⟨_, -, checked⟩ := bind_ok.mp checked
  obtain ⟨_, -, checked⟩ := bind_ok.mp checked
  obtain ⟨_, -, checked⟩ := bind_ok.mp checked
  obtain ⟨_, -, checked⟩ := bind_ok.mp checked
  obtain ⟨_, -, checked⟩ := bind_ok.mp checked
  obtain ⟨_, -, checked⟩ := bind_ok.mp checked
  obtain ⟨_, -, checked⟩ := bind_ok.mp checked
  obtain ⟨_, -, checked⟩ := bind_ok.mp checked
  obtain ⟨_, signed, checked⟩ := bind_ok.mp checked
  obtain ⟨digest, digested, checked⟩ := bind_ok.mp checked
  cases checked
  exact ⟨kvs, digest, rfl, ⟨"$", ensure_ok.mp valid⟩, signed, digested, rfl⟩

/-- `load`. -/
def load (env : Env) (disk : Disk) (root : Str) : Except Exc (Dict Str Value) := do
  let fp := (← disk.resolve (Path.ofStr root)).join "context.json"
  if disk.exists_ fp then
    checkContext env (← readContext disk fp)
  else .error ⟨contextError, ["missing evaluation context: ", fp.str]⟩

/-- `"/" in fid or fid in (".", "..")`. -/
def badFactId (fid : Value) : Except Exc Bool :=
  match fid with
  | .str name => .ok (Chr.ofChar '/' ∈ name || name = "." || name = "..")
  | .list vs => .ok (Schemacheck.isIn (.str "/") vs)
  | .dict kvs => .ok (Dict.contains kvs "/")
  | other => .error ⟨.typeError, ["argument of type '", other.typeName, "' is not iterable"]⟩

/-- `base / "facts" / fid`. -/
def factPath (base : Path) (fid : Value) : Except Exc (Str × Path) :=
  match fid with
  | .str name => .ok (name, (base.join "facts").join name)
  | other => .error ⟨.typeError, ["unsupported operand type(s) for /: 'PosixPath' and '",
      other.typeName, "'"]⟩

/-- The content of a captured fact, under the digest its record binds. -/
def readFact (disk : Disk) (base : Path) (fid dig : Value) : Except Exc (Str × Value) := do
  let (name, fp) ← factPath base fid
  match disk.read fp with
  | .error e =>
      if e.isA [.osError] then .error ⟨contextError, ["captured-fact-content-missing:", name]⟩
      else .error e
  | .ok raw => do
      ensure (Value.eq (.str (digest .file raw)) dig)
        ⟨contextError, ["captured-fact-tampered:", name]⟩
      match Json.loadBytes raw with
      | .ok content => return (name, content)
      | .error e =>
          if e.isA [.jsonDecodeError] then
            .error ⟨contextError, ["captured-fact-unparseable:", name]⟩
          else .error e

/-- One record of the captured facts; nothing where it binds no content. -/
def capturedFact (disk : Disk) (base : Path) (rec : Value) : Except Exc (Option (Str × Value)) := do
  let fid := (rec.field? "fact_id").getD .null
  ensure (rec.isDict ∧ fid.truthy) ⟨contextError, ["captured fact record missing fact_id"]⟩
  ensure ((← badFactId fid) = false) ⟨contextError, ["captured-fact-bad-id:", .str fid]⟩
  let dig := (← rec.get "digest").getD .null
  if dig.truthy then return some (← readFact disk base fid dig) else return none

def capturedFacts (disk : Disk) (base : Path) :
    Dict Str Value → List Value → Except Exc (Dict Str Value)
  | out, [] => .ok out
  | out, rec :: rest => do
      match ← capturedFact disk base rec with
      | none => capturedFacts disk base out rest
      | some (name, content) => capturedFacts disk base (Dict.set out name content) rest

/-- `load_captured_facts`. -/
def loadCapturedFacts (disk : Disk) (root : Str) (ctx : Dict Str Value) :
    Except Exc (Dict Str Value) := do
  let base ← disk.resolve (Path.ofStr root)
  let bound := (Dict.get? ctx "captured_facts").getD .null
  capturedFacts disk base [] (← (if bound.truthy then bound else .list []).iter)

/-- `verify_bound_sets`, of one set. -/
def verifyBoundSet (ctx : Dict Str Value) (label : Str) (entries : Value) : Except Exc Unit := do
  let claimed := (Dict.get? ctx (label ++ "_set_digest")).getD .null
  if claimed.truthy then
    let actual ← Issue.setDigest entries label
    ensure (Value.eq (.str actual) claimed)
      ⟨contextError, [label, " set does not match the digest bound in the context (",
        .str claimed, "); ", "sets must be written to the policy directory at issuance"]⟩
  else return ()

/-- `verify_bound_sets`. -/
def verifyBoundSets (ctx : Dict Str Value) (baseline exceptions : Value) : Except Exc Unit := do
  verifyBoundSet ctx "baseline" baseline
  verifyBoundSet ctx "exception" exceptions

end Context

end DevGate
