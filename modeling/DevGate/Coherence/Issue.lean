import DevGate.Coherence.AdoptionSets
import DevGate.Coherence.Attest

set_option autoImplicit false

/- The countersignature and the set digests of hub/coherence/issue.py. -/
namespace DevGate.Issue

open Py Canon
open Attest (EnvText compareDigest signaturePrefix)

/-- The environment of the control plane: its key in hex, and its identity. -/
structure Env where
  key : Option EnvText
  identity : Option EnvText

/-- `_key`. -/
def key (env : Env) : Except Exc (Option Bytes) :=
  let raw := Str.strip ((env.key.map EnvText.text).getD [])
  if raw = [] then .ok none
  else match fromhex? raw with
    | some k => .ok (some k)
    | none => .error ⟨.valueError, ["HUB_COHERENCE_CP_KEY", " must be a hex string"]⟩

/-- `ctx.get("issuance") or {}`. -/
def issuanceOf (ctx : Dict Str Value) : Value :=
  match Dict.get? ctx "issuance" with
  | some found => if found.truthy then found else .dict []
  | none => .dict []

/-- `_unsigned`: the context without its own countersignature. -/
def unsigned (ctx : Dict Str Value) : Except Exc (Dict Str Value) :=
  match issuanceOf ctx with
  | .dict own => .ok (Dict.set ctx "issuance" (.dict (Dict.erase own "countersignature")))
  | other => .error ⟨.attributeError, ["'", other.typeName, "' object has no attribute 'items'"]⟩

/-- The countersignature of a context under a key. -/
def countersign (k : Bytes) (ctx : Dict Str Value) : Except Exc Str := do
  return signaturePrefix ++ hmacSha256 k (← canon (.dict (← unsigned ctx)))

/-- `sign_context`. -/
def signContext (env : Env) (ctx : Dict Str Value) : Except Exc Str := do
  match ← key env with
  | none => .error ⟨.valueError, ["HUB_COHERENCE_CP_KEY", " not configured; cannot sign"]⟩
  | some k => countersign k ctx

/-- `verify_signature`: nothing where no key is configured. -/
def verifySignature (env : Env) (ctx : Dict Str Value) : Except Exc (Option Bool) := do
  match ← key env with
  | none => return none
  | some k =>
      let sig := (← (issuanceOf ctx).get "countersignature").getD .null
      if sig.truthy then return some (← compareDigest (← countersign k ctx) sig)
      else return some false

/-- The schema of the entries of an adoption set. -/
def setSchema (label : Str) : Schemacheck.Schema :=
  if label = "baseline" then Schemacheck.baselineEntry else Schemacheck.exception

/-- `set_digest`. -/
def setDigest (entries : Value) (label : Str) : Except Exc Str :=
  match entries with
  | .list vs =>
      let errs := vs.flatMap (fun entry => Schemacheck.validate (setSchema label) entry "$")
      if errs ≠ [] then
        .error ⟨.valueError, (["invalid ", label, " set: "] : Text) ++
          List.intercalate [Frag.lit "; "] (errs.take 5)⟩
      else
        digestObj .context (.dict [("kind", .str (label ++ "-set")), ("entries", entries)])
  | _ => .error ⟨.valueError, [label, " set must be a list"]⟩

end DevGate.Issue
