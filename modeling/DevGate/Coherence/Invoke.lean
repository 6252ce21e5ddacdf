import DevGate.Coherence.Manifest
import DevGate.Coherence.Package
import DevGate.Coherence.Context

set_option autoImplicit false

/- request.schema.json, and the request that hub/coherence/invoke.py builds. -/
namespace DevGate

open Py

namespace Schemacheck

def inputRef : Schema where
  type := some (.one .object)
  closed := true
  required := ["root", "expected_digest"]
  properties := [("kind", string), ("root", string), ("expected_digest", digest)]

def repository : Schema where
  type := some (.one .object)
  closed := true
  properties := [("owner", string), ("advisory_started", dateTime), ("advisory_expiry", dateTime),
    ("next_stage", string)]

def requestVersion : Str := "devgate.spec-coherence/v1"

/-- request.schema.json. -/
def request : Schema where
  type := some (.one .object)
  closed := true
  required := ["api_version", "subject", "openspec", "policy", "context", "semantics", "outputs"]
  properties := [
    ("api_version", { const := some (.str requestVersion) }),
    ("request_id", string),
    ("subject", inputRef), ("openspec", inputRef), ("policy", inputRef), ("context", inputRef),
    ("repository", repository),
    ("semantics", names ["fresh-promotion", "replay"]),
    ("outputs", string)]

end Schemacheck

/-- Where a command runs: the file system, the character tables, and the control plane's
variables. -/
structure Site where
  tree : Tree
  fold : Folding
  env : Issue.Env

def Site.disk (site : Site) : Disk := site.tree.toDisk

namespace Invoke

/-- The arguments of `build_request`. -/
structure Arguments where
  subjectRoot : Str
  openspecRoot : Str
  policyRoot : Str
  contextRoot : Str
  outputs : Str
  semantics : Str
  requestId : Option Str

def sourceTree : Value := .str "source-tree"

/-- `_manifest.build(root, kind)`. -/
def subject (site : Site) (root : Str) (kind : Value) : Except Exc Value :=
  Manifest.build site.tree site.fold root kind Manifest.defaultExcludes

/-- An input of the request: where it is, and the digest it is expected to have. -/
def reference (root : Str) (digest : Value) : Dict Str Value :=
  [("root", .str root), ("expected_digest", digest)]

/-- The request, from its digests. -/
def requestOf (args : Arguments) (subject openspec policy context : Value) : Dict Str Value :=
  let req : Dict Str Value := [
    ("api_version", .str Schemacheck.requestVersion),
    ("subject", .dict (("kind", sourceTree) :: reference args.subjectRoot subject)),
    ("openspec", .dict (reference args.openspecRoot openspec)),
    ("policy", .dict (reference args.policyRoot policy)),
    ("context", .dict (reference args.contextRoot context)),
    ("semantics", .str args.semantics),
    ("outputs", .str args.outputs)]
  match args.requestId with
  | some (c :: rest) => Dict.set req "request_id" (.str (c :: rest))
  | _ => req

/-- `build_request`. -/
def buildRequest (site : Site) (args : Arguments) : Except Exc (Dict Str Value) := do
  let subjectDigest ← (← subject site args.subjectRoot sourceTree).item "subject_digest"
  let package ← Package.resolve site.disk args.openspecRoot
  let openspecDigest ← (Value.dict package).item "package_digest"
  let ctx ← Context.load site.env site.disk args.contextRoot
  let contextDigest ← (Value.dict ctx).item "context_digest"
  let policyDigest ← (← (Value.dict ctx).item "policy_binding").item "expected_digest"
  return requestOf args subjectDigest openspecDigest policyDigest contextDigest

end Invoke

end DevGate
