import DevGate.Coherence.Evidence
import DevGate.Py.RealPath

set_option autoImplicit false

/- hub/coherence/store.py: a sealed bundle is sent, file after file, through a transport. -/
namespace DevGate.Store

open Py Canon
open Evidence (contained evidenceError)

def uploadError : ExcClass := .user "UploadError" .runtimeError

/-- `_BUNDLE_FILES`. -/
def bundleFiles : List Str := ["result.json", "attestation.json", "evidence-manifest.json"]

/-- `transport(name, payload)`: what it answers may depend on what it was sent before. -/
abbrev Transport := List (Str × Bytes) → Str → Bytes → Except Exc Unit

/-- `evidence.contained`, with an UploadError in place of an EvidenceError. -/
def containedOr (disk : Disk) (out : Path) (rel : Value) : Except Exc Path :=
  match contained disk out rel with
  | .ok fp => .ok fp
  | .error e => .error (if e.isA [evidenceError] then ⟨uploadError, e.msg⟩ else e)

/-- The loop of `artifacts` over the manifest. -/
def listed (disk : Disk) (out : Path) : List Value → Except Exc (List Path)
  | [] => .ok []
  | entry :: rest => do
      let path ← entry.get "path"
      let fp ← containedOr disk out (path.getD .null)
      let later ← listed disk out rest
      return if disk.isFile fp then fp :: later else later

/-- The files of a bundle that every bundle may hold. -/
def fixedFiles (disk : Disk) (out : Path) : List Path :=
  (bundleFiles.map out.join).filter disk.isFile

def artifacts (disk : Disk) (runDir : Str) : Except Exc (List Path) := do
  let out := Path.ofStr runDir
  let found := fixedFiles disk out
  let manifestPath := out.join "evidence-manifest.json"
  if disk.isFile manifestPath then
    let manifest ← Json.loadText (← disk.read manifestPath)
    let entries ← ((← manifest.get "objects").getD (.list [])).iter
    return found ++ (← listed disk out entries)
  else return found

/-- `manifest_digest`. -/
def manifestDigest (disk : Disk) (runDir : Str) : Except Exc Str := do
  let manifest ← Json.loadText (← disk.read ((Path.ofStr runDir).join "evidence-manifest.json"))
  digestObj .evidenceManifest manifest

/-- What `upload` makes of an exception raised while it sends a file. -/
def surfaced (fp : Path) (e : Exc) : Exc :=
  if e.isA [uploadError] then e
  else if e.isA [.osError] then
    ⟨uploadError, (["upload-failed:", fp.name, ":"] : Text) ++ e.msg⟩
  else e

/-- One file, sent under its name in the bundle. -/
def sendOne (disk : Disk) (transport : Transport) (out : Path) (sent : List (Str × Bytes))
    (fp : Path) : Except Exc (Str × Bytes) := do
  let name := (← fp.relativeTo out).str
  let payload ← disk.read fp
  transport sent name payload
  return (name, payload)

/-- The loop of `upload`, with what the transport took before it ended. -/
def sendAll (disk : Disk) (transport : Transport) (out : Path) (sent : List (Str × Bytes)) :
    List Path → Except Exc Unit × List (Str × Bytes)
  | [] => (.ok (), sent)
  | fp :: rest =>
      match sendOne disk transport out sent fp with
      | .ok item => sendAll disk transport out (sent ++ [item]) rest
      | .error e => (.error (surfaced fp e), sent)

/-- What is sent, and what `upload` returns: it reads the bundle and writes nothing. -/
def upload (disk : Disk) (runDir : Str) (transport : Transport) :
    Except Exc Value × List (Str × Bytes) :=
  let out := Path.ofStr runDir
  if disk.isFile (out.join "evidence-manifest.json") then
    match artifacts disk runDir with
    | .error e => (.error e, [])
    | .ok files =>
        match sendAll disk transport out [] files with
        | (.error e, sent) => (.error e, sent)
        | (.ok (), sent) =>
            (do return .dict [("evidence_manifest_digest", .str (← manifestDigest disk runDir))],
              sent)
  else (.error ⟨uploadError, ["cannot upload an unsealed bundle"]⟩, [])

end DevGate.Store
