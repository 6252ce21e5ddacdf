import DevGate.Coherence.Failure
import DevGate.Coherence.Launcher
import DevGate.Py.JsonWrite

set_option autoImplicit false

/- hub/coherence/container_exec.py: a request is run in a container, and its exit code is relayed
with the result it left. -/
namespace DevGate.Container

open Py Launcher
open Profiles (atLast? loadRegistry resolveProfile checkLaunchDigest profileRegistryError)
open Result (Identities)

def stagedRequestName : Str := "request.container.json"

def requestTarget : Str := "/output/" ++ stagedRequestName

def outputTarget : Str := "/output"

/-- `_DECISION_FOR_CODE`. -/
def decisionForCode : List (Int × Str) :=
  [(0, "PASS"), (10, "ADVISORY"), (20, "FAIL"), (30, "ERROR"), (31, "ERROR"), (32, "ERROR"),
    (33, "ERROR"), (40, "ERROR")]

/-- `real == src or real.startswith(src + os.sep)`. -/
def covers (src real : Str) : Bool := real = src || (src ++ [Chr.ofChar '/']).isPrefixOf real

/-- A host root as the container sees it, through the longest source that covers it. -/
def containerPath (disk : Disk) (root : Str) (mounts : List Mount) : Except Exc (Option Str) := do
  let real ← realpath disk root
  let best ← mounts.foldlM (fun (best : Option (Nat × Str)) mt => do
    let src ← realpath disk mt.source
    if covers src real && best.all (fun found => found.1 < src.length) then
      return some (src.length, mt.target ++ real.drop src.length)
    else return best) none
  return best.map Prod.snd

def sections : List Str := ["subject", "openspec", "policy", "context"]

/-- One section, its root rewritten; a malformed one stays as it is. -/
def rewriteSection (disk : Disk) (mounts : List Mount) (out : Dict Str Value) (section_ : Str) :
    Except Exc (Dict Str Value) :=
  match Dict.get? out section_ with
  | some (.dict node) =>
      match Dict.get? node "root" with
      | some (.str (c :: root)) => do
          match ← containerPath disk (c :: root) mounts with
          | some target => return Dict.set out section_ (.dict (Dict.set node "root" (.str target)))
          | none => Launcher.fail ["unmounted-root:", section_]
      | _ => return out
  | _ => return out

/-- `_rewrite_roots`. -/
def rewriteRoots (disk : Disk) (req : Dict Str Value) (mounts : List Mount) :
    Except Exc (Dict Str Value) := do
  let out ← sections.foldlM (rewriteSection disk mounts) req
  return Dict.set out "outputs" (.str outputTarget)

/-- A launch that is about to start. -/
structure Launched where
  ctx : Launch
  hostOut : Str

/-- The digest the image reference pins. -/
def imageDigest (ctx : Launch) : Str := ((atLast? ctx.image).map Prod.snd).getD []

def Launched.ids (l : Launched) : Identities := { evaluatorImage := some (imageDigest l.ctx) }

/-- How far a run came before its container started. -/
inductive Prepared where
  | failed (code : Int)
  | reached (launched : Launched)

section

variable (p : Printer) (u : Unicode) (host : Host)

def refuse (outDir : Str) (reason : Text) (stage : Str) : Act Prepared := do
  return .failed (← Result.fail p outDir "invalid-input" reason stage {} none)

/-- The launch configuration is validated, and the rewritten request is staged. -/
def stageRequest (registryPath hostOut : Str) (req cfg : Dict Str Value) : Act Prepared := do
  let reg ← Act.ofExcept (loadRegistry host.toDisk registryPath)
  let ctx ← Act.ofExcept (validateLaunch u host cfg (reg.profiles.map (fun q => q.label)))
  let _ ← Act.ofExcept (resolveProfile reg ctx.profile)
  let _ ← Act.ofExcept (checkLaunchDigest reg ctx.profile ctx.imageManifestDigest)
  if imageDigest ctx ≠ ctx.imageManifestDigest then
    Act.raise ⟨launchError, ["image-ref-digest-mismatch:", ctx.profile]⟩
  else
    let realOut ← Act.ofExcept (realpath host.toDisk hostOut)
    match ctx.mounts.find? (fun mt => covers mt.source realOut) with
    | some mt => refuse p hostOut ["outputs-inside-mount-source:", mt.source] "launch"
    | none => do
        let staged ← Act.ofExcept (rewriteRoots host.toDisk req ctx.mounts)
        Result.emit ((Path.ofStr hostOut).join stagedRequestName)
          (Utf8.ascii (Json.dumpsSorted p (.dict staged)))
        return .reached ⟨ctx, hostOut⟩

/-- Both documents of a launch. -/
def readDocuments (requestPath launchPath : Str) : Except Exc (Value × Value) := do
  let req ← Json.loadText (← host.read (Path.ofStr requestPath))
  let cfg ← Json.loadText (← host.read (Path.ofStr launchPath))
  return (req, cfg)

/-- The output directory the request names, or the one it stands in. -/
def hostOutputs (req : Dict Str Value) (outDir : Str) : Str :=
  match Dict.get? req "outputs" with
  | some (.str raw) => if Str.strip raw = [] then outDir else Str.strip raw
  | _ => outDir

def namesNul (req : Dict Str Value) : Bool :=
  match Dict.get? req "outputs" with
  | some (.str raw) => raw.any (fun c => c.val == 0)
  | _ => false

/-- `run_containerized`, up to the launch. -/
def prepare (requestPath launchPath registryPath : Str) : Act Prepared := do
  let outDir := ((← Act.ofExcept (host.resolve (Path.ofStr requestPath))).parent).str
  match readDocuments host requestPath launchPath with
  | .error e =>
      if e.isA [.osError, .jsonDecodeError, .valueError] then
        refuse p outDir ("malformed request or launch config: " :: e.msg) "invocation"
      else Act.raise e
  | .ok (req, cfg) =>
      match req.dict?, cfg.dict? with
      | some req, some cfg =>
          if namesNul req then
            refuse p outDir ["outputs contains an embedded NUL character"] "invocation"
          else
            let hostOut := hostOutputs req outDir
            Act.catching (stageRequest p u host registryPath hostOut req cfg)
              [profileRegistryError, launchError, .osError, .valueError, .typeError]
              (fun e => refuse p hostOut ("launch rejected: " :: e.msg) "launch")
      | _, _ => refuse p outDir ["request and launch config must be JSON objects"] "invocation"

inductive Status where
  | completed
  | timeout
  | outputOverflow

structure LaunchRun where
  returncode : Int
  output : Bytes
  status : Status

/-- What a container does to a file the host shares with it. -/
inductive Touch where
  | wrote (path : Path) (bytes : Bytes)
  | removed (path : Path)

def Touch.path : Touch → Path
  | .wrote path _ => path
  | .removed path => path

/-- The last thing that was done to a file. -/
def lastTouch (disk : Disk) (touches : List Touch) (path : Path) : Option Touch :=
  touches.reverse.find? (fun t => disk.locate t.path = disk.locate path)

/-- `read_bytes` after the container has run. -/
def readTouched (disk : Disk) (touches : List Touch) (path : Path) : Except Exc Bytes :=
  match lastTouch disk touches path with
  | some (.wrote _ bytes) => .ok bytes
  | some (.removed _) => .error ⟨.osError, ["[Errno 2] No such file or directory: ", .repr (.str path.str)]⟩
  | none => disk.read path

/-- A container: what it answers, and what it does to the files, for any arguments. -/
abbrev Behaviour := List Str → Except Exc LaunchRun × List Touch

/-- The result document, as far as one can be read. -/
def readResult (bytes : Except Exc Bytes) : Except Exc (Option Value) :=
  match (do Json.loadText (← bytes)) with
  | .ok v => .ok (some v)
  | .error e => if e.isA [.osError, .jsonDecodeError, .valueError] then .ok none else .error e

/-- `parsed.get("decision")`. -/
def decisionOf (parsed : Option Value) : Value :=
  match parsed with
  | some (.dict kvs) => (Dict.get? kvs "decision").getD .null
  | _ => .null

def errorOf (parsed : Option Value) : Value :=
  match parsed with
  | some (.dict kvs) => (Dict.get? kvs "error").getD .null
  | _ => .null

/-- Does the document agree with the exit code? -/
def agrees (returncode : Int) (parsed : Option Value) : Bool :=
  match Dict.get? decisionForCode returncode with
  | some expected => (decisionOf parsed).eq (.str expected)
  | none => false

def successCodes : List Int := [0, 10, 20]

/-- The exit code, where the result agrees with it. -/
def relay (l : Launched) (rr : LaunchRun) (bytes : Except Exc Bytes) : Act Int := do
  let parsed ← Act.ofExcept (readResult bytes)
  if agrees rr.returncode parsed = false then
    Result.fail p l.hostOut "execution" ["container exited ", .str (.int rr.returncode),
      " without a result bundle agreeing with the exit-code contract (decision: ",
      .repr (decisionOf parsed), ")"] "launch" l.ids none
  else if rr.returncode ∈ successCodes ∧ errorOf parsed ≠ .null then
    Result.fail p l.hostOut "execution" ["container exited ", .str (.int rr.returncode),
      " with decision ", .repr (decisionOf parsed), " but a non-null error field in the result bundle"]
      "launch" l.ids none
  else return rr.returncode

/-- The signer variables that are set, after the evaluator digest. -/
def containerEnv (environ : Str → Option Str) (l : Launched) : List (Str × Str) :=
  (("HUB_COHERENCE_EVALUATOR_IMAGE_DIGEST" : Str), imageDigest l.ctx) ::
    (["HUB_COHERENCE_SIGNER_KEY", "HUB_COHERENCE_SIGNER_KEY_ID",
        "HUB_COHERENCE_SIGNER_IDENTITY"] : List Str).filterMap (fun k =>
      let v := Str.strip ((environ k).getD [])
      if v = [] then none else some (k, v))

def arguments (environ : Str → Option Str) (l : Launched) : List Str :=
  podmanArgs p l.ctx (containerEnv environ l) (Path.ofStr l.hostOut) ++
    [("--request" : Str), requestTarget]

/-- The end of `run_containerized`: the launch, and what is made of it. -/
def launch (environ : Str → Option Str) (container : Behaviour) (l : Launched) : Act Int := fun world =>
  let disk := host.toDisk.after world.log
  let (answer, touches) := container (arguments p environ l)
  let fail (reason : Text) : Act Int := Result.fail p l.hostOut "execution" reason "evaluation" l.ids none
  match answer with
  | .error e =>
      if e.isA [.osError] then fail ("launcher failed: " :: e.msg) world else (.error e, world)
  | .ok rr =>
      match rr.status with
      | .timeout => fail ["launch-timeout: container exceeded the time limit and was killed"] world
      | .outputOverflow =>
          fail ["launch-output-overflow: container exceeded the output cap and was killed"] world
      | .completed =>
          relay p l rr (readTouched disk touches ((Path.ofStr l.hostOut).join "result.json")) world

/-- `run_containerized`. -/
def runContainerized (environ : Str → Option Str) (container : Behaviour)
    (requestPath launchPath registryPath : Str) : Act Int := do
  match ← prepare p u host requestPath launchPath registryPath with
  | .failed code => return code
  | .reached l => launch p host environ container l

end

end DevGate.Container
