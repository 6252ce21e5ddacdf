import DevGate.Coherence.Profiles
import DevGate.Py.Number
import DevGate.Py.Repr

set_option autoImplicit false

/- hub/coherence/launcher.py: a launch configuration is validated outside the
container, and the podman invocation is derived from what was validated. -/
namespace DevGate.Launcher

open Py
open Profiles (isSha atLast? filled?)

def launchError : ExcClass := .user "LaunchError" .valueError

def fail {α : Type} (text : Text) : Except Exc α := .error ⟨launchError, text⟩

/-- The file system of the host: `lstat` also tells sockets. -/
structure Host extends Disk where
  isSocket : Path → Except Exc Bool

/-- `os.path.realpath(s)`. -/
def realpath (disk : Disk) (s : Str) : Except Exc Str := do
  return (← disk.resolve (Path.ofStr s)).str

def badSize (text : Text) : Except Exc Int := .error ⟨.valueError, text⟩

def positive (n : Int) : Except Exc Int :=
  if n ≤ 0 then badSize ["size must be positive"] else .ok n

/-- `_SIZE_SUFFIX`. -/
def sizeSuffix : List (Chr × Int) :=
  [(Chr.ofChar 'k', 1000), (Chr.ofChar 'm', 1000000), (Chr.ofChar 'g', 1000000000)]

/-- `_parse_size`. -/
def parseSize (u : Unicode) (v : Value) : Except Exc Int :=
  match v with
  | .int n => positive n
  | .str text =>
      let s := u.lower (Str.strip text)
      if s ≠ [] ∧ s.all u.isDigit then do positive (← u.int (.str s))
      else
        let front := s.dropLast
        match (s.getLast?).bind (fun c => Dict.get? sizeSuffix c) with
        | some scale =>
            if front ≠ [] ∧ front.all (fun c => (u.decimal c).isSome) then do
              return (← u.int (.str front)) * scale
            else badSize ["unparseable size: ", .repr v]
        | none => badSize ["unparseable size: ", .repr v]
  | _ => badSize ["size must be int or str"]

def validateImage (ref : Value) : Except Exc Str :=
  match ref.str?, ref.str?.bind atLast? with
  | some ref, some (name, digest) =>
      if name = [] then fail ["tag-only-image"]
      else if isSha digest then .ok ref
      else fail ["bad-image-digest"]
  | _, _ => fail ["tag-only-image"]

/-- One to ten decimal digits. -/
def userPart (u : Unicode) (s : Str) : Option Nat :=
  if s.length ≤ 10 then (s.mapM u.decimal).bind (fun ds => if ds = [] then none else some (natOfDigits ds))
  else none

/-- `_USER_RE`: a user, and a group that is the user where it is not named. -/
def userIds (u : Unicode) (s : Str) : Option (Nat × Nat) :=
  match Str.split (Chr.ofChar ':') s with
  | [user] => (userPart u user).map (fun n => (n, n))
  | [user, group] => do return (← userPart u user, ← userPart u group)
  | _ => none

def validateUser (u : Unicode) (v : Option Value) : Except Exc Str :=
  match v with
  | some (.str text) =>
      let s := Str.strip text
      if u.lower s = "root" then fail ["root-user"]
      else match userIds u s with
        | none => fail ["bad-user"]
        | some (uid, gid) => if uid = 0 ∨ gid = 0 then fail ["root-user"] else .ok s
  | _ => fail ["missing-field:user"]

/-- A read-only bind of a resolved source. -/
structure Mount where
  source : Str
  target : Str
  deriving DecidableEq

/-- `os.lstat(src)` that fails names no socket. -/
def isSocket (host : Host) (src : Str) : Except Exc Bool :=
  match host.isSocket (Path.ofStr src) with
  | .ok answer => .ok answer
  | .error e => if e.isA [.osError] then .ok false else .error e

def validateMount (host : Host) (seen : List Str) (mt : Value) : Except Exc Mount :=
  match mt with
  | .dict kvs =>
      match filled? (Dict.get? kvs "source"), filled? (Dict.get? kvs "target") with
      | some src, some tgt =>
          if tgt ∈ seen then fail ["duplicate-mount-target:", tgt]
          else do
            if ← isSocket host src then fail ["host-socket-bind:", src]
            else if Dict.get? kvs "readonly" ≠ some (.bool true) then fail ["writable-mount:", tgt]
            else return ⟨← realpath host.toDisk src, tgt⟩
      | _, _ => fail ["bad-mount"]
  | _ => fail ["bad-mount"]

def validateMountList (host : Host) (seen : List Str) : List Value → Except Exc (List Mount)
  | [] => .ok []
  | mt :: rest => do
      let mount ← validateMount host seen mt
      return mount :: (← validateMountList host (mount.target :: seen) rest)

/-- `(target, source)` as a sort key. -/
def mountLe (a b : Mount) : Bool :=
  if a.target = b.target then Str.le a.source b.source else Str.le a.target b.target

def validateMounts (host : Host) (mounts : Value) : Except Exc (List Mount) :=
  match mounts with
  | .list vs => do return (← validateMountList host [] vs).insertionSort (fun a b => mountLe a b = true)
  | _ => fail ["missing-field:mounts"]

structure Limits where
  memory : Int
  cpus : Flt
  timeS : Int
  pids : Int
  nofile : Int
  outputBytes : Int

/-- `n <= 0`. -/
def notPositive (x : Flt) : Bool :=
  match x with
  | .fin q => q ≤ 0
  | .inf negative => negative
  | .nan => false

/-- One limit: there, readable as a number, and not below one. -/
def limit {α : Type} (limits : Dict Str Value) (key : Str) (read : Value → Except Exc α)
    (low : α → Bool) : Except Exc α :=
  match Dict.get? limits key with
  | none => fail ["missing-limit:", key]
  | some v =>
      match read v with
      | .ok n => if low n then fail ["bad-limit:", key] else .ok n
      | .error e => if e.isA [.valueError, .typeError] then fail ["bad-limit:", key] else .error e

def validateLimits (u : Unicode) (limits : Value) : Except Exc Limits :=
  match limits with
  | .dict kvs => do
      let low (n : Int) : Bool := n ≤ 0
      let memory ← limit kvs "memory" (parseSize u) low
      let cpus ← limit kvs "cpus" u.float notPositive
      let timeS ← limit kvs "time_s" u.int low
      let pids ← limit kvs "pids" u.int low
      let nofile ← limit kvs "nofile" u.int low
      let outputBytes ← limit kvs "output_bytes" u.int low
      return { memory, cpus, timeS, pids, nofile, outputBytes }
  | _ => fail ["missing-field:limits"]

/-- `item in v`. -/
def within (item : Str) (v : Value) : Except Exc Bool :=
  match v with
  | .list vs => .ok (vs.any (fun w => w.same (.str item)))
  | .str s => .ok (decide (item <:+: s))
  | .dict kvs => .ok (Dict.contains kvs item)
  | other => .error ⟨.typeError, ["argument of type '", other.typeName, "' is not iterable"]⟩

/-- The first field of a self-report that disagrees with what was derived. -/
def mismatch (declared : Dict Str Value) (derived : List (Str × Value)) : Option Str :=
  (derived.find? (fun field => (Dict.get? declared field.1).any (fun v => !v.eq field.2))).map Prod.fst

/-- `_check_declared`. -/
def checkDeclared (cfg : Dict Str Value) (user profile : Str) : Except Exc Unit :=
  match (Dict.get? cfg "declared").getD .null with
  | .null => .ok ()
  | .dict declared =>
      match mismatch declared [("user", .str user), ("read_only_rootfs", .bool true),
          ("network", .str "none"), ("profile", .str profile)] with
      | some field => fail ["self-report-mismatch:", field]
      | none =>
          match Dict.get? declared "cap_drop" with
          | none => .ok ()
          | some dropped => do
              if ← within "ALL" dropped then return () else fail ["self-report-mismatch:cap_drop"]
  | _ => fail ["bad-declared"]

/-- The isolation the launcher enforces; the constant parts are not recorded. -/
structure Launch where
  image : Str
  user : Str
  mounts : List Mount
  scratchBytes : Int
  limits : Limits
  profile : Str
  imageManifestDigest : Str
  imageIndexDigest : Option Str

def validateScratch (u : Unicode) (scratch : Option Value) : Except Exc Int :=
  match (scratch.bind Value.dict?).bind (fun kvs => Dict.get? kvs "size") with
  | none => fail ["unbounded-scratch"]
  | some size =>
      match parseSize u size with
      | .ok n => .ok n
      | .error e => if e.isA [.valueError] then fail ["unbounded-scratch"] else .error e

def validateDigests (cfg : Dict Str Value) : Except Exc (Str × Option Str) :=
  match (Dict.get? cfg "image_manifest_digest").getD .null with
  | .null => fail ["missing-field:image_manifest_digest"]
  | manifest =>
      match manifest.str?.filter isSha with
      | none => fail ["bad-image_manifest_digest"]
      | some digest =>
          match (Dict.get? cfg "image_index_digest").getD .null with
          | .null => .ok (digest, none)
          | index =>
              match index.str?.filter isSha with
              | none => fail ["bad-image_index_digest"]
              | some own => .ok (digest, some own)

/-- What the configuration must claim of the isolation itself. -/
def checkIsolation (cfg : Dict Str Value) : Except Exc Unit :=
  if Dict.get? cfg "read_only_rootfs" ≠ some (.bool true) then fail ["writable-rootfs"]
  else if ((Dict.get? cfg "cap_drop").getD .null).eq (.list [.str "ALL"]) = false then
    fail ["cap-drop-missing"]
  else if ((Dict.get? cfg "cap_add").getD .null).truthy then fail ["cap-add-forbidden"]
  else
    let network := (Dict.get? cfg "network").getD .null
    if network.eq (.str "none") = false then
      fail [if network.eq (.str "host") then "host-network" else "network-not-none"]
    else .ok ()

def validateProfileLabel (supported : List Str) (profile : Option Value) : Except Exc Str :=
  match filled? profile with
  | none => fail ["missing-field:profile"]
  | some label => if label ∈ supported then .ok label else fail ["undeclared-profile:", label]

def validateLaunch (u : Unicode) (host : Host) (cfg : Dict Str Value) (supported : List Str) :
    Except Exc Launch := do
  let image ← validateImage ((Dict.get? cfg "image").getD .null)
  if ((Dict.get? cfg "plugins").getD .null).truthy then
    fail ["plugins-unsupported:no-approved-plugin-sandbox"]
  else
    let user ← validateUser u (Dict.get? cfg "user")
    checkIsolation cfg
    let mounts ← validateMounts host ((Dict.get? cfg "mounts").getD (.list []))
    let scratchBytes ← validateScratch u (Dict.get? cfg "scratch")
    let limits ← validateLimits u ((Dict.get? cfg "limits").getD .null)
    let profile ← validateProfileLabel supported (Dict.get? cfg "profile")
    let (imageManifestDigest, imageIndexDigest) ← validateDigests cfg
    checkDeclared cfg user profile
    return { image, user, mounts, scratchBytes, limits, profile, imageManifestDigest,
             imageIndexDigest }

/-- `_TMPFS_TARGETS`. -/
def tmpfsTargets : List Str := ["/scratch", "/tmp", "/run"]

/-- The bind mounts: the output directory, then every mount read-only. -/
def binds (ctx : Launch) (outputDir : Path) : List Str :=
  [("-v" : Str), outputDir.str ++ ":/output"] ++
    ctx.mounts.flatMap (fun mt => [("-v" : Str), mt.source ++ ":" ++ mt.target ++ ":ro"])

/-- `podman_args`. -/
def podmanArgs (p : Printer) (ctx : Launch) (env : List (Str × Str)) (outputDir : Path) : List Str :=
  let int (n : Int) : Str := Str.ofInt n
  [("podman" : Str), "run", "--rm", "--read-only", "--read-only-tmpfs", "--user=" ++ ctx.user,
    "--cap-drop=ALL", "--security-opt=no-new-privileges", "--network=none",
    "--memory=" ++ int ctx.limits.memory, "--cpus=" ++ p.float ctx.limits.cpus,
    "--pids-limit=" ++ int ctx.limits.pids, "--ulimit",
    "nofile=" ++ int ctx.limits.nofile ++ ":" ++ int ctx.limits.nofile, "--shm-size=64m"] ++
  tmpfsTargets.flatMap (fun target =>
    [("--tmpfs" : Str), target ++ ":size=" ++ int ctx.scratchBytes ++ ",noexec,nodev"]) ++
  binds ctx outputDir ++
  env.flatMap (fun kv => [("-e" : Str), kv.1 ++ "=" ++ kv.2]) ++ [ctx.image]

end DevGate.Launcher
