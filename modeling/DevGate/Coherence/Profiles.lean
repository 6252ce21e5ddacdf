import DevGate.Coherence.Assertion
import DevGate.Py.Disk

set_option autoImplicit false

/- hub/coherence/profiles.py: the registry of execution profiles. -/
namespace DevGate.Profiles

open Py

def profileRegistryError : ExcClass := .user "ProfileRegistryError" .valueError

def fail {α : Type} (text : Text) : Except Exc α := .error ⟨profileRegistryError, text⟩

/-- `_SHA.fullmatch`. -/
def isSha (s : Str) : Bool := Schemacheck.digestPattern.re.fullmatch s

structure Profile where
  label : Str
  imageManifestDigest : Str

structure Registry where
  imageIndexDigest : Option Str
  profiles : List Profile

/-- `s.rsplit("@", 1)`, where there is an `@`. -/
def atLast? (s : Str) : Option (Str × Str) :=
  let parts := Str.split (Chr.ofChar '@') s
  if parts.length < 2 then none
  else some (Str.join "@" parts.dropLast, parts.getLastD [])

def platforms : List Str := ["linux/amd64", "linux/arm64"]

/-- A string that is not empty. -/
def filled? : Option Value → Option Str
  | some (.str (c :: rest)) => some (c :: rest)
  | _ => none

def validateProfile (labels : List Str) (p : Value) : Except Exc Profile :=
  match p with
  | .dict kvs =>
      match filled? (Dict.get? kvs "label") with
      | none => fail ["bad-profile-label"]
      | some label =>
          if label ∈ labels then fail ["duplicate-profile-label:", label]
          else
            let platform := (Dict.get? kvs "platform").getD .null
            if platform.str?.all (fun s => s ∉ platforms) then fail ["bad-platform:", .repr platform]
            else match ((Dict.get? kvs "image_manifest_digest").bind Value.str?).filter isSha with
              | none => fail ["bad-manifest-digest:", label]
              | some digest =>
                  let base := ((Dict.get? kvs "base_image").bind Value.str?).bind atLast?
                  if base.all (fun cut => !isSha cut.2) then fail ["bad-base-image:", label]
                  else if filled? (Dict.get? kvs "semantic_equivalence_group") = none then
                    fail ["bad-equivalence-group:", label]
                  else .ok ⟨label, digest⟩
  | _ => fail ["bad-profile"]

def validateProfiles (labels : List Str) : List Value → Except Exc (List Profile)
  | [] => .ok []
  | p :: rest => do
      let profile ← validateProfile labels p
      return profile :: (← validateProfiles (profile.label :: labels) rest)

def validateRegistry (obj : Value) : Except Exc Registry :=
  match obj with
  | .dict kvs =>
      if ((Dict.get? kvs "schema").getD .null).eq (.str "execution-profiles") = false then
        fail ["bad-schema-tag"]
      else if filled? (Dict.get? kvs "image") = none then fail ["bad-image"]
      else
        let index := (Dict.get? kvs "image_index_digest").getD .null
        if index ≠ .null ∧ index.str?.all (fun s => !isSha s) then fail ["bad-image-index-digest"]
        else match Dict.get? kvs "profiles" with
          | some (.list (p :: rest)) => do
              return ⟨index.str?, ← validateProfiles [] (p :: rest)⟩
          | _ => fail ["bad-profiles"]
  | _ => fail ["registry-not-object"]

def loadRegistry (disk : Disk) (path : Str) : Except Exc Registry :=
  match (do Json.loadText (← disk.read (Path.ofStr path))) with
  | .ok obj => validateRegistry obj
  | .error e =>
      if e.isA [.osError] then fail ["registry-unreadable:", path]
      else if e.isA [.jsonDecodeError] then fail ["registry-invalid-json:", path]
      else .error e

def resolveProfile (reg : Registry) (label : Str) : Except Exc Profile :=
  match reg.profiles.find? (fun p => p.label = label) with
  | some p => .ok p
  | none => fail ["undeclared-profile:", label]

/-- The evaluator image, and the platform it is recorded for. -/
def resolveEvaluatorIdentity (disk : Disk) (registryPath label : Str) (envDigest : Option Str) :
    Except Exc (Str × Value) :=
  let shown (s : Option Str) : Value := (s.map Value.str).getD .null
  let platform (reg : Option Registry) (prof : Option Profile) : Value :=
    .dict [("index_digest", shown (reg.bind Registry.imageIndexDigest)),
      ("manifest_digest", shown (prof.map Profile.imageManifestDigest)), ("profile", .str label)]
  match loadRegistry disk registryPath with
  | .error e =>
      match envDigest with
      | some digest => if e.isA [profileRegistryError] then .ok (digest, platform none none) else .error e
      | none => .error e
  | .ok reg =>
      match resolveProfile reg label, envDigest with
      | .ok prof, some digest => .ok (digest, platform (some reg) (some prof))
      | .ok prof, none => .ok (prof.imageManifestDigest, platform (some reg) (some prof))
      | .error _, some digest => .ok (digest, platform (some reg) none)
      | .error e, none => .error e

def checkLaunchDigest (reg : Registry) (label manifestDigest : Str) : Except Exc Unit := do
  let recorded ← resolveProfile reg label
  if manifestDigest ≠ recorded.imageManifestDigest then fail ["profile-digest-mismatch:", label]
  else return ()

end DevGate.Profiles
