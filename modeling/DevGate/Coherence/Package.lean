import DevGate.Coherence.Canon
import DevGate.Py.RealPath

set_option autoImplicit false

/- hub/coherence/package.py: an OpenSpec package, its authenticated inventory and its digest. -/
namespace DevGate.Package

open Py Canon

def packageError : ExcClass := .user "PackageError" .valueError

/-- `v.get(key) or []`. -/
def orEmpty (v : Value) (key : Str) : Except Exc Value := do
  match ← v.get key with
  | some found => return if found.truthy then found else .list []
  | none => return .list []

def loadJson (disk : Disk) (path : Path) : Except Exc Value :=
  match (do Json.loadText (← disk.read path)) with
  | .ok v => .ok v
  | .error e =>
      if e.isA [.osError, .jsonDecodeError] then
        .error ⟨packageError, (["cannot read package manifest ", path.str, ": "] : Text) ++ e.msg⟩
      else .error e

/-- `root / path` of a decoded value. -/
def below (root : Path) (path : Value) : Except Exc Path :=
  match path with
  | .str name => .ok (root.join name)
  | other => .error ⟨.typeError, ["unsupported operand type(s) for /: 'PosixPath' and '",
      other.typeName, "'"]⟩

/-- The digest of a file's bytes. -/
def fileDigest (disk : Disk) (fp : Path) : Except Exc Str := do
  return Canon.digest .file (← disk.read fp)

/-- One entry of the inventory; the file, where it is normative. -/
def checkEntry (disk : Disk) (root : Path) (entry : Value) : Except Exc (Option Path) := do
  let path ← entry.item "path"
  let kind ← entry.item "kind"
  let recorded ← entry.item "digest"
  let fp ← below root path
  if disk.exists_ fp then
    let actual ← fileDigest disk fp
    if Value.eq (.str actual) recorded then
      return if kind.eq (.str "normative") then some fp else none
    else .error ⟨packageError, ["inventory digest mismatch for ", .str path, ": recorded ",
      .str recorded, ", actual ", actual]⟩
  else .error ⟨packageError, ["inventory entry missing on disk: ", .str path]⟩

/-- The loop over the inventory: the normative files. -/
def checkInventory (disk : Disk) (root : Path) : List Value → Except Exc (List Path)
  | [] => .ok []
  | entry :: rest => do
      let found ← checkEntry disk root entry
      return found.toList ++ (← checkInventory disk root rest)

/-- Every import is frozen. -/
def checkImports : List Value → Except Exc Unit
  | [] => .ok ()
  | imp :: rest => do
      if ((← imp.get "digest").getD .null).truthy then checkImports rest
      else .error ⟨packageError, ["import ", .repr ((← imp.get "package_id").getD .null),
        " has no resolved digest; ", "imports must be frozen before evaluation"]⟩

/-- The normative closure: the path and digest of each normative file. -/
def closure (disk : Disk) (root : Path) : List Path → Except Exc Bytes
  | [] => .ok []
  | fp :: rest => do
      let entry : Value := .dict [("path", .str (← fp.relativeTo root).str),
        ("digest", .str (← fileDigest disk fp))]
      let here ← canon entry
      return here ++ (← closure disk root rest)

/-- `[e for e in inventory if e["kind"] == "normative"]`. -/
def normative : List Value → Except Exc (List Value)
  | [] => .ok []
  | entry :: rest => do
      let kind ← entry.item "kind"
      let later ← normative rest
      return if kind.eq (.str "normative") then entry :: later else later

def apiVersion : Str := "devgate.openspec.package/v1"

/-- The optional members of the manifest that a package keeps. -/
def optional (manifest : Value) : Dict Str Value :=
  [("product" : Str), "normative_requirements", "release_manifest"].filterMap (fun key =>
    (manifest.field? key).map (fun v => (key, v)))

/-- The resolved package, before its digest. -/
def resolved (manifest : Value) (inventory : List Value) (imports : Value) :
    Except Exc (Dict Str Value) := do
  let named : Dict Str Value := [("api_version", .str apiVersion),
    ("package_id", ← manifest.item "package_id"),
    ("package_version", ← manifest.item "package_version"),
    ("normative_inventory", .list (← normative inventory)), ("imports", imports)]
  return named ++ optional manifest

/-- `resolve`. -/
def resolve (disk : Disk) (root : Str) : Except Exc (Dict Str Value) := do
  let rootP ← disk.resolve (Path.ofStr root)
  let manifestPath := rootP.join "package.json"
  if disk.exists_ manifestPath then
    let manifest ← loadJson disk manifestPath
    let version ← manifest.get "schema_version"
    if (version.getD .null).eq (.str apiVersion) then
      let inventory ← orEmpty manifest "normative_inventory"
      if inventory.truthy then
        let entries ← inventory.iter
        let files ← checkInventory disk rootP entries
        let imports ← orEmpty manifest "imports"
        checkImports (← imports.iter)
        let normativeBytes ← closure disk rootP files
        let package ← resolved manifest entries imports
        let payload ← canon (.dict package)
        return package ++
          [(("package_digest" : Str), Value.str (Canon.digest .package (payload ++ normativeBytes)))]
      else .error ⟨packageError, ["package has empty normative_inventory"]⟩
    else .error ⟨packageError, ["unsupported schema_version: ", .repr (version.getD .null)]⟩
  else .error ⟨packageError, ["missing package manifest: ", manifestPath.str]⟩

end DevGate.Package
