import DevGate.Coherence.Canon
import DevGate.Py.Disk
import DevGate.Py.Hmac

set_option autoImplicit false

/- hub/coherence/manifest.py: the subject manifest of a directory tree. -/
namespace Py

/-- `unicodedata.normalize("NFC", s)` and `s.casefold()`. -/
structure Folding where
  nfc : Str → Str
  casefold : Str → Str

/-- `s.replace("\\", "/")`. -/
def Str.slashed (s : Str) : Str :=
  s.map (fun c => if c = Chr.ofChar '\\' then Chr.ofChar '/' else c)

/-- The ends of a line, where `\r` has been read as `\n`. -/
def Chr.endsLine (c : Chr) : Bool :=
  let n := c.val
  (10 ≤ n && n ≤ 13) || (28 ≤ n && n ≤ 30) || n == 0x85 || n == 0x2028 || n == 0x2029

/-- `s.splitlines()`. -/
def Str.splitlines : Str → List Str
  | [] => []
  | c :: rest =>
      if c.endsLine then [] :: Str.splitlines rest
      else match Str.splitlines rest with
        | [] => [[c]]
        | line :: lines => (c :: line) :: lines

/-- `s.split()`. -/
def Str.words : Str → List Str
  | [] => []
  | c :: rest =>
      if Re.isSpace c then Str.words rest
      else match rest with
        | [] => [[c]]
        | d :: _ =>
            if Re.isSpace d then [c] :: Str.words rest
            else match Str.words rest with
              | [] => [[c]]
              | word :: words => (c :: word) :: words

/-- What `os.walk` finds: a directory with its names, or another name. -/
inductive Shape where
  | other
  | dir (entries : List (Str × Shape))

def Shape.isDir : Shape → Bool
  | .other => false
  | .dir _ => true

/-- A file system that is walked. -/
structure Tree extends Disk where
  isSymlink : Path → Bool
  /-- `read_text(errors="replace")`. -/
  lossy : Path → Except Exc Str
  walked : Path → Shape

end Py

namespace DevGate.Manifest

open Py Canon

def subjectError : ExcClass := .user "SubjectError" .valueError

def norm (fold : Folding) (path : Str) : Str := fold.nfc path.slashed

/-- Is `p` the root, or below it? -/
def inside (root p : Path) : Bool := root.isParent p || p == root

/-- `_check_safe`. -/
def checkSafe (disk : Disk) (rel : Str) (root : Path) : Except Exc Unit := do
  ensure (rel.head? ≠ some (Chr.ofChar '/') ∧ rel.head? ≠ some (Chr.ofChar '~'))
    ⟨subjectError, ["absolute path not allowed: ", .repr (.str rel)]⟩
  ensure (∀ p ∈ Str.split (Chr.ofChar '/') rel, p ≠ [] ∧ p ≠ "." ∧ p ≠ "..")
    ⟨subjectError, ["path traversal or empty segment: ", .repr (.str rel)]⟩
  let resolved ← disk.resolve (root.join rel)
  ensure (inside root resolved) ⟨subjectError, ["path escapes root: ", .repr (.str rel)]⟩

/-- `_escapes`. -/
def escapes (disk : Disk) (fp root : Path) : Except Exc Bool :=
  match disk.resolve fp with
  | .ok resolved => .ok (!inside root resolved)
  | .error e => if e.isA [.osError] then .ok true else .error e

/-- `_SHA_RE.fullmatch`. -/
def isCommit (s : Str) : Bool :=
  40 ≤ s.length && s.length ≤ 64 &&
    s.all (fun c => "0123456789abcdef".toList.any (fun d => c == Chr.ofChar d))

/-- The stripped text of a file; nothing where it cannot be read. -/
def stripped (tree : Tree) (p : Path) : Except Exc (Option Str) :=
  match tree.lossy p with
  | .ok text => .ok (some (Str.strip text))
  | .error e => if e.isA [.osError] then .ok none else .error e

/-- The pin of `ref` in `packed-refs`. -/
def packed (ref text : Str) : Option Str :=
  text.splitlines.findSome? (fun line =>
    match line.words with
    | [sha, name] => if name = ref ∧ isCommit sha = true then some sha else none
    | _ => none)

/-- A `ref:`, through the loose refs and then the packed ones. -/
def followRef (tree : Tree) (gitdir : Path) (ref : Str) : Except Exc (Option Str) := do
  match (← stripped tree (gitdir.join ref)).filter isCommit with
  | some sha => return some sha
  | none =>
      match tree.lossy (gitdir.join "packed-refs") with
      | .ok text => return packed ref text
      | .error e => if e.isA [.osError] then return none else .error e

def stripPrefix? (front s : Str) : Option Str :=
  if front <+: s then some (s.drop front.length) else none

/-- `_gitlink_commit`. -/
def gitlinkCommit (tree : Tree) (subdir : Path) : Except Exc (Option Str) := do
  match ← stripped tree (subdir.join ".git") with
  | none => return none
  | some raw =>
      match stripPrefix? "gitdir:" raw with
      | none => return none
      | some target =>
          let gitdir := subdir.join (Str.strip target)
          match ← stripped tree (gitdir.join "HEAD") with
          | none => return none
          | some head =>
              if isCommit head then return some head
              else match stripPrefix? "ref:" head with
                | none => return none
                | some ref => followRef tree gitdir (Str.strip ref)

/-- `_check_collision`. -/
def checkCollision (fold : Folding) (seen : Dict Str Str) (rel : Str) :
    Except Exc (Dict Str Str) :=
  match Dict.get? seen (fold.casefold rel) with
  | some other => .error ⟨subjectError, ["path normalization collision: ", .repr (.str rel), " vs ",
      .repr (.str other)]⟩
  | none => .ok (Dict.set seen (fold.casefold rel) rel)

/-- `_digest_file`: the digest of the file's SHA-256. -/
def digestFile (disk : Disk) (fp : Path) : Except Exc Str := do
  return Canon.digest .file (Sha256.digest (← disk.read fp))

def defaultExcludes : List Str :=
  [".git", "node_modules", "__pycache__", ".venv", "venv", "dist", "build", "target"]

/-- What is recorded of a name. -/
inductive Kind where
  | dirLink
  | submodule
  | excluded
  | fileLink
  | file
  deriving DecidableEq

/-- A name that is recorded, as the segments below the root. -/
structure Found where
  names : List Str
  kind : Kind
  deriving DecidableEq

/-- What a directory is recorded as; nothing where it is descended. -/
def dirKind (tree : Tree) (excludes : List Str) (at_ : Path) (name : Str) : Option Kind :=
  if tree.isSymlink at_ then some .dirLink
  else if tree.isFile (at_.join ".git") then some .submodule
  else if name ∈ excludes then some .excluded
  else none

/-- A name of a directory: is it a directory itself, and what is recorded below it? -/
abbrev Kid := Str × Bool × List Found

/-- What a directory records: its directories that are not descended, its other names, and what
the rest of its directories record. -/
def recorded (tree : Tree) (root : Path) (excludes : List Str) (names : List Str)
    (kids : List Kid) : List Found :=
  let dirs := Json.sortKeys (kids.filter (fun kid => kid.2.1))
  let files := Json.sortKeys (kids.filter (fun kid => !kid.2.1))
  let kindOf := fun (name : Str) => dirKind tree excludes (root.sub (names ++ [name])) name
  dirs.filterMap (fun kid => (kindOf kid.1).map (fun kind => ⟨names ++ [kid.1], kind⟩)) ++
    files.map (fun kid =>
      ⟨names ++ [kid.1],
        if tree.isSymlink (root.sub (names ++ [kid.1])) then .fileLink else .file⟩) ++
    (dirs.filter (fun kid => (kindOf kid.1).isNone)).flatMap (fun kid => kid.2.2)

mutual

/-- The names recorded of a tree, in walk order. -/
def walk (tree : Tree) (root : Path) (excludes : List Str) (names : List Str) : Shape → List Found
  | .other => []
  | .dir entries => recorded tree root excludes names (walkAll tree root excludes names entries)

def walkAll (tree : Tree) (root : Path) (excludes : List Str) (names : List Str) :
    List (Str × Shape) → List Kid
  | [] => []
  | (name, shape) :: rest =>
      (name, shape.isDir, walk tree root excludes (names ++ [name]) shape) ::
        walkAll tree root excludes names rest

end

/-- The path a name is recorded under. -/
def rel (fold : Folding) (names : List Str) : Str := norm fold (Str.join "/" names)

def entry (path kind : Str) (digest outcome size : Value) : Value :=
  .dict [("path", .str path), ("kind", .str kind), ("digest", digest), ("policy_outcome", outcome),
    ("size_bytes", size)]

/-- The entry of a name. -/
def describe (tree : Tree) (root : Path) (path : Str) (found : Found) : Except Exc Value :=
  let fp := root.sub found.names
  match found.kind with
  | .dirLink => do
      let escaped ← escapes tree.toDisk fp root
      return entry path "symlink" .null
        (.str (if escaped then "symlink-escape" else "symlink-forbidden")) .null
  | .submodule => do
      let outcome : Str := match ← gitlinkCommit tree fp with
        | some sha => "submodule-pinned:" ++ sha
        | none => "submodule-unresolved"
      return entry path "submodule" .null (.str outcome) .null
  | .excluded =>
      return entry path "excluded" .null
        (.str ("excluded-by-policy:" ++ found.names.getLastD [])) .null
  | .fileLink => return entry path "symlink" .null (.str "symlink-forbidden") .null
  | .file => do
      let data ← tree.read fp
      return entry path "file" (.str (← digestFile tree.toDisk fp)) .null (.int data.length)

/-- Only the names of files are checked for safety. -/
def checkName (disk : Disk) (root : Path) (path : Str) (kind : Kind) : Except Exc Unit :=
  if kind = .file ∨ kind = .fileLink then checkSafe disk path root else .ok ()

/-- The checks of a name, and its entry. -/
def record (tree : Tree) (fold : Folding) (root : Path) (seen : Dict Str Str) (found : Found) :
    Except Exc (Dict Str Str × Value) := do
  let path := rel fold found.names
  let _ ← checkName tree.toDisk root path found.kind
  let seen ← checkCollision fold seen path
  return (seen, ← describe tree root path found)

def recordAll (tree : Tree) (fold : Folding) (root : Path) :
    Dict Str Str → List Found → Except Exc (List Value)
  | _, [] => .ok []
  | seen, found :: rest => do
      let (seen, entry) ← record tree fold root seen found
      return entry :: (← recordAll tree fold root seen rest)

def manifestOf (kind : Value) (entries : List Value) : Dict Str Value :=
  [("api_version", .str "devgate.spec-coherence.subject-manifest/v1"), ("subject_kind", kind),
    ("entries", .list entries)]

/-- `build`. -/
def build (tree : Tree) (fold : Folding) (root : Str) (kind : Value) (excludes : List Str) :
    Except Exc Value := do
  let rootP ← tree.resolve (Path.ofStr root)
  if tree.isDir rootP then
    let entries ← recordAll tree fold rootP [] (walk tree rootP excludes [] (tree.walked rootP))
    let manifest := manifestOf kind entries
    let digest ← digestObj .subjectManifest (.dict manifest)
    return .dict (manifest ++ [(("subject_digest" : Str), Value.str digest)])
  else .error ⟨subjectError, ["subject root is not a directory: ", .repr (.str root)]⟩

/-- What is compared of an entry. -/
def drift (e : Value) : Except Exc (List Key) :=
  [("path" : Str), "kind", "digest", "policy_outcome"].mapM (fun field => do
    ((← e.get field).getD .null).key)

/-- The path of the first entry that is not among these. -/
def firstOutside (known : List (List Key)) : List Value → Except Exc (Option Value)
  | [] => .ok none
  | e :: rest => do
      let key ← drift e
      if key ∈ known then firstOutside known rest else return some (← e.item "path")

/-- `first_mutation`. -/
def firstMutation (tree : Tree) (fold : Folding) (snapshot : Value) (root : Str) :
    Except Exc (Option Value) := do
  let kind ← snapshot.get "subject_kind"
  match build tree fold root (kind.getD (.str "source-tree")) defaultExcludes with
  | .error e => if e.isA [subjectError] then .ok (some (.str "<tree-unbuildable>")) else .error e
  | .ok current => do
      let before ← (← snapshot.item "entries").iter
      let after ← (← current.item "entries").iter
      let old ← before.mapM drift
      let new ← after.mapM drift
      match ← firstOutside new before with
      | some path => return some path
      | none => firstOutside old after

end DevGate.Manifest
