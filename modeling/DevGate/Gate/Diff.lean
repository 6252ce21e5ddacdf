import DevGate.Py.Number

set_option autoImplicit false

/- `regression_diff.py`: the added lines of a diff, and the diffs of the scopes
a run is asked for. -/
namespace DevGate.Gate.Diff

open Py

/-- An added line: its file, its number in the new file and its text. -/
structure Added where
  path : Str
  lineno : Nat
  text : Str
  deriving DecidableEq

def newline : Chr := '\n'
def plus : Chr := '+'
def minus : Chr := '-'
def blank : Chr := ' '
def atSign : Chr := '@'

def header : Str := [plus, plus, plus, blank]
def devNull : Str := "/dev/null"

/-- `re.sub(r"^b/", "", target)`. -/
def fileName : Str → Str
  | [] => []
  | [c] => [c]
  | c :: d :: rest => if c = ('b' : Char) ∧ d = ('/' : Char) then rest else c :: d :: rest

/-- `\d`: the ASCII digits, and what the interpreter's table adds to them. -/
def digitOf (u : Unicode) (c : Chr) : Option Nat :=
  if c.val < 128 then
    if 48 ≤ c.val ∧ c.val ≤ 57 then some (c.val - 48) else none
  else u.decimal c

/-- `\d*` at the front of a text. -/
def digitRun (u : Unicode) : Str → List Nat
  | [] => []
  | c :: rest =>
      match digitOf u c with
      | some d => d :: digitRun u rest
      | none => []

/-- The group of `re.search(r"\+(\d+)", raw)`, empty where nothing matches. -/
def plusDigits (u : Unicode) : Str → List Nat
  | [] => []
  | c :: rest =>
      if c = plus ∧ digitRun u rest ≠ [] then digitRun u rest else plusDigits u rest

/-- `int(m.group(1)) if m else 0`. -/
def hunkStart (u : Unicode) (raw : Str) : Except Exc Nat :=
  let ds := plusDigits u raw
  if Json.maxDigits < ds.length then
    .error ⟨.valueError, ["Exceeds the limit (4300 digits) for integer string conversion: ",
      "value has ", .str (.int ds.length), " digits; ",
      "use sys.set_int_max_str_digits() to increase the limit"]⟩
  else .ok (natOfDigits ds)

/-- The loop state of `parse_diff`. -/
structure Reader where
  path : Str
  lineno : Nat
  added : List Added

/-- The file a `+++ ` line names: none for a deleted one. -/
def target (raw : Str) : Option Str :=
  let name := Str.strip (raw.drop 4)
  if name = devNull then none else some (fileName name)

/-- One line of `parse_diff`'s loop. -/
def readLine (u : Unicode) (r : Reader) (raw : Str) : Except Exc Reader :=
  if header.isPrefixOf raw then .ok { r with path := (target raw).getD [] }
  else if [atSign, atSign].isPrefixOf raw then do
    let n ← hunkStart u raw
    return { r with lineno := n }
  else if [plus].isPrefixOf raw && !([plus, plus, plus].isPrefixOf raw) then
    .ok { r with
      lineno := r.lineno + 1
      added := if r.path = [] then r.added else r.added ++ [⟨r.path, r.lineno, raw.drop 1⟩] }
  else if [minus].isPrefixOf raw && !([minus, minus, minus].isPrefixOf raw) then .ok r
  else if [blank].isPrefixOf raw then .ok { r with lineno := r.lineno + 1 }
  else .ok r

/-- `parse_diff`. -/
def parseDiff (u : Unicode) (diff : Str) : Except Exc (List Added) := do
  let r ← (Str.split newline diff).foldlM (readLine u) ⟨[], 0, []⟩
  return r.added

/-- What `run_git_command` returns. -/
structure Answer where
  rc : Int
  stdout : Str
  stderr : Str
  deriving DecidableEq

/-- `run_git_command`, while the repository stays as it is. -/
abbrev Git := List Str → Answer

def emptyTree : Str := "4b825dc642cb6eb9a060e54bf8d69288fbee4904"

/-- `resolve_all_base`. -/
def resolveAllBase (u : Unicode) (runGit : Git) : Str :=
  let described := runGit ["describe", "--tags", "--abbrev=0"]
  let base := if described.rc = 0 then Str.strip described.stdout else []
  if base ≠ [] then base
  else
    let counted := runGit ["rev-list", "--count", "HEAD"]
    let count := if counted.rc = 0 then (u.int? (Str.strip counted.stdout)).getD 0 else 0
    if count > 20 then "HEAD~20" else emptyTree

/-- `s.split()`. -/
def words (s : Str) : List Str := (s.splitOnP Re.isSpace).filter (fun w => w ≠ [])

/-- The scopes as `_collect_git_scope` takes them. -/
structure Scope where
  staged : Bool
  unstaged : Bool
  allScope : Bool
  base : Option Str
  gitRange : Option Str

/-- A text the source tests for truth: the empty one is as good as none. -/
def given (ref : Option Str) : Option Str := ref.filter (fun s => s ≠ [])

def stagedDiff : List Str := ["diff", "--cached"]
def unstagedDiff : List Str := ["diff"]

/-- The range `--all` stands for. -/
def allRange (u : Unicode) (runGit : Git) : Str :=
  let base := resolveAllBase u runGit
  if base ≠ emptyTree then base ++ ("...HEAD" : Str) else base ++ (" HEAD" : Str)

def allDiff (u : Unicode) (runGit : Git) : List Str := "diff" :: words (allRange u runGit)
def baseDiff (base : Str) : List Str := ["diff", base ++ ("...HEAD" : Str)]
def rangeDiff (range : Str) : List Str := ["diff", range]

/-- A diff that is left out where git fails. -/
def quietly (runGit : Git) (cmd : List Str) : List Str :=
  if (runGit cmd).rc = 0 then [(runGit cmd).stdout] else []

/-- A diff that raises where git fails; `flag` and `hint` are the message's. -/
def loudly (runGit : Git) (cmd : List Str) (flag : Str) (range : Str) (hint : Str) :
    Except Exc (List Str) :=
  let answer := runGit cmd
  if answer.rc ≠ 0 then
    let detail := if answer.stderr ≠ [] then answer.stderr else answer.stdout
    .error ⟨.runtimeError, [.lit flag, " regression scan could not diff ", .lit range, ": ",
      .lit (Str.strip detail), " (", .lit hint, ")"]⟩
  else .ok [answer.stdout]

def collectAll (u : Unicode) (runGit : Git) (asked : Bool) : Except Exc (List Str) :=
  if asked then
    loudly runGit (allDiff u runGit) "--all" (allRange u runGit)
      "is the checkout shallow? fetch full history + tags before running the gate"
  else .ok []

def collectBase (runGit : Git) (base : Option Str) : Except Exc (List Str) :=
  match given base with
  | none => .ok []
  | some ref =>
      loudly runGit (baseDiff ref) "--base" (ref ++ ("...HEAD" : Str))
        "does the ref exist in this checkout? fetch it before running the gate"

def collectRange (runGit : Git) (gitRange : Option Str) : Except Exc (List Str) :=
  match given gitRange with
  | none => .ok []
  | some range =>
      loudly runGit (rangeDiff range) "--range" range
        "do the endpoints exist in this checkout? fetch them before running the gate"

/-- `_collect_git_scope`. -/
def collectGitScope (u : Unicode) (runGit : Git) (s : Scope) : Except Exc (List Str) := do
  let staged := if s.staged then quietly runGit stagedDiff else []
  let unstaged := if s.unstaged then quietly runGit unstagedDiff else []
  let all ← collectAll u runGit s.allScope
  let base ← collectBase runGit s.base
  let range ← collectRange runGit s.gitRange
  return staged ++ unstaged ++ all ++ base ++ range

/-- `get_added_lines`. -/
def getAddedLines (u : Unicode) (runGit : Git) (s : Scope) : Except Exc (List Added) := do
  let blobs ← collectGitScope u runGit s
  let lines ← blobs.mapM (parseDiff u)
  return lines.flatten

/-- The files that the `+++ ` lines of one diff name. -/
def headed (blob : Str) : List Str :=
  (Str.split newline blob).filterMap
    (fun raw => if header.isPrefixOf raw then target raw else none)

/-- `get_changed_files`. -/
def getChangedFiles (u : Unicode) (runGit : Git) (staged unstaged : Bool) (gitRange : Option Str) :
    Except Exc (List Str) := do
  let blobs ← collectGitScope u runGit ⟨staged, unstaged, false, none, gitRange⟩
  return Str.sorted (blobs.flatMap headed).dedup

/-- The command of `get_diff_content`. -/
def contentDiff (filePath : Str) (staged : Bool) (gitRange : Option Str) : List Str :=
  (match given gitRange with
    | some range => rangeDiff range
    | none => if staged then stagedDiff else unstagedDiff) ++ [("--" : Str), filePath]

/-- `get_diff_content`. -/
def getDiffContent (runGit : Git) (filePath : Str) (staged : Bool) (gitRange : Option Str) : Str :=
  let answer := runGit (contentDiff filePath staged gitRange)
  if answer.rc = 0 ∨ answer.rc = 1 then answer.stdout else []

end DevGate.Gate.Diff
