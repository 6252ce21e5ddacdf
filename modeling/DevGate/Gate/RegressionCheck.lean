import DevGate.Gate.Diff

set_option autoImplicit false

/- `regression_check.py`: the prevention rules and the failure registry, the two
checks of added lines, and what one run scans. -/
namespace DevGate.Gate.Regression

open Py Diff

/-- The interpreter's `re` and `fnmatch`: a pattern compiles to its search, or
fails with a message. -/
structure Matching where
  compile : (pattern : Str) → (multiline : Bool) → Except Str (Str → Bool)
  fnmatch : (name pattern : Str) → Bool

/-- A rule as `gate_overlay` resolves it; a missing text is empty. -/
structure Rule where
  ruleId : Option Str
  name : Option Str
  message : Option Str
  severity : Option Str
  suggestion : Option Str
  failureId : Option Str
  enabled : Bool
  ruleType : Str
  pattern : Str
  forbiddenContext : Str
  fileGlob : List Str

/-- An active or resolved entry of the failure registry. -/
structure Failure where
  failureId : Option Str
  status : Str
  severity : Option Str
  errorMessage : Str
  preventionRule : Str
  regressionPattern : Str
  fileGlob : List Str
  excludeGlob : List Str
  affectedFiles : List Str

/-- `path.rsplit("/", 1)[-1]`, which is `os.path.basename(path)`. -/
def baseName (path : Str) : Str := (Str.split ('/' : Char) path).getLastD []

section

variable (m : Matching)

def compiles (pattern : Str) : Bool :=
  match m.compile pattern false with
  | .ok _ => true
  | .error _ => false

/-- `validate_rule_regex`. -/
def validateRuleRegex (rule : Rule) : Bool :=
  (rule.pattern = [] || compiles m rule.pattern) &&
    (rule.forbiddenContext = [] || compiles m rule.forbiddenContext)

def usable (rule : Rule) : Bool :=
  rule.enabled && (rule.ruleType ≠ "pattern" || validateRuleRegex m rule)

def ruleRegistryError : ExcClass := .user "RuleRegistryError" .runtimeError

/-- `load_prevention_rules` over the resolved rules; `origin` says where they are from. -/
def loadPreventionRules (raw : List Rule) (origin : Str) : Except Exc (List Rule) :=
  let rules := raw.filter (usable m)
  if rules = [] then
    .error ⟨ruleRegistryError, ["prevention registry yielded ZERO usable rules (loaded ",
      .str (.int raw.length), " raw from ", .lit origin,
      ") — the gate would report success having checked nothing"]⟩
  else .ok rules

/-- `load_active_failures`. -/
def loadActiveFailures (entries : List Failure) : List Failure :=
  entries.filter (fun e => e.status = "active")

/-- `check_file_against_failures`. -/
def checkFileAgainstFailures (filePath : Str) (failures : List Failure) : List Failure :=
  failures.filter (fun f => f.affectedFiles.any (fun affected => m.fnmatch filePath affected))

/-- `rules_for_file`. -/
def rulesForFile (rules : List Rule) (filePath : Str) : List Rule :=
  rules.filter (fun rule => rule.fileGlob.isEmpty ||
    rule.fileGlob.any (fun g => m.fnmatch filePath g || m.fnmatch (baseName filePath) g))

structure Violation where
  ruleId : Option Str
  name : Option Str
  message : Option Str
  severity : Str
  suggestion : Option Str
  failureId : Option Str

/-- The added lines of one file's diff, as `check_diff_against_patterns` collects them. -/
def addedTexts (diffContent : Str) : List Str :=
  ((Str.split newline diffContent).filter
    (fun line => [plus].isPrefixOf line && !([plus, plus, plus].isPrefixOf line))).map (List.drop 1)

/-- `re.search(pattern, content, re.MULTILINE)`, nothing on `re.error`. -/
def searches (pattern content : Str) : Option Bool :=
  match m.compile pattern true with
  | .ok search => some (search content)
  | .error _ => none

/-- One rule against the added lines of a file. -/
def ruleViolation (content : Str) (rule : Rule) : Option Violation :=
  if rule.ruleType ≠ "pattern" ∨ rule.pattern = [] then none
  else if searches m rule.pattern content ≠ some true then none
  else if rule.forbiddenContext ≠ [] ∧ searches m rule.forbiddenContext content ≠ some false then none
  else some ⟨rule.ruleId, rule.name, rule.message, rule.severity.getD "warning", rule.suggestion,
    rule.failureId⟩

/-- `check_diff_against_patterns`. -/
def checkDiffAgainstPatterns (diffContent : Str) (rules : List Rule) : List Violation :=
  rules.filterMap (ruleViolation m (Str.join [newline] (addedTexts diffContent)))

def advisorySeverities : List Str := ["low", "medium", "warning", "info"]

/-- `blocks`: an empty severity is as good as none. -/
def blocks (u : Unicode) (severity : Option Str) (default : Str) : Bool :=
  !advisorySeverities.contains (u.lower ((given severity).getD default))

/-- `is_blocking`. -/
def isBlocking (u : Unicode) (failures : List Failure) (violations : List Violation) : Bool :=
  failures.any (fun f => blocks u f.severity "high") ||
    violations.any (fun v => blocks u (some v.severity) "warning")

structure FileIssues where
  file : Str
  failures : List Failure
  violations : List Violation
  blocking : Bool

/-- What the loop of `run_regression_check` reports of one file. -/
def fileIssues (u : Unicode) (failures : List Failure) (rules : List Rule) (file : Str × Str) :
    Option FileIssues :=
  let matching := checkFileAgainstFailures m file.1 failures
  let violations :=
    if file.2 = [] then [] else checkDiffAgainstPatterns m file.2 (rulesForFile m rules file.1)
  if matching.isEmpty && violations.isEmpty then none
  else some ⟨file.1, matching, violations, isBlocking u matching violations⟩

end

/-- The changed files, each with the diff the pattern rules are run on. -/
def fileDiffs (u : Unicode) (runGit : Git) (staged unstaged : Bool) (gitRange : Option Str) :
    Except Exc (List (Str × Str)) := do
  let changed ← getChangedFiles u runGit staged unstaged gitRange
  return changed.map (fun file => (file, getDiffContent runGit file staged gitRange))

/-- The rule files and the registry of a project, resolved. -/
structure Registries where
  rules : List Rule
  origin : Str
  entries : List Failure

/-- `run_regression_check`. -/
def runRegressionCheck (u : Unicode) (m : Matching) (runGit : Git) (reg : Registries)
    (staged unstaged : Bool) (gitRange : Option Str) :
    Except Exc (Nat × List FileIssues × Nat) := do
  let failures := loadActiveFailures reg.entries
  let rules ← loadPreventionRules m reg.rules reg.origin
  let files ← fileDiffs u runGit staged unstaged gitRange
  let issues := files.filterMap (fileIssues m u failures rules)
  return (issues.length, issues, files.length)

/-! The registry's patterns. -/

def selfReferential : List Str :=
  [".guardrails/failure-registry.jsonl", ".guardrails/prevention-rules/pattern-rules.json"]

def literal : Str → Re
  | [] => Re.word []
  | c :: rest => .seq (.chr (fun d => d == c)) (literal rest)

/-- `guardrails-allow\s+<id>\s*:`. -/
def allowPattern (i : Str) : Re :=
  .seq (Re.word "guardrails-allow".toList) (.seq (Re.plus true Re.space)
    (.seq (literal i) (.seq (.star true Re.space) (Re.char ':'))))

/-- `line_has_allow`. -/
def lineHasAllow (line : Str) (ids : List Str) : Bool :=
  ids.any (fun i => i ≠ [] && (Re.searchFrom (allowPattern i) none line).isSome)

/-- `s.replace(old, new, 1)` where `old` occurs. -/
def replaceOnce (old new : Str) : Str → Option Str
  | [] => if old = [] then some new else none
  | c :: rest =>
      if old.isPrefixOf (c :: rest) then some (new ++ (c :: rest).drop old.length)
      else (replaceOnce old new rest).map (c :: ·)

/-- The globs `_expand_globstars` yields for one. -/
def expandGlobstar (g : Str) : List Str :=
  let stripped := g.take (g.length - 3)
  let trailing := (("/**" : Str).isSuffixOf g)
  [g] ++ (if trailing then [stripped ++ ("*" : Str)] else []) ++
    (replaceOnce "/**/" "/" g).toList ++
    (if trailing then (replaceOnce "/**/" "/" stripped).toList else [])

/-- `glob_matches`. -/
def globMatches (m : Matching) (path : Str) (globs : List Str) : Bool :=
  (globs.flatMap expandGlobstar).any (fun g => m.fnmatch (baseName path) g || m.fnmatch path g)

structure Compiled where
  entry : Failure
  search : Str → Bool

/-- One entry of `compile_registry_patterns`: a matcher, a warning or neither. -/
def compileEntry (m : Matching) (entry : Failure) : List Compiled × List Str :=
  let pattern := Str.strip entry.regressionPattern
  if pattern = [] then ([], [])
  else match m.compile pattern false with
    | .ok search => ([⟨entry, search⟩], [])
    | .error exc => ([], [("invalid regression_pattern in " : Str) ++ entry.failureId.getD "?" ++
        (" (" : Str) ++ exc ++ ("): " : Str) ++ pattern])

/-- `compile_registry_patterns`. -/
def compileRegistryPatterns (m : Matching) (entries : List Failure) : List Compiled × List Str :=
  ((entries.map (compileEntry m)).flatMap Prod.fst, (entries.map (compileEntry m)).flatMap Prod.snd)

structure RegistryViolation where
  file : Str
  line : Nat
  failureId : Str
  severity : Str
  errorMessage : Str
  preventionRule : Str
  pattern : Str
  added : Str

/-- One compiled pattern against one added line. -/
def registryHit (m : Matching) (a : Added) (item : Compiled) : Bool :=
  (item.entry.fileGlob.isEmpty || globMatches m a.path item.entry.fileGlob) &&
    !(!item.entry.excludeGlob.isEmpty && globMatches m a.path item.entry.excludeGlob) &&
    !lineHasAllow a.text [item.entry.failureId.getD [], item.entry.preventionRule] &&
    item.search a.text

/-- `check_added_against_registry`. -/
def checkAddedAgainstRegistry (m : Matching) (added : List Added) (compiled : List Compiled) :
    List RegistryViolation :=
  added.flatMap (fun a =>
    if selfReferential.contains a.path then []
    else (compiled.filter (registryHit m a)).map (fun item =>
      ⟨a.path, a.lineno, item.entry.failureId.getD "?", item.entry.severity.getD "high",
        item.entry.errorMessage, item.entry.preventionRule, item.entry.regressionPattern,
        (Str.strip a.text).take 120⟩))

/-! The command line. -/

/-- The exclusive group of scope flags; `--staged` is its default. -/
inductive Selection where
  | staged
  | unstaged
  | all
  | range (revRange : Str)
  deriving DecidableEq

structure Args where
  selection : Selection
  base : Option Str
  failIfEmpty : Bool

namespace Args

def unstagedFlag (args : Args) : Bool := args.selection = .unstaged
def allFlag (args : Args) : Bool := args.selection = .all

def rangeFlag (args : Args) : Option Str :=
  match args.selection with
  | .range revRange => some revRange
  | _ => none

/-- The scopes `main` passes on. -/
def scope (args : Args) : Scope :=
  let staged := !args.unstagedFlag && !args.allFlag && (given args.rangeFlag).isNone
  { staged := args.allFlag || staged
    unstaged := args.unstagedFlag || args.allFlag
    allScope := args.allFlag
    base := args.base
    gitRange := args.rangeFlag }

end Args

/-- What `main` has found when it comes to its report. -/
structure Outcome where
  count : Nat
  issues : List FileIssues
  filesScanned : Nat
  added : List Added
  vacuous : Bool
  registryViolations : List RegistryViolation
  patternWarnings : List Str

/-- `main`, but for the file sizes and the package audit. -/
def main (u : Unicode) (m : Matching) (runGit : Git) (reg : Registries) (args : Args) :
    Except Exc Outcome := do
  let scope := args.scope
  let run ← runRegressionCheck u m runGit reg scope.staged scope.unstaged scope.gitRange
  let added ← getAddedLines u runGit scope
  let filesScanned :=
    if (given args.base).isSome || (given args.rangeFlag).isSome then
      max run.2.2 (added.map Added.path).dedup.length
    else run.2.2
  let (compiled, warnings) := compileRegistryPatterns m reg.entries
  return { count := run.1
           issues := run.2.1
           filesScanned := filesScanned
           added := added
           vacuous := filesScanned == 0 && added.isEmpty
           registryViolations := checkAddedAgainstRegistry m added compiled
           patternWarnings := warnings }

end DevGate.Gate.Regression
