import DevGate.Gate.Patch
import DevGate.Gate.RegressionCheck

set_option autoImplicit false

/- Which added lines of the requested scopes the two checks of a run see. -/
namespace DevGate.Gate

open Py Fold Diff

namespace Diff

namespace Scope

/-- The diffs that are left out where git fails. -/
def quiet (s : Scope) : List (List Str) :=
  (if s.staged then [stagedDiff] else []) ++ if s.unstaged then [unstagedDiff] else []

/-- The diffs a failure of git raises for. -/
def loud (u : Unicode) (runGit : Git) (s : Scope) : List (List Str) :=
  (if s.allScope then [allDiff u runGit] else []) ++ ((given s.base).map baseDiff).toList ++
    ((given s.gitRange).map rangeDiff).toList

/-- The diffs git is asked for. -/
def asked (u : Unicode) (runGit : Git) (s : Scope) : List (List Str) :=
  s.quiet ++ s.loud u runGit

/-- The scope as `get_changed_files` takes it. -/
def uncommitted (s : Scope) : Scope := ⟨s.staged, s.unstaged, false, none, s.gitRange⟩

end Scope

/-- What git printed for those commands that it carried out. -/
def printed (runGit : Git) (cmds : List (List Str)) : List Str :=
  (cmds.filter (fun cmd => (runGit cmd).rc = 0)).map (fun cmd => (runGit cmd).stdout)

section

variable {u : Unicode} {runGit : Git}

theorem printed_append (front back : List (List Str)) :
    printed runGit (front ++ back) = printed runGit front ++ printed runGit back := by
  simp only [printed, List.filter_append, List.map_append]

theorem mem_printed {cmds : List (List Str)} {blob : Str} :
    blob ∈ printed runGit cmds ↔
      ∃ cmd ∈ cmds, (runGit cmd).rc = 0 ∧ (runGit cmd).stdout = blob := by
  simp only [printed, List.mem_map, List.mem_filter, decide_eq_true_eq, and_assoc]

theorem quietly_eq (asked : Bool) (cmd : List Str) :
    (if asked then quietly runGit cmd else []) = printed runGit (if asked then [cmd] else []) := by
  cases asked with
  | false => rfl
  | true =>
      by_cases ran : (runGit cmd).rc = 0
      · simp [quietly, printed, ran]
      · simp [quietly, printed, ran]

theorem loudly_ok {cmd : List Str} {flag range hint : Str} {out : List Str} :
    loudly runGit cmd flag range hint = .ok out ↔
      (∀ c ∈ [cmd], (runGit c).rc = 0) ∧ out = printed runGit [cmd] := by
  by_cases ran : (runGit cmd).rc = 0
  · simp [loudly, printed, ran, eq_comm]
  · simp [loudly, ran]

theorem collectAll_ok {asked : Bool} {out : List Str} :
    collectAll u runGit asked = .ok out ↔
      (∀ cmd ∈ (if asked then [allDiff u runGit] else []), (runGit cmd).rc = 0) ∧
        out = printed runGit (if asked then [allDiff u runGit] else []) := by
  cases asked with
  | false => simp [collectAll, printed, eq_comm]
  | true => exact loudly_ok

theorem collectBase_ok {base : Option Str} {out : List Str} :
    collectBase runGit base = .ok out ↔
      (∀ cmd ∈ ((given base).map baseDiff).toList, (runGit cmd).rc = 0) ∧
        out = printed runGit ((given base).map baseDiff).toList := by
  unfold collectBase
  cases given base with
  | none => simp [printed, eq_comm]
  | some ref => exact loudly_ok

theorem collectRange_ok {range : Option Str} {out : List Str} :
    collectRange runGit range = .ok out ↔
      (∀ cmd ∈ ((given range).map rangeDiff).toList, (runGit cmd).rc = 0) ∧
        out = printed runGit ((given range).map rangeDiff).toList := by
  unfold collectRange
  cases given range with
  | none => simp [printed, eq_comm]
  | some revRange => exact loudly_ok

/-- The diffs of a scope are collected exactly when git carries out the loud ones. -/
theorem collectGitScope_ok {s : Scope} {blobs : List Str} :
    collectGitScope u runGit s = .ok blobs ↔
      (∀ cmd ∈ s.loud u runGit, (runGit cmd).rc = 0) ∧
        blobs = printed runGit (s.asked u runGit) := by
  unfold Scope.asked Scope.quiet Scope.loud
  simp only [List.forall_mem_append, printed_append]
  constructor
  · intro collected
    obtain ⟨all, first, rest⟩ := bind_ok.mp collected
    obtain ⟨base, second, rest⟩ := bind_ok.mp rest
    obtain ⟨range, third, same⟩ := bind_ok.mp rest
    rw [collectAll_ok] at first
    rw [collectBase_ok] at second
    rw [collectRange_ok] at third
    refine ⟨⟨⟨first.1, second.1⟩, third.1⟩, ?_⟩
    cases same
    rw [quietly_eq, quietly_eq, first.2, second.2, third.2]
    simp only [List.append_assoc]
  · rintro ⟨⟨⟨all, base⟩, range⟩, rfl⟩
    refine bind_ok.mpr ⟨_, collectAll_ok.mpr ⟨all, rfl⟩, ?_⟩
    refine bind_ok.mpr ⟨_, collectBase_ok.mpr ⟨base, rfl⟩, ?_⟩
    refine bind_ok.mpr ⟨_, collectRange_ok.mpr ⟨range, rfl⟩, ?_⟩
    rw [quietly_eq, quietly_eq]
    simp only [List.append_assoc]
    rfl

theorem mem_getChangedFiles {s : Scope} {files : List Str}
    (changed : getChangedFiles u runGit s.staged s.unstaged s.gitRange = .ok files) (file : Str) :
    file ∈ files ↔ ∃ cmd ∈ s.uncommitted.asked u runGit, (runGit cmd).rc = 0 ∧
      file ∈ headed (runGit cmd).stdout := by
  obtain ⟨blobs, collected, same⟩ := bind_ok.mp changed
  obtain ⟨-, rfl⟩ := collectGitScope_ok.mp collected
  cases same
  rw [(Str.perm_sorted _).mem_iff, List.mem_dedup, List.mem_flatMap]
  constructor
  · rintro ⟨blob, member, here⟩
    obtain ⟨cmd, inside, ran, rfl⟩ := mem_printed.mp member
    exact ⟨cmd, inside, ran, here⟩
  · rintro ⟨cmd, inside, ran, here⟩
    exact ⟨_, mem_printed.mpr ⟨cmd, inside, ran, rfl⟩, here⟩

theorem mem_getAddedLines {s : Scope} {added : List Added}
    (found : getAddedLines u runGit s = .ok added) (a : Added) :
    a ∈ added ↔ ∃ cmd ∈ s.asked u runGit, (runGit cmd).rc = 0 ∧
      ∃ lines, parseDiff u (runGit cmd).stdout = .ok lines ∧ a ∈ lines := by
  obtain ⟨blobs, collected, rest⟩ := bind_ok.mp found
  obtain ⟨pieces, parsed, same⟩ := bind_ok.mp rest
  obtain ⟨-, rfl⟩ := collectGitScope_ok.mp collected
  cases same
  obtain ⟨forth, back⟩ := mapM_members parsed
  rw [List.mem_flatten]
  constructor
  · rintro ⟨lines, member, here⟩
    obtain ⟨blob, inside, read⟩ := back lines member
    obtain ⟨cmd, known, ran, rfl⟩ := mem_printed.mp inside
    exact ⟨cmd, known, ran, lines, read, here⟩
  · rintro ⟨cmd, known, ran, lines, read, here⟩
    obtain ⟨lines', member, read'⟩ := forth _ (mem_printed.mpr ⟨cmd, known, ran, rfl⟩)
    rw [read] at read'
    cases read'
    exact ⟨lines, member, here⟩

end

end Diff

namespace Regression

/-- A project and its repository as it stands: git's diffs are unified diffs. -/
structure Project where
  git : Git
  patch : List Str → Patch
  prints : ∀ cmd, cmd.head? = some ("diff" : Str) → (git cmd).rc = 0 →
    (git cmd).stdout = Patch.print (patch cmd)
  registries : Registries

/-- The diffs the command line asks for. An empty `--base` or `--range` is one
like any other. -/
def Args.requested (u : Unicode) (runGit : Git) (args : Args) : List (List Str) :=
  (match args.selection with
    | .staged => [stagedDiff]
    | .unstaged => [unstagedDiff]
    | .all => [stagedDiff, unstagedDiff, allDiff u runGit]
    | .range revRange => [rangeDiff revRange]) ++ (args.base.map baseDiff).toList

section

variable (u : Unicode) (m : Matching) (project : Project) (args : Args)

/-- The run raises, or `--fail-if-empty` makes it exit with 2. -/
def Loud : Prop :=
  match main u m project.git project.registries args with
  | .error _ => True
  | .ok out => args.failIfEmpty = true ∧ out.vacuous = true

/-- The line is among those the registry's patterns are matched against. -/
def RegistryChecked (line : Str × Str) : Prop :=
  ∃ out, main u m project.git project.registries args = .ok out ∧
    ∃ a ∈ out.added, (a.path, a.text) = line

/-- The line is among those the rules for its file are searched for in. -/
def RulesChecked (line : Str × Str) : Prop :=
  ∃ files, fileDiffs u project.git args.scope.staged args.scope.unstaged args.scope.gitRange =
    .ok files ∧ ∃ diff, (line.1, diff) ∈ files ∧ line.2 ∈ addedTexts diff

/-- The run fails loudly, or git carried out every requested diff and both
checks see each added line of it. -/
def ScansEverything : Prop :=
  Loud u m project args ∨
    ∀ cmd ∈ args.requested u project.git, (project.git cmd).rc = 0 ∧
      ∀ line ∈ Patch.added (project.patch cmd),
        RegistryChecked u m project args line ∧ RulesChecked u project args line

/-- No rule is usable, or git cannot carry out the diff of `--all`'s range, of a
named `--base` or of a named `--range`. -/
def Unreadable : Prop :=
  (∀ rule ∈ project.registries.rules, usable m rule = false) ∨
    ∃ cmd ∈ args.scope.loud u project.git, (project.git cmd).rc ≠ 0

/-- No diff that git carries out names a changed file or has an added line. -/
def NothingToScan : Prop :=
  (∀ cmd ∈ args.scope.uncommitted.asked u project.git, (project.git cmd).rc = 0 →
    headed (project.git cmd).stdout = []) ∧
  ∀ cmd ∈ args.scope.asked u project.git, (project.git cmd).rc = 0 →
    parseDiff u (project.git cmd).stdout = .ok []

/-- Git's answer to the one diff of a file that the rules are run on has the line. -/
def HasLine (answer : Answer) (text : Str) : Prop :=
  (answer.rc = 0 ∨ answer.rc = 1) ∧ (plus :: text) ∈ Str.split newline answer.stdout

/-- What git must have answered for no added line to be missed. -/
structure NothingMissed : Prop where
  answered : ∀ cmd ∈ args.requested u project.git, (project.git cmd).rc = 0
  plain : ∀ cmd ∈ args.requested u project.git, ∀ line ∈ Patch.added (project.patch cmd),
    Plain line.2
  /-- Only an empty `--base` or `--range` is requested and not asked for. -/
  elsewhere : ∀ cmd ∈ args.requested u project.git, cmd ∉ args.scope.asked u project.git →
    ∀ line ∈ Patch.added (project.patch cmd), ∃ cmd' ∈ args.scope.asked u project.git,
      (project.git cmd').rc = 0 ∧ ∃ lines, parseDiff u (project.git cmd').stdout = .ok lines ∧
        ∃ a ∈ lines, (a.path, a.text) = line
  /-- The files of `--base` and of `--all`'s range are changed in the uncommitted diffs too. -/
  headed : ∀ cmd ∈ args.requested u project.git,
    cmd ∉ args.scope.uncommitted.asked u project.git →
    ∀ line ∈ Patch.added (project.patch cmd),
      ∃ cmd' ∈ args.scope.uncommitted.asked u project.git,
        (project.git cmd').rc = 0 ∧ line.1 ∈ Diff.headed (project.git cmd').stdout
  ruled : ∀ cmd ∈ args.requested u project.git, ∀ line ∈ Patch.added (project.patch cmd),
    HasLine (project.git (contentDiff line.1 args.scope.staged args.scope.gitRange)) line.2

end

section

variable {u : Unicode} {runGit : Git}

/-- Every command asked for is a `git diff`. -/
theorem head_asked {s : Scope} {cmd : List Str} (asked : cmd ∈ s.asked u runGit) :
    cmd.head? = some ("diff" : Str) := by
  have either (b : Bool) (c : List Str) (member : cmd ∈ if b then [c] else []) : cmd = c := by
    cases b with
    | false => exact absurd member List.not_mem_nil
    | true => exact List.mem_singleton.mp member
  have named (ref : Option Str) (f : Str → List Str) (member : cmd ∈ (ref.map f).toList) :
      ∃ r, cmd = f r := by
    cases ref with
    | none => exact absurd member List.not_mem_nil
    | some r => exact ⟨r, List.mem_singleton.mp member⟩
  simp only [Scope.asked, Scope.quiet, Scope.loud, List.mem_append] at asked
  rcases asked with (staged | unstaged) | (all | base) | range
  · rw [either _ _ staged]
    rfl
  · rw [either _ _ unstaged]
    rfl
  · rw [either _ _ all]
    rfl
  · obtain ⟨r, same⟩ := named _ _ base
    rw [same]
    rfl
  · obtain ⟨r, same⟩ := named _ _ range
    rw [same]
    rfl

theorem Scope.uncommitted_subset {s : Scope} {cmd : List Str}
    (asked : cmd ∈ s.uncommitted.asked u runGit) : cmd ∈ s.asked u runGit := by
  simp only [Scope.asked, Scope.loud, Scope.uncommitted, Scope.quiet, List.mem_append] at asked ⊢
  rcases asked with quiet | (all | base) | range
  · exact Or.inl quiet
  · exact absurd all List.not_mem_nil
  · exact absurd base List.not_mem_nil
  · exact Or.inr (Or.inr range)

theorem mem_addedTexts {diff text : Str} :
    text ∈ addedTexts diff ↔ (plus :: text) ∈ Str.split newline diff ∧ Plain text := by
  unfold addedTexts Plain
  simp only [List.mem_map, List.mem_filter, Bool.and_eq_true, Bool.not_eq_true',
    Bool.eq_false_iff, ne_eq, List.isPrefixOf_iff_prefix]
  constructor
  · rintro ⟨line, ⟨member, ⟨tail, same⟩, single⟩, rfl⟩
    rw [List.singleton_append] at same
    subst same
    refine ⟨member, fun front => single ?_⟩
    exact List.cons_prefix_cons.mpr ⟨rfl, front⟩
  · rintro ⟨member, plain⟩
    refine ⟨plus :: text, ⟨member, ⟨text, rfl⟩, fun front => plain ?_⟩, rfl⟩
    exact (List.cons_prefix_cons.mp front).2

theorem collectGitScope_ends {s : Scope} :
    Ends (collectGitScope u runGit s) ↔ ∀ cmd ∈ s.loud u runGit, (runGit cmd).rc = 0 := by
  constructor
  · rintro ⟨blobs, collected⟩
    exact (collectGitScope_ok.mp collected).1
  · intro ran
    exact ⟨_, collectGitScope_ok.mpr ⟨ran, rfl⟩⟩

theorem fileDiffs_ends {s : Scope} :
    Ends (fileDiffs u runGit s.staged s.unstaged s.gitRange) ↔
      ∀ cmd ∈ s.uncommitted.loud u runGit, (runGit cmd).rc = 0 := by
  rw [← collectGitScope_ends]
  constructor
  · intro ends
    obtain ⟨files, changed, -⟩ := ends_bind.mp ends
    obtain ⟨blobs, collected, -⟩ := bind_ok.mp changed
    exact ⟨blobs, collected⟩
  · intro ends
    exact (ends.bind (fun blobs _ => ends_ok _)).bind (fun files _ => ends_ok _)

theorem loadPreventionRules_ends {m : Matching} {raw : List Rule} {origin : Str} :
    Ends (loadPreventionRules m raw origin) ↔ ¬ ∀ rule ∈ raw, usable m rule = false := by
  unfold loadPreventionRules
  by_cases none : raw.filter (usable m) = []
  · rw [if_pos none]
    rw [List.filter_eq_nil_iff] at none
    constructor
    · exact fun ends => absurd ends (ends_error _)
    · intro some
      exact absurd (fun rule member => Bool.eq_false_iff.mpr (none rule member)) some
  · rw [if_neg none]
    constructor
    · intro _ all
      apply none
      rw [List.filter_eq_nil_iff]
      exact fun rule member => Bool.eq_false_iff.mp (all rule member)
    · exact fun _ => ends_ok _

end

section

variable {u : Unicode} {m : Matching} {project : Project} {args : Args}

/-- Git's diffs are read without an error: only git itself can fail. -/
theorem getAddedLines_ends {s : Scope} :
    Ends (getAddedLines u project.git s) ↔
      ∀ cmd ∈ s.loud u project.git, (project.git cmd).rc = 0 := by
  rw [← collectGitScope_ends]
  constructor
  · intro ends
    obtain ⟨blobs, collected, -⟩ := ends_bind.mp ends
    exact ⟨blobs, collected⟩
  · intro ends
    refine ends.bind (fun blobs collected => ?_)
    obtain ⟨-, rfl⟩ := collectGitScope_ok.mp collected
    refine Ends.bind (mapM_ends.mpr ?_) (fun lines _ => ends_ok _)
    intro blob member
    obtain ⟨cmd, asked, ran, same⟩ := mem_printed.mp member
    rw [← same, project.prints cmd (head_asked asked) ran]
    exact parseDiff_ends u (project.patch cmd)

theorem loud_of_uncommitted {s : Scope} {cmd : List Str}
    (loud : cmd ∈ s.uncommitted.loud u project.git) : cmd ∈ s.loud u project.git := by
  simp only [Scope.loud, Scope.uncommitted, List.mem_append] at loud ⊢
  rcases loud with (all | base) | range
  · exact absurd all List.not_mem_nil
  · exact absurd base List.not_mem_nil
  · exact Or.inr range

/-- What a run that raised nothing has read. -/
theorem main_ok {out : Outcome} (ran : main u m project.git project.registries args = .ok out) :
    getAddedLines u project.git args.scope = .ok out.added ∧
      ∃ files, fileDiffs u project.git args.scope.staged args.scope.unstaged
          args.scope.gitRange = .ok files ∧
        (out.vacuous = true ↔ files = [] ∧ out.added = []) := by
  obtain ⟨run, checked, rest⟩ := bind_ok.mp ran
  obtain ⟨added, found, same⟩ := bind_ok.mp rest
  obtain ⟨rules, -, rest⟩ := bind_ok.mp checked
  obtain ⟨files, diffs, counted⟩ := bind_ok.mp rest
  cases counted
  cases same
  refine ⟨found, files, diffs, ?_⟩
  simp only [Bool.and_eq_true, beq_iff_eq, List.isEmpty_iff]
  split
  · constructor
    · rintro ⟨none, empty⟩
      have few := Nat.le_max_left files.length (added.map Added.path).dedup.length
      rw [none] at few
      exact ⟨List.length_eq_zero_iff.mp (Nat.le_zero.mp few), empty⟩
    · rintro ⟨rfl, rfl⟩
      exact ⟨rfl, rfl⟩
  · rw [List.length_eq_zero_iff]

theorem main_ends :
    Ends (main u m project.git project.registries args) ↔ ¬ Unreadable u m project args := by
  unfold Unreadable
  rw [not_or, ← @loadPreventionRules_ends m project.registries.rules project.registries.origin]
  have clear : (¬ ∃ cmd ∈ args.scope.loud u project.git, (project.git cmd).rc ≠ 0) ↔
      ∀ cmd ∈ args.scope.loud u project.git, (project.git cmd).rc = 0 := by
    simp only [ne_eq, not_exists, not_and, not_not]
  rw [clear]
  constructor
  · intro ends
    obtain ⟨run, checked, rest⟩ := ends_bind.mp ends
    obtain ⟨added, found, -⟩ := ends_bind.mp rest
    obtain ⟨rules, loaded, -⟩ := bind_ok.mp checked
    exact ⟨⟨rules, loaded⟩, getAddedLines_ends.mp ⟨added, found⟩⟩
  · rintro ⟨loaded, carried⟩
    have diffs := (fileDiffs_ends (u := u) (s := args.scope)).mpr
      (fun cmd member => carried cmd (loud_of_uncommitted member))
    refine Ends.bind (loaded.bind (fun rules _ => diffs.bind (fun files _ => ends_ok _))) ?_
    intro run _
    exact (getAddedLines_ends.mpr carried).bind (fun added _ => ends_ok _)

theorem mem_fileDiffs {s : Scope} {files : List (Str × Str)}
    (diffs : fileDiffs u project.git s.staged s.unstaged s.gitRange = .ok files)
    (file diff : Str) :
    (file, diff) ∈ files ↔
      (∃ cmd ∈ s.uncommitted.asked u project.git, (project.git cmd).rc = 0 ∧
        file ∈ headed (project.git cmd).stdout) ∧
      diff = getDiffContent project.git file s.staged s.gitRange := by
  obtain ⟨changed, named, same⟩ := bind_ok.mp diffs
  cases same
  rw [← mem_getChangedFiles named]
  simp only [List.mem_map, Prod.mk.injEq]
  constructor
  · rintro ⟨file', member, rfl, rfl⟩
    exact ⟨member, rfl⟩
  · rintro ⟨member, rfl⟩
    exact ⟨file, member, rfl, rfl⟩

theorem mem_getDiffContent {file text : Str} {staged : Bool} {range : Option Str} :
    (plus :: text) ∈ Str.split newline (getDiffContent project.git file staged range) ↔
      HasLine (project.git (contentDiff file staged range)) text := by
  unfold getDiffContent HasLine
  by_cases ran : (project.git (contentDiff file staged range)).rc = 0 ∨
      (project.git (contentDiff file staged range)).rc = 1
  · rw [if_pos ran]
    simp only [ran, true_and]
  · rw [if_neg ran]
    simp only [ran, false_and, iff_false]
    simp [Str.split]

theorem rulesChecked_iff {out : Outcome}
    (ran : main u m project.git project.registries args = .ok out) (line : Str × Str) :
    RulesChecked u project args line ↔
      (∃ cmd ∈ args.scope.uncommitted.asked u project.git, (project.git cmd).rc = 0 ∧
        line.1 ∈ headed (project.git cmd).stdout) ∧
      HasLine (project.git (contentDiff line.1 args.scope.staged args.scope.gitRange)) line.2 ∧
      Plain line.2 := by
  obtain ⟨-, files, diffs, -⟩ := main_ok ran
  rw [← mem_getDiffContent]
  constructor
  · rintro ⟨files', same, diff, member, added⟩
    rw [diffs] at same
    cases same
    obtain ⟨named, rfl⟩ := (mem_fileDiffs diffs _ _).mp member
    exact ⟨named, mem_addedTexts.mp added⟩
  · rintro ⟨named, present, plain⟩
    exact ⟨files, diffs, _, (mem_fileDiffs diffs _ _).mpr ⟨named, rfl⟩,
      mem_addedTexts.mpr ⟨present, plain⟩⟩

theorem registryChecked_iff {out : Outcome}
    (ran : main u m project.git project.registries args = .ok out) (line : Str × Str) :
    RegistryChecked u m project args line ↔
      ∃ cmd ∈ args.scope.asked u project.git, (project.git cmd).rc = 0 ∧
        ∃ lines, parseDiff u (project.git cmd).stdout = .ok lines ∧
          ∃ a ∈ lines, (a.path, a.text) = line := by
  have found := (main_ok ran).1
  constructor
  · rintro ⟨out', same, a, member, here⟩
    rw [ran] at same
    cases same
    obtain ⟨cmd, asked, carried, lines, parsed, inside⟩ := (mem_getAddedLines found a).mp member
    exact ⟨cmd, asked, carried, lines, parsed, a, inside, here⟩
  · rintro ⟨cmd, asked, carried, lines, parsed, a, inside, here⟩
    exact ⟨out, ran, a, (mem_getAddedLines found a).mpr ⟨cmd, asked, carried, lines, parsed, inside⟩,
      here⟩

theorem vacuous_iff {out : Outcome}
    (ran : main u m project.git project.registries args = .ok out) :
    out.vacuous = true ↔ NothingToScan u project args := by
  obtain ⟨found, files, diffs, counted⟩ := main_ok ran
  rw [counted]
  unfold NothingToScan
  have noFile : files = [] ↔ ∀ cmd ∈ args.scope.uncommitted.asked u project.git,
      (project.git cmd).rc = 0 → headed (project.git cmd).stdout = [] := by
    constructor
    · rintro rfl cmd asked carried
      rw [List.eq_nil_iff_forall_not_mem]
      intro file named
      have member := (mem_fileDiffs diffs file _).mpr ⟨⟨cmd, asked, carried, named⟩, rfl⟩
      exact absurd member List.not_mem_nil
    · intro none
      rw [List.eq_nil_iff_forall_not_mem]
      rintro ⟨file, diff⟩ member
      obtain ⟨⟨cmd, asked, carried, named⟩, -⟩ := (mem_fileDiffs diffs file diff).mp member
      rw [none cmd asked carried] at named
      exact absurd named List.not_mem_nil
  have noLine : out.added = [] ↔ ∀ cmd ∈ args.scope.asked u project.git,
      (project.git cmd).rc = 0 → parseDiff u (project.git cmd).stdout = .ok [] := by
    constructor
    · intro empty cmd asked carried
      rw [project.prints cmd (head_asked asked) carried]
      obtain ⟨lines, parsed⟩ := parseDiff_ends u (project.patch cmd)
      rw [parsed]
      refine congrArg Except.ok (List.eq_nil_iff_forall_not_mem.mpr (fun a inside => ?_))
      rw [← project.prints cmd (head_asked asked) carried] at parsed
      have member := (mem_getAddedLines found a).mpr ⟨cmd, asked, carried, lines, parsed, inside⟩
      rw [empty] at member
      exact absurd member List.not_mem_nil
    · intro none
      rw [List.eq_nil_iff_forall_not_mem]
      intro a member
      obtain ⟨cmd, asked, carried, lines, parsed, inside⟩ := (mem_getAddedLines found a).mp member
      rw [none cmd asked carried] at parsed
      cases parsed
      exact absurd inside List.not_mem_nil
  rw [noFile, noLine]

/-- A diff that git carried out and whose lines look like no label is read line by line. -/
theorem printed_line {cmd : List Str} (diff : cmd.head? = some ("diff" : Str))
    (carried : (project.git cmd).rc = 0)
    (plain : ∀ line ∈ Patch.added (project.patch cmd), Plain line.2) {line : Str × Str}
    (added : line ∈ Patch.added (project.patch cmd)) :
    ∃ lines, parseDiff u (project.git cmd).stdout = .ok lines ∧
      ∃ a ∈ lines, (a.path, a.text) = line := by
  obtain ⟨lines, parsed, same⟩ := parseDiff_print u plain
  rw [project.prints cmd diff carried]
  rw [← same] at added
  obtain ⟨a, inside, here⟩ := List.mem_map.mp added
  exact ⟨lines, parsed, a, inside, here⟩

theorem scans_of_nothingMissed (clear : NothingMissed u project args) :
    ScansEverything u m project args := by
  cases ran : main u m project.git project.registries args with
  | error e =>
      refine Or.inl ?_
      rw [Loud, ran]
      trivial
  | ok out =>
      refine Or.inr (fun cmd requested => ⟨clear.answered cmd requested, fun line added => ⟨?_, ?_⟩⟩)
      · rw [registryChecked_iff ran]
        by_cases asked : cmd ∈ args.scope.asked u project.git
        · exact ⟨cmd, asked, clear.answered cmd requested, printed_line (head_asked asked)
            (clear.answered cmd requested) (clear.plain cmd requested) added⟩
        · exact clear.elsewhere cmd requested asked line added
      · rw [rulesChecked_iff ran]
        refine ⟨?_, clear.ruled cmd requested line added, clear.plain cmd requested line added⟩
        by_cases shared : cmd ∈ args.scope.uncommitted.asked u project.git
        · have carried := clear.answered cmd requested
          obtain ⟨lines, parsed, a, inside, here⟩ := printed_line (u := u)
            (head_asked (Scope.uncommitted_subset shared)) carried (clear.plain cmd requested) added
          refine ⟨cmd, shared, carried, ?_⟩
          rw [← here]
          exact parsed_headed parsed a inside
        · exact clear.headed cmd requested shared line added

theorem nothingMissed_of_scans (scans : ScansEverything u m project args) :
    Unreadable u m project args ∨ (args.failIfEmpty = true ∧ NothingToScan u project args) ∨
      NothingMissed u project args := by
  by_cases unreadable : Unreadable u m project args
  · exact Or.inl unreadable
  · obtain ⟨out, ran⟩ := main_ends.mpr unreadable
    refine Or.inr ?_
    rcases scans with loud | complete
    · rw [Loud, ran] at loud
      exact Or.inl ⟨loud.1, (vacuous_iff ran).mp loud.2⟩
    · have registry (cmd : List Str) (requested : cmd ∈ args.requested u project.git)
          (line : Str × Str) (added : line ∈ Patch.added (project.patch cmd)) :=
        (registryChecked_iff ran line).mp ((complete cmd requested).2 line added).1
      have rules (cmd : List Str) (requested : cmd ∈ args.requested u project.git)
          (line : Str × Str) (added : line ∈ Patch.added (project.patch cmd)) :=
        (rulesChecked_iff ran line).mp ((complete cmd requested).2 line added).2
      exact Or.inr
        { answered := fun cmd requested => (complete cmd requested).1
          plain := fun cmd requested line added => (rules cmd requested line added).2.2
          elsewhere := fun cmd requested _ line added => registry cmd requested line added
          headed := fun cmd requested _ line added => (rules cmd requested line added).1
          ruled := fun cmd requested line added => (rules cmd requested line added).2.1 }

end

/-- Exactly when a run fails loudly or scans every added line it was asked to scan. -/
theorem scansEverything_iff (u : Unicode) (m : Matching) (project : Project) (args : Args) :
    ScansEverything u m project args ↔
      Unreadable u m project args ∨ (args.failIfEmpty = true ∧ NothingToScan u project args) ∨
        NothingMissed u project args := by
  constructor
  · exact nothingMissed_of_scans
  · rintro (unreadable | ⟨refuses, nothing⟩ | clear)
    · refine Or.inl ?_
      cases ran : main u m project.git project.registries args with
      | error e =>
          rw [Loud, ran]
          trivial
      | ok out => exact absurd unreadable (main_ends.mp ⟨out, ran⟩)
    · refine Or.inl ?_
      cases ran : main u m project.git project.registries args with
      | error e =>
          rw [Loud, ran]
          trivial
      | ok out =>
          rw [Loud, ran]
          exact ⟨refuses, (vacuous_iff ran).mpr nothing⟩
    · exact scans_of_nothingMissed clear

/-! A branch with one commit on a clean checkout, scanned with `--base main`. -/

namespace CommittedLine

def digitTable : Unicode where
  decimal c := if 48 ≤ c.val ∧ c.val ≤ 57 then some (c.val - 48) else none
  isDigit c := 48 ≤ c.val && c.val ≤ 57
  lower s := s.map Unicode.asciiLower

def substrings : Matching where
  compile pattern _ := .ok (fun content => content.tails.any (fun rest => pattern.isPrefixOf rest))
  fnmatch name pattern := name == pattern

def main : Str := "main"

def swallowed : Line := ⟨"    except:", by decide⟩

def hunk : Hunk where
  oldStart := 3
  newStart := 3
  heading := ⟨[], by decide⟩
  body := [.added swallowed]
  small := Nat.lt_of_lt_of_le (by decide : 3 < 10 ^ 1) (Nat.pow_le_pow_right (by decide) (by decide))

def commit : Patch :=
  [{ preface := [⟨"diff --git a/run.py b/run.py", by decide⟩, ⟨"--- a/run.py", by decide⟩]
     label := some ⟨"b/run.py", by decide⟩
     hunks := [hunk]
     quiet := by decide
     bare := by simp
     named := by decide
     deleted := by decide }]

def project : Project where
  git cmd := if cmd = baseDiff main then ⟨0, Patch.print commit, []⟩ else ⟨0, [], []⟩
  patch cmd := if cmd = baseDiff main then commit else []
  prints cmd _ _ := by
    by_cases base : cmd = baseDiff main
    · simp only [if_pos base]
    · simp only [if_neg base]
      rfl
  registries := ⟨[⟨some "PREVENT-007", none, none, none, none, none, true, "pattern", "except:", [], []⟩],
    "merged bundled+overlay", []⟩

def args : Args := ⟨.staged, some main, false⟩

end CommittedLine

open CommittedLine in
/-- The rules never see the line that `--base` asks about; the run ends with exit code 0. -/
theorem base_without_rules : ¬ ScansEverything digitTable substrings project args := by
  intro scans
  have answers (cmd : List Str) : (project.git cmd).rc = 0 := by
    show (if cmd = baseDiff CommittedLine.main then (⟨0, Patch.print commit, []⟩ : Answer)
      else ⟨0, [], []⟩).rc = 0
    split <;> rfl
  rcases nothingMissed_of_scans scans with (unusable | ⟨cmd, -, failed⟩) | ⟨refuses, -⟩ | clear
  · exact absurd (unusable _ List.mem_cons_self) (by decide)
  · exact failed (answers cmd)
  · exact absurd refuses (by decide)
  · have requested : baseDiff CommittedLine.main ∈ args.requested digitTable project.git :=
      List.mem_append_right _ List.mem_cons_self
    have added : (("run.py" : Str), swallowed.text) ∈
        Patch.added (project.patch (baseDiff CommittedLine.main)) := by decide
    obtain ⟨cmd, asked, -, named⟩ := clear.headed _ requested (by decide) _ added
    have staged : cmd = stagedDiff := List.mem_singleton.mp asked
    rw [staged] at named
    exact absurd named (by decide)

end Regression

end DevGate.Gate
