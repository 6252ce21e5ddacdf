import DevGate.Gate.GlobAgreement
import DevGate.Gate.IgnoreFile

set_option autoImplicit false

/- The walks of guardrails-scan.mjs and game_regression.py, and what an entry of
`.guardrailsignore` takes from each. Paths are the names from the project root down. -/
namespace DevGate.Gate

open Py
open Regression (baseName)
open Globs (Hits)

/-- A directory, name by name. -/
inductive Listing where
  | done
  | file (name : Str) (rest : Listing)
  | folder (name : Str) (inside rest : Listing)

def Listing.files : Listing → List Str
  | .done => []
  | .file name rest => name :: rest.files
  | .folder _ _ rest => rest.files

/-- A file of this name stands in the folder that the names lead to. -/
def Listing.Holds : Listing → List Str → Str → Prop
  | .done, _, _ => False
  | .file first rest, folders, name => folders = [] ∧ name = first ∨ rest.Holds folders name
  | .folder first inside rest, folders, name =>
      (∃ more, folders = first :: more ∧ inside.Holds more name) ∨ rest.Holds folders name

/-- The path below the project root. -/
def rel (names : List Str) : Str := Str.join "/" names

/-- `pat.endsWith("/")`. -/
def isDir (pat : Str) : Bool := ("/" : Str).isSuffixOf pat

namespace Scan

/-- `SOURCE_EXTENSIONS`. -/
def sourceExtensions : List Str :=
  [".ts", ".js", ".py", ".rs", ".go", ".gd", ".java", ".kt", ".rb", ".php", ".jsx", ".tsx", ".svelte",
    ".zig", ".mjs", ".cjs"]

/-- The walk's test of a file name. -/
def handles (name : Str) : Bool :=
  ("." ++ (Str.split (Chr.ofChar '.') name).getLastD [] : Str) ∈ sourceExtensions &&
    !(".d.ts" : Str).isSuffixOf name

/-- `isIgnored`, of the path below the root. -/
def isIgnored (file : Str) (patterns : List Str) : Bool :=
  patterns.any (fun pat =>
    if isDir pat then JsText.startsWith file pat || file == pat.dropLast
    else globMatch pat file || globMatch pat (baseName file))

/-- `walk`. -/
def walk (skipDirs patterns : List Str) (dir : List Str) : Listing → List (List Str)
  | .done => []
  | .file name rest =>
      (if handles name && !isIgnored (rel (dir ++ [name])) patterns then [dir ++ [name]] else []) ++
        walk skipDirs patterns dir rest
  | .folder name inside rest =>
      (if !skipDirs.contains name && !isIgnored (rel (dir ++ [name])) patterns then
        walk skipDirs patterns (dir ++ [name]) inside else []) ++ walk skipDirs patterns dir rest

end Scan

namespace Game

def exts : List Str := [".gd", ".ts", ".js", ".py", ".rs", ".go"]

/-- `os.path.splitext(name)[1]`: dots that lead the name start no extension. -/
def extension (name : Str) : Str :=
  let body := name.dropWhile (fun c => c == Chr.ofChar '.')
  if Chr.ofChar '.' ∈ body then "." ++ (Str.split (Chr.ofChar '.') body).getLastD [] else []

/-- `is_ignored`, of the path below the root. -/
def isIgnored (file : Str) (patterns : List Str) : Bool :=
  patterns.any (fun pat =>
    if isDir pat then pat.isPrefixOf (Str.slashed file) || pat.isPrefixOf (Str.slashed (file ++ "/"))
    else Globs.fnmatch file pat || Globs.fnmatch (baseName file) pat)

/-- What `os.walk` yields below a directory, where `dirnames` is cut down to those that are kept. -/
def below (keep : Str → Bool) (dir : List Str) : Listing → List (List Str × List Str)
  | .done => []
  | .file _ rest => below keep dir rest
  | .folder name inside rest =>
      (if keep name then (dir ++ [name], inside.files) :: below keep (dir ++ [name]) inside else []) ++
        below keep dir rest

/-- `os.walk`. -/
def osWalk (keep : Str → Bool) (root : Listing) : List (List Str × List Str) :=
  ([], root.files) :: below keep [] root

/-- The names of one directory that are collected. -/
def sourceFiles (patterns : List Str) (found : List Str × List Str) : List (List Str) :=
  (found.2.filter (fun name =>
    exts.contains (extension name) && !isIgnored (rel (found.1 ++ [name])) patterns)).map
      (fun name => found.1 ++ [name])

/-- `iter_source_files`. -/
def iterSourceFiles (skipDirs patterns : List Str) (root : Listing) : List (List Str) :=
  (osWalk (fun name => !skipDirs.contains name) root).flatMap (sourceFiles patterns)

end Game

namespace IgnoreFile

/-- A file of the tree whose extension both tools handle. -/
structure SourceFile (tree : Listing) where
  folders : List Str
  name : Str
  held : tree.Holds folders name
  scanned : Scan.handles name = true
  gamed : Game.exts.contains (Game.extension name) = true

def SourceFile.path {tree : Listing} (source : SourceFile tree) : List Str :=
  source.folders ++ [source.name]

/-- The walk collects the file where there are no entries, and not with them. -/
def SkippedBy (walk : List Str → List (List Str)) (patterns file : List Str) : Prop :=
  file ∈ walk [] ∧ file ∉ walk patterns

/-- An entry takes the path or its base name, as the scanner reads it. -/
def Named (entry path : Str) : Prop :=
  Scan.globMatch entry path = true ∨ Scan.globMatch entry (baseName path) = true

/-- A folder above the file. -/
def Above (folders folder : List Str) : Prop := folder ≠ [] ∧ folder <+: folders

/-- What the game's scanner leaves out: the files that an entry takes as it is written, and all
that is below a folder entry, a backslash being a slash. -/
def Waived (entries : List Str) (file : Str) : Prop :=
  ∃ e ∈ entries, if isDir e then e <+: Str.slashed (file ++ "/") else Hits file e

/-- What the walk of guardrails-scan leaves out: with a file, all that is below a folder entry or
below a folder that another entry takes. -/
def Pruned (entries folders : List Str) (file : Str) : Prop :=
  ∃ e ∈ entries, if isDir e then e <+: file ++ "/"
    else Named e file ∨ ∃ folder, Above folders folder ∧ Named e (rel folder)

/-- No folder above the file is out of scope. -/
def Reached (skipDirs names : List Str) : Prop := ∀ n ∈ names, n ∉ skipDirs

/-- One ignore contract for the file below these folders. -/
structure OneContract (scanSkip gameSkip entries names : List Str) (file : Str) : Prop where
  /-- A folder above the file is taken only where some entry takes the file itself. -/
  folders : Reached scanSkip names → Reached gameSkip names → ∀ e ∈ entries, isDir e = false →
    ∀ folder, Above names folder → Named e (rel folder) → Waived entries file
  /-- So is a file that the scanner finds under an entry it reads its own way. -/
  readings : Reached scanSkip names → Reached gameSkip names → ∀ e ∈ entries, isDir e = false →
    Named e file → Waived entries file
  /-- The scanner finds what an entry takes as it is written. -/
  written : Reached scanSkip names → Reached gameSkip names → ∀ e ∈ entries, isDir e = false →
    Hits file e → Pruned entries names file
  /-- And what a folder entry takes with backslashes for slashes. -/
  backslashes : Reached scanSkip names → Reached gameSkip names → ∀ e ∈ entries, isDir e = true →
    e <+: Str.slashed (file ++ "/") → Pruned entries names file
  /-- No entry is for a file that only one tool's scope has. -/
  scanOnly : Reached scanSkip names → ¬ Reached gameSkip names → ¬ Pruned entries names file
  gameOnly : Reached gameSkip names → ¬ Reached scanSkip names → ¬ Waived entries file

/-! What the walks collect. -/

/-- The walk goes down these folders. -/
def Enters (skipDirs patterns dir names : List Str) : Prop :=
  Reached skipDirs names ∧ ∀ folder, Above names folder →
    Scan.isIgnored (rel (dir ++ folder)) patterns = false

theorem above_cons (name : Str) (more folder : List Str) :
    Above (name :: more) folder ↔ folder = [name] ∨ ∃ rest, Above more rest ∧ folder = name :: rest := by
  unfold Above
  cases folder with
  | nil => simp
  | cons first rest =>
      rw [List.cons_prefix_cons]
      constructor
      · rintro ⟨-, rfl, front⟩
        by_cases empty : rest = []
        · exact .inl (by rw [empty])
        · exact .inr ⟨rest, ⟨empty, front⟩, rfl⟩
      · rintro (same | ⟨rest', ⟨_, front⟩, same⟩)
        · cases same
          exact ⟨List.cons_ne_nil _ _, rfl, List.nil_prefix⟩
        · cases same
          exact ⟨List.cons_ne_nil _ _, rfl, front⟩

theorem enters_cons (skipDirs patterns dir : List Str) (name : Str) (more : List Str) :
    Enters skipDirs patterns dir (name :: more) ↔
      (name ∉ skipDirs ∧ Scan.isIgnored (rel (dir ++ [name])) patterns = false) ∧
        Enters skipDirs patterns (dir ++ [name]) more := by
  unfold Enters Reached
  simp only [above_cons, List.forall_mem_cons, or_imp, forall_and, forall_eq, forall_exists_index,
    and_imp, List.append_assoc, List.singleton_append]
  constructor
  · rintro ⟨⟨here, later⟩, own, deep⟩
    exact ⟨⟨here, own⟩, later, fun folder above => deep _ folder above rfl⟩
  · rintro ⟨⟨here, own⟩, later, deep⟩
    refine ⟨⟨here, later⟩, own, ?_⟩
    rintro _ folder above rfl
    exact deep folder above

theorem mem_walk_iff {skipDirs patterns dir : List Str} {tree : Listing} {path : List Str} :
    path ∈ Scan.walk skipDirs patterns dir tree ↔ ∃ names name, path = dir ++ (names ++ [name]) ∧
      tree.Holds names name ∧ Enters skipDirs patterns dir names ∧ Scan.handles name = true ∧
        Scan.isIgnored (rel path) patterns = false := by
  induction tree generalizing dir with
  | done => simp [Scan.walk, Listing.Holds]
  | file first rest ih =>
      unfold Scan.walk Listing.Holds
      rw [List.mem_append, ih]
      constructor
      · rintro (here | ⟨names, name, same, held, more⟩)
        · split at here
          · next kept =>
              rw [Bool.and_eq_true, Bool.not_eq_true'] at kept
              rw [List.mem_singleton] at here
              subst here
              refine ⟨[], first, rfl, .inl ⟨rfl, rfl⟩, ⟨?_, ?_⟩, kept⟩
              · intro n inside
                cases inside
              · rintro folder ⟨some, front⟩
                exact absurd (List.prefix_nil.mp front) some
          · cases here
        · exact ⟨names, name, same, .inr held, more⟩
      · rintro ⟨names, name, same, here | held, enters, handled, free⟩
        · obtain ⟨rfl, rfl⟩ := here
          rw [List.nil_append] at same
          subst same
          left
          rw [handled, free]
          exact List.mem_singleton_self _
        · exact .inr ⟨names, name, same, held, enters, handled, free⟩
  | folder first inside rest ihInside ihRest =>
      unfold Scan.walk Listing.Holds
      rw [List.mem_append, ihRest]
      constructor
      · rintro (here | ⟨names, name, same, held, more⟩)
        · split at here
          · next kept =>
              rw [Bool.and_eq_true, Bool.not_eq_true', Bool.not_eq_true', List.contains_eq_mem,
                decide_eq_false_iff_not] at kept
              obtain ⟨names, name, same, held, enters, more⟩ := ihInside.mp here
              refine ⟨first :: names, name, ?_, .inl ⟨names, rfl, held⟩,
                (enters_cons skipDirs patterns dir first names).mpr ⟨kept, enters⟩, more⟩
              rw [same, List.append_assoc]
              rfl
          · cases here
        · exact ⟨names, name, same, .inr held, more⟩
      · rintro ⟨names, name, same, ⟨deeper, rfl, held⟩ | held, enters, more⟩
        · obtain ⟨⟨kept, free⟩, enters⟩ := (enters_cons skipDirs patterns dir first deeper).mp enters
          left
          rw [if_pos (by simp [kept, free])]
          refine ihInside.mpr ⟨deeper, name, ?_, held, enters, more⟩
          rw [same, List.append_assoc]
          rfl
        · exact .inr ⟨names, name, same, held, enters, more⟩

theorem mem_files_iff {tree : Listing} {name : Str} : name ∈ tree.files ↔ tree.Holds [] name := by
  induction tree with
  | done => simp [Listing.files, Listing.Holds]
  | file first rest ih => simp [Listing.files, Listing.Holds, ih]
  | folder first inside rest _ ih => simp [Listing.files, Listing.Holds, ih]

theorem mem_below_iff {keep : Str → Bool} {dir d : List Str} {tree : Listing} {name : Str} :
    (∃ names, (d, names) ∈ Game.below keep dir tree ∧ name ∈ names) ↔
      ∃ first more, d = dir ++ first :: more ∧ tree.Holds (first :: more) name ∧
        ∀ n ∈ first :: more, keep n = true := by
  induction tree generalizing dir with
  | done => simp [Game.below, Listing.Holds]
  | file other rest ih =>
      unfold Game.below Listing.Holds
      rw [ih]
      simp
  | folder other inside rest ihInside ihRest =>
      unfold Game.below Listing.Holds
      simp only [List.mem_append, or_and_right, exists_or, ihRest, and_or_left]
      refine or_congr ?_ Iff.rfl
      constructor
      · rintro ⟨names, here, member⟩
        split at here
        · next kept =>
            rcases List.mem_cons.mp here with same | deep
            · cases same
              refine ⟨other, [], rfl, ⟨[], rfl, mem_files_iff.mp member⟩, ?_⟩
              intro n inside
              rwa [List.mem_singleton.mp inside]
            · obtain ⟨first, more, same, held, all⟩ := ihInside.mp ⟨names, deep, member⟩
              refine ⟨other, first :: more, ?_, ⟨_, rfl, held⟩, List.forall_mem_cons.mpr ⟨kept, all⟩⟩
              rw [same, List.append_assoc]
              rfl
        · cases here
      · rintro ⟨first, more, same, ⟨deeper, split, held⟩, all⟩
        cases split
        rw [List.forall_mem_cons] at all
        rw [if_pos all.1]
        cases more with
        | nil =>
            subst same
            exact ⟨inside.files, List.mem_cons_self, mem_files_iff.mpr held⟩
        | cons second rest =>
            have deep : d = dir ++ [other] ++ second :: rest := by
              rw [same, List.append_assoc]
              rfl
            obtain ⟨names, known, member⟩ := ihInside.mpr ⟨second, rest, deep, held, all.2⟩
            exact ⟨names, List.mem_cons_of_mem _ known, member⟩

theorem mem_osWalk_iff {keep : Str → Bool} {d : List Str} {tree : Listing} {name : Str} :
    (∃ names, (d, names) ∈ Game.osWalk keep tree ∧ name ∈ names) ↔
      tree.Holds d name ∧ ∀ n ∈ d, keep n = true := by
  unfold Game.osWalk
  simp only [List.mem_cons, or_and_right, exists_or, mem_below_iff, List.nil_append, Prod.mk.injEq]
  constructor
  · rintro (⟨names, ⟨rfl, rfl⟩, member⟩ | ⟨first, more, rfl, held, all⟩)
    · refine ⟨mem_files_iff.mp member, ?_⟩
      intro n inside
      cases inside
    · exact ⟨held, List.forall_mem_cons.mpr ⟨all first (.inl rfl), fun n inside => all n (.inr inside)⟩⟩
  · rintro ⟨held, all⟩
    cases d with
    | nil => exact .inl ⟨_, ⟨rfl, rfl⟩, mem_files_iff.mpr held⟩
    | cons first more => exact .inr ⟨first, more, rfl, held, fun n inside => all n (List.mem_cons.mpr inside)⟩

theorem mem_iterSourceFiles_iff {skipDirs patterns : List Str} {tree : Listing} {path : List Str} :
    path ∈ Game.iterSourceFiles skipDirs patterns tree ↔ ∃ names name, path = names ++ [name] ∧
      tree.Holds names name ∧ Reached skipDirs names ∧
        Game.exts.contains (Game.extension name) = true ∧
          Game.isIgnored (rel path) patterns = false := by
  have kept (n : Str) : (!skipDirs.contains n) = true ↔ n ∉ skipDirs := by simp
  unfold Game.iterSourceFiles Game.sourceFiles
  simp only [List.mem_flatMap, List.mem_map, List.mem_filter, Bool.and_eq_true, Bool.not_eq_true']
  constructor
  · rintro ⟨⟨d, names⟩, found, name, ⟨member, handled, free⟩, rfl⟩
    obtain ⟨held, all⟩ := mem_osWalk_iff.mp ⟨names, found, member⟩
    exact ⟨d, name, rfl, held, fun n inside => (kept n).mp (all n inside), handled, free⟩
  · rintro ⟨d, name, rfl, held, reached, handled, free⟩
    obtain ⟨names, found, member⟩ := mem_osWalk_iff.mpr ⟨held, fun n inside => (kept n).mpr (reached n inside)⟩
    exact ⟨(d, names), found, name, ⟨member, handled, free⟩, rfl⟩

/-! What the entries take. -/

theorem game_iff {entries : List Str} {file : Str} :
    Game.isIgnored file entries = true ↔ Waived entries file := by
  unfold Game.isIgnored Waived Hits
  rw [List.any_eq_true]
  refine exists_congr (fun e => and_congr_right (fun _ => ?_))
  by_cases folder : isDir e = true
  · rw [if_pos folder, if_pos folder, Bool.or_eq_true, List.isPrefixOf_iff_prefix,
      List.isPrefixOf_iff_prefix]
    refine or_iff_right_of_imp (fun front => front.trans ?_)
    unfold Str.slashed
    rw [List.map_append]
    exact List.prefix_append _ _
  · rw [if_neg folder, if_neg folder, Bool.or_eq_true, or_comm]

theorem dir_iff {e : Str} (folder : isDir e = true) (file : Str) :
    e <+: file ∨ file = e.dropLast ↔ e <+: file ++ "/" := by
  obtain ⟨front, rfl⟩ := List.isSuffixOf_iff_suffix.mp folder
  have last : (front ++ ("/" : Str)).dropLast = front := List.dropLast_concat
  have inner : (front ++ ("/" : Str) = file ++ ("/" : Str)) ↔ file = front := by
    rw [List.append_left_inj]
    exact eq_comm
  rw [last, ← inner]
  exact or_comm.trans List.prefix_concat_iff.symm

theorem scan_iff {entries : List Str} {file : Str} :
    Scan.isIgnored file entries = true ↔
      ∃ e ∈ entries, if isDir e then e <+: file ++ "/" else Named e file := by
  unfold Scan.isIgnored Named JsText.startsWith
  rw [List.any_eq_true]
  refine exists_congr (fun e => and_congr_right (fun _ => ?_))
  by_cases folder : isDir e = true
  · rw [if_pos folder, if_pos folder, Bool.or_eq_true, List.isPrefixOf_iff_prefix, beq_iff_eq]
    exact dir_iff folder file
  · rw [if_neg folder, if_neg folder, Bool.or_eq_true]

/-- All that is below a folder starts with its path and a slash. -/
theorem rel_above {names folder : List Str} (above : Above names folder) (name : Str) :
    rel folder ++ ("/" : Str) <+: rel (names ++ [name]) := by
  obtain ⟨some, more, rfl⟩ := above
  unfold rel
  rw [List.append_assoc, Str.join_append "/" folder (more ++ [name]) some (by simp)]
  exact List.prefix_append _ _

theorem pruned_iff {entries names : List Str} {name : Str} :
    Pruned entries names (rel (names ++ [name])) ↔
      Scan.isIgnored (rel (names ++ [name])) entries = true ∨
        ∃ folder, Above names folder ∧ Scan.isIgnored (rel folder) entries = true := by
  simp only [scan_iff]
  unfold Pruned
  constructor
  · rintro ⟨e, known, taken⟩
    by_cases folder : isDir e = true
    · rw [if_pos folder] at taken
      exact .inl ⟨e, known, by rwa [if_pos folder]⟩
    · rw [if_neg folder] at taken
      rcases taken with here | ⟨d, above, here⟩
      · exact .inl ⟨e, known, by rwa [if_neg folder]⟩
      · exact .inr ⟨d, above, e, known, by rwa [if_neg folder]⟩
  · rintro (⟨e, known, taken⟩ | ⟨d, above, e, known, taken⟩)
    · refine ⟨e, known, ?_⟩
      by_cases folder : isDir e = true
      · rwa [if_pos folder] at taken ⊢
      · rw [if_neg folder] at taken ⊢
        exact .inl taken
    · refine ⟨e, known, ?_⟩
      by_cases folder : isDir e = true
      · rw [if_pos folder] at taken ⊢
        exact (taken.trans (rel_above above name)).trans (List.prefix_append _ _)
      · rw [if_neg folder] at taken ⊢
        exact .inr ⟨d, above, taken⟩

section

variable {tree : Listing} (source : SourceFile tree) (skipDirs entries : List Str)

theorem mem_walk_source :
    source.path ∈ Scan.walk skipDirs entries [] tree ↔
      Reached skipDirs source.folders ∧ ¬ Pruned entries source.folders (rel source.path) := by
  unfold SourceFile.path
  rw [mem_walk_iff, pruned_iff, not_or, not_exists]
  simp only [List.nil_append, Bool.not_eq_true, not_and, Enters]
  constructor
  · rintro ⟨names, name, same, _, ⟨reached, clear⟩, _, free⟩
    obtain ⟨rfl, rfl⟩ := List.append_singleton_inj.mp same
    exact ⟨reached, free, clear⟩
  · rintro ⟨reached, free, clear⟩
    exact ⟨_, _, rfl, source.held, ⟨reached, clear⟩, source.scanned, free⟩

theorem mem_iterSourceFiles_source :
    source.path ∈ Game.iterSourceFiles skipDirs entries tree ↔
      Reached skipDirs source.folders ∧ ¬ Waived entries (rel source.path) := by
  unfold SourceFile.path
  rw [mem_iterSourceFiles_iff, ← game_iff, Bool.not_eq_true]
  constructor
  · rintro ⟨names, name, same, _, reached, _, free⟩
    obtain ⟨rfl, rfl⟩ := List.append_singleton_inj.mp same
    exact ⟨reached, free⟩
  · rintro ⟨reached, free⟩
    exact ⟨_, _, rfl, source.held, reached, source.gamed, free⟩

theorem skippedBy_walk_iff :
    SkippedBy (fun patterns => Scan.walk skipDirs patterns [] tree) entries source.path ↔
      Reached skipDirs source.folders ∧ Pruned entries source.folders (rel source.path) := by
  have clear : ¬ Pruned [] source.folders (rel source.path) := by
    rintro ⟨e, inside, _⟩
    cases inside
  unfold SkippedBy
  rw [mem_walk_source, mem_walk_source]
  tauto

theorem skippedBy_iterSourceFiles_iff :
    SkippedBy (fun patterns => Game.iterSourceFiles skipDirs patterns tree) entries source.path ↔
      Reached skipDirs source.folders ∧ Waived entries (rel source.path) := by
  have clear : ¬ Waived [] (rel source.path) := by
    rintro ⟨e, inside, _⟩
    cases inside
  unfold SkippedBy
  rw [mem_iterSourceFiles_source, mem_iterSourceFiles_source]
  tauto

end

theorem slashed_of_not_mem {s : Str} (absent : Chr.ofChar '\\' ∉ s) : Str.slashed s = s := by
  unfold Str.slashed
  refine (List.map_congr_left (fun c inside => if_neg ?_)).trans (List.map_id s)
  rintro rfl
  exact absent inside

/-- Where both tools come to the file, the contract is that they leave out the same. -/
theorem contract_reached {scanSkip gameSkip entries names : List Str} {file : Str}
    (plain : ∀ e ∈ entries, Chr.ofChar '\\' ∉ e) (scan : Reached scanSkip names) (game : Reached gameSkip names) :
    OneContract scanSkip gameSkip entries names file ↔
      (Pruned entries names file → Waived entries file) ∧
        (Waived entries file → Pruned entries names file) := by
  constructor
  · intro one
    constructor
    · rintro ⟨e, known, taken⟩
      by_cases folder : isDir e = true
      · rw [if_pos folder] at taken
        refine ⟨e, known, ?_⟩
        rw [if_pos folder, ← slashed_of_not_mem (plain e known)]
        exact taken.map _
      · rw [if_neg folder] at taken
        rw [Bool.not_eq_true] at folder
        rcases taken with here | ⟨d, above, here⟩
        · exact one.readings scan game e known folder here
        · exact one.folders scan game e known folder d above here
    · rintro ⟨e, known, taken⟩
      by_cases folder : isDir e = true
      · rw [if_pos folder] at taken
        exact one.backslashes scan game e known folder taken
      · rw [if_neg folder] at taken
        rw [Bool.not_eq_true] at folder
        exact one.written scan game e known folder taken
  · rintro ⟨waives, prunes⟩
    exact
      { folders := fun _ _ e known folder d above here =>
          waives ⟨e, known, by rw [folder]; exact .inr ⟨d, above, here⟩⟩
        readings := fun _ _ e known folder here => waives ⟨e, known, by rw [folder]; exact .inl here⟩
        written := fun _ _ e known folder hit => prunes ⟨e, known, by rw [folder]; exact hit⟩
        backslashes := fun _ _ e known folder front => prunes ⟨e, known, by rw [folder]; exact front⟩
        scanOnly := fun _ unreached => absurd game unreached
        gameOnly := fun _ unreached => absurd scan unreached }

theorem named_iff {g : Globs.Glob} (legible : Globs.Legible g) (path : Str) :
    Named g.text path ↔ ∃ reading ∈ Globs.readings g, Globs.ScanHits path reading := by
  have one := @Globs.scan_iff path [g] (fun h inside => by rwa [List.mem_singleton.mp inside])
  unfold Scan.globMatchesAny at one
  unfold Named
  simpa only [List.map_cons, List.map_nil, List.any_cons, List.any_nil, Bool.or_false,
    Bool.or_eq_true, List.mem_singleton, exists_eq_left] using one

/-- One scope, and a path without backslashes, line breaks and characters of two units: there is
one contract for a file exactly where no entry takes it, or a folder above it, for the scanner
alone. -/
theorem contract_ordinary {skipDirs names : List Str} {file : Str} {globs : List Globs.Glob}
    (legible : ∀ g ∈ globs, Globs.Legible g ∧ ∀ c ∈ g.text, c.val < 0x10000)
    (narrow : Globs.Narrow file) (straight : Chr.ofChar '\\' ∉ file) :
    OneContract skipDirs skipDirs (globs.map Globs.Glob.text) names file ↔
      (Reached skipDirs names → ∀ g ∈ globs, isDir g.text = false →
        (Named g.text file ∨ ∃ folder, Above names folder ∧ Named g.text (rel folder)) →
          Waived (globs.map Globs.Glob.text) file) := by
  have known {g : Globs.Glob} (inside : g ∈ globs) : g.text ∈ globs.map Globs.Glob.text :=
    List.mem_map_of_mem inside
  constructor
  · rintro one reached g inside starred (here | ⟨folder, above, here⟩)
    · exact one.readings reached reached g.text (known inside) starred here
    · exact one.folders reached reached g.text (known inside) starred folder above here
  · intro alike
    refine
      { folders := ?_, readings := ?_, written := ?_, backslashes := ?_
        scanOnly := fun reached unreached => absurd reached unreached
        gameOnly := fun reached unreached => absurd reached unreached }
    · intro reached _ e member starred folder above here
      obtain ⟨g, inside, rfl⟩ := List.mem_map.mp member
      exact alike reached g inside starred (.inr ⟨folder, above, here⟩)
    · intro reached _ e member starred here
      obtain ⟨g, inside, rfl⟩ := List.mem_map.mp member
      exact alike reached g inside starred (.inl here)
    · intro _ _ e member starred hit
      obtain ⟨g, inside, rfl⟩ := List.mem_map.mp member
      have named := (named_iff (legible g inside).1 file).mpr
        (Globs.scanHits_of_hits narrow (legible g inside).2 hit)
      exact ⟨g.text, known inside, by rw [starred]; exact .inl named⟩
    · intro _ _ e inside below front
      have whole : Chr.ofChar '\\' ∉ file ++ ("/" : Str) := by
        rw [List.mem_append, not_or]
        exact ⟨straight, by decide⟩
      rw [slashed_of_not_mem whole] at front
      exact ⟨e, inside, by rwa [below]⟩

/-- The walks skip the same file for an entry exactly where there is one contract for it. -/
theorem skipped_alike_iff (scanSkip gameSkip : List Str) (tree : Listing) (ignore : Option Content)
    (source : SourceFile tree) :
    (SkippedBy (fun patterns => Scan.walk scanSkip patterns [] tree)
          (Scan.loadIgnorePatterns (ignore.map Content.text)) source.path ↔
        SkippedBy (fun patterns => Game.iterSourceFiles gameSkip patterns tree)
          (Game.loadIgnorePatterns (ignore.map Content.text)) source.path) ↔
      OneContract scanSkip gameSkip (entriesOf ignore) source.folders (rel source.path) := by
  have plain : ∀ e ∈ entriesOf ignore, Chr.ofChar '\\' ∉ e :=
    fun e known inside => (entries_plain ignore e known _ inside).2.2 rfl
  rw [scan_patterns, game_patterns, skippedBy_walk_iff, skippedBy_iterSourceFiles_iff]
  by_cases scan : Reached scanSkip source.folders
  · by_cases game : Reached gameSkip source.folders
    · rw [contract_reached plain scan game]
      simp only [scan, game, true_and]
      exact iff_def
    · constructor
      · intro alike
        exact
          { folders := fun _ reached => absurd reached game
            readings := fun _ reached => absurd reached game
            written := fun _ reached => absurd reached game
            backslashes := fun _ reached => absurd reached game
            scanOnly := fun _ _ pruned => game (alike.mp ⟨scan, pruned⟩).1
            gameOnly := fun reached => absurd reached game }
      · intro one
        exact ⟨fun both => absurd both.2 (one.scanOnly scan game), fun both => absurd both.1 game⟩
  · constructor
    · intro alike
      exact
        { folders := fun reached => absurd reached scan
          readings := fun reached => absurd reached scan
          written := fun reached => absurd reached scan
          backslashes := fun reached => absurd reached scan
          scanOnly := fun reached => absurd reached scan
          gameOnly := fun reached _ waived => scan (alike.mpr ⟨reached, waived⟩).1 }
    · intro one
      exact ⟨fun both => absurd both.1 scan, fun both => absurd both.2 (one.gameOnly both.1 scan)⟩

theorem line_plain (text : Str) (each : text.all (fun c => !c.endsLine &&
      (JsText.isSpace c == Re.isSpace c) && (c ≠ Chr.ofChar '[' && c ≠ Chr.ofChar ']' &&
        c ≠ Chr.ofChar '\\')) = true) :
    (∀ c ∈ text, c.endsLine = false ∧ JsText.isSpace c = Re.isSpace c) ∧
      ∀ c ∈ text, c ≠ Chr.ofChar '[' ∧ c ≠ Chr.ofChar ']' ∧ c ≠ Chr.ofChar '\\' := by
  have all := List.all_eq_true.mp each
  simp only [Bool.and_eq_true, Bool.not_eq_true', beq_iff_eq, decide_eq_true_eq, and_assoc] at all
  exact ⟨fun c inside => ⟨(all c inside).1, (all c inside).2.1⟩, fun c inside => (all c inside).2.2⟩

def legacyLine : Line where
  text := "legacy"
  windows := false
  clean := (line_plain "legacy" (by decide)).1
  plain := .inr (line_plain "legacy" (by decide)).2

def lastLine : Line where
  text := []
  windows := false
  clean := (line_plain [] (by decide)).1
  plain := .inr (line_plain [] (by decide)).2

def legacyIgnored : Content := ⟨[legacyLine], lastLine⟩

def legacyTree : Listing := .folder "legacy" (.file "old.py" .done) .done

theorem old_handled : Scan.handles "old.py" = true ∧
    Game.exts.contains (Game.extension "old.py") = true := by decide

def legacySource : SourceFile legacyTree where
  folders := ["legacy"]
  name := "old.py"
  held := .inl ⟨[], rfl, .inl ⟨rfl, rfl⟩⟩
  scanned := old_handled.1
  gamed := old_handled.2

/-- An entry that names a folder prunes it from one walk, and leaves its files to the other. -/
theorem folder_pruned_once :
    ¬ (SkippedBy (fun patterns => Scan.walk [] patterns [] legacyTree)
          (Scan.loadIgnorePatterns ((some legacyIgnored).map Content.text)) legacySource.path ↔
        SkippedBy (fun patterns => Game.iterSourceFiles [] patterns legacyTree)
          (Game.loadIgnorePatterns ((some legacyIgnored).map Content.text)) legacySource.path) := by
  unfold SkippedBy
  decide +kernel

end IgnoreFile

end DevGate.Gate
