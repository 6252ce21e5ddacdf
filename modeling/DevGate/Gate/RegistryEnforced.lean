import DevGate.Gate.RegistryMerge
import DevGate.Gate.RegressionCheck

set_option autoImplicit false

/- The failure registry as `regression_diff` enforces it, over entries of any shape, and
what a clean registry promises of it. -/
namespace DevGate.Gate.Hygiene

open Py Diff
open Regression (Matching selfReferential globMatches lineHasAllow expandGlobstar baseName allowPattern)

/-- `re` and `fnmatch`; `raises` is what `re.compile` raises besides `re.error`. -/
structure Engine extends Matching where
  raises : Str → Option Exc

structure Compiled where
  entry : Value
  search : Str → Bool
  fileGlob : Value
  excludeGlob : Value

def scannedStatuses : List Str := ["active", "resolved"]

section

variable (m : Engine)

def warning (entry : Value) (exc pattern : Str) : Text :=
  ["invalid regression_pattern in ", .str ((entry.field? "failure_id").getD (.str "?")), " (",
    .lit exc, "): ", .lit pattern]

/-- One entry of `compile_registry_patterns`: a matcher, a warning or neither. -/
def compileEntry (entry : Value) : Except Exc (List Compiled × List Text) := do
  match Value.orElse (← entry.get "regression_pattern") (.str []) with
  | .str text =>
      let pattern := Str.strip text
      if pattern = [] then return ([], [])
      else match m.raises pattern with
        | some e => .error e
        | none =>
            match m.compile pattern false with
            | .ok search => return ([⟨entry, search, Value.orElse (entry.field? "file_glob") (.list []),
                Value.orElse (entry.field? "exclude_glob") (.list [])⟩], [])
            | .error exc => return ([], [warning entry exc pattern])
  | other => .error ⟨.attributeError, ["'", other.typeName, "' object has no attribute 'strip'"]⟩

/-- `compile_registry_patterns`. -/
def compileRegistryPatterns (entries : List Value) : Except Exc (List Compiled × List Text) := do
  let each ← entries.mapM (compileEntry m)
  return (each.flatMap Prod.fst, each.flatMap Prod.snd)

/-- `glob_matches` over the elements, until one matches. -/
def matchesAny (path : Str) : List Value → Except Exc Bool
  | [] => .ok false
  | .str g :: rest =>
      if (expandGlobstar g).any (fun g => m.fnmatch (baseName path) g || m.fnmatch path g) then .ok true
      else matchesAny path rest
  | other :: _ => .error ⟨.typeError,
      ["expected str, bytes or os.PathLike object, not ", other.typeName]⟩

/-- `item[glob] and glob_matches(path, item[glob])`. -/
def globHit (path : Str) (globs : Value) : Except Exc Bool :=
  if globs.truthy then do matchesAny m path (← globs.iter) else .ok false

/-- `line_has_allow`, where an id may be no text. -/
def anyAllow (line : Str) : List Value → Except Exc Bool
  | [] => .ok false
  | .str i :: rest =>
      if i ≠ [] ∧ (Re.searchFrom (allowPattern i) none line).isSome = true then .ok true
      else anyAllow line rest
  | other :: rest =>
      if other.truthy then .error ⟨.typeError,
        ["decoding to str: need a bytes-like object, ", other.typeName, " found"]⟩
      else anyAllow line rest

structure Violation where
  file : Str
  line : Nat
  failureId : Value
  severity : Value
  errorMessage : Value
  preventionRule : Value
  pattern : Value
  added : Str

def violationOf (a : Added) (entry : Value) : Violation where
  file := a.path
  line := a.lineno
  failureId := (entry.field? "failure_id").getD (.str "?")
  severity := (entry.field? "severity").getD (.str "high")
  errorMessage := (entry.field? "error_message").getD (.str [])
  preventionRule := (entry.field? "prevention_rule").getD (.str [])
  pattern := (entry.field? "regression_pattern").getD (.str [])
  added := (Str.strip a.text).take 120

/-- What is left to check once the globs let a line through. -/
def searchLine (a : Added) (item : Compiled) : Except Exc (List Violation) := do
  let allowed ← anyAllow a.text [(item.entry.field? "failure_id").getD (.str []),
    (item.entry.field? "prevention_rule").getD (.str [])]
  if allowed || !item.search a.text then return [] else return [violationOf a item.entry]

/-- One compiled pattern against one added line. -/
def checkItem (a : Added) (item : Compiled) : Except Exc (List Violation) := do
  let inside ← globHit m a.path item.fileGlob
  if item.fileGlob.truthy && !inside then return []
  else
    let excluded ← globHit m a.path item.excludeGlob
    if excluded then return [] else searchLine a item

def checkLine (compiled : List Compiled) (a : Added) : Except Exc (List Violation) :=
  if selfReferential.contains a.path then .ok []
  else do return (← compiled.mapM (checkItem m a)).flatten

/-- `check_added_against_registry`. -/
def checkAddedAgainstRegistry (added : List Added) (compiled : List Compiled) :
    Except Exc (List Violation) := do
  return (← added.mapM (checkLine m compiled)).flatten

end

/-! Entries with the fields the gate reads. -/

def textOf (entry : Value) (key : Str) : Str := ((entry.field? key).bind Value.str?).getD []

def globsOf (entry : Value) (key : Str) : List Str :=
  (((entry.field? key).bind Value.list?).getD []).filterMap Value.str?

def patternOf (entry : Value) : Str := Str.strip (textOf entry "regression_pattern")

/-- The field is a text, or as good as none. -/
def IsText (entry : Value) (key : Str) : Prop :=
  ∀ v, entry.field? key = some v → v.truthy = true → ∃ s, v = .str s

/-- The field is a list of texts, or as good as none. -/
def IsGlobs (entry : Value) (key : Str) : Prop :=
  ∀ v, entry.field? key = some v → v.truthy = true → ∃ gs : List Str, v = .list (gs.map Value.str)

structure Readable (m : Engine) (entry : Value) : Prop where
  pattern : IsText entry "regression_pattern"
  failureId : IsText entry "failure_id"
  preventionRule : IsText entry "prevention_rule"
  fileGlob : IsGlobs entry "file_glob"
  excludeGlob : IsGlobs entry "exclude_glob"
  calm : m.raises (patternOf entry) = none

/-- The matcher of an entry that carries a valid pattern. -/
def searchOf (m : Engine) (entry : Value) : Option (Str → Bool) :=
  if patternOf entry = [] then none else (m.compile (patternOf entry) false).toOption

/-- The warning about an entry whose pattern is not valid. -/
def warningOf (m : Engine) (entry : Value) : Option Text :=
  if patternOf entry = [] then none
  else match m.compile (patternOf entry) false with
    | .ok _ => none
    | .error exc => some (warning entry exc (patternOf entry))

/-- A line that re-adds what an entry's pattern finds. -/
structure Readds (m : Engine) (a : Added) (entry : Value) : Prop where
  scanned : a.path ∉ selfReferential
  named : globsOf entry "file_glob" = [] ∨ globMatches m.toMatching a.path (globsOf entry "file_glob") = true
  kept : globMatches m.toMatching a.path (globsOf entry "exclude_glob") = false
  unallowed : lineHasAllow a.text [textOf entry "failure_id", textOf entry "prevention_rule"] = false
  found : ∃ search, searchOf m entry = some search ∧ search a.text = true

/-- Every entry with a pattern is compiled, or warned of where the pattern is not valid, and
what is compiled is applied to every added line. -/
def Enforced (m : Engine) (scanned : List Value) : Prop :=
  ∃ compiled warnings, compileRegistryPatterns m scanned = .ok (compiled, warnings) ∧
    compiled.map Compiled.entry = scanned.filter (fun e => (searchOf m e).isSome) ∧
    warnings = scanned.filterMap (warningOf m) ∧
    ∀ added, ∃ violations, checkAddedAgainstRegistry m added compiled = .ok violations ∧
      ∀ v, v ∈ violations ↔ ∃ a ∈ added, ∃ e ∈ scanned, Readds m a e ∧ v = violationOf a e

theorem orElse_truthy {v : Value} (truthy : v.truthy = true) (other : Value) :
    Value.orElse (some v) other = v := if_pos truthy

theorem orElse_falsy {v : Value} (falsy : ¬v.truthy = true) (other : Value) :
    Value.orElse (some v) other = other := if_neg falsy

theorem text_view {entry : Value} {key : Str} (text : IsText entry key) :
    Value.orElse (entry.field? key) (.str []) = .str (textOf entry key) := by
  unfold textOf
  cases field : entry.field? key with
  | none => rfl
  | some v =>
      by_cases truthy : v.truthy = true
      · obtain ⟨s, rfl⟩ := text v field truthy
        rw [orElse_truthy truthy]
        rfl
      · rw [orElse_falsy truthy]
        cases v with
        | str s =>
            cases s with
            | nil => rfl
            | cons c rest => exact absurd rfl truthy
        | _ => rfl

theorem globs_view {entry : Value} {key : Str} (globs : IsGlobs entry key) :
    Value.orElse (entry.field? key) (.list []) = .list ((globsOf entry key).map Value.str) := by
  unfold globsOf
  cases field : entry.field? key with
  | none => rfl
  | some v =>
      by_cases truthy : v.truthy = true
      · obtain ⟨gs, rfl⟩ := globs v field truthy
        rw [orElse_truthy truthy]
        have same : (gs.map Value.str).filterMap Value.str? = gs := by
          rw [List.filterMap_map]
          exact List.filterMap_some
        show Value.list (gs.map Value.str) =
          .list (((gs.map Value.str).filterMap Value.str?).map Value.str)
        rw [same]
      · rw [orElse_falsy truthy]
        cases v with
        | list vs =>
            cases vs with
            | nil => rfl
            | cons w rest => exact absurd rfl truthy
        | _ => rfl

section

variable {m : Engine} {entry : Value}

def compiledOf (entry : Value) (search : Str → Bool) : Compiled :=
  ⟨entry, search, Value.orElse (entry.field? "file_glob") (.list []),
    Value.orElse (entry.field? "exclude_glob") (.list [])⟩

theorem compileEntry_readable (object : ∃ kvs, entry = .dict kvs) (readable : Readable m entry) :
    compileEntry m entry =
      .ok (((searchOf m entry).map (compiledOf entry)).toList, (warningOf m entry).toList) := by
  obtain ⟨kvs, rfl⟩ := object
  have text := text_view readable.pattern
  have calm := readable.calm
  unfold searchOf warningOf
  unfold patternOf at calm ⊢
  unfold compileEntry
  rw [Value.get_dict, ok_bind]
  rw [Value.field?_dict] at text
  rw [text]
  dsimp only
  by_cases blank : Str.strip (textOf (.dict kvs) "regression_pattern") = []
  · rw [if_pos blank, if_pos blank, if_pos blank]
    rfl
  · rw [if_neg blank, if_neg blank, if_neg blank, calm]
    dsimp only
    cases m.compile (Str.strip (textOf (.dict kvs) "regression_pattern")) false <;> rfl

theorem compileRegistryPatterns_readable {entries : List Value}
    (objects : ∀ e ∈ entries, ∃ kvs, e = .dict kvs) (readable : ∀ e ∈ entries, Readable m e) :
    compileRegistryPatterns m entries =
      .ok (entries.flatMap (fun e => ((searchOf m e).map (compiledOf e)).toList),
        entries.flatMap (fun e => (warningOf m e).toList)) := by
  have each : entries.mapM (compileEntry m) = .ok (entries.map (fun e =>
      (((searchOf m e).map (compiledOf e)).toList, (warningOf m e).toList))) := by
    induction entries with
    | nil => rfl
    | cons e rest ih =>
        rw [List.mapM_cons, compileEntry_readable (objects e List.mem_cons_self)
          (readable e List.mem_cons_self), ok_bind,
          ih (fun e later => objects e (List.mem_cons_of_mem _ later))
            (fun e later => readable e (List.mem_cons_of_mem _ later))]
        rfl
  unfold compileRegistryPatterns
  rw [each, ok_bind, List.flatMap_map, List.flatMap_map]
  rfl

theorem matchesAny_texts (path : Str) (globs : List Str) :
    matchesAny m path (globs.map Value.str) = .ok (globMatches m.toMatching path globs) := by
  unfold globMatches
  induction globs with
  | nil => rfl
  | cons g rest ih =>
      rw [List.map_cons, matchesAny, List.flatMap_cons, List.any_append]
      by_cases here : ((expandGlobstar g).any
          (fun g => m.fnmatch (baseName path) g || m.fnmatch path g)) = true
      · rw [if_pos here, here, Bool.true_or]
      · rw [if_neg here, ih, Bool.eq_false_iff.mpr here, Bool.false_or]

theorem globHit_texts (path : Str) (globs : List Str) :
    globHit m path (.list (globs.map Value.str)) = .ok (globMatches m.toMatching path globs) := by
  unfold globHit
  cases globs with
  | nil => rfl
  | cons g rest =>
      have truthy : (Value.list ((g :: rest).map Value.str)).truthy = true := rfl
      rw [if_pos truthy]
      exact matchesAny_texts path (g :: rest)

theorem anyAllow_texts (line : Str) {ids : List Value} {texts : List Str}
    (same : List.Forall₂ (fun v s => v = .str s ∨ (v.truthy = false ∧ s = [])) ids texts) :
    anyAllow line ids = .ok (lineHasAllow line texts) := by
  unfold lineHasAllow
  induction same with
  | nil => rfl
  | @cons v s rest texts here _ ih =>
      rw [List.any_cons]
      rcases here with rfl | ⟨falsy, rfl⟩
      · rw [anyAllow]
        by_cases hit : s ≠ [] ∧ (Re.searchFrom (allowPattern s) none line).isSome = true
        · rw [if_pos hit]
          simp [hit.1, hit.2]
        · rw [if_neg hit, ih]
          have missed : (s ≠ [] && (Re.searchFrom (allowPattern s) none line).isSome) = false := by
            rw [Bool.eq_false_iff, ne_eq, Bool.and_eq_true, decide_eq_true_eq]
            exact hit
          rw [missed, Bool.false_or]
      · have skipped : anyAllow line (v :: rest) = anyAllow line rest := by
          cases v with
          | str s =>
              have empty : s = [] := by simpa [Value.truthy] using falsy
              rw [anyAllow, if_neg (fun both => both.1 empty)]
          | _ =>
              rw [anyAllow, if_neg (by rw [falsy]; exact Bool.false_ne_true)]
              exact nofun
        rw [skipped, ih]
        rfl

theorem allow_field {key : Str} (text : IsText entry key) :
    (entry.field? key).getD (.str []) = .str (textOf entry key) ∨
      (((entry.field? key).getD (.str [])).truthy = false ∧ textOf entry key = []) := by
  unfold textOf
  cases field : entry.field? key with
  | none => exact .inl rfl
  | some v =>
      by_cases truthy : v.truthy = true
      · obtain ⟨s, rfl⟩ := text v field truthy
        exact .inl rfl
      · cases v with
        | str s => exact .inl rfl
        | _ => exact .inr ⟨by rwa [Bool.not_eq_true] at truthy, rfl⟩

theorem searchLine_readable {a : Added} {search : Str → Bool} (readable : Readable m entry) :
    searchLine a (compiledOf entry search) =
      .ok (if lineHasAllow a.text [textOf entry "failure_id", textOf entry "prevention_rule"] = false ∧
        search a.text = true then [violationOf a entry] else []) := by
  have allowed := anyAllow_texts a.text (.cons (allow_field readable.failureId)
    (.cons (allow_field readable.preventionRule) .nil))
  unfold searchLine compiledOf
  dsimp only
  rw [allowed, ok_bind]
  have verdict : ∀ allowed hit : Bool,
      (if (allowed || !hit) = true then pure [] else pure [violationOf a entry] :
        Except Exc (List Violation)) =
      .ok (if allowed = false ∧ hit = true then [violationOf a entry] else []) := by
    intro allowed hit
    cases allowed <;> cases hit <;> rfl
  exact verdict _ _

theorem checkItem_readable {a : Added} {search : Str → Bool} (readable : Readable m entry) :
    checkItem m a (compiledOf entry search) =
      .ok (if (globsOf entry "file_glob" = [] ∨
            globMatches m.toMatching a.path (globsOf entry "file_glob") = true) ∧
          globMatches m.toMatching a.path (globsOf entry "exclude_glob") = false ∧
          lineHasAllow a.text [textOf entry "failure_id", textOf entry "prevention_rule"] = false ∧
          search a.text = true then [violationOf a entry] else []) := by
  have line := @searchLine_readable m entry a search readable
  have inside : (compiledOf entry search).fileGlob = .list ((globsOf entry "file_glob").map .str) :=
    globs_view readable.fileGlob
  have outside : (compiledOf entry search).excludeGlob =
      .list ((globsOf entry "exclude_glob").map .str) := globs_view readable.excludeGlob
  have truthy : (Value.list ((globsOf entry "file_glob").map Value.str)).truthy =
      !(globsOf entry "file_glob").isEmpty := by
    cases globsOf entry "file_glob" <;> rfl
  unfold checkItem
  rw [inside, outside, globHit_texts, globHit_texts, ok_bind, ok_bind, truthy, line]
  by_cases named : globsOf entry "file_glob" = [] ∨
      globMatches m.toMatching a.path (globsOf entry "file_glob") = true
  · have passes : (!(globsOf entry "file_glob").isEmpty &&
        !globMatches m.toMatching a.path (globsOf entry "file_glob")) = false := by
      rcases named with none | hit
      · rw [none]
        rfl
      · rw [hit, Bool.not_true, Bool.and_false]
    rw [passes, if_neg Bool.false_ne_true]
    cases excluded : globMatches m.toMatching a.path (globsOf entry "exclude_glob") with
    | true =>
        rw [if_pos rfl, if_neg (fun all => by cases all.2.1)]
        rfl
    | false =>
        rw [if_neg Bool.false_ne_true]
        congr 2
        rw [eq_iff_iff]
        exact ⟨fun both => ⟨named, rfl, both⟩, fun all => all.2.2⟩
  · have stops : (!(globsOf entry "file_glob").isEmpty &&
        !globMatches m.toMatching a.path (globsOf entry "file_glob")) = true := by
      rw [not_or, Bool.not_eq_true] at named
      rw [named.2, Bool.not_false, Bool.and_true, Bool.not_eq_true', List.isEmpty_eq_false_iff]
      exact named.1
    rw [if_pos stops, if_neg (fun all => named all.1)]
    rfl

end

section

variable {m : Engine} {scanned : List Value}

/-- The matchers of the entries whose patterns are valid. -/
def compiledList (m : Engine) (scanned : List Value) : List Compiled :=
  scanned.flatMap (fun e => ((searchOf m e).map (compiledOf e)).toList)

theorem mem_compiledList {item : Compiled} :
    item ∈ compiledList m scanned ↔
      ∃ e ∈ scanned, ∃ search, searchOf m e = some search ∧ item = compiledOf e search := by
  unfold compiledList
  rw [List.mem_flatMap]
  apply exists_congr
  intro e
  apply and_congr_right
  intro _
  rw [Option.mem_toList, Option.map_eq_some_iff]
  exact exists_congr (fun search => and_congr_right (fun _ => eq_comm))

theorem compiledList_entries :
    (compiledList m scanned).map Compiled.entry = scanned.filter (fun e => (searchOf m e).isSome) := by
  unfold compiledList
  induction scanned with
  | nil => rfl
  | cons e rest ih =>
      rw [List.flatMap_cons, List.map_append, ih, List.filter_cons]
      cases searchOf m e <;> rfl

/-- One added line against the compiled patterns. -/
theorem checkLine_readable (readable : ∀ e ∈ scanned, Readable m e) (a : Added) :
    ∃ violations, checkLine m (compiledList m scanned) a = .ok violations ∧
      ∀ v, v ∈ violations ↔ ∃ e ∈ scanned, Readds m a e ∧ v = violationOf a e := by
  unfold checkLine
  by_cases own : selfReferential.contains a.path = true
  · rw [if_pos own]
    refine ⟨[], rfl, fun v => ⟨nofun, ?_⟩⟩
    rintro ⟨e, -, readds, -⟩
    exact absurd (List.contains_iff_mem.mp own) readds.scanned
  · rw [if_neg own]
    have away : a.path ∉ selfReferential := fun inside => own (List.contains_iff_mem.mpr inside)
    obtain ⟨per, ran⟩ : Fold.Ends ((compiledList m scanned).mapM (checkItem m a)) := by
      apply Fold.mapM_ends.mpr
      intro item inside
      obtain ⟨e, member, search, -, rfl⟩ := mem_compiledList.mp inside
      exact ⟨_, checkItem_readable (readable e member)⟩
    refine ⟨per.flatten, by rw [ran]; rfl, fun v => ?_⟩
    rw [List.mem_flatten]
    constructor
    · rintro ⟨found, inside, hit⟩
      obtain ⟨item, member, checked⟩ := (mapM_members ran).2 found inside
      obtain ⟨e, known, search, compiled, rfl⟩ := mem_compiledList.mp member
      rw [checkItem_readable (readable e known), Except.ok.injEq] at checked
      subst checked
      split at hit
      · rename_i all
        exact ⟨e, known, ⟨away, all.1, all.2.1, all.2.2.1, search, compiled, all.2.2.2⟩,
          List.mem_singleton.mp hit⟩
      · cases hit
    · rintro ⟨e, known, readds, rfl⟩
      obtain ⟨search, compiled, hit⟩ := readds.found
      have member := mem_compiledList.mpr ⟨e, known, search, compiled, rfl⟩
      obtain ⟨found, inside, checked⟩ := (mapM_members ran).1 _ member
      rw [checkItem_readable (readable e known), if_pos ⟨readds.named, readds.kept, readds.unallowed, hit⟩,
        Except.ok.injEq] at checked
      exact ⟨found, inside, checked ▸ List.mem_cons_self⟩

theorem enforced (objects : ∀ e ∈ scanned, ∃ kvs, e = .dict kvs)
    (readable : ∀ e ∈ scanned, Readable m e) : Enforced m scanned := by
  refine ⟨compiledList m scanned, _, compileRegistryPatterns_readable objects readable,
    compiledList_entries, (List.filterMap_eq_flatMap_toList _ _).symm, fun added => ?_⟩
  obtain ⟨per, ran⟩ : Fold.Ends (added.mapM (checkLine m (compiledList m scanned))) := by
    apply Fold.mapM_ends.mpr
    intro a _
    obtain ⟨violations, checked, -⟩ := checkLine_readable readable a
    exact ⟨violations, checked⟩
  refine ⟨per.flatten, ?_, fun v => ?_⟩
  · unfold checkAddedAgainstRegistry
    rw [ran]
    rfl
  · rw [List.mem_flatten]
    constructor
    · rintro ⟨found, inside, hit⟩
      obtain ⟨a, member, checked⟩ := (mapM_members ran).2 found inside
      obtain ⟨violations, checked', each⟩ := checkLine_readable readable a
      rw [checked, Except.ok.injEq] at checked'
      subst checked'
      obtain ⟨e, known, readds, same⟩ := (each v).mp hit
      exact ⟨a, member, e, known, readds, same⟩
    · rintro ⟨a, member, e, known, readds, same⟩
      obtain ⟨found, inside, checked⟩ := (mapM_members ran).1 a member
      obtain ⟨violations, checked', each⟩ := checkLine_readable readable a
      rw [checked, Except.ok.injEq] at checked'
      subst checked'
      exact ⟨found, inside, (each v).mpr ⟨e, known, readds, same⟩⟩

end

/-- Every entry with a pattern is compiled without a warning, and applied to every added line
its globs let through. -/
def EnforcedWhole (r : Registries) (m : Engine) : Prop :=
  ∀ findings, check r = .ok (0, findings) → ∃ bundled merge scanned owners compiled,
    mergeSources r bundled = .ok (merge, false) ∧
    resolveRegistry r (some scannedStatuses) = .ok (scanned, owners) ∧
    scanned.map untag =
      ((merge.merged.map Checked.entry).filter (hasStatus scannedStatuses)).map untag ∧
    compileRegistryPatterns m scanned = .ok (compiled, []) ∧
    ∀ added, ∃ violations, checkAddedAgainstRegistry m added compiled = .ok violations ∧
      ∀ a ∈ added, ∀ e ∈ scanned,
        (globsOf e "file_glob" = [] ∨ globMatches m.toMatching a.path (globsOf e "file_glob") = true) →
        globMatches m.toMatching a.path (globsOf e "exclude_glob") = false →
        (∃ search, searchOf m e = some search ∧ search a.text = true) →
        violationOf a e ∈ violations

/-! Concrete registries. -/

def pilotFields (pattern : Str) : List (Str × Value) :=
  [("failure_id", .str "F1"), ("timestamp", .str "t"), ("category", .str "c"),
    ("severity", .str "high"), ("error_message", .str "m"), ("root_cause", .str "r"),
    ("affected_files", .list []), ("fix_commit", .str "pending"),
    ("regression_pattern", .str pattern), ("prevention_rule", .str ""), ("status", .str "active")]

/-- A registry of one entry with this pattern. -/
def pilot (pattern : Str) : Registries where
  bundled := some (Utf8.ascii (Json.dumps (.dict (pilotFields pattern))))
  overlay := .absent
  hasCommit := fun _ _ => true
  hasPath := fun _ _ => true
  printer := ⟨fun _ => true, fun _ => []⟩

/-- An engine on texts without operators, on which an open parenthesis is no pattern. -/
def pilotEngine : Engine where
  compile := fun pattern _ =>
    if pattern = "(" then .error "missing ), unterminated subpattern at position 0"
    else .ok (fun text => pattern <:+: text)
  fnmatch := fun name pattern => name = pattern
  raises := fun _ => none

end DevGate.Gate.Hygiene
