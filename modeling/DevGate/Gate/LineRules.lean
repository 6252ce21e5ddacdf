import DevGate.Gate.JsText
import DevGate.Gate.Patch
import DevGate.Gate.RegressionCheck

set_option autoImplicit false

/- A pattern rule on the added lines of a diff: `check_diff_against_patterns`, which searches
all of them as one text, beside the judgement of guardrails-scan.mjs on one line. -/
namespace DevGate.Gate.LineRules

open Py Diff
open JsText (trim startsWith)

/-- The two languages' regular expressions; `new RegExp(pattern)` may throw. -/
structure Engines where
  python : Regression.Matching
  js : Str → Option (Str → Bool)

/-- `isCommentLine`. -/
def isCommentLine (line ext : Str) : Bool :=
  let trimmed := trim line
  if trimmed = [] then false
  else if ext ∈ ([".py", ".rb", ".sh"] : List Str) then startsWith trimmed "#"
  else if ext ∈ ([".html", ".xml", ".svg"] : List Str) then startsWith trimmed "<!--"
  else if ext ∈ ([".ts", ".tsx", ".js", ".jsx", ".mjs", ".cjs", ".svelte", ".rs", ".go", ".java", ".kt",
      ".gd", ".php", ".zig"] : List Str) then
    startsWith trimmed "//" || startsWith trimmed "/*" || startsWith trimmed "*"
  else false

/-- The pattern of a line's own exemption from a rule. -/
def allowSource (ruleId : Option Str) : Str :=
  "guardrails-allow\\s+" ++ (ruleId.getD "undefined" ++ ("\\s*:\\s*\\S" : Str))

/-- Whether the scanner passes a line over before it tries the pattern; nothing where it throws. -/
def exempt (E : Engines) (rule : Regression.Rule) (scanComments : Bool) (ext line : Str) :
    Option Bool :=
  if !scanComments && isCommentLine line ext then some true
  else (E.js (allowSource rule.ruleId)).map (fun allow => allow line)

/-- What the scanner says of one line; a pattern that does not compile is passed over. -/
def flags (E : Engines) (rule : Regression.Rule) (scanComments : Bool) (ext line : Str) :
    Option Bool := do
  if ← exempt E rule scanComments ext line then return false
  match E.js rule.pattern with
  | none => return false
  | some pattern =>
      if pattern line then
        if rule.forbiddenContext = [] then return true
        else match E.js rule.forbiddenContext with
          | none => return false
          | some forbidden => return !forbidden line
      else return false

/-- `check_diff_against_patterns` reports the rule. -/
def reports (m : Regression.Matching) (diff : Str) (rule : Regression.Rule) : Bool :=
  !(Regression.checkDiffAgainstPatterns m diff [rule]).isEmpty

/-- A regular expression about single lines: `hit` is what it says of one, a text of several
lines is searched line by line, and both languages read it alike on these lines. -/
structure OneLine (E : Engines) (source : Str) (hit : Str → Bool) (added : List Str) : Prop where
  python : ∃ search, E.python.compile source true = .ok search ∧
    ∀ lines : List Str, lines ≠ [] → (∀ l ∈ lines, newline ∉ l) →
      search (Str.join [newline] lines) = lines.any hit
  js : ∃ test, E.js source = some test ∧ ∀ line ∈ added, test line = hit line

/-- A pattern rule whose pattern and forbidden context are about single lines. -/
structure LineRule (E : Engines) (added : List Str) where
  rule : Regression.Rule
  scanComments : Bool
  hit : Str → Bool
  context : Str → Bool
  isPattern : rule.ruleType = "pattern"
  given : rule.pattern ≠ []
  pattern : OneLine E rule.pattern hit added
  unforbidden : rule.forbiddenContext = [] → ∀ line, context line = false
  forbidden : rule.forbiddenContext ≠ [] → OneLine E rule.forbiddenContext context added

/-- The line matches the pattern, and not the forbidden context. -/
def LineRule.violates {E : Engines} {added : List Str} (r : LineRule E added) (line : Str) : Bool :=
  r.hit line && !r.context line

/-- The texts of a diff's added lines. -/
def addedOf (patch : Patch) : List Str := (Patch.added patch).map Prod.snd

/-- The added lines the check keeps: none that looks like a `+++` line. -/
def kept (added : List Str) : List Str := added.filter (fun text => !([plus, plus].isPrefixOf text))

/-- The lines of the text it searches; no line at all is an empty one. -/
def searched (added : List Str) : List Str := if kept added = [] then [[]] else kept added

/-- A rule is judged line by line on this diff. -/
structure Linewise {E : Engines} (patch : Patch) (r : LineRule E (addedOf patch)) (ext : Str) : Prop where
  judged : reports E.python (Patch.print patch) r.rule = true ↔ ∃ l ∈ addedOf patch, r.violates l = true
  grows : ∀ fewer : Patch, (addedOf fewer).Sublist (addedOf patch) →
    reports E.python (Patch.print fewer) r.rule = true →
    reports E.python (Patch.print patch) r.rule = true
  alike : ∀ l ∈ addedOf patch,
    flags E r.rule r.scanComments ext l = some (reports E.python (plus :: l) r.rule)

/-- The added lines do not touch each other's judgement. -/
structure Unmixed {E : Engines} {added : List Str} (r : LineRule E added) (ext : Str) : Prop where
  /-- Where a line violates the rule, one does that the check keeps, and none that it searches
  matches the forbidden context. -/
  clear : ∀ l ∈ added, r.violates l = true →
    (∃ l' ∈ searched added, r.violates l' = true) ∧ ∀ l' ∈ searched added, r.context l' = false
  /-- The empty text does not violate it, or else some line does. -/
  empty : r.violates [] = true → ∃ l ∈ added, r.violates l = true
  /-- The scanner's exemptions spare no violating line, and a line the check drops violates it
  no more than the empty text. -/
  spared : ∀ l ∈ added, ∃ e, exempt E r.rule r.scanComments ext l = some e ∧
    (!e && r.violates l) = if [plus, plus] <+: l then r.violates [] else r.violates l

/-! The text that is searched. -/

section

variable {E : Engines} {added : List Str}

theorem searched_ne_nil (added : List Str) : searched added ≠ [] := by
  unfold searched
  split
  · exact List.cons_ne_nil _ _
  · assumption

theorem join_searched (added : List Str) :
    Str.join [newline] (kept added) = Str.join [newline] (searched added) := by
  unfold searched
  split
  · rename_i none
    rw [none]
    rfl
  · rfl

theorem searches_oneLine {source : Str} {hit : Str → Bool} (one : OneLine E source hit added)
    {lines : List Str} (some_ : lines ≠ []) (unbroken : ∀ l ∈ lines, newline ∉ l) :
    Regression.searches E.python source (Str.join [newline] lines) = some (lines.any hit) := by
  obtain ⟨search, compiled, reads⟩ := one.python
  unfold Regression.searches
  rw [compiled]
  exact congrArg some (reads lines some_ unbroken)

/-- The check on the lines it searches: one matches, and none is forbidden. -/
theorem ruleViolation_isSome (r : LineRule E added) {lines : List Str} (some_ : lines ≠ [])
    (unbroken : ∀ l ∈ lines, newline ∉ l) :
    (Regression.ruleViolation E.python (Str.join [newline] lines) r.rule).isSome = true ↔
      (∃ l ∈ lines, r.violates l = true) ∧ ∀ l ∈ lines, r.context l = false := by
  have bound : ((∃ l ∈ lines, r.hit l = true) ∧ ∀ l ∈ lines, r.context l = false) ↔
      (∃ l ∈ lines, r.violates l = true) ∧ ∀ l ∈ lines, r.context l = false := by
    constructor
    · rintro ⟨⟨l, member, hit⟩, clear⟩
      refine ⟨⟨l, member, ?_⟩, clear⟩
      unfold LineRule.violates
      rw [hit, clear l member]
      rfl
    · rintro ⟨⟨l, member, violates⟩, clear⟩
      exact ⟨⟨l, member, (Bool.and_eq_true_iff.mp violates).1⟩, clear⟩
  rw [← bound]
  unfold Regression.ruleViolation
  rw [if_neg (by rw [not_or, not_not]; exact ⟨r.isPattern, r.given⟩),
    searches_oneLine r.pattern some_ unbroken]
  by_cases hit : lines.any r.hit = true
  · have hits := List.any_eq_true.mp hit
    rw [if_neg (by rw [hit]; exact not_not.mpr rfl)]
    by_cases bare : r.rule.forbiddenContext = []
    · rw [if_neg (fun both => both.1 bare)]
      exact iff_of_true rfl ⟨hits, fun l _ => r.unforbidden bare l⟩
    · rw [searches_oneLine (r.forbidden bare) some_ unbroken]
      by_cases forbidden : lines.any r.context = true
      · rw [if_pos ⟨bare, by rw [forbidden]; exact nofun⟩]
        refine iff_of_false nofun (fun both => ?_)
        obtain ⟨l, member, matched⟩ := List.any_eq_true.mp forbidden
        rw [both.2 l member] at matched
        cases matched
      · rw [Bool.not_eq_true] at forbidden
        rw [if_neg (by rw [forbidden]; exact fun both => both.2 rfl)]
        refine iff_of_true rfl ⟨hits, fun l member => ?_⟩
        exact Bool.eq_false_iff.mpr (List.any_eq_false.mp forbidden l member)
  · rw [if_pos (fun same => hit (Option.some.inj same))]
    exact iff_of_false nofun (fun both => hit (List.any_eq_true.mpr both.1))

end

/-! The added lines of a diff. -/

/-- A line that the check takes for an added one. -/
def taken (line : Str) : Bool := [plus].isPrefixOf line && !([plus, plus, plus].isPrefixOf line)

theorem taken_other {line : Str} (first : line.head? ≠ some plus) : taken line = false := by
  unfold taken
  cases line with
  | nil => rfl
  | cons c rest =>
      have apart : (plus == c) = false := beq_eq_false_iff_ne.mpr (fun same => first (by rw [same]; rfl))
      rw [List.isPrefixOf_cons_cons, apart]
      rfl

theorem taken_plus (text : Str) : taken (plus :: text) = !([plus, plus].isPrefixOf text) := by
  unfold taken
  rw [List.isPrefixOf_cons_cons, List.isPrefixOf_cons_cons, beq_self_eq_true, Bool.true_and,
    List.isPrefixOf_nil_left, Bool.true_and, Bool.true_and]

theorem taken_label (name : Str) : taken (header ++ name) = false := by
  unfold taken
  have front : [plus, plus, plus].isPrefixOf (header ++ name) = true :=
    List.isPrefixOf_iff_prefix.mpr ⟨blank :: name, rfl⟩
  rw [front, Bool.not_true, Bool.and_false]

theorem taken_unadded {line : BodyLine} (other : line.added? = none) : taken line.print = false := by
  apply taken_other
  cases line with
  | added l => cases other
  | context l => exact fun same => absurd (Option.some.inj same) (by decide)
  | removed l => exact fun same => absurd (Option.some.inj same) (by decide)
  | note l => exact fun same => absurd (Option.some.inj same) (by decide)

theorem print_of_added {line : BodyLine} {text : Str} (adds : line.added? = some text) :
    line.print = plus :: text := by
  cases line with
  | added l =>
      cases adds
      rfl
  | _ => cases adds

theorem taken_body (body : List BodyLine) :
    ((body.map BodyLine.print).filter taken).map (List.drop 1) = kept (body.filterMap BodyLine.added?) := by
  unfold kept
  induction body with
  | nil => rfl
  | cons line rest ih =>
      rw [List.map_cons, List.filter_cons]
      cases adds : line.added? with
      | none =>
          rw [taken_unadded adds, if_neg Bool.false_ne_true, List.filterMap_cons_none adds, ih]
      | some text =>
          rw [print_of_added adds, taken_plus, List.filterMap_cons_some adds, List.filter_cons]
          by_cases stays : (!([plus, plus].isPrefixOf text)) = true
          · rw [if_pos stays, if_pos stays, List.map_cons, ih]
            rfl
          · rw [if_neg stays, if_neg stays, ih]

theorem kept_append (front back : List Str) : kept (front ++ back) = kept front ++ kept back :=
  List.filter_append ..

theorem taken_hunks (hunks : List Hunk) :
    ((hunks.flatMap Hunk.lines).filter taken).map (List.drop 1) = kept (hunks.flatMap Hunk.added) := by
  induction hunks with
  | nil => rfl
  | cons h rest ih =>
      have headline : taken h.headline = false :=
        taken_other (fun same => absurd (Option.some.inj same) (by decide : atSign ≠ plus))
      rw [List.flatMap_cons, List.flatMap_cons, List.filter_append, List.map_append, ih, kept_append,
        Hunk.lines, List.filter_cons_of_neg (by rw [headline]; exact nofun), taken_body]
      rfl

/-- The texts of a section's added lines are those of its hunks. -/
theorem texts_section (s : Section) : s.added.map Prod.snd = s.hunks.flatMap Hunk.added := by
  cases labels : s.label with
  | none =>
      have none : s.added = [] := by
        unfold Section.added Section.path?
        rw [labels]
        rfl
      rw [none, s.bare labels]
      rfl
  | some l =>
      rw [Section.added_eq labels]
      unfold labelled
      cases found : target (header ++ l.text) with
      | none =>
          have gone := s.deleted l (Option.mem_def.mpr labels) found
          rw [Option.getD_none, if_pos rfl, List.map_nil]
          exact (List.flatMap_eq_nil_iff.mpr gone).symm
      | some name =>
          have filled : name ≠ [] := by
            rintro rfl
            exact s.named l (Option.mem_def.mpr labels) found
          rw [Option.getD_some, if_neg filled, List.map_map]
          exact List.map_id _

theorem taken_section (s : Section) :
    (s.lines.filter taken).map (List.drop 1) = kept (s.added.map Prod.snd) := by
  have quiet : (s.preface.map Line.text).filter taken = [] := by
    apply List.filter_eq_nil_iff.mpr
    intro line member marked
    obtain ⟨l, inside, rfl⟩ := List.mem_map.mp member
    rw [taken_other (s.quiet l inside).1] at marked
    cases marked
  rw [texts_section]
  unfold Section.lines
  rw [List.filter_append, quiet, List.nil_append]
  cases labels : s.label with
  | none =>
      rw [s.bare labels]
      rfl
  | some l =>
      dsimp only
      rw [List.filter_cons_of_neg (by rw [taken_label]; exact nofun), taken_hunks]

/-- The check keeps the added lines of a diff that do not look like a `+++` line. -/
theorem addedTexts_print (patch : Patch) :
    Regression.addedTexts (Patch.print patch) = kept (addedOf patch) := by
  have sections : ((Patch.lines patch).filter taken).map (List.drop 1) = kept (addedOf patch) := by
    unfold addedOf Patch.lines Patch.added
    induction patch with
    | nil => rfl
    | cons s rest ih =>
        rw [List.flatMap_cons, List.flatMap_cons, List.filter_append, List.map_append,
          List.map_append, kept_append, taken_section, ih]
  have whole : Regression.addedTexts (Patch.print patch) =
      ((Patch.lines patch ++ [[]]).filter taken).map (List.drop 1) := by
    rw [← Patch.split_print]
    rfl
  rw [whole, List.filter_append, List.map_append, sections]
  exact List.append_nil _

theorem addedOf_unbroken (patch : Patch) : ∀ l ∈ addedOf patch, newline ∉ l := by
  intro l member
  unfold addedOf Patch.added at member
  rw [List.map_flatMap] at member
  obtain ⟨s, -, inside⟩ := List.mem_flatMap.mp member
  rw [texts_section] at inside
  obtain ⟨h, -, inside⟩ := List.mem_flatMap.mp inside
  obtain ⟨line, -, adds⟩ := List.mem_filterMap.mp inside
  cases line with
  | added text =>
      cases adds
      exact text.unbroken
  | _ => cases adds

theorem searched_unbroken {added : List Str} (unbroken : ∀ l ∈ added, newline ∉ l) :
    ∀ l ∈ searched added, newline ∉ l := by
  intro l member
  unfold searched at member
  split at member
  · cases List.mem_singleton.mp member
    exact List.not_mem_nil
  · exact unbroken l (List.mem_filter.mp member).1

/-! The judgements. -/

section

variable {E : Engines} {added : List Str}

theorem reports_of_texts (r : LineRule E added) {diff : Str} {texts : List Str}
    (unbroken : ∀ l ∈ texts, newline ∉ l) (read : Regression.addedTexts diff = kept texts) :
    reports E.python diff r.rule = true ↔
      (∃ l ∈ searched texts, r.violates l = true) ∧ ∀ l ∈ searched texts, r.context l = false := by
  rw [← ruleViolation_isSome r (searched_ne_nil texts) (searched_unbroken unbroken), ← join_searched,
    ← read]
  unfold reports Regression.checkDiffAgainstPatterns
  rw [List.filterMap_cons, List.filterMap_nil]
  cases Regression.ruleViolation E.python (Str.join [newline] (Regression.addedTexts diff)) r.rule with
  | none => exact iff_of_false nofun nofun
  | some v => exact iff_of_true rfl rfl

theorem reports_print (r : LineRule E added) (patch : Patch) :
    reports E.python (Patch.print patch) r.rule = true ↔
      (∃ l ∈ searched (addedOf patch), r.violates l = true) ∧
        ∀ l ∈ searched (addedOf patch), r.context l = false :=
  reports_of_texts r (addedOf_unbroken patch) (addedTexts_print patch)

theorem violates_iff_alone (r : LineRule E added) (line : Str) :
    ((∃ l ∈ [line], r.violates l = true) ∧ ∀ l ∈ [line], r.context l = false) ↔
      r.violates line = true := by
  simp only [List.mem_singleton, exists_eq_left, forall_eq]
  refine ⟨fun both => both.1, fun violates => ⟨violates, ?_⟩⟩
  have clear := (Bool.and_eq_true_iff.mp violates).2
  rwa [Bool.not_eq_true'] at clear

/-- The check of a diff that adds one line. -/
theorem reports_alone (r : LineRule E added) {line : Str} (unbroken : newline ∉ line) :
    reports E.python (plus :: line) r.rule =
      if [plus, plus] <+: line then r.violates [] else r.violates line := by
  have split_ : Str.split newline (plus :: line) = [plus :: line] := by
    apply Str.split_of_not_mem
    rw [List.mem_cons, not_or]
    exact ⟨by decide, unbroken⟩
  have read : Regression.addedTexts (plus :: line) = kept [line] := by
    have whole : Regression.addedTexts (plus :: line) =
        ([plus :: line].filter taken).map (List.drop 1) := by
      rw [← split_]
      rfl
    rw [whole]
    unfold kept
    rw [List.filter_singleton, List.filter_singleton, taken_plus]
    cases [plus, plus].isPrefixOf line <;> rfl
  rw [Bool.eq_iff_iff, reports_of_texts r (by simpa using unbroken) read]
  unfold searched kept
  rw [List.filter_singleton]
  by_cases marked : [plus, plus] <+: line
  · rw [if_pos marked, List.isPrefixOf_iff_prefix.mpr marked]
    exact violates_iff_alone r []
  · rw [if_neg marked, Bool.eq_false_iff.mpr (fun front => marked (List.isPrefixOf_iff_prefix.mp front))]
    exact violates_iff_alone r line

/-- The scanner's word on a line of the diff. -/
theorem flags_added (r : LineRule E added) (ext : Str) {line : Str} (inside : line ∈ added) :
    flags E r.rule r.scanComments ext line =
      (exempt E r.rule r.scanComments ext line).map (fun e => !e && r.violates line) := by
  unfold flags
  cases exempt E r.rule r.scanComments ext line with
  | none => rfl
  | some e =>
      cases e with
      | true => rfl
      | false =>
          obtain ⟨test, compiled, same⟩ := r.pattern.js
          unfold LineRule.violates
          rw [compiled, ← same line inside]
          dsimp only [Option.bind_eq_bind, Option.bind_some, Option.map_some]
          cases test line with
          | false => rfl
          | true =>
              by_cases bare : r.rule.forbiddenContext = []
              · rw [if_pos bare, r.unforbidden bare line]
                rfl
              · obtain ⟨forbidden, compiled', same'⟩ := (r.forbidden bare).js
                rw [if_neg bare, compiled', ← same' line inside]
                rfl

end

/-- A rule about single lines is judged line by line exactly where the added lines do not
touch each other's judgement. -/
theorem linewise_iff (E : Engines) (patch : Patch) (r : LineRule E (addedOf patch)) (ext : Str) :
    Linewise patch r ext ↔ Unmixed r ext := by
  have print := reports_print r patch
  constructor
  · intro linewise
    constructor
    case clear =>
      intro l member violates
      exact print.mp (linewise.judged.mpr ⟨l, member, violates⟩)
    case empty =>
      intro violates
      have start : reports E.python (Patch.print []) r.rule = true :=
        (reports_print r []).mpr ((violates_iff_alone r []).mpr violates)
      exact linewise.judged.mp (linewise.grows [] (List.nil_sublist _) start)
    case spared =>
      intro l member
      have same := linewise.alike l member
      rw [flags_added r ext member, reports_alone r (addedOf_unbroken patch l member),
        Option.map_eq_some_iff] at same
      exact same
  · intro unmixed
    have judged : reports E.python (Patch.print patch) r.rule = true ↔
        ∃ l ∈ addedOf patch, r.violates l = true := by
      rw [print]
      constructor
      · rintro ⟨⟨l, member, violates⟩, -⟩
        unfold searched at member
        split at member
        · cases List.mem_singleton.mp member
          exact unmixed.empty violates
        · exact ⟨l, (List.mem_filter.mp member).1, violates⟩
      · rintro ⟨l, member, violates⟩
        exact unmixed.clear l member violates
    constructor
    case judged => exact judged
    case grows =>
      intro fewer sub reported
      obtain ⟨⟨l, member, violates⟩, -⟩ := (reports_print r fewer).mp reported
      apply judged.mpr
      unfold searched at member
      split at member
      · cases List.mem_singleton.mp member
        exact unmixed.empty violates
      · exact ⟨l, sub.subset (List.mem_filter.mp member).1, violates⟩
    case alike =>
      intro l member
      rw [flags_added r ext member, reports_alone r (addedOf_unbroken patch l member),
        Option.map_eq_some_iff]
      exact unmixed.spared l member

/-! A hit and its excuse on two lines. -/

theorem contains_join {c : Chr} (other : c ≠ newline) (lines : List Str) :
    (Str.join [newline] lines).contains c = lines.any (fun l => l.contains c) := by
  induction lines with
  | nil => rfl
  | cons l rest ih =>
      by_cases last : rest = []
      · subst last
        simp [Str.join]
      · rw [Str.join_cons _ _ _ last, List.any_cons, ← ih]
        simp [other]

namespace TwoLines

/-- Both languages on the patterns of one ordinary character. -/
def letters : Engines where
  python :=
    { compile := fun source _ => .ok (fun text => source.all (fun c => text.contains c))
      fnmatch := fun name pattern => name == pattern }
  js := fun source => some (fun text => source.all (fun c => text.contains c))

theorem oneLine_letter {c : Chr} (other : c ≠ newline) (added : List Str) :
    OneLine letters [c] (fun text => text.contains c) added := by
  have single : ∀ text : Str, [c].all (fun d => text.contains d) = text.contains c := by
    intro text
    rw [List.all_cons, List.all_nil, Bool.and_true]
  refine ⟨⟨_, rfl, fun lines _ _ => ?_⟩, ⟨_, rfl, fun line _ => single line⟩⟩
  rw [single, contains_join other]

theorem early : 3 < 10 ^ Json.maxDigits :=
  Nat.lt_of_lt_of_le (by decide : 3 < 10 ^ 1) (Nat.pow_le_pow_right (by decide) (by decide))

def hunk : Hunk where
  oldStart := 3
  newStart := 3
  heading := ⟨"def run", by decide⟩
  body := [.added ⟨"call!", by decide⟩, .added ⟨"# note", by decide⟩]
  small := early

def commit : Patch :=
  [{ preface := [⟨"--- a/run.rb", by decide⟩]
     label := some ⟨"b/run.rb", by decide⟩
     hunks := [hunk]
     quiet := by decide
     bare := by simp
     named := by decide
     deleted := by decide }]

/-- No exclamation mark, unless there is a `#`. -/
def marks : LineRule letters (addedOf commit) where
  rule := ⟨some "PREVENT-900", none, none, none, none, none, true, "pattern", "!", "#", []⟩
  scanComments := false
  hit := fun text => text.contains '!'
  context := fun text => text.contains '#'
  isPattern := rfl
  given := nofun
  pattern := oneLine_letter (by decide) _
  unforbidden := nofun
  forbidden := fun _ => oneLine_letter (by decide) _

end TwoLines

open TwoLines in
/-- The first line violates the rule, and the `#` of the second one hides it. -/
theorem excused_by_another_line :
    ¬ Linewise commit marks ".rb" ∧ addedOf commit = ["call!", "# note"] ∧
      marks.violates "call!" = true ∧ reports letters.python (Patch.print commit) marks.rule = false := by
  have hidden : reports letters.python (Patch.print commit) marks.rule = false := by decide +kernel
  refine ⟨fun linewise => ?_, by decide +kernel, by decide +kernel, hidden⟩
  have reported := linewise.judged.mpr
    ⟨"call!", by decide +kernel, by decide +kernel⟩
  rw [hidden] at reported
  cases reported

end DevGate.Gate.LineRules
