import DevGate.Py.Str

set_option autoImplicit false

/- guardrails-scan.mjs on Rust files: the lines that `blankTestModulesRust` hides from the
blocking rules, beside the lines of the items that are annotated with `cfg(test)`. -/
namespace DevGate.Gate.TestModules

open Py

def cfgTest : Str := "#[cfg(test)]"

/-- `/#\[cfg\(test\)\]/.test(line)`. -/
def mentions (line : Str) : Bool := line.tails.any (fun rest => cfgTest.isPrefixOf rest)

/-- The opening braces of a line less its closing ones. -/
def delta (line : Str) : Int := (line.count (Chr.ofChar '\x7b') : Int) - line.count (Chr.ofChar '\x7d')

/-- The loop state of `blankTestModulesRust`. -/
structure Blanking where
  out : List Str
  depth : Int
  inBlock : Bool
  started : Bool

/-- The body of the loop. -/
def blankLine (b : Blanking) (line : Str) : Blanking :=
  if !b.inBlock && mentions line then ⟨b.out ++ [[]], 0, true, false⟩
  else if b.inBlock then
    let depth := b.depth + delta line
    let started := b.started || decide (0 < depth)
    ⟨b.out ++ [[]], depth, !(started && decide (depth ≤ 0)), started⟩
  else { b with out := b.out ++ [line] }

/-- `blankTestModulesRust`. -/
def blankTestModulesRust (lines : List Str) : List Str :=
  (lines.foldl blankLine ⟨[], 0, false, false⟩).out

/-! A source and its annotated items. -/

/-- The braces open at the end of some lines. -/
def depth (lines : List Str) : Int := (lines.map delta).sum

/-- An item annotated with `cfg(test)`: the line of its attribute, and its further lines. -/
structure TestItem where
  head : Str
  tail : List Str
  annotated : mentions head = true
  balanced : depth (head :: tail) = 0

inductive Part where
  | code (line : Str)
  | item (i : TestItem)

/-- A line, and whether it belongs to an annotated item. -/
structure Marked where
  line : Str
  test : Bool

def Part.marks : Part → List Marked
  | .code line => [⟨line, false⟩]
  | .item i => (i.head :: i.tail).map (fun line => ⟨line, true⟩)

/-- A Rust source: lines of code and annotated items, with balanced braces. -/
structure Source where
  parts : List Part
  balanced : depth ((parts.flatMap Part.marks).map Marked.line) = 0

def Source.marks (s : Source) : List Marked := s.parts.flatMap Part.marks

def Source.lines (s : Source) : List Str := s.marks.map Marked.line

/-- What the blocking rules are to see of a line. -/
def Marked.shown (m : Marked) : Str := if m.test then [] else m.line

/-- The test code is hidden, line by line, and nothing else. -/
def HidesTests (s : Source) : Prop := blankTestModulesRust s.lines = s.marks.map Marked.shown

/-- No line of production code, other than an empty one. -/
def Marked.idle (m : Marked) : Prop := m.test = true ∨ m.line = []

/-- Some line leaves a brace open, and at the end all are closed. -/
def Closing (lines : List Str) : Prop := (∃ n, 0 < depth (lines.take n)) ∧ depth lines ≤ 0

/-- The lines behind an attribute close for the first time at their end. -/
def Closes (lines : List Str) : Prop := Closing lines ∧ ∀ n < lines.length, ¬Closing (lines.take n)

/-- They do not close. -/
def Unclosed (lines : List Str) : Prop := ∀ n, ¬Closing (lines.take n)

/-- From a line with the attribute on, up to where the lines behind it close, no production
code stands; and no line of an annotated item stands outside such a stretch. -/
inductive Apart : List Marked → Prop where
  | nil : Apart []
  | line {m : Marked} {rest : List Marked} : mentions m.line = false →
      (m.test = true → m.line = []) → Apart rest → Apart (m :: rest)
  | stretch {m : Marked} {body rest : List Marked} : mentions m.line = true →
      (∀ x ∈ m :: body, x.idle) → Closes (body.map Marked.line) → Apart rest →
      Apart (m :: (body ++ rest))
  | last {m : Marked} {body : List Marked} : mentions m.line = true →
      (∀ x ∈ m :: body, x.idle) → Unclosed (body.map Marked.line) → Apart (m :: body)

/-! The counter. -/

theorem depth_append (front back : List Str) : depth (front ++ back) = depth front + depth back := by
  unfold depth
  rw [List.map_append, List.sum_append]

theorem depth_concat (lines : List Str) (line : Str) :
    depth (lines ++ [line]) = depth lines + delta line := by
  rw [depth_append]
  unfold depth
  rw [List.map_singleton, List.sum_singleton]

/-- Some line has left a brace open. -/
def Started (lines : List Str) : Prop := ∃ n, 0 < depth (lines.take n)

theorem started_concat (lines : List Str) (line : Str) :
    Started (lines ++ [line]) ↔ Started lines ∨ 0 < depth (lines ++ [line]) := by
  constructor
  · rintro ⟨n, open_⟩
    by_cases short : n ≤ lines.length
    · rw [List.take_append_of_le_length short] at open_
      exact Or.inl ⟨n, open_⟩
    · rw [List.take_of_length_le (by rw [List.length_append, List.length_singleton]; omega)] at open_
      exact Or.inr open_
  · rintro (⟨n, open_⟩ | open_)
    · by_cases short : n ≤ lines.length
      · exact ⟨n, by rwa [List.take_append_of_le_length short]⟩
      · refine ⟨lines.length, ?_⟩
        rw [List.take_of_length_le (by omega)] at open_
        rwa [List.take_left]
    · exact ⟨(lines ++ [line]).length, by rwa [List.take_length]⟩

def blanks (lines : List Str) : List Str := lines.map (fun _ => [])

theorem not_started_nil : ¬Started [] := by
  rintro ⟨n, open_⟩
  rw [List.take_nil] at open_
  exact absurd open_ (by decide)

theorem Unclosed.front {front : List Str} {line : Str} (unclosed : Unclosed (front ++ [line])) :
    Unclosed front := by
  intro n
  by_cases short : n ≤ front.length
  · have here := unclosed n
    rwa [List.take_append_of_le_length short] at here
  · have here := unclosed front.length
    rw [List.take_left] at here
    rwa [List.take_of_length_le (by omega)]

open Classical in
/-- One line in a block: the block ends where the lines so far close. -/
theorem blankLine_inside (out : List Str) (front : List Str) (line : Str) :
    blankLine ⟨out ++ blanks front, depth front, true, decide (Started front)⟩ line =
      ⟨out ++ blanks (front ++ [line]), depth (front ++ [line]),
        !decide (Closing (front ++ [line])), decide (Started (front ++ [line]))⟩ := by
  have started : (decide (Started front) || decide (0 < depth front + delta line)) =
      decide (Started (front ++ [line])) := by
    rw [Bool.eq_iff_iff]
    simp only [Bool.or_eq_true, decide_eq_true_eq, started_concat, depth_concat]
  have closing : (decide (Started (front ++ [line])) && decide (depth (front ++ [line]) ≤ 0)) =
      decide (Closing (front ++ [line])) := by
    rw [Bool.eq_iff_iff]
    simp only [Bool.and_eq_true, decide_eq_true_eq]
    exact Iff.rfl
  unfold blankLine
  simp only [Bool.not_true, Bool.false_and, Bool.false_eq_true, ↓reduceIte]
  rw [started, ← depth_concat, closing]
  unfold blanks
  rw [List.map_append, List.append_assoc]
  rfl

open Classical in
/-- The state behind an attribute, while the lines do not close. -/
theorem run_unclosed (out : List Str) {lines : List Str} (unclosed : Unclosed lines) :
    lines.foldl blankLine ⟨out, 0, true, false⟩ =
      ⟨out ++ blanks lines, depth lines, true, decide (Started lines)⟩ := by
  induction lines using List.reverseRecOn with
  | nil =>
      rw [List.foldl_nil, blanks, List.map_nil, List.append_nil, decide_eq_false not_started_nil]
      rfl
  | append_singleton front line ih =>
      have here : ¬Closing (front ++ [line]) := by
        have whole := unclosed (front ++ [line]).length
        rwa [List.take_length] at whole
      rw [List.foldl_append, ih unclosed.front, List.foldl_cons, List.foldl_nil, blankLine_inside,
        decide_eq_false here, Bool.not_false]

theorem Closes.unclosed_front {front : List Str} {line : Str} (closes : Closes (front ++ [line])) :
    Unclosed front := by
  intro n
  by_cases short : n ≤ front.length
  · have here := closes.2 n (by rw [List.length_append, List.length_singleton]; omega)
    rwa [List.take_append_of_le_length short] at here
  · have here := closes.2 front.length (by rw [List.length_append, List.length_singleton]; omega)
    rw [List.take_left] at here
    rwa [List.take_of_length_le (by omega)]

/-- Where the lines close, the block ends. -/
theorem run_closes (out : List Str) {lines : List Str} (closes : Closes lines) :
    ∃ d s, lines.foldl blankLine ⟨out, 0, true, false⟩ = ⟨out ++ blanks lines, d, false, s⟩ := by
  classical
  induction lines using List.reverseRecOn with
  | nil => exact absurd closes.1.1 not_started_nil
  | append_singleton front line _ =>
      refine ⟨depth (front ++ [line]), decide (Started (front ++ [line])), ?_⟩
      rw [List.foldl_append, run_unclosed out closes.unclosed_front, List.foldl_cons, List.foldl_nil,
        blankLine_inside, decide_eq_true closes.1, Bool.not_true]

/-- The lines behind an attribute close somewhere, or not at all. -/
theorem closes_or_unclosed (lines : List Str) :
    (∃ n, Closes (lines.take n)) ∨ Unclosed lines := by
  classical
  by_cases some_ : ∃ n, Closing (lines.take n)
  · refine Or.inl ⟨Nat.find some_, Nat.find_spec some_, fun n before => ?_⟩
    have shorter : n < Nat.find some_ := by
      rw [List.length_take] at before
      omega
    rw [List.take_take, Nat.min_eq_left (Nat.le_of_lt shorter)]
    exact Nat.find_min some_ shorter
  · exact Or.inr (fun n closing => some_ ⟨n, closing⟩)

/-! The whole run. -/

/-- What is shown so far stays as it is. -/
theorem blankLine_out (b : Blanking) (line : Str) :
    blankLine b line =
      { blankLine { b with out := [] } line with out := b.out ++ (blankLine { b with out := [] } line).out } := by
  unfold blankLine
  dsimp only
  split
  · rfl
  · split
    · rfl
    · rfl

theorem run_out (lines : List Str) (b : Blanking) :
    (lines.foldl blankLine b).out = b.out ++ (lines.foldl blankLine { b with out := [] }).out := by
  induction lines generalizing b with
  | nil => exact (List.append_nil _).symm
  | cons line rest ih =>
      rw [List.foldl_cons, List.foldl_cons, ih (blankLine b line), ih (blankLine { b with out := [] } line),
        blankLine_out b line, List.append_assoc]

/-- Outside a block the counter's last values play no part. -/
theorem run_outside (lines out : List Str) (d : Int) (s : Bool) :
    (lines.foldl blankLine ⟨out, d, false, s⟩).out = out ++ blankTestModulesRust lines := by
  rw [run_out]
  congr 1
  unfold blankTestModulesRust
  induction lines with
  | nil => rfl
  | cons line rest ih =>
      rw [List.foldl_cons, List.foldl_cons]
      cases marks : mentions line with
      | true =>
          have same : ∀ b : Blanking, b.inBlock = false →
              blankLine b line = ⟨b.out ++ [[]], 0, true, false⟩ := by
            intro b outside
            unfold blankLine
            rw [outside, marks]
            rfl
          rw [same _ rfl, same _ rfl]
      | false =>
          have same : ∀ b : Blanking, b.inBlock = false →
              blankLine b line = { b with out := b.out ++ [line] } := by
            intro b outside
            unfold blankLine
            rw [outside, marks]
            rfl
          rw [same _ rfl, same _ rfl]
          dsimp only
          rw [run_out, ih, run_out rest ⟨[] ++ [line], 0, false, false⟩]

theorem blank_line {line : Str} (silent : mentions line = false) (rest : List Str) :
    blankTestModulesRust (line :: rest) = line :: blankTestModulesRust rest := by
  have step : blankLine ⟨[], 0, false, false⟩ line = ⟨[line], 0, false, false⟩ := by
    unfold blankLine
    rw [silent]
    rfl
  unfold blankTestModulesRust
  rw [List.foldl_cons, step, run_out]
  rfl

theorem blank_attribute {line : Str} (marks : mentions line = true) (rest : List Str) :
    blankTestModulesRust (line :: rest) = [] :: (rest.foldl blankLine ⟨[], 0, true, false⟩).out := by
  have step : blankLine ⟨[], 0, false, false⟩ line = ⟨[[]], 0, true, false⟩ := by
    unfold blankLine
    rw [marks]
    rfl
  unfold blankTestModulesRust
  rw [List.foldl_cons, step, run_out]
  rfl

/-- From a line with the attribute on all lines are hidden up to where the braces close. -/
theorem blank_stretch {line : Str} (marks : mentions line = true) {body : List Str}
    (closes : Closes body) (rest : List Str) :
    blankTestModulesRust (line :: (body ++ rest)) =
      blanks (line :: body) ++ blankTestModulesRust rest := by
  obtain ⟨d, s, ran⟩ := run_closes [] closes
  rw [blank_attribute marks, List.foldl_append, ran, run_outside, List.nil_append]
  rfl

theorem blank_last {line : Str} (marks : mentions line = true) {body : List Str}
    (unclosed : Unclosed body) : blankTestModulesRust (line :: body) = blanks (line :: body) := by
  rw [blank_attribute marks, run_unclosed [] unclosed]
  rfl

theorem shown_idle {m : Marked} : m.shown = [] ↔ m.idle := by
  unfold Marked.shown Marked.idle
  cases m.test <;> simp

theorem blanks_eq_shown (marks : List Marked) :
    blanks (marks.map Marked.line) = marks.map Marked.shown ↔ ∀ x ∈ marks, x.idle := by
  unfold blanks
  rw [List.map_map, List.map_inj_left]
  refine forall₂_congr (fun x _ => ?_)
  rw [Function.comp_apply, eq_comm, shown_idle]

/-- The lines that are hidden are those of the annotated items exactly where the stretches the
counter hides lie apart from production code. -/
theorem blank_marks_iff (marks : List Marked) :
    blankTestModulesRust (marks.map Marked.line) = marks.map Marked.shown ↔ Apart marks := by
  constructor
  · induction size : marks.length using Nat.strongRecOn generalizing marks with
    | ind n ih =>
        intro hidden
        cases marks with
        | nil => exact .nil
        | cons m rest =>
            rw [List.length_cons] at size
            rw [List.map_cons] at hidden
            cases mentioned : mentions m.line with
            | false =>
                rw [blank_line mentioned, List.map_cons, List.cons.injEq] at hidden
                refine .line mentioned (fun test => ?_) (ih rest.length (by omega) rest rfl hidden.2)
                rw [hidden.1]
                exact shown_idle.mpr (Or.inl test)
            | true =>
                rcases closes_or_unclosed (rest.map Marked.line) with ⟨k, closes⟩ | unclosed
                · rw [← List.map_take] at closes
                  have parts : rest = rest.take k ++ rest.drop k := (List.take_append_drop k rest).symm
                  rw [parts] at hidden ⊢
                  rw [List.map_append, blank_stretch mentioned closes, ← List.map_cons, ← List.cons_append,
                    List.map_append] at hidden
                  obtain ⟨front, back⟩ := List.append_inj hidden (by simp [blanks])
                  have shorter : (rest.drop k).length < n := by
                    rw [List.length_drop]
                    omega
                  exact .stretch mentioned ((blanks_eq_shown _).mp front) closes
                    (ih _ shorter (rest.drop k) rfl back)
                · rw [blank_last mentioned unclosed, ← List.map_cons] at hidden
                  exact .last mentioned ((blanks_eq_shown _).mp hidden) unclosed
  · intro apart
    induction apart with
    | nil => rfl
    | @line m rest silent empty _ ih =>
        rw [List.map_cons, blank_line silent, ih, List.map_cons]
        congr 1
        unfold Marked.shown
        cases tested : m.test with
        | false => rfl
        | true => exact empty tested
    | @stretch m body rest mentioned idle closes _ ih =>
        rw [List.map_cons, List.map_append, blank_stretch mentioned closes, ih, ← List.map_cons,
          (blanks_eq_shown _).mpr idle, ← List.map_append, List.cons_append]
    | @last m body mentioned idle unclosed =>
        rw [List.map_cons, blank_last mentioned unclosed, ← List.map_cons, (blanks_eq_shown _).mpr idle]

/-- A line of code that does not mention the attribute, or an item whose lines behind that of
the attribute close at its end: one with a body on lines of its own. -/
def Part.Settled : Part → Prop
  | .code line => mentions line = false
  | .item i => Closes i.tail

theorem blank_settled {front : List Part} (settled : ∀ p ∈ front, p.Settled) (marks : List Marked) :
    blankTestModulesRust ((front.flatMap Part.marks ++ marks).map Marked.line) =
      (front.flatMap Part.marks).map Marked.shown ++ blankTestModulesRust (marks.map Marked.line) := by
  induction front with
  | nil => rfl
  | cons p rest ih =>
      rw [List.forall_mem_cons] at settled
      have shows : (p.marks ++ rest.flatMap Part.marks).map Marked.shown =
          p.marks.map Marked.shown ++ (rest.flatMap Part.marks).map Marked.shown := List.map_append
      rw [List.flatMap_cons, List.append_assoc, List.map_append, shows, List.append_assoc,
        ← ih settled.2]
      cases p with
      | code line => exact blank_line settled.1 _
      | item i =>
          have lines : (Part.marks (.item i)).map Marked.line = i.head :: i.tail := by
            unfold Part.marks
            rw [List.map_map]
            exact List.map_id _
          have shown : (Part.marks (.item i)).map Marked.shown = blanks (i.head :: i.tail) := by
            unfold Part.marks blanks
            rw [List.map_map]
            rfl
          rw [lines, shown, List.cons_append]
          exact blank_stretch i.annotated settled.1 _

/-- Test modules and functions with bodies are hidden, and nothing else. -/
theorem hidesTests_settled (s : Source) (settled : ∀ p ∈ s.parts, p.Settled) : HidesTests s := by
  have whole := blank_settled settled []
  rw [List.append_nil] at whole
  unfold HidesTests Source.lines Source.marks
  rw [whole]
  exact List.append_nil _

/-- What follows lines that do not close lies in their stretch. -/
theorem idle_behind {m c : Marked} {tail back : List Marked} (mentioned : mentions m.line = true)
    (unclosed : Unclosed (tail.map Marked.line)) (apart : Apart (m :: (tail ++ c :: back))) : c.idle := by
  generalize whole : m :: (tail ++ c :: back) = marks at apart
  cases apart with
  | nil => cases whole
  | line silent =>
      cases whole
      rw [mentioned] at silent
      cases silent
  | last _ idle =>
      cases whole
      exact idle c (List.mem_cons_of_mem _ (List.mem_append_right _ List.mem_cons_self))
  | @stretch m' body rest _ idle closes =>
      obtain ⟨-, same⟩ := List.cons.inj whole
      rcases List.append_eq_append_iff.mp same with ⟨more, longer, behind⟩ | ⟨more, shorter, -⟩
      · cases more with
        | nil =>
            rw [List.append_nil] at longer
            subst longer
            have here := unclosed (body.map Marked.line).length
            rw [List.take_length] at here
            exact absurd closes.1 here
        | cons x xs =>
            cases behind
            rw [longer] at idle
            exact idle c (List.mem_cons_of_mem _ (List.mem_append_right _ List.mem_cons_self))
      · have here := unclosed (body.map Marked.line).length
        rw [shorter, List.map_append, List.take_left] at here
        exact absurd closes.1 here

/-- An item that leaves no brace open behind the attribute's line, such as a declaration with a
semicolon, an import or an item on one line, hides the code behind it. -/
theorem not_hidesTests_unclosed {s : Source} {front back : List Part} {i : TestItem} {line : Str}
    (shape : s.parts = front ++ .item i :: .code line :: back) (settled : ∀ p ∈ front, p.Settled)
    (unclosed : Unclosed i.tail) (code : line ≠ []) : ¬HidesTests s := by
  intro hides
  unfold HidesTests Source.lines Source.marks at hides
  rw [shape, List.flatMap_append, blank_settled settled, List.map_append] at hides
  have apart := (blank_marks_iff _).mp (List.append_cancel_left hides)
  have tail : (i.tail.map (fun line => (⟨line, true⟩ : Marked))).map Marked.line = i.tail := by
    rw [List.map_map]
    exact List.map_id _
  have idle : (⟨line, false⟩ : Marked).idle :=
    idle_behind (m := ⟨i.head, true⟩) i.annotated (tail.symm ▸ unclosed) apart
  rcases idle with test | empty
  · cases test
  · exact code empty

/-- `blankTestModulesRust` hides exactly the annotated items where its stretches lie apart from
the production code. -/
theorem hidesTests_iff (s : Source) : HidesTests s ↔ Apart s.marks := blank_marks_iff s.marks

/-- A declared test module, and a function behind it. -/
def declared : Source where
  parts := [.item ⟨"#[cfg(test)]", ["mod tests;"], by decide, by decide⟩,
    .code "fn run() \x7b", .code "    step();", .code "\x7d"]
  balanced := by decide

theorem declared_module_hides_code :
    ¬HidesTests declared ∧ declared.marks.map Marked.shown =
        ["", "", "fn run() \x7b", "    step();", "\x7d"] ∧
      blankTestModulesRust declared.lines = ["", "", "", "", ""] := by
  have hidden : blankTestModulesRust declared.lines = ["", "", "", "", ""] := by decide +kernel
  refine ⟨fun hides => ?_, rfl, hidden⟩
  unfold HidesTests at hides
  rw [hidden] at hides
  exact absurd hides (by decide +kernel)

end DevGate.Gate.TestModules
