import DevGate.Gate.Diff
import DevGate.Py.JsonText
import DevGate.Lib.Fold

set_option autoImplicit false

/- A unified diff as git prints it, and what `parse_diff` reads of its text. -/
namespace DevGate.Gate.Diff

open Py Fold

/-- A line of text, without its line break. -/
structure Line where
  text : Str
  unbroken : newline ∉ text

inductive BodyLine where
  | context (l : Line)
  | removed (l : Line)
  | added (l : Line)
  /-- `\ No newline at end of file`. -/
  | note (l : Line)

namespace BodyLine

def print : BodyLine → Str
  | .context l => blank :: l.text
  | .removed l => minus :: l.text
  | .added l => plus :: l.text
  | .note l => Chr.ofChar '\\' :: l.text

def added? : BodyLine → Option Str
  | .added l => some l.text
  | _ => none

def inOld : BodyLine → Bool
  | .context _ => true
  | .removed _ => true
  | _ => false

def inNew : BodyLine → Bool
  | .context _ => true
  | .added _ => true
  | _ => false

end BodyLine

structure Hunk where
  oldStart : Nat
  newStart : Nat
  heading : Line
  body : List BodyLine
  small : newStart < 10 ^ Json.maxDigits

/-- `start,count`; git leaves a count of one out. -/
def span (start count : Nat) : Str :=
  Str.ofNat start ++ if count = 1 then [] else Chr.ofChar ',' :: Str.ofNat count

namespace Hunk

def headline (h : Hunk) : Str :=
  [atSign, atSign, blank, minus] ++ span h.oldStart (h.body.countP BodyLine.inOld) ++
    ([blank, plus] ++ (span h.newStart (h.body.countP BodyLine.inNew) ++
      ([blank, atSign, atSign] ++ h.heading.text)))

def lines (h : Hunk) : List Str := h.headline :: h.body.map BodyLine.print

def added (h : Hunk) : List Str := h.body.filterMap BodyLine.added?

end Hunk

/-- The part of a diff about one file. A mode change, a rename and a binary file
have no `+++ ` line and no hunks; the `+++ ` line of a deleted file names `/dev/null`. -/
structure Section where
  preface : List Line
  label : Option Line
  hunks : List Hunk
  quiet : ∀ l ∈ preface, l.text.head? ≠ some plus ∧ l.text.head? ≠ some atSign
  bare : label = none → hunks = []
  named : ∀ l ∈ label, target (header ++ l.text) ≠ some []
  deleted : ∀ l ∈ label, target (header ++ l.text) = none → ∀ h ∈ hunks, h.added = []

namespace Section

def path? (s : Section) : Option Str := s.label.bind (fun l => target (header ++ l.text))

def lines (s : Section) : List Str :=
  s.preface.map Line.text ++ match s.label with
    | none => []
    | some l => (header ++ l.text) :: s.hunks.flatMap Hunk.lines

/-- The added lines, each with its file. -/
def added (s : Section) : List (Str × Str) :=
  match s.path? with
  | none => []
  | some path => s.hunks.flatMap (fun h => h.added.map (fun text => (path, text)))

end Section

abbrev Patch := List Section

namespace Patch

def lines (patch : Patch) : List Str := patch.flatMap Section.lines

def print (patch : Patch) : Str := (lines patch).flatMap (fun l => l ++ [newline])

def added (patch : Patch) : List (Str × Str) := patch.flatMap Section.added

end Patch

/-- Printed with its `+`, the line does not look like a `+++` line. -/
def Plain (text : Str) : Prop := ¬ [plus, plus] <+: text

/-! One line of the loop. -/

/-- A line that starts with neither mark leaves the file and the lines found. -/
theorem readLine_quiet (u : Unicode) (r : Reader) {raw : Str} (first : raw.head? ≠ some plus)
    (second : raw.head? ≠ some atSign) : ∃ n, readLine u r raw = .ok { r with lineno := n } := by
  have counted (removed context : Bool) : ∃ n,
      (if removed = true then Except.ok r
        else if context = true then .ok { r with lineno := r.lineno + 1 }
        else .ok r) = (.ok { r with lineno := n } : Except Exc Reader) := by
    cases removed with
    | true => exact ⟨r.lineno, rfl⟩
    | false =>
        cases context with
        | true => exact ⟨r.lineno + 1, rfl⟩
        | false => exact ⟨r.lineno, rfl⟩
  cases raw with
  | nil => exact ⟨r.lineno, rfl⟩
  | cons c rest =>
      have apart : plus ≠ c := fun same => first (by rw [same]; rfl)
      have distinct : atSign ≠ c := fun same => second (by rw [same]; rfl)
      simp only [readLine, header, List.isPrefixOf_cons_cons, beq_eq_false_iff_ne.mpr apart,
        beq_eq_false_iff_ne.mpr distinct, Bool.false_and, Bool.false_eq_true, ↓reduceIte]
      exact counted _ _

theorem readLine_label (u : Unicode) (r : Reader) (name : Str) :
    readLine u r (header ++ name) =
      .ok { r with path := (target (header ++ name)).getD [] } := by
  have front : header.isPrefixOf (header ++ name) = true :=
    List.isPrefixOf_iff_prefix.mpr (List.prefix_append header name)
  simp only [readLine, front, ↓reduceIte]

theorem header_of_plus {text : Str} (front : header.isPrefixOf (plus :: text) = true) :
    [plus, plus] <+: text := by
  rw [List.isPrefixOf_iff_prefix] at front
  obtain ⟨tail, same⟩ := front
  exact ⟨blank :: tail, (List.cons.inj same).2⟩

theorem readLine_added (u : Unicode) (r : Reader) {text : Str} (plain : Plain text) :
    readLine u r (plus :: text) = .ok { r with
      lineno := r.lineno + 1
      added := if r.path = [] then r.added else r.added ++ [⟨r.path, r.lineno, text⟩] } := by
  have unlabelled : header.isPrefixOf (plus :: text) = false := by
    rw [Bool.eq_false_iff]
    exact fun front => plain (header_of_plus front)
  have single : [plus, plus, plus].isPrefixOf (plus :: text) = false := by
    rw [Bool.eq_false_iff]
    intro front
    rw [List.isPrefixOf_iff_prefix, List.cons_prefix_cons] at front
    exact plain front.2
  have apart : (atSign == plus) = false := by decide
  simp only [readLine, unlabelled, single, List.isPrefixOf_cons_cons, apart, Bool.false_and,
    Bool.false_eq_true, beq_self_eq_true, List.isPrefixOf_nil_left, Bool.and_true, Bool.not_false,
    List.drop_succ_cons, List.drop_zero, ↓reduceIte]

/-! The number a hunk starts at. -/

theorem digitOf_ascii (u : Unicode) {c : Chr} (digit : Json.isDigit c = true) :
    digitOf u c = some (c.val - 48) := by
  simp only [Json.isDigit, Bool.and_eq_true, decide_eq_true_eq] at digit
  have low : c.val < 128 := by omega
  rw [digitOf, if_pos low, if_pos digit]

theorem digitRun_append (u : Unicode) {ds : Str} (digits : ∀ d ∈ ds, Json.isDigit d = true)
    {rest : Str} (closed : digitRun u rest = []) :
    digitRun u (ds ++ rest) = ds.map (fun d => d.val - 48) := by
  induction ds with
  | nil => exact closed
  | cons d ds ih =>
      rw [List.forall_mem_cons] at digits
      rw [List.cons_append, digitRun, digitOf_ascii u digits.1, List.map_cons]
      exact congrArg _ (ih digits.2)

theorem plusDigits_append (u : Unicode) {front : Str} (free : plus ∉ front) (back : Str) :
    plusDigits u (front ++ back) = plusDigits u back := by
  induction front with
  | nil => rfl
  | cons c rest ih =>
      rw [List.mem_cons, not_or] at free
      rw [List.cons_append, plusDigits, if_neg (fun both => free.1 both.1.symm), ih free.2]

theorem natOfDigits_ofNat (n : Nat) : natOfDigits ((Str.ofNat n).map (fun d => d.val - 48)) = n := by
  have folded : natOfDigits ((Str.ofNat n).map (fun d => d.val - 48)) = Json.natOf (Str.ofNat n) := by
    simp only [natOfDigits, Json.natOf, List.foldl_map, Nat.mul_comm]
  rw [folded, Json.natOf_ofNat]

theorem ofNat_length {n : Nat} (small : n < 10 ^ Json.maxDigits) :
    (Str.ofNat n).length ≤ Json.maxDigits := by
  unfold Str.ofNat
  rw [List.length_map]
  exact (Nat.length_toDigits_le_iff (by decide) (by decide)).mpr small

theorem ofNat_ne_nil (n : Nat) : Str.ofNat n ≠ [] := by
  unfold Str.ofNat
  simp

theorem plus_not_mem_span (start count : Nat) : plus ∉ span start count := by
  have free (n : Nat) : plus ∉ Str.ofNat n := Str.not_mem_ofNat n '+' (by decide)
  unfold span
  split
  · simpa using free start
  · simp only [List.mem_append, List.mem_cons, not_or]
    exact ⟨free start, by decide, free count⟩

theorem digitRun_span (u : Unicode) (start count : Nat) (rest : Str) :
    digitRun u (span start count ++ blank :: rest) =
      (Str.ofNat start).map (fun d => d.val - 48) := by
  have digits : ∀ d ∈ Str.ofNat start, Json.isDigit d = true :=
    fun d member => Json.isDigit_of_mem_ofNat member
  unfold span
  rw [List.append_assoc]
  refine digitRun_append u digits ?_
  split
  · rfl
  · rfl

/-- The number that is read of a headline is where the new side starts. -/
theorem plusDigits_headline (u : Unicode) (oldStart oldCount newStart newCount : Nat) (heading : Str) :
    plusDigits u ([atSign, atSign, blank, minus] ++ span oldStart oldCount ++
      ([blank, plus] ++ (span newStart newCount ++ ([blank, atSign, atSign] ++ heading)))) =
        (Str.ofNat newStart).map (fun d => d.val - 48) := by
  have free : plus ∉ [atSign, atSign, blank, minus] ++ span oldStart oldCount ++ [blank] := by
    simp only [List.mem_append, not_or]
    exact ⟨⟨by decide, plus_not_mem_span _ _⟩, by decide⟩
  have cut : [atSign, atSign, blank, minus] ++ span oldStart oldCount ++
      ([blank, plus] ++ (span newStart newCount ++ ([blank, atSign, atSign] ++ heading))) =
        ([atSign, atSign, blank, minus] ++ span oldStart oldCount ++ [blank]) ++
          plus :: (span newStart newCount ++ blank :: ([atSign, atSign] ++ heading)) := by simp
  rw [cut, plusDigits_append u free, plusDigits, digitRun_span, if_pos]
  exact ⟨rfl, by simpa using ofNat_ne_nil newStart⟩

/-- A hunk is counted from the line its headline says. -/
theorem hunkStart_headline (u : Unicode) (h : Hunk) : hunkStart u h.headline = .ok h.newStart := by
  have found : plusDigits u h.headline = (Str.ofNat h.newStart).map (fun d => d.val - 48) :=
    plusDigits_headline u _ _ _ _ _
  have fits : ¬ Json.maxDigits < (plusDigits u h.headline).length := by
    rw [found, List.length_map]
    exact Nat.not_lt.mpr (ofNat_length h.small)
  rw [hunkStart, if_neg fits, found, natOfDigits_ofNat]

theorem readLine_headline (u : Unicode) (r : Reader) (h : Hunk) :
    readLine u r h.headline = .ok { r with lineno := h.newStart } := by
  have started := hunkStart_headline u h
  have unlabelled : header.isPrefixOf h.headline = false := rfl
  have marked : [atSign, atSign].isPrefixOf h.headline = true := rfl
  simp only [readLine, unlabelled, marked, started, Bool.false_eq_true, ↓reduceIte]
  rfl

/-- What one line can do: nothing to the lines found, or add itself to them. -/
theorem readLine_cases {u : Unicode} {r r' : Reader} {raw : Str} (read : readLine u r raw = .ok r') :
    (r'.added = r.added ∧ (r'.path = r.path ∨
      header.isPrefixOf raw = true ∧ r'.path = (target raw).getD [])) ∨
    (r.path ≠ [] ∧ r'.path = r.path ∧
      ∃ text, Plain text ∧ raw = plus :: text ∧ r'.added = r.added ++ [⟨r.path, r.lineno, text⟩]) := by
  unfold readLine at read
  split at read
  · next labelled =>
      cases read
      exact Or.inl ⟨rfl, Or.inr ⟨labelled, rfl⟩⟩
  · split at read
    · obtain ⟨n, -, same⟩ := bind_ok.mp read
      cases same
      exact Or.inl ⟨rfl, Or.inl rfl⟩
    · split at read
      · next marked =>
          cases read
          by_cases nameless : r.path = []
          · exact Or.inl ⟨if_pos nameless, Or.inl rfl⟩
          · rw [Bool.and_eq_true, List.isPrefixOf_iff_prefix] at marked
            obtain ⟨⟨text, same⟩, single⟩ := marked
            rw [List.singleton_append] at same
            refine Or.inr ⟨nameless, rfl, text, ?_, same.symm, ?_⟩
            · intro front
              rw [← same, List.isPrefixOf_cons_cons, beq_self_eq_true, Bool.true_and,
                List.isPrefixOf_iff_prefix.mpr front] at single
              cases single
            · rw [← same]
              exact if_neg nameless
      · split at read
        · cases read
          exact Or.inl ⟨rfl, Or.inl rfl⟩
        · split at read
          · cases read
            exact Or.inl ⟨rfl, Or.inl rfl⟩
          · cases read
            exact Or.inl ⟨rfl, Or.inl rfl⟩

/-- A line that is read as an added one does not look like a `+++` line. -/
theorem parsed_plain {u : Unicode} {diff : Str} {added : List Added}
    (parsed : parseDiff u diff = .ok added) : ∀ a ∈ added, Plain a.text := by
  obtain ⟨r, read, same⟩ := bind_ok.mp parsed
  cases same
  refine foldlM_keeps (P := fun r => ∀ a ∈ r.added, Plain a.text) ?_ ?_ read
  · intro raw _ r r' kept step
    rcases readLine_cases step with ⟨same, -⟩ | ⟨-, -, text, plain, -, grown⟩
    · rw [same]
      exact kept
    · rw [grown]
      intro a member
      rcases List.mem_append.mp member with old | new
      · exact kept a old
      · rw [List.mem_singleton.mp new]
        exact plain
  · exact fun a member => absurd member List.not_mem_nil

/-- Each added line that is read stands under a `+++ ` line with its file. -/
theorem parsed_headed {u : Unicode} {diff : Str} {added : List Added}
    (parsed : parseDiff u diff = .ok added) : ∀ a ∈ added, a.path ∈ headed diff := by
  obtain ⟨r, read, same⟩ := bind_ok.mp parsed
  cases same
  have kept := foldlM_keeps
    (P := fun r => (r.path ≠ [] → r.path ∈ headed diff) ∧ ∀ a ∈ r.added, a.path ∈ headed diff)
    ?_ ⟨fun named => absurd rfl named, fun a member => absurd member List.not_mem_nil⟩ read
  · exact kept.2
  · intro raw member r r' kept step
    rcases readLine_cases step with ⟨same, unchanged | ⟨labelled, path⟩⟩ |
      ⟨named, unchanged, text, -, -, grown⟩
    · rw [same, unchanged]
      exact kept
    · rw [same]
      refine ⟨fun named => ?_, kept.2⟩
      cases found : target raw with
      | none =>
          rw [path, found] at named
          exact absurd rfl named
      | some name =>
          rw [path, found]
          exact List.mem_filterMap.mpr ⟨raw, member, by rw [if_pos labelled, found]; rfl⟩
    · rw [unchanged, grown]
      refine ⟨kept.1, ?_⟩
      intro a member
      rcases List.mem_append.mp member with old | new
      · exact kept.2 a old
      · rw [List.mem_singleton.mp new]
        exact kept.1 named

/-! Whole diffs. -/

/-- The lines the loop found, each with its file. -/
def Reader.found (r : Reader) : List (Str × Str) := r.added.map (fun a => (a.path, a.text))

/-- The loop reads the lines, finds `found` in them and ends in the file `path`. -/
def Reads (u : Unicode) (lines : List Str) (r : Reader) (path : Str) (found : List (Str × Str)) :
    Prop :=
  ∃ r', lines.foldlM (readLine u) r = .ok r' ∧ r'.path = path ∧ r'.found = r.found ++ found

/-- Added lines under one file: none are kept where it has no name. -/
def labelled (path : Str) (texts : List Str) : List (Str × Str) :=
  if path = [] then [] else texts.map (fun text => (path, text))

theorem labelled_append (path : Str) (front back : List Str) :
    labelled path (front ++ back) = labelled path front ++ labelled path back := by
  unfold labelled
  split
  · rfl
  · exact List.map_append

section

variable {u : Unicode}

theorem Reads.nil (r : Reader) : Reads u [] r r.path [] := ⟨r, rfl, rfl, (List.append_nil _).symm⟩

theorem Reads.append {front back : List Str} {r : Reader} {path path' : Str}
    {found found' : List (Str × Str)} (first : Reads u front r path found)
    (second : ∀ r' : Reader, r'.path = path → Reads u back r' path' found') :
    Reads u (front ++ back) r path' (found ++ found') := by
  obtain ⟨mid, run, here, grown⟩ := first
  obtain ⟨r', rerun, there, more⟩ := second mid here
  refine ⟨r', ?_, there, ?_⟩
  · rw [List.foldlM_append]
    exact bind_ok.mpr ⟨mid, run, rerun⟩
  · rw [more, grown, List.append_assoc]

/-- One line, and the lines after it. -/
theorem Reads.cons {raw : Str} {rest : List Str} {r mid : Reader} {path : Str}
    {found found' : List (Str × Str)} (step : readLine u r raw = .ok mid)
    (here : mid.found = r.found ++ found) (later : Reads u rest mid path found') :
    Reads u (raw :: rest) r path (found ++ found') := by
  obtain ⟨r', run, there, more⟩ := later
  refine ⟨r', ?_, there, ?_⟩
  · rw [List.foldlM_cons]
    exact bind_ok.mpr ⟨mid, step, run⟩
  · rw [more, here, List.append_assoc]

theorem reads_quiet {lines : List Str}
    (quiet : ∀ l ∈ lines, l.head? ≠ some plus ∧ l.head? ≠ some atSign) (r : Reader) :
    Reads u lines r r.path [] := by
  induction lines generalizing r with
  | nil => exact Reads.nil r
  | cons raw rest ih =>
      rw [List.forall_mem_cons] at quiet
      obtain ⟨n, step⟩ := readLine_quiet u r quiet.1.1 quiet.1.2
      exact Reads.cons step (List.append_nil _).symm (ih quiet.2 { r with lineno := n })

/-- One line of a hunk: an added one is found, the others leave the lines found. -/
theorem reads_line (r : Reader) (line : BodyLine) (plain : ∀ text ∈ line.added?, Plain text) :
    ∃ mid, readLine u r line.print = .ok mid ∧ mid.path = r.path ∧
      mid.found = r.found ++ labelled r.path line.added?.toList := by
  have silent (raw : Str) (first : raw.head? ≠ some plus) (second : raw.head? ≠ some atSign) :
      ∃ mid, readLine u r raw = .ok mid ∧ mid.path = r.path ∧
        mid.found = r.found ++ labelled r.path [] := by
    obtain ⟨n, step⟩ := readLine_quiet u r first second
    refine ⟨_, step, rfl, ?_⟩
    unfold labelled
    split
    · exact (List.append_nil _).symm
    · exact (List.append_nil _).symm
  cases line with
  | context l => exact silent (blank :: l.text) (by simp [blank, plus]; decide) (by simp; decide)
  | removed l => exact silent (minus :: l.text) (by simp; decide) (by simp; decide)
  | note l => exact silent (Chr.ofChar '\\' :: l.text) (by simp; decide) (by simp; decide)
  | added l =>
      refine ⟨_, readLine_added u r (plain l.text rfl), rfl, ?_⟩
      unfold labelled Reader.found
      by_cases nameless : r.path = []
      · simp only [if_pos nameless, List.append_nil]
      · simp only [if_neg nameless, List.map_append]
        rfl

theorem reads_body {body : List BodyLine}
    (plain : ∀ text ∈ body.filterMap BodyLine.added?, Plain text) (r : Reader) :
    Reads u (body.map BodyLine.print) r r.path
      (labelled r.path (body.filterMap BodyLine.added?)) := by
  induction body generalizing r with
  | nil =>
      have none : labelled r.path ([] : List Str) = [] := by
        unfold labelled
        split <;> rfl
      rw [List.filterMap_nil, none]
      exact Reads.nil r
  | cons line rest ih =>
      have split : (line :: rest).filterMap BodyLine.added? =
          line.added?.toList ++ rest.filterMap BodyLine.added? := by
        rw [List.filterMap_cons]
        cases line.added? with
        | none => rfl
        | some text => rfl
      rw [split] at plain ⊢
      have here : ∀ text ∈ line.added?, Plain text := by
        intro text member
        exact plain text (List.mem_append_left _ (Option.mem_toList.mpr member))
      obtain ⟨mid, step, path, found⟩ := reads_line r line here
      have later := ih (fun text member => plain text (List.mem_append_right _ member)) mid
      rw [path] at later
      rw [List.map_cons, labelled_append]
      exact Reads.cons step found later

theorem reads_hunks {hunks : List Hunk} (plain : ∀ text ∈ hunks.flatMap Hunk.added, Plain text)
    (r : Reader) :
    Reads u (hunks.flatMap Hunk.lines) r r.path (labelled r.path (hunks.flatMap Hunk.added)) := by
  induction hunks generalizing r with
  | nil => exact @reads_body u [] (fun _ member => absurd member List.not_mem_nil) r
  | cons h rest ih =>
      rw [List.flatMap_cons] at plain ⊢
      rw [List.flatMap_cons, labelled_append]
      have body := reads_body (u := u) (fun text member => plain text (List.mem_append_left _ member))
        { r with lineno := h.newStart }
      have here : Reads u h.lines r r.path (labelled r.path h.added) :=
        Reads.cons (readLine_headline u r h) (List.append_nil _).symm body
      refine here.append (fun r' same => ?_)
      have later := ih (fun text member => plain text (List.mem_append_right _ member)) r'
      rwa [same] at later

theorem Section.added_eq {s : Section} {l : Line} (labels : s.label = some l) :
    s.added = labelled ((target (header ++ l.text)).getD []) (s.hunks.flatMap Hunk.added) := by
  have path : s.path? = target (header ++ l.text) := by
    unfold Section.path?
    rw [labels]
    rfl
  have named := s.named l labels
  unfold Section.added labelled
  rw [path]
  cases found : target (header ++ l.text) with
  | none => rfl
  | some name =>
      rw [found] at named
      have filled : (some name).getD [] ≠ [] := fun same => named (congrArg some same)
      rw [if_neg filled, List.map_flatMap]
      rfl

theorem reads_section (s : Section) (plain : ∀ l ∈ s.added, Plain l.2) (r : Reader) :
    ∃ path, Reads u s.lines r path s.added := by
  have preface : Reads u (s.preface.map Line.text) r r.path [] := by
    apply reads_quiet
    intro raw member
    obtain ⟨l, inside, same⟩ := List.mem_map.mp member
    rw [← same]
    exact s.quiet l inside
  unfold Section.lines
  cases labels : s.label with
  | none =>
      refine ⟨r.path, ?_⟩
      have empty : s.added = [] := by
        simp only [Section.added, Section.path?, labels, Option.bind_none]
      rw [empty, List.append_nil]
      exact preface
  | some l =>
      have plainHunks : ∀ text ∈ s.hunks.flatMap Hunk.added, Plain text := by
        intro text member
        cases found : target (header ++ l.text) with
        | none =>
            obtain ⟨h, inside, here⟩ := List.mem_flatMap.mp member
            rw [s.deleted l labels found h inside] at here
            exact absurd here List.not_mem_nil
        | some name =>
            refine plain (name, text) ?_
            have named : s.path? = some name := by
              rw [Section.path?, labels, Option.bind_some, found]
            obtain ⟨h, inside, here⟩ := List.mem_flatMap.mp member
            simp only [Section.added, named]
            exact List.mem_flatMap.mpr ⟨h, inside, List.mem_map.mpr ⟨text, here, rfl⟩⟩
      refine ⟨(target (header ++ l.text)).getD [], ?_⟩
      rw [Section.added_eq labels]
      refine preface.append (fun r' _ => ?_)
      exact Reads.cons (readLine_label u r' l.text) (List.append_nil _).symm
        (reads_hunks plainHunks _)

theorem reads_patch (patch : Patch) (plain : ∀ l ∈ Patch.added patch, Plain l.2) (r : Reader) :
    ∃ path, Reads u (Patch.lines patch) r path (Patch.added patch) := by
  induction patch generalizing r with
  | nil => exact ⟨r.path, Reads.nil r⟩
  | cons s rest ih =>
      unfold Patch.added at plain
      rw [List.flatMap_cons] at plain
      obtain ⟨mid, here⟩ := reads_section (u := u) s
        (fun l member => plain l (List.mem_append_left _ member)) r
      obtain ⟨r1, run, path, found⟩ := here
      obtain ⟨last, later⟩ := ih (fun l member => plain l (List.mem_append_right _ member)) r1
      refine ⟨last, ?_⟩
      obtain ⟨r2, rerun, there, more⟩ := later
      refine ⟨r2, ?_, there, ?_⟩
      · rw [Patch.lines, List.flatMap_cons, List.foldlM_append]
        exact bind_ok.mpr ⟨r1, run, rerun⟩
      · rw [more, found, List.append_assoc]
        rfl

end

/-! The text of a patch, cut into its lines again. -/

theorem split_lines {lines : List Str} (unbroken : ∀ l ∈ lines, newline ∉ l) :
    Str.split newline (lines.flatMap (fun l => l ++ [newline])) = lines ++ [[]] := by
  induction lines with
  | nil => rfl
  | cons l rest ih =>
      rw [List.forall_mem_cons] at unbroken
      rw [List.flatMap_cons, List.append_assoc, List.singleton_append, Str.split_append_sep,
        Str.split_of_not_mem newline l unbroken.1, ih unbroken.2]
      rfl

theorem newline_not_mem_span (start count : Nat) : newline ∉ span start count := by
  have free (n : Nat) : newline ∉ Str.ofNat n := Str.not_mem_ofNat n '\n' (by decide)
  unfold span
  split
  · simpa using free start
  · simp only [List.mem_append, List.mem_cons, not_or]
    exact ⟨free start, by decide, free count⟩

theorem BodyLine.unbroken (line : BodyLine) : newline ∉ line.print := by
  have apart (c : Chr) (other : newline ≠ c) (l : Line) : newline ∉ c :: l.text := by
    simp only [List.mem_cons, not_or]
    exact ⟨other, l.unbroken⟩
  cases line with
  | context l => exact apart blank (by decide) l
  | removed l => exact apart minus (by decide) l
  | added l => exact apart plus (by decide) l
  | note l => exact apart (Chr.ofChar '\\') (by decide) l

theorem Hunk.unbroken (h : Hunk) : ∀ l ∈ h.lines, newline ∉ l := by
  unfold Hunk.lines
  rw [List.forall_mem_cons]
  constructor
  · unfold Hunk.headline
    simp only [List.mem_append, not_or]
    exact ⟨⟨by decide, newline_not_mem_span _ _⟩, by decide, newline_not_mem_span _ _,
      by decide, h.heading.unbroken⟩
  · intro l member
    obtain ⟨line, -, same⟩ := List.mem_map.mp member
    rw [← same]
    exact line.unbroken

theorem Section.unbroken (s : Section) : ∀ l ∈ s.lines, newline ∉ l := by
  intro l member
  rcases List.mem_append.mp member with early | late
  · obtain ⟨line, -, same⟩ := List.mem_map.mp early
    rw [← same]
    exact line.unbroken
  · cases labels : s.label with
    | none =>
        rw [labels] at late
        exact absurd late List.not_mem_nil
    | some name =>
        rw [labels] at late
        rcases List.mem_cons.mp late with same | inside
        · rw [same, List.mem_append, not_or]
          exact ⟨by decide, name.unbroken⟩
        · obtain ⟨h, -, here⟩ := List.mem_flatMap.mp inside
          exact h.unbroken l here

theorem Patch.split_print (patch : Patch) :
    Str.split newline (Patch.print patch) = Patch.lines patch ++ [[]] := by
  refine split_lines (fun l member => ?_)
  obtain ⟨s, -, here⟩ := List.mem_flatMap.mp member
  exact s.unbroken l here

/-- A patch without lines that look like labels is read exactly. -/
theorem parseDiff_print (u : Unicode) {patch : Patch} (plain : ∀ l ∈ Patch.added patch, Plain l.2) :
    ∃ added, parseDiff u (Patch.print patch) = .ok added ∧
      added.map (fun a => (a.path, a.text)) = Patch.added patch := by
  obtain ⟨path, r, run, -, found⟩ := reads_patch (u := u) patch plain ⟨[], 0, []⟩
  refine ⟨r.added, ?_, found⟩
  have whole : (Patch.lines patch ++ [[]]).foldlM (readLine u) ⟨[], 0, []⟩ = .ok r := by
    rw [List.foldlM_append]
    exact bind_ok.mpr ⟨r, run, rfl⟩
  rw [parseDiff, Patch.split_print, whole]
  rfl

theorem readLine_ends (u : Unicode) (r : Reader) {raw : Str} (quiet : raw.head? ≠ some atSign) :
    Ends (readLine u r raw) := by
  have unmarked : [atSign, atSign].isPrefixOf raw = false := by
    rw [Bool.eq_false_iff]
    intro front
    obtain ⟨tail, same⟩ := List.isPrefixOf_iff_prefix.mp front
    exact quiet (by rw [← same]; rfl)
  unfold readLine
  rw [unmarked]
  refine ends_ite (ends_ok _) ?_
  rw [if_neg Bool.false_ne_true]
  exact ends_ite (ends_ok _) (ends_ite (ends_ok _) (ends_ite (ends_ok _) (ends_ok _)))

/-- Whatever its lines hold, a patch is read without an error. -/
theorem parseDiff_ends (u : Unicode) (patch : Patch) : Ends (parseDiff u (Patch.print patch)) := by
  unfold parseDiff
  refine Ends.bind (foldlM_ends (fun raw member r => ?_) _) (fun r _ => ends_ok _)
  rw [Patch.split_print, List.mem_append, List.mem_singleton] at member
  rcases member with inside | last
  · obtain ⟨s, -, here⟩ := List.mem_flatMap.mp inside
    rcases List.mem_append.mp here with early | late
    · obtain ⟨l, member, same⟩ := List.mem_map.mp early
      rw [← same]
      exact readLine_ends u r (s.quiet l member).2
    · cases labels : s.label with
      | none =>
          rw [labels] at late
          exact absurd late List.not_mem_nil
      | some name =>
          rw [labels] at late
          rcases List.mem_cons.mp late with same | hunks
          · rw [same, readLine_label]
            exact ends_ok _
          · obtain ⟨h, -, line⟩ := List.mem_flatMap.mp hunks
            rcases List.mem_cons.mp line with same | body
            · rw [same, readLine_headline]
              exact ends_ok _
            · obtain ⟨b, -, same⟩ := List.mem_map.mp body
              rw [← same]
              refine readLine_ends u r ?_
              cases b <;> simp [BodyLine.print] <;> decide
  · rw [last]
    exact readLine_ends u r (by simp)

end DevGate.Gate.Diff
