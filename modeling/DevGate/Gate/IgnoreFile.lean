import DevGate.Coherence.Manifest
import DevGate.Gate.Diff
import DevGate.Gate.JsText
import DevGate.Py.Lossy

set_option autoImplicit false

/- `.guardrailsignore`, as guardrails-scan.mjs and game_regression.py load it. -/
namespace DevGate.Gate

open Py Diff

namespace Scan

/-- `loadIgnorePatterns`; no text where the file is missing. -/
def loadIgnorePatterns : Option Str → List Str
  | none => []
  | some text =>
      ((Str.split newline text).map JsText.trim).filter
        (fun l => !l.isEmpty && !JsText.startsWith l "#")

end Scan

namespace Game

/-- `load_ignore_patterns`; the text is decoded, its newlines as they stand in the file. -/
def loadIgnorePatterns : Option Str → List Str
  | none => []
  | some text =>
      ((Str.splitlines (Utf8.newlines false text)).map Str.strip).filter
        (fun l => !l.isEmpty && !(("#" : Str).isPrefixOf l))

end Game

namespace IgnoreFile

def carriage : Chr := '\r'

/-- A line of the ignore file: blank, a comment, or an entry of names and stars. -/
structure Line where
  text : Str
  /-- It ends in `\r\n`. -/
  windows : Bool
  /-- Nothing in it ends a line, and both languages have the same white space in it. -/
  clean : ∀ c ∈ text, c.endsLine = false ∧ JsText.isSpace c = Re.isSpace c
  plain : ("#" : Str).isPrefixOf (Str.strip text) = true ∨
    ∀ c ∈ text, c ≠ Chr.ofChar '[' ∧ c ≠ Chr.ofChar ']' ∧ c ≠ Chr.ofChar '\\'

def Line.print (line : Line) : Str :=
  line.text ++ if line.windows then [carriage, newline] else [newline]

/-- A file of such lines; the last one is not ended, and may be empty. -/
structure Content where
  lines : List Line
  last : Line

def Content.text (content : Content) : Str := content.lines.flatMap Line.print ++ content.last.text

/-- The entries of the file. -/
def Content.entries (content : Content) : List Str :=
  (((content.lines ++ [content.last]).map Line.text).map Str.strip).filter
    (fun l => !l.isEmpty && !(("#" : Str).isPrefixOf l))

def entriesOf (file : Option Content) : List Str := (file.map Content.entries).getD []

/-! Both tools load the entries. -/

theorem not_newline_of_endsLine {c : Chr} (inner : c.endsLine = false) : c ≠ newline := by
  rintro rfl
  exact absurd inner (by decide)

theorem carriage_not_mem {s : Str} (inner : ∀ c ∈ s, c.endsLine = false) : Chr.ofChar '\r' ∉ s :=
  fun inside => absurd (inner _ inside) (by decide)

theorem newlines_print (line : Line) (rest : Str) :
    Utf8.newlines false (line.print ++ rest) =
      line.text ++ newline :: Utf8.newlines false rest := by
  unfold Line.print
  rw [List.append_assoc, Utf8.newlines_append_of_not_mem
    (carriage_not_mem (fun c inside => (line.clean c inside).1))]
  cases line.windows <;> rfl

theorem newlines_text (content : Content) :
    Utf8.newlines false content.text =
      content.lines.flatMap (fun line => line.text ++ [newline]) ++ content.last.text := by
  have each : ∀ lines : List Line, Utf8.newlines false (lines.flatMap Line.print ++ content.last.text) =
      lines.flatMap (fun line => line.text ++ [newline]) ++ content.last.text := by
    intro lines
    induction lines with
    | nil =>
        exact Utf8.newlines_of_not_mem
          (carriage_not_mem (fun c inside => (content.last.clean c inside).1))
    | cons line lines ih =>
        rw [List.flatMap_cons, List.flatMap_cons, List.append_assoc, newlines_print, ih]
        simp only [List.append_assoc, List.cons_append, List.nil_append]
  exact each content.lines

theorem splitlines_inner {s : Str} (inner : ∀ c ∈ s, c.endsLine = false) (rest : Str) :
    Str.splitlines (s ++ newline :: rest) = s :: Str.splitlines rest := by
  induction s with
  | nil => rfl
  | cons c s ih =>
      rw [List.forall_mem_cons] at inner
      rw [List.cons_append, Str.splitlines, inner.1, ih inner.2]
      rfl

theorem splitlines_last {s : Str} (inner : ∀ c ∈ s, c.endsLine = false) :
    Str.splitlines s = if s.isEmpty then [] else [s] := by
  induction s with
  | nil => rfl
  | cons c s ih =>
      rw [List.forall_mem_cons] at inner
      rw [Str.splitlines, inner.1, ih inner.2]
      cases s <;> rfl

theorem splitlines_text (content : Content) :
    Str.splitlines (Utf8.newlines false content.text) =
      content.lines.map Line.text ++ if content.last.text.isEmpty then [] else [content.last.text] := by
  rw [newlines_text]
  induction content.lines with
  | nil => exact splitlines_last (fun c inside => (content.last.clean c inside).1)
  | cons line lines ih =>
      rw [List.flatMap_cons, List.append_assoc, List.append_assoc, List.singleton_append,
        splitlines_inner (fun c inside => (line.clean c inside).1), ih]
      rfl

theorem split_text (content : Content) :
    Str.split newline content.text =
      content.lines.map (fun line => line.text ++ if line.windows then [carriage] else []) ++
        [content.last.text] := by
  unfold Content.text
  induction content.lines with
  | nil =>
      exact Str.split_of_not_mem newline _ (fun inside =>
        not_newline_of_endsLine (content.last.clean newline inside).1 rfl)
  | cons line lines ih =>
      have front : newline ∉ line.text ++ (if line.windows then [carriage] else []) := by
        rw [List.mem_append, not_or]
        refine ⟨fun inside => not_newline_of_endsLine (line.clean newline inside).1 rfl, ?_⟩
        cases line.windows <;> decide
      have cut : line.print = (line.text ++ if line.windows then [carriage] else []) ++ [newline] := by
        unfold Line.print
        cases line.windows <;> simp
      rw [List.flatMap_cons, cut, List.append_assoc, List.append_assoc, List.singleton_append,
        Str.split_append_sep, ih, Str.split_of_not_mem newline _ front]
      rfl

theorem dropWhile_congr {p q : Chr → Bool} {s : Str} (same : ∀ c ∈ s, p c = q c) :
    s.dropWhile p = s.dropWhile q := by
  induction s with
  | nil => rfl
  | cons c s ih =>
      rw [List.forall_mem_cons] at same
      rw [List.dropWhile_cons, List.dropWhile_cons, same.1, ih same.2]

theorem trim_eq {s : Str} (same : ∀ c ∈ s, JsText.isSpace c = Re.isSpace c) :
    JsText.trim s = Str.strip s := by
  unfold JsText.trim Str.strip
  rw [dropWhile_congr same]
  refine congrArg List.reverse (dropWhile_congr (fun c inside => same c ?_))
  exact (List.dropWhile_sublist _).subset (List.mem_reverse.mp inside)

theorem trim_concat {s : Str} {c : Chr} (white : JsText.isSpace c = true) :
    JsText.trim (s ++ [c]) = JsText.trim s := by
  unfold JsText.trim
  rw [List.dropWhile_append]
  split
  · next blank =>
      rw [List.dropWhile_cons, if_pos white, List.isEmpty_iff.mp blank]
      rfl
  · rw [List.reverse_append, List.reverse_singleton, List.singleton_append, List.dropWhile_cons,
      if_pos white]

theorem trim_line (line : Line) :
    JsText.trim (line.text ++ if line.windows then [carriage] else []) = Str.strip line.text := by
  rw [← trim_eq (fun c inside => (line.clean c inside).2)]
  cases line.windows with
  | false => rw [if_neg Bool.false_ne_true, List.append_nil]
  | true => rw [if_pos rfl, trim_concat (by decide)]

theorem scan_patterns (file : Option Content) :
    Scan.loadIgnorePatterns (file.map Content.text) = entriesOf file := by
  cases file with
  | none => rfl
  | some content =>
      have each : (content.lines.map (fun line =>
          line.text ++ if line.windows then [carriage] else [])).map JsText.trim =
          (content.lines.map Line.text).map Str.strip := by
        rw [List.map_map, List.map_map]
        exact List.map_congr_left (fun line _ => trim_line line)
      have last := trim_eq (fun c inside => (content.last.clean c inside).2)
      unfold entriesOf Content.entries Scan.loadIgnorePatterns
      rw [Option.map_some, Option.map_some, Option.getD_some]
      dsimp only
      rw [split_text, List.map_append, each, List.map_singleton, last, List.map_append, List.map_append]
      rfl

theorem game_patterns (file : Option Content) :
    Game.loadIgnorePatterns (file.map Content.text) = entriesOf file := by
  cases file with
  | none => rfl
  | some content =>
      unfold entriesOf Content.entries Game.loadIgnorePatterns
      rw [Option.map_some, Option.map_some, Option.getD_some]
      dsimp only
      rw [splitlines_text, List.map_append, List.map_append, List.map_append, List.filter_append,
        List.filter_append]
      refine congrArg _ ?_
      -- an empty last line is no line for Python, and no entry
      cases same : content.last.text with
      | nil => rw [List.map_singleton, same]; rfl
      | cons c s => rw [List.map_singleton, same]; rfl

theorem mem_of_mem_strip {s : Str} {c : Chr} (inside : c ∈ Str.strip s) : c ∈ s := by
  unfold Str.strip at inside
  have front := (List.dropWhile_sublist _).subset (List.mem_reverse.mp inside)
  exact (List.dropWhile_sublist _).subset (List.mem_reverse.mp front)

/-- The entries are names and stars. -/
theorem entries_plain (file : Option Content) : ∀ e ∈ entriesOf file,
    ∀ c ∈ e, c ≠ Chr.ofChar '[' ∧ c ≠ Chr.ofChar ']' ∧ c ≠ Chr.ofChar '\\' := by
  intro e known
  cases file with
  | none => cases known
  | some content =>
      unfold entriesOf Content.entries at known
      rw [Option.map_some, Option.getD_some, List.mem_filter, List.map_map, List.mem_map] at known
      obtain ⟨⟨line, _, rfl⟩, kept⟩ := known
      rw [Function.comp_apply, Bool.and_eq_true, Bool.not_eq_true', Bool.not_eq_true'] at kept
      rcases line.plain with comment | plain
      · rw [comment] at kept
        cases kept.2
      · exact fun c inside => plain c (mem_of_mem_strip inside)

end IgnoreFile

end DevGate.Gate
