import DevGate.Gate.Patch

set_option autoImplicit false

/- The unified diff between two file trees: what it adds, where, and how git prints it. -/
namespace DevGate.Gate.Diff

open Py

/-- The lines of each file; a line break after the last one is not told apart. -/
abbrev Tree := Str → Option (List Str)

def BodyLine.old? : BodyLine → Option Str
  | .context l => some l.text
  | .removed l => some l.text
  | _ => none

def BodyLine.new? : BodyLine → Option Str
  | .context l => some l.text
  | .added l => some l.text
  | _ => none

/-- The lines since the last hunk, which the diff leaves out, and a hunk. -/
structure Block where
  skipped : List Line
  heading : Line
  body : List BodyLine

def Block.old (b : Block) : List Str := b.skipped.map Line.text ++ b.body.filterMap BodyLine.old?

def Block.new (b : Block) : List Str := b.skipped.map Line.text ++ b.body.filterMap BodyLine.new?

/-- What the diff says of one file: created, deleted or changed. -/
structure FileDiff where
  path : Line
  preface : List Line
  blocks : List Block
  rest : List Line
  inOld : Bool
  inNew : Bool
  named : path.text ≠ []
  quiet : ∀ l ∈ preface, l.text.head? ≠ some plus ∧ l.text.head? ≠ some atSign
  created : inOld = false → blocks.flatMap Block.old ++ rest.map Line.text = []
  deleted : inNew = false → blocks.flatMap Block.new ++ rest.map Line.text = []

def FileDiff.old? (f : FileDiff) : Option (List Str) :=
  if f.inOld then some (f.blocks.flatMap Block.old ++ f.rest.map Line.text) else none

def FileDiff.new? (f : FileDiff) : Option (List Str) :=
  if f.inNew then some (f.blocks.flatMap Block.new ++ f.rest.map Line.text) else none

/-- A diff between two trees: it takes each of its files from the one to the other, and the
trees agree on all others. -/
structure TreeDiff (before after : Tree) where
  files : List FileDiff
  distinct : (files.map (fun f => f.path.text)).Nodup
  old : ∀ f ∈ files, before f.path.text = f.old?
  new : ∀ f ∈ files, after f.path.text = f.new?
  others : ∀ path, (∀ f ∈ files, f.path.text ≠ path) → before path = after path

/-- A hunk with the numbers its headline says. -/
structure Placed where
  oldStart : Nat
  newStart : Nat
  heading : Line
  body : List BodyLine

/-- Where a hunk starts: at its first line, or after the line it follows where it has none. -/
def start (before count : Nat) : Nat := if count = 0 then before else before + 1

def placed : Nat → Nat → List Block → List Placed
  | _, _, [] => []
  | old, new, b :: later =>
      let oldCount := b.body.countP BodyLine.inOld
      let newCount := b.body.countP BodyLine.inNew
      { oldStart := start (old + b.skipped.length) oldCount
        newStart := start (new + b.skipped.length) newCount
        heading := b.heading
        body := b.body } ::
          placed (old + b.skipped.length + oldCount) (new + b.skipped.length + newCount) later

def Placed.headline (h : Placed) : Str :=
  [atSign, atSign, blank, minus] ++ span h.oldStart (h.body.countP BodyLine.inOld) ++
    ([blank, plus] ++ (span h.newStart (h.body.countP BodyLine.inNew) ++
      ([blank, atSign, atSign] ++ h.heading.text)))

def Placed.lines (h : Placed) : List Str := h.headline :: h.body.map BodyLine.print

/-- The added lines of a hunk, counted from its first line. -/
def numbered (path : Str) : Nat → List BodyLine → List Added
  | _, [] => []
  | n, .context _ :: later => numbered path (n + 1) later
  | n, .added l :: later => ⟨path, n, l.text⟩ :: numbered path (n + 1) later
  | n, .removed _ :: later => numbered path n later
  | n, .note _ :: later => numbered path n later

namespace FileDiff

def hunks (f : FileDiff) : List Placed := placed 0 0 f.blocks

/-- What stands after `+++ `: a name with a blank in it is closed by a tab. -/
def label (f : FileDiff) : Str :=
  if f.inNew then
    ("b/" : Str) ++ f.path.text ++ if blank ∈ f.path.text then [Chr.ofChar '\t'] else []
  else devNull

/-- A file whose lines are all the same has no label and no hunks. -/
def lines (f : FileDiff) : List Str :=
  f.preface.map Line.text ++
    if f.blocks = [] then [] else (header ++ f.label) :: f.hunks.flatMap Placed.lines

def added (f : FileDiff) : List Added :=
  f.hunks.flatMap (fun h => numbered f.path.text h.newStart h.body)

end FileDiff

namespace TreeDiff

variable {before after : Tree}

def print (d : TreeDiff before after) : Str :=
  (d.files.flatMap FileDiff.lines).flatMap (fun l => l ++ [newline])

def added (d : TreeDiff before after) : List Added := d.files.flatMap FileDiff.added

end TreeDiff

/-! The numbers are those of the new tree. -/

theorem countP_inNew (body : List BodyLine) :
    body.countP BodyLine.inNew = (body.filterMap BodyLine.new?).length := by
  induction body with
  | nil => rfl
  | cons line rest ih =>
      cases line with
      | context l => rw [List.countP_cons_of_pos rfl, ih]; rfl
      | added l => rw [List.countP_cons_of_pos rfl, ih]; rfl
      | removed l => rw [List.countP_cons_of_neg Bool.false_ne_true, ih]; rfl
      | note l => rw [List.countP_cons_of_neg Bool.false_ne_true, ih]; rfl

theorem numbered_stands {path : Str} {n : Nat} {body : List BodyLine} {front back : List Str}
    (counted : front.length = n) :
    ∀ a ∈ numbered path (n + 1) body, a.path = path ∧ 0 < a.lineno ∧
      (front ++ body.filterMap BodyLine.new? ++ back)[a.lineno - 1]? = some a.text := by
  induction body generalizing n front with
  | nil => exact fun a member => absurd member List.not_mem_nil
  | cons line rest ih =>
      have next (l : Line) : (front ++ [l.text]).length = n + 1 := by
        rw [List.length_append, counted]
        rfl
      cases line with
      | context l =>
          have later := ih (next l)
          rw [List.append_assoc front] at later
          exact later
      | removed l => exact ih counted
      | note l => exact ih counted
      | added l =>
          intro a member
          rcases List.mem_cons.mp member with rfl | member
          · refine ⟨rfl, Nat.succ_pos n, ?_⟩
            rw [Nat.add_sub_cancel, List.append_assoc, List.getElem?_append_right (by omega),
              counted, Nat.sub_self]
            rfl
          · have later := ih (next l)
            rw [List.append_assoc front] at later
            exact later a member

theorem numbered_nil {path : Str} {n : Nat} {body : List BodyLine}
    (nothing : body.countP BodyLine.inNew = 0) : numbered path n body = [] := by
  induction body with
  | nil => rfl
  | cons line rest ih =>
      rw [List.countP_eq_zero, List.forall_mem_cons] at nothing
      have later := ih (List.countP_eq_zero.mpr nothing.2)
      cases line with
      | context l => exact absurd rfl nothing.1
      | added l => exact absurd rfl nothing.1
      | removed l => exact later
      | note l => exact later

theorem placed_stands {path : Str} {old new : Nat} {blocks : List Block} {front back : List Str}
    (counted : front.length = new) :
    ∀ a ∈ (placed old new blocks).flatMap (fun h => numbered path h.newStart h.body),
      a.path = path ∧ 0 < a.lineno ∧
        (front ++ blocks.flatMap Block.new ++ back)[a.lineno - 1]? = some a.text := by
  induction blocks generalizing old new front with
  | nil => exact fun a member => absurd member List.not_mem_nil
  | cons b later ih =>
      intro a member
      rw [placed, List.flatMap_cons, List.mem_append] at member
      have skipped : (front ++ b.skipped.map Line.text).length = new + b.skipped.length := by
        rw [List.length_append, List.length_map, counted]
      rw [List.flatMap_cons]
      rcases member with here | member
      · by_cases nothing : b.body.countP BodyLine.inNew = 0
        · rw [numbered_nil nothing] at here
          exact absurd here List.not_mem_nil
        · dsimp only at here
          rw [start, if_neg nothing] at here
          have stands := @numbered_stands path (new + b.skipped.length) b.body _
            (later.flatMap Block.new ++ back) skipped a here
          simpa only [Block.new, List.append_assoc] using stands
      · have shown : (front ++ b.new).length =
            new + b.skipped.length + b.body.countP BodyLine.inNew := by
          rw [Block.new, ← List.append_assoc, List.length_append, skipped, countP_inNew]
        have stands := ih shown a member
        simpa only [List.append_assoc] using stands

/-- Each added line is what the new tree has at its number. -/
theorem TreeDiff.added_stands {before after : Tree} (d : TreeDiff before after) :
    ∀ a ∈ d.added, ∃ rows, after a.path = some rows ∧ 0 < a.lineno ∧
      rows[a.lineno - 1]? = some a.text := by
  intro a member
  obtain ⟨f, inside, here⟩ := List.mem_flatMap.mp member
  obtain ⟨path, positive, stands⟩ := @placed_stands f.path.text 0 0 f.blocks []
    (f.rest.map Line.text) rfl a here
  rw [List.nil_append] at stands
  rw [path, d.new f inside]
  cases present : f.inNew with
  | true => exact ⟨_, by rw [FileDiff.new?, if_pos present], positive, stands⟩
  | false =>
      rw [f.deleted present] at stands
      cases stands

end DevGate.Gate.Diff
