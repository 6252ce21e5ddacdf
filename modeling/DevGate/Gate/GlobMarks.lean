import DevGate.Gate.Globs

set_option autoImplicit false

/- The scanner writes placeholders for the wildcards of a glob, and then reads them back: when it
reads what it wrote. -/
namespace DevGate.Gate.Scan

open Py Substitute
open Wildcard (Item)

/-- A character of the glob, or a wildcard. -/
inductive Cell where
  | lit (c : Chr)
  | wild (w : Wild)
  deriving DecidableEq

def Cell.text : Cell → Str
  | .lit c => [c]
  | .wild w => w.placeholder

def Cell.item : Cell → Item Chr
  | .lit c => letter c
  | .wild w => w.item

/-- The glob with its wildcards told apart: `**/` first, then `**`, `*` and `?`. -/
def cells (glob : Str) : List Cell :=
  [Wild.dslash, .globstar, .star, .qmark].foldl
    (fun cs w => replaceAll (w.source.map Cell.lit) [.wild w] cs) (glob.map Cell.lit)

/-- What the wildcards of the glob stand for. -/
def tokens (glob : Str) : List (Item Chr) := (cells glob).map Cell.item

/-! Placeholders are written. -/

theorem source_apart (w v : Wild) : ∀ c ∈ w.source, c ∉ v.placeholder := by
  have each : w.source.all (fun c => decide (c ∉ v.placeholder)) = true := by
    cases w <;> cases v <;> decide +kernel
  simpa only [List.all_eq_true, decide_eq_true_eq] using each

theorem source_ne_nil (w : Wild) : w.source ≠ [] := by cases w <;> decide

/-- A text without characters of placeholders stands in the glob itself. -/
theorem lits_front {t : Str} (apart : ∀ c ∈ t, ∀ v : Wild, c ∉ v.placeholder) {cs : List Cell}
    (front : t <+: cs.flatMap Cell.text) : t.map Cell.lit <+: cs := by
  induction t generalizing cs with
  | nil => exact List.nil_prefix
  | cons c t ih =>
      rw [List.forall_mem_cons] at apart
      cases cs with
      | nil =>
          have empty := List.prefix_nil.mp front
          cases empty
      | cons cell cs =>
          cases cell with
          | lit d =>
              rw [List.flatMap_cons, Cell.text, List.singleton_append, List.cons_prefix_cons] at front
              obtain ⟨rfl, later⟩ := front
              rw [List.map_cons, List.cons_prefix_cons]
              exact ⟨rfl, ih apart.2 later⟩
          | wild v =>
              have first : c ∈ v.placeholder := by
                rw [List.flatMap_cons, Cell.text, Wild.placeholder, mark, List.append_assoc,
                  List.append_assoc, List.cons_append, List.cons_prefix_cons] at front
                rw [front.1]
                exact List.mem_cons_self
              exact absurd first (apart.1 v)

theorem text_lits (t : Str) : (t.map Cell.lit).flatMap Cell.text = t := by
  induction t with
  | nil => rfl
  | cons c t ih =>
      rw [List.map_cons, List.flatMap_cons, ih]
      rfl

/-- Writing the placeholders of one wildcard tells its places apart. -/
theorem mark_step (w : Wild) (cs : List Cell) :
    replaceAll w.source w.placeholder (cs.flatMap Cell.text) =
      (replaceAll (w.source.map Cell.lit) [.wild w] cs).flatMap Cell.text := by
  have some_ : w.source.map Cell.lit ≠ [] := by simpa using source_ne_nil w
  induction cs using replaceAll_induction some_ with
  | nil => rfl
  | found rest ih =>
      rw [List.flatMap_append, text_lits, replaceAll_match (source_ne_nil w),
        replaceAll_match some_, List.flatMap_append, ih, List.flatMap_singleton]
      rfl
  | passed cell rest other ih =>
      rw [replaceAll_other other, List.flatMap_cons, List.flatMap_cons, ← ih]
      apply replaceAll_pass
      intro i small front
      cases cell with
      | lit c =>
          have zero : i = 0 := Nat.lt_one_iff.mp small
          rw [zero, List.drop_zero] at front
          exact other (lits_front (fun c inside v => source_apart w v c inside) front)
      | wild v =>
          obtain ⟨c, t, written⟩ := List.exists_cons_of_ne_nil (source_ne_nil w)
          have apart := source_apart w v c (by rw [written]; exact List.mem_cons_self)
          rw [List.drop_append_of_le_length (Nat.le_of_lt small), written,
            List.drop_eq_getElem_cons small, List.cons_append, List.cons_prefix_cons] at front
          rw [front.1] at apart
          exact apart (List.getElem_mem small)

theorem marked_eq (glob : Str) : marked glob = (cells glob).flatMap Cell.text := by
  unfold marked cells
  simp only [List.foldl_cons, List.foldl_nil]
  rw [← mark_step, ← mark_step, ← mark_step, ← mark_step, text_lits]

/-! Placeholders are read back. -/

/-- The glob while the placeholders of some wildcards are read back already. -/
def partly (read : List Wild) (cs : List Cell) : List (Item Chr) :=
  cs.flatMap (fun cell =>
    match cell with
    | .lit c => [letter c]
    | .wild w => if w ∈ read then [w.item] else w.placeholder.map letter)

theorem partly_none (cs : List Cell) : partly [] cs = (cs.flatMap Cell.text).map letter := by
  unfold partly
  rw [List.map_flatMap]
  congr 1
  funext cell
  cases cell with
  | lit c => rfl
  | wild w => simp [Cell.text]

theorem partly_all (cs : List Cell) :
    partly [.qmark, .star, .globstar, .dslash] cs = cs.map Cell.item := by
  unfold partly
  rw [List.map_eq_flatMap]
  congr 1
  funext cell
  cases cell with
  | lit c => rfl
  | wild w => cases w <;> rfl

/-- No character is a mark, and no word of a placeholder stands between two wildcards. -/
structure Spelled (cs : List Cell) : Prop where
  unmarked : Cell.lit nul ∉ cs
  apart : ∀ a w b : Wild, ¬ (Cell.wild a :: (w.word.map Cell.lit ++ [.wild b])) <:+: cs

theorem Spelled.tail {cell : Cell} {cs : List Cell} (spelled : Spelled (cell :: cs)) : Spelled cs where
  unmarked inside := spelled.unmarked (List.mem_cons_of_mem _ inside)
  apart a w b found := spelled.apart a w b (List.infix_cons found)

theorem letter_injective : Function.Injective letter := by
  intro c d same
  cases same
  rfl

theorem item_ne_letter (w : Wild) (c : Chr) : w.item ≠ letter c := by
  cases w <;> simp [Wild.item, letter]

/-- Characters and a mark after them are characters of the glob and a placeholder. -/
theorem lits_of_prefix {read : List Wild} {t : Str} (clean : nul ∉ t) {cs : List Cell}
    (unmarked : Cell.lit nul ∉ cs) (front : (t ++ [nul]).map letter <+: partly read cs) :
    ∃ b later, b ∉ read ∧ cs = t.map Cell.lit ++ .wild b :: later := by
  induction t generalizing cs with
  | nil =>
      cases cs with
      | nil =>
          have empty := List.prefix_nil.mp front
          cases empty
      | cons cell cs =>
          rw [partly, List.flatMap_cons, List.nil_append, List.map_cons] at front
          cases cell with
          | lit d =>
              rw [List.singleton_append, List.cons_prefix_cons] at front
              rw [letter_injective front.1] at unmarked
              exact absurd List.mem_cons_self unmarked
          | wild b =>
              dsimp only at front
              split at front
              · rw [List.singleton_append, List.cons_prefix_cons] at front
                exact absurd front.1.symm (item_ne_letter b nul)
              · next unread => exact ⟨b, cs, unread, rfl⟩
  | cons c t ih =>
      rw [List.mem_cons, not_or] at clean
      cases cs with
      | nil =>
          have empty := List.prefix_nil.mp front
          cases empty
      | cons cell cs =>
          rw [partly, List.flatMap_cons, List.cons_append, List.map_cons] at front
          cases cell with
          | lit d =>
              rw [List.singleton_append, List.cons_prefix_cons] at front
              obtain ⟨same, front⟩ := front
              rw [List.mem_cons, not_or] at unmarked
              obtain ⟨b, later, unread, rfl⟩ := ih clean.2 unmarked.2 front
              exact ⟨b, later, unread, by rw [letter_injective same]; rfl⟩
          | wild b =>
              dsimp only at front
              split at front
              · rw [List.singleton_append, List.cons_prefix_cons] at front
                exact absurd front.1.symm (item_ne_letter b c)
              · rw [Wild.placeholder, mark, List.append_assoc, List.cons_append, List.map_cons,
                  List.cons_append, List.cons_prefix_cons] at front
                exact absurd (letter_injective front.1).symm clean.1

/-- Where a placeholder has its marks. -/
theorem zero_of_placeholder (v : Wild) : ∀ i < v.placeholder.length,
    v.placeholder[i]? = some nul →
      i = 0 ∨ i = 3 ∨ i = 4 + v.word.length ∨ i = 7 + v.word.length := by
  cases v <;> decide +kernel

theorem word_clean (w : Wild) : nul ∉ w.word := by cases w <;> decide

/-- The words of two wildcards differ in their first letters. -/
theorem word_apart {v w : Wild} (apart : w ≠ v) (x y : List (Item Chr)) :
    ¬ w.word.map letter ++ x <+: v.word.map letter ++ y := by
  rintro ⟨z, same⟩
  have first := congrArg List.head? same
  cases v <;> cases w <;> first
    | exact absurd rfl apart
    | exact absurd (letter_injective (Option.some.inj first)) (by decide)

/-- No word starts with the letters of a mark. -/
theorem word_not_mark (w : Wild) (x y : List (Item Chr)) :
    w.word.map letter ++ x ≠ letter (Chr.ofChar 'G') :: letter (Chr.ofChar 'S') :: y := by
  intro same
  have first := congrArg List.head? same
  have second := congrArg (fun items => items.tail.head?) same
  cases w with
  | dslash => exact absurd (letter_injective (Option.some.inj first)) (by decide)
  | globstar => exact absurd (letter_injective (Option.some.inj second)) (by decide)
  | star => exact absurd (letter_injective (Option.some.inj first)) (by decide)
  | qmark => exact absurd (letter_injective (Option.some.inj first)) (by decide)

theorem placeholder_eq (w : Wild) (rest : List (Item Chr)) :
    w.placeholder.map letter ++ rest =
      mark.map letter ++ (w.word.map letter ++ (mark.map letter ++ rest)) := by
  rw [Wild.placeholder, List.map_append, List.map_append, List.append_assoc, List.append_assoc]

/-- Letters of a mark are followed by no word. -/
theorem no_word_of_mark {read : List Wild} {cs : List Cell} (spelled : Spelled cs) (w : Wild) :
    ¬ ([Chr.ofChar 'G', Chr.ofChar 'S'] ++ [nul]).map letter ++
        (w.word.map letter ++ mark.map letter) <+: partly read cs := by
  intro front
  have short := (List.prefix_append _ _).trans front
  obtain ⟨b, later, unread, rfl⟩ := lits_of_prefix (by decide) spelled.unmarked short
  have shown : partly read ([Chr.ofChar 'G', Chr.ofChar 'S'].map Cell.lit ++ .wild b :: later) =
      ([Chr.ofChar 'G', Chr.ofChar 'S'] ++ [nul]).map letter ++
        ([Chr.ofChar 'G', Chr.ofChar 'S', nul].map letter ++
          (b.word.map letter ++ (mark.map letter ++ partly read later))) := by
    have whole : partly read ([Chr.ofChar 'G', Chr.ofChar 'S'].map Cell.lit ++ .wild b :: later) =
        [Chr.ofChar 'G', Chr.ofChar 'S'].map letter ++
          (b.placeholder.map letter ++ partly read later) := by
      unfold partly
      simp [unread]
    rw [whole, placeholder_eq]
    rfl
  rw [shown, List.prefix_append_right_inj] at front
  obtain ⟨z, same⟩ := front
  rw [List.append_assoc] at same
  exact word_not_mark w _ _ same

/-- No placeholder is read inside another one, or across its end. -/
theorem clear_placeholder {read : List Wild} {v w : Wild} (apart : w ≠ v) {cs : List Cell}
    (spelled : Spelled (.wild v :: cs)) : ∀ i < (v.placeholder.map letter).length,
      ¬ w.placeholder.map letter <+: (v.placeholder.map letter ++ partly read cs).drop i := by
  intro i small front
  have zero : v.placeholder[i]? = some nul := by
    obtain ⟨z, same⟩ := front
    have first := congrArg List.head? same
    rw [List.head?_drop, List.getElem?_append_left small, List.getElem?_map] at first
    have head : ((w.placeholder.map letter) ++ z).head? = some (letter nul) := rfl
    rw [head] at first
    obtain ⟨c, here, equal⟩ := Option.map_eq_some_iff.mp first.symm
    rw [here, letter_injective equal]
  rw [List.length_map] at small
  have own := placeholder_eq w []
  rw [List.append_nil, List.append_nil] at own
  rw [own, placeholder_eq v] at front
  have marks (rest : List (Item Chr)) : mark.map letter ++ rest =
      letter nul :: letter (Chr.ofChar 'G') :: letter (Chr.ofChar 'S') :: letter nul :: rest := rfl
  have unmark (rest : List (Item Chr)) : (mark.map letter ++ rest).drop 4 = rest := rfl
  rcases zero_of_placeholder v i small zero with rfl | rfl | rfl | rfl
  · rw [List.drop_zero, List.prefix_append_right_inj] at front
    exact word_apart apart _ _ front
  · rw [marks, marks] at front
    obtain ⟨z, same⟩ := front
    exact word_not_mark v _ _ (List.cons.inj same).2.symm
  · have cut : (mark.map letter ++ (v.word.map letter ++ (mark.map letter ++ partly read cs))).drop
        (4 + v.word.length) = mark.map letter ++ partly read cs := by
      rw [← List.drop_drop, unmark, List.drop_left' (List.length_map _)]
    rw [cut, List.prefix_append_right_inj] at front
    have short : (w.word ++ [nul]).map letter <+: partly read cs := by
      refine List.IsPrefix.trans ?_ front
      rw [List.map_append, List.prefix_append_right_inj]
      exact List.prefix_append [letter nul] _
    obtain ⟨b, later, -, rfl⟩ := lits_of_prefix (word_clean w) spelled.tail.unmarked short
    exact spelled.apart v w b ⟨[], later, by simp⟩
  · have cut : (mark.map letter ++ (v.word.map letter ++ (mark.map letter ++ partly read cs))).drop
        (7 + v.word.length) = letter nul :: partly read cs := by
      have steps : 7 + v.word.length = 4 + (v.word.length + 3) := by omega
      rw [steps, ← List.drop_drop, unmark, ← List.drop_drop,
        List.drop_left' (List.length_map _)]
      rfl
    rw [cut, marks, List.cons_prefix_cons] at front
    exact no_word_of_mark spelled.tail w front.2

/-- Reading the placeholders of one wildcard back puts in what it stands for. -/
theorem read_step {read : List Wild} {w : Wild} (unread : w ∉ read) {cs : List Cell}
    (spelled : Spelled cs) :
    replaceAll (w.placeholder.map letter) [w.item] (partly read cs) = partly (w :: read) cs := by
  induction cs with
  | nil => rfl
  | cons cell cs ih =>
      have later := ih spelled.tail
      have single (item : Item Chr) (other : item ≠ letter nul) :
          replaceAll (w.placeholder.map letter) [w.item] (item :: partly read cs) =
            item :: partly (w :: read) cs := by
        rw [replaceAll_other, later]
        intro front
        rw [Wild.placeholder, mark, List.append_assoc, List.cons_append, List.map_cons,
          List.cons_prefix_cons] at front
        exact other front.1.symm
      cases cell with
      | lit c =>
          have other : c ≠ nul := by
            rintro rfl
            exact spelled.unmarked List.mem_cons_self
          exact single (letter c) (fun same => other (letter_injective same))
      | wild v =>
          by_cases done : v ∈ read
          · have before : partly read (.wild v :: cs) = v.item :: partly read cs := by
              simp [partly, done]
            have after : partly (w :: read) (.wild v :: cs) = v.item :: partly (w :: read) cs := by
              simp [partly, done]
            rw [before, after]
            exact single v.item (item_ne_letter v nul)
          · have before : partly read (.wild v :: cs) =
                v.placeholder.map letter ++ partly read cs := by simp [partly, done]
            rw [before]
            by_cases same : w = v
            · subst same
              have after : partly (w :: read) (.wild w :: cs) =
                  [w.item] ++ partly (w :: read) cs := by simp [partly]
              rw [after, replaceAll_match (by cases w <;> decide), later]
            · have after : partly (w :: read) (.wild v :: cs) =
                  v.placeholder.map letter ++ partly (w :: read) cs := by
                simp [partly, done, Ne.symm same]
              rw [after, replaceAll_pass (clear_placeholder same spelled), later]

/-- The scanner's pattern is what the wildcards of the glob stand for. -/
theorem pattern_eq {glob : Str} (spelled : Spelled (cells glob)) : pattern glob = tokens glob := by
  unfold pattern tokens
  simp only [List.foldl_cons, List.foldl_nil]
  rw [marked_eq, ← partly_none, read_step (by decide) spelled, read_step (by decide) spelled,
    read_step (by decide) spelled, read_step (by decide) spelled, partly_all]

/-! The glob as it is written. -/

def Cell.source : Cell → Str
  | .lit c => [c]
  | .wild w => w.source

theorem source_step (w : Wild) (cs : List Cell) :
    (replaceAll (w.source.map Cell.lit) [.wild w] cs).flatMap Cell.source =
      cs.flatMap Cell.source := by
  have some_ : w.source.map Cell.lit ≠ [] := by simpa using source_ne_nil w
  have own : (w.source.map Cell.lit).flatMap Cell.source = w.source := by
    cases w <;> rfl
  induction cs using replaceAll_induction some_ with
  | nil => rfl
  | found rest ih =>
      rw [replaceAll_match some_, List.flatMap_append, List.flatMap_append, ih,
        List.flatMap_singleton, own]
      rfl
  | passed cell rest other ih =>
      rw [replaceAll_other other, List.flatMap_cons, List.flatMap_cons, ih]

theorem cells_source (glob : Str) : (cells glob).flatMap Cell.source = glob := by
  have lits : (glob.map Cell.lit).flatMap Cell.source = glob := by
    rw [List.flatMap_map]
    exact List.flatMap_singleton' glob
  unfold cells
  simp only [List.foldl_cons, List.foldl_nil]
  rw [source_step, source_step, source_step, source_step, lits]

/-- No star and no question mark is left among the characters. -/
theorem cells_clear (glob : Str) {c : Chr} (inside : Cell.lit c ∈ cells glob) :
    c ≠ Chr.ofChar '*' ∧ c ≠ Chr.ofChar '?' := by
  unfold cells at inside
  simp only [List.foldl_cons, List.foldl_nil] at inside
  constructor
  · rintro rfl
    rcases mem_replaceFrom inside with put | before
    · cases List.mem_singleton.mp put
    · exact not_mem_replaceAll (by simp) _ before
  · rintro rfl
    exact not_mem_replaceAll (by simp) _ inside

end DevGate.Gate.Scan
