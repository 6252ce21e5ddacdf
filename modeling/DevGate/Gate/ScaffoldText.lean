import DevGate.Gate.Provenance
import DevGate.Gate.RequirementIds

set_option autoImplicit false

/- The texts a run appends, as the next run reads them. -/
namespace DevGate.Gate.Scaffold

open Py
open Traceability (idRe reqId)

def feed : Chr := '\n'

theorem join_head (sep x : Str) (xs : List Str) : ∃ t, Str.join sep (x :: xs) = x ++ t := by
  cases xs with
  | nil => exact ⟨[], (List.append_nil x).symm⟩
  | cons y ys => exact ⟨sep ++ Str.join sep (y :: ys), by rw [← List.append_assoc]; rfl⟩

theorem join_mem (sep : Str) {x : Str} {xs : List Str} (inside : x ∈ xs) :
    ∃ front back, Str.join sep xs = front ++ x ++ back := by
  obtain ⟨before, after, rfl⟩ := List.append_of_mem inside
  obtain ⟨t, whole⟩ := join_head sep x after
  by_cases first : before = []
  · subst first
    exact ⟨[], t, whole⟩
  · refine ⟨Str.join sep before ++ sep, t, ?_⟩
    rw [Str.join_append sep before (x :: after) first (List.cons_ne_nil _ _), whole]
    simp only [List.append_assoc]

/-- The text of a block above its provenance. -/
def headText (u : Chars) (f : Finding) (rid : Str) : Str := Str.join "\n" (heading u f rid) ++ "\n"

/-- What stands behind the last backtick of a block. -/
def closing : Str := "\n" ++ ("> so spec_traceability.py counts it covered." ++ ("\n" ++ ("\n" : Str)))

/-- The end of a block, from the last word that the backtick closes. -/
def ending (rid : Str) : Str := rid ++ tick :: closing

theorem render_head (u : Chars) (f : Finding) (rid : Str) :
    ∃ back, renderRequirement u f rid = headText u f rid ++ provenance f ++ back := by
  obtain ⟨t, whole⟩ := join_head "\n" (provenance f ++
    (" severity " ++ f.severity ++ ", status " ++ f.status ++ (")_" : Str)))
    (notes f ++ scenario ++ instruction rid)
  refine ⟨(" severity " ++ f.severity ++ ", status " ++ f.status ++ (")_" : Str)) ++ (t ++ "\n"), ?_⟩
  unfold renderRequirement headText details
  rw [Str.join_append "\n" (heading u f rid) _ (List.cons_ne_nil _ _) (List.cons_ne_nil _ _), whole]
  simp only [List.append_assoc]

theorem render_end (u : Chars) (f : Finding) (rid : Str) :
    ∃ front, renderRequirement u f rid = front ++ ending rid := by
  have shape : heading u f rid ++ details f rid =
      (heading u f rid ++ (provenance f ++ (" severity " ++ f.severity ++ ", status " ++ f.status ++
        (")_" : Str))) :: (notes f ++ scenario)) ++ instruction rid := by
    unfold details
    simp only [List.append_assoc, List.cons_append]
  have quote : ("`" : Str) = [tick] := by decide
  have last : Str.join "\n" (instruction rid) ++ "\n" =
      "> Implement, then mark the enforcing source with `// spec: " ++ ending rid := by
    unfold instruction ending closing
    rw [quote]
    simp only [Str.join, List.append_assoc, List.cons_append, List.nil_append, List.append_nil]
  refine ⟨Str.join "\n" (heading u f rid ++ (provenance f ++ (" severity " ++ f.severity ++
    ", status " ++ f.status ++ (")_" : Str))) :: (notes f ++ scenario)) ++ "\n" ++
      "> Implement, then mark the enforcing source with `// spec: ", ?_⟩
  unfold renderRequirement
  rw [shape, Str.join_append "\n" _ (instruction rid) (by simp) (List.cons_ne_nil _ _),
    List.append_assoc, last]
  simp only [List.append_assoc]

theorem render_hash (u : Chars) (f : Finding) (rid : Str) :
    ∃ t, renderRequirement u f rid = hash :: t := by
  obtain ⟨t, whole⟩ := join_head "\n" ("### Requirement: " ++ f.title.take 80)
    (["<!-- id: " ++ rid ++ " -->", shall u f ++ "."] ++ details f rid)
  refine ⟨("## Requirement: " : Str) ++ f.title.take 80 ++ t ++ "\n", ?_⟩
  unfold renderRequirement heading
  rw [List.cons_append, whole]
  rfl

/-- The id line of a block. -/
theorem render_id (u : Chars) (f : Finding) (rid : Str) :
    ∃ front back, renderRequirement u f rid = front ++ ("<!-- id: " ++ rid ++ (" -->" : Str)) ++ back := by
  have inside : ("<!-- id: " ++ rid ++ (" -->" : Str)) ∈ heading u f rid ++ details f rid := by
    simp [heading]
  obtain ⟨front, back, whole⟩ := join_mem "\n" inside
  refine ⟨front, back ++ "\n", ?_⟩
  unfold renderRequirement
  rw [whole]
  simp only [List.append_assoc]

/-! Provenances that a text leaves open. -/

theorem cut_last_tick {a b s t : Str} (left : tick ∉ s) (right : tick ∉ t)
    (same : a ++ tick :: s = b ++ tick :: t) : a = b ∧ s = t := by
  have turned := congrArg List.reverse same
  rw [List.reverse_append, List.reverse_append, List.reverse_cons, List.reverse_cons,
    List.append_assoc, List.append_assoc] at turned
  obtain ⟨back, front⟩ := cut_tick (by simpa using left) (by simpa using right) turned
  exact ⟨List.reverse_injective front, List.reverse_injective back⟩

section

variable {u : Chars}

theorem hash_not_mem_lead {w : Str} (name : IsName u w) : hash ∉ lead w := by
  unfold lead
  rw [List.mem_append, List.mem_append, not_or, not_or]
  exact ⟨⟨by decide, name.not_mem (by decide) (by decide)⟩, by decide⟩

/-- A provenance is not open across the start of a heading. -/
theorem Open.split {s t : Str} (open_ : Open u (s ++ hash :: t)) :
    Open u s ∨ Open u (hash :: t) := by
  obtain ⟨a, w, rest, shape, clean, name, tail⟩ := open_
  rcases List.append_eq_append_iff.mp shape with ⟨c, rfl, behind⟩ | ⟨c, rfl, behind⟩
  · right
    cases c with
    | nil => exact absurd (List.cons.inj behind).1 (by decide)
    | cons d c =>
        obtain ⟨rfl, -⟩ := List.cons.inj behind
        refine ⟨hash :: c, w, rest, behind, clean, name, ?_⟩
        rcases List.suffix_or_suffix_of_suffix tail (List.suffix_append s (hash :: c)) with inner | outer
        · exact inner
        · exact absurd (outer.subset List.mem_cons_self) (hash_not_mem_lead name)
  · left
    cases c with
    | nil => exact absurd (List.cons.inj behind).1 (by decide)
    | cons d c =>
        obtain ⟨rfl, rfl⟩ := List.cons.inj behind
        refine ⟨a, w, c, rfl, fun inside => clean (List.mem_append_left _ inside), name, tail⟩

/-- The end of a block leaves none open. -/
theorem not_open_ending {front rid tail : Str} (grammar : IsId rid) (clean : tick ∉ tail) :
    ¬ Open u (front ++ (rid ++ tick :: tail)) := by
  rintro ⟨a, w, rest, shape, clean', name, suffix⟩
  rw [← List.append_assoc] at shape
  obtain ⟨rfl, -⟩ := cut_last_tick clean clean' shape
  obtain ⟨init, c, rfl⟩ := (List.eq_nil_or_concat' rid).resolve_left grammar.1
  obtain ⟨x, whole⟩ := suffix
  have last : c = Chr.ofChar ' ' := by
    have ends := congrArg List.getLast? whole
    unfold lead at ends
    rw [← List.append_assoc, ← List.append_assoc, ← List.append_assoc] at ends
    have blank : (" " : Str) = [Chr.ofChar ' '] := rfl
    rw [blank, List.getLast?_concat, List.getLast?_concat, Option.some.injEq] at ends
    exact ends.symm
  have inside := grammar.2 c (List.mem_append_right _ (List.mem_singleton_self c))
  rw [last] at inside
  exact absurd inside (by decide)

end

/-! What a block reads as behind another text. -/

theorem carriage_not_mem_closing : Chr.ofChar '\r' ∉ closing := by decide

theorem carriage_not_mem_id {rid : Str} (grammar : IsId rid) : Chr.ofChar '\r' ∉ rid :=
  fun inside => absurd (grammar.2 _ inside) (by decide)

theorem newlines_hash (s t : Str) :
    Utf8.newlines false (s ++ hash :: t) = Utf8.newlines false s ++ hash :: Utf8.newlines false t := by
  have head : ∀ c ∈ (hash :: t).head?, c ≠ Chr.ofChar '\n' := by
    intro c here
    cases Option.some.inj here
    decide
  rw [Utf8.newlines_behind s head]
  rfl

/-- A text without carriage returns reads as it is, between any others that it does not join. -/
theorem newlines_between {s mid : Str} (rest : Str) (filled : ∀ c ∈ mid.head?, c ≠ Chr.ofChar '\n')
    (some_ : mid ≠ []) (absent : Chr.ofChar '\r' ∉ mid) :
    Utf8.newlines false (s ++ mid ++ rest) =
      Utf8.newlines false s ++ mid ++ Utf8.newlines false rest := by
  have head : ∀ c ∈ (mid ++ rest).head?, c ≠ Chr.ofChar '\n' := by
    obtain ⟨c, mid, rfl⟩ := List.exists_cons_of_ne_nil some_
    exact filled
  rw [List.append_assoc, Utf8.newlines_behind s head, Utf8.newlines_append_of_not_mem absent,
    List.append_assoc]

theorem provenance_head (f : Finding) : ∀ c ∈ (provenance f).head?, c ≠ Chr.ofChar '\n' := by
  intro c here
  cases Option.some.inj here
  decide

theorem carriage_not_mem_provenance {f : Finding} (absent : Chr.ofChar '\r' ∉ f.sourceId) :
    Chr.ofChar '\r' ∉ provenance f := by
  have name : Chr.ofChar '\r' ∉ f.origin.name := by cases f.origin <;> decide
  unfold provenance
  simp only [List.mem_append, not_or]
  exact ⟨⟨⟨⟨by decide, name⟩, by decide⟩, absent⟩, by decide⟩

/-- The heading of a block, as it is read. -/
def headRead (u : Chars) (f : Finding) (rid : Str) : Str := Utf8.newlines false (headText u f rid)

/-- An id that the next run reads in full: without a backtick and a carriage return, and where it
starts with a comma, with no provenance open in its own heading. -/
structure Readable (u : Chars) (f : Finding) : Prop where
  clean : tick ∉ f.sourceId
  straight : Chr.ofChar '\r' ∉ f.sourceId
  heading : f.sourceId.head? = some comma → ∀ rid, ¬ Open u (headRead u f rid)

theorem headText_hash (u : Chars) (f : Finding) (rid : Str) : ∃ t, headText u f rid = hash :: t := by
  obtain ⟨t, whole⟩ := join_head "\n" ("### Requirement: " ++ f.title.take 80)
    ["<!-- id: " ++ rid ++ " -->", shall u f ++ "."]
  refine ⟨("## Requirement: " : Str) ++ f.title.take 80 ++ t ++ "\n", ?_⟩
  unfold headText heading
  rw [whole]
  rfl

/-- A block is read back where no provenance is open before it, or its id starts with no comma. -/
theorem mem_origins_render {u : Chars} {f : Finding} (readable : Readable u f) (rid : Str) {s : Str}
    (shut : f.sourceId.head? = some comma → ¬ Open u s) (rest : Str) :
    f.key ∈ origins u (s ++ Utf8.newlines false (renderRequirement u f rid ++ rest)) := by
  obtain ⟨back, whole⟩ := render_head u f rid
  have filled : provenance f ≠ [] := List.cons_ne_nil _ _
  rw [whole, List.append_assoc, newlines_between (back ++ rest) (provenance_head f) filled
    (carriage_not_mem_provenance readable.straight), ← List.append_assoc, ← List.append_assoc]
  refine mem_origins_provenance f readable.clean _ ?_
  intro first open_
  obtain ⟨t, head⟩ := headText_hash u f rid
  have read : headRead u f rid = hash :: Utf8.newlines false t := by
    unfold headRead
    rw [head]
    exact newlines_hash [] t
  have apart := readable.heading first rid
  unfold headRead at read apart
  rw [read] at open_ apart
  exact open_.split.elim (shut first) apart

/-- The text of a block leaves no provenance open. -/
theorem not_open_render (u : Chars) (f : Finding) {rid : Str} (grammar : IsId rid) (s : Str) {tail : Str}
    (clean : tick ∉ tail) (straight : Chr.ofChar '\r' ∉ tail) :
    ¬ Open u (s ++ Utf8.newlines false (renderRequirement u f rid ++ tail)) := by
  obtain ⟨front, whole⟩ := render_end u f rid
  have shape : renderRequirement u f rid ++ tail = front ++ (rid ++ tick :: (closing ++ tail)) ++ [] := by
    rw [whole]
    unfold ending
    simp only [List.append_assoc, List.cons_append, List.append_nil]
  have behind : tick ∉ closing ++ tail := by
    rw [List.mem_append, not_or]
    exact ⟨by decide, clean⟩
  have absent : Chr.ofChar '\r' ∉ rid ++ tick :: (closing ++ tail) := by
    simp only [List.mem_append, List.mem_cons, not_or]
    exact ⟨carriage_not_mem_id grammar, by decide, carriage_not_mem_closing, straight⟩
  have head : ∀ c ∈ (rid ++ tick :: (closing ++ tail)).head?, c ≠ Chr.ofChar '\n' := by
    obtain ⟨c, rid, rfl⟩ := List.exists_cons_of_ne_nil grammar.1
    intro d here
    cases Option.some.inj here
    rintro rfl
    exact absurd (grammar.2 _ List.mem_cons_self) (by decide)
  rw [shape, newlines_between [] head (by simp) absent, Utf8.newlines, List.append_nil,
    ← List.append_assoc]
  exact not_open_ending grammar behind

/-! The blocks of one run. -/

def blocksText (u : Chars) (blocks : List (Finding × Str)) : Str :=
  Str.join "\n" (blocks.map (fun b => renderRequirement u b.1 b.2))

theorem blocksText_hash (u : Chars) {blocks : List (Finding × Str)} (some_ : blocks ≠ []) :
    ∃ t, blocksText u blocks = hash :: t := by
  obtain ⟨b, rest, rfl⟩ := List.exists_cons_of_ne_nil some_
  obtain ⟨t, whole⟩ := join_head "\n" (renderRequirement u b.1 b.2)
    (rest.map (fun b => renderRequirement u b.1 b.2))
  obtain ⟨t', head⟩ := render_hash u b.1 b.2
  refine ⟨t' ++ t, ?_⟩
  unfold blocksText
  rw [List.map_cons, whole, head]
  rfl

/-- Each finding of the blocks is read back. -/
theorem mem_origins_blocks {u : Chars} {blocks : List (Finding × Str)} :
    ∀ {s : Str}, (∀ b ∈ blocks, Readable u b.1 ∧ IsId b.2 ∧
      (b.1.sourceId.head? = some comma → ¬ Open u s)) →
      ∀ b ∈ blocks, b.1.key ∈ origins u (s ++ Utf8.newlines false (blocksText u blocks)) := by
  induction blocks with
  | nil => exact fun _ b inside => by cases inside
  | cons first rest ih =>
      intro s each b inside
      rw [List.forall_mem_cons] at each
      obtain ⟨⟨readable, grammar, shut⟩, later⟩ := each
      by_cases last : rest = []
      · subst last
        rw [List.mem_singleton.mp inside]
        have own := mem_origins_render readable first.2 shut []
        rwa [List.append_nil] at own
      · obtain ⟨t, head⟩ := blocksText_hash u last
        have cut : blocksText u (first :: rest) =
            renderRequirement u first.1 first.2 ++ ("\n" ++ blocksText u rest) := by
          unfold blocksText
          rw [List.map_cons, Str.join_cons _ _ _ (by simpa using last), List.append_assoc]
        rw [cut]
        rcases List.mem_cons.mp inside with rfl | inside
        · exact mem_origins_render readable b.2 shut _
        · have read : s ++ Utf8.newlines false
              (renderRequirement u first.1 first.2 ++ ("\n" ++ blocksText u rest)) =
              s ++ Utf8.newlines false (renderRequirement u first.1 first.2 ++ "\n") ++
                Utf8.newlines false (blocksText u rest) := by
            rw [head, ← List.append_assoc, newlines_hash, List.append_assoc]
            exact congrArg _ (congrArg _ (newlines_hash [] t).symm)
          rw [read]
          refine ih (fun b' inside' => ?_) b inside
          obtain ⟨readable', grammar', -⟩ := later b' inside'
          exact ⟨readable', grammar', fun _ =>
            not_open_render u first.1 grammar s (by decide) (by decide)⟩

/-- Blocks leave no provenance open. -/
theorem not_open_blocks {u : Chars} {blocks : List (Finding × Str)} (some_ : blocks ≠ [])
    (grammar : ∀ b ∈ blocks, IsId b.2) (s : Str) :
    ¬ Open u (s ++ Utf8.newlines false (blocksText u blocks)) := by
  obtain ⟨init, last, rfl⟩ := (List.eq_nil_or_concat' blocks).resolve_left some_
  have own : IsId last.2 := grammar last (List.mem_append_right _ (List.mem_singleton_self last))
  obtain ⟨front, cut⟩ : ∃ front, blocksText u (init ++ [last]) =
      front ++ renderRequirement u last.1 last.2 := by
    unfold blocksText
    rw [List.map_append, List.map_singleton]
    by_cases first : init = []
    · subst first
      exact ⟨[], rfl⟩
    · exact ⟨_, Str.join_append "\n" _ [_] (by simpa using first) (List.cons_ne_nil _ _)⟩
  obtain ⟨t, head⟩ := render_hash u last.1 last.2
  have read : Utf8.newlines false (front ++ renderRequirement u last.1 last.2) =
      Utf8.newlines false front ++ Utf8.newlines false (renderRequirement u last.1 last.2 ++ []) := by
    rw [List.append_nil, head, newlines_hash]
    exact congrArg _ (newlines_hash [] t).symm
  rw [cut, read, ← List.append_assoc]
  exact not_open_render u last.1 own _ List.not_mem_nil List.not_mem_nil

/-- Each id of the blocks is read. -/
theorem mem_ids_blocks {u : Chars} {blocks : List (Finding × Str)} (s : Str) {b : Finding × Str}
    (inside : b ∈ blocks) (grammar : IsId b.2) :
    b.2 ∈ reqId.findall (s ++ Utf8.newlines false (blocksText u blocks)) := by
  obtain ⟨before, after, around⟩ := join_mem "\n"
    (List.mem_map_of_mem (f := fun b => renderRequirement u b.1 b.2) inside)
  obtain ⟨front, back, line⟩ := render_id u b.1 b.2
  have cut : blocksText u blocks = before ++ front ++ ("<!-- id: " ++ b.2 ++ (" -->" : Str)) ++
      (back ++ after) := by
    unfold blocksText
    rw [around, line]
    simp only [List.append_assoc]
  have head : ∀ c ∈ ("<!-- id: " ++ b.2 ++ (" -->" : Str)).head?, c ≠ Chr.ofChar '\n' := by
    intro c here
    cases Option.some.inj here
    decide
  have absent : Chr.ofChar '\r' ∉ "<!-- id: " ++ b.2 ++ (" -->" : Str) := by
    simp only [List.mem_append, not_or]
    exact ⟨⟨by decide, carriage_not_mem_id grammar⟩, by decide⟩
  rw [cut, newlines_between (back ++ after) head (List.cons_ne_nil _ _) absent]
  have read := mem_ids_line grammar (s ++ Utf8.newlines false (before ++ front))
    (Utf8.newlines false (back ++ after))
  simpa only [List.append_assoc] using read

/-- The text of a spec file as the blocks come behind it: its own, or a new header. -/
def base (u : Chars) (cap : Str) (spec : Option Str) : Str :=
  Utf8.newlines false (spec.getD (header u cap))

theorem textOf_appended (u : Chars) (cap : Str) (spec : Option Str) {blocks : List (Finding × Str)}
    (some_ : blocks ≠ []) :
    textOf (some (spec.getD [] ++ appended u cap spec blocks)) =
      base u cap spec ++ Utf8.newlines false (blocksText u blocks) := by
  obtain ⟨t, head⟩ := blocksText_hash u some_
  have shape : spec.getD [] ++ appended u cap spec blocks = spec.getD (header u cap) ++ blocksText u blocks := by
    unfold appended
    cases spec with
    | none => rfl
    | some raw => rfl
  unfold textOf base
  rw [Option.getD_some, shape, head, newlines_hash]
  exact congrArg _ (newlines_hash [] t).symm

theorem appended_hash (u : Chars) (cap : Str) (spec : Option Str) {blocks : List (Finding × Str)}
    (some_ : blocks ≠ []) : ∃ t, appended u cap spec blocks = hash :: t := by
  obtain ⟨t, head⟩ := blocksText_hash u some_
  unfold appended
  cases spec with
  | none => exact ⟨_, rfl⟩
  | some raw => exact ⟨t, head⟩

end DevGate.Gate.Scaffold
