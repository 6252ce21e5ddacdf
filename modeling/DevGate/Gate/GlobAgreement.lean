import DevGate.Gate.GlobMarks

set_option autoImplicit false

/- When the three gates answer alike for a path and its globs. -/
namespace DevGate.Gate.Globs

open Py
open Wildcard (Piece Item)
open Regression (Matching baseName expandGlobstar)

/-- The gates give the same answer for the path and its base name. -/
def SameAnswer (compile : Str → Bool → Except Str (Str → Bool)) (path : Str) (globs : List Glob) :
    Prop :=
  Regression.globMatches { compile, fnmatch } path (globs.map Glob.text) =
      Game.globMatches path (globs.map Glob.text) ∧
    Scan.globMatchesAny (globs.map Glob.text) path (baseName path) =
      Game.globMatches path (globs.map Glob.text)

/-- The form takes the path or its base name, any character standing for itself. -/
def Hits (path form : Str) : Prop := fnmatch (baseName path) form = true ∨ fnmatch path form = true

/-- Some glob of the list takes the path as it is written: a star takes any text, a question mark
one character. -/
def AsWritten (path : Str) (globs : List Glob) : Prop := ∃ g ∈ globs, Hits path g.text

/-- The readings of a glob in the scanner: each `**/` is any text up to a slash, or left out. -/
def readings (g : Glob) : List (List (Piece Chr)) :=
  Wildcard.forms (Scan.tokens (Scan.units g.text))

/-- The reading takes the path or its base name, where wildcards take 16-bit units and no line
terminators. -/
def ScanHits (path : Str) (reading : List (Piece Chr)) : Prop :=
  Wildcard.Spells Scan.dot reading (Scan.units (baseName path)) ∨
    Wildcard.Spells Scan.dot reading (Scan.units path)

/-- Nothing is found under a shortened form of a glob that the globs as written do not find, and
the scanner finds what they do. -/
structure OneReading (path : Str) (globs : List Glob) : Prop where
  collapsed : ∀ g ∈ globs, ∀ form ∈ expandGlobstar g.text, Hits path form → AsWritten path globs
  elided : ∀ g ∈ globs, ∀ reading ∈ readings g, ScanHits path reading → AsWritten path globs
  kept : AsWritten path globs → ∃ g ∈ globs, ∃ reading ∈ readings g, ScanHits path reading

section

variable {path : Str} {globs : List Glob}

theorem game_iff : Game.globMatches path (globs.map Glob.text) = true ↔ AsWritten path globs := by
  unfold Game.globMatches AsWritten Hits
  rw [List.any_map, List.any_eq_true]
  simp only [Function.comp_apply, Bool.or_eq_true]

theorem regression_iff {compile : Str → Bool → Except Str (Str → Bool)} :
    Regression.globMatches { compile, fnmatch } path (globs.map Glob.text) = true ↔
      ∃ g ∈ globs, ∃ form ∈ expandGlobstar g.text, Hits path form := by
  unfold Regression.globMatches Hits
  rw [List.any_eq_true]
  simp only [Bool.or_eq_true, List.mem_flatMap, List.mem_map]
  constructor
  · rintro ⟨form, ⟨_, ⟨g, inside, rfl⟩, expanded⟩, hit⟩
    exact ⟨g, inside, form, expanded, hit⟩
  · rintro ⟨g, inside, form, expanded, hit⟩
    exact ⟨form, ⟨g.text, ⟨g, inside, rfl⟩, expanded⟩, hit⟩

/-- No word of a placeholder stands between two wildcards of the glob. -/
def Legible (g : Glob) : Prop := Scan.Spelled (Scan.cells (Scan.units g.text))

theorem globMatch_iff {g : Glob} (legible : Legible g) (s : Str) :
    Scan.globMatch g.text s = true ↔
      ∃ reading ∈ readings g, Wildcard.Spells Scan.dot reading (Scan.units s) := by
  rw [Scan.globMatch, Scan.pattern_eq legible, Wildcard.takes_iff]
  rfl

theorem scan_iff (legible : ∀ g ∈ globs, Legible g) :
    Scan.globMatchesAny (globs.map Glob.text) path (baseName path) = true ↔
      ∃ g ∈ globs, ∃ reading ∈ readings g, ScanHits path reading := by
  unfold Scan.globMatchesAny ScanHits
  rw [List.any_map, List.any_eq_true]
  refine exists_congr (fun g => and_congr_right (fun inside => ?_))
  rw [Function.comp_apply, Bool.or_eq_true, globMatch_iff (legible g inside),
    globMatch_iff (legible g inside)]
  simp only [and_or_left, exists_or]
  exact or_comm

theorem expandGlobstar_self (g : Str) : g ∈ expandGlobstar g := by
  unfold expandGlobstar
  simp

end

/-! Paths and globs of 16-bit characters without line terminators. -/

/-- Characters that are one unit each, and no line terminators. -/
def Narrow (s : Str) : Prop := ∀ c ∈ s, c.val < 0x10000 ∧ Scan.dot c = true

theorem units_narrow {s : Str} (narrow : ∀ c ∈ s, c.val < 0x10000) : Scan.units s = s := by
  induction s with
  | nil => rfl
  | cons c s ih =>
      rw [List.forall_mem_cons] at narrow
      have later := ih narrow.2
      unfold Scan.units at later ⊢
      rw [List.flatMap_cons, if_pos narrow.1, later]
      rfl

/-- A glob as it is written takes what its full reading takes. -/
theorem written_iff {free : Chr → Bool} (glob s : Str) :
    Wildcard.Spells free (glob.map pieceOf) s ↔
      Wildcard.Spells free (Wildcard.full (Scan.tokens glob)) s := by
  have each : ∀ cs : List Scan.Cell,
      (∀ c, Scan.Cell.lit c ∈ cs → c ≠ Chr.ofChar '*' ∧ c ≠ Chr.ofChar '?') → ∀ s,
      (Wildcard.Spells free ((cs.flatMap Scan.Cell.source).map pieceOf) s ↔
        Wildcard.Spells free (Wildcard.full (cs.map Scan.Cell.item)) s) := by
    intro cs
    induction cs with
    | nil => exact fun _ s => Iff.rfl
    | cons cell cs ih =>
        intro clear s
        have later := ih (fun c inside => clear c (List.mem_cons_of_mem _ inside))
        -- what stands before the rest of the glob takes the same on both sides
        have front {ps : List (Piece Chr)} (s : Str) :
            Wildcard.Spells free (ps ++ (cs.flatMap Scan.Cell.source).map pieceOf) s ↔
              Wildcard.Spells free (ps ++ Wildcard.full (cs.map Scan.Cell.item)) s := by
          rw [Wildcard.spells_append, Wildcard.spells_append]
          simp only [later]
        cases cell with
        | lit c =>
            obtain ⟨star, mark⟩ := clear c List.mem_cons_self
            have own : pieceOf c = .lit c := by rw [pieceOf, if_neg star, if_neg mark]
            have shown : ((Scan.Cell.lit c :: cs).flatMap Scan.Cell.source).map pieceOf =
                [.lit c] ++ (cs.flatMap Scan.Cell.source).map pieceOf := by
              rw [← own]
              rfl
            rw [shown]
            exact front s
        | wild w =>
            cases w with
            | dslash => exact Wildcard.spells_many_many.trans (@front [.many, .lit (Chr.ofChar '/')] s)
            | globstar => exact Wildcard.spells_many_many.trans (@front [.many] s)
            | star => exact @front [.many] s
            | qmark => exact @front [.one] s
  have whole := each (Scan.cells glob) (fun c inside => Scan.cells_clear glob inside) s
  rwa [Scan.cells_source] at whole

theorem mem_of_mem_split {sep c : Chr} {s part : Str} (known : part ∈ Str.split sep s)
    (inside : c ∈ part) : c ∈ s := by
  induction s generalizing part with
  | nil =>
      rw [List.mem_singleton.mp known] at inside
      exact inside
  | cons d rest ih =>
      by_cases same : d = sep
      · subst same
        rw [Str.split_cons_sep, List.mem_cons] at known
        rcases known with rfl | later
        · cases inside
        · exact List.mem_cons_of_mem _ (ih later inside)
      · obtain ⟨first, others, split, whole⟩ := Str.split_cons_ne sep d rest same
        rw [split] at ih
        rw [whole, List.mem_cons] at known
        rcases known with rfl | later
        · rcases List.mem_cons.mp inside with rfl | inside
          · exact List.mem_cons_self
          · exact List.mem_cons_of_mem _ (ih List.mem_cons_self inside)
        · exact List.mem_cons_of_mem _ (ih (List.mem_cons_of_mem _ later) inside)

theorem narrow_baseName {path : Str} (narrow : Narrow path) : Narrow (baseName path) := by
  intro c inside
  obtain ⟨front, last, split⟩ := (List.eq_nil_or_concat' (Str.split (Chr.ofChar '/') path)).resolve_left
    (Str.split_ne_nil _ _)
  have own : baseName path = last := by
    unfold baseName
    rw [split, List.getLastD_concat]
  rw [own] at inside
  exact narrow c (mem_of_mem_split (by rw [split]; simp) inside)

/-- The reading takes the path or its base name, any character standing for itself. -/
def Takes (path : Str) (reading : List (Piece Chr)) : Prop :=
  Wildcard.Spells (fun _ => true) reading (baseName path) ∨
    Wildcard.Spells (fun _ => true) reading path

theorem scanHits_narrow {path : Str} (narrow : Narrow path) (reading : List (Piece Chr)) :
    ScanHits path reading ↔ Takes path reading := by
  have same {s : Str} (narrow : Narrow s) : Wildcard.Spells Scan.dot reading (Scan.units s) ↔
      Wildcard.Spells (fun _ => true) reading s := by
    rw [units_narrow (fun c inside => (narrow c inside).1)]
    exact ⟨Wildcard.Spells.congr (fun c inside => (narrow c inside).2),
      Wildcard.Spells.congr (fun c inside => (narrow c inside).2.symm)⟩
  exact or_congr (same (narrow_baseName narrow)) (same narrow)

theorem hits_iff (path glob : Str) :
    Hits path glob ↔ Takes path (Wildcard.full (Scan.tokens glob)) := by
  unfold Hits Takes fnmatch
  rw [Wildcard.matchesAll_iff, Wildcard.matchesAll_iff, written_iff, written_iff]

/-- The full reading takes what the glob takes as it is written. -/
theorem scanHits_of_hits {path : Str} (narrow : Narrow path) {g : Glob}
    (single : ∀ c ∈ g.text, c.val < 0x10000) (hit : Hits path g.text) :
    ∃ reading ∈ readings g, ScanHits path reading := by
  refine ⟨Wildcard.full (Scan.tokens g.text), ?_, ?_⟩
  · rw [readings, units_narrow single]
    exact Wildcard.full_mem_forms _
  · exact (scanHits_narrow narrow _).mpr ((hits_iff path g.text).mp hit)

/-- Where every character is one unit and none ends a line, the globs are read alike exactly where
no shortened form of one finds what the globs as written do not. -/
theorem oneReading_narrow {path : Str} {globs : List Glob} (narrow : Narrow path)
    (single : ∀ g ∈ globs, ∀ c ∈ g.text, c.val < 0x10000) :
    OneReading path globs ↔ ∀ g ∈ globs,
      (∀ form ∈ expandGlobstar g.text, Hits path form → AsWritten path globs) ∧
        ∀ reading ∈ Wildcard.forms (Scan.tokens g.text), Takes path reading → AsWritten path globs := by
  have own : ∀ g ∈ globs, readings g = Wildcard.forms (Scan.tokens g.text) := by
    intro g inside
    rw [readings, units_narrow (single g inside)]
  constructor
  · intro one g inside
    refine ⟨one.collapsed g inside, fun reading known taken => ?_⟩
    rw [← own g inside] at known
    exact one.elided g inside reading known ((scanHits_narrow narrow reading).mpr taken)
  · intro each
    refine { collapsed := fun g inside => (each g inside).1, elided := ?_, kept := ?_ }
    · intro g inside reading known hit
      rw [own g inside] at known
      exact (each g inside).2 reading known ((scanHits_narrow narrow reading).mp hit)
    · rintro ⟨g, inside, hit⟩
      exact ⟨g, inside, scanHits_of_hits narrow (single g inside) hit⟩

theorem plain_of_all {text : Str} (each : text.all (fun c => c ≠ Chr.ofChar '[' &&
    c ≠ Chr.ofChar ']' && c ≠ Chr.ofChar '\\') = true) :
    ∀ c ∈ text, c ≠ Chr.ofChar '[' ∧ c ≠ Chr.ofChar ']' ∧ c ≠ Chr.ofChar '\\' := by
  intro c inside
  have here := List.all_eq_true.mp each c inside
  simpa only [Bool.and_eq_true, decide_eq_true_eq, and_assoc] using here

/-- A short glob has no word between two wildcards. -/
theorem legible_of_short {g : Glob} (unmarked : Scan.Cell.lit Scan.nul ∉ Scan.cells (Scan.units g.text))
    (short : (Scan.cells (Scan.units g.text)).length < 6) : Legible g where
  unmarked := unmarked
  apart a w b found := by
    have long := found.length_le
    have word : 4 ≤ w.word.length := by cases w <;> decide
    simp only [List.length_cons, List.length_append, List.length_map, List.length_nil] at long
    omega

def noPatterns : Str → Bool → Except Str (Str → Bool) := fun _ _ => .error []

def pythonFiles : Glob := { text := "*.py", plain := plain_of_all (by decide) }

/-- All that is below a folder. -/
def belowA : Glob := { text := "a/**", plain := plain_of_all (by decide) }

end DevGate.Gate.Globs
