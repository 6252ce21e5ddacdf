import DevGate.Coherence.SchemaReading

set_option autoImplicit false

/- The documents that `validate` accepts against those that are valid under draft-07. -/
namespace DevGate.SchemaDocument

open Py Depth
open Draft07 (Keyword Part Positional Additional Meets Valid target)

/-- `_resolve` and the pointer lead to one schema. -/
def ReadAlike (root : Value) (r : Str) (t : Value) : Prop :=
  resolve (.str r) root = .ok t ∧ target root r = some t

/-- A part of the document, with the schema that both readings apply to it. -/
inductive Place (root : Value) : Value → Value → Value → Value → Prop where
  | here (doc schema : Value) : Place root doc schema doc schema
  | reference {s : Dict Str Value} {r : Str} {doc t v sub : Value}
      (stated : Dict.get? s "$ref" = some (.str r)) (alike : ReadAlike root r t)
      (inner : Place root doc t v sub) : Place root doc (.dict s) v sub
  | part {s : Dict Str Value} {doc w t v sub : Value} (plain : Dict.get? s "$ref" = none)
      (part : Part s doc w t) (inner : Place root w t v sub) : Place root doc (.dict s) v sub

/-- What a schema asks at one place. -/
inductive Aspect where
  | keyword (k : Keyword)
  | additional
  | positional
  | boolean
  | reference

/-- `validate` is satisfied. It reads no schema but an object, one schema for all items, and
`additionalProperties` only where it is `false`. -/
def CodeHolds (E : Engine) (root doc schema : Value) : Aspect → Prop
  | .keyword k => ∀ s, schema = .dict s → Dict.get? s "$ref" = none → Passes E s doc k
  | .additional => ∀ s, schema = .dict s → Dict.get? s "$ref" = none →
      Dict.get? s "additionalProperties" = some (.bool false) → ∀ v sub, ¬ Additional s doc v sub
  | .positional => ∀ s, schema = .dict s → Dict.get? s "$ref" = none → ∀ subs vs,
      Dict.get? s "items" = some (.list subs) → doc = .list vs → vs = []
  | .boolean => ∀ b, schema ≠ .bool b
  | .reference => ∀ s r, schema = .dict s → Dict.get? s "$ref" = some (.str r) →
      (∀ t, ¬ ReadAlike root r t) → ∃ t, resolve (.str r) root = .ok t ∧ Accepts E root doc t

/-- Draft-07 is satisfied. -/
def DraftHolds (E : Engine) (root doc schema : Value) : Aspect → Prop
  | .keyword k => ∀ s, schema = .dict s → Dict.get? s "$ref" = none → Meets E s doc k
  | .additional => ∀ s, schema = .dict s → Dict.get? s "$ref" = none → ∀ v sub,
      Additional s doc v sub → Valid E root v sub
  | .positional => ∀ s, schema = .dict s → Dict.get? s "$ref" = none → ∀ v sub,
      Positional s doc v sub → Valid E root v sub
  | .boolean => schema ≠ .bool false
  | .reference => ∀ s r, schema = .dict s → Dict.get? s "$ref" = some (.str r) →
      (∀ t, ¬ ReadAlike root r t) → ∃ t, target root r = some t ∧ Valid E root doc t

/-- `holds` of every aspect of every place. -/
def Throughout (holds : Value → Value → Aspect → Prop) (root doc schema : Value) : Prop :=
  ∀ v sub, Place root doc schema v sub → ∀ a, holds v sub a

section

variable {holds : Value → Value → Aspect → Prop} {root doc : Value} {s : Dict Str Value}

theorem throughout_boolean {b : Bool} :
    Throughout holds root doc (.bool b) ↔ ∀ a, holds doc (.bool b) a := by
  constructor
  · intro all
    exact all _ _ (.here _ _)
  · rintro here v sub ⟨⟩
    exact here

theorem throughout_alike {r : Str} {t : Value} (stated : Dict.get? s "$ref" = some (.str r))
    (alike : ReadAlike root r t) : Throughout holds root doc (.dict s) ↔
      (∀ a, holds doc (.dict s) a) ∧ Throughout holds root doc t := by
  constructor
  · intro all
    exact ⟨all _ _ (.here _ _), fun v sub place => all v sub (.reference stated alike place)⟩
  · rintro ⟨here, inner⟩ v sub place
    cases place with
    | here => exact here
    | reference other alike' place =>
        rw [stated] at other
        cases other
        have same := alike.2.symm.trans alike'.2
        cases same
        exact inner v sub place
    | part plain _ _ =>
        rw [stated] at plain
        cases plain

theorem throughout_misread {r : Str} (stated : Dict.get? s "$ref" = some (.str r))
    (misread : ∀ t, ¬ ReadAlike root r t) :
    Throughout holds root doc (.dict s) ↔ ∀ a, holds doc (.dict s) a := by
  constructor
  · intro all
    exact all _ _ (.here _ _)
  · intro here v sub place
    cases place with
    | here => exact here
    | reference other alike _ =>
        rw [stated] at other
        cases other
        exact absurd alike (misread _)
    | part plain _ _ =>
        rw [stated] at plain
        cases plain

theorem throughout_own (plain : Dict.get? s "$ref" = none) :
    Throughout holds root doc (.dict s) ↔ (∀ a, holds doc (.dict s) a) ∧
      ∀ v sub, Part s doc v sub → Throughout holds root v sub := by
  constructor
  · intro all
    exact ⟨all _ _ (.here _ _), fun w t part v sub place => all v sub (.part plain part place)⟩
  · rintro ⟨here, inner⟩ v sub place
    cases place with
    | here => exact here
    | reference stated _ _ =>
        rw [plain] at stated
        cases stated
    | part _ part place => exact inner _ _ part v sub place

end

section

variable {E : Engine} {root : Value}

theorem codeHolds_own {s : Dict Str Value} {doc : Value} (plain : Dict.get? s "$ref" = none) :
    (∀ a, CodeHolds E root doc (.dict s) a) ↔ Own E s doc ∧
      ∀ subs vs, Dict.get? s "items" = some (.list subs) → doc = .list vs → vs = [] := by
  constructor
  · intro all
    exact ⟨⟨fun k => all (.keyword k) s rfl plain, all .additional s rfl plain⟩,
      all .positional s rfl plain⟩
  · rintro ⟨⟨passes, closed⟩, single⟩ a
    cases a with
    | keyword k =>
        rintro s' ⟨⟩ -
        exact passes k
    | additional =>
        rintro s' ⟨⟩ -
        exact closed
    | positional =>
        rintro s' ⟨⟩ -
        exact single
    | boolean => exact fun b => by rintro ⟨⟩
    | reference =>
        rintro s' r ⟨⟩ stated
        rw [plain] at stated
        cases stated

theorem codeHolds_reference {s : Dict Str Value} {r : Str} {doc : Value}
    (stated : Dict.get? s "$ref" = some (.str r)) :
    (∀ a, CodeHolds E root doc (.dict s) a) ↔ ((∀ t, ¬ ReadAlike root r t) →
      ∃ t, resolve (.str r) root = .ok t ∧ Accepts E root doc t) := by
  constructor
  · intro all
    exact all .reference s r rfl stated
  · intro misread a
    have apart : ∀ s' : Dict Str Value, Value.dict s = .dict s' → Dict.get? s' "$ref" ≠ none := by
      rintro s' ⟨⟩
      rw [stated]
      exact nofun
    cases a with
    | keyword k => exact fun s' same plain => absurd plain (apart s' same)
    | additional => exact fun s' same plain => absurd plain (apart s' same)
    | positional => exact fun s' same plain => absurd plain (apart s' same)
    | boolean => exact fun b => by rintro ⟨⟩
    | reference =>
        rintro s' r' ⟨⟩ here
        rw [stated] at here
        cases here
        exact misread

/-- The documents that `validate` accepts satisfy it at every place. -/
theorem WellFormed.accepts_iff {schema : Value} (formed : WellFormed root schema) (E : Engine) :
    ∀ doc, Accepts E root doc schema ↔ Throughout (CodeHolds E root) root doc schema := by
  induction formed with
  | boolean b =>
      intro doc
      rw [throughout_boolean]
      constructor
      · rintro ⟨⟩
      · intro all
        exact absurd rfl (all .boolean b)
  | @reference s r t stated found _ _ targetIff _ =>
      intro doc
      rw [accepts_reference stated]
      by_cases alike : ReadAlike root r t
      · have read : (∀ t', ¬ ReadAlike root r t') → ∃ t', resolve (.str r) root = .ok t' ∧
            Accepts E root doc t' := fun misread => absurd alike (misread t)
        rw [throughout_alike stated alike, ← targetIff doc, alike.1]
        constructor
        · rintro ⟨t', same, accepts⟩
          cases same
          exact ⟨(codeHolds_reference stated).mpr read, accepts⟩
        · rintro ⟨-, accepts⟩
          exact ⟨t, rfl, accepts⟩
      · have misread : ∀ t', ¬ ReadAlike root r t' := by
          rintro t' ⟨read, pointed⟩
          have same := found.symm.trans pointed
          cases same
          exact alike ⟨read, pointed⟩
        rw [throughout_misread stated misread, codeHolds_reference stated]
        exact ⟨fun accepts _ => accepts, fun accepts => accepts misread⟩
  | @own s plain formed items _ properties _ itemsIff _ propertiesIff _ =>
      intro doc
      rw [accepts_own plain, throughout_own plain, codeHolds_own plain, and_assoc]
      have inner : ∀ v sub, Part s doc v sub →
          (Accepts E root v sub ↔ Throughout (CodeHolds E root) root v sub) := by
        rintro v sub (⟨stated, one, -⟩ | ⟨stated, member, -⟩)
        · exact itemsIff sub stated one v
        · exact propertiesIff _ stated _ sub member v
      refine and_congr_right fun _ => and_congr_right fun _ => ?_
      exact forall_congr' fun v => forall_congr' fun sub => forall_congr' fun part =>
        inner v sub part

theorem draftHolds_own {s : Dict Str Value} {doc : Value} (plain : Dict.get? s "$ref" = none) :
    (∀ a, DraftHolds E root doc (.dict s) a) ↔ (∀ k, Meets E s doc k) ∧
      (∀ v sub, Positional s doc v sub → Valid E root v sub) ∧
        ∀ v sub, Additional s doc v sub → Valid E root v sub := by
  constructor
  · intro all
    exact ⟨fun k => all (.keyword k) s rfl plain, all .positional s rfl plain,
      all .additional s rfl plain⟩
  · rintro ⟨meets, positional, additional⟩ a
    cases a with
    | keyword k =>
        rintro s' ⟨⟩ -
        exact meets k
    | additional =>
        rintro s' ⟨⟩ -
        exact additional
    | positional =>
        rintro s' ⟨⟩ -
        exact positional
    | boolean => exact nofun
    | reference =>
        rintro s' r ⟨⟩ stated
        rw [plain] at stated
        cases stated

theorem draftHolds_reference {s : Dict Str Value} {r : Str} {doc : Value}
    (stated : Dict.get? s "$ref" = some (.str r)) :
    (∀ a, DraftHolds E root doc (.dict s) a) ↔ ((∀ t, ¬ ReadAlike root r t) →
      ∃ t, target root r = some t ∧ Valid E root doc t) := by
  constructor
  · intro all
    exact all .reference s r rfl stated
  · intro misread a
    have apart : ∀ s' : Dict Str Value, Value.dict s = .dict s' → Dict.get? s' "$ref" ≠ none := by
      rintro s' ⟨⟩
      rw [stated]
      exact nofun
    cases a with
    | keyword k => exact fun s' same plain => absurd plain (apart s' same)
    | additional => exact fun s' same plain => absurd plain (apart s' same)
    | positional => exact fun s' same plain => absurd plain (apart s' same)
    | boolean => exact nofun
    | reference =>
        rintro s' r' ⟨⟩ here
        rw [stated] at here
        cases here
        exact misread

theorem valid_own {s : Dict Str Value} {doc : Value} (plain : Dict.get? s "$ref" = none) :
    Valid E root doc (.dict s) ↔ ((∀ k, Meets E s doc k) ∧
      (∀ v sub, Positional s doc v sub → Valid E root v sub) ∧
        ∀ v sub, Additional s doc v sub → Valid E root v sub) ∧
      ∀ v sub, Part s doc v sub → Valid E root v sub := by
  constructor
  · rintro (_ | ⟨stated, -, -⟩ | ⟨-, meets, parts, items, others⟩)
    · rw [plain] at stated
      cases stated
    · exact ⟨⟨meets, items, others⟩, parts⟩
  · rintro ⟨⟨meets, items, others⟩, parts⟩
    exact .own plain meets parts items others

theorem valid_reference {s : Dict Str Value} {r : Str} {doc : Value}
    (stated : Dict.get? s "$ref" = some (.str r)) :
    Valid E root doc (.dict s) ↔ ∃ t, target root r = some t ∧ Valid E root doc t := by
  constructor
  · rintro (_ | ⟨here, found, valid⟩ | ⟨plain, -⟩)
    · rw [stated] at here
      cases here
      exact ⟨_, found, valid⟩
    · rw [stated] at plain
      cases plain
  · rintro ⟨t, found, valid⟩
    exact .reference stated found valid

/-- The valid documents satisfy draft-07 at every place. -/
theorem WellFormed.valid_iff {schema : Value} (formed : WellFormed root schema) (E : Engine) :
    ∀ doc, Valid E root doc schema ↔ Throughout (DraftHolds E root) root doc schema := by
  induction formed with
  | boolean b =>
      intro doc
      rw [throughout_boolean]
      constructor
      · rintro ⟨⟩ a
        cases a <;> exact nofun
      · intro all
        have holds : Value.bool b ≠ .bool false := all .boolean
        cases b with
        | false => exact absurd rfl holds
        | true => exact .anything doc
  | @reference s r t stated found _ _ targetIff _ =>
      intro doc
      rw [valid_reference stated]
      by_cases alike : ReadAlike root r t
      · have pointed : (∀ t', ¬ ReadAlike root r t') → ∃ t', target root r = some t' ∧
            Valid E root doc t' := fun misread => absurd alike (misread t)
        rw [throughout_alike stated alike, ← targetIff doc, found]
        constructor
        · rintro ⟨t', same, valid⟩
          cases same
          exact ⟨(draftHolds_reference stated).mpr pointed, valid⟩
        · rintro ⟨-, valid⟩
          exact ⟨t, rfl, valid⟩
      · have misread : ∀ t', ¬ ReadAlike root r t' := by
          rintro t' ⟨read, pointed⟩
          have same := found.symm.trans pointed
          cases same
          exact alike ⟨read, pointed⟩
        rw [throughout_misread stated misread, draftHolds_reference stated]
        exact ⟨fun valid _ => valid, fun valid => valid misread⟩
  | @own s plain formed items _ properties _ itemsIff _ propertiesIff _ =>
      intro doc
      rw [valid_own plain, throughout_own plain, draftHolds_own plain]
      have inner : ∀ v sub, Part s doc v sub →
          (Valid E root v sub ↔ Throughout (DraftHolds E root) root v sub) := by
        rintro v sub (⟨stated, one, -⟩ | ⟨stated, member, -⟩)
        · exact itemsIff sub stated one v
        · exact propertiesIff _ stated _ sub member v
      refine and_congr_right fun _ => ?_
      exact forall_congr' fun v => forall_congr' fun sub => forall_congr' fun part =>
        inner v sub part

end

/-! Where the two readings part. -/

section

variable (E : Engine) (root doc schema : Value)

/-- Something that neither reading accepts. -/
def Broken : Prop :=
  ∃ v sub a, Place root doc schema v sub ∧ ¬ CodeHolds E root v sub a ∧ ¬ DraftHolds E root v sub a

/-- Something that only `validate` accepts: `True` for `1`, a member that `additionalProperties`
refuses with a schema, a time that only `fromisoformat` reads. -/
def Lax : Prop :=
  ∃ v sub a, Place root doc schema v sub ∧ CodeHolds E root v sub a ∧ ¬ DraftHolds E root v sub a

/-- Something that only draft-07 accepts: `1.0` for an integer, what a boolean schema or one
schema for each item applies to, a time that only RFC 3339 reads. -/
def Strict : Prop :=
  ∃ v sub a, Place root doc schema v sub ∧ ¬ CodeHolds E root v sub a ∧ DraftHolds E root v sub a

/-- `validate` ends, and finds nothing exactly in a valid document. -/
def Implements : Prop := Settles E root doc schema (Valid E root doc schema)

end

variable {E : Engine} {root doc schema : Value}

theorem code_refuses : ¬ Throughout (CodeHolds E root) root doc schema ↔
    Broken E root doc schema ∨ Strict E root doc schema := by
  constructor
  · intro refused
    simp only [Throughout, not_forall] at refused
    obtain ⟨v, sub, place, a, fails⟩ := refused
    by_cases valid : DraftHolds E root v sub a
    · exact Or.inr ⟨v, sub, a, place, fails, valid⟩
    · exact Or.inl ⟨v, sub, a, place, fails, valid⟩
  · rintro (⟨v, sub, a, place, fails, -⟩ | ⟨v, sub, a, place, fails, -⟩) all
    · exact fails (all v sub place a)
    · exact fails (all v sub place a)

theorem draft_refuses : ¬ Throughout (DraftHolds E root) root doc schema ↔
    Broken E root doc schema ∨ Lax E root doc schema := by
  constructor
  · intro refused
    simp only [Throughout, not_forall] at refused
    obtain ⟨v, sub, place, a, fails⟩ := refused
    by_cases passes : CodeHolds E root v sub a
    · exact Or.inr ⟨v, sub, a, place, passes, fails⟩
    · exact Or.inl ⟨v, sub, a, place, passes, fails⟩
  · rintro (⟨v, sub, a, place, -, fails⟩ | ⟨v, sub, a, place, -, fails⟩) all
    · exact fails (all v sub place a)
    · exact fails (all v sub place a)

/-- The stages of an evaluation context. -/
def stages : Value := .dict [("enum", .list [.int 0, .int 1, .int 2, .int 3, .int 4])]

/-- An engine for schemas without a pattern. -/
def unasked : Engine := ⟨fun _ _ => .ok true, fun _ _ => true⟩

theorem stages_formed (root : Value) : WellFormed root stages := by
  refine .own rfl ⟨?_, ?_, ?_, ?_, ?_, ?_, ?_, ?_, ?_, ?_⟩ ?_ ?_ ?_ ?_
  · rintro v ⟨⟩
    exact ⟨_, rfl⟩
  all_goals rintro v ⟨⟩

theorem stage_accepted : Accepts unasked stages (.bool true) stages := by
  refine .own rfl (fun k => ?_) nofun nofun nofun
  cases k with
  | enum =>
      rintro vs ⟨⟩
      decide
  | _ => nofun

end DevGate.SchemaDocument
