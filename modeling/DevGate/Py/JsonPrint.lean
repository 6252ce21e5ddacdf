import DevGate.Py.JsonFlat

set_option autoImplicit false

/- `json.dumps` with the default separators, its texts spelled in any way that the scanner reads,
and the value that is read back. -/
namespace Py.Json

def quoteWith (spell : Chr → Str) (s : Str) : Str :=
  Chr.ofChar '"' :: (s.flatMap spell ++ [Chr.ofChar '"'])

mutual

def printed (p : Printer) (spell : Chr → Str) : Value → Str
  | .null => "null"
  | .bool true => "true"
  | .bool false => "false"
  | .int n => Str.ofInt n
  | .float x => floatText p x
  | .str s => quoteWith spell s
  | .list vs => Chr.ofChar '[' :: (Str.join ", " (printedList p spell vs) ++ [Chr.ofChar ']'])
  | .dict kvs => Chr.ofChar '{' :: (Str.join ", " (printedPairs p spell kvs) ++ [Chr.ofChar '}'])

def printedList (p : Printer) (spell : Chr → Str) : List Value → List Str
  | [] => []
  | v :: vs => printed p spell v :: printedList p spell vs

def printedPairs (p : Printer) (spell : Chr → Str) : List (Str × Value) → List Str
  | [] => []
  | (k, v) :: rest => (quoteWith spell k ++ ": " ++ printed p spell v) :: printedPairs p spell rest

end

variable {p : Printer} {spell : Chr → Str} {good : Str → Prop}

theorem printedList_eq_map (vs : List Value) :
    printedList p spell vs = vs.map (printed p spell) := by
  induction vs with
  | nil => rfl
  | cons v vs ih => rw [printedList, ih, List.map_cons]

/-- A member of an object. -/
def printedMember (p : Printer) (spell : Chr → Str) (kv : Str × Value) : Str :=
  quoteWith spell kv.1 ++ ": " ++ printed p spell kv.2

theorem printedPairs_eq_map (kvs : List (Str × Value)) :
    printedPairs p spell kvs = kvs.map (printedMember p spell) := by
  induction kvs with
  | nil => rfl
  | cons kv rest ih =>
      rw [printedPairs, ih, List.map_cons]
      rfl

theorem writeList_eq_map (arrange : List (Str × Str) → List (Str × Str)) (vs : List Value) :
    writeList p arrange vs = vs.map (write p arrange) := by
  induction vs with
  | nil => rfl
  | cons v vs ih => rw [writeList, ih, List.map_cons]

/-- The default spelling is that of `ensure_ascii`. -/
theorem write_eq_printed (v : Value) : write p id v = printed p escape v := by
  induction v using Value.ind with
  | list vs ih =>
      rw [write, printed, writeList_eq_map, printedList_eq_map, List.map_congr_left ih]
  | dict kvs ih =>
      rw [write_dict, printed, printedPairs_eq_map]
      congr 3
      apply List.map_congr_left
      intro kv inside
      rw [spaced, printedMember, ih kv inside]
      rfl
  | bool b => cases b <;> rfl
  | _ => rfl

/-- A value of the canonical profile: distinct keys in every object, and good texts. -/
inductive Sound (good : Str → Prop) : Value → Prop where
  | null : Sound good .null
  | bool (b : Bool) : Sound good (.bool b)
  | int {n : Int} (fits : Int64 n) : Sound good (.int n)
  | str {s : Str} (plain : good s) : Sound good (.str s)
  | list {vs : List Value} (each : ∀ v ∈ vs, Sound good v) : Sound good (.list vs)
  | dict {kvs : List (Str × Value)} (distinct : (kvs.map Prod.fst).Nodup)
      (keys : ∀ kv ∈ kvs, good kv.1) (each : ∀ kv ∈ kvs, Sound good kv.2) : Sound good (.dict kvs)

/-- The scanner reads the spelling of a good text back as the text. -/
def Spells (spell : Chr → Str) (good : Str → Prop) : Prop :=
  ∀ s, good s → ∀ rest, string (s.flatMap spell ++ Chr.ofChar '"' :: rest) = .ok (s, rest)

theorem spells_escape : Spells escape Tidy := by
  intro s tidy rest
  rw [string_quote, merge_tidy tidy]

theorem opens_quoteWith (s rest : Str) : Opens (quoteWith spell s ++ rest) :=
  ⟨Chr.ofChar '"', _, rfl, by decide, by decide, by decide⟩

theorem opens_printed {v : Value} (sound : Sound good v) : Opens (printed p spell v) := by
  cases sound with
  | null => exact ⟨Chr.ofChar 'n', "ull", rfl, by decide, by decide, by decide⟩
  | bool b =>
      cases b with
      | true => exact ⟨Chr.ofChar 't', "rue", rfl, by decide, by decide, by decide⟩
      | false => exact ⟨Chr.ofChar 'f', "alse", rfl, by decide, by decide, by decide⟩
  | int fits =>
      rw [printed]
      exact opens_ofInt _
  | str plain =>
      rw [printed]
      exact ⟨_, _, rfl, by decide, by decide, by decide⟩
  | list each =>
      rw [printed]
      exact ⟨_, _, rfl, by decide, by decide, by decide⟩
  | dict distinct keys each =>
      rw [printed]
      exact ⟨_, _, rfl, by decide, by decide, by decide⟩

theorem opens_printedMember (kv : Str × Value) : Opens (printedMember p spell kv) := by
  unfold printedMember
  rw [List.append_assoc]
  exact opens_quoteWith kv.1 _

theorem scanMember_printed (spells : Spells spell good) {kv : Str × Value} (plain : good kv.1)
    (sound : Sound good kv.2) {scan : Str → Scan (Value × Str)} {rest : Str}
    (value : scan (printed p spell kv.2 ++ rest) = .ok (kv.2, rest)) :
    scanMember scan (printedMember p spell kv ++ rest) = .ok (kv, rest) := by
  have colon : skip (Chr.ofChar ':' :: Chr.ofChar ' ' :: (printed p spell kv.2 ++ rest)) =
      Chr.ofChar ':' :: Chr.ofChar ' ' :: (printed p spell kv.2 ++ rest) := rfl
  have blank : skip (Chr.ofChar ' ' :: (printed p spell kv.2 ++ rest)) =
      printed p spell kv.2 ++ rest := (opens_printed sound).skip rest
  have text : printedMember p spell kv ++ rest = Chr.ofChar '"' ::
      (kv.1.flatMap spell ++ Chr.ofChar '"' :: Chr.ofChar ':' :: Chr.ofChar ' ' ::
        (printed p spell kv.2 ++ rest)) := by
    simp only [printedMember, quoteWith, List.cons_append, List.append_assoc, List.nil_append]
    rfl
  rw [text, scanMember, scanKey]
  simp only [spells kv.1 plain, ↓reduceIte, ok_bind, colon, pure_ok, blank, value]

theorem scanOnce_printedList {vs : List Value} (sound : ∀ v ∈ vs, Sound good v) {fuel : Nat}
    (each : ∀ v ∈ vs, ∀ rest, Closed rest →
      scanOnce fuel (printed p spell v ++ rest) = .ok (v, rest))
    (enough : (Str.join ", " (vs.map (printed p spell))).length < fuel) (rest : Str) :
    scanOnce (fuel + 1) (printed p spell (.list vs) ++ rest) = .ok (.list vs, rest) := by
  have marks : Chr.ofChar '[' ≠ Chr.ofChar '"' ∧ Chr.ofChar '[' ≠ Chr.ofChar '{' := by decide
  have blank : ∀ c ∈ [Chr.ofChar ' '], isBlank c = true := by
    intro c inside
    rw [List.mem_singleton.mp inside]
    rfl
  rw [printed, printedList_eq_map, List.cons_append, List.append_assoc, List.singleton_append]
  simp only [scanOnce, marks.1, marks.2, ↓reduceIte, array]
  cases vs with
  | nil => rfl
  | cons v vs =>
      have read := @scanSequence_join ", " [Chr.ofChar ' '] rfl blank _ _ _ (printed p spell) id _
        (Or.inl rfl) _ (by simp) (fun v member => opens_printed (sound v member)) each _ enough rest
      have opens := @opens_join ", " _ (@opens_printed p spell _ _ (sound v List.mem_cons_self))
        (vs.map (printed p spell))
      rw [List.map_cons, opens.skip]
      obtain ⟨c, t, cut, -, other, -⟩ := opens
      rw [List.map_cons, List.map_id] at read
      rw [cut, List.cons_append] at read ⊢
      simp only [other, ↓reduceIte, read, ok_bind, pure_ok]

theorem scanOnce_printedDict (spells : Spells spell good) {kvs : List (Str × Value)}
    (distinct : (kvs.map Prod.fst).Nodup) (keys : ∀ kv ∈ kvs, good kv.1)
    (sound : ∀ kv ∈ kvs, Sound good kv.2) {fuel : Nat}
    (each : ∀ kv ∈ kvs, ∀ rest, Closed rest →
      scanOnce fuel (printed p spell kv.2 ++ rest) = .ok (kv.2, rest))
    (enough : (Str.join ", " (kvs.map (printedMember p spell))).length < fuel) (rest : Str) :
    scanOnce (fuel + 1) (printed p spell (.dict kvs) ++ rest) = .ok (.dict kvs, rest) := by
  have marks : Chr.ofChar '{' ≠ Chr.ofChar '"' := by decide
  have blank : ∀ c ∈ [Chr.ofChar ' '], isBlank c = true := by
    intro c inside
    rw [List.mem_singleton.mp inside]
    rfl
  rw [printed, printedPairs_eq_map, List.cons_append, List.append_assoc, List.singleton_append]
  simp only [scanOnce, marks, ↓reduceIte, object]
  cases kvs with
  | nil => rfl
  | cons kv kvs =>
      have read := @scanSequence_join ", " [Chr.ofChar ' '] rfl blank _ _
        (scanMember (scanOnce fuel)) (printedMember p spell) id _ (Or.inr rfl) _ (by simp)
        (fun kv _ => opens_printedMember kv)
        (fun kv inside rest closed => scanMember_printed spells (keys kv inside) (sound kv inside)
          (each kv inside rest closed)) _ enough rest
      have opens := @opens_join ", " _ (@opens_printedMember p spell kv)
        (kvs.map (printedMember p spell))
      rw [List.map_cons, opens.skip]
      obtain ⟨c, t, cut, -, -, other⟩ := opens
      rw [List.map_cons, List.map_id] at read
      rw [cut, List.cons_append] at read ⊢
      simp only [other, ↓reduceIte, read, ok_bind, pure_ok, Dict.ofPairs_of_nodup distinct]

/-- The scanner reads a sound value back from its text. -/
theorem scanOnce_printed (spells : Spells spell good) {v : Value} (sound : Sound good v) (fuel : Nat)
    (rest : Str) (enough : (printed p spell v).length ≤ fuel) (closed : Closed rest) :
    scanOnce fuel (printed p spell v ++ rest) = .ok (v, rest) := by
  have positive := (@opens_printed p spell _ _ sound).length_pos
  induction sound generalizing fuel rest with
  | null =>
      obtain ⟨fuel, rfl⟩ := Nat.exists_eq_succ_of_ne_zero (Nat.ne_of_gt (positive.trans_le enough))
      rfl
  | bool b =>
      obtain ⟨fuel, rfl⟩ := Nat.exists_eq_succ_of_ne_zero (Nat.ne_of_gt (positive.trans_le enough))
      cases b <;> rfl
  | int fits =>
      obtain ⟨fuel, rfl⟩ := Nat.exists_eq_succ_of_ne_zero (Nat.ne_of_gt (positive.trans_le enough))
      exact scanOnce_ofInt fits fuel closed
  | @str s plain =>
      obtain ⟨fuel, rfl⟩ := Nat.exists_eq_succ_of_ne_zero (Nat.ne_of_gt (positive.trans_le enough))
      rw [printed, quoteWith, List.cons_append, List.append_assoc, List.singleton_append]
      simp only [scanOnce, spells s plain, ↓reduceIte]
      rfl
  | list each ih =>
      rw [printed, printedList_eq_map, List.length_cons, List.length_append, List.length_singleton]
        at enough
      obtain ⟨fuel, rfl⟩ : ∃ f, fuel = f + 1 := Nat.exists_eq_succ_of_ne_zero (by omega)
      apply scanOnce_printedList each _ (by omega)
      intro v member rest closed
      have bound := length_le_join ", " (List.mem_map_of_mem (f := printed p spell) member)
      exact ih v member fuel rest (by omega) closed (opens_printed (each v member)).length_pos
  | @dict kvs distinct keys each ih =>
      rw [printed, printedPairs_eq_map, List.length_cons, List.length_append,
        List.length_singleton] at enough
      obtain ⟨fuel, rfl⟩ : ∃ f, fuel = f + 1 := Nat.exists_eq_succ_of_ne_zero (by omega)
      apply scanOnce_printedDict spells distinct keys each _ (by omega)
      intro kv inside rest closed
      have bound := length_le_join ", " (List.mem_map_of_mem (f := printedMember p spell) inside)
      have part : (printed p spell kv.2).length ≤ (printedMember p spell kv).length := by
        simp only [printedMember, List.length_append]
        omega
      exact ih kv inside fuel rest (by omega) closed (opens_printed (each kv inside)).length_pos

/-- A text starts with a printable character. -/
theorem head_printed {v : Value} (sound : Sound good v) :
    (printed p spell v).head? ≠ some byteOrderMark := by
  have printable : ∀ c, (printed p spell v).head? = some c → c.val ≤ 0x7e := by
    intro c first
    cases sound with
    | null => exact (Option.some.inj first) ▸ by decide
    | bool b => cases b <;> exact (Option.some.inj first) ▸ by decide
    | int fits => exact (printable_ofInt _ c (List.mem_of_head? first)).2
    | str plain => exact (Option.some.inj first) ▸ by decide
    | list each => exact (Option.some.inj first) ▸ by decide
    | dict distinct keys each => exact (Option.some.inj first) ▸ by decide
  intro first
  have range := printable _ first
  revert range
  decide

/-- `json.loads(json.dumps(v))`. -/
theorem loads_printed (spells : Spells spell good) {v : Value} (sound : Sound good v) :
    loads (printed p spell v) = .ok v := by
  have opened : skip (printed p spell v) = printed p spell v := by
    have opens := (@opens_printed p spell _ _ sound).skip []
    rwa [List.append_nil] at opens
  have read := @scanOnce_printed p spell good spells v sound ((printed p spell v).length + 1) []
    (by omega) closed_nil
  rw [List.append_nil] at read
  unfold loads decodeText whole
  rw [if_neg (head_printed sound), opened, read]
  rfl

/-! The ASCII spelling, as a file. -/

theorem printable_printed {v : Value} (sound : Sound good v) : Printable (printed p escape v) := by
  have comma : Printable ", " := printable_of_all (by decide)
  have close : ∀ c : Chr, 0x20 ≤ c.val ∧ c.val ≤ 0x7e → Printable [c] := by
    intro c mark
    exact Printable.cons mark (by simp [Printable])
  induction sound with
  | null =>
      have word : Printable "null" := printable_of_all (by decide)
      exact word
  | bool b =>
      have words : Printable "true" ∧ Printable "false" :=
        ⟨printable_of_all (by decide), printable_of_all (by decide)⟩
      cases b with
      | true => exact words.1
      | false => exact words.2
  | int fits =>
      rw [printed]
      exact printable_ofInt _
  | str plain =>
      rw [printed]
      exact printable_quote _
  | list each ih =>
      rw [printed, printedList_eq_map]
      apply Printable.cons (by decide)
      apply Printable.append _ (close _ (by decide))
      apply printable_join comma
      intro part inside
      obtain ⟨v, item, rfl⟩ := List.mem_map.mp inside
      exact ih v item
  | dict distinct keys each ih =>
      rw [printed, printedPairs_eq_map]
      apply Printable.cons (by decide)
      apply Printable.append _ (close _ (by decide))
      apply printable_join comma
      intro part inside
      obtain ⟨kv, item, rfl⟩ := List.mem_map.mp inside
      exact ((printable_quote kv.1).append (printable_of_all (by decide))).append (ih kv item)

/-- A file of `json.dumps(v)` reads as the value. -/
theorem loadText_write {v : Value} (sound : Sound Tidy v) :
    loadText (Utf8.ascii (write p id v)) = .ok v := by
  rw [write_eq_printed]
  have printable := @printable_printed p Tidy v sound
  have plain : Utf8.IsAscii (printed p escape v) := by
    intro c inside
    have range := printable c inside
    omega
  have text : Utf8.readText (Utf8.ascii (printed p escape v)) = .ok (printed p escape v) := by
    apply Utf8.readText_ascii plain
    intro inside
    have range := printable _ inside
    revert range
    decide
  unfold loadText
  rw [text, ok_bind, loads_printed spells_escape sound]

end Py.Json
