import DevGate.Py.JsonRoundTrip
import DevGate.Py.JsonWrite

set_option autoImplicit false

/- An object of texts and counts, written with the default separators, and what it reads as. -/
namespace Py.Json

variable (p : Printer)

/-- A text, or a count that is not too long to print. -/
def Flat (v : Value) : Prop := (∃ s, v = .str s) ∨ ∃ n : Nat, v = .int n ∧ n < 10 ^ maxDigits

theorem writePairs_eq_map (arrange : List (Str × Str) → List (Str × Str)) (kvs : List (Str × Value)) :
    writePairs p arrange kvs = kvs.map (fun kv => (kv.1, write p arrange kv.2)) := by
  induction kvs with
  | nil => rfl
  | cons kv rest ih => rw [writePairs, ih, List.map_cons]

/-- `json.dumps` of an object. -/
theorem write_dict (kvs : List (Str × Value)) :
    write p id (.dict kvs) = Chr.ofChar '{' ::
      (Str.join ", " (kvs.map (fun kv => spaced (kv.1, write p id kv.2))) ++ [Chr.ofChar '}']) := by
  rw [write, writePairs_eq_map, id_eq, List.map_map]
  rfl

theorem opens_write {v : Value} (flat : Flat v) : Opens (write p id v) := by
  rcases flat with ⟨s, rfl⟩ | ⟨n, rfl, -⟩
  · exact ⟨_, _, rfl, by decide, by decide, by decide⟩
  · exact opens_ofInt n

theorem scanOnce_write {v : Value} (flat : Flat v) (fuel : Nat) {rest : Str} (closed : Closed rest) :
    scanOnce (fuel + 1) (write p id v ++ rest) = .ok (decoded v, rest) := by
  rcases flat with ⟨s, rfl⟩ | ⟨n, rfl, small⟩
  · exact scanOnce_quote s fuel rest
  · exact scanOnce_ofNat small fuel closed

theorem scanMember_spaced {v : Value} (flat : Flat v) (key : Str) (fuel : Nat) {rest : Str}
    (closed : Closed rest) :
    scanMember (scanOnce (fuel + 1)) (spaced (key, write p id v) ++ rest) =
      .ok ((merge key, decoded v), rest) := by
  have colon : skip (Chr.ofChar ':' :: Chr.ofChar ' ' :: (write p id v ++ rest)) =
      Chr.ofChar ':' :: Chr.ofChar ' ' :: (write p id v ++ rest) := rfl
  have blank : skip (Chr.ofChar ' ' :: (write p id v ++ rest)) = write p id v ++ rest :=
    (opens_write p flat).skip rest
  have text : spaced (key, write p id v) ++ rest = Chr.ofChar '"' ::
      (key.flatMap escape ++ Chr.ofChar '"' :: Chr.ofChar ':' :: Chr.ofChar ' ' ::
        (write p id v ++ rest)) := by
    simp only [spaced, quote, List.cons_append, List.append_assoc, List.nil_append]
    rfl
  rw [text, scanMember, scanKey]
  simp only [string_quote, ↓reduceIte, ok_bind, colon, pure_ok, blank, scanOnce_write p flat fuel closed]

/-- An object of texts and counts reads as it was. -/
theorem scanOnce_flat {kvs : List (Str × Value)} (some_ : kvs ≠ [])
    (flat : ∀ kv ∈ kvs, Flat kv.2) {fuel : Nat}
    (enough : (write p id (.dict kvs)).length ≤ fuel) (rest : Str) :
    scanOnce (fuel + 1) (write p id (.dict kvs) ++ rest) =
      .ok (.dict (Dict.ofPairs (kvs.map (fun kv => (merge kv.1, decoded kv.2)))), rest) := by
  have marks : Chr.ofChar '{' ≠ Chr.ofChar '"' := by decide
  rw [write_dict] at enough ⊢
  rw [List.length_cons, List.length_append] at enough
  rw [List.cons_append, List.append_assoc, List.singleton_append]
  simp only [scanOnce, marks, ↓reduceIte, object]
  obtain ⟨kv, more, rfl⟩ := List.exists_cons_of_ne_nil some_
  obtain ⟨fuel, rfl⟩ : ∃ f, fuel = f + 1 := Nat.exists_eq_succ_of_ne_zero (by omega)
  have blank : ∀ c ∈ [Chr.ofChar ' '], isBlank c = true := by
    intro c inside
    rw [List.mem_singleton.mp inside]
    rfl
  have read := @scanSequence_join ", " [Chr.ofChar ' '] rfl blank _ _
    (scanMember (scanOnce (fuel + 1))) (fun kv : Str × Value => spaced (kv.1, write p id kv.2))
    (fun kv => (merge kv.1, decoded kv.2)) _ (Or.inr rfl) (kv :: more) (by simp)
    (fun kv _ => ⟨Chr.ofChar '"', _, rfl, by decide, by decide, by decide⟩)
    (fun kv inside rest closed => scanMember_spaced p (flat kv inside) kv.1 fuel closed) (fuel + 1)
    (by omega) rest
  have opens : Opens (Str.join ", " ((kv :: more).map (fun kv => spaced (kv.1, write p id kv.2)))) := by
    rw [List.map_cons]
    exact opens_join ⟨Chr.ofChar '"', _, rfl, by decide, by decide, by decide⟩ _
  rw [opens.skip]
  obtain ⟨c, t, cut, -, -, other⟩ := opens
  rw [cut, List.cons_append] at read ⊢
  simp only [other, ↓reduceIte, read, ok_bind, pure_ok]

/-- What `json.dumps` writes of it. -/
theorem printable_write {v : Value} (flat : Flat v) : Printable (write p id v) := by
  rcases flat with ⟨s, rfl⟩ | ⟨n, rfl, -⟩
  · exact printable_quote s
  · exact printable_ofInt n

theorem printable_flat {kvs : List (Str × Value)} (flat : ∀ kv ∈ kvs, Flat kv.2) :
    Printable (write p id (.dict kvs)) := by
  rw [write_dict]
  refine Printable.cons (by decide) (Printable.append (printable_join ?_ ?_) ?_)
  · exact printable_of_all (by decide)
  · intro part inside
    obtain ⟨kv, member, rfl⟩ := List.mem_map.mp inside
    exact ((printable_quote kv.1).append (printable_of_all (by decide))).append
      (printable_write p (flat kv member))
  · exact printable_of_all (by decide)

theorem loadText_flat {kvs : List (Str × Value)} (some_ : kvs ≠ [])
    (flat : ∀ kv ∈ kvs, Flat kv.2) :
    loadText (Utf8.ascii (write p id (.dict kvs))) =
      .ok (.dict (Dict.ofPairs (kvs.map (fun kv => (merge kv.1, decoded kv.2))))) := by
  have printable := printable_flat p flat
  have plain : Utf8.IsAscii (write p id (.dict kvs)) := by
    intro c inside
    have range := printable c inside
    omega
  have text : Utf8.readText (Utf8.ascii (write p id (.dict kvs))) = .ok (write p id (.dict kvs)) := by
    apply Utf8.readText_ascii plain
    intro inside
    have range := printable _ inside
    revert range
    decide
  have read := scanOnce_flat p some_ flat le_rfl []
  rw [List.append_nil] at read
  have opened : skip (write p id (.dict kvs)) = write p id (.dict kvs) := by
    rw [write_dict]
    rfl
  have marked : (write p id (.dict kvs)).head? ≠ some byteOrderMark := by
    rw [write_dict, List.head?_cons, ne_eq, Option.some.injEq]
    decide
  unfold loadText
  rw [text, ok_bind, loads, if_neg marked, decodeText, whole, opened, read]
  rfl

end Py.Json
