import DevGate.Py.JsonText

set_option autoImplicit false

/- Reading back what `json.dumps` wrote. -/
namespace Py.Json

/-! Arrays and objects. -/

theorem dumpsList_eq_map (vs : List Value) : dumpsList vs = vs.map dumps := by
  induction vs with
  | nil => rfl
  | cons v vs ih => rw [dumpsList, ih, List.map_cons]

theorem dumpsPairs_eq_map (kvs : List (Str × Value)) :
    dumpsPairs kvs = kvs.map (fun kv => (kv.1, dumps kv.2)) := by
  induction kvs with
  | nil => rfl
  | cons kv rest ih => rw [dumpsPairs, ih, List.map_cons]

theorem canonicalList_eq_map (vs : List Value) : canonicalList vs = vs.map canonical := by
  induction vs with
  | nil => rfl
  | cons v vs ih => rw [canonicalList, ih, List.map_cons]

theorem canonicalPairs_eq_map (kvs : List (Str × Value)) :
    canonicalPairs kvs = kvs.map (fun kv => (kv.1, canonical kv.2)) := by
  induction kvs with
  | nil => rfl
  | cons kv rest ih => rw [canonicalPairs, ih, List.map_cons]

theorem decodedList_eq_map (vs : List Value) : decodedList vs = vs.map decoded := by
  induction vs with
  | nil => rfl
  | cons v vs ih => rw [decodedList, ih, List.map_cons]

theorem decodedPairs_eq_map (kvs : List (Str × Value)) :
    decodedPairs kvs = kvs.map (fun kv => (kv.1, decoded kv.2)) := by
  induction kvs with
  | nil => rfl
  | cons kv rest ih => rw [decodedPairs, ih, List.map_cons]

/-- Sorting by key does not look at the values. -/
theorem sortKeys_map {α β : Type} (f : α → β) (kvs : List (Str × α)) :
    sortKeys (kvs.map (fun kv => (kv.1, f kv.2))) =
      (sortKeys kvs).map (fun kv => (kv.1, f kv.2)) := by
  unfold sortKeys
  exact (List.map_insertionSort (r := fun a b : Str × α => Str.le a.1 b.1 = true)
    (s := fun a b : Str × β => Str.le a.1 b.1 = true) _ kvs (fun a _ b _ => Iff.rfl)).symm

theorem sortKeys_perm {α : Type} (kvs : List (Str × α)) : List.Perm (sortKeys kvs) kvs :=
  List.perm_insertionSort _ kvs

theorem dumps_dict (kvs : List (Str × Value)) :
    dumps (.dict kvs) = Chr.ofChar '{' ::
      (Str.join "," ((sortKeys kvs).map (fun kv => member (kv.1, dumps kv.2))) ++
        [Chr.ofChar '}']) := by
  rw [dumps, dumpsPairs_eq_map, sortKeys_map, List.map_map]
  rfl

theorem canonical_dict (kvs : List (Str × Value)) :
    canonical (.dict kvs) = .dict ((sortKeys kvs).map (fun kv => (kv.1, canonical kv.2))) := by
  rw [canonical, canonicalPairs_eq_map, sortKeys_map]

theorem decoded_dict (kvs : List (Str × Value)) :
    decoded (.dict kvs) =
      .dict (Dict.ofPairs ((sortKeys kvs).map (fun kv => (merge kv.1, decoded kv.2)))) := by
  rw [decoded, decodedPairs_eq_map, sortKeys_map, List.map_map]
  rfl

theorem sortKeys_sortKeys {α : Type} (kvs : List (Str × α)) :
    sortKeys (sortKeys kvs) = sortKeys kvs := by
  have total : Std.Total (fun a b : Str × α => Str.le a.1 b.1 = true) := ⟨fun a b => by
    have either := Str.le_total a.1 b.1
    rwa [Bool.or_eq_true] at either⟩
  have trans : IsTrans (Str × α) (fun a b => Str.le a.1 b.1 = true) := ⟨fun _ _ _ => Str.le_trans⟩
  exact (List.pairwise_insertionSort _ kvs).insertionSort_eq

/-- The text of a value does not depend on the order of its keys. -/
theorem dumps_canonical (v : Value) : dumps (canonical v) = dumps v := by
  induction v using Value.ind with
  | list vs ih =>
      have texts : (vs.map canonical).map dumps = vs.map dumps := by
        rw [List.map_map]
        exact List.map_congr_left ih
      rw [canonical, canonicalList_eq_map, dumps, dumps, dumpsList_eq_map, dumpsList_eq_map, texts]
  | dict kvs ih =>
      have texts : (sortKeys kvs).map (fun kv => member (kv.1, dumps (canonical kv.2))) =
          (sortKeys kvs).map (fun kv => member (kv.1, dumps kv.2)) := by
        apply List.map_congr_left
        intro kv inside
        rw [ih kv ((sortKeys_perm kvs).mem_iff.mp inside)]
      rw [canonical_dict, dumps_dict, dumps_dict, sortKeys_map, sortKeys_sortKeys, List.map_map,
        ← texts]
      rfl
  | _ => rfl

/-- The values of the canonical profile: no floats, and no wide integers. -/
inductive Exact : Value → Prop where
  | null : Exact .null
  | bool (b : Bool) : Exact (.bool b)
  | int {n : Int} (fits : Int64 n) : Exact (.int n)
  | str (s : Str) : Exact (.str s)
  | list {vs : List Value} (each : ∀ v ∈ vs, Exact v) : Exact (.list vs)
  | dict {kvs : List (Str × Value)} (each : ∀ kv ∈ kvs, Exact kv.2) : Exact (.dict kvs)

/-- Distinct keys and tidy strings, at every depth. -/
inductive Clean : Value → Prop where
  | null : Clean .null
  | bool (b : Bool) : Clean (.bool b)
  | int (n : Int) : Clean (.int n)
  | float (x : Flt) : Clean (.float x)
  | str {s : Str} (tidy : Tidy s) : Clean (.str s)
  | list {vs : List Value} (each : ∀ v ∈ vs, Clean v) : Clean (.list vs)
  | dict {kvs : List (Str × Value)} (distinct : (kvs.map Prod.fst).Nodup)
      (keys : ∀ kv ∈ kvs, Tidy kv.1) (each : ∀ kv ∈ kvs, Clean kv.2) : Clean (.dict kvs)

/-- A clean value decodes to itself, key order aside. -/
theorem decoded_clean {v : Value} (clean : Clean v) : decoded v = canonical v := by
  induction clean with
  | null => rfl
  | bool b => rfl
  | int n => rfl
  | float x => rfl
  | str tidy => simp only [decoded, canonical, merge_tidy tidy]
  | list each ih =>
      rw [decoded, decodedList_eq_map, canonical, canonicalList_eq_map, List.map_congr_left ih]
  | @dict kvs distinct keys each ih =>
      have sorted := sortKeys_perm kvs
      have same : (sortKeys kvs).map (fun kv => (merge kv.1, decoded kv.2)) =
          (sortKeys kvs).map (fun kv => (kv.1, canonical kv.2)) := by
        apply List.map_congr_left
        intro kv inside
        have member := sorted.mem_iff.mp inside
        rw [merge_tidy (keys kv member), ih kv member]
      have apart : (((sortKeys kvs).map (fun kv => (kv.1, canonical kv.2))).map Prod.fst).Nodup := by
        rw [List.map_map]
        exact ((sorted.map Prod.fst).nodup_iff).mpr distinct
      rw [decoded_dict, canonical_dict, same, Dict.ofPairs_of_nodup apart]

/-! Reading a value that equals another up to the order of keys. -/

theorem canonical_eq_str {v : Value} {s : Str} (same : canonical v = .str s) : v = .str s := by
  cases v with
  | dict kvs =>
      rw [canonical_dict] at same
      cases same
  | str t => exact same
  | _ => cases same

theorem canonical_eq_list {v : Value} {ws : List Value} (same : canonical v = .list ws) :
    ∃ vs, v = .list vs ∧ vs.map canonical = ws := by
  cases v with
  | list vs =>
      rw [canonical, canonicalList_eq_map, Value.list.injEq] at same
      exact ⟨vs, rfl, same⟩
  | dict kvs =>
      rw [canonical_dict] at same
      cases same
  | _ => cases same

theorem canonical_canonical (v : Value) : canonical (canonical v) = canonical v := by
  induction v using Value.ind with
  | list vs ih =>
      rw [canonical, canonicalList_eq_map, canonical, canonicalList_eq_map, List.map_map]
      exact congrArg Value.list (List.map_congr_left ih)
  | dict kvs ih =>
      rw [canonical_dict, canonical_dict, sortKeys_map, sortKeys_sortKeys, List.map_map]
      congr 1
      apply List.map_congr_left
      intro kv inside
      have inner := ih kv ((sortKeys_perm kvs).mem_iff.mp inside)
      exact Prod.ext rfl inner
  | _ => rfl

theorem get?_map {α β : Type} (f : α → β) (kvs : List (Str × α)) (key : Str) :
    Dict.get? (kvs.map (fun kv => (kv.1, f kv.2))) key = (Dict.get? kvs key).map f := by
  induction kvs with
  | nil => rfl
  | cons kv rest ih =>
      rw [List.map_cons, Dict.get?_cons, Dict.get?_cons, ih]
      split <;> rfl

theorem get?_sortKeys {α : Type} {kvs : List (Str × α)} (distinct : (kvs.map Prod.fst).Nodup)
    (key : Str) : Dict.get? (sortKeys kvs) key = Dict.get? kvs key := by
  have sorted := sortKeys_perm kvs
  have distinct' : ((sortKeys kvs).map Prod.fst).Nodup :=
    ((sorted.map Prod.fst).nodup_iff).mpr distinct
  cases found : Dict.get? kvs key with
  | some value =>
      exact Dict.get?_of_mem distinct' (sorted.mem_iff.mpr (Dict.mem_of_get? found))
  | none =>
      cases other : Dict.get? (sortKeys kvs) key with
      | none => rfl
      | some value =>
          have inside := Dict.get?_of_mem distinct (sorted.mem_iff.mp (Dict.mem_of_get? other))
          rw [found] at inside
          cases inside

theorem sortKeys_perm_eq {α : Type} {kvs own : List (Str × α)} (distinct : (kvs.map Prod.fst).Nodup)
    (same : List.Perm kvs own) : sortKeys kvs = sortKeys own := by
  have total : Std.Total (fun a b : Str × α => Str.le a.1 b.1 = true) := ⟨fun a b => by
    have either := Str.le_total a.1 b.1
    rwa [Bool.or_eq_true] at either⟩
  have trans : IsTrans (Str × α) (fun a b => Str.le a.1 b.1 = true) := ⟨fun _ _ _ => Str.le_trans⟩
  have order := List.pairwise_insertionSort (fun a b : Str × α => Str.le a.1 b.1 = true)
  apply List.Perm.eq_of_pairwise ?_ (order kvs) (order own)
  · exact (sortKeys_perm kvs).trans (same.trans (sortKeys_perm own).symm)
  · intro a b inside other forth back
    have first := (sortKeys_perm kvs).mem_iff.mp inside
    have second := same.mem_iff.mpr ((sortKeys_perm own).mem_iff.mp other)
    have keys := Str.le_antisymm forth back
    have left := Dict.get?_of_mem distinct first
    have right := Dict.get?_of_mem distinct second
    rw [keys, right] at left
    exact Prod.ext keys (Option.some.inj left).symm

/-- Objects with the same lookups differ in the order of keys only. -/
theorem canonical_ext {kvs own : List (Str × Value)} (distinct : (kvs.map Prod.fst).Nodup)
    (distinct' : (own.map Prod.fst).Nodup)
    (same : ∀ key, (Dict.get? kvs key).map canonical = (Dict.get? own key).map canonical) :
    canonical (.dict kvs) = canonical (.dict own) := by
  have keys : ∀ ps : List (Str × Value),
      (ps.map (fun kv => (kv.1, canonical kv.2))).map Prod.fst = ps.map Prod.fst := by
    intro ps
    rw [List.map_map]
    rfl
  have first : ((kvs.map (fun kv => (kv.1, canonical kv.2))).map Prod.fst).Nodup := by
    rwa [keys]
  have second : ((own.map (fun kv => (kv.1, canonical kv.2))).map Prod.fst).Nodup := by
    rwa [keys]
  rw [canonical_dict, canonical_dict, ← sortKeys_map, ← sortKeys_map]
  congr 1
  apply sortKeys_perm_eq first
  rw [List.perm_ext_iff_of_nodup first.of_map second.of_map]
  intro kv
  rw [Dict.mem_iff_get? first, Dict.mem_iff_get? second, get?_map, get?_map, same]

/-- What an object that was written and read again holds under a key. -/
theorem get?_decoded {kvs : List (Str × Value)} (distinct : (kvs.map Prod.fst).Nodup)
    (tidy : ∀ kv ∈ kvs, Tidy kv.1) (key : Str) :
    ∃ own, decoded (.dict kvs) = .dict own ∧
      Dict.get? own key = (Dict.get? kvs key).map decoded := by
  have sorted := sortKeys_perm kvs
  have same : (sortKeys kvs).map (fun kv => (merge kv.1, decoded kv.2)) =
      (sortKeys kvs).map (fun kv => (kv.1, decoded kv.2)) := by
    apply List.map_congr_left
    intro kv inside
    rw [merge_tidy (tidy kv (sorted.mem_iff.mp inside))]
  have apart : (((sortKeys kvs).map (fun kv => (kv.1, decoded kv.2))).map Prod.fst).Nodup := by
    rw [List.map_map]
    exact ((sorted.map Prod.fst).nodup_iff).mpr distinct
  refine ⟨_, decoded_dict kvs, ?_⟩
  rw [same, Dict.ofPairs_of_nodup apart, get?_map, get?_sortKeys distinct]

/-- Looking a key up in a clean value equal to an object, key order aside. -/
theorem Clean.get {v : Value} (clean : Clean v) {kvs : List (Str × Value)}
    (distinct : (kvs.map Prod.fst).Nodup) (same : canonical v = canonical (.dict kvs)) (key : Str) :
    ∃ found, v.get key = .ok found ∧ found.map canonical = (Dict.get? kvs key).map canonical ∧
      ∀ w, found = some w → Clean w := by
  rw [canonical_dict] at same
  cases clean with
  | @dict own distinct' keys each =>
      rw [canonical_dict, Value.dict.injEq] at same
      refine ⟨Dict.get? own key, rfl, ?_, ?_⟩
      · rw [← get?_sortKeys distinct', ← get?_map, same, get?_map, get?_sortKeys distinct]
      · intro w found
        exact each (key, w) (Dict.mem_of_get? found)
  | _ => cases same

theorem Clean.get_some {v : Value} (clean : Clean v) {kvs : List (Str × Value)} (key : Str)
    (value : Value) (distinct : (kvs.map Prod.fst).Nodup)
    (same : canonical v = canonical (.dict kvs)) (recorded : Dict.get? kvs key = some value) :
    ∃ w, v.get key = .ok (some w) ∧ v.item key = .ok w ∧ canonical w = canonical value ∧ Clean w := by
  obtain ⟨found, looked, agree, later⟩ := clean.get distinct same key
  rw [recorded, Option.map_some, Option.map_eq_some_iff] at agree
  obtain ⟨w, rfl, agree⟩ := agree
  obtain ⟨own, rfl, inside⟩ := Value.get_ok.mp looked
  exact ⟨w, looked, Value.item_ok.mpr ⟨own, rfl, inside⟩, agree, later w rfl⟩

/-- A text no blank, bracket or brace opens. -/
def Opens (text : Str) : Prop :=
  ∃ c rest, text = c :: rest ∧ isBlank c = false ∧ c ≠ Chr.ofChar ']' ∧ c ≠ Chr.ofChar '}'

theorem Opens.skip {text : Str} (opens : Opens text) (rest : Str) :
    skip (text ++ rest) = text ++ rest := by
  obtain ⟨c, later, rfl, plain, -⟩ := opens
  simp only [List.cons_append, Json.skip, plain, Bool.false_eq_true, ↓reduceIte]

theorem opens_ofInt (n : Int) : Opens (Str.ofInt n) := by
  cases n with
  | ofNat m =>
      obtain ⟨c, ds, cut, digit⟩ := ofNat_cons m
      refine ⟨c, ds, cut, ?_, (ne_of_isDigit digit (by decide)).symm,
        (ne_of_isDigit digit (by decide)).symm⟩
      have others : c ≠ Chr.ofChar ' ' ∧ c ≠ Chr.ofChar '\t' ∧ c ≠ Chr.ofChar '\n' ∧
          c ≠ Chr.ofChar '\r' :=
        ⟨(ne_of_isDigit digit (by decide)).symm, (ne_of_isDigit digit (by decide)).symm,
          (ne_of_isDigit digit (by decide)).symm, (ne_of_isDigit digit (by decide)).symm⟩
      simp [isBlank, others]
  | negSucc m => exact ⟨Chr.ofChar '-', Str.ofNat (m + 1), rfl, by decide, by decide, by decide⟩

theorem opens_dumps {v : Value} (exact_ : Exact v) : Opens (dumps v) := by
  cases exact_ with
  | null => exact ⟨Chr.ofChar 'n', "ull", rfl, by decide, by decide, by decide⟩
  | bool b =>
      cases b with
      | true => exact ⟨Chr.ofChar 't', "rue", rfl, by decide, by decide, by decide⟩
      | false => exact ⟨Chr.ofChar 'f', "alse", rfl, by decide, by decide, by decide⟩
  | int fits =>
      rw [dumps]
      exact opens_ofInt _
  | str s =>
      rw [dumps]
      exact ⟨_, _, rfl, by decide, by decide, by decide⟩
  | list each =>
      rw [dumps]
      exact ⟨_, _, rfl, by decide, by decide, by decide⟩
  | dict each =>
      rw [dumps]
      exact ⟨_, _, rfl, by decide, by decide, by decide⟩

theorem Opens.length_pos {text : Str} (opens : Opens text) : 0 < text.length := by
  obtain ⟨c, rest, rfl, -⟩ := opens
  simp

theorem closed_cons {c : Chr} (mark : c = Chr.ofChar ',' ∨ c = Chr.ofChar ']' ∨ c = Chr.ofChar '}')
    (rest : Str) : Closed (c :: rest) := by
  intro d same
  rw [List.head?_cons, Option.some.injEq] at same
  rwa [← same]

theorem skip_blanks {gap : Str} (blank : ∀ c ∈ gap, isBlank c = true) (rest : Str) :
    skip (gap ++ rest) = skip rest := by
  induction gap with
  | nil => rfl
  | cons c gap ih =>
      rw [List.forall_mem_cons] at blank
      rw [List.cons_append, skip, if_pos blank.1, ih blank.2]

/-- Texts joined by commas, with blanks after them, before a closing mark: a scanner that reads
each of them reads them all. -/
theorem scanSequence_join {sep gap : Str} (comma_ : sep = Chr.ofChar ',' :: gap)
    (blank : ∀ c ∈ gap, isBlank c = true) {α β : Type} (item : Str → Scan (β × Str)) (text : α → Str)
    (read : α → β) {close : Chr} (mark : close = Chr.ofChar ']' ∨ close = Chr.ofChar '}')
    {xs : List α} (some_ : xs ≠ []) (opens : ∀ x ∈ xs, Opens (text x))
    (each : ∀ x ∈ xs, ∀ rest, Closed rest → item (text x ++ rest) = .ok (read x, rest))
    {fuel : Nat} (enough : (Str.join sep (xs.map text)).length < fuel) (rest : Str) :
    scanSequence item close fuel (Str.join sep (xs.map text) ++ close :: rest) =
      .ok (xs.map read, rest) := by
  induction xs generalizing fuel with
  | nil => exact absurd rfl some_
  | cons x xs ih =>
      obtain ⟨fuel, rfl⟩ : ∃ f, fuel = f + 1 := Nat.exists_eq_succ_of_ne_zero (by omega)
      have here := each x List.mem_cons_self
      cases xs with
      | nil =>
          have closing : Closed (close :: rest) := closed_cons (Or.inr mark) rest
          simp only [List.map_cons, List.map_nil, Str.join, scanSequence, here _ closing, ok_bind,
            closing.skip, ↓reduceIte, pure_ok]
      | cons w xs =>
          have comma : ∀ later, Closed (Chr.ofChar ',' :: later) := closed_cons (by simp)
          have marks : Chr.ofChar ',' ≠ close := by
            rcases mark with rfl | rfl <;> decide
          have next : Opens (Str.join sep ((w :: xs).map text)) := by
            obtain ⟨c, t, cut, facts⟩ := opens w (by simp)
            cases xs with
            | nil => exact ⟨c, t, cut, facts⟩
            | cons y xs =>
                exact ⟨c, _, by rw [List.map_cons, List.map_cons, Str.join, cut]; rfl, facts⟩
          have split : Str.join sep ((x :: w :: xs).map text) =
              text x ++ Chr.ofChar ',' :: (gap ++ Str.join sep ((w :: xs).map text)) := by
            rw [List.map_cons, List.map_cons, Str.join, List.append_assoc, comma_, List.cons_append]
          rw [split, List.length_append, List.length_cons, List.length_append] at enough
          have shorter : (Str.join sep ((w :: xs).map text)).length < fuel := by omega
          have later := ih (by simp) (fun y member => opens y (List.mem_cons_of_mem _ member))
            (fun y member => each y (List.mem_cons_of_mem _ member)) shorter
          rw [split, List.append_assoc, List.cons_append, List.append_assoc, scanSequence,
            here _ (comma _), ok_bind]
          simp only [(comma _).skip, marks, ↓reduceIte, skip_blanks blank, next.skip, later, ok_bind,
            pure_ok]
          rfl

theorem opens_quote (s : Str) (rest : Str) : Opens (quote s ++ rest) :=
  ⟨Chr.ofChar '"', _, rfl, by decide, by decide, by decide⟩

theorem scanMember_member {scan : Str → Scan (Value × Str)} {v w : Value} (exact_ : Exact v)
    (key : Str)
    (each : ∀ rest, Closed rest → scan (dumps v ++ rest) = .ok (w, rest)) (rest : Str)
    (closed : Closed rest) :
    scanMember scan (member (key, dumps v) ++ rest) = .ok ((merge key, w), rest) := by
  have colon : skip (Chr.ofChar ':' :: (dumps v ++ rest)) =
      Chr.ofChar ':' :: (dumps v ++ rest) := rfl
  have text : member (key, dumps v) ++ rest = Chr.ofChar '"' ::
      (key.flatMap escape ++ Chr.ofChar '"' :: Chr.ofChar ':' :: (dumps v ++ rest)) := by
    simp only [member, quote, List.cons_append, List.append_assoc, List.nil_append]
  rw [text, scanMember, scanKey]
  simp only [string_quote, ↓reduceIte, ok_bind, colon, pure_ok, (opens_dumps exact_).skip,
    each rest closed]

theorem length_le_join (sep : Str) {part : Str} {parts : List Str} (member : part ∈ parts) :
    part.length ≤ (Str.join sep parts).length := by
  induction parts with
  | nil => cases member
  | cons head rest ih =>
      cases rest with
      | nil =>
          rw [List.mem_singleton] at member
          rw [member, Str.join]
      | cons next rest =>
          rw [Str.join, List.length_append, List.length_append]
          rcases List.mem_cons.mp member with rfl | later
          · omega
          · have bound := ih later
            omega

/-- The first text of a join opens it. -/
theorem opens_join {sep text : Str} (opens : Opens text) (rest : List Str) :
    Opens (Str.join sep (text :: rest)) := by
  obtain ⟨c, t, rfl, facts⟩ := opens
  cases rest with
  | nil => exact ⟨c, t, rfl, facts⟩
  | cons next rest => exact ⟨c, _, rfl, facts⟩

theorem scanOnce_list {vs : List Value} (exact_ : ∀ v ∈ vs, Exact v) {fuel : Nat}
    (each : ∀ v ∈ vs, ∀ rest, Closed rest → scanOnce fuel (dumps v ++ rest) = .ok (decoded v, rest))
    (enough : (Str.join "," (vs.map dumps)).length < fuel) (rest : Str) :
    scanOnce (fuel + 1) (dumps (.list vs) ++ rest) = .ok (decoded (.list vs), rest) := by
  have marks : Chr.ofChar '[' ≠ Chr.ofChar '"' ∧ Chr.ofChar '[' ≠ Chr.ofChar '{' := by decide
  rw [dumps, dumpsList_eq_map, decoded, decodedList_eq_map, List.cons_append,
    List.append_assoc, List.singleton_append]
  simp only [scanOnce, marks.1, marks.2, ↓reduceIte, array]
  cases vs with
  | nil => rfl
  | cons v vs =>
      have read := @scanSequence_join "," [] rfl (by simp) _ _ _ _ _ _ (Or.inl rfl) _ (by simp)
        (fun v member => opens_dumps (exact_ v member)) each _ enough rest
      have opens := @opens_join "," _ (opens_dumps (exact_ v List.mem_cons_self)) (vs.map dumps)
      rw [List.map_cons, opens.skip]
      obtain ⟨c, t, cut, -, other, -⟩ := opens
      rw [List.map_cons] at read
      rw [cut, List.cons_append] at read ⊢
      simp only [other, ↓reduceIte, read, ok_bind, pure_ok]

theorem scanOnce_dict {kvs : List (Str × Value)} (exact_ : ∀ kv ∈ kvs, Exact kv.2) {fuel : Nat}
    (each : ∀ kv ∈ kvs, ∀ rest, Closed rest →
      scanOnce fuel (dumps kv.2 ++ rest) = .ok (decoded kv.2, rest))
    (enough : (Str.join "," ((sortKeys kvs).map (fun kv => member (kv.1, dumps kv.2)))).length < fuel)
    (rest : Str) :
    scanOnce (fuel + 1) (dumps (.dict kvs) ++ rest) = .ok (decoded (.dict kvs), rest) := by
  have marks : Chr.ofChar '{' ≠ Chr.ofChar '"' := by decide
  have same : ∀ kv, kv ∈ sortKeys kvs → kv ∈ kvs := fun kv => (sortKeys_perm kvs).mem_iff.mp
  rw [dumps_dict, decoded_dict, List.cons_append, List.append_assoc, List.singleton_append]
  simp only [scanOnce, marks, ↓reduceIte, object]
  generalize sortKeys kvs = ps at enough same
  cases ps with
  | nil => rfl
  | cons kv ps =>
      have read := @scanSequence_join "," [] rfl (by simp) _ _ (scanMember (scanOnce fuel))
        (fun kv : Str × Value => member (kv.1, dumps kv.2))
        (fun kv => (merge kv.1, decoded kv.2)) _ (Or.inr rfl) _ (by simp)
        (fun kv _ => opens_quote kv.1 (Chr.ofChar ':' :: dumps kv.2))
        (fun kv inside rest closed => scanMember_member (exact_ kv (same kv inside)) kv.1
          (each kv (same kv inside)) rest closed) _ enough rest
      have opens := @opens_join "," _ (opens_quote kv.1 (Chr.ofChar ':' :: dumps kv.2))
        (ps.map (fun kv => member (kv.1, dumps kv.2)))
      change Opens (Str.join "," ((kv :: ps).map (fun kv => member (kv.1, dumps kv.2)))) at opens
      rw [opens.skip]
      obtain ⟨c, t, cut, -, -, other⟩ := opens
      rw [cut, List.cons_append] at read ⊢
      simp only [other, ↓reduceIte, read, ok_bind, pure_ok]

/-- The scanner reads the text of a value as what it decodes to. -/
theorem scanOnce_dumps {v : Value} (exact_ : Exact v) (fuel : Nat) (rest : Str)
    (enough : (dumps v).length ≤ fuel) (closed : Closed rest) :
    scanOnce fuel (dumps v ++ rest) = .ok (decoded v, rest) := by
  have positive := (opens_dumps exact_).length_pos
  induction exact_ generalizing fuel rest with
  | null =>
      obtain ⟨fuel, rfl⟩ := Nat.exists_eq_succ_of_ne_zero (Nat.ne_of_gt (positive.trans_le enough))
      rfl
  | bool b =>
      obtain ⟨fuel, rfl⟩ := Nat.exists_eq_succ_of_ne_zero (Nat.ne_of_gt (positive.trans_le enough))
      cases b <;> rfl
  | int fits =>
      obtain ⟨fuel, rfl⟩ := Nat.exists_eq_succ_of_ne_zero (Nat.ne_of_gt (positive.trans_le enough))
      exact scanOnce_ofInt fits fuel closed
  | str s =>
      obtain ⟨fuel, rfl⟩ := Nat.exists_eq_succ_of_ne_zero (Nat.ne_of_gt (positive.trans_le enough))
      exact scanOnce_quote s fuel rest
  | list each ih =>
      rw [dumps, dumpsList_eq_map, List.length_cons, List.length_append, List.length_singleton]
        at enough
      obtain ⟨fuel, rfl⟩ : ∃ f, fuel = f + 1 := Nat.exists_eq_succ_of_ne_zero (by omega)
      apply scanOnce_list each _ (by omega)
      intro v member rest closed
      have bound := length_le_join "," (List.mem_map_of_mem (f := dumps) member)
      exact ih v member fuel rest (by omega) closed (opens_dumps (each v member)).length_pos
  | @dict kvs each ih =>
      rw [dumps_dict, List.length_cons, List.length_append, List.length_singleton] at enough
      obtain ⟨fuel, rfl⟩ : ∃ f, fuel = f + 1 := Nat.exists_eq_succ_of_ne_zero (by omega)
      apply scanOnce_dict each _ (by omega)
      intro kv inside rest closed
      have sorted : kv ∈ sortKeys kvs := (sortKeys_perm kvs).mem_iff.mpr inside
      have bound := length_le_join ","
        (List.mem_map_of_mem (f := fun kv : Str × Value => member (kv.1, dumps kv.2)) sorted)
      have part : (dumps kv.2).length ≤ (member (kv.1, dumps kv.2)).length := by
        simp only [member, List.length_append, List.length_cons]
        omega
      exact ih kv inside fuel rest (by omega) closed (opens_dumps (each kv inside)).length_pos

/-! The text itself. -/

/-- Only printable ASCII characters. -/
def Printable (s : Str) : Prop := ∀ c ∈ s, 0x20 ≤ c.val ∧ c.val ≤ 0x7e

theorem printable_of_all {s : Str} (all : s.all (fun c => 0x20 ≤ c.val && c.val ≤ 0x7e) = true) :
    Printable s := by
  intro c inside
  have range := List.all_eq_true.mp all c inside
  simpa using range

theorem Printable.tidy {s : Str} (printable : Printable s) : Tidy s := by
  apply tidy_of_not_high
  intro c inside
  have range := printable c inside
  unfold Chr.isHigh
  simp only [Bool.and_eq_false_iff, decide_eq_false_iff_not]
  omega

theorem Printable.append {s t : Str} (left : Printable s) (right : Printable t) :
    Printable (s ++ t) := by
  intro c inside
  rcases List.mem_append.mp inside with first | second
  · exact left c first
  · exact right c second

theorem Printable.cons {c : Chr} (mark : 0x20 ≤ c.val ∧ c.val ≤ 0x7e) {s : Str}
    (right : Printable s) : Printable (c :: s) := by
  intro d inside
  rcases List.mem_cons.mp inside with rfl | later
  · exact mark
  · exact right d later

theorem printable_join {sep : Str} (between : Printable sep) {parts : List Str}
    (each : ∀ part ∈ parts, Printable part) : Printable (Str.join sep parts) := by
  induction parts with
  | nil =>
      intro c inside
      cases inside
  | cons part rest ih =>
      cases rest with
      | nil => exact each part List.mem_cons_self
      | cons next rest =>
          have later := ih (fun p inside => each p (List.mem_cons_of_mem _ inside))
          rw [Str.join]
          exact ((each part List.mem_cons_self).append between).append later

theorem printable_hexDigit {n : Nat} (small : n < 16) :
    0x20 ≤ (hexDigit n).val ∧ (hexDigit n).val ≤ 0x7e := by
  revert n
  decide

theorem printable_unicodeEscape (n : Nat) : Printable (unicodeEscape n) := by
  have digit : ∀ m, 0x20 ≤ (hexDigit (m % 16)).val ∧ (hexDigit (m % 16)).val ≤ 0x7e :=
    fun m => printable_hexDigit (Nat.mod_lt m (by decide))
  intro c inside
  simp only [unicodeEscape, List.mem_cons, List.not_mem_nil, or_false] at inside
  rcases inside with rfl | rfl | rfl | rfl | rfl | rfl
  · decide
  · decide
  all_goals exact digit _

theorem printable_escape (c : Chr) : Printable (escape c) := by
  unfold escape
  repeat' split
  all_goals first
    | exact printable_unicodeEscape _
    | exact (printable_unicodeEscape _).append (printable_unicodeEscape _)
    | exact printable_of_all (by decide)
    | (rename_i range; intro d inside; rw [List.mem_singleton.mp inside]; exact range)

theorem printable_quote (s : Str) : Printable (quote s) := by
  have inner : Printable (s.flatMap escape) := by
    intro c inside
    obtain ⟨d, -, spelled⟩ := List.mem_flatMap.mp inside
    exact printable_escape d c spelled
  exact Printable.cons (by decide) (inner.append (Printable.cons (by decide) (by simp [Printable])))

theorem printable_ofNat (n : Nat) : Printable (Str.ofNat n) := by
  intro c inside
  have digit := isDigit_of_mem_ofNat inside
  simp only [isDigit, Bool.and_eq_true, decide_eq_true_eq] at digit
  omega

theorem printable_ofInt (n : Int) : Printable (Str.ofInt n) := by
  cases n with
  | ofNat m => exact printable_ofNat m
  | negSucc m => exact Printable.cons (by decide) (printable_ofNat (m + 1))

theorem printable_dumps (v : Value) : Printable (dumps v) := by
  have comma : Printable "," := printable_of_all (by decide)
  have close : ∀ c : Chr, 0x20 ≤ c.val ∧ c.val ≤ 0x7e → Printable [c] := by
    intro c mark
    exact Printable.cons mark (by simp [Printable])
  induction v using Value.ind with
  | null => exact printable_of_all (by decide)
  | bool b => cases b <;> exact printable_of_all (by decide)
  | int n =>
      rw [dumps]
      exact printable_ofInt n
  | float x => simp [Printable, dumps]
  | str s =>
      rw [dumps]
      exact printable_quote s
  | list vs ih =>
      rw [dumps, dumpsList_eq_map]
      apply Printable.cons (by decide)
      apply Printable.append _ (close _ (by decide))
      apply printable_join comma
      intro part inside
      obtain ⟨v, item, rfl⟩ := List.mem_map.mp inside
      exact ih v item
  | dict kvs ih =>
      rw [dumps_dict]
      apply Printable.cons (by decide)
      apply Printable.append _ (close _ (by decide))
      apply printable_join comma
      intro part inside
      obtain ⟨kv, sorted, rfl⟩ := List.mem_map.mp inside
      have item := (sortKeys_perm kvs).mem_iff.mp sorted
      exact (printable_quote kv.1).append (Printable.cons (by decide) (ih kv item))

theorem ascii_dumps (v : Value) : Utf8.IsAscii (dumps v) := by
  intro c inside
  have range := printable_dumps v c inside
  omega

theorem readText_dumps (v : Value) : Utf8.readText (Utf8.ascii (dumps v)) = .ok (dumps v) := by
  apply Utf8.readText_ascii (ascii_dumps v)
  intro inside
  have range := printable_dumps v _ inside
  revert range
  decide

theorem skip_dumps {v : Value} (exact_ : Exact v) : skip (dumps v) = dumps v := by
  have opened := (opens_dumps exact_).skip []
  rwa [List.append_nil] at opened

theorem decodeText_dumps {v : Value} (exact_ : Exact v) :
    decodeText (dumps v) = .ok (decoded v) := by
  have read := scanOnce_dumps exact_ ((dumps v).length + 1) [] (by omega) closed_nil
  rw [List.append_nil] at read
  unfold decodeText whole
  rw [skip_dumps exact_, read]
  rfl

theorem loads_dumps {v : Value} (exact_ : Exact v) : loads (dumps v) = .ok (decoded v) := by
  have marked : (dumps v).head? ≠ some byteOrderMark := by
    intro first
    have range := printable_dumps v _ (List.mem_of_head? first)
    revert range
    decide
  unfold loads
  rw [if_neg marked, decodeText_dumps exact_]

/-- `json.loads(path.read_text(encoding="utf-8"))`. -/
def loadText (bytes : Bytes) : Except Exc Value := do loads (← Utf8.readText bytes)

theorem loadText_dumps {v : Value} (exact_ : Exact v) :
    loadText (Utf8.ascii (dumps v)) = .ok (decoded v) := by
  unfold loadText
  rw [readText_dumps, ok_bind, loads_dumps exact_]

end Py.Json
