import DevGate.Py.JsonRoundTrip

set_option autoImplicit false

/- The strings of a value, in its text and in what the text decodes to. -/
namespace Py.Json

mutual

/-- The string values of a value, at every depth; keys are none of them. -/
def strings : Value → List Str
  | .str s => [s]
  | .list vs => stringsList vs
  | .dict kvs => stringsPairs kvs
  | _ => []

def stringsList : List Value → List Str
  | [] => []
  | v :: vs => strings v ++ stringsList vs

def stringsPairs : List (Str × Value) → List Str
  | [] => []
  | (_, v) :: rest => strings v ++ stringsPairs rest

end

mutual

/-- The strings of a value, keys included. -/
def texts : Value → List Str
  | .str s => [s]
  | .list vs => textsList vs
  | .dict kvs => textsPairs kvs
  | _ => []

def textsList : List Value → List Str
  | [] => []
  | v :: vs => texts v ++ textsList vs

def textsPairs : List (Str × Value) → List Str
  | [] => []
  | (k, v) :: rest => k :: (texts v ++ textsPairs rest)

end

mutual

/-- A value with its string values replaced. -/
def mapStrings (f : Str → Str) : Value → Value
  | .str s => .str (f s)
  | .list vs => .list (mapStringsList f vs)
  | .dict kvs => .dict (mapStringsPairs f kvs)
  | v => v

def mapStringsList (f : Str → Str) : List Value → List Value
  | [] => []
  | v :: vs => mapStrings f v :: mapStringsList f vs

def mapStringsPairs (f : Str → Str) : List (Str × Value) → List (Str × Value)
  | [] => []
  | (k, v) :: rest => (k, mapStrings f v) :: mapStringsPairs f rest

end

mutual

/-- What a reader of the text finds of a value: keys in order, and of two keys the
text spells alike the last. -/
def kept : Value → Value
  | .list vs => .list (keptList vs)
  | .dict kvs => .dict (Dict.ofPairs ((sortKeys (keptPairs kvs)).map (fun kv => (merge kv.1, kv.2))))
  | v => v

def keptList : List Value → List Value
  | [] => []
  | v :: vs => kept v :: keptList vs

def keptPairs : List (Str × Value) → List (Str × Value)
  | [] => []
  | (k, v) :: rest => (k, kept v) :: keptPairs rest

end

theorem stringsList_eq_flatMap (vs : List Value) : stringsList vs = vs.flatMap strings := by
  induction vs with
  | nil => rfl
  | cons v vs ih => rw [stringsList, ih, List.flatMap_cons]

theorem stringsPairs_eq_flatMap (kvs : List (Str × Value)) :
    stringsPairs kvs = kvs.flatMap (fun kv => strings kv.2) := by
  induction kvs with
  | nil => rfl
  | cons kv rest ih => rw [stringsPairs, ih, List.flatMap_cons]

theorem textsList_eq_flatMap (vs : List Value) : textsList vs = vs.flatMap texts := by
  induction vs with
  | nil => rfl
  | cons v vs ih => rw [textsList, ih, List.flatMap_cons]

theorem textsPairs_eq_flatMap (kvs : List (Str × Value)) :
    textsPairs kvs = kvs.flatMap (fun kv => kv.1 :: texts kv.2) := by
  induction kvs with
  | nil => rfl
  | cons kv rest ih => rw [textsPairs, ih, List.flatMap_cons, List.cons_append]

theorem mapStringsList_eq_map (f : Str → Str) (vs : List Value) :
    mapStringsList f vs = vs.map (mapStrings f) := by
  induction vs with
  | nil => rfl
  | cons v vs ih => rw [mapStringsList, ih, List.map_cons]

theorem mapStringsPairs_eq_map (f : Str → Str) (kvs : List (Str × Value)) :
    mapStringsPairs f kvs = kvs.map (fun kv => (kv.1, mapStrings f kv.2)) := by
  induction kvs with
  | nil => rfl
  | cons kv rest ih => rw [mapStringsPairs, ih, List.map_cons]

theorem keptList_eq_map (vs : List Value) : keptList vs = vs.map kept := by
  induction vs with
  | nil => rfl
  | cons v vs ih => rw [keptList, ih, List.map_cons]

theorem keptPairs_eq_map (kvs : List (Str × Value)) :
    keptPairs kvs = kvs.map (fun kv => (kv.1, kept kv.2)) := by
  induction kvs with
  | nil => rfl
  | cons kv rest ih => rw [keptPairs, ih, List.map_cons]

theorem kept_dict (kvs : List (Str × Value)) :
    kept (.dict kvs) =
      .dict (Dict.ofPairs ((sortKeys kvs).map (fun kv => (merge kv.1, kept kv.2)))) := by
  rw [kept, keptPairs_eq_map, sortKeys_map, List.map_map]
  rfl

theorem strings_mapStrings (f : Str → Str) (v : Value) :
    strings (mapStrings f v) = (strings v).map f := by
  induction v using Value.ind with
  | list vs ih =>
      rw [mapStrings, mapStringsList_eq_map, strings, stringsList_eq_flatMap, strings,
        stringsList_eq_flatMap, List.flatMap_map, List.map_flatMap]
      exact List.flatMap_congr ih
  | dict kvs ih =>
      rw [mapStrings, mapStringsPairs_eq_map, strings, stringsPairs_eq_flatMap, strings,
        stringsPairs_eq_flatMap, List.flatMap_map, List.map_flatMap]
      exact List.flatMap_congr ih
  | _ => rfl

/-- Replacing string values leaves the keys a reader finds. -/
theorem kept_mapStrings (f : Str → Str) (v : Value) :
    kept (mapStrings f v) = mapStrings f (kept v) := by
  induction v using Value.ind with
  | list vs ih =>
      rw [mapStrings, mapStringsList_eq_map, kept, keptList_eq_map, kept, keptList_eq_map,
        mapStrings, mapStringsList_eq_map, List.map_map, List.map_map]
      exact congrArg Value.list (List.map_congr_left ih)
  | dict kvs ih =>
      have same : (sortKeys kvs).map (fun kv => (merge kv.1, kept (mapStrings f kv.2))) =
          ((sortKeys kvs).map (fun kv => (merge kv.1, kept kv.2))).map
            (fun kv => (kv.1, mapStrings f kv.2)) := by
        rw [List.map_map]
        apply List.map_congr_left
        intro kv inside
        exact Prod.ext rfl (ih kv ((sortKeys_perm kvs).mem_iff.mp inside))
      rw [mapStrings, mapStringsPairs_eq_map, kept_dict, sortKeys_map, List.map_map, kept_dict,
        mapStrings, mapStringsPairs_eq_map, ← Dict.ofPairs_map, ← same]
      rfl
  | _ => rfl

/-- What the text decodes to: the kept value with the halves of surrogate pairs joined. -/
theorem decoded_eq (v : Value) : decoded v = mapStrings merge (kept v) := by
  induction v using Value.ind with
  | list vs ih =>
      rw [decoded, decodedList_eq_map, kept, keptList_eq_map, mapStrings, mapStringsList_eq_map,
        List.map_map]
      exact congrArg Value.list (List.map_congr_left ih)
  | dict kvs ih =>
      rw [decoded_dict, kept_dict, mapStrings, mapStringsPairs_eq_map, ← Dict.ofPairs_map,
        List.map_map]
      congr 2
      apply List.map_congr_left
      intro kv inside
      exact Prod.ext rfl (ih kv ((sortKeys_perm kvs).mem_iff.mp inside))
  | _ => rfl

theorem strings_decoded (v : Value) : strings (decoded v) = (strings (kept v)).map merge := by
  rw [decoded_eq, strings_mapStrings]

/-- A reader finds no string value that is not there. -/
theorem strings_kept {v : Value} {s : Str} (found : s ∈ strings (kept v)) : s ∈ strings v := by
  induction v using Value.ind with
  | list vs ih =>
      rw [kept, keptList_eq_map, strings, stringsList_eq_flatMap, List.flatMap_map,
        List.mem_flatMap] at found
      obtain ⟨v, inside, found⟩ := found
      rw [strings, stringsList_eq_flatMap, List.mem_flatMap]
      exact ⟨v, inside, ih v inside found⟩
  | dict kvs ih =>
      rw [kept_dict, strings, stringsPairs_eq_flatMap, List.mem_flatMap] at found
      obtain ⟨pair, inside, found⟩ := found
      obtain ⟨kv, sorted, rfl⟩ := List.mem_map.mp (Dict.mem_of_mem_ofPairs inside)
      have member := (sortKeys_perm kvs).mem_iff.mp sorted
      rw [strings, stringsPairs_eq_flatMap, List.mem_flatMap]
      exact ⟨kv, member, ih kv member found⟩
  | _ => exact found

theorem mem_texts_canonical {v : Value} {s : Str} : s ∈ texts (canonical v) ↔ s ∈ texts v := by
  induction v using Value.ind with
  | list vs ih =>
      rw [canonical, canonicalList_eq_map, texts, textsList_eq_flatMap, texts,
        textsList_eq_flatMap, List.flatMap_map, List.mem_flatMap, List.mem_flatMap]
      exact exists_congr (fun v => and_congr_right (fun inside => ih v inside))
  | dict kvs ih =>
      rw [canonical_dict, texts, textsPairs_eq_flatMap, texts, textsPairs_eq_flatMap,
        List.flatMap_map, List.mem_flatMap, List.mem_flatMap]
      apply exists_congr
      intro kv
      rw [(sortKeys_perm kvs).mem_iff]
      apply and_congr_right
      intro inside
      rw [List.mem_cons, List.mem_cons, ih kv inside]
  | _ => exact Iff.rfl

theorem infix_join (sep : Str) {part : Str} {parts : List Str} (member : part ∈ parts) :
    part <:+: Str.join sep parts := by
  induction parts with
  | nil => cases member
  | cons first rest ih =>
      cases rest with
      | nil => rw [List.mem_singleton.mp member, Str.join]
      | cons next later =>
          rw [Str.join]
          rcases List.mem_cons.mp member with rfl | deeper
          · rw [List.append_assoc]
            exact (List.prefix_append _ _).isInfix
          · exact (ih deeper).trans (List.suffix_append _ _).isInfix

/-- The text of a value spells each of its string values. -/
theorem quote_infix_dumps {v : Value} {s : Str} (inside : s ∈ strings v) : quote s <:+: dumps v := by
  induction v using Value.ind with
  | str t =>
      rw [strings, List.mem_singleton] at inside
      rw [inside, dumps]
  | list vs ih =>
      rw [strings, stringsList_eq_flatMap, List.mem_flatMap] at inside
      obtain ⟨v, member, inside⟩ := inside
      rw [dumps, dumpsList_eq_map]
      have part := infix_join "," (List.mem_map_of_mem (f := dumps) member)
      exact ((ih v member inside).trans part).trans (List.infix_cons (List.prefix_append _ _).isInfix)
  | dict kvs ih =>
      rw [strings, stringsPairs_eq_flatMap, List.mem_flatMap] at inside
      obtain ⟨kv, listed, inside⟩ := inside
      have sorted := (sortKeys_perm kvs).mem_iff.mpr listed
      rw [dumps_dict]
      have part := infix_join ","
        (List.mem_map_of_mem (f := fun kv => member (kv.1, dumps kv.2)) sorted)
      have within : dumps kv.2 <:+: member (kv.1, dumps kv.2) :=
        ⟨quote kv.1 ++ [Chr.ofChar ':'], [], by simp [member]⟩
      exact (((ih kv listed inside).trans within).trans part).trans
        (List.infix_cons (List.prefix_append _ _).isInfix)
  | _ => cases inside

/-! Characters JSON spells as themselves. -/

/-- A text without a character that JSON escapes. -/
def Unescaped (s : Str) : Prop := ∀ c ∈ s, escape c = [c]

theorem Unescaped.flatMap {s : Str} (unescaped : Unescaped s) : s.flatMap escape = s := by
  induction s with
  | nil => rfl
  | cons c rest ih =>
      rw [List.flatMap_cons, unescaped c List.mem_cons_self,
        ih (fun d inside => unescaped d (List.mem_cons_of_mem _ inside)), List.singleton_append]

theorem val_le_of_escape {c : Chr} (spelled : escape c = [c]) : c.val ≤ 126 := by
  by_contra large
  have others : c ≠ Chr.ofChar '"' ∧ c ≠ Chr.ofChar '\\' ∧ c ≠ Chr.ofChar '\n' ∧
      c ≠ Chr.ofChar '\r' ∧ c ≠ Chr.ofChar '\t' := by
    refine ⟨?_, ?_, ?_, ?_, ?_⟩ <;> rintro rfl <;> exact large (by decide)
  obtain ⟨quote, backslash, newline, carriage, tab⟩ := others
  have feed : c.val ≠ 12 := by omega
  have back : c.val ≠ 8 := by omega
  have printed : ¬ (32 ≤ c.val ∧ c.val ≤ 126) := by omega
  have long : (escape c).length ≠ 1 := by
    unfold escape
    simp only [quote, backslash, newline, carriage, tab, feed, back, printed, ↓reduceIte]
    split
    · simp [unicodeEscape]
    · simp [unicodeEscape]
  rw [spelled] at long
  exact long rfl

theorem infix_flatMap {α β : Type} (f : α → List β) {r s : List α} (found : r <:+: s) :
    r.flatMap f <:+: s.flatMap f := by
  obtain ⟨front, back, rfl⟩ := found
  rw [List.flatMap_append, List.flatMap_append]
  exact List.infix_append _ _ _

/-- An unescaped text that stands in a string stands in its spelling. -/
theorem infix_quote {r s : Str} (unescaped : Unescaped r) (found : r <:+: s) : r <:+: quote s := by
  have spelled := infix_flatMap escape found
  rw [unescaped.flatMap] at spelled
  exact spelled.trans (List.infix_cons (List.prefix_append _ _).isInfix)

theorem join_large {c d : Chr} (high : c.isHigh = true) (low : d.isLow = true) :
    0x10000 ≤ (Chr.join c d).val := by
  simp only [Chr.isHigh, Bool.and_eq_true, decide_eq_true_eq] at high
  simp only [Chr.isLow, Bool.and_eq_true, decide_eq_true_eq] at low
  simp only [Chr.join, Fin.ofNat]
  omega

theorem prefix_of_merge {r s : Str} (small : ∀ c ∈ r, c.val < 0x10000) (found : r <+: merge s) :
    r <+: s := by
  induction s using merge.induct generalizing r with
  | case1 => exact found
  | case2 c => exact found
  | case3 c d rest pair ih =>
      rw [Bool.and_eq_true] at pair
      cases r with
      | nil => exact List.nil_prefix
      | cons e r =>
          simp only [merge, pair, Bool.and_self, ↓reduceIte, List.cons_prefix_cons] at found
          have bound := small e List.mem_cons_self
          rw [found.1] at bound
          have large := join_large pair.1 pair.2
          omega
  | case4 c d rest pair ih =>
      cases r with
      | nil => exact List.nil_prefix
      | cons e r =>
          simp only [merge, pair, Bool.false_eq_true, ↓reduceIte, List.cons_prefix_cons] at found
          have deeper := ih (fun e inside => small e (List.mem_cons_of_mem _ inside)) found.2
          exact List.cons_prefix_cons.mpr ⟨found.1, deeper⟩

/-- Joining surrogate pairs brings no text about without a character that takes a pair. -/
theorem infix_of_merge {r s : Str} (small : ∀ c ∈ r, c.val < 0x10000) (found : r <:+: merge s) : r <:+: s := by
  induction s using merge.induct with
  | case1 => exact found
  | case2 c => exact found
  | case3 c d rest pair ih =>
      have step := found
      simp only [merge, pair, ↓reduceIte] at step
      rcases List.infix_cons_iff.mp step with start | later
      · have start' : r <+: merge (c :: d :: rest) := by
          simp only [merge, pair, ↓reduceIte]
          exact start
        exact (prefix_of_merge small start').isInfix
      · exact List.infix_cons (List.infix_cons (ih later))
  | case4 c d rest pair ih =>
      have step := found
      simp only [merge, pair, Bool.false_eq_true, ↓reduceIte] at step
      rcases List.infix_cons_iff.mp step with start | later
      · have start' : r <+: merge (c :: d :: rest) := by
          simp only [merge, pair, Bool.false_eq_true, ↓reduceIte]
          exact start
        exact (prefix_of_merge small start').isInfix
      · exact List.infix_cons (ih later)

/-- An unescaped text that a decoded string holds stands in the text it is decoded of. -/
theorem infix_dumps_of_decoded {r t : Str} {v : Value} (unescaped : Unescaped r)
    (inside : t ∈ strings (decoded v)) (found : r <:+: t) : r <:+: dumps v := by
  rw [strings_decoded] at inside
  obtain ⟨s, member, rfl⟩ := List.mem_map.mp inside
  have small : ∀ c ∈ r, c.val < 0x10000 := by
    intro c listed
    have bound := val_le_of_escape (unescaped c listed)
    omega
  exact (infix_quote unescaped (infix_of_merge small found)).trans
    (quote_infix_dumps (strings_kept member))

end Py.Json
