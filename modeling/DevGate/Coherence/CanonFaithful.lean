import DevGate.Coherence.Canon
import DevGate.Py.JsonBytes

set_option autoImplicit false

/- The canonical bytes say what was encoded, and a preimage says its tag. -/
namespace DevGate.Canon

open Py

/-- What `canon` can be handed. -/
inductive Obj where
  | null
  | bool (b : Bool)
  | int (n : Int)
  | float (x : Flt)
  | str (s : Str)
  | list (vs : List Obj)
  | tuple (vs : List Obj)
  | dict (kvs : List (Obj × Obj))
  | other (typeName : Str)

mutual

/-- Tuples read as lists. -/
def Obj.value : Obj → Value
  | .null => .null
  | .bool b => .bool b
  | .int n => .int n
  | .float x => .float x
  | .str s => .str s
  | .list vs => .list (valueList vs)
  | .tuple vs => .list (valueList vs)
  | .dict kvs => .dict (valuePairs kvs)
  | .other _ => .null

def valueList : List Obj → List Value
  | [] => []
  | v :: vs => v.value :: valueList vs

def valuePairs : List (Obj × Obj) → List (Str × Value)
  | [] => []
  | (.str key, v) :: rest => (key, v.value) :: valuePairs rest
  | _ :: rest => valuePairs rest

end

mutual

/-- `_check`. -/
def checkObj : Obj → Except Exc Unit
  | .null => .ok ()
  | .bool _ => .ok ()
  | .str _ => .ok ()
  | .int n =>
      if int64Min ≤ n ∧ n ≤ int64Max then .ok ()
      else .error ⟨canonError, ["integer out of int64 range: ", .repr (.int n)]⟩
  | .float x =>
      .error ⟨canonError, ["floats are outside the v1 canonical profile: ", .repr (.float x)]⟩
  | .dict kvs => checkObjPairs kvs
  | .list vs => checkObjList vs
  | .tuple vs => checkObjList vs
  | .other typeName => .error ⟨canonError, ["unsupported type for canonical profile: ", typeName]⟩

def checkObjList : List Obj → Except Exc Unit
  | [] => .ok ()
  | v :: vs => do
      checkObj v
      checkObjList vs

def checkObjPairs : List (Obj × Obj) → Except Exc Unit
  | [] => .ok ()
  | (.str _, v) :: rest => do
      checkObj v
      checkObjPairs rest
  | (key, _) :: _ => .error ⟨canonError, ["non-string object key: ", .repr key.value]⟩

end

def canonObj (obj : Obj) : Except Exc Bytes := do
  checkObj obj
  return Utf8.ascii (Json.dumps obj.value)

mutual

theorem check_value : ∀ {obj : Obj}, checkObj obj = .ok () → check obj.value = .ok ()
  | .null, _ => rfl
  | .bool _, _ => rfl
  | .str _, _ => rfl
  | .int n, passes => passes
  | .float _, passes => passes
  | .dict kvs, passes => check_valuePairs passes
  | .list vs, passes => check_valueList passes
  | .tuple vs, passes => check_valueList passes
  | .other _, passes => by cases passes

theorem check_valueList : ∀ {vs : List Obj}, checkObjList vs = .ok () →
    checkList (valueList vs) = .ok ()
  | [], _ => rfl
  | v :: vs, passes => by
      obtain ⟨_, first, rest⟩ := bind_ok.mp passes
      rw [valueList, checkList, check_value first, ok_bind]
      exact check_valueList rest

theorem check_valuePairs : ∀ {kvs : List (Obj × Obj)}, checkObjPairs kvs = .ok () →
    checkPairs (valuePairs kvs) = .ok ()
  | [], _ => rfl
  | (.str key, v) :: rest, passes => by
      obtain ⟨_, first, later⟩ := bind_ok.mp passes
      rw [valuePairs, checkPairs, check_value first, ok_bind]
      exact check_valuePairs later
  | (.null, _) :: _, passes => by cases passes
  | (.bool _, _) :: _, passes => by cases passes
  | (.int _, _) :: _, passes => by cases passes
  | (.float _, _) :: _, passes => by cases passes
  | (.list _, _) :: _, passes => by cases passes
  | (.tuple _, _) :: _, passes => by cases passes
  | (.dict _, _) :: _, passes => by cases passes
  | (.other _, _) :: _, passes => by cases passes

end

theorem canon_value {obj : Obj} {bytes : Bytes} (encoded : canonObj obj = .ok bytes) :
    canon obj.value = .ok bytes := by
  obtain ⟨_, passes, same⟩ := bind_ok.mp encoded
  exact canon_ok.mpr ⟨check_value passes, (Except.ok.inj same).symm⟩

end DevGate.Canon

namespace Py.Json

/-- Every object has distinct keys. -/
inductive Distinct : Value → Prop where
  | null : Distinct .null
  | bool (b : Bool) : Distinct (.bool b)
  | int (n : Int) : Distinct (.int n)
  | float (x : Flt) : Distinct (.float x)
  | str (s : Str) : Distinct (.str s)
  | list {vs : List Value} (each : ∀ v ∈ vs, Distinct v) : Distinct (.list vs)
  | dict {kvs : List (Str × Value)} (distinct : (kvs.map Prod.fst).Nodup)
      (each : ∀ kv ∈ kvs, Distinct kv.2) : Distinct (.dict kvs)

theorem head_merge (c : Chr) (s : Str) :
    ∃ d rest, merge (c :: s) = d :: rest ∧ (d = c ∨ d.isLow = false) := by
  cases s with
  | nil => exact ⟨c, [], rfl, Or.inl rfl⟩
  | cons d s =>
      rw [merge]
      split
      · rename_i pair
        rw [Bool.and_eq_true] at pair
        exact ⟨_, _, rfl, Or.inr (Chr.join_not_low pair.1 pair.2).1⟩
      · exact ⟨c, _, rfl, Or.inl rfl⟩

/-- Joining leaves no pair behind. -/
theorem tidy_merge (s : Str) : Tidy (merge s) := by
  induction s using merge.induct with
  | case1 => exact List.IsChain.nil
  | case2 c => exact List.IsChain.singleton c
  | case3 c d rest pair ih =>
      rw [merge, if_pos pair]
      rw [Bool.and_eq_true] at pair
      have high := (Chr.join_not_low pair.1 pair.2).2
      cases later : merge rest with
      | nil => exact List.IsChain.singleton _
      | cons e after =>
          rw [later] at ih
          apply List.IsChain.cons_cons _ ih
          rw [high]
          simp
  | case4 c d rest pair ih =>
      rw [merge, if_neg pair]
      obtain ⟨e, after, cut, kept⟩ := head_merge d rest
      rw [cut] at ih ⊢
      apply List.IsChain.cons_cons _ ih
      rintro ⟨high, low⟩
      rcases kept with rfl | other
      · exact pair (by rw [high, low]; rfl)
      · rw [low] at other
        cases other

theorem Clean.distinct {v : Value} (clean : Clean v) : Distinct v := by
  induction clean with
  | null => exact .null
  | bool b => exact .bool b
  | int n => exact .int n
  | float x => exact .float x
  | @str s _ => exact .str s
  | list _ ih => exact .list ih
  | dict distinct _ _ ih => exact .dict distinct ih

/-- What decodes to itself, key order aside, has tidy strings. -/
theorem clean_of_decoded {v : Value} (distinct : Distinct v)
    (back : canonical (decoded v) = canonical v) : Clean v := by
  induction distinct with
  | null => exact .null
  | bool b => exact .bool b
  | int n => exact .int n
  | float x => exact .float x
  | str s =>
      have same : merge s = s := Value.str.inj back
      have tidy := tidy_merge s
      rw [same] at tidy
      exact .str tidy
  | @list vs _ ih =>
      rw [decoded, canonical, canonical, Value.list.injEq, decodedList_eq_map, canonicalList_eq_map,
        canonicalList_eq_map, List.map_map] at back
      have each := List.map_inj_left.mp back
      exact .list (fun v inside => ih v inside (each v inside))
  | @dict kvs distinct _ ih =>
      rw [decoded_dict, canonical_dict, canonical_dict, Value.dict.injEq] at back
      have keys := congrArg (List.map Prod.fst) back
      rw [List.map_map, List.map_map] at keys
      -- every key of the decoded object is a joined one
      have tidy : ∀ kv ∈ kvs, Tidy kv.1 := by
        intro kv inside
        have listed : kv.1 ∈ (sortKeys kvs).map Prod.fst :=
          List.mem_map_of_mem ((sortKeys_perm kvs).mem_iff.mpr inside)
        have there := keys.symm ▸ listed
        obtain ⟨own, sorted, same⟩ := List.mem_map.mp there
        have read := Dict.mem_of_mem_ofPairs ((sortKeys_perm _).mem_iff.mp sorted)
        obtain ⟨source, -, rfl⟩ := List.mem_map.mp read
        have named : merge source.1 = kv.1 := same
        rw [← named]
        exact tidy_merge source.1
      have plain : (sortKeys kvs).map (fun kv => (merge kv.1, decoded kv.2)) =
          (sortKeys kvs).map (fun kv => (kv.1, decoded kv.2)) := by
        apply List.map_congr_left
        intro kv inside
        rw [merge_tidy (tidy kv ((sortKeys_perm kvs).mem_iff.mp inside))]
      have apart : (((sortKeys kvs).map (fun kv => (kv.1, decoded kv.2))).map Prod.fst).Nodup := by
        rw [List.map_map]
        exact (((sortKeys_perm kvs).map Prod.fst).nodup_iff).mpr distinct
      rw [plain, Dict.ofPairs_of_nodup apart, sortKeys_map, sortKeys_sortKeys, List.map_map] at back
      have each := List.map_inj_left.mp back
      apply Clean.dict distinct tidy
      intro kv inside
      exact ih kv inside (Prod.mk.inj (each kv ((sortKeys_perm kvs).mem_iff.mpr inside))).2

end Py.Json

namespace DevGate.Canon

open Py

theorem preimage_inj {tag tag' : RoleTag} {payload payload' : Bytes} :
    preimage tag payload = preimage tag' payload' ↔ tag = tag' ∧ payload = payload' := by
  constructor
  · intro same
    have front : ∀ (t : RoleTag) (p : Bytes),
        (preimage t p).takeWhile (fun b => b ≠ 0) = Utf8.ascii t.name := by
      intro t p
      have free : ∀ b ∈ Utf8.ascii t.name, decide (b ≠ 0) = true := by
        intro b inside
        rw [decide_eq_true_eq]
        rintro rfl
        exact ascii_tag_noZero t inside
      unfold preimage
      rw [List.takeWhile_append_of_pos free]
      simp
    have names : Utf8.ascii tag.name = Utf8.ascii tag'.name := by
      rw [← front tag payload, same, front]
    have tags : tag = tag' := by
      revert names
      cases tag <;> cases tag' <;> decide
    subst tags
    have rest := List.append_cancel_left same
    exact ⟨rfl, (List.cons.inj rest).2⟩
  · rintro ⟨rfl, rfl⟩
    rfl

/-- The canonical bytes decode to the value, the order of keys aside. -/
def Decodes (v : Value) (bytes : Bytes) : Prop :=
  ∃ back, Json.loadBytes bytes = .ok back ∧ Json.canonical back = Json.canonical v

theorem decodes_iff {v : Value} {bytes : Bytes} (encoded : canon v = .ok bytes)
    (distinct : Json.Distinct v) : Decodes v bytes ↔ Json.Clean v := by
  obtain ⟨passes, rfl⟩ := canon_ok.mp encoded
  have read := Json.loadBytes_dumps (exact_of_check passes)
  constructor
  · rintro ⟨back, found, same⟩
    rw [read, Except.ok.injEq] at found
    subst found
    exact Json.clean_of_decoded distinct same
  · intro clean
    refine ⟨_, read, ?_⟩
    rw [Json.decoded_clean clean, Json.canonical_canonical]

/-- Canonical bytes of values with tidy strings are equal exactly when the values are. -/
theorem canon_injective {v w : Value} {bytes bytes' : Bytes} (first : canon v = .ok bytes)
    (second : canon w = .ok bytes') (clean : Json.Clean v) (clean' : Json.Clean w) :
    bytes = bytes' ↔ Json.canonical v = Json.canonical w := by
  constructor
  · rintro rfl
    have same := decoded_injective first second
    rwa [Json.decoded_clean clean, Json.decoded_clean clean'] at same
  · intro same
    have again := canon_of_same same second
    rw [first] at again
    exact Except.ok.inj again

/-- The canonical form is a faithful encoding of two values. -/
structure Faithful (a b : Obj) (bytes bytes' : Bytes) : Prop where
  first : Decodes a.value bytes
  second : Decodes b.value bytes'
  injective : bytes = bytes' ↔ Json.canonical a.value = Json.canonical b.value
  separated : ∀ tag tag' payload payload', preimage tag payload = preimage tag' payload' ↔
    tag = tag' ∧ payload = payload'

/-- The encoding is faithful exactly where no string or key has a surrogate pair. -/
theorem faithful_iff {a b : Obj} {bytes bytes' : Bytes} (first : canonObj a = .ok bytes)
    (second : canonObj b = .ok bytes') (distinct : Json.Distinct a.value)
    (distinct' : Json.Distinct b.value) :
    Faithful a b bytes bytes' ↔ Json.Clean a.value ∧ Json.Clean b.value := by
  have encoded := canon_value first
  have encoded' := canon_value second
  constructor
  · intro faithful
    exact ⟨(decodes_iff encoded distinct).mp faithful.first,
      (decodes_iff encoded' distinct').mp faithful.second⟩
  · rintro ⟨clean, clean'⟩
    exact ⟨(decodes_iff encoded distinct).mpr clean, (decodes_iff encoded' distinct').mpr clean',
      canon_injective encoded encoded' clean clean', fun _ _ _ _ => preimage_inj⟩

/-- U+1F600, and the two surrogates that spell it in UTF-16. -/
def astral : Str := [(⟨0x1f600, by decide⟩ : Chr)]

def halves : Str := [(⟨0xd83d, by decide⟩ : Chr), (⟨0xde00, by decide⟩ : Chr)]

theorem astral_faithful :
    Faithful (.tuple [.str astral, .int (-1)]) (.dict [(.str "b", .bool true), (.str "a", .null)])
      (Utf8.ascii (Json.dumps (.list [.str astral, .int (-1)])))
      (Utf8.ascii (Json.dumps (.dict [("b", .bool true), ("a", .null)]))) := by
  have tidy : Json.Tidy astral := List.IsChain.singleton _
  have clean : Json.Clean (.list [.str astral, .int (-1)]) := by
    apply Json.Clean.list
    simp only [List.forall_mem_cons]
    exact ⟨.str tidy, .int _, by simp⟩
  have clean' : Json.Clean (.dict [("b", .bool true), ("a", .null)]) := by
    apply Json.Clean.dict (by decide)
    · simp only [List.forall_mem_cons]
      exact ⟨List.IsChain.singleton _, List.IsChain.singleton _, by simp⟩
    · simp only [List.forall_mem_cons]
      exact ⟨.bool _, .null, by simp⟩
  exact (faithful_iff (a := .tuple [.str astral, .int (-1)])
    (b := .dict [(.str "b", .bool true), (.str "a", .null)]) rfl rfl clean.distinct
    clean'.distinct).mpr ⟨clean, clean'⟩

/-- Two strings, both accepted, with the same canonical bytes. -/
theorem halves_not_faithful :
    ∃ bytes, canonObj (.str astral) = .ok bytes ∧ canonObj (.str halves) = .ok bytes ∧
      Json.canonical (.str astral) ≠ Json.canonical (.str halves) ∧
      Json.loadBytes bytes = .ok (.str astral) ∧
      ¬ Faithful (.str astral) (.str halves) bytes bytes := by
  have apart : Json.canonical (.str astral) ≠ Json.canonical (.str halves) := by decide
  have encoded : canonObj (.str astral) = .ok (Utf8.ascii (Json.dumps (.str astral))) := rfl
  have encoded' : canonObj (.str halves) = .ok (Utf8.ascii (Json.dumps (.str astral))) := rfl
  refine ⟨_, encoded, encoded', apart, Json.loadBytes_dumps (.str astral), ?_⟩
  intro faithful
  exact apart (faithful.injective.mp rfl)

end DevGate.Canon
