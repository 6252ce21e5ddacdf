import DevGate.Py.Str

set_option autoImplicit false

/- The values a JSON document decodes to, with Python's equality, truth,
subscript and attribute rules. -/
namespace Py

/-- A Python float, read as the exact number it denotes. -/
inductive Flt where
  | fin (value : Rat)
  | inf (negative : Bool)
  | nan
  deriving DecidableEq

/-- An insertion-ordered dictionary. -/
abbrev Dict (κ α : Type) := List (κ × α)

inductive Value where
  | null
  | bool (b : Bool)
  | int (n : Int)
  | float (x : Flt)
  | str (s : Str)
  | list (vs : List Value)
  | dict (kvs : List (Str × Value))

theorem Value.ind {P : Value → Prop} (null : P .null) (bool : ∀ b, P (.bool b))
    (int : ∀ n, P (.int n)) (float : ∀ x, P (.float x)) (str : ∀ s, P (.str s))
    (list : ∀ vs, (∀ v ∈ vs, P v) → P (.list vs))
    (dict : ∀ kvs, (∀ kv ∈ kvs, P kv.2) → P (.dict kvs)) : ∀ v, P v :=
  @Value.rec P (fun vs => ∀ v ∈ vs, P v) (fun kvs => ∀ kv ∈ kvs, P kv.2) (fun kv => P kv.2)
    null bool int float str list dict
    (fun _ member => absurd member List.not_mem_nil)
    (fun _ _ head tail => by
      intro v member
      rcases List.mem_cons.mp member with rfl | member
      · exact head
      · exact tail v member)
    (fun _ member => absurd member List.not_mem_nil)
    (fun _ _ head tail => by
      intro kv member
      rcases List.mem_cons.mp member with rfl | member
      · exact head
      · exact tail kv member)
    (fun _ _ value => value)

mutual

def Value.beq : Value → Value → Bool
  | .null, .null => true
  | .bool a, .bool b => a == b
  | .int a, .int b => a == b
  | .float a, .float b => a == b
  | .str a, .str b => a == b
  | .list a, .list b => Value.beqList a b
  | .dict a, .dict b => Value.beqPairs a b
  | _, _ => false

def Value.beqList : List Value → List Value → Bool
  | [], [] => true
  | v :: vs, w :: ws => v.beq w && Value.beqList vs ws
  | _, _ => false

def Value.beqPairs : List (Str × Value) → List (Str × Value) → Bool
  | [], [] => true
  | (k, v) :: vs, (l, w) :: ws => k == l && v.beq w && Value.beqPairs vs ws
  | _, _ => false

end

theorem Value.beqList_iff (vs ws : List Value)
    (each : ∀ v ∈ vs, ∀ w, v.beq w = true ↔ v = w) : Value.beqList vs ws = true ↔ vs = ws := by
  induction vs generalizing ws with
  | nil => cases ws <;> simp [Value.beqList]
  | cons v vs ih =>
      cases ws with
      | nil => simp [Value.beqList]
      | cons w ws =>
          rw [Value.beqList, Bool.and_eq_true, each v (by simp),
            ih ws (fun x member => each x (List.mem_cons_of_mem _ member)), List.cons.injEq]

theorem Value.beqPairs_iff (vs ws : List (Str × Value))
    (each : ∀ kv ∈ vs, ∀ w, kv.2.beq w = true ↔ kv.2 = w) :
    Value.beqPairs vs ws = true ↔ vs = ws := by
  induction vs generalizing ws with
  | nil => cases ws <;> simp [Value.beqPairs]
  | cons kv vs ih =>
      obtain ⟨k, v⟩ := kv
      cases ws with
      | nil => simp [Value.beqPairs]
      | cons lw ws =>
          obtain ⟨l, w⟩ := lw
          rw [Value.beqPairs, Bool.and_eq_true, Bool.and_eq_true, each (k, v) (by simp),
            ih ws (fun x member => each x (List.mem_cons_of_mem _ member)), List.cons.injEq,
            Prod.mk.injEq, beq_iff_eq]

theorem Value.beq_iff (v : Value) : ∀ w, v.beq w = true ↔ v = w := by
  induction v using Value.ind with
  | null => intro w; cases w <;> simp [Value.beq]
  | bool b => intro w; cases w <;> simp [Value.beq]
  | int n => intro w; cases w <;> simp [Value.beq]
  | float x => intro w; cases w <;> simp [Value.beq]
  | str s => intro w; cases w <;> simp [Value.beq]
  | list vs ih =>
      intro w
      cases w with
      | list ws => rw [Value.beq, Value.beqList_iff vs ws ih, Value.list.injEq]
      | _ => simp [Value.beq]
  | dict kvs ih =>
      intro w
      cases w with
      | dict lws => rw [Value.beq, Value.beqPairs_iff kvs lws ih, Value.dict.injEq]
      | _ => simp [Value.beq]

instance : DecidableEq Value := fun v w => decidable_of_iff (v.beq w = true) (v.beq_iff w)

namespace Dict

variable {κ α : Type} [DecidableEq κ]

def get? : Dict κ α → κ → Option α
  | [], _ => none
  | (k, v) :: rest, key => if k = key then some v else get? rest key

/-- `d[key] = value`: an existing key keeps its place. -/
def set : Dict κ α → κ → α → Dict κ α
  | [], key, value => [(key, value)]
  | (k, v) :: rest, key, value =>
      if k = key then (k, value) :: rest else (k, v) :: set rest key value

/-- `d.pop(key, None)`. -/
def erase (d : Dict κ α) (key : κ) : Dict κ α := d.filter (fun kv => kv.1 ≠ key)

/-- `dict(pairs)`: the last value of a repeated key wins. -/
def ofPairs (pairs : List (κ × α)) : Dict κ α :=
  pairs.foldl (fun d kv => set d kv.1 kv.2) []

def contains (d : Dict κ α) (key : κ) : Bool := (get? d key).isSome

@[simp] theorem get?_nil (key : κ) : get? ([] : Dict κ α) key = none := rfl

theorem get?_cons (k : κ) (v : α) (rest : Dict κ α) (key : κ) :
    get? ((k, v) :: rest) key = if k = key then some v else get? rest key := rfl

@[simp] theorem get?_set_self (d : Dict κ α) (key : κ) (value : α) :
    get? (set d key value) key = some value := by
  induction d with
  | nil => simp [set, get?]
  | cons kv rest ih =>
      obtain ⟨k, v⟩ := kv
      unfold set
      split
      · rename_i same
        simp [get?, same]
      · rename_i other
        simp only [get?, other, ↓reduceIte, ih]

theorem get?_set_of_ne (d : Dict κ α) (key other : κ) (value : α) (apart : key ≠ other) :
    get? (set d key value) other = get? d other := by
  induction d with
  | nil => simp [set, get?, apart]
  | cons kv rest ih =>
      obtain ⟨k, v⟩ := kv
      unfold set
      split
      · rename_i same
        subst same
        simp [get?, apart]
      · simp only [get?, ih]

theorem get?_set (d : Dict κ α) (key other : κ) (value : α) :
    get? (set d key value) other = if key = other then some value else get? d other := by
  split
  · rename_i same
    subst same
    exact get?_set_self d key value
  · rename_i apart
    exact get?_set_of_ne d key other value apart

theorem get?_erase (d : Dict κ α) (key other : κ) :
    get? (erase d key) other = if key = other then none else get? d other := by
  induction d with
  | nil => simp [erase]
  | cons kv rest ih =>
      obtain ⟨k, v⟩ := kv
      unfold erase at ih ⊢
      by_cases dropped : k = key
      · subst dropped
        by_cases same : k = other <;> simp_all [get?]
      · by_cases same : k = other
        · subst same
          simp [get?, dropped, Ne.symm dropped]
        · simpa [get?, dropped, same] using ih

theorem mem_of_get? {d : Dict κ α} {key : κ} {value : α} (found : get? d key = some value) :
    (key, value) ∈ d := by
  induction d with
  | nil => cases found
  | cons kv rest ih =>
      obtain ⟨k, v⟩ := kv
      rw [get?_cons] at found
      split at found
      · rename_i same
        subst same
        cases found
        exact List.mem_cons_self
      · exact List.mem_cons_of_mem _ (ih found)

theorem get?_isSome_iff (d : Dict κ α) (key : κ) :
    (get? d key).isSome = true ↔ key ∈ d.map Prod.fst := by
  induction d with
  | nil => simp
  | cons kv rest ih =>
      obtain ⟨k, v⟩ := kv
      by_cases same : k = key
      · simp [get?, same]
      · simp [get?, same, Ne.symm same, ih]

/-- With distinct keys a stored pair is what the lookup finds. -/
theorem get?_of_mem {d : Dict κ α} (distinct : (d.map Prod.fst).Nodup) {key : κ} {value : α}
    (member : (key, value) ∈ d) : get? d key = some value := by
  induction d with
  | nil => cases member
  | cons kv rest ih =>
      obtain ⟨k, v⟩ := kv
      rw [List.map_cons, List.nodup_cons] at distinct
      rw [get?_cons]
      rcases List.mem_cons.mp member with same | later
      · cases same
        simp
      · have apart : k ≠ key := by
          intro same
          apply distinct.1
          rw [same]
          exact List.mem_map.mpr ⟨(key, value), later, rfl⟩
        simp only [apart, ↓reduceIte, ih distinct.2 later]

theorem mem_iff_get? {d : Dict κ α} (distinct : (d.map Prod.fst).Nodup) (kv : κ × α) :
    kv ∈ d ↔ get? d kv.1 = some kv.2 :=
  ⟨get?_of_mem distinct, mem_of_get?⟩

theorem map_fst_set (d : Dict κ α) (key : κ) (value : α) :
    (set d key value).map Prod.fst =
      if key ∈ d.map Prod.fst then d.map Prod.fst else d.map Prod.fst ++ [key] := by
  induction d with
  | nil => simp [set]
  | cons kv rest ih =>
      obtain ⟨k, v⟩ := kv
      by_cases same : k = key
      · simp [set, same]
      · simp only [set, same, ↓reduceIte, List.map_cons, ih, List.mem_cons, Ne.symm same, false_or]
        split <;> simp

theorem nodup_set {d : Dict κ α} (distinct : (d.map Prod.fst).Nodup) (key : κ) (value : α) :
    ((set d key value).map Prod.fst).Nodup := by
  rw [map_fst_set]
  split
  · exact distinct
  · rename_i fresh
    rw [List.nodup_append]
    refine ⟨distinct, by simp, ?_⟩
    intro old inOld new inNew same
    rw [List.mem_singleton] at inNew
    subst inNew same
    exact fresh inOld

theorem mem_set {d : Dict κ α} {key : κ} {value : α} {kv : κ × α}
    (member : kv ∈ set d key value) : kv = (key, value) ∨ kv ∈ d := by
  induction d with
  | nil => exact Or.inl (List.mem_singleton.mp member)
  | cons head rest ih =>
      unfold set at member
      split at member
      · rename_i same
        rcases List.mem_cons.mp member with first | later
        · exact Or.inl (by rw [first, same])
        · exact Or.inr (List.mem_cons_of_mem _ later)
      · rcases List.mem_cons.mp member with first | later
        · exact Or.inr (by rw [first]; exact List.mem_cons_self)
        · rcases ih later with here | old
          · exact Or.inl here
          · exact Or.inr (List.mem_cons_of_mem _ old)

theorem get?_foldl_set (pairs : List (κ × α)) (d : Dict κ α) (key : κ) :
    get? (pairs.foldl (fun d kv => set d kv.1 kv.2) d) key =
      (get? pairs.reverse key).or (get? d key) := by
  induction pairs generalizing d with
  | nil => simp
  | cons kv rest ih =>
      obtain ⟨k, v⟩ := kv
      have appended : ∀ (front : Dict κ α), get? (front ++ [(k, v)]) key =
          (get? front key).or (if k = key then some v else none) := by
        intro front
        induction front with
        | nil => simp [get?]
        | cons head tail inner =>
            rw [List.cons_append, get?_cons, get?_cons, inner]
            split <;> simp
      rw [List.foldl_cons, ih, get?_set, List.reverse_cons, appended]
      cases get? rest.reverse key <;> simp
      split <;> simp

theorem get?_ofPairs (pairs : List (κ × α)) (key : κ) :
    get? (ofPairs pairs) key = get? pairs.reverse key := by
  rw [ofPairs, get?_foldl_set]
  simp

/-- A dictionary built from pairs with distinct keys holds each of them. -/
theorem get?_ofPairs_of_mem {pairs : List (κ × α)} (distinct : (pairs.map Prod.fst).Nodup)
    {key : κ} {value : α} (member : (key, value) ∈ pairs) :
    get? (ofPairs pairs) key = some value := by
  rw [get?_ofPairs]
  apply get?_of_mem
  · rw [List.map_reverse]
    exact List.pairwise_reverse.mpr (distinct.imp Ne.symm)
  · simpa using member

theorem set_of_not_mem {d : Dict κ α} {key : κ} (fresh : key ∉ d.map Prod.fst) (value : α) :
    set d key value = d ++ [(key, value)] := by
  induction d with
  | nil => rfl
  | cons kv rest ih =>
      obtain ⟨k, v⟩ := kv
      rw [List.map_cons, List.mem_cons, not_or] at fresh
      simp only [set, Ne.symm fresh.1, ↓reduceIte, ih fresh.2, List.cons_append]

/-- Pairs with distinct keys are a dictionary as they stand. -/
theorem ofPairs_of_nodup {pairs : List (κ × α)} (distinct : (pairs.map Prod.fst).Nodup) :
    ofPairs pairs = pairs := by
  have grow : ∀ (d : Dict κ α), ((d ++ pairs).map Prod.fst).Nodup →
      pairs.foldl (fun d kv => set d kv.1 kv.2) d = d ++ pairs := by
    clear distinct
    induction pairs with
    | nil => exact fun d _ => (List.append_nil d).symm
    | cons kv rest ih =>
        intro d distinct
        have fresh : kv.1 ∉ d.map Prod.fst := by
          rw [List.map_append, List.nodup_append] at distinct
          intro member
          exact distinct.2.2 _ member _ (by simp) rfl
        rw [List.foldl_cons, set_of_not_mem fresh, ih, List.append_assoc, List.singleton_append]
        rw [List.append_assoc, List.singleton_append]
        exact distinct
  exact grow [] distinct

theorem set_map {β : Type} (f : α → β) (d : Dict κ α) (key : κ) (value : α) :
    (set d key value).map (fun kv => (kv.1, f kv.2)) =
      set (d.map (fun kv => (kv.1, f kv.2))) key (f value) := by
  induction d with
  | nil => rfl
  | cons kv rest ih =>
      obtain ⟨k, v⟩ := kv
      by_cases same : k = key
      · simp only [set, same, ↓reduceIte, List.map_cons]
      · simp only [set, same, ↓reduceIte, List.map_cons, ih]

theorem ofPairs_map {β : Type} (f : α → β) (pairs : List (κ × α)) :
    ofPairs (pairs.map (fun kv => (kv.1, f kv.2))) =
      (ofPairs pairs).map (fun kv => (kv.1, f kv.2)) := by
  have grow : ∀ d : Dict κ α,
      (pairs.map (fun kv => (kv.1, f kv.2))).foldl (fun d kv => set d kv.1 kv.2)
          (d.map (fun kv => (kv.1, f kv.2))) =
        (pairs.foldl (fun d kv => set d kv.1 kv.2) d).map (fun kv => (kv.1, f kv.2)) := by
    induction pairs with
    | nil => exact fun _ => rfl
    | cons kv rest ih =>
        intro d
        rw [List.map_cons, List.foldl_cons, List.foldl_cons, ← set_map, ih]
  exact grow []

theorem mem_of_mem_ofPairs {pairs : List (κ × α)} {kv : κ × α} (member : kv ∈ ofPairs pairs) :
    kv ∈ pairs := by
  have grow : ∀ d : Dict κ α, kv ∈ pairs.foldl (fun d kv => set d kv.1 kv.2) d → kv ∈ d ∨ kv ∈ pairs := by
    clear member
    induction pairs with
    | nil => exact fun d inside => Or.inl inside
    | cons first rest ih =>
        intro d inside
        rcases ih _ inside with held | later
        · rcases mem_set held with rfl | old
          · exact Or.inr List.mem_cons_self
          · exact Or.inl old
        · exact Or.inr (List.mem_cons_of_mem _ later)
  rcases grow [] member with none | found
  · cases none
  · exact found

theorem nodup_ofPairs (pairs : List (κ × α)) : ((ofPairs pairs).map Prod.fst).Nodup := by
  have grow : ∀ d : Dict κ α, (d.map Prod.fst).Nodup →
      ((pairs.foldl (fun d kv => set d kv.1 kv.2) d).map Prod.fst).Nodup := by
    induction pairs with
    | nil => exact fun _ distinct => distinct
    | cons kv rest ih => exact fun d distinct => ih _ (nodup_set distinct kv.1 kv.2)
  exact grow [] List.nodup_nil

/-- The last value set is the one that stays. -/
theorem set_set (d : Dict κ α) (key : κ) (first second : α) :
    set (set d key first) key second = set d key second := by
  induction d with
  | nil => simp [set]
  | cons kv rest ih =>
      obtain ⟨k, v⟩ := kv
      by_cases same : k = key
      · simp only [set, same, ↓reduceIte]
      · simp only [set, same, ↓reduceIte, ih]

/-- A value set to what it is. -/
theorem set_self {d : Dict κ α} {key : κ} {value : α} (held : get? d key = some value) :
    set d key value = d := by
  induction d with
  | nil => cases held
  | cons kv rest ih =>
      obtain ⟨k, v⟩ := kv
      rw [get?_cons] at held
      by_cases same : k = key
      · rw [if_pos same] at held
        cases held
        simp only [set, same, ↓reduceIte]
      · rw [if_neg same] at held
        simp only [set, same, ↓reduceIte, ih held]

/-- Two keys are set in either order, where one of them has its place already. -/
theorem set_comm {d : Dict κ α} {key other : κ} (apart : key ≠ other)
    (held : (get? d key).isSome = true) (value value' : α) :
    set (set d key value) other value' = set (set d other value') key value := by
  induction d with
  | nil => cases held
  | cons kv rest ih =>
      obtain ⟨k, v⟩ := kv
      rw [get?_cons] at held
      by_cases first : k = key
      · have second : ¬ k = other := fun same => apart (first.symm.trans same)
        subst first
        simp only [set, second, ↓reduceIte]
      · rw [if_neg first] at held
        by_cases second : k = other
        · subst second
          simp only [set, first, ↓reduceIte]
        · simp only [set, first, second, ↓reduceIte, ih held]

end Dict

/-- The number a bool, int or float denotes: `1 == True == 1.0`. -/
def Value.num? : Value → Option Flt
  | .bool b => some (.fin (if b then 1 else 0))
  | .int n => some (.fin n)
  | .float x => some x
  | _ => none

mutual

/-- Equality of container items: identity or `==`. -/
def Value.same : Value → Value → Bool
  | .null, .null => true
  | .str a, .str b => a == b
  | .list a, .list b => Value.sameList a b
  | .dict a, .dict b => a.length == b.length && Value.samePairs a b
  | v, w =>
      match v.num?, w.num? with
      | some a, some b => a == b
      | _, _ => false

def Value.sameList : List Value → List Value → Bool
  | [], [] => true
  | v :: vs, w :: ws => v.same w && Value.sameList vs ws
  | _, _ => false

def Value.samePairs : List (Str × Value) → List (Str × Value) → Bool
  | [], _ => true
  | (k, v) :: rest, other =>
      (match Dict.get? other k with
        | some w => v.same w
        | none => false) && Value.samePairs rest other

end

/-- `v == w`: as for items, except that NaN differs from itself. -/
def Value.eq (v w : Value) : Bool := v != .float .nan && v.same w

/-- `bool(v)`. -/
def Value.truthy : Value → Bool
  | .null => false
  | .bool b => b
  | .int n => n != 0
  | .float x => x != .fin 0
  | .str s => s != []
  | .list vs => !vs.isEmpty
  | .dict kvs => !kvs.isEmpty

def Value.isDict : Value → Bool
  | .dict _ => true
  | _ => false

def Value.isList : Value → Bool
  | .list _ => true
  | _ => false

def Value.isStr : Value → Bool
  | .str _ => true
  | _ => false

def Value.str? : Value → Option Str
  | .str s => some s
  | _ => none

def Value.int? : Value → Option Int
  | .int n => some n
  | _ => none

def Value.list? : Value → Option (List Value)
  | .list vs => some vs
  | _ => none

def Value.dict? : Value → Option (List (Str × Value))
  | .dict kvs => some kvs
  | _ => none

/-- `type(v).__name__`. -/
def Value.typeName : Value → Str
  | .null => "NoneType"
  | .bool _ => "bool"
  | .int _ => "int"
  | .float _ => "float"
  | .str _ => "str"
  | .list _ => "list"
  | .dict _ => "dict"

@[simp] theorem Value.same_str (s : Str) (w : Value) :
    Value.same (.str s) w = true ↔ w = .str s := by
  cases w with
  | str t =>
      rw [Value.same, beq_iff_eq, Value.str.injEq]
      exact eq_comm
  | _ => simp [Value.same, Value.num?]

@[simp] theorem Value.eq_str (s : Str) (w : Value) :
    Value.eq (.str s) w = true ↔ w = .str s := by
  have different : (Value.str s != .float .nan) = true := by simp
  rw [Value.eq, different, Bool.true_and, Value.same_str]

theorem Value.eq_text {v : Value} {s : Str} : v.eq (.str s) = true ↔ v = .str s := by
  cases v with
  | str t =>
      rw [Value.eq_str]
      exact eq_comm
  | _ => simp [Value.eq, Value.same, Value.num?]

end Py
