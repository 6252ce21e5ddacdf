import DevGate.Py.Value

set_option autoImplicit false

/- Exceptions, and the built-in operations on decoded values that raise them. -/
namespace Py

/-- One piece of an f-string: literal text, `{v}` or `{v!r}`. -/
inductive Frag where
  | lit (s : Str)
  | str (v : Value)
  | repr (v : Value)
  deriving DecidableEq

/-- An f-string, with the values it shows kept as values. -/
abbrev Text := List Frag

instance : Coe Str Frag := ⟨.lit⟩
instance : Coe String Frag := ⟨fun s => .lit s⟩

/-- Exception classes by their base: `except` matches a class and its subclasses. -/
inductive ExcClass where
  | exception
  | valueError
  | typeError
  | keyError
  | attributeError
  | runtimeError
  | osError
  | jsonDecodeError
  | unicodeDecodeError
  | user (name : Str) (base : ExcClass)
  deriving DecidableEq

def ExcClass.base? : ExcClass → Option ExcClass
  | .exception => none
  | .jsonDecodeError => some .valueError
  | .unicodeDecodeError => some .valueError
  | .user _ base => some base
  | _ => some .exception

/-- `issubclass(c, d)`. -/
def ExcClass.isSubclass : ExcClass → ExcClass → Bool
  | .user name base, d => ExcClass.user name base == d || base.isSubclass d
  | .jsonDecodeError, d => d == .jsonDecodeError || d == .valueError || d == .exception
  | .unicodeDecodeError, d => d == .unicodeDecodeError || d == .valueError || d == .exception
  | c, d => d == c || d == .exception

def ExcClass.name : ExcClass → Str
  | .exception => "Exception"
  | .valueError => "ValueError"
  | .typeError => "TypeError"
  | .keyError => "KeyError"
  | .attributeError => "AttributeError"
  | .runtimeError => "RuntimeError"
  | .osError => "OSError"
  | .jsonDecodeError => "JSONDecodeError"
  | .unicodeDecodeError => "UnicodeDecodeError"
  | .user name _ => name

structure Exc where
  cls : ExcClass
  msg : Text
  deriving DecidableEq

/-- `except (c, ...)`: does one of the classes match? -/
def Exc.isA (e : Exc) (classes : List ExcClass) : Bool := classes.any e.cls.isSubclass

theorem Exc.isA_of_cls {e : Exc} {cls : ExcClass} {classes : List ExcClass} {caught : Bool}
    (is : e.cls = cls) (under : classes.any cls.isSubclass = caught) : e.isA classes = caught := by
  unfold Exc.isA
  rw [is]
  exact under

theorem Exc.isA_mono {e : Exc} {few many : List ExcClass} (known : e.isA few = true)
    (within : few ⊆ many) : e.isA many = true := by
  unfold Exc.isA at known ⊢
  rw [List.any_eq_true] at known ⊢
  obtain ⟨cls, listed, under⟩ := known
  exact ⟨cls, within listed, under⟩

theorem bind_ok {ε α β : Type} {x : Except ε α} {f : α → Except ε β} {b : β} :
    (x >>= f) = .ok b ↔ ∃ a, x = .ok a ∧ f a = .ok b := by
  cases x with
  | error e => simp [bind, Except.bind]
  | ok a => simp [bind, Except.bind]

/-- A sequence of steps answers where each step does. -/
theorem answers_bind {ε α β : Type} {x : Except ε α} {f : α → Except ε β} :
    (∃ b, (x >>= f) = .ok b) ↔ ∃ a, x = .ok a ∧ ∃ b, f a = .ok b := by
  constructor
  · rintro ⟨b, ran⟩
    obtain ⟨a, first, rest⟩ := bind_ok.mp ran
    exact ⟨a, first, b, rest⟩
  · rintro ⟨a, first, b, rest⟩
    exact ⟨b, bind_ok.mpr ⟨a, first, rest⟩⟩

@[simp] theorem ok_bind {ε α β : Type} (a : α) (f : α → Except ε β) :
    (Except.ok a >>= f) = f a := rfl

@[simp] theorem error_bind {ε α β : Type} (e : ε) (f : α → Except ε β) :
    (Except.error e >>= f) = .error e := rfl

@[simp] theorem pure_ok {ε α : Type} (a : α) : (pure a : Except ε α) = .ok a := rfl

/-- A traversal that answers pairs each item with what it maps to. -/
theorem mapM_members {ε α β : Type} {f : α → Except ε β} {xs : List α} {ys : List β}
    (ran : xs.mapM f = .ok ys) :
    (∀ x ∈ xs, ∃ y ∈ ys, f x = .ok y) ∧ ∀ y ∈ ys, ∃ x ∈ xs, f x = .ok y := by
  induction xs generalizing ys with
  | nil =>
      cases ran
      exact ⟨by simp, by simp⟩
  | cons x rest ih =>
      rw [List.mapM_cons] at ran
      obtain ⟨y, here, ran⟩ := bind_ok.mp ran
      obtain ⟨later, mapped, ran⟩ := bind_ok.mp ran
      cases ran
      obtain ⟨forth, back⟩ := ih mapped
      simp only [List.forall_mem_cons]
      refine ⟨⟨⟨y, List.mem_cons_self, here⟩, ?_⟩, ⟨x, List.mem_cons_self, here⟩, ?_⟩
      · intro x' inside
        obtain ⟨y', member, same⟩ := forth x' inside
        exact ⟨y', List.mem_cons_of_mem _ member, same⟩
      · intro y' inside
        obtain ⟨x', member, same⟩ := back y' inside
        exact ⟨x', List.mem_cons_of_mem _ member, same⟩

/-- A guard that raised nothing was false. -/
theorem guard_ok {ε α : Type} {p : Prop} [Decidable p] {e : ε} {rest : Except ε α} {a : α} :
    (if p then .error e else rest) = .ok a ↔ ¬ p ∧ rest = .ok a := by
  by_cases holds : p <;> simp [holds]

/-- `if not p: raise e`. -/
def ensure (p : Prop) [Decidable p] (e : Exc) : Except Exc Unit := if p then .ok () else .error e

theorem ensure_ok {p : Prop} [Decidable p] {e : Exc} {u : Unit} : ensure p e = .ok u ↔ p := by
  unfold ensure
  by_cases holds : p <;> simp [holds]

/-- Paired lists, member for member. -/
theorem paired_members {α β : Type} {R : α → β → Prop} {xs : List α} {ys : List β}
    (paired : List.Forall₂ R xs ys) :
    (∀ x ∈ xs, ∃ y ∈ ys, R x y) ∧ ∀ y ∈ ys, ∃ x ∈ xs, R x y := by
  induction paired with
  | nil => exact ⟨by simp, by simp⟩
  | @cons x y xs ys first _ ih =>
      simp only [List.forall_mem_cons]
      refine ⟨⟨⟨y, List.mem_cons_self, first⟩, ?_⟩, ⟨x, List.mem_cons_self, first⟩, ?_⟩
      · intro x' inside
        obtain ⟨y', member, related⟩ := ih.1 x' inside
        exact ⟨y', List.mem_cons_of_mem _ member, related⟩
      · intro y' inside
        obtain ⟨x', member, related⟩ := ih.2 y' inside
        exact ⟨x', List.mem_cons_of_mem _ member, related⟩

/-- Every exception of `x` is one of these. -/
def Fails {ε α : Type} (P : ε → Prop) (x : Except ε α) : Prop := ∀ e, x = .error e → P e

section

variable {ε α β : Type} {P : ε → Prop}

theorem Fails.ok {a : α} : Fails P (.ok a : Except ε α) := by
  intro e raised
  cases raised

theorem Fails.error {e : ε} (known : P e) : Fails P (.error e : Except ε α) := by
  intro e' raised
  cases raised
  exact known

theorem Fails.bind {x : Except ε α} {f : α → Except ε β} (first : Fails P x)
    (next : ∀ a, x = .ok a → Fails P (f a)) : Fails P (x >>= f) := by
  intro e raised
  cases ran : x with
  | error e' =>
      rw [ran] at raised
      cases raised
      exact first e ran
  | ok a =>
      rw [ran, ok_bind] at raised
      exact next a ran e raised

theorem Fails.map {x : Except ε α} {f : α → β} (first : Fails P x) : Fails P (x.map f) := by
  intro e raised
  cases ran : x with
  | error e' =>
      rw [ran] at raised
      cases raised
      exact first e ran
  | ok a =>
      rw [ran] at raised
      cases raised

end

/-- `v[key]` with a string key. -/
def Value.item (v : Value) (key : Str) : Except Exc Value :=
  match v with
  | .dict kvs =>
      match Dict.get? kvs key with
      | some value => .ok value
      | none => .error ⟨.keyError, [.repr (.str key)]⟩
  | .str _ => .error ⟨.typeError, ["string indices must be integers, not 'str'"]⟩
  | .list _ => .error ⟨.typeError, ["list indices must be integers or slices, not str"]⟩
  | other => .error ⟨.typeError, ["'", other.typeName, "' object is not subscriptable"]⟩

/-- `v.get(key)`: `none` where the key is absent. -/
def Value.get (v : Value) (key : Str) : Except Exc (Option Value) :=
  match v with
  | .dict kvs => .ok (Dict.get? kvs key)
  | other => .error ⟨.attributeError, ["'", other.typeName, "' object has no attribute 'get'"]⟩

/-- `list(v)`: the items of a list, the keys of an object, the characters of a string. -/
def Value.iter (v : Value) : Except Exc (List Value) :=
  match v with
  | .list vs => .ok vs
  | .dict kvs => .ok (kvs.map (fun kv => .str kv.1))
  | .str s => .ok (s.map (fun c => .str [c]))
  | other => .error ⟨.typeError, ["'", other.typeName, "' object is not iterable"]⟩

/-- What a value is as a dictionary key or set member: numbers meet by value. -/
inductive Key where
  | null
  | num (x : Flt)
  | str (s : Str)
  deriving DecidableEq

/-- `hash(v)`, up to which keys coincide. -/
def Value.key (v : Value) : Except Exc Key :=
  match v with
  | .null => .ok .null
  | .str s => .ok (.str s)
  | .bool b => .ok (.num (.fin (if b then 1 else 0)))
  | .int n => .ok (.num (.fin n))
  | .float x => .ok (.num x)
  | .list _ => .error ⟨.typeError, ["unhashable type: 'list'"]⟩
  | .dict _ => .error ⟨.typeError, ["unhashable type: 'dict'"]⟩

@[simp] theorem Value.key_str (s : Str) : Value.key (.str s) = .ok (.str s) := rfl

@[simp] theorem Value.get_dict (kvs : List (Str × Value)) (key : Str) :
    Value.get (.dict kvs) key = .ok (Dict.get? kvs key) := rfl

theorem Value.item_ok {v value : Value} {key : Str} :
    v.item key = .ok value ↔ ∃ kvs, v = .dict kvs ∧ Dict.get? kvs key = some value := by
  cases v with
  | dict kvs =>
      simp only [Value.item, Value.dict.injEq, exists_eq_left']
      cases Dict.get? kvs key <;> simp
  | _ => simp [Value.item]

theorem Value.get_ok {v : Value} {key : Str} {found : Option Value} :
    v.get key = .ok found ↔ ∃ kvs, v = .dict kvs ∧ Dict.get? kvs key = found := by
  cases v <;> simp [Value.get]

/-- The total view of a lookup: nothing where `v` is not an object. -/
def Value.field? (v : Value) (key : Str) : Option Value :=
  match v with
  | .dict kvs => Dict.get? kvs key
  | _ => none

@[simp] theorem Value.field?_dict (kvs : List (Str × Value)) (key : Str) :
    Value.field? (.dict kvs) key = Dict.get? kvs key := rfl

/-- `first or second`, where `first` may be missing. -/
def Value.orElse (first : Option Value) (second : Value) : Value :=
  match first with
  | some v => if v.truthy then v else second
  | none => second

theorem Value.field?_of_get {v : Value} {key : Str} {found : Option Value}
    (looked : v.get key = .ok found) : v.field? key = found := by
  obtain ⟨kvs, rfl, inside⟩ := Value.get_ok.mp looked
  exact inside

end Py
