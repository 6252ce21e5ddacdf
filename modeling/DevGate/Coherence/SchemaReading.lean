import DevGate.Coherence.Draft07
import DevGate.Lib.Depth

set_option autoImplicit false

/- What `validate` makes of a schema: the documents it accepts, and that it ends. -/
namespace DevGate.SchemaDocument

open Py Depth
open Schemacheck (JsonType isType isIn validDateTime)
open Draft07 (Keyword Part Positional Additional Meets number? target)

/-- The keywords without a schema have values of their kinds. -/
structure Formed (s : Dict Str Value) : Prop where
  enum : ∀ v, Dict.get? s "enum" = some v → ∃ vs, v = .list vs
  type : ∀ t, Dict.get? s "type" = some t →
    ∃ ks : List JsonType, typeNames t = ks.map (fun k => .str k.name)
  pattern : ∀ p, Dict.get? s "pattern" = some p → ∃ text, p = .str text
  minLength : ∀ n, Dict.get? s "minLength" = some n → ∃ x, number? n = some x
  format : ∀ f, Dict.get? s "format" = some f → ∃ text, f = .str text
  minimum : ∀ m, Dict.get? s "minimum" = some m → ∃ x, number? m = some x
  minItems : ∀ n, Dict.get? s "minItems" = some n → ∃ x, number? n = some x
  required : ∀ v, Dict.get? s "required" = some v → ∃ names : List Str, v = .list (names.map .str)
  dependentRequired : ∀ v, Dict.get? s "dependentRequired" = some v →
    ∃ rules : Dict Str (List Str), v = .dict (rules.map (fun r => (r.1, .list (r.2.map .str))))
  properties : ∀ v, Dict.get? s "properties" = some v → ∃ props, v = .dict props

/-- A schema of the supported keywords whose local references end, as pointers and as
`_resolve` reads them. -/
inductive WellFormed (root : Value) : Value → Prop where
  | boolean (b : Bool) : WellFormed root (.bool b)
  | reference {s : Dict Str Value} {r : Str} {t : Value}
      (stated : Dict.get? s "$ref" = some (.str r)) (found : target root r = some t)
      (ends : WellFormed root t)
      (literal : ∀ t', resolve (.str r) root = .ok t' → WellFormed root t') :
      WellFormed root (.dict s)
  | own {s : Dict Str Value} (plain : Dict.get? s "$ref" = none) (formed : Formed s)
      (items : ∀ sub, Dict.get? s "items" = some sub → sub.isList = false → WellFormed root sub)
      (positional : ∀ subs, Dict.get? s "items" = some (.list subs) →
        ∀ sub ∈ subs, WellFormed root sub)
      (properties : ∀ props, Dict.get? s "properties" = some (.dict props) →
        ∀ key sub, (key, sub) ∈ props → WellFormed root sub)
      (additional : ∀ sub, Dict.get? s "additionalProperties" = some sub → WellFormed root sub) :
      WellFormed root (.dict s)

/-- What the checker asks of a document for a keyword: `==` for equal values, `isinstance` for
types, `re.fullmatch` for patterns, `fromisoformat` for times. -/
def Passes (E : Engine) (s : Dict Str Value) (doc : Value) : Keyword → Prop
  | .const => ∀ c, Dict.get? s "const" = some c → doc.eq c = true
  | .enum => ∀ vs, Dict.get? s "enum" = some (.list vs) → isIn doc vs = true
  | .type => ∀ t, Dict.get? s "type" = some t →
      ∃ k : JsonType, .str k.name ∈ typeNames t ∧ isType doc k = true
  | .pattern => ∀ p text, Dict.get? s "pattern" = some (.str p) → doc = .str text →
      E.fullmatch (.str p) text = .ok true
  | .format => ∀ text, Dict.get? s "format" = some (.str "date-time") → doc = .str text →
      validDateTime text = true
  | k => Meets E s doc k

/-- The documents that the checker finds no fault with. -/
inductive Accepts (E : Engine) (root : Value) : Value → Value → Prop where
  | reference {s : Dict Str Value} {ref t doc : Value} (stated : Dict.get? s "$ref" = some ref)
      (found : resolve ref root = .ok t) (accepts : Accepts E root doc t) :
      Accepts E root doc (.dict s)
  | own {s : Dict Str Value} {doc : Value} (plain : Dict.get? s "$ref" = none)
      (passes : ∀ k, Passes E s doc k)
      (closed : Dict.get? s "additionalProperties" = some (.bool false) →
        ∀ v sub, ¬ Additional s doc v sub)
      (single : ∀ subs vs, Dict.get? s "items" = some (.list subs) → doc = .list vs → vs = [])
      (parts : ∀ v sub, Part s doc v sub → Accepts E root v sub) : Accepts E root doc (.dict s)

/-! Looking a keyword up in an object. -/

@[simp] theorem has_dict (s : Dict Str Value) (key : Str) :
    has (.dict s) key = .ok (Dict.contains s key) := rfl

@[simp] theorem keyword?_dict (s : Dict Str Value) (key : Str) :
    keyword? (.dict s) key = .ok (Dict.get? s key) := by
  rw [keyword?, has_dict, ok_bind, Value.item, Dict.contains]
  cases Dict.get? s key <;> rfl

@[simp] theorem getOr_dict (s : Dict Str Value) (key : Str) (default : Value) :
    getOr (.dict s) key default = .ok ((Dict.get? s key).getD default) := rfl

@[simp] theorem report_nil {α : Type} {found : Except Exc (List α)} {message : α → Text} :
    report found message = .ok [] ↔ found = .ok [] := by
  cases found with
  | error e => simp [report, bind, Except.bind]
  | ok vs => simp [report, bind, Except.bind, pure, Except.pure]

@[simp] theorem brokenBy_nil {b : Bool} {v : Value} : brokenBy b v = [] ↔ b = false := by
  cases b <;> simp [brokenBy]

/-- Numbers have an order. -/
theorem lt_number {v w : Value} {a b : Flt} (left : number? v = some a)
    (right : number? w = some b) : v.lt w = .ok (a.lt b) := by
  cases v <;> cases w <;> simp_all [number?, Value.lt, Value.num?]

/-! Each keyword's own check. -/

theorem const_clean (E : Engine) {s : Dict Str Value} {doc : Value} :
    constBroken (.dict s) doc = .ok [] ↔ Passes E s doc .const := by
  rw [constBroken, keyword?_dict, ok_bind, Passes]
  cases Dict.get? s "const" with
  | none => simp [pure, Except.pure]
  | some c => simp [pure, Except.pure]

theorem enum_clean (E : Engine) {s : Dict Str Value} {doc : Value} (formed : Formed s) :
    enumBroken (.dict s) doc = .ok [] ↔ Passes E s doc .enum := by
  rw [enumBroken, keyword?_dict, ok_bind, Passes]
  cases stated : Dict.get? s "enum" with
  | none => simp [pure, Except.pure]
  | some v =>
      obtain ⟨vs, rfl⟩ := formed.enum v stated
      simp [memberOf, pure, Except.pure]

theorem typeOf?_name (k : JsonType) : typeOf? k.name = some k := by
  cases k <;> decide

theorem name_inj {k l : JsonType} : k.name = l.name ↔ k = l := by
  constructor
  · intro same
    have found := congrArg typeOf? same
    rw [typeOf?_name, typeOf?_name] at found
    exact Option.some.inj found
  · rintro rfl
    rfl

theorem anyType_names (doc : Value) (ks : List JsonType) :
    anyType doc (ks.map (fun k => .str k.name)) = .ok (ks.any (isType doc)) := by
  induction ks with
  | nil => rfl
  | cons k ks ih =>
      have here : namedType doc (.str k.name) = .ok (isType doc k) := by
        rw [namedType, Value.key_str, ok_bind]
        simp only [typeOf?_name]
        rfl
      rw [List.map_cons, anyType, here, ok_bind, ih, List.any_cons]
      cases isType doc k <;> rfl

theorem type_clean (E : Engine) {s : Dict Str Value} {doc : Value} (formed : Formed s) :
    typeBroken (.dict s) doc = .ok [] ↔ Passes E s doc .type := by
  rw [typeBroken, getOr_dict, ok_bind, Passes]
  cases stated : Dict.get? s "type" with
  | none => simp [pure, Except.pure]
  | some t =>
      obtain ⟨ks, named⟩ := formed.type t stated
      have kind : t ≠ .null := by
        rintro rfl
        cases ks <;> simp [typeNames] at named
      rw [Option.getD_some, if_neg kind, named, anyType_names]
      simp [pure, Except.pure, named, name_inj]

theorem pattern_clean {E : Engine} {s : Dict Str Value} {doc : Value} (formed : Formed s) :
    patternBroken E (.dict s) doc = .ok [] ↔ Passes E s doc .pattern := by
  cases doc with
  | str text =>
      rw [patternBroken, keyword?_dict, ok_bind, Passes]
      cases stated : Dict.get? s "pattern" with
      | none => simp [pure, Except.pure]
      | some p =>
          obtain ⟨p, rfl⟩ := formed.pattern p stated
          simp only [Option.some.injEq, Value.str.injEq]
          cases ran : E.fullmatch (.str p) text <;>
            simp [ran, bind, Except.bind, pure, Except.pure]
  | _ => simp [patternBroken, Passes, pure, Except.pure]

theorem shorter_clean {s : Dict Str Value} {key : Str} {length : Nat}
    (formed : ∀ n, Dict.get? s key = some n → ∃ x, number? n = some x) :
    shorter (.dict s) key length = .ok [] ↔
      ∀ n, Dict.get? s key = some n → ¬ Draft07.Below (.int length) n := by
  rw [shorter, keyword?_dict, ok_bind]
  cases stated : Dict.get? s key with
  | none => simp [pure, Except.pure]
  | some n =>
      obtain ⟨x, number⟩ := formed n stated
      have size : number? (.int length) = some (.fin (length : Int)) := rfl
      simp [lt_number size number, Draft07.Below, size, number, pure, Except.pure]

theorem minLength_clean (E : Engine) {s : Dict Str Value} {doc : Value} (formed : Formed s) :
    minLengthBroken (.dict s) doc = .ok [] ↔ Passes E s doc .minLength := by
  cases doc with
  | str text => simp [minLengthBroken, shorter_clean formed.minLength, Passes, Meets]
  | _ => simp [minLengthBroken, Passes, Meets]

theorem minItems_clean (E : Engine) {s : Dict Str Value} {doc : Value} (formed : Formed s) :
    minItemsBroken (.dict s) doc = .ok [] ↔ Passes E s doc .minItems := by
  cases doc with
  | list vs => simp [minItemsBroken, shorter_clean formed.minItems, Passes, Meets]
  | _ => simp [minItemsBroken, Passes, Meets]

theorem format_clean (E : Engine) {s : Dict Str Value} {doc : Value} (formed : Formed s) :
    formatBroken (.dict s) doc = .ok [] ↔ Passes E s doc .format := by
  cases doc with
  | str text =>
      rw [formatBroken, getOr_dict, ok_bind, Passes]
      cases stated : Dict.get? s "format" with
      | none => simp [Value.key, pure, Except.pure, bind, Except.bind]
      | some f =>
          obtain ⟨f, rfl⟩ := formed.format f stated
          by_cases named : f = Str.ofString "date-time"
          · subst named
            simp [pure, Except.pure, bind, Except.bind]
          · simp [named, pure, Except.pure, bind, Except.bind]
  | _ => simp [formatBroken, Passes, pure, Except.pure]

theorem isType_number {v : Value} : isType v .number = true ↔ ∃ a, number? v = some a := by
  cases v <;> simp [isType, number?]

theorem minimum_clean (E : Engine) {s : Dict Str Value} {doc : Value} (formed : Formed s) :
    minimumBroken (.dict s) doc = .ok [] ↔ Passes E s doc .minimum := by
  change _ ↔ Meets E s doc .minimum
  rw [minimumBroken, Meets]
  by_cases number : isType doc .number = true
  · obtain ⟨a, left⟩ := isType_number.mp number
    rw [if_pos number, keyword?_dict, ok_bind]
    cases stated : Dict.get? s "minimum" with
    | none => simp [pure, Except.pure]
    | some m =>
        obtain ⟨b, right⟩ := formed.minimum m stated
        simp [lt_number left right, Draft07.Below, left, right, pure, Except.pure]
  · rw [if_neg number]
    have none_ : ∀ m, ¬ Draft07.Below doc m := by
      rintro m ⟨a, -, left, -, -⟩
      exact number (isType_number.mpr ⟨a, left⟩)
    simp [none_, pure, Except.pure]

theorem lacking_clean {kvs : Dict Str Value} {names : List Str} :
    lacking kvs (names.map .str) = .ok [] ↔ ∀ name ∈ names, Dict.contains kvs name = true := by
  induction names with
  | nil => simp [lacking]
  | cons name names ih =>
      have here : lacks kvs (.str name) = .ok (!Dict.contains kvs name) := rfl
      rw [List.map_cons, lacking, here, ok_bind, List.forall_mem_cons, ← ih]
      cases lacking kvs (names.map .str) <;> simp [bind, Except.bind, pure, Except.pure]

theorem required_clean (E : Engine) {s : Dict Str Value} {doc : Value} (formed : Formed s) :
    requiredBroken (.dict s) doc = .ok [] ↔ Passes E s doc .required := by
  cases doc with
  | dict kvs =>
      change _ ↔ Meets E s (.dict kvs) .required
      rw [requiredBroken, getOr_dict, ok_bind, Meets]
      cases stated : Dict.get? s "required" with
      | none => simp [Value.iter, lacking]
      | some v =>
          obtain ⟨names, rfl⟩ := formed.required v stated
          rw [Option.getD_some, Value.iter, ok_bind, lacking_clean]
          simp
  | _ => simp [requiredBroken, Passes, Meets, pure, Except.pure]

theorem obliged_clean {kvs : Dict Str Value} {rules : Dict Str (List Str)} :
    obliged kvs (rules.map (fun r => (r.1, .list (r.2.map .str)))) = .ok [] ↔
      ∀ trigger names, (trigger, names) ∈ rules → Dict.contains kvs trigger = true →
        ∀ name ∈ names, Dict.contains kvs name = true := by
  induction rules with
  | nil => simp [obliged]
  | cons rule rules ih =>
      obtain ⟨trigger, names⟩ := rule
      have rest : (∀ t ns, (t, ns) ∈ (trigger, names) :: rules → Dict.contains kvs t = true →
          ∀ name ∈ ns, Dict.contains kvs name = true) ↔
          (Dict.contains kvs trigger = true → ∀ name ∈ names, Dict.contains kvs name = true) ∧
          ∀ t ns, (t, ns) ∈ rules → Dict.contains kvs t = true →
            ∀ name ∈ ns, Dict.contains kvs name = true := by
        constructor
        · intro all
          exact ⟨all trigger names List.mem_cons_self,
            fun t ns member => all t ns (List.mem_cons_of_mem _ member)⟩
        · rintro ⟨head, tail⟩ t ns member
          rcases List.mem_cons.mp member with same | member
          · cases same
            exact head
          · exact tail t ns member
      rw [rest, ← ih, List.map_cons, obliged]
      by_cases fires : Dict.contains kvs trigger = true
      · rw [if_pos fires, Value.iter, ok_bind, ← lacking_clean]
        cases lacking kvs (names.map .str) with
        | error e => simp [fires, bind, Except.bind]
        | ok missing =>
            cases obliged kvs (rules.map (fun r => (r.1, .list (r.2.map .str)))) <;>
              simp [fires, bind, Except.bind, pure, Except.pure]
      · rw [if_neg fires]
        simp [fires]

theorem dependent_clean (E : Engine) {s : Dict Str Value} {doc : Value} (formed : Formed s) :
    dependentBroken (.dict s) doc = .ok [] ↔ Passes E s doc .dependentRequired := by
  cases doc with
  | dict kvs =>
      change _ ↔ Meets E s (.dict kvs) .dependentRequired
      rw [dependentBroken, getOr_dict, ok_bind, Meets]
      cases stated : Dict.get? s "dependentRequired" with
      | none => simp [items, obliged]
      | some v =>
          obtain ⟨rules, rfl⟩ := formed.dependentRequired v stated
          rw [Option.getD_some, items, ok_bind, obliged_clean]
          constructor
          · rintro all rs other same here trigger ws member present name listed
            cases same
            cases here
            obtain ⟨⟨t, ns⟩, inside, paired⟩ := List.mem_map.mp member
            cases paired
            obtain ⟨name', listed, same⟩ := List.mem_map.mp listed
            cases same
            exact all t ns inside present name listed
          · intro all trigger names member present name listed
            exact all _ kvs rfl rfl trigger (names.map .str)
              (List.mem_map.mpr ⟨(trigger, names), member, rfl⟩) present name
              (List.mem_map_of_mem listed)
  | _ => simp [dependentBroken, Passes, Meets, pure, Except.pure]

theorem outside_clean {props : Dict Str Value} {keys : List Str} :
    outside (.dict props) keys = .ok [] ↔ ∀ key ∈ keys, Dict.contains props key = true := by
  induction keys with
  | nil => simp [outside]
  | cons key keys ih =>
      rw [outside, has_dict, ok_bind, List.forall_mem_cons, ← ih]
      by_cases named : Dict.contains props key = true
      · rw [if_pos named]
        simp [named]
      · rw [if_neg named]
        cases outside (.dict props) keys <;> simp [named, bind, Except.bind, pure, Except.pure]

theorem closed_clean {s : Dict Str Value} {doc : Value} (formed : Formed s) :
    additionalBroken (.dict s) doc = .ok [] ↔
      (Dict.get? s "additionalProperties" = some (.bool false) →
        ∀ v sub, ¬ Additional s doc v sub) := by
  cases doc with
  | dict kvs =>
      obtain ⟨props, read, named⟩ : ∃ props,
          (Dict.get? s "properties").getD (.dict []) = .dict props ∧
          ∀ key, Draft07.Named s key ↔ Dict.contains props key = true := by
        cases stated : Dict.get? s "properties" with
        | none => exact ⟨[], rfl, fun key => by simp [Draft07.Named, stated, Dict.contains]⟩
        | some v =>
            obtain ⟨props, rfl⟩ := formed.properties v stated
            exact ⟨props, rfl, fun key => by simp [Draft07.Named, stated]⟩
      have closed : (Dict.get? s "additionalProperties").getD .null = .bool false ↔
          Dict.get? s "additionalProperties" = some (.bool false) := by
        cases Dict.get? s "additionalProperties" <;> simp
      rw [additionalBroken, getOr_dict, ok_bind, read, getOr_dict, ok_bind]
      by_cases shut : Dict.get? s "additionalProperties" = some (.bool false)
      · rw [if_pos (closed.mpr shut), outside_clean]
        constructor
        · rintro all - v sub ⟨-, found, unnamed⟩
          have member := (Dict.get?_isSome_iff kvs _).mp (Option.isSome_of_mem found)
          exact unnamed ((named _).mpr (all _ member))
        · intro none_ key member
          obtain ⟨v, found⟩ := Option.isSome_iff_exists.mp ((Dict.get?_isSome_iff kvs key).mpr member)
          by_contra unnamed
          exact none_ shut v _ ⟨shut, found, fun inside => unnamed ((named key).mp inside)⟩
      · rw [if_neg (fun same => shut (closed.mp same))]
        simp [shut, pure, Except.pure]
  | _ =>
      constructor
      · rintro - - v sub ⟨⟩
      · intro _
        rfl

/-- The checks on a document itself find nothing where it passes each keyword. -/
theorem own_clean {E : Engine} {s : Dict Str Value} {doc : Value} (formed : Formed s) :
    (constBroken (.dict s) doc = .ok [] ∧ enumBroken (.dict s) doc = .ok [] ∧
      typeBroken (.dict s) doc = .ok [] ∧
      (patternBroken E (.dict s) doc = .ok [] ∧ minLengthBroken (.dict s) doc = .ok [] ∧
        formatBroken (.dict s) doc = .ok [] ∧ minimumBroken (.dict s) doc = .ok [] ∧
        minItemsBroken (.dict s) doc = .ok []) ∧
      requiredBroken (.dict s) doc = .ok [] ∧ dependentBroken (.dict s) doc = .ok []) ↔
      ∀ k, Passes E s doc k := by
  rw [const_clean E, enum_clean E formed, type_clean E formed, pattern_clean formed,
    minLength_clean E formed, format_clean E formed, minimum_clean E formed,
    minItems_clean E formed, required_clean E formed, dependent_clean E formed]
  constructor
  · rintro ⟨const, enum, type, ⟨pattern, minLength, format, minimum, minItems⟩, required,
      dependent⟩ k
    cases k with
    | const => exact const
    | enum => exact enum
    | type => exact type
    | pattern => exact pattern
    | minLength => exact minLength
    | format => exact format
    | minimum => exact minimum
    | minItems => exact minItems
    | required => exact required
    | dependentRequired => exact dependent
  · intro all
    exact ⟨all _, all _, all _, ⟨all _, all _, all _, all _, all _⟩, all _, all _⟩

theorem ownErrors_nil {E : Engine} {schema doc : Value} {path : Str} :
    ownErrors E schema doc path = .ok [] ↔
      patternBroken E schema doc = .ok [] ∧ minLengthBroken schema doc = .ok [] ∧
        formatBroken schema doc = .ok [] ∧ minimumBroken schema doc = .ok [] ∧
        minItemsBroken schema doc = .ok [] := by
  rw [ownErrors]
  generalize patternBroken E schema doc = texts, minLengthBroken schema doc = lengths,
    formatBroken schema doc = formats, minimumBroken schema doc = numbers,
    minItemsBroken schema doc = sizes
  cases texts <;> cases lengths <;> cases formats <;> cases numbers <;> cases sizes <;>
    simp [report, bind, Except.bind, pure, Except.pure]

theorem keyErrors_nil {schema doc : Value} {path : Str} :
    keyErrors schema doc path = .ok [] ↔
      requiredBroken schema doc = .ok [] ∧ dependentBroken schema doc = .ok [] ∧
        additionalBroken schema doc = .ok [] := by
  rw [keyErrors]
  generalize requiredBroken schema doc = required, dependentBroken schema doc = dependent,
    additionalBroken schema doc = closed
  cases required <;> cases dependent <;> cases closed <;>
    simp [report, bind, Except.bind, pure, Except.pure]

/-! The checker ends on a well-formed schema. -/

section

variable {E : Engine} {root : Value}

/-- Whether `validate` accepts, whatever path its messages start at. -/
def Settles (E : Engine) (root doc schema : Value) (holds : Prop) : Prop :=
  ∀ path, Decides (fun n full => validate E root full n doc schema path) holds

theorem items_decide {sub : Value} {vs : List Value}
    (each : ∀ v ∈ vs, Settles E root v sub (Accepts E root v sub)) (path : Str) (i : Nat) :
    Decides (fun n full => eachItem (validate E root full n) sub path i vs)
      (∀ v ∈ vs, Accepts E root v sub) := by
  induction vs generalizing i with
  | nil => exact .fixed (by simp)
  | cons v vs ih =>
      have here := each v List.mem_cons_self (path ++ "[" ++ Str.ofNat i ++ "]")
      have later := ih (fun w member => each w (List.mem_cons_of_mem _ member)) (i + 1)
      exact (here.join later).congr (by rw [List.forall_mem_cons])

theorem properties_decide {kvs props : Dict Str Value}
    (each : ∀ key sub, (key, sub) ∈ props → ∀ v, Settles E root v sub (Accepts E root v sub))
    (path : Str) :
    Decides (fun n full => eachProperty (validate E root full n) kvs path props)
      (∀ key sub, (key, sub) ∈ props → ∀ v, Dict.get? kvs key = some v → Accepts E root v sub) := by
  induction props with
  | nil => exact .fixed (by simp)
  | cons prop props ih =>
      obtain ⟨key, sub⟩ := prop
      have later := ih (fun k t member => each k t (List.mem_cons_of_mem _ member))
      cases found : Dict.get? kvs key with
      | none =>
          simp only [eachProperty, found]
          refine later.congr ⟨fun all k t member v inside => ?_, fun all k t member => ?_⟩
          · rcases List.mem_cons.mp member with same | member
            · cases same
              rw [found] at inside
              cases inside
            · exact all k t member v inside
          · exact all k t (List.mem_cons_of_mem _ member)
      | some v =>
          have here := each key sub List.mem_cons_self v (path ++ "." ++ key)
          simp only [eachProperty, found]
          refine (here.join later).congr ⟨?_, ?_⟩
          · rintro ⟨one, all⟩ k t member w inside
            rcases List.mem_cons.mp member with same | member
            · cases same
              rw [found] at inside
              cases inside
              exact one
            · exact all k t member w inside
          · intro all
            exact ⟨all key sub List.mem_cons_self v found,
              fun k t member => all k t (List.mem_cons_of_mem _ member)⟩

theorem keyword?_list (subs : List Value) (key : Str) :
    keyword? (.list subs) key = .ok none ∨ ∃ e, keyword? (.list subs) key = .error e := by
  have listed : has (.list subs) key = .ok (isIn (.str key) subs) := rfl
  rw [keyword?, listed, ok_bind]
  cases isIn (.str key) subs with
  | false => exact Or.inl rfl
  | true => exact Or.inr ⟨_, rfl⟩

/-- A list in the place of a schema has no `get`. -/
theorem list_raises (E : Engine) (root doc : Value) (subs : List Value) (path : Str) :
    ∃ e, ∀ n full, validate E root full (n + 1) doc (.list subs) path = .error e := by
  rcases keyword?_list subs "$ref" with plain | ⟨e, raised⟩
  · rcases keyword?_list subs "const" with noConst | ⟨e, raised⟩
    · rcases keyword?_list subs "enum" with noEnum | ⟨e, raised⟩
      · have unread : ∃ e, typeBroken (.list subs) doc = .error e := ⟨_, rfl⟩
        obtain ⟨e, unread⟩ := unread
        refine ⟨e, fun n full => ?_⟩
        simp only [validate, plain, constBroken, noConst, enumBroken, noEnum, unread]
        rfl
      · refine ⟨e, fun n full => ?_⟩
        simp only [validate, plain, constBroken, noConst, enumBroken, raised]
        rfl
    · refine ⟨e, fun n full => ?_⟩
      simp only [validate, plain, constBroken, raised]
      rfl
  · refine ⟨e, fun n full => ?_⟩
    simp only [validate, raised]
    rfl

theorem list_settles (E : Engine) (root doc : Value) (subs : List Value) :
    Settles E root doc (.list subs) (Accepts E root doc (.list subs)) := by
  intro path
  obtain ⟨e, raises⟩ := list_raises E root doc subs path
  have decided : Except.error e = Except.ok ([] : List Text) ↔ Accepts E root doc (.list subs) := by
    constructor
    · rintro ⟨⟩
    · rintro ⟨⟩
  exact (Decides.fixed decided).below raises

theorem boolean_settles (E : Engine) (root doc : Value) (b : Bool) :
    Settles E root doc (.bool b) (Accepts E root doc (.bool b)) := by
  intro path
  have raises : ∃ e, ∀ n full, validate E root full (n + 1) doc (.bool b) path = .error e :=
    ⟨_, fun n full => rfl⟩
  obtain ⟨e, raises⟩ := raises
  have decided : Except.error e = Except.ok ([] : List Text) ↔ Accepts E root doc (.bool b) := by
    constructor
    · rintro ⟨⟩
    · rintro ⟨⟩
  exact (Decides.fixed decided).below raises

/-- The checks of `validate` on a schema without a reference. -/
def gathered (consts enums types own keys inner : Except Exc (List Text)) :
    Except Exc (List Text) := do
  let consts ← consts
  let enums ← enums
  let types ← types
  if types ≠ [] then return consts ++ enums ++ types
  else
    let own ← own
    let keys ← keys
    let inner ← inner
    return consts ++ enums ++ own ++ keys ++ inner

theorem gathered_nil {consts enums types own keys inner : Except Exc (List Text)} :
    gathered consts enums types own keys inner = .ok [] ↔
      consts = .ok [] ∧ enums = .ok [] ∧ types = .ok [] ∧ own = .ok [] ∧ keys = .ok [] ∧
        inner = .ok [] := by
  cases consts with
  | error e => simp [gathered, bind, Except.bind]
  | ok consts =>
      cases enums with
      | error e => simp [gathered, bind, Except.bind]
      | ok enums =>
          cases types with
          | error e => simp [gathered, bind, Except.bind]
          | ok types =>
              by_cases typed : types = []
              · subst typed
                cases own <;> cases keys <;> cases inner <;>
                  simp [gathered, bind, Except.bind, pure, Except.pure]
              · simp [gathered, typed, bind, Except.bind, pure, Except.pure]

theorem validate_own {s : Dict Str Value} (plain : Dict.get? s "$ref" = none) (E : Engine)
    (root doc : Value) (path : Str) :
    ∃ consts enums types : Value → Text, ∀ n full,
      validate E root full (n + 1) doc (.dict s) path =
        gathered (report (constBroken (.dict s) doc) consts)
          (report (enumBroken (.dict s) doc) enums) (report (typeBroken (.dict s) doc) types)
          (ownErrors E (.dict s) doc path) (keyErrors (.dict s) doc path)
          (innerErrors (validate E root full n) (.dict s) doc path) := by
  refine ⟨fun c => [path, ": expected const ", .repr c, ", got ", .repr doc],
    fun vs => [path, ": ", .repr doc, " not in enum ", .repr vs],
    fun t => [path, ": expected type ", .repr t, ", got ", doc.typeName], fun n full => ?_⟩
  rw [validate, keyword?_dict, ok_bind, plain]
  rfl

/-- What a schema without a reference asks of a document itself. -/
def Own (E : Engine) (s : Dict Str Value) (doc : Value) : Prop :=
  (∀ k, Passes E s doc k) ∧ (Dict.get? s "additionalProperties" = some (.bool false) →
    ∀ v sub, ¬ Additional s doc v sub)

/-- A schema without a reference, once its items and properties are decided. -/
theorem own_decides {s : Dict Str Value} {doc : Value} (plain : Dict.get? s "$ref" = none)
    (formed : Formed s) {P : Prop} (path : Str)
    (inner : Decides (fun n full =>
      innerErrors (validate E root full n) (.dict s) doc path) P) :
    Decides (fun n full => validate E root full n doc (.dict s) path) (Own E s doc ∧ P) := by
  obtain ⟨consts, enums, types, step⟩ := validate_own plain E root doc path
  refine (inner.around fun found => ?_).below step
  rw [gathered_nil, report_nil, report_nil, report_nil, ownErrors_nil, keyErrors_nil, Own,
    ← own_clean formed, closed_clean formed]
  tauto

/-- The items and the properties, each under a schema that settles. -/
theorem inner_decides {s : Dict Str Value} {doc : Value} (formed : Formed s)
    (items : ∀ sub, Dict.get? s "items" = some sub → ∀ v,
      Settles E root v sub (Accepts E root v sub))
    (properties : ∀ props, Dict.get? s "properties" = some (.dict props) →
      ∀ key sub, (key, sub) ∈ props → ∀ v, Settles E root v sub (Accepts E root v sub))
    (path : Str) :
    Decides (fun n full => innerErrors (validate E root full n) (.dict s) doc path)
      ((∀ subs vs, Dict.get? s "items" = some (.list subs) → doc = .list vs → vs = []) ∧
        ∀ v sub, Part s doc v sub → Accepts E root v sub) := by
  cases doc with
  | list vs =>
      simp only [innerErrors, keyword?_dict, ok_bind]
      cases stated : Dict.get? s "items" with
      | none =>
          refine .fixed ⟨fun _ => ⟨?_, ?_⟩, fun _ => rfl⟩
          · rintro subs ws ⟨⟩
          · rintro v sub ⟨here, -, -⟩
            rw [stated] at here
            cases here
      | some sub =>
          refine (items_decide (fun v _ => items sub stated v) path 0).congr ⟨fun all => ⟨?_, ?_⟩, ?_⟩
          · rintro subs ws same here
            cases same
            cases here
            cases vs with
            | nil => rfl
            | cons v vs => cases all v List.mem_cons_self
          · rintro v sub' ⟨here, -, member⟩
            rw [stated] at here
            cases here
            exact all v member
          · rintro ⟨single, parts⟩ v member
            by_cases one : sub.isList = false
            · exact parts v sub (.item stated one member)
            · obtain ⟨subs, rfl⟩ : ∃ subs, sub = .list subs := by
                cases sub <;> simp_all [Value.isList]
              rw [single subs vs rfl rfl] at member
              cases member
  | dict kvs =>
      simp only [innerErrors, getOr_dict, ok_bind]
      cases stated : Dict.get? s "properties" with
      | none =>
          refine .fixed ⟨fun _ => ⟨?_, ?_⟩, fun _ => rfl⟩
          · rintro subs ws - ⟨⟩
          · rintro v sub (_ | ⟨here, -, -⟩)
            rw [stated] at here
            cases here
      | some v =>
          obtain ⟨props, rfl⟩ := formed.properties v stated
          refine (properties_decide (properties props stated) path).congr
            ⟨fun all => ⟨?_, ?_⟩, ?_⟩
          · rintro subs ws - ⟨⟩
          · rintro v sub (_ | ⟨here, member, found⟩)
            rw [stated] at here
            cases here
            exact all _ sub member v found
          · rintro ⟨-, parts⟩ key sub member v found
            exact parts v sub (.property stated member found)
  | _ =>
      refine .fixed ⟨fun _ => ⟨?_, ?_⟩, fun _ => rfl⟩
      · rintro subs ws - ⟨⟩
      · rintro v sub ⟨⟩

theorem accepts_own {s : Dict Str Value} {doc : Value} (plain : Dict.get? s "$ref" = none) :
    Accepts E root doc (.dict s) ↔ Own E s doc ∧
      (∀ subs vs, Dict.get? s "items" = some (.list subs) → doc = .list vs → vs = []) ∧
        ∀ v sub, Part s doc v sub → Accepts E root v sub := by
  constructor
  · rintro (⟨stated, -, -⟩ | ⟨-, passes, closed, single, parts⟩)
    · rw [plain] at stated
      cases stated
    · exact ⟨⟨passes, closed⟩, single, parts⟩
  · rintro ⟨⟨passes, closed⟩, single, parts⟩
    exact .own plain passes closed single parts

theorem accepts_reference {s : Dict Str Value} {ref doc : Value}
    (stated : Dict.get? s "$ref" = some ref) :
    Accepts E root doc (.dict s) ↔ ∃ t, resolve ref root = .ok t ∧ Accepts E root doc t := by
  constructor
  · rintro (⟨here, found, accepts⟩ | ⟨plain, -⟩)
    · rw [stated] at here
      cases here
      exact ⟨_, found, accepts⟩
    · rw [stated] at plain
      cases plain
  · rintro ⟨t, found, accepts⟩
    exact .reference stated found accepts

/-- `validate` ends on every document and every well-formed schema, and finds nothing in the
documents it accepts. -/
theorem WellFormed.settles {schema : Value} (formed : WellFormed root schema) (E : Engine) :
    ∀ doc, Settles E root doc schema (Accepts E root doc schema) := by
  induction formed with
  | boolean b => exact fun doc => boolean_settles E root doc b
  | @reference s r t stated found _ _ _ literal =>
      intro doc path
      rw [accepts_reference stated]
      have step : ∀ n full, validate E root full (n + 1) doc (.dict s) path =
          (do validate E root full n doc (← resolve (.str r) root) path) := by
        intro n full
        rw [validate, keyword?_dict, ok_bind, stated]
      cases read : resolve (.str r) root with
      | error e =>
          have decided : Except.error e = Except.ok ([] : List Text) ↔
              ∃ t, (Except.error e : Except Exc Value) = .ok t ∧ Accepts E root doc t := by
            constructor
            · rintro ⟨⟩
            · rintro ⟨t, ⟨⟩, -⟩
          refine (Decides.fixed decided).below fun n full => ?_
          rw [step, read]
          rfl
      | ok t' =>
          refine ((literal t' read doc path).congr ?_).below fun n full => ?_
          · constructor
            · exact fun accepts => ⟨t', rfl, accepts⟩
            · rintro ⟨t, same, accepts⟩
              cases same
              exact accepts
          · rw [step, read]
            rfl
  | @own s plain formed items _ _ _ itemsSettle _ propertiesSettle _ =>
      intro doc path
      rw [accepts_own plain]
      refine own_decides plain formed path (inner_decides formed (fun sub stated v => ?_)
        (fun props stated key sub member v => propertiesSettle props stated key sub member v) path)
      by_cases one : sub.isList = false
      · exact itemsSettle sub stated one v
      · obtain ⟨subs, rfl⟩ : ∃ subs, sub = .list subs := by
          cases sub <;> simp_all [Value.isList]
        exact list_settles E root v subs

end

end DevGate.SchemaDocument
