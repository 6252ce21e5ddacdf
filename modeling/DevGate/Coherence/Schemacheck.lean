import DevGate.Py.Datetime
import DevGate.Py.Re

set_option autoImplicit false

/- hub/coherence/schemacheck.py: the checker for the frozen contracts. A local
`$ref` is the definition it names. -/
namespace DevGate.Schemacheck

open Py

inductive JsonType where
  | object
  | array
  | string
  | integer
  | number
  | boolean
  | null
  deriving DecidableEq

def JsonType.name : JsonType → Str
  | .object => "object"
  | .array => "array"
  | .string => "string"
  | .integer => "integer"
  | .number => "number"
  | .boolean => "boolean"
  | .null => "null"

def isType (val : Value) : JsonType → Bool
  | .object => val.isDict
  | .array => val.isList
  | .string => val.isStr
  | .integer => match val with
      | .int _ => true
      | _ => false
  | .number => match val with
      | .int _ => true
      | .float _ => true
      | _ => false
  | .boolean => match val with
      | .bool _ => true
      | _ => false
  | .null => val == .null

/-- The `type` keyword: one name, or a list of them. -/
inductive TypeSpec where
  | one (t : JsonType)
  | anyOf (ts : List JsonType)

def TypeSpec.names : TypeSpec → List JsonType
  | .one t => [t]
  | .anyOf ts => ts

def TypeSpec.shown : TypeSpec → Value
  | .one t => .str t.name
  | .anyOf ts => .list (ts.map (fun t => .str t.name))

structure Pattern where
  source : Str
  re : Re

/-- The keywords that hold no schema. -/
structure Keywords where
  type : Option TypeSpec := none
  const : Option Value := none
  enum : Option (List Value) := none
  pattern : Option Pattern := none
  minLength : Option Nat := none
  dateTime : Bool := false
  minimum : Option Int := none
  minItems : Option Nat := none
  required : List Str := []
  dependentRequired : List (Str × List Str) := []
  closed : Bool := false

structure Schema extends Keywords where
  items : Option Schema := none
  properties : List (Str × Schema) := []

/-- `item in items`. -/
def isIn (item : Value) (items : List Value) : Bool := items.any (fun v => v.same item)

def validDateTime (val : Str) : Bool :=
  match Datetime.fromisoformat (val.replace (Chr.ofChar 'Z') "+00:00") with
  | .ok parsed => parsed.offset.isSome
  | .error _ => false

/-- `errs.append(message)`. -/
def violation (message : Text) : List Text := [message]

/-- The `const` and `enum` keywords. -/
def valueErrors (s : Keywords) (doc : Value) (path : Str) : List Text :=
  (match s.const with
    | some c =>
        if doc.eq c then [] else violation [path, ": expected const ", .repr c, ", got ", .repr doc]
    | none => []) ++
  (match s.enum with
    | some vs =>
        if isIn doc vs then [] else violation [path, ": ", .repr doc, " not in enum ", .repr (.list vs)]
    | none => [])

def typeErrors (s : Keywords) (doc : Value) (path : Str) : List Text :=
  match s.type with
  | some spec =>
      if spec.names.any (isType doc) then []
      else violation [path, ": expected type ", .repr spec.shown, ", got ", doc.typeName]
  | none => []

/-- The keywords on strings. -/
def textErrors (s : Keywords) (doc : Value) (path : Str) : List Text :=
  match doc with
  | .str text =>
      (match s.pattern with
        | some p =>
            if p.re.fullmatch text then []
            else violation [path, ": ", .repr doc, " does not match pattern ", .repr (.str p.source)]
        | none => []) ++
      (match s.minLength with
        | some n =>
            if text.length < n then
              violation [path, ": length ", .str (.int text.length), " below minLength ", .str (.int n)]
            else []
        | none => []) ++
      (if s.dateTime && !validDateTime text then
        violation [path, ": ", .repr doc, " is not a valid ", "date-time"]
      else [])
  | _ => []

/-- `x < n`. -/
def fltBelow (x : Flt) (n : Int) : Bool :=
  match x with
  | .fin q => q < n
  | .inf negative => negative
  | .nan => false

/-- The `minimum` keyword, on numbers that are not booleans. -/
def numberErrors (s : Keywords) (doc : Value) (path : Str) : List Text :=
  match s.minimum with
  | some n =>
      let below := match doc with
        | .int m => decide (m < n)
        | .float x => fltBelow x n
        | _ => false
      if below then violation [path, ": ", .str doc, " below minimum ", .str (.int n)] else []
  | none => []

def sizeErrors (s : Keywords) (vs : List Value) (path : Str) : List Text :=
  match s.minItems with
  | some n =>
      if vs.length < n then
        violation [path, ": ", .str (.int vs.length), " items below minItems ", .str (.int n)]
      else []
  | none => []

/-- `required`, `dependentRequired` and `additionalProperties: false`. -/
def keyErrors (s : Keywords) (properties : List Str) (kvs : List (Str × Value)) (path : Str) : List Text :=
  s.required.flatMap (fun req =>
    if Dict.contains kvs req then []
    else violation [path, ": missing required property ", .repr (.str req)]) ++
  s.dependentRequired.flatMap (fun rule =>
    if Dict.contains kvs rule.1 then
      rule.2.flatMap (fun name =>
        if Dict.contains kvs name then []
        else violation [path, ": property ", .repr (.str name), " is required when ", .repr (.str rule.1),
          " is present (dependentRequired)"])
    else []) ++
  (if s.closed then
    kvs.flatMap (fun kv =>
      if kv.1 ∈ properties then []
      else violation [path, ": unexpected property ", .repr (.str kv.1), " (additionalProperties: false)"])
  else [])

mutual

/-- The violations of `s` by `doc`; none means valid. -/
def validate (s : Schema) (doc : Value) (path : Str) : List Text :=
  match s with
  | .mk s items properties =>
      valueErrors s doc path ++
        -- a type mismatch ends the checks
        (if typeErrors s doc path ≠ [] then typeErrors s doc path
        else textErrors s doc path ++ numberErrors s doc path ++
          (match doc with
            | .list vs => sizeErrors s vs path ++ validateItems items vs path
            | .dict kvs =>
                keyErrors s (properties.map Prod.fst) kvs path ++
                  validateProperties properties kvs path
            | _ => []))

def validateItems (items : Option Schema) (vs : List Value) (path : Str) : List Text :=
  match items with
  | some s => (vs.mapIdx (fun i v => validate s v (path ++ "[" ++ Str.ofNat i ++ "]"))).flatten
  | none => []

def validateProperties (properties : List (Str × Schema)) (kvs : List (Str × Value)) (path : Str) :
    List Text :=
  match properties with
  | [] => []
  | (key, sub) :: rest =>
      (match Dict.get? kvs key with
        | some v => validate sub v (path ++ "." ++ key)
        | none => []) ++ validateProperties rest kvs path

end

/-- `schemacheck.validate(doc, schema)` finds nothing, wherever it starts. -/
def Accepts (s : Schema) (doc : Value) : Prop := ∃ path, validate s doc path = []

/-- What an accepted document has passed, keyword by keyword. -/
theorem Accepts.checked {s : Schema} {doc : Value} (accepted : Accepts s doc) :
    ∃ path, valueErrors s.toKeywords doc path = [] ∧ typeErrors s.toKeywords doc path = [] ∧
      textErrors s.toKeywords doc path = [] ∧ numberErrors s.toKeywords doc path = [] ∧
      (∀ vs, doc = .list vs →
        sizeErrors s.toKeywords vs path = [] ∧ validateItems s.items vs path = []) ∧
      (∀ kvs, doc = .dict kvs →
        keyErrors s.toKeywords (s.properties.map Prod.fst) kvs path = [] ∧
          validateProperties s.properties kvs path = []) := by
  obtain ⟨path, clean⟩ := accepted
  obtain ⟨s, items, properties⟩ := s
  unfold validate at clean
  obtain ⟨values, rest⟩ := List.append_eq_nil_iff.mp clean
  split at rest
  · rename_i mismatch
    exact absurd rest mismatch
  · rename_i typed
    obtain ⟨rest, inner⟩ := List.append_eq_nil_iff.mp rest
    obtain ⟨texts, numbers⟩ := List.append_eq_nil_iff.mp rest
    refine ⟨path, values, not_not.mp typed, texts, numbers, ?_, ?_⟩
    · rintro vs rfl
      exact List.append_eq_nil_iff.mp inner
    · rintro kvs rfl
      exact List.append_eq_nil_iff.mp inner

theorem Accepts.type {s : Schema} {doc : Value} (accepted : Accepts s doc) {t : JsonType}
    (stated : s.type = some (.one t)) : isType doc t = true := by
  obtain ⟨path, -, typed, -⟩ := accepted.checked
  simp only [typeErrors, stated, TypeSpec.names, List.any_cons, List.any_nil, Bool.or_false]
    at typed
  split at typed
  · assumption
  · cases typed

theorem Accepts.enum {s : Schema} {doc : Value} (accepted : Accepts s doc) {vs : List Value}
    (stated : s.enum = some vs) : isIn doc vs = true := by
  obtain ⟨path, values, -⟩ := accepted.checked
  simp only [valueErrors, stated, List.append_eq_nil_iff] at values
  have listed := values.2
  split at listed
  · assumption
  · cases listed

theorem Accepts.pattern {s : Schema} {text : Str} (accepted : Accepts s (.str text)) {p : Pattern}
    (stated : s.pattern = some p) : p.re.fullmatch text = true := by
  obtain ⟨path, -, -, texts, -⟩ := accepted.checked
  simp only [textErrors, stated, List.append_eq_nil_iff] at texts
  have matched := texts.1.1
  split at matched
  · assumption
  · cases matched

theorem Accepts.dateTime {s : Schema} {text : Str} (accepted : Accepts s (.str text))
    (stated : s.dateTime = true) : validDateTime text = true := by
  obtain ⟨path, -, -, texts, -⟩ := accepted.checked
  simp only [textErrors, stated, List.append_eq_nil_iff] at texts
  have format := texts.2
  split at format
  · cases format
  · rename_i fine
    simpa using fine

theorem Accepts.minimum {s : Schema} {m : Int} (accepted : Accepts s (.int m)) {n : Int}
    (stated : s.minimum = some n) : n ≤ m := by
  obtain ⟨path, -, -, -, numbers, -⟩ := accepted.checked
  simp only [numberErrors, stated] at numbers
  split at numbers
  · cases numbers
  · rename_i above
    simpa using above

theorem Accepts.items {s sub : Schema} {vs : List Value} (accepted : Accepts s (.list vs))
    (stated : s.items = some sub) : ∀ v ∈ vs, Accepts sub v := by
  obtain ⟨path, -, -, -, -, lists, -⟩ := accepted.checked
  have each := (lists vs rfl).2
  rw [stated, validateItems, List.flatten_eq_nil_iff] at each
  intro v member
  obtain ⟨i, inside, found⟩ := List.getElem_of_mem member
  refine ⟨path ++ "[" ++ Str.ofNat i ++ "]", each _ ?_⟩
  rw [List.mem_mapIdx]
  exact ⟨i, inside, by rw [found]⟩

theorem Accepts.required {s : Schema} {kvs : List (Str × Value)} (accepted : Accepts s (.dict kvs))
    {key : Str} (stated : key ∈ s.required) : ∃ v, Dict.get? kvs key = some v := by
  obtain ⟨path, -, -, -, -, -, dicts⟩ := accepted.checked
  have keys := (dicts kvs rfl).1
  simp only [keyErrors, List.append_eq_nil_iff, List.flatMap_eq_nil_iff] at keys
  have present := keys.1.1 key stated
  split at present
  · rename_i there
    exact Option.isSome_iff_exists.mp there
  · cases present

theorem validateProperties_nil {properties : List (Str × Schema)} {kvs : List (Str × Value)}
    {path : Str} (clean : validateProperties properties kvs path = []) {key : Str} {sub : Schema}
    (stated : (key, sub) ∈ properties) {v : Value} (found : Dict.get? kvs key = some v) :
    Accepts sub v := by
  induction properties with
  | nil => cases stated
  | cons property rest ih =>
      obtain ⟨name, inner⟩ := property
      unfold validateProperties at clean
      obtain ⟨here, later⟩ := List.append_eq_nil_iff.mp clean
      rcases List.mem_cons.mp stated with same | member
      · cases same
        rw [found] at here
        exact ⟨_, here⟩
      · exact ih later member

theorem Accepts.property {s sub : Schema} {kvs : List (Str × Value)}
    (accepted : Accepts s (.dict kvs)) {key : Str} (stated : (key, sub) ∈ s.properties)
    {v : Value} (found : Dict.get? kvs key = some v) : Accepts sub v := by
  obtain ⟨path, -, -, -, -, -, dicts⟩ := accepted.checked
  exact validateProperties_nil (dicts kvs rfl).2 stated found

/-- A property that a document has satisfies its own schema. -/
theorem Accepts.lookup {s sub : Schema} {kvs : List (Str × Value)} {key : Str} {v : Value}
    (accepted : Accepts s (.dict kvs)) (found : Dict.get? kvs key = some v)
    (stated : Dict.get? s.properties key = some sub) : Accepts sub v :=
  accepted.property (Dict.mem_of_get? stated) found

theorem isType_object {v : Value} (typed : isType v .object = true) : ∃ kvs, v = .dict kvs := by
  cases v <;> simp_all [isType, Value.isDict]

theorem isType_array {v : Value} (typed : isType v .array = true) : ∃ vs, v = .list vs := by
  cases v <;> simp_all [isType, Value.isList]

theorem isType_string {v : Value} (typed : isType v .string = true) : ∃ text, v = .str text := by
  cases v <;> simp_all [isType, Value.isStr]

theorem isType_integer {v : Value} (typed : isType v .integer = true) : ∃ n, v = .int n := by
  cases v <;> simp_all [isType]

/-- A required property of a document is there, and satisfies its own schema. -/
theorem Accepts.field {s sub : Schema} {kvs : List (Str × Value)}
    (accepted : Accepts s (.dict kvs)) (key : Str) (needed : key ∈ s.required)
    (stated : Dict.get? s.properties key = some sub) :
    ∃ v, Dict.get? kvs key = some v ∧ Accepts sub v := by
  obtain ⟨v, found⟩ := accepted.required needed
  exact ⟨v, found, accepted.property (Dict.mem_of_get? stated) found⟩

theorem validateProperties_clean {properties : List (Str × Schema)} {kvs : List (Str × Value)}
    (path : Str) (each : ∀ key sub, (key, sub) ∈ properties → ∀ v, Dict.get? kvs key = some v →
      ∀ path, validate sub v path = []) : validateProperties properties kvs path = [] := by
  induction properties with
  | nil => simp [validateProperties]
  | cons property rest ih =>
      obtain ⟨key, sub⟩ := property
      unfold validateProperties
      rw [ih (fun key sub member => each key sub (List.mem_cons_of_mem _ member)), List.append_nil]
      split
      · rename_i v found
        exact each key sub List.mem_cons_self v found _
      · rfl

/-- An object with the right keys, each property valid, is valid. -/
theorem validate_object {s : Schema} {kvs : List (Str × Value)}
    (shape : ∀ path, valueErrors s.toKeywords (.dict kvs) path = [] ∧
      typeErrors s.toKeywords (.dict kvs) path = [] ∧
      keyErrors s.toKeywords (s.properties.map Prod.fst) kvs path = [])
    (numberless : s.minimum = none)
    (each : ∀ key sub, (key, sub) ∈ s.properties → ∀ v, Dict.get? kvs key = some v →
      ∀ path, validate sub v path = []) (path : Str) : validate s (.dict kvs) path = [] := by
  obtain ⟨s, items, properties⟩ := s
  obtain ⟨values, typed, keys⟩ := shape path
  have numbers : numberErrors s (.dict kvs) path = [] := by
    simp only at numberless
    simp only [numberErrors, numberless]
  unfold validate
  simp only at values typed keys each
  simp only [values, typed, keys, numbers, textErrors, validateProperties_clean path each, ne_eq,
    not_true_eq_false, ↓reduceIte, List.append_nil]

end DevGate.Schemacheck
