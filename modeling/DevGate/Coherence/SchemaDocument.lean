import DevGate.Coherence.Schemacheck
import DevGate.Py.Order

set_option autoImplicit false

/- hub/coherence/schemacheck.py over schemas as they are loaded: JSON documents, whose local
references lead into the root. -/
namespace DevGate.SchemaDocument

open Py
open Schemacheck (JsonType isType isIn validDateTime)

def schemaError : ExcClass := .user "SchemaError" .valueError

/-- `re.fullmatch(pattern, text)`, and whether ECMA-262 finds the pattern in the text. -/
structure Engine where
  fullmatch : Value → Str → Except Exc Bool
  finds : Str → Str → Bool

/-- `key in schema`. -/
def has (schema : Value) (key : Str) : Except Exc Bool :=
  match schema with
  | .dict kvs => .ok (Dict.contains kvs key)
  | .list vs => .ok (isIn (.str key) vs)
  | .str s => .ok (decide (key <:+: s))
  | other => .error ⟨.typeError, ["argument of type '", other.typeName, "' is not iterable"]⟩

/-- `schema[key]`, where `key in schema`. -/
def keyword? (schema : Value) (key : Str) : Except Exc (Option Value) := do
  if ← has schema key then return some (← schema.item key) else return none

/-- `schema.get(key, default)`. -/
def getOr (schema : Value) (key : Str) (default : Value) : Except Exc Value := do
  return (← schema.get key).getD default

/-- `v.items()`. -/
def items (v : Value) : Except Exc (Dict Str Value) :=
  match v with
  | .dict kvs => .ok kvs
  | other => .error ⟨.attributeError, ["'", other.typeName, "' object has no attribute 'items'"]⟩

/-- `doc in v`. -/
def memberOf (doc v : Value) : Except Exc Bool :=
  match v with
  | .list vs => .ok (isIn doc vs)
  | .dict kvs => do
      match ← doc.key with
      | .str name => return Dict.contains kvs name
      | _ => return false
  | .str s =>
      match doc with
      | .str t => .ok (decide (t <:+: s))
      | other => .error ⟨.typeError, ["'in <string>' requires string as left operand, not ",
          other.typeName]⟩
  | other => .error ⟨.typeError, ["argument of type '", other.typeName, "' is not iterable"]⟩

/-- `_resolve`. -/
def resolve (ref root : Value) : Except Exc Value :=
  match ref with
  | .str r =>
      if Str.ofString "#/" <+: r then
        match (Str.split (Chr.ofChar '/') (r.drop 2)).foldlM Value.field? root with
        | some target => .ok target
        | none => .error ⟨schemaError, ["unresolvable $ref: ", .repr ref]⟩
      else .error ⟨schemaError, ["unsupported $ref form: ", .repr ref]⟩
  | other => .error ⟨.attributeError, ["'", other.typeName, "' object has no attribute 'startswith'"]⟩

/-- The keys of `_TYPES`. -/
def typeOf? (name : Str) : Option JsonType :=
  [JsonType.object, .array, .string, .integer, .number, .boolean, .null].find? (fun t => t.name = name)

/-- `_is_type`. -/
def namedType (doc n : Value) : Except Exc Bool := do
  match ← n.key with
  | .str name =>
      match typeOf? name with
      | some t => return isType doc t
      | none => .error ⟨.keyError, [.repr n]⟩
  | _ => .error ⟨.keyError, [.repr n]⟩

def anyType (doc : Value) : List Value → Except Exc Bool
  | [] => .ok false
  | n :: rest => do
      if ← namedType doc n then return true else anyType doc rest

/-- `[tname]`, or `tname` where it is a list. -/
def typeNames (tname : Value) : List Value :=
  match tname with
  | .list names => names
  | name => [name]

/-! What each keyword finds wrong with a document. -/

/-- The value of a keyword, where the document breaks it. -/
def brokenBy (broken : Bool) (value : Value) : List Value := if broken then [value] else []

def constBroken (schema doc : Value) : Except Exc (List Value) := do
  match ← keyword? schema "const" with
  | some c => return brokenBy (!doc.eq c) c
  | none => return []

def enumBroken (schema doc : Value) : Except Exc (List Value) := do
  match ← keyword? schema "enum" with
  | some vs => return brokenBy (!(← memberOf doc vs)) vs
  | none => return []

def typeBroken (schema doc : Value) : Except Exc (List Value) := do
  let tname ← getOr schema "type" .null
  if tname = .null then return []
  else return brokenBy (!(← anyType doc (typeNames tname))) tname

def patternBroken (E : Engine) (schema doc : Value) : Except Exc (List Value) := do
  match doc with
  | .str text =>
      match ← keyword? schema "pattern" with
      | some p => return brokenBy (!(← E.fullmatch p text)) p
      | none => return []
  | _ => return []

/-- `len(doc) < schema[key]`. -/
def shorter (schema : Value) (key : Str) (length : Nat) : Except Exc (List Value) := do
  match ← keyword? schema key with
  | some n => return brokenBy (← Value.lt (.int length) n) n
  | none => return []

def minLengthBroken (schema doc : Value) : Except Exc (List Value) :=
  match doc with
  | .str text => shorter schema "minLength" text.length
  | _ => .ok []

def formatBroken (schema doc : Value) : Except Exc (List Value) := do
  match doc with
  | .str text =>
      let format ← getOr schema "format" .null
      if (← format.key) = .str "date-time" then return brokenBy (!validDateTime text) format
      else return []
  | _ => return []

def minimumBroken (schema doc : Value) : Except Exc (List Value) := do
  if isType doc .number then
    match ← keyword? schema "minimum" with
    | some m => return brokenBy (← doc.lt m) m
    | none => return []
  else return []

def minItemsBroken (schema doc : Value) : Except Exc (List Value) :=
  match doc with
  | .list vs => shorter schema "minItems" vs.length
  | _ => .ok []

/-- `name not in doc`. -/
def lacks (kvs : Dict Str Value) (name : Value) : Except Exc Bool := do
  match ← name.key with
  | .str key => return !Dict.contains kvs key
  | _ => return true

/-- The names that an object lacks. -/
def lacking (kvs : Dict Str Value) : List Value → Except Exc (List Value)
  | [] => .ok []
  | name :: rest => do
      let here := brokenBy (← lacks kvs name) name
      return here ++ (← lacking kvs rest)

def requiredBroken (schema doc : Value) : Except Exc (List Value) := do
  match doc with
  | .dict kvs => lacking kvs (← (← getOr schema "required" (.list [])).iter)
  | _ => return []

/-- The names that a rule obliges and an object lacks, each with the rule's trigger. -/
def obliged (kvs : Dict Str Value) : Dict Str Value → Except Exc (List (Str × Value))
  | [] => .ok []
  | (trigger, needed) :: rest => do
      if Dict.contains kvs trigger then
        let here ← lacking kvs (← needed.iter)
        return here.map (fun name => (trigger, name)) ++ (← obliged kvs rest)
      else obliged kvs rest

def dependentBroken (schema doc : Value) : Except Exc (List (Str × Value)) := do
  match doc with
  | .dict kvs => obliged kvs (← items (← getOr schema "dependentRequired" (.dict [])))
  | _ => return []

/-- The keys that are in no property. -/
def outside (props : Value) : List Str → Except Exc (List Str)
  | [] => .ok []
  | key :: rest => do
      if ← has props key then outside props rest else return key :: (← outside props rest)

def additionalBroken (schema doc : Value) : Except Exc (List Str) := do
  match doc with
  | .dict kvs =>
      let props ← getOr schema "properties" (.dict [])
      if (← getOr schema "additionalProperties" .null) = .bool false then
        outside props (kvs.map Prod.fst)
      else return []
  | _ => return []

/-! The checker. -/

/-- `errs.append(...)`, for what a keyword found. -/
def report {α : Type} (found : Except Exc (List α)) (message : α → Text) : Except Exc (List Text) := do
  return (← found).map message

/-- `len(doc)`. -/
def len (doc : Value) : Int :=
  match doc with
  | .str text => text.length
  | .list vs => vs.length
  | .dict kvs => kvs.length
  | _ => 0

/-- The own errors of a document, without those of its items and properties. -/
def ownErrors (E : Engine) (schema doc : Value) (path : Str) : Except Exc (List Text) := do
  let texts ← report (patternBroken E schema doc) (fun p =>
    [path, ": ", .repr doc, " does not match pattern ", .repr p])
  let lengths ← report (minLengthBroken schema doc) (fun n =>
    [path, ": length ", .str (.int (len doc)), " below minLength ", .str n])
  let formats ← report (formatBroken schema doc) (fun f =>
    [path, ": ", .repr doc, " is not a valid ", .str f])
  let numbers ← report (minimumBroken schema doc) (fun m =>
    [path, ": ", .str doc, " below minimum ", .str m])
  let sizes ← report (minItemsBroken schema doc) (fun n =>
    [path, ": ", .str (.int (len doc)), " items below minItems ", .str n])
  return texts ++ lengths ++ formats ++ numbers ++ sizes

def keyErrors (schema doc : Value) (path : Str) : Except Exc (List Text) := do
  let required ← report (requiredBroken schema doc) (fun name =>
    [path, ": missing required property ", .repr name])
  let dependent ← report (dependentBroken schema doc) (fun rule =>
    [path, ": property ", .repr rule.2, " is required when ", .repr (.str rule.1),
      " is present (dependentRequired)"])
  let closed ← report (additionalBroken schema doc) (fun key =>
    [path, ": unexpected property ", .repr (.str key), " (additionalProperties: false)"])
  return required ++ dependent ++ closed

section

variable (recurse : Value → Value → Str → Except Exc (List Text))

def eachItem (sub : Value) (path : Str) : Nat → List Value → Except Exc (List Text)
  | _, [] => .ok []
  | i, v :: rest => do
      let here ← recurse v sub (path ++ "[" ++ Str.ofNat i ++ "]")
      return here ++ (← eachItem sub path (i + 1) rest)

def eachProperty (kvs : Dict Str Value) (path : Str) : Dict Str Value → Except Exc (List Text)
  | [] => .ok []
  | (key, sub) :: rest =>
      match Dict.get? kvs key with
      | some v => do
          let here ← recurse v sub (path ++ "." ++ key)
          return here ++ (← eachProperty kvs path rest)
      | none => eachProperty kvs path rest

/-- The errors of the items, or of the properties. -/
def innerErrors (schema doc : Value) (path : Str) : Except Exc (List Text) := do
  match doc with
  | .list vs =>
      match ← keyword? schema "items" with
      | some sub => eachItem recurse sub path 0 vs
      | none => return []
  | .dict kvs => eachProperty recurse kvs path (← items (← getOr schema "properties" (.dict [])))
  | _ => return []

end

/-- `validate`. A call past the end of the stack does `full`, and a run that never gets there
does not depend on it. -/
def validate (E : Engine) (root : Value) (full : Except Exc (List Text)) :
    Nat → Value → Value → Str → Except Exc (List Text)
  | 0, _, _, _ => full
  | depth + 1, doc, schema, path => do
      match ← keyword? schema "$ref" with
      | some ref => validate E root full depth doc (← resolve ref root) path
      | none =>
          let consts ← report (constBroken schema doc) (fun c =>
            [path, ": expected const ", .repr c, ", got ", .repr doc])
          let enums ← report (enumBroken schema doc) (fun vs =>
            [path, ": ", .repr doc, " not in enum ", .repr vs])
          let types ← report (typeBroken schema doc) (fun t =>
            [path, ": expected type ", .repr t, ", got ", doc.typeName])
          -- a type mismatch ends the checks
          if types ≠ [] then return consts ++ enums ++ types
          else
            let own ← ownErrors E schema doc path
            let keys ← keyErrors schema doc path
            let inner ← innerErrors (validate E root full depth) schema doc path
            return consts ++ enums ++ own ++ keys ++ inner

end DevGate.SchemaDocument
