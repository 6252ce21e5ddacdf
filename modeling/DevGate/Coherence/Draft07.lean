import DevGate.Coherence.SchemaDocument
import DevGate.Py.Hmac
import DevGate.Py.Utf8

set_option autoImplicit false

/- What the supported keywords mean in JSON Schema draft-07. A schema is one document: `$id`
only names it. -/
namespace DevGate.Draft07

open Py
open Schemacheck (JsonType isType)
open SchemaDocument (Engine typeNames)

def number? : Value → Option Flt
  | .int n => some (.fin n)
  | .float x => some x
  | _ => none

mutual

/-- JSON equality: numbers by value, and no boolean is a number. -/
def jsonSame : Value → Value → Bool
  | .null, .null => true
  | .bool a, .bool b => a == b
  | .str a, .str b => a == b
  | .list a, .list b => sameItems a b
  | .dict a, .dict b => a.length == b.length && sameMembers a b
  | v, w =>
      match number? v, number? w with
      | some a, some b => a == b
      | _, _ => false

def sameItems : List Value → List Value → Bool
  | [], [] => true
  | v :: vs, w :: ws => jsonSame v w && sameItems vs ws
  | _, _ => false

def sameMembers : List (Str × Value) → List (Str × Value) → Bool
  | [], _ => true
  | (k, v) :: rest, other =>
      (match Dict.get? other k with
        | some w => jsonSame v w
        | none => false) && sameMembers rest other

end

/-- A number without a fraction is an integer, however it is written. -/
def hasType (doc : Value) : JsonType → Bool
  | .integer => match doc with
      | .int _ => true
      | .float (.fin q) => q.den == 1
      | _ => false
  | t => isType doc t

/-! Dates and times of RFC 3339. -/

def mark? (mark : Char) (s : Str) : Option Str :=
  match s with
  | c :: rest => if c = Chr.ofChar mark then some rest else none
  | [] => none

def eitherMark? (upper lower : Char) (s : Str) : Option Str := (mark? upper s).or (mark? lower s)

/-- `["." 1*DIGIT]`: what follows it. -/
def fraction? (s : Str) : Option Str :=
  match mark? '.' s with
  | some rest =>
      match rest.span (fun c => c.digit?.isSome) with
      | ([], _) => none
      | (_ :: _, after) => some after
  | none => some s

/-- `time-offset`, in minutes, at the end of the text. -/
def offset? (s : Str) : Option Int :=
  if eitherMark? 'Z' 'z' s = some [] then some 0
  else do
    let (sign, s) ← ((mark? '+' s).map (fun s => ((1 : Int), s))).or
      ((mark? '-' s).map (fun s => (-1, s)))
    let (hour, s) ← Str.digits? 2 s
    let s ← mark? ':' s
    let (minute, s) ← Str.digits? 2 s
    if s = [] ∧ hour ≤ 23 ∧ minute ≤ 59 then some (sign * (60 * hour + minute)) else none

def dateRead (s : Str) : Option Str := do
  let (year, s) ← Str.digits? 4 s
  let s ← mark? '-' s
  let (month, s) ← Str.digits? 2 s
  let s ← mark? '-' s
  let (day, s) ← Str.digits? 2 s
  if 1 ≤ month ∧ month ≤ 12 ∧ 1 ≤ day ∧ day ≤ Datetime.daysInMonth year month then some s else none

def timeRead (s : Str) : Option (Nat × Nat × Nat × Int) := do
  let (hour, s) ← Str.digits? 2 s
  let s ← mark? ':' s
  let (minute, s) ← Str.digits? 2 s
  let s ← mark? ':' s
  let (second, s) ← Str.digits? 2 s
  return (hour, minute, second, ← offset? (← fraction? s))

/-- `date-time`. A leap second is the last one of a day in UTC. -/
def rfc3339 (s : Str) : Bool :=
  match (do timeRead (← eitherMark? 'T' 't' (← dateRead s))) with
  | some (hour, minute, second, offset) =>
      hour ≤ 23 && minute ≤ 59 &&
        (second ≤ 59 ||
          (second == 60 && (60 * (hour : Int) + (minute : Int) - offset) % 1440 == 1439))
  | none => false

/-! JSON pointers in URI fragments. -/

/-- The text of a fragment, whose percent-encoded bytes are UTF-8; `run` has not been read yet. -/
def percentDecode (run : Bytes) : Str → Option Str
  | [] => (Utf8.decode false run).toOption
  | c :: rest =>
      if c = Chr.ofChar '%' then
        match rest with
        | high :: low :: rest => do
            percentDecode (run ++ [UInt8.ofNat (16 * (← hexValue? high) + (← hexValue? low))]) rest
        | _ => none
      else do return (← (Utf8.decode false run).toOption) ++ c :: (← percentDecode [] rest)

/-- `~1` is a slash and `~0` a tilde. -/
def unescape : Str → Option Str
  | [] => some []
  | c :: rest =>
      if c = Chr.ofChar '~' then
        match rest with
        | d :: rest =>
            if d = Chr.ofChar '0' then (unescape rest).map (Chr.ofChar '~' :: ·)
            else if d = Chr.ofChar '1' then (unescape rest).map (Chr.ofChar '/' :: ·)
            else none
        | [] => none
      else (unescape rest).map (c :: ·)

/-- An array index: no sign, and no leading zero. -/
def index? (token : Str) : Option Nat :=
  if token = Str.ofString "0" then some 0
  else if token.head? = some (Chr.ofChar '0') then none
  else Str.number? token

def step (v : Value) (token : Str) : Option Value :=
  match v with
  | .dict kvs => do Dict.get? kvs (← unescape token)
  | .list vs => do vs[← index? token]?
  | _ => none

/-- The member of a document that a pointer names. -/
def locate (root : Value) (pointer : Str) : Option Value :=
  if pointer = [] then some root
  else do (Str.split (Chr.ofChar '/') (← mark? '/' pointer)).foldlM step root

/-- What a local reference refers to. -/
def target (root : Value) (ref : Str) : Option Value := do
  locate root (← percentDecode [] (← mark? '#' ref))

/-! Validity. -/

inductive Keyword where
  | const
  | enum
  | type
  | pattern
  | minLength
  | format
  | minimum
  | minItems
  | required
  | dependentRequired

/-- `v` is a number below the bound. -/
def Below (v bound : Value) : Prop :=
  ∃ a b, number? v = some a ∧ number? bound = some b ∧ a.lt b = true

/-- The document satisfies a keyword of the schema, where the schema has it. -/
def Meets (E : Engine) (s : Dict Str Value) (doc : Value) : Keyword → Prop
  | .const => ∀ c, Dict.get? s "const" = some c → jsonSame doc c = true
  | .enum => ∀ vs, Dict.get? s "enum" = some (.list vs) → ∃ v ∈ vs, jsonSame doc v = true
  | .type => ∀ t, Dict.get? s "type" = some t →
      ∃ k : JsonType, .str k.name ∈ typeNames t ∧ hasType doc k = true
  | .pattern => ∀ p text, Dict.get? s "pattern" = some (.str p) → doc = .str text →
      E.finds p text = true
  | .minLength => ∀ n text, Dict.get? s "minLength" = some n → doc = .str text →
      ¬ Below (.int text.length) n
  | .format => ∀ text, Dict.get? s "format" = some (.str "date-time") → doc = .str text →
      rfc3339 text = true
  | .minimum => ∀ m, Dict.get? s "minimum" = some m → ¬ Below doc m
  | .minItems => ∀ n vs, Dict.get? s "minItems" = some n → doc = .list vs →
      ¬ Below (.int vs.length) n
  | .required => ∀ names kvs, Dict.get? s "required" = some (.list names) → doc = .dict kvs →
      ∀ name : Str, .str name ∈ names → Dict.contains kvs name = true
  | .dependentRequired => ∀ rules kvs, Dict.get? s "dependentRequired" = some (.dict rules) →
      doc = .dict kvs → ∀ trigger names, (trigger, .list names) ∈ rules →
        Dict.contains kvs trigger = true → ∀ name : Str, .str name ∈ names →
          Dict.contains kvs name = true

/-- A part of the document to which one schema for all items, or the schema of a property,
applies. -/
inductive Part (s : Dict Str Value) : Value → Value → Value → Prop where
  | item {vs : List Value} {v sub : Value} (stated : Dict.get? s "items" = some sub)
      (one : sub.isList = false) (member : v ∈ vs) : Part s (.list vs) v sub
  | property {props kvs : Dict Str Value} {key : Str} {v sub : Value}
      (stated : Dict.get? s "properties" = some (.dict props)) (member : (key, sub) ∈ props)
      (found : Dict.get? kvs key = some v) : Part s (.dict kvs) v sub

/-- An item with a schema of its own. -/
inductive Positional (s : Dict Str Value) : Value → Value → Value → Prop where
  | item {vs subs : List Value} {i : Nat} {v sub : Value}
      (stated : Dict.get? s "items" = some (.list subs)) (item : vs[i]? = some v)
      (schema : subs[i]? = some sub) : Positional s (.list vs) v sub

/-- The keys in `properties`. -/
def Named (s : Dict Str Value) (key : Str) : Prop :=
  ∃ props, Dict.get? s "properties" = some (.dict props) ∧ Dict.contains props key = true

/-- A member that is no named property. -/
inductive Additional (s : Dict Str Value) : Value → Value → Value → Prop where
  | member {kvs : Dict Str Value} {key : Str} {v sub : Value}
      (stated : Dict.get? s "additionalProperties" = some sub) (found : Dict.get? kvs key = some v)
      (unnamed : ¬ Named s key) : Additional s (.dict kvs) v sub

/-- `doc` is valid under a schema. -/
inductive Valid (E : Engine) (root : Value) : Value → Value → Prop where
  | anything (doc : Value) : Valid E root doc (.bool true)
  | reference {s : Dict Str Value} {r : Str} {t doc : Value}
      (stated : Dict.get? s "$ref" = some (.str r)) (found : target root r = some t)
      (valid : Valid E root doc t) : Valid E root doc (.dict s)
  | own {s : Dict Str Value} {doc : Value} (plain : Dict.get? s "$ref" = none)
      (meets : ∀ k, Meets E s doc k) (parts : ∀ v sub, Part s doc v sub → Valid E root v sub)
      (items : ∀ v sub, Positional s doc v sub → Valid E root v sub)
      (others : ∀ v sub, Additional s doc v sub → Valid E root v sub) : Valid E root doc (.dict s)

end DevGate.Draft07
