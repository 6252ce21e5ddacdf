import DevGate.Py.Utf8

set_option autoImplicit false

/- `json.loads` of a text, after the C scanner of the standard library. -/
namespace Py.Json

/-- What stops the scanner: a JSONDecodeError where `left` characters remain, or
another exception. -/
inductive Fault where
  | decode (msg : Str) (left : Nat)
  | raise (e : Exc)

/-- A scanner answers what it read, and the text after it. -/
abbrev Scan := Except Fault

def at_ {α : Type} (msg : Str) (text : Str) : Scan (α × Str) := .error (.decode msg text.length)

def isBlank (c : Chr) : Bool :=
  c == (' ' : Char) || c == ('\t' : Char) || c == ('\n' : Char) || c == ('\r' : Char)

def skip : Str → Str
  | [] => []
  | c :: rest => if isBlank c then skip rest else c :: rest

def isDigit (c : Chr) : Bool := 48 ≤ c.val && c.val ≤ 57

/-- The longest run of digits, and the text after it. -/
def digits : Str → Str × Str
  | [] => ([], [])
  | c :: rest => if isDigit c then (c :: (digits rest).1, (digits rest).2) else ([], c :: rest)

def natOf (ds : Str) : Nat := ds.foldl (fun n c => n * 10 + (c.val - 48)) 0

/-- Round to the nearest integer, ties to even. -/
def roundEven (q : Rat) : Int :=
  let low := q.floor
  let part := q - low
  if part < 1 / 2 then low
  else if 1 / 2 < part then low + 1
  else if low % 2 = 0 then low else low + 1

/-- The double nearest to a number. -/
def double (q : Rat) : Flt :=
  if q = 0 then .fin 0
  else
    let ulp : Rat := 2 ^ (max (Int.log 2 |q|) (-1022) - 52)
    let v := roundEven (q / ulp) * ulp
    if 2 ^ 1024 ≤ |v| then .inf (q < 0) else .fin v

/-- The longest text `int` accepts. -/
def maxDigits : Nat := 4300

def intOf (negative : Bool) (ds : Str) : Scan Value :=
  if maxDigits < ds.length then
    .error (.raise ⟨.valueError, ["Exceeds the limit (4300 digits) for integer string conversion: ",
      "value has ", .str (.int ds.length), " digits; ",
      "use sys.set_int_max_str_digits() to increase the limit"]⟩)
  else .ok (.int (if negative then -(natOf ds : Int) else natOf ds))

/-- `-?(0|[1-9][0-9]*)`, without the sign. -/
def intPart : Str → Option (Str × Str)
  | [] => none
  | c :: rest =>
      if c = ('0' : Char) then some ([c], rest)
      else if isDigit c then some (c :: (digits rest).1, (digits rest).2)
      else none

/-- `\.[0-9]+`, where it follows. -/
def fracPart : Str → Option (Str × Str)
  | [] => none
  | c :: rest =>
      if c = ('.' : Char) ∧ (digits rest).1 ≠ [] then some (digits rest) else none

/-- `[-+]?[0-9]+`, where it follows. -/
def exponent : Str → Option (Int × Str)
  | [] => none
  | c :: rest =>
      let signed := c = ('-' : Char) ∨ c = ('+' : Char)
      let (ds, after) := if signed then digits rest else digits (c :: rest)
      if ds = [] then none
      else some (if c = ('-' : Char) then -(natOf ds : Int) else natOf ds, after)

/-- `[eE][-+]?[0-9]+`, where it follows. -/
def expPart : Str → Option (Int × Str)
  | [] => none
  | c :: rest => if c = ('e' : Char) ∨ c = ('E' : Char) then exponent rest else none

/-- The number of a sign, integer digits, fraction digits and exponent. -/
def floatOf (negative : Bool) (ds fraction : Str) (power : Int) : Value :=
  let size : Rat := natOf (ds ++ fraction) * (10 : Rat) ^ (power - fraction.length)
  .float (double (if negative then -size else size))

/-- `_match_number`; `whole` is the text the number starts in, sign included. -/
def number (whole : Str) (negative : Bool) (text : Str) : Scan (Value × Str) :=
  match intPart text with
  | none => at_ "Expecting value" whole
  | some (ds, rest) =>
      match fracPart rest with
      | some (fraction, rest) =>
          match expPart rest with
          | some (power, rest) => .ok (floatOf negative ds fraction power, rest)
          | none => .ok (floatOf negative ds fraction 0, rest)
      | none =>
          match expPart rest with
          | some (power, rest) => .ok (floatOf negative ds [] power, rest)
          | none => (intOf negative ds).map (fun n => (n, rest))

def hexVal (c : Chr) : Option Nat :=
  if 48 ≤ c.val ∧ c.val ≤ 57 then some (c.val - 48)
  else if 97 ≤ c.val ∧ c.val ≤ 102 then some (c.val - 87)
  else if 65 ≤ c.val ∧ c.val ≤ 70 then some (c.val - 55)
  else none

/-- The four digits of a `\u` escape. -/
def hex4 (a b c d : Chr) : Option Nat := do
  let a ← hexVal a
  let b ← hexVal b
  let c ← hexVal c
  let d ← hexVal d
  return ((a * 16 + b) * 16 + c) * 16 + d

/-- The one-character escapes. -/
def unescape (c : Chr) : Option Chr :=
  if c = ('"' : Char) then some ('"' : Char)
  else if c = ('\\' : Char) then some ('\\' : Char)
  else if c = ('/' : Char) then some ('/' : Char)
  else if c = ('b' : Char) then some (Chr.ofChar (Char.ofNat 8))
  else if c = ('f' : Char) then some (Chr.ofChar (Char.ofNat 12))
  else if c = ('n' : Char) then some ('\n' : Char)
  else if c = ('r' : Char) then some ('\r' : Char)
  else if c = ('t' : Char) then some ('\t' : Char)
  else none

/-- A character of a string, and whether a `\u` escape spelled it. -/
structure Letter where
  chr : Chr
  escaped : Bool
  deriving DecidableEq

def push (u : Letter) (read : Scan (List Letter × Str)) : Scan (List Letter × Str) :=
  read.map (fun found => (u :: found.1, found.2))

/-- The characters up to the closing quote; `start` is what was left at the opening
one. -/
def letters (start : Nat) : Str → Scan (List Letter × Str)
  | [] => .error (.decode "Unterminated string starting at" start)
  | c :: rest =>
      if c = ('"' : Char) then .ok ([], rest)
      else if c = ('\\' : Char) then
        match rest with
        | [] => .error (.decode "Unterminated string starting at" start)
        | e :: later =>
            if e = ('u' : Char) then
              match later with
              | a :: b :: c :: d :: after =>
                  match hex4 a b c d with
                  | some n =>
                      if after = [] then at_ "Invalid \\uXXXX escape" (e :: later)
                      else push ⟨Fin.ofNat 0x110000 n, true⟩ (letters start after)
                  | none => at_ "Invalid \\uXXXX escape" (e :: later)
              | _ => at_ "Invalid \\uXXXX escape" (e :: later)
            else match unescape e with
              | some found => push ⟨found, false⟩ (letters start later)
              | none => at_ "Invalid \\escape" (c :: rest)
      else if c.val ≤ 0x1f then at_ "Invalid control character at" (c :: rest)
      else push ⟨c, false⟩ (letters start rest)

end Py.Json

namespace Py

def Chr.isHigh (c : Chr) : Bool := 0xd800 ≤ c.val && c.val ≤ 0xdbff

def Chr.isLow (c : Chr) : Bool := 0xdc00 ≤ c.val && c.val ≤ 0xdfff

/-- `Py_UNICODE_JOIN_SURROGATES`. -/
def Chr.join (high low : Chr) : Chr :=
  Fin.ofNat 0x110000 (0x10000 + (high.val - 0xd800) * 0x400 + (low.val - 0xdc00))

end Py

namespace Py.Json

/-- Two `\u` escapes that spell a surrogate pair are one character. -/
def join : List Letter → Str
  | [] => []
  | [u] => [u.chr]
  | u :: w :: rest =>
      if u.escaped && w.escaped && u.chr.isHigh && w.chr.isLow then
        Chr.join u.chr w.chr :: join rest
      else u.chr :: join (w :: rest)

/-- `scanstring`, from the character after the opening quote. -/
def string (text : Str) : Scan (Str × Str) := do
  let (us, rest) ← letters (text.length + 1) text
  return (join us, rest)

/-- What stands between an opening mark and the closing one, separated by commas. -/
def scanSequence {α : Type} (item : Str → Scan (α × Str)) (close : Chr) :
    Nat → Str → Scan (List α × Str)
  | 0, text => at_ "Expecting value" text
  | fuel + 1, text => do
      let (x, rest) ← item text
      match skip rest with
      | [] => at_ "Expecting ',' delimiter" []
      | d :: after =>
          if d = close then return ([x], after)
          else if d = (',' : Char) then do
            let (xs, rest) ← scanSequence item close fuel (skip after)
            return (x :: xs, rest)
          else at_ "Expecting ',' delimiter" (d :: after)

/-- A key and the colon after it. -/
def scanKey (text : Str) : Scan (Str × Str) :=
  match text with
  | [] => at_ "Expecting property name enclosed in double quotes" []
  | c :: rest =>
      if c = ('"' : Char) then do
        let (key, rest) ← string rest
        match skip rest with
        | [] => at_ "Expecting ':' delimiter" []
        | d :: after =>
            if d = (':' : Char) then return (key, skip after)
            else at_ "Expecting ':' delimiter" (d :: after)
      else at_ "Expecting property name enclosed in double quotes" (c :: rest)

/-- A member of an object: its key, and the value after the colon. -/
def scanMember (scan : Str → Scan (Value × Str)) (text : Str) : Scan ((Str × Value) × Str) := do
  let (key, rest) ← scanKey text
  let (v, rest) ← scan rest
  return ((key, v), rest)

/-- An array, from the character after its bracket. -/
def array (scan : Str → Scan (Value × Str)) (fuel : Nat) (text : Str) : Scan (Value × Str) :=
  match skip text with
  | [] => at_ "Expecting value" []
  | c :: rest =>
      if c = (']' : Char) then .ok (.list [], rest)
      else do
        let (vs, rest) ← scanSequence scan (']' : Char) fuel (c :: rest)
        return (.list vs, rest)

/-- An object, from the character after its brace: the last value of a repeated key
wins. -/
def object (scan : Str → Scan (Value × Str)) (fuel : Nat) (text : Str) : Scan (Value × Str) :=
  match skip text with
  | [] => at_ "Expecting property name enclosed in double quotes" []
  | c :: rest =>
      if c = ('}' : Char) then .ok (.dict [], rest)
      else do
        let (kvs, rest) ← scanSequence (scanMember scan) ('}' : Char) fuel (c :: rest)
        return (.dict (Dict.ofPairs kvs), rest)

/-- `word` and the text after it. -/
def stripPrefix : Str → Str → Option Str
  | [], text => some text
  | _ :: _, [] => none
  | c :: word, d :: text => if c = d then stripPrefix word text else none

/-- The constants, `NaN` and the infinities included. -/
def constants : List (Str × Value) :=
  [("null", .null), ("true", .bool true), ("false", .bool false), ("NaN", .float .nan),
    ("Infinity", .float (.inf false)), ("-Infinity", .float (.inf true))]

def constant (text : Str) : Option (Value × Str) :=
  constants.findSome? (fun named => (stripPrefix named.1 text).map (fun rest => (named.2, rest)))

/-- `scan_once`, at most `fuel` values deep. -/
def scanOnce : Nat → Str → Scan (Value × Str)
  | 0, _ => .error (.raise ⟨.runtimeError, ["maximum recursion depth exceeded"]⟩)
  | _ + 1, [] => at_ "Expecting value" []
  | fuel + 1, c :: rest =>
      if c = ('"' : Char) then (string rest).map (fun read => (.str read.1, read.2))
      else if c = ('{' : Char) then object (scanOnce fuel) fuel rest
      else if c = ('[' : Char) then array (scanOnce fuel) fuel rest
      else match constant (c :: rest) with
        | some found => .ok found
        | none =>
            if c = ('-' : Char) then number (c :: rest) true rest
            else number (c :: rest) false (c :: rest)

/-- The line and column of a position in a text. -/
def lineColumn (text : Str) (pos : Nat) : Nat × Nat :=
  (text.take pos).foldl (fun place c =>
    if c = Chr.ofChar '\n' then (place.1 + 1, 1) else (place.1, place.2 + 1)) (1, 1)

def Fault.exc (text : Str) : Fault → Exc
  | .raise e => e
  | .decode msg left =>
      let pos := text.length - left
      let (line, column) := lineColumn text pos
      ⟨.jsonDecodeError, [msg, ": line ", .str (.int line), " column ", .str (.int column),
        " (char ", .str (.int pos), ")"]⟩

/-- The whole text is one value. -/
def whole (text : Str) : Scan Value := do
  let (v, rest) ← scanOnce (text.length + 1) (skip text)
  match skip rest with
  | [] => return v
  | extra => .error (.decode "Extra data" extra.length)

def byteOrderMark : Chr := 0xfeff

/-- `JSONDecoder().decode(text)`. -/
def decodeText (text : Str) : Except Exc Value :=
  match whole text with
  | .ok v => .ok v
  | .error fault => .error (fault.exc text)

def loads (text : Str) : Except Exc Value :=
  if text.head? = some byteOrderMark then
    .error ((Fault.decode "Unexpected UTF-8 BOM (decode using utf-8-sig)" text.length).exc text)
  else decodeText text

end Py.Json
