import DevGate.Py.Exc

set_option autoImplicit false

/- `str(v)`, `repr(v)` and the texts of f-strings. -/
namespace Py

/-- What the tables of the interpreter decide: which characters beyond ASCII are
printable, and how a float is written. -/
structure Printer where
  isPrintable : Chr → Bool
  float : Flt → Str

namespace Printer

/-- `n` in lower-case hexadecimal, in `width` digits. -/
def hex (width n : Nat) : Str :=
  (List.range width).reverse.map (fun i => Fin.ofNat 0x110000
    (let d := n / 16 ^ i % 16; if d < 10 then 48 + d else 87 + d))

def backslash : Chr := Chr.ofChar '\\'

/-- One character between the quotes. -/
def reprChr (p : Printer) (quote c : Chr) : Str :=
  if c = quote ∨ c = backslash then [backslash, c]
  else if c = Chr.ofChar '\t' then [backslash, Chr.ofChar 't']
  else if c = Chr.ofChar '\n' then [backslash, Chr.ofChar 'n']
  else if c = Chr.ofChar '\r' then [backslash, Chr.ofChar 'r']
  else if 0x20 ≤ c.val ∧ c.val < 0x7f then [c]
  else if 0x80 ≤ c.val ∧ p.isPrintable c then [c]
  else if c.val ≤ 0xff then backslash :: Chr.ofChar 'x' :: hex 2 c.val
  else if c.val ≤ 0xffff then backslash :: Chr.ofChar 'u' :: hex 4 c.val
  else backslash :: Chr.ofChar 'U' :: hex 8 c.val

def reprStr (p : Printer) (s : Str) : Str :=
  let quote := Chr.ofChar (if Chr.ofChar '\'' ∈ s ∧ Chr.ofChar '"' ∉ s then '"' else '\'')
  quote :: (s.flatMap (p.reprChr quote) ++ [quote])

mutual

def repr (p : Printer) : Value → Str
  | .null => "None"
  | .bool true => "True"
  | .bool false => "False"
  | .int n => Str.ofInt n
  | .float x => p.float x
  | .str s => p.reprStr s
  | .list vs => Chr.ofChar '[' :: (Str.join ", " (p.reprList vs) ++ [Chr.ofChar ']'])
  | .dict kvs => Chr.ofChar '{' :: (Str.join ", " (p.reprPairs kvs) ++ [Chr.ofChar '}'])

def reprList (p : Printer) : List Value → List Str
  | [] => []
  | v :: vs => p.repr v :: p.reprList vs

def reprPairs (p : Printer) : List (Str × Value) → List Str
  | [] => []
  | (k, v) :: rest => (p.reprStr k ++ ": " ++ p.repr v) :: p.reprPairs rest

end

def str (p : Printer) : Value → Str
  | .str s => s
  | v => p.repr v

def frag (p : Printer) : Frag → Str
  | .lit s => s
  | .str v => p.str v
  | .repr v => p.repr v

/-- The text an f-string builds. -/
def render (p : Printer) (text : Text) : Str := text.flatMap p.frag

end Printer

end Py
