import DevGate.Py.Str

set_option autoImplicit false

/- What the JavaScript gates do with texts. -/
namespace DevGate.Gate.JsText

open Py

/-- White space and line terminators, as `trim` takes them. -/
def isSpace (c : Chr) : Bool :=
  let n := c.val
  (9 ≤ n && n ≤ 13) || n == 32 || n == 0xa0 || n == 0x1680 || (0x2000 ≤ n && n ≤ 0x200a) ||
    n == 0x2028 || n == 0x2029 || n == 0x202f || n == 0x205f || n == 0x3000 || n == 0xfeff

/-- `s.trim()`. -/
def trim (s : Str) : Str := ((s.dropWhile isSpace).reverse.dropWhile isSpace).reverse

/-- `s.startsWith(front)`. -/
def startsWith (s front : Str) : Bool := front.isPrefixOf s

end DevGate.Gate.JsText
