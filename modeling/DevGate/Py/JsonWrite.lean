import DevGate.Py.JsonText
import DevGate.Py.Repr

set_option autoImplicit false

/- `json.dumps(v)` with the default separators. -/
namespace Py.Json

/-- A float in JSON. -/
def floatText (p : Printer) : Flt → Str
  | .nan => "NaN"
  | .inf false => "Infinity"
  | .inf true => "-Infinity"
  | x => p.float x

def spaced (kv : Str × Str) : Str := quote kv.1 ++ ": " ++ kv.2

mutual

/-- `arrange` orders the members of an object: as they stand, or by their keys. -/
def write (p : Printer) (arrange : List (Str × Str) → List (Str × Str)) : Value → Str
  | .null => "null"
  | .bool true => "true"
  | .bool false => "false"
  | .int n => Str.ofInt n
  | .float x => floatText p x
  | .str s => quote s
  | .list vs => Chr.ofChar '[' :: (Str.join ", " (writeList p arrange vs) ++ [Chr.ofChar ']'])
  | .dict kvs =>
      Chr.ofChar '{' :: (Str.join ", " ((arrange (writePairs p arrange kvs)).map spaced) ++
        [Chr.ofChar '}'])

def writeList (p : Printer) (arrange : List (Str × Str) → List (Str × Str)) : List Value → List Str
  | [] => []
  | v :: vs => write p arrange v :: writeList p arrange vs

def writePairs (p : Printer) (arrange : List (Str × Str) → List (Str × Str)) :
    List (Str × Value) → List (Str × Str)
  | [] => []
  | (k, v) :: rest => (k, write p arrange v) :: writePairs p arrange rest

end

/-- `json.dumps(v, sort_keys=True)`. -/
def dumpsSorted (p : Printer) (v : Value) : Str := write p sortKeys v

end Py.Json
