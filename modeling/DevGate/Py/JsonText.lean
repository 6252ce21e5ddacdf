import DevGate.Py.Json

set_option autoImplicit false

/- `json.dumps(v, sort_keys=True, separators=(",", ":"), ensure_ascii=True)`, and
how the scanner reads back its numbers and strings. -/
namespace Py.Json

/-- A lower-case hex digit. -/
def hexDigit (n : Nat) : Chr := Fin.ofNat 0x110000 (if n < 10 then 48 + n else 87 + n)

/-- `\uXXXX`. -/
def unicodeEscape (n : Nat) : Str :=
  ['\\', 'u', hexDigit (n / 4096 % 16), hexDigit (n / 256 % 16), hexDigit (n / 16 % 16),
    hexDigit (n % 16)]

/-- One character of a string literal. -/
def escape (c : Chr) : Str :=
  if c = ('"' : Char) then ['\\', '"']
  else if c = ('\\' : Char) then ['\\', '\\']
  else if c = ('\n' : Char) then ['\\', 'n']
  else if c = ('\r' : Char) then ['\\', 'r']
  else if c = ('\t' : Char) then ['\\', 't']
  else if c.val = 12 then ['\\', 'f']
  else if c.val = 8 then ['\\', 'b']
  else if 32 ≤ c.val ∧ c.val ≤ 126 then [c]
  else if c.val < 0x10000 then unicodeEscape c.val
  else unicodeEscape (0xd800 + (c.val - 0x10000) / 0x400) ++
    unicodeEscape (0xdc00 + (c.val - 0x10000) % 0x400)

def quote (s : Str) : Str := Chr.ofChar '"' :: (s.flatMap escape ++ [Chr.ofChar '"'])

/-- `sorted(d.items())`, on distinct keys. -/
def sortKeys {α : Type} (kvs : List (Str × α)) : List (Str × α) :=
  kvs.insertionSort (fun a b => Str.le a.1 b.1 = true)

def member (kv : Str × Str) : Str := quote kv.1 ++ Chr.ofChar ':' :: kv.2

mutual

/-- Floats have been refused before. -/
def dumps : Value → Str
  | .null => "null"
  | .bool true => "true"
  | .bool false => "false"
  | .int n => Str.ofInt n
  | .float _ => []
  | .str s => quote s
  | .list vs => Chr.ofChar '[' :: (Str.join "," (dumpsList vs) ++ [Chr.ofChar ']'])
  | .dict kvs =>
      Chr.ofChar '{' ::
        (Str.join "," ((sortKeys (dumpsPairs kvs)).map member) ++ [Chr.ofChar '}'])

def dumpsList : List Value → List Str
  | [] => []
  | v :: vs => dumps v :: dumpsList vs

def dumpsPairs : List (Str × Value) → List (Str × Str)
  | [] => []
  | (k, v) :: rest => (k, dumps v) :: dumpsPairs rest

end

mutual

/-- A value with the keys of every object sorted: what is left when their order is
forgotten. -/
def canonical : Value → Value
  | .list vs => .list (canonicalList vs)
  | .dict kvs => .dict (sortKeys (canonicalPairs kvs))
  | v => v

def canonicalList : List Value → List Value
  | [] => []
  | v :: vs => canonical v :: canonicalList vs

def canonicalPairs : List (Str × Value) → List (Str × Value)
  | [] => []
  | (k, v) :: rest => (k, canonical v) :: canonicalPairs rest

end

/-- A string with the halves of each surrogate pair joined. -/
def merge : Str → Str
  | [] => []
  | [c] => [c]
  | c :: d :: rest =>
      if c.isHigh && d.isLow then Chr.join c d :: merge rest else c :: merge (d :: rest)

mutual

/-- What the text of a value decodes to: keys sorted, surrogate pairs joined. -/
def decoded : Value → Value
  | .list vs => .list (decodedList vs)
  | .dict kvs => .dict (Dict.ofPairs ((sortKeys (decodedPairs kvs)).map (fun kv => (merge kv.1, kv.2))))
  | .str s => .str (merge s)
  | v => v

def decodedList : List Value → List Value
  | [] => []
  | v :: vs => decoded v :: decodedList vs

def decodedPairs : List (Str × Value) → List (Str × Value)
  | [] => []
  | (k, v) :: rest => (k, decoded v) :: decodedPairs rest

end

/-! Numbers. -/

/-- What may stand after a value: nothing, or a mark that closes or separates. -/
def Closed (rest : Str) : Prop :=
  ∀ c, rest.head? = some c → c = Chr.ofChar ',' ∨ c = Chr.ofChar ']' ∨ c = Chr.ofChar '}'

theorem closed_nil : Closed [] := by
  intro c none
  cases none

theorem Closed.skip {rest : Str} (closed : Closed rest) : skip rest = rest := by
  cases rest with
  | nil => rfl
  | cons c later =>
      have plain : isBlank c = false := by
        rcases closed c rfl with rfl | rfl | rfl <;> decide
      simp only [Json.skip, plain, Bool.false_eq_true, ↓reduceIte]

theorem Closed.digits {rest : Str} (closed : Closed rest) : digits rest = ([], rest) := by
  cases rest with
  | nil => rfl
  | cons c later =>
      have plain : isDigit c = false := by
        rcases closed c rfl with rfl | rfl | rfl <;> decide
      simp only [Json.digits, plain, Bool.false_eq_true, ↓reduceIte]

theorem Closed.fracPart {rest : Str} (closed : Closed rest) : fracPart rest = none := by
  cases rest with
  | nil => rfl
  | cons c later =>
      have other : c ≠ Chr.ofChar '.' := by
        rcases closed c rfl with rfl | rfl | rfl <;> decide
      simp only [Json.fracPart, other, false_and, ↓reduceIte]

theorem Closed.expPart {rest : Str} (closed : Closed rest) : expPart rest = none := by
  cases rest with
  | nil => rfl
  | cons c later =>
      have other : ¬ (c = Chr.ofChar 'e' ∨ c = Chr.ofChar 'E') := by
        rcases closed c rfl with rfl | rfl | rfl <;> decide
      simp only [Json.expPart, other, ↓reduceIte]

theorem digits_append {ds rest : Str} (all : ∀ c ∈ ds, isDigit c = true) (closed : Closed rest) :
    digits (ds ++ rest) = (ds, rest) := by
  induction ds with
  | nil => exact closed.digits
  | cons c ds ih =>
      have here := all c List.mem_cons_self
      have later := ih (fun d member => all d (List.mem_cons_of_mem _ member))
      simp only [List.cons_append, Json.digits, here, later, ↓reduceIte]

theorem isDigit_ofChar {d : Char} (digit : d.isDigit) : isDigit (Chr.ofChar d) = true := by
  simp only [Char.isDigit, Bool.and_eq_true, decide_eq_true_eq] at digit
  obtain ⟨low, high⟩ := digit
  have low' : 48 ≤ d.toNat := low
  have high' : d.toNat ≤ 57 := high
  simp only [isDigit, Chr.ofChar, Bool.and_eq_true]
  exact ⟨decide_eq_true low', decide_eq_true high'⟩

theorem isDigit_of_mem_ofNat {n : Nat} {c : Chr} (member : c ∈ Str.ofNat n) : isDigit c = true := by
  obtain ⟨d, digit, rfl⟩ := Str.mem_ofNat n c member
  exact isDigit_ofChar digit

theorem natOf_ofNat (n : Nat) : natOf (Str.ofNat n) = n := by
  have value : ∀ (ds : List Char) (start : Nat),
      (ds.map Chr.ofChar).foldl (fun n c => n * 10 + (c.val - 48)) start =
        Nat.ofDigitChars 10 ds start := by
    intro ds
    induction ds with
    | nil => exact fun start => by simp
    | cons d ds ih =>
        intro start
        rw [List.map_cons, List.foldl_cons, ih, Nat.ofDigitChars_cons, Nat.mul_comm]
        rfl
  unfold natOf Str.ofNat
  rw [value, Nat.ofDigitChars_ten_toDigits]

/-- The decimal text of a positive number does not start with a zero. -/
theorem head_ofNat {n : Nat} (positive : 0 < n) : (Str.ofNat n).head? ≠ some (Chr.ofChar '0') := by
  induction n using Nat.strong_induction_on with
  | h n ih =>
      unfold Str.ofNat at ih ⊢
      by_cases small : n < 10
      · rw [Nat.toDigits_of_lt_base small]
        interval_cases n <;> decide
      · have shorter := ih (n / 10) (by omega) (by omega)
        rw [Nat.toDigits_of_base_le (by decide) (by omega), List.map_append]
        rw [List.head?_append_of_ne_nil]
        · exact shorter
        · simp

theorem intPart_ofNat (n : Nat) {rest : Str} (closed : Closed rest) :
    intPart (Str.ofNat n ++ rest) = some (Str.ofNat n, rest) := by
  by_cases zero : n = 0
  · subst zero
    rfl
  · have start := head_ofNat (Nat.pos_of_ne_zero zero)
    have some_ : Str.ofNat n ≠ [] := by
      unfold Str.ofNat
      simp
    obtain ⟨c, ds, cut⟩ := List.exists_cons_of_ne_nil some_
    have all : ∀ d ∈ c :: ds, isDigit d = true := by
      intro d member
      rw [← cut] at member
      exact isDigit_of_mem_ofNat member
    rw [cut] at start ⊢
    have first : c ≠ Chr.ofChar '0' := fun same => start (by rw [same]; rfl)
    have later := digits_append (fun d member => all d (List.mem_cons_of_mem _ member)) closed
    simp only [List.cons_append, intPart, first, all c List.mem_cons_self, later, ↓reduceIte]

theorem intOf_ofNat {n : Nat} (small : n < 10 ^ maxDigits) (negative : Bool) :
    intOf negative (Str.ofNat n) = .ok (.int (if negative then -(n : Int) else n)) := by
  have short : (Str.ofNat n).length ≤ maxDigits := by
    unfold Str.ofNat
    rw [List.length_map]
    exact (Nat.length_toDigits_le_iff (by decide) (by decide)).mpr small
  have fits : ¬ maxDigits < (Str.ofNat n).length := by omega
  simp only [intOf, fits, natOf_ofNat, ↓reduceIte]

theorem number_ofNat {n : Nat} (small : n < 10 ^ maxDigits) (whole : Str) (negative : Bool)
    {rest : Str} (closed : Closed rest) :
    number whole negative (Str.ofNat n ++ rest) =
      .ok (.int (if negative then -(n : Int) else n), rest) := by
  simp only [number, intPart_ofNat n closed, closed.fracPart, closed.expPart,
    intOf_ofNat small negative, Except.map]

theorem ne_of_isDigit {c : Chr} (digit : isDigit c = true) {d : Chr} (other : isDigit d = false) :
    d ≠ c := by
  intro same
  rw [same, digit] at other
  cases other

theorem stripPrefix_of_ne {c d : Chr} (other : c ≠ d) (word text : Str) :
    stripPrefix (c :: word) (d :: text) = none := by
  simp only [stripPrefix, other, ↓reduceIte]

theorem constant_of_isDigit {c : Chr} (digit : isDigit c = true) (rest : Str) :
    constant (c :: rest) = none := by
  have other : ∀ d : Chr, isDigit d = false → ∀ word, stripPrefix (d :: word) (c :: rest) = none :=
    fun d other word => stripPrefix_of_ne (ne_of_isDigit digit other) word rest
  unfold constant
  rw [List.findSome?_eq_none_iff]
  intro named listed
  simp only [constants, List.mem_cons, List.not_mem_nil, or_false] at listed
  rcases listed with rfl | rfl | rfl | rfl | rfl | rfl
  all_goals exact congrArg _ (other _ (by decide) _)

theorem constant_of_minus {c : Chr} (digit : isDigit c = true) (rest : Str) :
    constant (Chr.ofChar '-' :: c :: rest) = none := by
  unfold constant
  rw [List.findSome?_eq_none_iff]
  intro named listed
  simp only [constants, List.mem_cons, List.not_mem_nil, or_false] at listed
  rcases listed with rfl | rfl | rfl | rfl | rfl | rfl
  · rfl
  · rfl
  · rfl
  · rfl
  · rfl
  · exact congrArg _ (stripPrefix_of_ne (ne_of_isDigit digit (by decide)) _ rest)

theorem ofNat_cons (n : Nat) : ∃ c ds, Str.ofNat n = c :: ds ∧ isDigit c = true := by
  have some_ : Str.ofNat n ≠ [] := by
    unfold Str.ofNat
    simp
  obtain ⟨c, ds, cut⟩ := List.exists_cons_of_ne_nil some_
  refine ⟨c, ds, cut, isDigit_of_mem_ofNat (n := n) ?_⟩
  rw [cut]
  exact List.mem_cons_self

/-- The integers the canonical profile admits. -/
def Int64 (n : Int) : Prop := -(2 ^ 63) ≤ n ∧ n ≤ 2 ^ 63 - 1

theorem scanOnce_ofNat {m : Nat} (small : m < 10 ^ maxDigits) (fuel : Nat) {rest : Str}
    (closed : Closed rest) :
    scanOnce (fuel + 1) (Str.ofNat m ++ rest) = .ok (.int m, rest) := by
  obtain ⟨c, ds, cut, digit⟩ := ofNat_cons m
  have read := number_ofNat small (Str.ofNat m ++ rest) false closed
  have apart : ∀ d : Chr, isDigit d = false → c ≠ d :=
    fun d other => (ne_of_isDigit digit other).symm
  rw [cut, List.cons_append] at read ⊢
  simp only [scanOnce, apart _ (by decide : isDigit (Chr.ofChar '"') = false),
    apart _ (by decide : isDigit (Chr.ofChar '{') = false),
    apart _ (by decide : isDigit (Chr.ofChar '[') = false),
    apart _ (by decide : isDigit (Chr.ofChar '-') = false), constant_of_isDigit digit, read,
    Bool.false_eq_true, ↓reduceIte]

theorem scanOnce_ofInt {n : Int} (fits : Int64 n) (fuel : Nat) {rest : Str} (closed : Closed rest) :
    scanOnce (fuel + 1) (Str.ofInt n ++ rest) = .ok (.int n, rest) := by
  have wide : 2 ^ 63 < 10 ^ maxDigits :=
    calc 2 ^ 63 < 10 ^ 19 := by decide
      _ ≤ 10 ^ maxDigits := Nat.pow_le_pow_right (by decide) (by decide)
  obtain ⟨low, high⟩ := fits
  cases n with
  | ofNat m =>
      have small : m < 10 ^ maxDigits := by
        have bound : m ≤ 2 ^ 63 := by
          simp only [Int.ofNat_eq_natCast] at high
          omega
        omega
      exact scanOnce_ofNat small fuel closed
  | negSucc m =>
      have small : m + 1 < 10 ^ maxDigits := by
        have bound : m + 1 ≤ 2 ^ 63 := by
          rw [Int.negSucc_eq] at low
          omega
        omega
      obtain ⟨c, ds, cut, digit⟩ := ofNat_cons (m + 1)
      have read := number_ofNat small (Chr.ofChar '-' :: (Str.ofNat (m + 1) ++ rest)) true closed
      show scanOnce (fuel + 1) (Chr.ofChar '-' :: (Str.ofNat (m + 1) ++ rest)) = _
      rw [cut, List.cons_append] at read ⊢
      have marks : Chr.ofChar '-' ≠ Chr.ofChar '"' ∧ Chr.ofChar '-' ≠ Chr.ofChar '{' ∧
          Chr.ofChar '-' ≠ Chr.ofChar '[' := by decide
      simp only [scanOnce, marks.1, marks.2.1, marks.2.2, constant_of_minus digit, read, ↓reduceIte]
      rfl

/-! Strings. -/

theorem hexVal_hexDigit : ∀ n < 16, hexVal (hexDigit n) = some n := by decide

theorem hex4_hexDigit {n : Nat} (small : n < 0x10000) :
    hex4 (hexDigit (n / 4096 % 16)) (hexDigit (n / 256 % 16)) (hexDigit (n / 16 % 16))
      (hexDigit (n % 16)) = some n := by
  have bound : ∀ m, m % 16 < 16 := fun m => Nat.mod_lt m (by decide)
  simp only [hex4, hexVal_hexDigit _ (bound _), Option.bind_eq_bind, Option.bind_some,
    Option.pure_def, Option.some.injEq]
  omega

/-- What the scanner reads back of one character. -/
def lettersOf (c : Chr) : List Letter :=
  if 32 ≤ c.val ∧ c.val ≤ 126 then [⟨c, false⟩]
  else if c.val = 8 ∨ c.val = 9 ∨ c.val = 10 ∨ c.val = 12 ∨ c.val = 13 then [⟨c, false⟩]
  else if c.val < 0x10000 then [⟨c, true⟩]
  else [⟨Fin.ofNat 0x110000 (0xd800 + (c.val - 0x10000) / 0x400), true⟩,
    ⟨Fin.ofNat 0x110000 (0xdc00 + (c.val - 0x10000) % 0x400), true⟩]

theorem letters_unicodeEscape {n : Nat} (small : n < 0x10000) (start : Nat) {rest : Str}
    (more : rest ≠ []) :
    letters start (unicodeEscape n ++ rest) =
      push ⟨Fin.ofNat 0x110000 n, true⟩ (letters start rest) := by
  have backslash : Chr.ofChar '\\' ≠ Chr.ofChar '"' := by decide
  simp only [unicodeEscape, List.cons_append, List.nil_append]
  rw [letters]
  simp only [backslash, hex4_hexDigit small, more, ↓reduceIte]

theorem letters_plain {c : Chr} (range : 32 ≤ c.val) (open_ : c ≠ Chr.ofChar '"')
    (escape_ : c ≠ Chr.ofChar '\\') (start : Nat) (rest : Str) :
    letters start (c :: rest) = push ⟨c, false⟩ (letters start rest) := by
  have control : ¬ c.val ≤ 0x1f := by omega
  rw [letters.eq_def]
  simp only [open_, escape_, control, ↓reduceIte]

theorem letters_unescape {e found : Chr} (simple : unescape e = some found)
    (other : e ≠ Chr.ofChar 'u') (start : Nat) (rest : Str) :
    letters start (Chr.ofChar '\\' :: e :: rest) = push ⟨found, false⟩ (letters start rest) := by
  have backslash : Chr.ofChar '\\' ≠ Chr.ofChar '"' := by decide
  rw [letters.eq_def]
  simp only [backslash, other, simple, ↓reduceIte]

/-- The scanner reads an escaped character as what it stands for. -/
theorem letters_escape (c : Chr) (start : Nat) {rest : Str} (more : rest ≠ []) :
    letters start (escape c ++ rest) = (lettersOf c).foldr push (letters start rest) := by
  unfold escape
  by_cases quote : c = Chr.ofChar '"'
  · subst quote
    exact letters_unescape rfl (by decide) start rest
  by_cases backslash : c = Chr.ofChar '\\'
  · subst backslash
    exact letters_unescape rfl (by decide) start rest
  by_cases newline : c = Chr.ofChar '\n'
  · subst newline
    exact letters_unescape rfl (by decide) start rest
  by_cases carriage : c = Chr.ofChar '\r'
  · subst carriage
    exact letters_unescape rfl (by decide) start rest
  by_cases tab : c = Chr.ofChar '\t'
  · subst tab
    exact letters_unescape rfl (by decide) start rest
  by_cases feed : c.val = 12
  · have same : c = Fin.ofNat 0x110000 12 := Fin.ext feed
    subst same
    exact letters_unescape rfl (by decide) start rest
  by_cases back : c.val = 8
  · have same : c = Fin.ofNat 0x110000 8 := Fin.ext back
    subst same
    exact letters_unescape rfl (by decide) start rest
  have others : c.val ≠ 10 ∧ c.val ≠ 13 ∧ c.val ≠ 9 :=
    ⟨fun same => newline (Fin.ext same), fun same => carriage (Fin.ext same),
      fun same => tab (Fin.ext same)⟩
  simp only [quote, backslash, newline, carriage, tab, feed, back, ↓reduceIte]
  by_cases plain : 32 ≤ c.val ∧ c.val ≤ 126
  · simp only [lettersOf, plain, and_self, ↓reduceIte, List.cons_append, List.nil_append]
    exact letters_plain plain.1 quote backslash start rest
  by_cases short : c.val < 0x10000
  · have value : Fin.ofNat 0x110000 c.val = c := Fin.ext (Nat.mod_eq_of_lt c.isLt)
    simp only [lettersOf, plain, feed, back, others, short, or_self, ↓reduceIte]
    rw [letters_unicodeEscape short start more, value]
    rfl
  · have top := c.isLt
    simp only [lettersOf, plain, feed, back, others, short, or_self, ↓reduceIte, List.append_assoc]
    rw [letters_unicodeEscape (by omega) start (by simp [unicodeEscape]),
      letters_unicodeEscape (by omega) start more]
    rfl

theorem push_foldr (us : List Letter) (found : List Letter) (rest : Str) :
    us.foldr push (.ok (found, rest)) = .ok (us ++ found, rest) := by
  induction us with
  | nil => rfl
  | cons u us ih =>
      rw [List.foldr_cons, ih]
      rfl

theorem letters_flatMap_escape (s : Str) (start : Nat) (rest : Str) :
    letters start (s.flatMap escape ++ Chr.ofChar '"' :: rest) =
      .ok (s.flatMap lettersOf, rest) := by
  induction s with
  | nil =>
      rw [List.flatMap_nil, List.nil_append, letters.eq_def]
      rfl
  | cons c s ih =>
      rw [List.flatMap_cons, List.flatMap_cons, List.append_assoc,
        letters_escape c start (by simp), ih, push_foldr]

/-- No high surrogate stands before a low one. -/
def Tidy (s : Str) : Prop := List.IsChain (fun a b => ¬ (a.isHigh = true ∧ b.isLow = true)) s

/-- Without first halves no two halves stand next to each other. -/
theorem tidy_of_not_high {s : Str} (low : ∀ c ∈ s, c.isHigh = false) : Tidy s := by
  apply List.isChain_iff_forall_rel_of_append_cons_cons.mpr
  intro a b front back whole ⟨high, _⟩
  have here := low a (by rw [whole]; simp)
  rw [here] at high
  cases high

theorem merge_tidy {s : Str} (tidy : Tidy s) : merge s = s := by
  induction s using merge.induct with
  | case1 => rfl
  | case2 c => rfl
  | case3 c d rest pair ih =>
      rw [Bool.and_eq_true] at pair
      cases tidy with
      | cons_cons apart later => exact absurd pair apart
  | case4 c d rest pair ih =>
      rw [merge, if_neg pair, ih tidy.tail]

theorem lettersOf_chr {c : Chr} (one : c.val < 0x10000) :
    ∃ escaped, lettersOf c = [⟨c, escaped⟩] ∧
      (c.isHigh = true ∨ c.isLow = true → escaped = true) := by
  by_cases surrogate : c.isHigh = true ∨ c.isLow = true
  · have range : 0xd800 ≤ c.val := by
      simp only [Chr.isHigh, Chr.isLow, Bool.and_eq_true, decide_eq_true_eq] at surrogate
      omega
    have plain : ¬ (32 ≤ c.val ∧ c.val ≤ 126) := by omega
    have control : ¬ (c.val = 8 ∨ c.val = 9 ∨ c.val = 10 ∨ c.val = 12 ∨ c.val = 13) := by omega
    exact ⟨true, by simp only [lettersOf, plain, control, one, ↓reduceIte], fun _ => rfl⟩
  · unfold lettersOf
    split
    · exact ⟨false, rfl, fun other => absurd other surrogate⟩
    · split
      · exact ⟨false, rfl, fun other => absurd other surrogate⟩
      · exact ⟨true, rfl, fun _ => rfl⟩

theorem lettersOf_pair {c : Chr} (two : ¬ c.val < 0x10000) :
    ∃ high low : Chr, lettersOf c = [⟨high, true⟩, ⟨low, true⟩] ∧ high.isHigh = true ∧
      low.isLow = true ∧ Chr.join high low = c := by
  have top := c.isLt
  have high : (0xd800 + (c.val - 0x10000) / 0x400) % 0x110000 =
      0xd800 + (c.val - 0x10000) / 0x400 := Nat.mod_eq_of_lt (by omega)
  have low : (0xdc00 + (c.val - 0x10000) % 0x400) % 0x110000 =
      0xdc00 + (c.val - 0x10000) % 0x400 := Nat.mod_eq_of_lt (by omega)
  refine ⟨Fin.ofNat 0x110000 (0xd800 + (c.val - 0x10000) / 0x400),
    Fin.ofNat 0x110000 (0xdc00 + (c.val - 0x10000) % 0x400), ?_, ?_, ?_, ?_⟩
  · have plain : ¬ (32 ≤ c.val ∧ c.val ≤ 126) := by omega
    have control : ¬ (c.val = 8 ∨ c.val = 9 ∨ c.val = 10 ∨ c.val = 12 ∨ c.val = 13) := by omega
    simp only [lettersOf, plain, control, two, ↓reduceIte]
  · simp only [Chr.isHigh, Fin.ofNat, high, Bool.and_eq_true, decide_eq_true_eq]
    omega
  · simp only [Chr.isLow, Fin.ofNat, low, Bool.and_eq_true, decide_eq_true_eq]
    omega
  · apply Fin.ext
    simp only [Chr.join, Fin.ofNat, high, low]
    omega

theorem high_not_low {c : Chr} (high : c.isHigh = true) : c.isLow = false := by
  simp only [Chr.isHigh, Chr.isLow, Bool.and_eq_true, decide_eq_true_eq, Bool.and_eq_false_iff,
    decide_eq_false_iff_not] at high ⊢
  omega

theorem wide_not_surrogate {c : Chr} (two : ¬ c.val < 0x10000) :
    c.isHigh = false ∧ c.isLow = false := by
  simp only [Chr.isHigh, Chr.isLow, Bool.and_eq_false_iff, decide_eq_false_iff_not]
  omega

/-- What a string is spelled with is joined to the string, its own pairs included. -/
theorem join_lettersOf (s : Str) : join (s.flatMap lettersOf) = merge s := by
  induction s using merge.induct with
  | case1 => rfl
  | case2 c =>
      by_cases one : c.val < 0x10000
      · obtain ⟨escaped, spelled, -⟩ := lettersOf_chr one
        rw [List.flatMap_cons, spelled]
        rfl
      · obtain ⟨high, low, spelled, isHigh, isLow, joined⟩ := lettersOf_pair one
        rw [List.flatMap_cons, spelled]
        simp only [List.flatMap_nil, List.append_nil, join, isHigh, isLow, Bool.and_self,
          ↓reduceIte, joined, merge]
  | case3 c d rest pair ih =>
      have both := pair
      rw [Bool.and_eq_true] at both
      have oneC : c.val < 0x10000 := by
        by_contra two
        rw [(wide_not_surrogate two).1] at both
        cases both.1
      have oneD : d.val < 0x10000 := by
        by_contra two
        rw [(wide_not_surrogate two).2] at both
        cases both.2
      obtain ⟨escaped, spelled, marks⟩ := lettersOf_chr oneC
      obtain ⟨escaped', spelled', marks'⟩ := lettersOf_chr oneD
      rw [List.flatMap_cons, List.flatMap_cons, spelled, spelled', marks (Or.inl both.1),
        marks' (Or.inr both.2)]
      simp only [List.cons_append, List.nil_append, join, both.1, both.2, Bool.and_self,
        ↓reduceIte, ih, merge]
  | case4 c d rest pair ih =>
      rw [merge, if_neg pair, ← ih, List.flatMap_cons]
      by_cases one : c.val < 0x10000
      · obtain ⟨escaped, spelled, -⟩ := lettersOf_chr one
        rw [spelled, List.singleton_append]
        by_cases next : d.val < 0x10000
        · obtain ⟨escaped', spelled', -⟩ := lettersOf_chr next
          have apart : (escaped && escaped' && c.isHigh && d.isLow) = false := by
            rw [Bool.eq_false_iff]
            intro all
            rw [Bool.and_eq_true, Bool.and_eq_true] at all
            exact pair (by rw [all.1.2, all.2]; rfl)
          rw [List.flatMap_cons, spelled', List.singleton_append]
          simp only [join, apart, Bool.false_eq_true, ↓reduceIte]
        · obtain ⟨high, low, spelled', isHigh, -⟩ := lettersOf_pair next
          rw [List.flatMap_cons, spelled', List.cons_append]
          simp only [join, high_not_low isHigh, Bool.and_false, Bool.false_eq_true, ↓reduceIte]
      · obtain ⟨high, low, spelled, isHigh, isLow, joined⟩ := lettersOf_pair one
        rw [spelled]
        simp only [List.cons_append, List.nil_append, join, isHigh, isLow, Bool.and_self,
          ↓reduceIte, joined]

theorem string_quote (s rest : Str) :
    string (s.flatMap escape ++ Chr.ofChar '"' :: rest) = .ok (merge s, rest) := by
  unfold string
  rw [letters_flatMap_escape, ok_bind]
  simp only [join_lettersOf]
  rfl

theorem scanOnce_quote (s : Str) (fuel : Nat) (rest : Str) :
    scanOnce (fuel + 1) (quote s ++ rest) = .ok (.str (merge s), rest) := by
  unfold quote
  rw [List.cons_append, List.append_assoc, List.singleton_append]
  simp only [scanOnce, string_quote, ↓reduceIte]
  rfl

end Py.Json
