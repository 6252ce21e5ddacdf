import DevGate.Py.Exc

set_option autoImplicit false

/- `datetime.fromisoformat` and the ordering of datetimes. -/
namespace Py

def Chr.digit? (c : Chr) : Option Nat :=
  if 48 ≤ c.val ∧ c.val ≤ 57 then some (c.val - 48) else none

/-- `int(s)` of a text of digits only. -/
def Str.number? (s : Str) : Option Nat :=
  if s = [] then none
  else s.foldl (fun n c => do return 10 * (← n) + (← c.digit?)) (some 0)

/-- Exactly `width` digits at the front of `s`, and what follows them. -/
def Str.digits? (width : Nat) (s : Str) : Option (Nat × Str) :=
  if s.length < width then none
  else (Str.number? (s.take width)).map (fun n => (n, s.drop width))

/-- A datetime: microseconds on the proleptic Gregorian calendar, and the UTC
offset in microseconds where the text states one. -/
structure Datetime where
  clock : Int
  offset : Option Int
  deriving DecidableEq

namespace Datetime

def isLeap (year : Nat) : Bool := year % 4 == 0 && (year % 100 != 0 || year % 400 == 0)

def daysInMonth (year month : Nat) : Nat :=
  if month = 2 then (if isLeap year then 29 else 28)
  else if month ∈ [4, 6, 9, 11] then 30 else 31

def daysBeforeYear (year : Nat) : Nat :=
  let y := year - 1
  365 * y + y / 4 - y / 100 + y / 400

def daysBeforeMonth (year month : Nat) : Nat :=
  ((List.range' 1 (month - 1)).map (daysInMonth year)).sum

def ymdToOrdinal (year month day : Nat) : Nat :=
  daysBeforeYear year + daysBeforeMonth year month + day

/-- `date(9999, 12, 31).toordinal()`. -/
def maxOrdinal : Nat := 3652059

def isoWeek1Monday (year : Nat) : Int :=
  let firstDay : Int := ymdToOrdinal year 1 1
  let firstWeekday := (firstDay + 6) % 7
  let monday := firstDay - firstWeekday
  if firstWeekday > 3 then monday + 7 else monday

/-- `_isoweek_to_gregorian`, as an ordinal. -/
def isoWeekOrdinal? (year week day : Nat) : Option Nat :=
  if ¬ (1 ≤ year ∧ year ≤ 9999) then none
  else
    let firstWeekday := ymdToOrdinal year 1 1 % 7
    let long := firstWeekday == 4 || (firstWeekday == 3 && isLeap year)
    if ¬ (0 < week ∧ (week < 53 ∨ (week = 53 ∧ long))) then none
    else if ¬ (0 < day ∧ day < 8) then none
    else
      let ordinal := (isoWeek1Monday year + ((week - 1) * 7 + (day - 1) : Nat)).toNat
      if ordinal ≤ maxOrdinal then some ordinal else none

def ymdOrdinal? (year month day : Nat) : Option Nat :=
  if 1 ≤ year ∧ year ≤ 9999 ∧ 1 ≤ month ∧ month ≤ 12 ∧ 1 ≤ day ∧ day ≤ daysInMonth year month then
    some (ymdToOrdinal year month day)
  else none

/-- A separator stands at the front of `s` exactly when the format uses them. -/
def dash? (uses : Bool) (s : Str) : Option Str :=
  if (s.head? == some (Chr.ofChar '-')) = uses then some (if uses then s.drop 1 else s) else none

/-- YYYY-MM-DD, YYYYMMDD, YYYY-Www, YYYY-Www-D and their forms without dashes. -/
def parseDate (s : Str) : Option Nat := do
  let (year, rest) ← Str.digits? 4 s
  let uses := rest.head? == some (Chr.ofChar '-')
  let rest := if uses then rest.drop 1 else rest
  if rest.head? == some (Chr.ofChar 'W') then
    let (week, rest) ← Str.digits? 2 (rest.drop 1)
    if rest = [] then isoWeekOrdinal? year week 1
    else
      let rest ← dash? uses rest
      let (day, _) ← Str.digits? 1 rest
      isoWeekOrdinal? year week day
  else
    let (month, rest) ← Str.digits? 2 rest
    let rest ← dash? uses rest
    let (day, _) ← Str.digits? 2 rest
    ymdOrdinal? year month day

/-- `[.,]ddd…` to microseconds; digits past the sixth are cut. -/
def parseFraction (s : Str) : Option Nat :=
  match s with
  | mark :: rest =>
      if mark = Chr.ofChar '.' ∨ mark = Chr.ofChar ',' then
        if rest.all (fun c => c.digit?.isSome) then
          (Str.number? (rest.take 6)).map (fun n => n * 10 ^ (6 - min 6 rest.length))
        else none
      else none
  | [] => some 0

/-- `_parse_hh_mm_ss_ff`: HH[:?MM[:?SS[.ffffff]]]. -/
def parseClock (s : Str) : Option (Nat × Nat × Nat × Nat) := do
  let (hour, rest) ← Str.digits? 2 s
  if rest = [] then return (hour, 0, 0, 0)
  let colon := rest.head? == some (Chr.ofChar ':')
  let (minute, rest) ← Str.digits? 2 (if colon then rest.drop 1 else rest)
  if rest = [] then return (hour, minute, 0, 0)
  if colon && rest.head? != some (Chr.ofChar ':') then none
  let (second, rest) ← Str.digits? 2 (if colon then rest.drop 1 else rest)
  return (hour, minute, second, ← parseFraction rest)

def micros (hour minute second micro : Nat) : Int :=
  (((hour * 60 + minute) * 60 + second) * 1000000 + micro : Nat)

def dayMicros : Int := 86400000000

def isOffsetMark (c : Chr) : Bool :=
  c == Chr.ofChar '+' || c == Chr.ofChar '-' || c == Chr.ofChar 'Z'

def parseOffset : Str → Option (Option Int)
  | [] => some none
  | mark :: rest =>
      if mark = Chr.ofChar 'Z' then (if rest = [] then some (some 0) else none)
      else do
        let (hour, minute, second, micro) ← parseClock rest
        let size := micros hour minute second micro
        if size < dayMicros then
          return some (if mark = Chr.ofChar '-' then -size else size)
        else none

/-- `_parse_isoformat_time`: the clock, then an optional offset. -/
def parseTime (s : Str) : Option (Int × Option Int) := do
  let (hour, minute, second, micro) ← parseClock (s.takeWhile (fun c => !isOffsetMark c))
  let offset ← parseOffset (s.dropWhile (fun c => !isOffsetMark c))
  if hour < 24 ∧ minute < 60 ∧ second < 60 then
    return (micros hour minute second micro, offset)
  else none

/-- How many of the leading characters are digits. -/
def leadingDigits (s : Str) : Nat := (s.takeWhile (fun c => c.digit?.isSome)).length

/-- `_find_isoformat_datetime_separator`: where the date ends. -/
def separatorAt (s : Str) : Nat :=
  let at? (n : Nat) := (s.drop n).head?
  if s.length = 7 then 7
  else if at? 4 = some (Chr.ofChar '-') then
    if at? 5 = some (Chr.ofChar 'W') then
      if at? 8 = some (Chr.ofChar '-') then
        if 0 < leadingDigits (s.drop 10) then 8 else 10
      else 8
    else 10
  else if at? 4 = some (Chr.ofChar 'W') then
    let index := 7 + leadingDigits (s.drop 7)
    if index < 9 then index else if index % 2 = 0 then 7 else 8
  else 8

def parse? (s : Str) : Option Datetime :=
  if s.length < 7 then none
  else do
    let cut := separatorAt s
    let ordinal ← parseDate (s.take cut)
    let (clock, offset) ←
      if s.length ≤ cut then some (0, none) else parseTime (s.drop (cut + 1))
    return ⟨ordinal * dayMicros + clock, offset⟩

def fromisoformat (s : Str) : Except Exc Datetime :=
  match parse? s with
  | some t => .ok t
  | none => .error ⟨.valueError, ["Invalid isoformat string: ", .repr (.str s)]⟩

/-- The instant a datetime is compared by. -/
def instant (t : Datetime) : Int := t.clock - t.offset.getD 0

/-- `a <= b`: a naive and an aware datetime have no order. -/
def le (a b : Datetime) : Except Exc Bool :=
  if a.offset.isSome = b.offset.isSome then .ok (a.instant ≤ b.instant)
  else .error ⟨.typeError, ["can't compare offset-naive and offset-aware datetimes"]⟩

theorem le_ok {a b : Datetime} {answer : Bool} :
    a.le b = .ok answer ↔
      a.offset.isSome = b.offset.isSome ∧ decide (a.instant ≤ b.instant) = answer := by
  unfold le
  split
  · rename_i comparable
    simp [comparable]
  · rename_i mixed
    simp [mixed]

example : (parse? "2026-01-02T03:04:05.5-01:00").map instant =
    (parse? "20260102T040405.500000+0000").map instant := by decide

end Datetime

/-- `s.replace(c, t)` for a one-character pattern. -/
def Str.replace (s : Str) (c : Chr) (t : Str) : Str := s.flatMap (fun d => if d = c then t else [d])

end Py
