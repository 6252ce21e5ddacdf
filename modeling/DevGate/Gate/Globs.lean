import DevGate.Gate.RegressionCheck
import DevGate.Lib.Substitute
import DevGate.Lib.Wildcard

set_option autoImplicit false

/- The glob matchers of the gates: `fnmatch` under `regression_diff.py` and `game_regression.py`,
and the regular expressions of guardrails-scan.mjs. -/
namespace DevGate.Gate

open Py
open Wildcard (Piece Item)

namespace Globs

/-- A glob of literal characters, question marks and stars. -/
structure Glob where
  text : Str
  plain : ∀ c ∈ text, c ≠ Chr.ofChar '[' ∧ c ≠ Chr.ofChar ']' ∧ c ≠ Chr.ofChar '\\'

/-- What a character of such a glob stands for. -/
def pieceOf (c : Chr) : Piece Chr :=
  if c = Chr.ofChar '*' then .many else if c = Chr.ofChar '?' then .one else .lit c

/-- `fnmatch.fnmatch` of a pattern without brackets, where case counts. -/
def fnmatch (name pattern : Str) : Bool :=
  Wildcard.matchesAll (fun _ => true) (pattern.map pieceOf) name

end Globs

namespace Game

/-- `glob_matches` of game_regression.py. -/
def globMatches (path : Str) (globs : List Str) : Bool :=
  globs.any (fun g => Globs.fnmatch (Regression.baseName path) g || Globs.fnmatch path g)

end Game

namespace Scan

open Substitute (replaceAll)

/-- The 16-bit units of a text. -/
def units : Str → Str :=
  List.flatMap (fun c =>
    if c.val < 0x10000 then [c]
    else [Fin.ofNat 0x110000 (0xd800 + (c.val - 0x10000) / 0x400),
      Fin.ofNat 0x110000 (0xdc00 + (c.val - 0x10000) % 0x400)])

/-- A wildcard, until it is a part of the pattern. -/
inductive Wild where
  | dslash
  | globstar
  | star
  | qmark
  deriving DecidableEq

def Wild.source : Wild → Str
  | .dslash => "**/"
  | .globstar => "**"
  | .star => "*"
  | .qmark => "?"

def Wild.word : Wild → Str
  | .dslash => "DSLASH"
  | .globstar => "GLOBSTAR"
  | .star => "STAR"
  | .qmark => "QMARK"

def nul : Chr := ⟨0, by decide⟩

/-- `P`. -/
def mark : Str := [nul, Chr.ofChar 'G', Chr.ofChar 'S', nul]

def Wild.placeholder (w : Wild) : Str := mark ++ w.word ++ mark

/-- `(?:.*/)?`, `.*` or `.`. -/
def Wild.item : Wild → Item Chr
  | .dslash => .may [.many, .lit (Chr.ofChar '/')]
  | .globstar => .must .many
  | .star => .must .many
  | .qmark => .must .one

/-- `tmp`: each wildcard of the glob replaced by its placeholder. -/
def marked (glob : Str) : Str :=
  [Wild.dslash, .globstar, .star, .qmark].foldl
    (fun tmp w => replaceAll w.source w.placeholder tmp) glob

/-- A character that stands for itself; the special ones are escaped. -/
def letter (c : Chr) : Item Chr := .must (.lit c)

/-- `pattern`: each placeholder replaced by what it stands for. -/
def pattern (glob : Str) : List (Item Chr) :=
  [Wild.dslash, .globstar, .star, .qmark].foldl
    (fun items w => replaceAll (w.placeholder.map letter) [w.item] items) ((marked glob).map letter)

/-- What `.` takes: no line terminator. -/
def dot (c : Chr) : Bool :=
  c ≠ Chr.ofChar '\n' && c ≠ Chr.ofChar '\r' && c.val ≠ 0x2028 && c.val ≠ 0x2029

/-- `globMatch`. -/
def globMatch (glob path : Str) : Bool := Wildcard.takes dot (pattern (units glob)) (units path)

/-- `globMatchesAny`. -/
def globMatchesAny (globs : List Str) (rel base : Str) : Bool :=
  globs.any (fun g => globMatch g rel || globMatch g base)

end Scan

end DevGate.Gate
