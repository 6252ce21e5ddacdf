import DevGate.Lib.Machine
import DevGate.Py.Duration
import DevGate.Hub.Registry

set_option autoImplicit false

/- `hub.alerts`: one alert as a GitHub issue or a comment on one, and the issues of
GitHub as the notifier and others change them. -/
namespace DevGate.Hub

open Py

namespace Alerts

/-- (repo, check class, runner). -/
abbrev IssueKey := Str × Str × Str

/-- The notifier's settings and its two in-memory tables. -/
structure Notifier where
  token : Str
  cooldownSec : Flt
  openIssues : Dict IssueKey Nat
  lastComment : Dict IssueKey Rat

structure Raised where
  repo : Str
  checkClass : Str
  runner : Str
  detail : Str

/-- The search for a title: the number of its first item, if it has one. -/
inductive Searched where
  | items (first : Option Nat)
  | httpError
  | failed

inductive Filed where
  | created (number : Nat)
  | httpError
  | failed

inductive Commented where
  | posted
  | httpError
  | failed

/-- What the requests of one alert are answered, and its times: `time.monotonic()`
and the clock on the wall. `failed` is any exception but an `HTTPError`. -/
structure Replies where
  search : Searched
  file : Filed
  comment : Commented
  monotonic : Rat
  now : Clock

/-- A request the notifier made, with its answer. -/
inductive Call where
  | search (repo title : Str) (reply : Searched)
  | file (repo title body : Str) (reply : Filed)
  | comment (repo : Str) (number : Nat) (body : Str) (reply : Commented)

/-- `[devgate-monitor] ` -/
def titlePrefix : Str := "[devgate-monitor] "

def Raised.title (a : Raised) : Str := titlePrefix ++ (a.checkClass ++ (": " ++ a.runner))

/-- The dedupe key of an alert. -/
def Raised.key (a : Raised) : IssueKey := (a.repo, a.checkClass, a.runner)

/-- `_format_body`. -/
def formatBody (a : Raised) (now : Clock) : Str :=
  "## DevGate Monitor Alert\n\n- **Repo:** `" ++ a.repo ++ "`\n- **Check:** `" ++ a.checkClass ++
    "`\n- **Runner:** `" ++ a.runner ++ "`\n- **Time:** " ++ nowIso now ++ "\n\n### Detail\n\n" ++
    a.detail ++ "\n"

/-- `_key_from_title`: cut at the first colon, and stripped. -/
def keyFromTitle (repo title : Str) : Option IssueKey :=
  if titlePrefix.isPrefixOf title then
    let rest := title.drop titlePrefix.length
    if Chr.ofChar ':' ∈ rest then
      some (repo, Str.strip (rest.takeWhile (fun c => c != Chr.ofChar ':')),
        Str.strip ((rest.dropWhile (fun c => c != Chr.ofChar ':')).drop 1))
    else none
  else none

namespace Notifier

variable (n : Notifier)

/-- The cached number for the key a title parses to. -/
def cached (repo title : Str) : Option Nat := (keyFromTitle repo title).bind (Dict.get? n.openIssues)

def remember (key : Option IssueKey) (number : Nat) : Notifier :=
  match key with
  | some key => { n with openIssues := Dict.set n.openIssues key number }
  | none => n

/-- `_find_open_issue`; nothing where its request raises out of it. -/
def findOpenIssue (repo title : Str) (reply : Searched) :
    Option (Option Nat) × List Call × Notifier :=
  match n.cached repo title with
  | some number => (some (some number), [], n)
  | none =>
      match reply with
      | .items (some number) =>
          (some (some number), [.search repo title reply], n.remember (keyFromTitle repo title) number)
      | .items none => (some none, [.search repo title reply], n)
      | .httpError => (some none, [.search repo title reply], n)
      | .failed => (none, [.search repo title reply], n)

/-- The last comment of the key is not a cooldown old. -/
def cooling (key : IssueKey) (monotonic : Rat) : Bool :=
  match Dict.get? n.lastComment key with
  | some last => (Json.double (monotonic - last)).lt n.cooldownSec
  | none => false

/-- The recurrence branch. -/
def recur (a : Raised) (number : Nat) (r : Replies) : List Call × Notifier :=
  if n.cooling a.key r.monotonic then ([], n)
  else
    ([.comment a.repo number (formatBody a r.now) r.comment],
      match r.comment with
      | .failed => n
      | _ => { n with lastComment := Dict.set n.lastComment a.key r.monotonic })

/-- The first occurrence. -/
def fileIssue (a : Raised) (r : Replies) : List Call × Notifier :=
  ([.file a.repo a.title (formatBody a r.now) r.file],
    match r.file with
    | .created number => { n with openIssues := Dict.set n.openIssues a.key number }
    | _ => n)

/-- `raise_alert`, after the audit log. -/
def raiseAlert (a : Raised) (r : Replies) : List Call × Notifier :=
  if n.token = [] then ([], n)
  else
    match n.findOpenIssue a.repo a.title r.search with
    | (none, calls, n) => (calls, n)
    | (some (some number), calls, n) =>
        let (more, n) := n.recur a number r
        (calls ++ more, n)
    | (some none, calls, n) =>
        let (more, n) := n.fileIssue a r
        (calls ++ more, n)

end Notifier

structure Issue where
  repo : Str
  number : Nat
  title : Str
  isOpen : Bool
  deriving DecidableEq

/-- The notifier, and the issues of GitHub. -/
structure Desk where
  notifier : Notifier
  issues : List Issue

inductive Event where
  | alert (a : Raised) (r : Replies)
  /-- Somebody else opens an issue. -/
  | opened (repo : Str) (number : Nat) (title : Str)
  | closed (repo : Str) (number : Nat)
  | reopened (repo : Str) (number : Nat)

/-- A creation that is answered leaves an open issue. -/
def applyCall (issues : List Issue) (call : Call) : List Issue :=
  match call with
  | .file repo title _ (.created number) => issues ++ [⟨repo, number, title, true⟩]
  | _ => issues

def setOpen (repo : Str) (number : Nat) (isOpen : Bool) (issues : List Issue) : List Issue :=
  issues.map (fun issue =>
    if issue.repo = repo ∧ issue.number = number then { issue with isOpen := isOpen } else issue)

def Desk.step (d : Desk) (event : Event) : Desk :=
  match event with
  | .alert a r =>
      let (calls, notifier) := d.notifier.raiseAlert a r
      ⟨notifier, calls.foldl applyCall d.issues⟩
  | .opened repo number title => { d with issues := d.issues ++ [⟨repo, number, title, true⟩] }
  | .closed repo number => { d with issues := setOpen repo number false d.issues }
  | .reopened repo number => { d with issues := setOpen repo number true d.issues }

end Alerts

end DevGate.Hub
