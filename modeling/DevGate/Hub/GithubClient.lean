import DevGate.Py.Duration
import DevGate.Py.Number
import DevGate.Py.Repr
import DevGate.Hub.Registry

set_option autoImplicit false

/- `hub.github_client`: one request, its retries under a rate limit, and the
timestamps of the answers. -/
namespace DevGate.Hub

open Py

/-- The requests the monitor makes. -/
inductive Endpoint where
  | runners (repo : Str)
  | queuedRuns (repo : Str)
  | commit (repo branch : Str)
  | checkRuns (repo : Str) (sha : Value)
  | workflows (repo : Str)
  /-- `tail` is the query after the id. -/
  | workflowRuns (repo : Str) (id : Value) (tail : Str)

/-- The path as the monitor writes it. -/
def Endpoint.path : Endpoint → Text
  | .runners repo => ["/repos/", .lit repo, "/actions/runners"]
  | .queuedRuns repo => ["/repos/", .lit repo, "/actions/runs?per_page=50&status=queued"]
  | .commit repo branch => ["/repos/", .lit repo, "/commits/", .lit branch, "?per_page=1"]
  | .checkRuns repo sha => ["/repos/", .lit repo, "/commits/", .str sha, "/check-runs?per_page=100"]
  | .workflows repo => ["/repos/", .lit repo, "/actions/workflows?per_page=100"]
  | .workflowRuns repo id tail =>
      ["/repos/", .lit repo, "/actions/workflows/", .str id, "/runs", .lit tail]

structure Alert where
  repo : Str
  checkClass : Str
  runner : Value
  detail : Text
  deriving DecidableEq

/-- What a poll has done so far: the statuses its requests were answered with,
and the alerts it raised. -/
structure Polled where
  statuses : List Nat
  alerts : List Alert
  deriving DecidableEq

/-- The interpreter's tables, what the `n`-th request of the poll is answered (or
raises), and the time once `n` requests are answered. -/
structure Outside where
  unicode : Unicode
  printer : Printer
  answer : Nat → Endpoint → Except Exc (Nat × Value)
  clock : Nat → Datetime

def Polled.raiseAlert (s : Polled) (alert : Alert) : Polled := { s with alerts := s.alerts ++ [alert] }

def invalidURL : ExcClass := .user "InvalidURL" (.user "HTTPException" .exception)

/-- `urllib.request.Request`: the fragment after the last `#` is not sent. -/
def selector (path : Str) : Str :=
  if Chr.ofChar '#' ∈ path then
    ((path.reverse.dropWhile (fun c => c != Chr.ofChar '#')).drop 1).reverse
  else path

/-- What `http.client` refuses to send: control characters and spaces, then
anything outside ASCII. -/
def checkSelector (path : Str) : Except Exc Unit := do
  ensure ((selector path).all (fun c => 0x20 < c.val && c.val != 0x7f))
    ⟨invalidURL, ["URL can't contain control characters. ", .repr (.str (selector path))]⟩
  ensure ((selector path).all (fun c => c.val < 0x80))
    ⟨Tokens.unicodeEncodeError, ["'ascii' codec can't encode characters"]⟩

namespace Outside

variable (net : Outside)

/-- `GitHubClient.get`. -/
def get (request : Endpoint) (s : Polled) : Except Exc ((Nat × Value) × Polled) := do
  checkSelector (net.printer.render request.path)
  let (status, body) ← net.answer s.statuses.length request
  return ((status, body), { s with statuses := s.statuses ++ [status] })

/-- The wait after a rate-limited answer. -/
def backOff (backoffMax : Nat) (attempt : Nat) (body : Value) : Except Exc Unit := do
  let first ← body.get "retry_after"
  let second ← body.get "X-Retry-After"
  let given := if (first.getD .null).truthy then first.getD .null else second.getD .null
  let wait ← if given.truthy then net.unicode.int given else pure (2 ^ attempt * 10)
  ensure (0 ≤ min wait backoffMax) ⟨.valueError, ["sleep length must be non-negative"]⟩

/-- The attempts of `get_with_backoff` from the given one on. -/
def getFrom (backoffMax : Nat) (request : Endpoint) :
    Nat → Nat → Polled → Except Exc (Option (Nat × Value) × Polled)
  | _, 0, s => .ok (none, s)
  | attempt, left + 1, s => do
      let (answer, s) ← net.get request s
      if answer.1 = 403 ∨ answer.1 = 429 then do
        net.backOff backoffMax attempt answer.2
        getFrom backoffMax request (attempt + 1) left s
      else return (some answer, s)

/-- `get_with_backoff`. -/
def getWithBackoff (backoffMax : Nat) (request : Endpoint) (s : Polled) :
    Except Exc (Option (Nat × Value) × Polled) :=
  net.getFrom backoffMax request 0 3 s

/-- `get_with_backoff`, and what a check does with a 200; it ends at anything else. -/
def onOk (backoffMax : Nat) (request : Endpoint) (next : Value → Polled → Except Exc Polled)
    (s : Polled) : Except Exc Polled := do
  let (result, s) ← net.getWithBackoff backoffMax request s
  match result with
  | none => return s
  | some (status, body) => if status ≠ 200 then return s else next body s

/-- A request only adds the statuses it is answered with. -/
theorem getFrom_grows {net : Outside} {backoffMax left : Nat} {request : Endpoint} {attempt : Nat}
    {s s' : Polled} {result : Option (Nat × Value)}
    (ran : net.getFrom backoffMax request attempt left s = .ok (result, s')) :
    ∃ more, s' = { s with statuses := s.statuses ++ more } := by
  induction left generalizing attempt s with
  | zero =>
      cases ran
      exact ⟨[], by simp⟩
  | succ left ih =>
      rw [getFrom] at ran
      obtain ⟨⟨answer, s₁⟩, got, rest⟩ := bind_ok.mp ran
      obtain ⟨u, sent, replied⟩ := bind_ok.mp got
      obtain ⟨⟨status, body⟩, answered, made⟩ := bind_ok.mp replied
      cases made
      dsimp only at rest
      split at rest
      · obtain ⟨u, waited, again⟩ := bind_ok.mp rest
        obtain ⟨more, rfl⟩ := ih again
        exact ⟨status :: more, by simp⟩
      · cases rest
        exact ⟨[status], rfl⟩

/-- What the `n`-th request of a poll is answered, where that is a 200. -/
def okBody (n : Nat) (request : Endpoint) : Option Value := do
  (checkSelector (net.printer.render request.path)).toOption
  let (status, body) ← (net.answer n request).toOption
  if status = 200 then some body else none

theorem toOption_eq_some {ε α : Type} {x : Except ε α} {a : α} : x.toOption = some a ↔ x = .ok a := by
  cases x <;> simp [Except.toOption]

theorem okBody_eq_some {net : Outside} {n : Nat} {request : Endpoint} {body : Value} :
    net.okBody n request = some body ↔
      checkSelector (net.printer.render request.path) = .ok () ∧
        net.answer n request = .ok (200, body) := by
  unfold okBody
  rw [Option.bind_eq_bind, Option.bind_eq_some_iff]
  constructor
  · rintro ⟨u, sent, rest⟩
    obtain ⟨⟨status, body'⟩, answered, found⟩ := Option.bind_eq_some_iff.mp rest
    dsimp only at found
    by_cases fine : status = 200
    · rw [if_pos fine] at found
      cases found
      exact ⟨toOption_eq_some.mp sent, fine ▸ toOption_eq_some.mp answered⟩
    · rw [if_neg fine] at found
      cases found
  · rintro ⟨sent, answered⟩
    refine ⟨(), toOption_eq_some.mpr sent, ?_⟩
    rw [Option.bind_eq_bind, toOption_eq_some.mpr answered, Option.bind_some]
    exact if_pos rfl

/-- Where what follows a 200 adds to the statuses, so does the whole. -/
theorem onOk_grows {net : Outside} {backoffMax : Nat} {request : Endpoint}
    {next : Value → Polled → Except Exc Polled} {s s' : Polled}
    (grows : ∀ body s s', next body s = .ok s' → s.statuses <+: s'.statuses)
    (ran : net.onOk backoffMax request next s = .ok s') : s.statuses <+: s'.statuses := by
  obtain ⟨⟨result, s₁⟩, asked, rest⟩ := bind_ok.mp ran
  obtain ⟨more, rfl⟩ := getFrom_grows asked
  have grown : s.statuses <+: s.statuses ++ more := List.prefix_append _ _
  cases result with
  | none => cases rest; exact grown
  | some answer =>
      dsimp only at rest
      split at rest
      · cases rest
        exact grown
      · exact grown.trans (grows _ _ _ rest)

/-- Where every answer was a 200, the request was answered once, and what follows ran. -/
theorem onOk_fine {net : Outside} {backoffMax : Nat} {request : Endpoint}
    {next : Value → Polled → Except Exc Polled} {s s' : Polled}
    (grows : ∀ body s s', next body s = .ok s' → s.statuses <+: s'.statuses)
    (ran : net.onOk backoffMax request next s = .ok s')
    (fine : ∀ status ∈ s'.statuses.drop s.statuses.length, status = 200) :
    ∃ body, net.okBody s.statuses.length request = some body ∧
      next body { s with statuses := s.statuses ++ [200] } = .ok s' := by
  obtain ⟨⟨result, s₁⟩, asked, rest⟩ := bind_ok.mp ran
  rw [getWithBackoff, getFrom] at asked
  obtain ⟨⟨answer, s₂⟩, got, later⟩ := bind_ok.mp asked
  obtain ⟨⟨⟩, sent, replied⟩ := bind_ok.mp got
  obtain ⟨⟨status, body⟩, answered, made⟩ := bind_ok.mp replied
  cases made
  have after : s₁.statuses <+: s'.statuses := by
    cases result with
    | none => cases rest; exact List.prefix_refl _
    | some answer =>
        dsimp only at rest
        split at rest
        · cases rest
          exact List.prefix_refl _
        · exact grows _ _ _ rest
  have first : status = 200 := by
    have logged : s.statuses ++ [status] <+: s₁.statuses := by
      dsimp only at later
      split at later
      · obtain ⟨u, waited, again⟩ := bind_ok.mp later
        obtain ⟨more, rfl⟩ := getFrom_grows again
        exact List.prefix_append _ _
      · cases later
        exact List.prefix_refl _
    obtain ⟨more, same⟩ := logged.trans after
    exact fine status (by simp [← same])
  subst first
  cases later
  exact ⟨body, okBody_eq_some.mpr ⟨sent, answered⟩, rest⟩

theorem onOk_of_okBody {net : Outside} {request : Endpoint} {s : Polled} {body : Value}
    (found : net.okBody s.statuses.length request = some body) (backoffMax : Nat)
    (next : Value → Polled → Except Exc Polled) :
    net.onOk backoffMax request next s = next body { s with statuses := s.statuses ++ [200] } := by
  obtain ⟨sent, answered⟩ := okBody_eq_some.mp found
  simp [onOk, getWithBackoff, getFrom, get, sent, answered]

/-- `datetime.now(timezone.utc)`. -/
def now (s : Polled) : Datetime := net.clock s.statuses.length

end Outside

/-- `parse_iso(value)`; nothing where it answers `None`. -/
def parseIso (value : Value) : Except Exc (Option Datetime) :=
  if value.truthy = false then .ok none
  else
    match value with
    | .str s =>
        match Datetime.fromisoformat (Str.replace s (Chr.ofChar 'Z') "+00:00") with
        | .ok t => .ok (some t)
        | .error _ => .ok none
    | other =>
        .error ⟨.attributeError, ["'", other.typeName, "' object has no attribute 'replace'"]⟩

/-- `v.get(key, default)`. -/
def getDefault (v : Value) (key : Str) (default : Value) : Except Exc Value := do
  return (← v.get key).getD default

end DevGate.Hub
