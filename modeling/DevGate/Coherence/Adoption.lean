import DevGate.Coherence.Evaluate

set_option autoImplicit false

/- hub/coherence/adoption.py: the fingerprinted baseline ratchet and the scoped
exceptions. -/
namespace DevGate.Adoption

open Py Evaluate

def policyError : ExcClass := .user "PolicyError" .valueError

/-- `policy._SEVERITY_RANK`. -/
def severityRank : Dict Str Nat := [("low", 0), ("medium", 1), ("high", 2), ("critical", 3)]

/-- `policy.DEFAULT_ENFORCED_CORE`. -/
def defaultEnforcedCore : List Str :=
  ["devgate.builtin.identity-consistency", "devgate.builtin.traceability-completeness",
    "devgate.builtin.release-claim-consistency"]

def parse (ts : Str) : Except Exc Datetime :=
  Datetime.fromisoformat (ts.replace (Chr.ofChar 'Z') "+00:00")

/-- The `fingerprint` object of a baseline entry or an exception. -/
structure Fingerprint where
  assertionId : Str
  assertionVersion : Int
  subjectLocation : Str
  violationKey : Str
  deriving DecidableEq

def fingerprint (fp : Fingerprint) : Str :=
  Str.join [Chr.ofChar '|'] [fp.assertionId, Chr.ofChar 'v' :: Str.ofInt fp.assertionVersion,
    fp.subjectLocation, fp.violationKey]

structure BaselineEntry where
  fingerprint : Fingerprint
  severity : Option Str
  status : Option Str
  deriving DecidableEq

structure ExceptionRecord where
  exceptionId : Str
  subjectRef : Option Str
  assertionId : Option Str
  findingFingerprint : Fingerprint
  expiresAt : Str
  deriving DecidableEq

/-- What the ladder reads of a planned assertion. -/
structure Planned where
  id : Str
  version : Option Int
  evaluator : Option Str
  deriving DecidableEq

def Planned.ofAssertion (a : Assertion) : Planned := ⟨a.id, some a.version, some a.evaluator.id⟩

/-- The inputs that set how strict the ladder is. -/
structure Ladder where
  stage : Int
  evaluationTime : Str
  coreClasses : Option (List Str)
  severityFloor : Dict Str Str
  advisoryExpired : Bool

def vclass (f : Finding) : Str :=
  match f.violationClass with
  | some (c :: rest) => c :: rest
  | _ =>
      let parts := Str.split (Chr.ofChar '|') f.findingKey
      if 3 ≤ parts.length then parts.getLastD [] else "unknown"

def isWildcard (scope : Option Str) : Bool := scope = none ∨ scope = some "*" ∨ scope = some []

/-- Wildcards across assertions or repositories are forbidden. -/
def validateExceptions : List ExceptionRecord → Except Exc Unit
  | [] => .ok ()
  | ex :: rest =>
      if isWildcard ex.assertionId then
        .error ⟨policyError, ["wildcard exception rejected: no assertion scope"]⟩
      else if isWildcard ex.subjectRef then
        .error ⟨policyError, ["wildcard exception rejected: no subject scope"]⟩
      else validateExceptions rest

def versions (planned : List Planned) : Dict Str Int :=
  Dict.ofPairs (planned.map (fun a => (a.id, a.version.getD 1)))

def evaluatorOf (planned : List Planned) : Dict Str (Option Str) :=
  Dict.ofPairs (planned.map (fun a => (a.id, a.evaluator)))

/-- `_shelter_ends`. -/
def shelterEnds (stage : Int) (evaluators : Dict Str (Option Str)) (aid : Str)
    (core : List Str) : Bool :=
  if 4 ≤ stage then true
  else if stage = 3 then
    match (Dict.get? evaluators aid).join with
    | some evaluator => evaluator ∈ core
    | none => false
  else false

/-- `b.get("status", "open") == "open"`. -/
def BaselineEntry.isOpen (b : BaselineEntry) : Bool := b.status.getD "open" = "open"

/-- Central policy has raised the floor above the severity recorded at adoption. -/
def isEscalated (floors : Dict Str Str) (b : BaselineEntry) : Bool :=
  match (Dict.get? floors b.fingerprint.assertionId).bind (Dict.get? severityRank),
      b.severity.bind (Dict.get? severityRank) with
  | some floor, some adopted => adopted < floor
  | _, _ => false

def baselineFps (baseline : List BaselineEntry) : List Str :=
  (baseline.filter BaselineEntry.isOpen).map (fun b => Adoption.fingerprint b.fingerprint)

def escalatedFps (floors : Dict Str Str) (baseline : List BaselineEntry) : List Str :=
  (baseline.filter (fun b => b.isOpen && isEscalated floors b)).map
    (fun b => Adoption.fingerprint b.fingerprint)

/-- The exceptions by fingerprint: the last active one, and the expired. -/
structure Exceptions where
  active : Dict Str ExceptionRecord
  expired : List Str

def sortException (now : Datetime) (s : Exceptions) (ex : ExceptionRecord) :
    Except Exc Exceptions := do
  let fp := fingerprint ex.findingFingerprint
  let expires ← parse ex.expiresAt
  if ← expires.le now then .ok { s with expired := fp :: s.expired }
  else .ok { s with active := Dict.set s.active fp ex }

/-- What the loop over the findings reads. -/
structure Context where
  stage : Int
  versions : Dict Str Int
  evaluators : Dict Str (Option Str)
  core : List Str
  baseline : List Str
  escalated : List Str
  exceptions : Exceptions
  advisoryExpired : Bool

def components (versions : Dict Str Int) (f : Finding) : Fingerprint where
  assertionId := f.assertionId
  assertionVersion := (Dict.get? versions f.assertionId).getD 1
  subjectLocation := f.subjectLocations.headD "?"
  violationKey := vclass f

/-- The body of the loop over the findings: the finding, and whether it blocks. -/
def annotate (ctx : Context) (f : Finding) : Finding × Bool :=
  let fp := fingerprint (components ctx.versions f)
  let f := { f with fingerprint := some fp }
  if ctx.stage < 2 then ({ f with enforcement := .advisory }, false)
  else if fp ∈ ctx.exceptions.expired then ({ f with enforcement := .block }, true)
  else match Dict.get? ctx.exceptions.active fp with
    | some ex =>
        ({ f with enforcement := .exceptionAdvisory, exceptionId := some ex.exceptionId }, false)
    | none =>
        if fp ∈ ctx.baseline ∧ fp ∉ ctx.escalated ∧ ctx.advisoryExpired = false ∧
            shelterEnds ctx.stage ctx.evaluators f.assertionId ctx.core = false then
          ({ f with enforcement := .advisory }, false)
        else if ctx.advisoryExpired = true ∧ fp ∈ ctx.baseline then
          let why : Str := if fp ∉ ctx.escalated then "existing-debt" else "severity-escalated"
          ({ f with enforcement := .block, reason := some ("advisory-expired:" ++ why) }, true)
        else ({ f with enforcement := .block }, true)

/-- `max(fs, key=...)`: the first of the strictest. -/
def strictest : List Finding → Option Enforcement
  | [] => none
  | f :: rest =>
      match strictest rest with
      | none => some f.enforcement
      | some e => some (if f.enforcement.rank < e.rank then e else f.enforcement)

def softer (fs : List Finding) (e : Enforcement) : List Enforcement :=
  [Enforcement.advisory, .exceptionAdvisory, .block].filter
    (fun name => name ≠ e ∧ 0 < fs.countP (fun f => f.enforcement = name))

/-- Several findings collapse into one row: the reason names the softer classes. -/
def mirrorReason (fs : List Finding) (e : Enforcement) : Str :=
  Str.join [] ["multi-finding:", Str.ofNat fs.length, " mirrors:", e.name,
    (softer fs e).flatMap (fun name => Str.join [] [" softer:", name.name, "x",
      Str.ofNat (fs.countP (fun f => f.enforcement = name))])]

/-- The body of the loop over the ledger: the row, and whether it blocks. -/
def mirror (stage : Int) (findings : List Finding) (e : Row) : Row × Bool :=
  match e.outcome with
  | .satisfied => ({ e with enforcement := .advisory }, false)
  | .violated =>
      let fs := findings.filter (fun f => f.assertionId = e.assertionId)
      match strictest fs with
      | none =>
          ({ e with enforcement := .block, reason := some ["violation-without-finding-detail"] },
            true)
      | some enforcement =>
          let reason := if softer fs enforcement ≠ [] then
              some [.lit (mirrorReason fs enforcement)]
            else e.reason
          ({ e with enforcement := enforcement, reason := reason }, enforcement = .block)
  | .unresolved =>
      if 2 ≤ stage then ({ e with enforcement := .block }, true)
      else ({ e with enforcement := .advisory }, false)

/-- A loop that rewrites each item and may set `blocked`. -/
def sweep {α : Type} (body : α → α × Bool) : List α → Bool → List α × Bool
  | [], blocked => ([], blocked)
  | x :: rest, blocked =>
      let (x, blocks) := body x
      let (rest, blocked) := sweep body rest (blocked || blocks)
      (x :: rest, blocked)

structure Report where
  ledger : List Row
  findings : List Finding
  blocked : Bool

/-- The two loops: over the findings, then over the ledger. -/
def climb (ctx : Context) (ledger : List Row) (findings : List Finding) : Report :=
  let (findings, blocked) := sweep (annotate ctx) findings false
  let (ledger, blocked) := sweep (mirror ctx.stage findings) ledger blocked
  { ledger, findings, blocked }

def contextOf (planned : List Planned) (baseline : List BaselineEntry) (ladder : Ladder)
    (exceptions : Exceptions) : Context where
  stage := ladder.stage
  versions := versions planned
  evaluators := evaluatorOf planned
  core := ladder.coreClasses.getD defaultEnforcedCore
  baseline := baselineFps baseline
  escalated := escalatedFps ladder.severityFloor baseline
  exceptions := exceptions
  advisoryExpired := ladder.advisoryExpired

def evaluate (ledger : List Row) (findings : List Finding) (planned : List Planned)
    (baseline : List BaselineEntry) (exceptions : List ExceptionRecord) (ladder : Ladder) :
    Except Exc Report := do
  validateExceptions exceptions
  let now ← parse ladder.evaluationTime
  let sorted ← exceptions.foldlM (sortException now) ⟨[], []⟩
  .ok (climb (contextOf planned baseline ladder sorted) ledger findings)

end DevGate.Adoption
