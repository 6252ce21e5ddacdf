import DevGate.Coherence.Evaluators

set_option autoImplicit false

/- hub/coherence/evaluate.py: the evaluator runtime. `table` gives the built-in
evaluators their behaviour; `drift` is what `first_mutation` answers after an
evaluator call, nothing where no closed subject is given. -/
namespace DevGate.Evaluate

open Py Evaluators

def evaluatorError : ExcClass := .user "EvaluatorError" .runtimeError

structure Row where
  assertionId : Str
  version : Int
  outcome : Outcome
  reason : Option Text
  enforcement : Enforcement
  deriving DecidableEq

/-- The locals of `run`. -/
structure Progress where
  ledger : List Row
  findings : List Finding
  done : Dict Str Outcome
  error : Option Text

def Progress.start : Progress := ⟨[], [], [], none⟩

/-- The fact ids of the captured-fact selectors. -/
def declaredFacts (a : Assertion) : List (Option Str) :=
  (a.subjects.filter (fun sel => sel.kind = .capturedFact)).map Selector.factId

def isUnbound (captured : Dict Str Value) (fid : Option Str) : Bool :=
  match fid with
  | none => true
  | some fid => !Dict.contains captured fid

/-- The declared fact the `next` expression stops at. -/
def firstUnbound (captured : Dict Str Value) (a : Assertion) : Option (Option Str) :=
  (declaredFacts a).find? (isUnbound captured)

/-- `{fid: captured_facts[fid] for fid in declared_facts}`. -/
def bindFacts (captured : Dict Str Value) :
    List (Option Str) → Dict Str Value → Except Exc (Dict Str Value)
  | [], facts => .ok facts
  | none :: _, _ => .error ⟨.keyError, [.repr .null]⟩
  | some fid :: rest, facts =>
      match Dict.get? captured fid with
      | none => .error ⟨.keyError, [.repr (.str fid)]⟩
      | some content => bindFacts captured rest (Dict.set facts fid content)

/-- The first direct dependency that did not settle as SATISFIED. -/
def blockedBy (done : Dict Str Outcome) (a : Assertion) : Option Str :=
  a.dependencies.find? (fun d => Dict.get? done d ≠ some .satisfied)

/-- What one iteration decides about its assertion; `error` is the
ERROR-execution condition it raises. -/
structure Verdict where
  outcome : Outcome
  reason : Option Text
  found : List Finding
  error : Option Text

/-- The evaluator call and its `except` clauses. -/
def judge (a : Assertion) (result : Except Exc (List Finding)) : Verdict :=
  match result with
  | .ok found => ⟨if found ≠ [] then .violated else .satisfied, none, found, none⟩
  | .error e =>
      if e.isA [unresolved] then ⟨.unresolved, some e.msg, [], none⟩
      else ⟨.unresolved, some ["evaluator-crash:", e.cls.name], [],
        some ["evaluator-crash:", e.cls.name, ":", a.id]⟩

/-- The re-verification of the closed subject after the call. -/
def remeasure (drift : Option Text) (v : Verdict) : Verdict :=
  match drift with
  | none => v
  | some path =>
      let reason : Text := "input-mutation:" :: path
      { v with outcome := .unresolved, reason := some reason, error := v.error.or (some reason) }

def assess (table : Builtin → Behaviour) (captured : Dict Str Value)
    (drift : Assertion → Option Text) (done : Dict Str Outcome) (a : Assertion) :
    Except Exc Verdict :=
  match Builtin.ofId? a.evaluator.id with
  | none => .ok ⟨.unresolved, some ["unapproved-evaluator"], [], none⟩
  | some builtin =>
      -- `next(..., None)`: a missing fact id reads as nothing missing
      match (firstUnbound captured a).join with
      | some fid => .ok ⟨.unresolved, some ["captured-fact-missing:", fid], [], none⟩
      | none => do
          let facts ← bindFacts captured (declaredFacts a) []
          if (blockedBy done a).isSome then
            .ok ⟨.unresolved, some ["dependency-blocked"], [], some ["dependency-blocked:", a.id]⟩
          else .ok (remeasure (drift a) (judge a (table builtin a facts)))

/-- Append the row, keep the findings of a completed evaluation, and keep the
first ERROR-execution condition. -/
def Progress.settle (s : Progress) (a : Assertion) (v : Verdict) : Progress where
  ledger := s.ledger ++ [⟨a.id, a.version, v.outcome, v.reason,
    if v.outcome ≠ .satisfied then .block else .advisory⟩]
  findings := if v.outcome ≠ .unresolved then s.findings ++ v.found else s.findings
  done := Dict.set s.done a.id v.outcome
  error := s.error.or v.error

def step (table : Builtin → Behaviour) (captured : Dict Str Value) (drift : Assertion → Option Text)
    (s : Progress) (a : Assertion) : Except Exc Progress := do
  let v ← assess table captured drift s.done a
  .ok (s.settle a v)

def defaultMaxEvaluators : Int := 10000

def run (table : Builtin → Behaviour) (captured : Dict Str Value) (drift : Assertion → Option Text)
    (maxEvaluators : Int) (planned : List Assertion) : Except Exc Progress :=
  if planned.length > maxEvaluators then
    .error ⟨evaluatorError, ["planned ", .str (.int planned.length), " evaluators exceeds limit ",
      .str (.int maxEvaluators)]⟩
  else planned.foldlM (step table captured drift) .start

end DevGate.Evaluate
