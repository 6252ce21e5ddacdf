import DevGate.Coherence.Evaluators

set_option autoImplicit false

/- hub/coherence/plan.py: the assertion graph is checked and ordered before any
evaluator runs. A document that satisfies the frozen schema is read as the
assertion it describes. -/
namespace DevGate.Plan

open Py Evaluators

def planError : ExcClass := .user "PlanError" .valueError

/-- `_check_assertion`. -/
def checkAssertion (doc : Value) : Except Exc Assertion :=
  match doc with
  | .dict kvs =>
      let errs := Schemacheck.validate Schemacheck.assertion doc "$"
      if errs ≠ [] then
        let shown : Text := ["assertion ", .repr ((Dict.get? kvs "id").getD (.str "?")),
          " violates assertion.schema.json: "]
        .error ⟨planError, shown ++ List.intercalate [Frag.lit "; "] (errs.take 5)⟩
      else match Assertion.read doc with
        | none => .error ⟨planError, []⟩  -- never taken: a valid document can be read
        | some a =>
            if Builtin.ofId? a.evaluator.id = none then
              .error ⟨planError, ["unapproved-evaluator:", a.evaluator.id, " on assertion ",
                .repr (.str a.id), ": repository-supplied or unknown evaluators cannot ",
                "execute; only deterministic built-ins bundled in the pinned ", "image may run"]⟩
            else .ok a
  | other => .error ⟨planError, ["assertion must be an object, got ", other.typeName]⟩

/-- `v or {}`. -/
def orEmpty (v : Value) : Value := if v.truthy then v else .dict []

/-- An assertion references requirements that exist. -/
def checkRefs (known : List Key) (a : Assertion) : Except Exc Unit :=
  match a.requirementRefs.find? (fun ref => known ≠ [] ∧ Key.str ref ∉ known) with
  | some ref => .error ⟨planError, ["assertion ", .repr (.str a.id),
      " references unknown requirement ", .repr (.str ref)]⟩
  | none => .ok ()

/-- A testable requirement is claimed by an assertion. -/
def checkClaimed (claimed : List Str) (requirement : Str × Value) : Except Exc Unit := do
  let testable ← requirement.2.get "testable"
  if isTruthy testable ∧ requirement.1 ∉ claimed then
    .error ⟨planError, ["testable requirement ", .repr (.str requirement.1),
      " has no assertion (orphan)"]⟩
  else .ok ()

def checkTraceability (assertions : List Assertion) (requirements : Value) : Except Exc Unit := do
  let known ← (← (orEmpty requirements).iter).mapM Value.key
  assertions.forM (checkRefs known)
  let claimed := assertions.flatMap Assertion.requirementRefs
  (← items (orEmpty requirements)).forM (checkClaimed claimed)

/-- `by_id.get(aid)`. -/
def byId (assertions : List Assertion) (aid : Str) : Option Assertion :=
  Dict.get? (Dict.ofPairs (assertions.map (fun a => (a.id, a)))) aid

inductive Mark where
  | inProgress
  | done
  deriving DecidableEq

/-- The closure variables of `visit`. -/
structure Visits where
  state : Dict Str Mark
  planned : List Assertion

/-- `visit(aid, stack)`, at most `fuel` calls deep. -/
def visit (assertions : List Assertion) : Nat → List Str → Visits → Str → Except Exc Visits
  | 0, _, _, _ => .error ⟨.runtimeError, ["maximum recursion depth exceeded"]⟩
  | fuel + 1, stack, s, aid =>
      match Dict.get? s.state aid with
      | some .done => .ok s
      | some .inProgress =>
          .error ⟨planError, ["dependency cycle: ", Str.join " -> " (stack ++ [aid])]⟩
      | none =>
          match byId assertions aid with
          | none => .error ⟨planError, ["dependency on unknown assertion: ", .repr (.str aid)]⟩
          | some a => do
              let s ← a.dependencies.foldlM (visit assertions fuel (stack ++ [aid]))
                { s with state := Dict.set s.state aid .inProgress }
              .ok { state := Dict.set s.state aid .done, planned := s.planned ++ [a] }

/-- The ids that occur more than once, sorted. -/
def dupes (ids : List Str) : List Str := Str.sorted (ids.dedup.filter (fun i => ids.count i > 1))

/-- Requirements are null where none are supplied. -/
def checkRequirements (assertions : List Assertion) (requirements : Value) : Except Exc Unit :=
  if requirements = .null then .ok () else checkTraceability assertions requirements

def plan (docs : List Value) (centralRequired : List Str) (requirements : Value) :
    Except Exc (List Assertion) := do
  let assertions ← docs.mapM checkAssertion
  checkRequirements assertions requirements
  let ids := assertions.map Assertion.id
  if dupes ids ≠ [] then
    .error ⟨planError, ["duplicate assertion ids: ", .str (.list ((dupes ids).map Value.str))]⟩
  else match centralRequired.find? (fun req => (byId assertions req).isNone) with
    | some req =>
        .error ⟨planError, ["centrally required assertion omitted from package: ",
          .repr (.str req)]⟩
    | none => do
        let visits ← ids.foldlM (visit assertions (assertions.length + 1) []) ⟨[], []⟩
        .ok visits.planned

end DevGate.Plan
