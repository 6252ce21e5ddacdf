import DevGate.Coherence.PlanOrder
import DevGate.Coherence.EvaluateLedger

set_option autoImplicit false

/- The outcomes of a run are those of the recursion over the dependency graph,
in whatever order the assertions were declared. -/
namespace DevGate.Evaluate

open Py Evaluators Plan Topological

def hasUnbound (captured : Dict Str Value) (a : Assertion) : Bool :=
  (declaredFacts a).any (isUnbound captured)

/-- What an assertion's evaluator answers on the facts it declared. -/
def answer (table : Builtin → Behaviour) (captured : Dict Str Value) (a : Assertion) :
    Except Exc (List Finding) :=
  match Builtin.ofId? a.evaluator.id with
  | none => .error ⟨unresolved, ["unapproved-evaluator"]⟩
  | some builtin => do table builtin a (← bindFacts captured (declaredFacts a) [])

/-- The outcome of an assertion from the outcomes of its dependencies. -/
def expected (table : Builtin → Behaviour) (captured : Dict Str Value) (outcome : Str → Outcome)
    (a : Assertion) : Outcome :=
  if hasUnbound captured a then .unresolved
  else if ∃ d ∈ a.dependencies, outcome d ≠ .satisfied then .unresolved
  else match answer table captured a with
    | .error _ => .unresolved
    | .ok [] => .satisfied
    | .ok (_ :: _) => .violated

/-- The recursion over the dependency graph. -/
def recursion (table : Builtin → Behaviour) (captured : Dict Str Value)
    (assertions : List Assertion) (outcome : Str → Outcome) (aid : Str) : Outcome :=
  match byId assertions aid with
  | some a => expected table captured outcome a
  | none => .unresolved

/-- An assertion with all its facts crashed, or has a dependency that is not SATISFIED. -/
def Raises (table : Builtin → Behaviour) (captured : Dict Str Value) (outcome : Str → Outcome)
    (a : Assertion) : Prop :=
  hasUnbound captured a = false ∧
    ((∃ d ∈ a.dependencies, outcome d ≠ .satisfied) ∨
      ∃ e, answer table captured a = .error e ∧ e.isA [unresolved] = false)

theorem recursion_local (table : Builtin → Behaviour) (captured : Dict Str Value)
    (assertions : List Assertion) :
    Local (dependsOn assertions) (recursion table captured assertions) := by
  intro aid f g same
  unfold recursion
  unfold dependsOn at same
  cases found : byId assertions aid with
  | none => rfl
  | some a =>
      rw [found, Option.map_some, Option.getD_some] at same
      have blocked : (∃ d ∈ a.dependencies, f d ≠ .satisfied) ↔
          ∃ d ∈ a.dependencies, g d ≠ .satisfied := by
        apply exists_congr
        intro d
        apply and_congr_right
        intro needed
        rw [same d needed]
      show expected table captured f a = expected table captured g a
      unfold expected
      simp only [blocked]

theorem bindFacts_completes (captured : Dict Str Value) (fids : List (Option Str))
    (facts : Dict Str Value) :
    (∃ bound, bindFacts captured fids facts = .ok bound) ↔
      ∀ fid ∈ fids, isUnbound captured fid = false := by
  induction fids generalizing facts with
  | nil => exact ⟨by simp, fun _ => ⟨facts, rfl⟩⟩
  | cons fid rest ih =>
      rw [List.forall_mem_cons]
      cases fid with
      | none => simp [bindFacts, isUnbound]
      | some fid =>
          unfold bindFacts
          cases found : Dict.get? captured fid with
          | none => simp [isUnbound, Dict.contains, found]
          | some content =>
              have here : isUnbound captured (some fid) = false := by
                simp [isUnbound, Dict.contains, found]
              rw [here, ← ih (Dict.set facts fid content)]
              simp

theorem firstUnbound_eq_none_iff (captured : Dict Str Value) (a : Assertion) :
    firstUnbound captured a = none ↔ hasUnbound captured a = false := by
  unfold firstUnbound hasUnbound
  rw [List.find?_eq_none, List.any_eq_false]

theorem firstUnbound_some {captured : Dict Str Value} {a : Assertion} {fid : Option Str}
    (first : firstUnbound captured a = some fid) : hasUnbound captured a = true := by
  unfold firstUnbound at first
  unfold hasUnbound
  rw [List.any_eq_true]
  exact ⟨fid, List.mem_of_find?_eq_some first, List.find?_some first⟩

theorem blockedBy_isSome_iff {done : Dict Str Outcome} {outcome : Str → Outcome} {a : Assertion}
    (settled : ∀ d ∈ a.dependencies, Dict.get? done d = some (outcome d)) :
    (blockedBy done a).isSome = true ↔ ∃ d ∈ a.dependencies, outcome d ≠ .satisfied := by
  unfold blockedBy
  rw [List.find?_isSome]
  constructor
  · intro blocked
    obtain ⟨d, needed, other⟩ := blocked
    rw [decide_eq_true_eq, settled d needed, ne_eq, Option.some.injEq] at other
    exact ⟨d, needed, other⟩
  · intro blocked
    obtain ⟨d, needed, other⟩ := blocked
    refine ⟨d, needed, ?_⟩
    rw [decide_eq_true_eq, settled d needed, ne_eq, Option.some.injEq]
    exact other

/-- One iteration decides what the recursion says. -/
theorem assess_expected (table : Builtin → Behaviour) {captured : Dict Str Value}
    {done : Dict Str Outcome} {outcome : Str → Outcome} {a : Assertion} {builtin : Builtin}
    (known : Builtin.ofId? a.evaluator.id = some builtin)
    (named : firstUnbound captured a ≠ some none)
    (settled : ∀ d ∈ a.dependencies, Dict.get? done d = some (outcome d)) :
    ∃ v, assess table captured (fun _ => none) done a = .ok v ∧
      v.outcome = expected table captured outcome a ∧
      (v.error.isSome = true ↔ Raises table captured outcome a) := by
  unfold assess
  rw [known]
  dsimp only
  cases first : firstUnbound captured a with
  | some fid =>
      cases fid with
      | none => exact absurd first named
      | some fid =>
          have unbound := firstUnbound_some first
          refine ⟨_, rfl, ?_, ?_⟩
          · unfold expected
            rw [if_pos unbound]
          · unfold Raises
            rw [unbound]
            simp
  | none =>
      have bound := (firstUnbound_eq_none_iff captured a).mp first
      have all : ∀ fid ∈ declaredFacts a, isUnbound captured fid = false := by
        intro fid declared
        unfold hasUnbound at bound
        rw [List.any_eq_false] at bound
        exact Bool.eq_false_iff.mpr (bound fid declared)
      obtain ⟨facts, read⟩ := (bindFacts_completes captured (declaredFacts a) []).mpr all
      have asked : answer table captured a = table builtin a facts := by
        unfold answer
        rw [known]
        dsimp only
        rw [read, ok_bind]
      dsimp only [Option.join_none]
      rw [read, ok_bind]
      by_cases blocked : ∃ d ∈ a.dependencies, outcome d ≠ .satisfied
      · rw [if_pos ((blockedBy_isSome_iff settled).mpr blocked)]
        refine ⟨_, rfl, ?_, ?_⟩
        · unfold expected
          rw [bound, if_neg (by decide), if_pos blocked]
        · exact ⟨fun _ => ⟨bound, Or.inl blocked⟩, fun _ => rfl⟩
      · rw [if_neg (fun some => blocked ((blockedBy_isSome_iff settled).mp some))]
        refine ⟨_, rfl, ?_, ?_⟩
        · unfold expected
          rw [bound, if_neg (by decide), if_neg blocked, asked]
          show (judge a (table builtin a facts)).outcome = _
          cases table builtin a facts with
          | error e =>
              unfold judge
              dsimp only
              split <;> rfl
          | ok found => cases found <;> rfl
        · unfold Raises
          rw [bound, asked]
          show (judge a (table builtin a facts)).error.isSome = true ↔ _
          cases table builtin a facts with
          | error e =>
              unfold judge
              dsimp only
              split
              · rename_i refused
                simp [refused, blocked]
              · rename_i crashed
                simp [crashed]
          | ok found => simp [judge, blocked]

/-- The run so far has recorded the outcomes of `front`. -/
structure Settled (table : Builtin → Behaviour) (captured : Dict Str Value)
    (outcome : Str → Outcome) (front : List Assertion) (s : Progress) : Prop where
  ledger : s.ledger.map (fun row => (row.assertionId, row.outcome)) =
    front.map (fun a => (a.id, outcome a.id))
  done : ∀ a ∈ front, Dict.get? s.done a.id = some (outcome a.id)
  error : s.error.isSome = true ↔ ∃ a ∈ front, Raises table captured outcome a

theorem settled_start (table : Builtin → Behaviour) (captured : Dict Str Value)
    (outcome : Str → Outcome) : Settled table captured outcome [] .start :=
  ⟨rfl, by simp, by simp [Progress.start]⟩

theorem Settled.settle {table : Builtin → Behaviour} {captured : Dict Str Value}
    {outcome : Str → Outcome} {front : List Assertion} {s : Progress}
    (settled : Settled table captured outcome front s) {a : Assertion} {v : Verdict}
    (recorded : v.outcome = outcome a.id)
    (raised : v.error.isSome = true ↔ Raises table captured outcome a) :
    Settled table captured outcome (front ++ [a]) (s.settle a v) := by
  refine ⟨?_, ?_, ?_⟩
  · simp only [Progress.settle, List.map_append, List.map_cons, List.map_nil, settled.ledger,
      recorded]
  · intro b member
    show Dict.get? (Dict.set s.done a.id v.outcome) b.id = some (outcome b.id)
    rw [Dict.get?_set]
    split
    · rename_i same
      rw [recorded, same]
    · rename_i apart
      rcases List.mem_append.mp member with before | last
      · exact settled.done b before
      · rw [List.mem_singleton.mp last] at apart
        exact absurd rfl apart
  · show (s.error.or v.error).isSome = true ↔ _
    rw [Option.isSome_or, Bool.or_eq_true, settled.error, raised]
    simp only [List.mem_append, List.mem_singleton, or_and_right, exists_or, exists_eq_left]

/-- What the iterations need of the planned assertions. -/
structure Runnable (captured : Dict Str Value) (assertions : List Assertion) (a : Assertion) :
    Prop where
  known : ∃ builtin, Builtin.ofId? a.evaluator.id = some builtin
  named : firstUnbound captured a ≠ some none
  listed : byId assertions a.id = some a

theorem foldlM_settled {table : Builtin → Behaviour} {captured : Dict Str Value}
    {assertions : List Assertion} {outcome : Str → Outcome}
    (solves : Solves (recursion table captured assertions) (assertions.map Assertion.id) outcome)
    (rest : List Assertion) {front : List Assertion} {s : Progress}
    (settled : Settled table captured outcome front s)
    (ordered : Ordered (dependsOn assertions) (front.map Assertion.id) (rest.map Assertion.id))
    (runnable : ∀ a ∈ rest, Runnable captured assertions a) :
    ∃ out, rest.foldlM (step table captured (fun _ => none)) s = .ok out ∧
      Settled table captured outcome (front ++ rest) out := by
  induction rest generalizing front s with
  | nil =>
      rw [List.append_nil]
      exact ⟨s, rfl, settled⟩
  | cons a rest ih =>
      rw [List.forall_mem_cons] at runnable
      obtain ⟨here, later⟩ := runnable
      obtain ⟨builtin, known⟩ := here.known
      rw [List.map_cons, Ordered] at ordered
      have earlier : ∀ d ∈ a.dependencies, Dict.get? s.done d = some (outcome d) := by
        intro d needed
        have before : d ∈ front.map Assertion.id := by
          apply ordered.1 d
          unfold dependsOn
          rw [here.listed]
          exact needed
        obtain ⟨b, member, rfl⟩ := List.mem_map.mp before
        exact settled.done b member
      obtain ⟨v, assessed, decided, raised⟩ := assess_expected table known here.named
        earlier
      have recorded : v.outcome = outcome a.id := by
        have inside := (mem_of_byId here.listed).1
        rw [solves a.id (List.mem_map.mpr ⟨a, inside, rfl⟩), decided, recursion, here.listed]
      have next := settled.settle recorded raised
      rw [← List.map_singleton, ← List.map_append] at ordered
      obtain ⟨out, ran, final⟩ := ih next ordered.2 later
      refine ⟨out, ?_, ?_⟩
      · rw [List.foldlM_cons, step_ok.mpr ⟨v, assessed, rfl⟩, ok_bind]
        exact ran
      · rw [List.append_assoc, List.singleton_append] at final
        exact final

/-- A run that completes met no first unbound fact without an id. -/
theorem foldlM_named {table : Builtin → Behaviour} {captured : Dict Str Value}
    {drift : Assertion → Option Text} (planned : List Assertion) {s out : Progress}
    (ran : planned.foldlM (step table captured drift) s = .ok out) :
    ∀ a ∈ planned, Builtin.ofId? a.evaluator.id ≠ none → firstUnbound captured a ≠ some none := by
  induction planned generalizing s with
  | nil => simp
  | cons a rest ih =>
      rw [List.foldlM_cons] at ran
      obtain ⟨next, here, ran⟩ := bind_ok.mp ran
      rw [List.forall_mem_cons]
      refine ⟨?_, ih ran⟩
      intro known first
      obtain ⟨v, assessed, -⟩ := step_ok.mp here
      obtain ⟨builtin, found⟩ := Option.ne_none_iff_exists'.mp known
      unfold assess at assessed
      rw [found, first] at assessed
      dsimp only [Option.join_some] at assessed
      obtain ⟨facts, bound, -⟩ := bind_ok.mp assessed
      have all := (bindFacts_completes captured (declaredFacts a) []).mp ⟨facts, bound⟩
      have impossible : true = false := all none (List.mem_of_find?_eq_some first)
      cases impossible

theorem checkAssertion_known {doc : Value} {a : Assertion} (checked : checkAssertion doc = .ok a) :
    ∃ builtin, Builtin.ofId? a.evaluator.id = some builtin := by
  unfold checkAssertion at checked
  split at checked
  · obtain ⟨-, checked⟩ := guard_ok.mp checked
    split at checked
    · cases checked
    · obtain ⟨known, checked⟩ := guard_ok.mp checked
      cases checked
      exact Option.ne_none_iff_exists'.mp known
  · cases checked

theorem mem_known {docs : List Value} {assertions : List Assertion}
    (read : docs.mapM checkAssertion = .ok assertions) :
    ∀ a ∈ assertions, ∃ builtin, Builtin.ofId? a.evaluator.id = some builtin := by
  obtain ⟨-, rfl⟩ := (mapM_ok docs assertions).mp read
  intro a member
  obtain ⟨doc, -, some⟩ := List.mem_filterMap.mp member
  cases checked : checkAssertion doc with
  | error e =>
      rw [checked] at some
      cases some
  | ok b =>
      rw [checked] at some
      cases some
      exact checkAssertion_known checked

/-- The ledger has the outcomes, and the error field says whether one raised. -/
structure Recorded (table : Builtin → Behaviour) (captured : Dict Str Value)
    (assertions : List Assertion) (outcome : Str → Outcome) (out : Progress) : Prop where
  ledger : List.Perm (out.ledger.map (fun row => (row.assertionId, row.outcome)))
    (assertions.map (fun a => (a.id, outcome a.id)))
  error : out.error.isSome = true ↔ ∃ a ∈ assertions, Raises table captured outcome a

/-- Every permutation of the documents is planned, and every run within the limit
records the one solution of the recursion. -/
def OrderIndependent (table : Builtin → Behaviour) (captured : Dict Str Value)
    (maxEvaluators : Int) (centralRequired : List Str) (requirements : Value) (docs : List Value)
    (assertions : List Assertion) : Prop :=
  ∃ outcome, Solves (recursion table captured assertions) (assertions.map Assertion.id) outcome ∧
    (∀ other, Solves (recursion table captured assertions) (assertions.map Assertion.id) other →
      ∀ a ∈ assertions, other a.id = outcome a.id) ∧
    ∀ permuted, List.Perm permuted docs →
      ∃ planned, plan permuted centralRequired requirements = .ok planned ∧
        (planned.length ≤ maxEvaluators →
          ∃ out, run table captured (fun _ => none) maxEvaluators planned = .ok out ∧
            Recorded table captured assertions outcome out)

theorem run_settled {table : Builtin → Behaviour} {captured : Dict Str Value} {maxEvaluators : Int}
    {assertions planned : List Assertion} {outcome : Str → Outcome}
    (solves : Solves (recursion table captured assertions) (assertions.map Assertion.id) outcome)
    (ordered : Ordered (dependsOn assertions) [] (planned.map Assertion.id))
    (runnable : ∀ a ∈ planned, Runnable captured assertions a)
    (within : planned.length ≤ maxEvaluators) :
    ∃ out, run table captured (fun _ => none) maxEvaluators planned = .ok out ∧
      Settled table captured outcome planned out := by
  obtain ⟨out, ran, settled⟩ := foldlM_settled solves planned
    (settled_start table captured outcome) ordered runnable
  exact ⟨out, run_ok.mpr ⟨within, ran⟩, settled⟩

theorem run_named {table : Builtin → Behaviour} {captured : Dict Str Value}
    {drift : Assertion → Option Text} {maxEvaluators : Int} {planned : List Assertion}
    {out : Progress} (ran : run table captured drift maxEvaluators planned = .ok out) :
    ∀ a ∈ planned, Builtin.ofId? a.evaluator.id ≠ none → firstUnbound captured a ≠ some none :=
  foldlM_named planned (run_ok.mp ran).2

/-- Evaluation is independent of declaration order exactly when, within the limit,
no assertion's first unbound captured-fact selector lacks its fact id. -/
theorem orderIndependent_iff (table : Builtin → Behaviour) (captured : Dict Str Value)
    (maxEvaluators : Int) (centralRequired : List Str) (requirements : Value) (docs : List Value)
    (assertions planned : List Assertion) (read : docs.mapM checkAssertion = .ok assertions)
    (accepted : plan docs centralRequired requirements = .ok planned) :
    OrderIndependent table captured maxEvaluators centralRequired requirements docs assertions ↔
      (assertions.length ≤ maxEvaluators →
        ∀ a ∈ assertions, firstUnbound captured a ≠ some none) := by
  constructor
  · intro independent within a member
    obtain ⟨outcome, -, -, every⟩ := independent
    obtain ⟨planned, accepted, runs⟩ := every docs (List.Perm.refl docs)
    obtain ⟨same, -, -⟩ := plan_ordered accepted read
    have lengths := same.length_eq
    obtain ⟨out, ran, -⟩ := runs (by omega)
    apply run_named ran a (same.mem_iff.mpr member)
    obtain ⟨builtin, known⟩ := mem_known read a member
    rw [known]
    exact Option.some_ne_none builtin
  · intro named
    obtain ⟨same, distinct, ordered⟩ := plan_ordered accepted read
    have ids := same.map Assertion.id
    have ranked := (ordered.ranked (ids.nodup_iff.mpr distinct)).perm ids
    have reads := recursion_local table captured assertions
    have solves := ranked.solves reads .unresolved
    refine ⟨_, solves, ?_, ?_⟩
    · intro other alternative a member
      exact ranked.unique reads alternative solves a.id (List.mem_map.mpr ⟨a, member, rfl⟩)
    · intro permuted shuffled
      obtain ⟨replanned, reaccepted⟩ := plan_perm shuffled accepted
      obtain ⟨reordered, reread, alike⟩ := mapM_perm read shuffled
      obtain ⟨resame, -, reorders⟩ := plan_ordered reaccepted reread
      rw [dependsOn_perm alike distinct] at reorders
      have whole := resame.trans alike
      refine ⟨replanned, reaccepted, ?_⟩
      intro within
      have lengths := whole.length_eq
      have runnable : ∀ a ∈ replanned, Runnable captured assertions a := by
        intro a member
        have inside := whole.mem_iff.mp member
        exact ⟨mem_known read a inside, named (by omega) a inside, byId_of_mem distinct inside⟩
      obtain ⟨out, ran, settled⟩ := run_settled solves reorders runnable within
      refine ⟨out, ran, ?_, ?_⟩
      · rw [settled.ledger]
        exact whole.map _
      · rw [settled.error]
        constructor
        · intro raised
          obtain ⟨a, member, raises⟩ := raised
          exact ⟨a, whole.mem_iff.mp member, raises⟩
        · intro raised
          obtain ⟨a, member, raises⟩ := raised
          exact ⟨a, whole.mem_iff.mpr member, raises⟩

/-- A captured-fact assertion, as a document and as it is read. -/
def factDoc (aid : Str) (subject : List (Str × Value)) (dependencies : List Str) : Value :=
  .dict [
    ("id", .str aid), ("version", .int 1), ("requirement_refs", .list [.str "r1"]),
    ("owner", .str "owner"), ("requirement", .str "requirement"),
    ("subjects", .list [.dict (("kind", .str "captured-fact") :: subject)]),
    ("evaluator", .dict [("id", .str Builtin.capturedFactConsistency.id),
      ("digest", .str ("sha256:" ++ List.replicate 64 (Chr.ofChar '0')))]),
    ("parameters", .dict []), ("severity", .str "high"),
    ("dependencies", .list (dependencies.map Value.str)),
    ("finding_key", .list [.str "assertion_id"]), ("evidence", .dict [("retention_days", .int 1)])]

def factAssertion (aid : Str) (factId : Option Str) (dependencies : List Str) : Assertion where
  id := aid
  version := 1
  requirementRefs := ["r1"]
  subjects := [⟨.capturedFact, none, none, none, factId⟩]
  evaluator := ⟨Builtin.capturedFactConsistency.id,
    "sha256:" ++ List.replicate 64 (Chr.ofChar '0')⟩
  parameters := []
  severity := .high
  dependencies := dependencies
  retentionDays := 1

/-- The dependent is declared before what it depends on. -/
def backwards : List Value :=
  [factDoc "b" [("fact_id", .str "f")] ["a"], factDoc "a" [("fact_id", .str "f")] []]

theorem backwards_read : backwards.mapM checkAssertion =
    .ok [factAssertion "b" (some "f") ["a"], factAssertion "a" (some "f") []] := by
  rfl

theorem backwards_orderIndependent :
    OrderIndependent (fun _ _ _ => .ok []) [] defaultMaxEvaluators [] .null backwards
      [factAssertion "b" (some "f") ["a"], factAssertion "a" (some "f") []] := by
  have accepted : plan backwards [] .null =
      .ok [factAssertion "a" (some "f") [], factAssertion "b" (some "f") ["a"]] := by rfl
  rw [orderIndependent_iff _ [] defaultMaxEvaluators [] .null backwards _ _ backwards_read
    accepted]
  intro _
  decide

/-- A captured-fact selector without a fact id is accepted, and its run crashes. -/
theorem unnamed_not_orderIndependent :
    [factDoc "a" [] []].mapM checkAssertion = .ok [factAssertion "a" none []] ∧
      plan [factDoc "a" [] []] [] .null = .ok [factAssertion "a" none []] ∧
      ¬ OrderIndependent (fun _ _ _ => .ok []) [] defaultMaxEvaluators [] .null
        [factDoc "a" [] []] [factAssertion "a" none []] := by
  have accepted : plan [factDoc "a" [] []] [] .null = .ok [factAssertion "a" none []] := by rfl
  refine ⟨by rfl, accepted, ?_⟩
  intro independent
  obtain ⟨outcome, -, -, every⟩ := independent
  obtain ⟨planned, replanned, runs⟩ := every _ (List.Perm.refl _)
  rw [accepted, Except.ok.injEq] at replanned
  subst replanned
  obtain ⟨out, ran, -⟩ := runs (by decide)
  exact run_named ran _ List.mem_cons_self (by decide) rfl

end DevGate.Evaluate
