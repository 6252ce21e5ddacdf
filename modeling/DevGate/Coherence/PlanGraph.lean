import DevGate.Lib.Fold
import DevGate.Coherence.PlanOrder

set_option autoImplicit false

/- The planner accepts exactly the well-formed graphs, and its recursion ends on
every graph. -/
namespace DevGate.Plan

open Py Evaluators Topological

/-- The assertion a schema-valid document with a built-in evaluator describes. -/
structure Entry (doc : Value) (a : Assertion) : Prop where
  valid : Schemacheck.validate Schemacheck.assertion doc "$" = []
  read : Assertion.read doc = some a
  builtin : a.evaluator.id ∈ Builtin.all.map Builtin.id

/-- A requirement registry: records by requirement id. -/
abbrev Registry : Type := List (Str × List (Str × Value))

/-- The `requirements` argument. -/
def requirementsOf (registry : Option Registry) : Value :=
  match registry with
  | none => .null
  | some records => .dict (records.map (fun r => (r.1, .dict r.2)))

def records (registry : Option Registry) : Registry := registry.getD []

/-- `meta.get("testable")`. -/
def Testable (record : List (Str × Value)) : Prop :=
  isTruthy (Dict.get? record "testable") = true

/-- The assertion named `aid` depends on `d` directly. -/
def Needs (assertions : List Assertion) (aid d : Str) : Prop :=
  ∃ a ∈ assertions, a.id = aid ∧ d ∈ a.dependencies

structure WellFormed (docs : List Value) (assertions : List Assertion)
    (centralRequired : List Str) (registry : Option Registry) : Prop where
  entries : List.Forall₂ Entry docs assertions
  references : records registry ≠ [] → ∀ a ∈ assertions, ∀ ref ∈ a.requirementRefs,
    ref ∈ (records registry).map Prod.fst
  claimed : ∀ r ∈ records registry, Testable r.2 → ∃ a ∈ assertions, r.1 ∈ a.requirementRefs
  distinct : (assertions.map Assertion.id).Nodup
  required : ∀ req ∈ centralRequired, req ∈ assertions.map Assertion.id
  closed : ∀ a ∈ assertions, ∀ d ∈ a.dependencies, d ∈ assertions.map Assertion.id
  acyclic : ∀ aid, ¬Relation.TransGen (Needs assertions) aid aid

theorem ofId?_eq_none {eid : Str} : Builtin.ofId? eid = none ↔ eid ∉ Builtin.all.map Builtin.id := by
  unfold Builtin.ofId?
  rw [List.find?_eq_none, List.mem_map]
  constructor
  · rintro none ⟨b, member, same⟩
    exact none b member (decide_eq_true same)
  · intro absent b member same
    exact absent ⟨b, member, of_decide_eq_true same⟩

theorem checkAssertion_ok {doc : Value} {a : Assertion} :
    checkAssertion doc = .ok a ↔ Entry doc a := by
  have decided : checkAssertion doc = .ok a ↔
      Schemacheck.validate Schemacheck.assertion doc "$" = [] ∧ Assertion.read doc = some a ∧
        Builtin.ofId? a.evaluator.id ≠ none := by
    cases doc with
    | dict kvs =>
        unfold checkAssertion
        dsimp only
        rw [guard_ok, not_not]
        refine and_congr_right (fun valid => ?_)
        cases read : Assertion.read (.dict kvs) with
        | none => simp
        | some b =>
            dsimp only
            rw [guard_ok, Except.ok.injEq, Option.some.injEq]
            constructor
            · rintro ⟨known, rfl⟩
              exact ⟨rfl, known⟩
            · rintro ⟨rfl, known⟩
              exact ⟨known, rfl⟩
    | _ => simp [checkAssertion, Assertion.read]
  rw [decided]
  constructor
  · rintro ⟨valid, read, known⟩
    exact ⟨valid, read, not_not.mp (mt ofId?_eq_none.mpr known)⟩
  · intro entry
    exact ⟨entry.valid, entry.read, fun unknown => ofId?_eq_none.mp unknown entry.builtin⟩

theorem read_ok {docs : List Value} {assertions : List Assertion} :
    docs.mapM checkAssertion = .ok assertions ↔ List.Forall₂ Entry docs assertions := by
  rw [Fold.mapM_forall₂]
  simp only [checkAssertion_ok]

/-- The records as the values they are. -/
def registryDict (rs : Registry) : List (Str × Value) := rs.map (fun r => (r.1, .dict r.2))

theorem orEmpty_dict (kvs : List (Str × Value)) : orEmpty (.dict kvs) = .dict kvs := by
  cases kvs <;> rfl

/-- `set(requirements or {})`. -/
theorem keys_registryDict (rs : Registry) :
    ((registryDict rs).map (fun kv => Value.str kv.1)).mapM Value.key =
      .ok (rs.map (fun r => Key.str r.1)) := by
  unfold registryDict
  rw [Fold.mapM_forall₂, List.map_map, List.forall₂_map_left_iff, List.forall₂_map_right_iff,
    List.forall₂_same]
  intro r _
  rfl

theorem checkRefs_ok {rs : Registry} {a : Assertion} :
    checkRefs (rs.map (fun r => Key.str r.1)) a = .ok () ↔
      (rs ≠ [] → ∀ ref ∈ a.requirementRefs, ref ∈ rs.map Prod.fst) := by
  have known : ∀ ref, Key.str ref ∈ rs.map (fun r => Key.str r.1) ↔ ref ∈ rs.map Prod.fst := by
    intro ref
    simp [List.mem_map]
  unfold checkRefs
  cases found : a.requirementRefs.find? (fun ref => rs.map (fun r => Key.str r.1) ≠ [] ∧
      Key.str ref ∉ rs.map (fun r => Key.str r.1)) with
  | none =>
      rw [List.find?_eq_none] at found
      rw [eq_self_iff_true, true_iff]
      intro present ref member
      have passed := found ref member
      rw [decide_eq_true_eq, known, ne_eq, List.map_eq_nil_iff] at passed
      exact not_not.mp (fun missing => passed ⟨present, missing⟩)
  | some ref =>
      have stops := List.find?_some found
      have member := List.mem_of_find?_eq_some found
      rw [decide_eq_true_eq, known, ne_eq, List.map_eq_nil_iff] at stops
      constructor
      · intro raised
        cases raised
      · intro each
        exact absurd (each stops.1 ref member) stops.2

theorem checkClaimed_ok {claimed : List Str} {rid : Str} {record : List (Str × Value)} :
    checkClaimed claimed (rid, .dict record) = .ok () ↔ (Testable record → rid ∈ claimed) := by
  show (if isTruthy (Dict.get? record "testable") = true ∧ rid ∉ claimed then _ else _) = _ ↔ _
  rw [guard_ok, not_and, not_not]
  exact and_iff_left rfl

/-- Over a registry of records the traceability check decides the two clauses. -/
theorem traceable_iff {assertions : List Assertion} {registry : Option Registry} :
    checkRequirements assertions (requirementsOf registry) = .ok () ↔
      (records registry ≠ [] → ∀ a ∈ assertions, ∀ ref ∈ a.requirementRefs,
        ref ∈ (records registry).map Prod.fst) ∧
      ∀ r ∈ records registry, Testable r.2 → ∃ a ∈ assertions, r.1 ∈ a.requirementRefs := by
  cases registry with
  | none => simp [checkRequirements, requirementsOf, records]
  | some rs =>
      have given : requirementsOf (some rs) ≠ .null := by simp [requirementsOf]
      have whole : orEmpty (requirementsOf (some rs)) = .dict (registryDict rs) := orEmpty_dict _
      unfold checkRequirements
      rw [if_neg given, checkTraceability_ok, whole]
      constructor
      · intro checks
        obtain ⟨rids, known, listed, iterated, keyed, itemised, refs, claimed⟩ := checks
        cases iterated
        cases itemised
        rw [keys_registryDict] at keyed
        cases keyed
        refine ⟨fun present a member => checkRefs_ok.mp (refs a member) present, ?_⟩
        intro r member testable
        exact List.mem_flatMap.mp
          (checkClaimed_ok.mp (claimed _ (List.mem_map.mpr ⟨r, member, rfl⟩)) testable)
      · intro clauses
        refine ⟨_, _, _, rfl, keys_registryDict rs, rfl, ?_, ?_⟩
        · intro a member
          exact checkRefs_ok.mpr (fun present => clauses.1 present a member)
        · intro kv member
          obtain ⟨r, inside, rfl⟩ := List.mem_map.mp member
          exact checkClaimed_ok.mpr (fun testable =>
            List.mem_flatMap.mpr (clauses.2 r inside testable))

/-- With distinct ids an assertion needs what its own entry lists. -/
theorem needs_iff {assertions : List Assertion} (distinct : (assertions.map Assertion.id).Nodup)
    (aid d : Str) : Needs assertions aid d ↔ d ∈ dependsOn assertions aid := by
  unfold Needs dependsOn
  constructor
  · rintro ⟨a, member, rfl, needed⟩
    rw [byId_of_mem distinct member]
    exact needed
  · intro needed
    cases found : byId assertions aid with
    | none =>
        rw [found] at needed
        cases needed
    | some a =>
        rw [found] at needed
        obtain ⟨member, same⟩ := mem_of_byId found
        exact ⟨a, member, same, needed⟩

theorem acyclic_iff {assertions : List Assertion} (distinct : (assertions.map Assertion.id).Nodup) :
    (∀ aid, ¬Relation.TransGen (Needs assertions) aid aid) ↔ Acyclic (dependsOn assertions) := by
  have same : Needs assertions = fun aid d => d ∈ dependsOn assertions aid := by
    funext aid d
    exact propext (needs_iff distinct aid d)
  rw [same]
  exact Iff.rfl

/-- The depth-first search completes exactly on closed graphs without cycles. -/
theorem visits_iff {assertions : List Assertion} (distinct : (assertions.map Assertion.id).Nodup) :
    (∃ visits, (assertions.map Assertion.id).foldlM (visit assertions (assertions.length + 1) [])
        ⟨[], []⟩ = .ok visits) ↔
      (∀ a ∈ assertions, ∀ d ∈ a.dependencies, d ∈ assertions.map Assertion.id) ∧
        ∀ aid, ¬Relation.TransGen (Needs assertions) aid aid := by
  have own : ∀ a ∈ assertions, dependsOn assertions a.id = a.dependencies := by
    intro a member
    unfold dependsOn
    rw [byId_of_mem distinct member]
    rfl
  rw [acyclic_iff distinct]
  constructor
  · rintro ⟨visits, visited⟩
    obtain ⟨rank, plannable⟩ := plannable_of_visited distinct visited
    refine ⟨?_, plannable.ranked.acyclic ?_⟩
    · intro a member d needed
      rw [← own a member] at needed
      exact (plannable.ranked.closed a.id (List.mem_map.mpr ⟨a, member, rfl⟩) d needed).1
    · intro aid outside
      unfold dependsOn
      rw [← byId_isSome_iff, Option.not_isSome_iff_eq_none] at outside
      rw [outside]
      rfl
  · rintro ⟨closed, acyclic⟩
    have within : ∀ aid ∈ assertions.map Assertion.id, ∀ d ∈ dependsOn assertions aid,
        d ∈ assertions.map Assertion.id := by
      intro aid member d needed
      obtain ⟨a, inside, rfl⟩ := List.mem_map.mp member
      rw [own a inside] at needed
      exact closed a inside d needed
    obtain ⟨rank, ranked⟩ := acyclic.ranked distinct within
    have plannable : Plannable assertions (assertions.map Assertion.id) rank := by
      refine ⟨fun aid member => ?_, ranked⟩
      exact Option.isSome_iff_exists.mp ((byId_isSome_iff assertions aid).mpr member)
    obtain ⟨visits, visited⟩ := foldlM_visit_completes plannable
    rw [List.length_map] at visited
    exact ⟨visits, visited⟩

/-- The known ids the search has not met yet. -/
def unseen (assertions : List Assertion) (s : Visits) : Finset Str :=
  (assertions.map Assertion.id).toFinset.filter (fun aid => Dict.get? s.state aid = none)

theorem Grows.unseen {assertions : List Assertion} {s next : Visits} (grows : Grows s next) :
    (Plan.unseen assertions next).card ≤ (Plan.unseen assertions s).card := by
  apply Finset.card_le_card
  intro aid fresh
  unfold Plan.unseen at fresh ⊢
  rw [Finset.mem_filter] at fresh ⊢
  refine ⟨fresh.1, ?_⟩
  cases marked : Dict.get? s.state aid with
  | none => rfl
  | some mark =>
      cases mark with
      | inProgress => exact absurd ((grows.inProgress aid).mpr marked) (by simp [fresh.2])
      | done => exact absurd (grows.done aid marked) (by simp [fresh.2])

/-- Entering a known id leaves one less to meet. -/
theorem unseen_enter {assertions : List Assertion} {s : Visits} {aid : Str} {a : Assertion}
    (fresh : Dict.get? s.state aid = none) (found : byId assertions aid = some a) :
    (unseen assertions { s with state := Dict.set s.state aid .inProgress }).card <
      (unseen assertions s).card := by
  have named : aid ∈ assertions.map Assertion.id := by
    rw [← byId_isSome_iff, found]
    rfl
  apply Finset.card_lt_card
  rw [Finset.ssubset_iff_of_subset]
  · refine ⟨aid, ?_, ?_⟩
    · unfold unseen
      rw [Finset.mem_filter, List.mem_toFinset]
      exact ⟨named, fresh⟩
    · unfold unseen
      rw [Finset.mem_filter, Dict.get?_set_self]
      simp
  · intro other left
    unfold unseen at left ⊢
    rw [Finset.mem_filter] at left ⊢
    refine ⟨left.1, ?_⟩
    have here := left.2
    rw [Dict.get?_set] at here
    split at here
    · cases here
    · exact here

/-- With a call to spare for every unmet id, more depth changes nothing, and only
the planner's own refusals are raised. -/
theorem visit_ends (assertions : List Assertion) (fuel : Nat) :
    ∀ deeper stack s aid, fuel ≤ deeper → Sound assertions s →
      (unseen assertions s).card < fuel →
        visit assertions deeper stack s aid = visit assertions fuel stack s aid ∧
          Fails (fun e => e.cls = planError) (visit assertions fuel stack s aid) := by
  induction fuel with
  | zero => intro deeper stack s aid _ _ short; omega
  | succ fuel ih =>
      intro deeper stack s aid deep sound spare
      obtain ⟨more, rfl⟩ := Nat.exists_eq_add_of_le deep
      rw [show fuel + 1 + more = fuel + more + 1 by omega]
      unfold visit
      cases marked : Dict.get? s.state aid with
      | some mark =>
          cases mark with
          | done => exact ⟨rfl, Fails.ok⟩
          | inProgress => exact ⟨rfl, Fails.error rfl⟩
      | none =>
          dsimp only
          cases found : byId assertions aid with
          | none => exact ⟨rfl, Fails.error rfl⟩
          | some a =>
              dsimp only
              have fewer := unseen_enter marked found
              have entered := sound.enter marked
              have kept : ∀ d ∈ a.dependencies, ∀ t next,
                  Sound assertions t ∧ (unseen assertions t).card < fuel →
                    visit assertions fuel (stack ++ [aid]) t d = .ok next →
                      Sound assertions next ∧ (unseen assertions next).card < fuel := by
                rintro d _ t next ⟨before, room⟩ ran
                have visited := visit_visited assertions fuel (stack ++ [aid]) t d next before ran
                have shrinks := @Grows.unseen assertions t next visited.grows
                exact ⟨visited.sound, by omega⟩
              have start : Sound assertions { s with state := Dict.set s.state aid .inProgress } ∧
                  (unseen assertions { s with state := Dict.set s.state aid .inProgress }).card <
                    fuel := ⟨entered, by omega⟩
              have same := Fold.foldlM_congr (fun d _ t room =>
                (ih (fuel + more) (stack ++ [aid]) t d (by omega) room.1 room.2).1) kept start
              rw [same]
              refine ⟨rfl, Fails.bind ?_ (fun _ _ => Fails.ok)⟩
              intro e raised
              obtain ⟨d, -, t, room, here⟩ := Fold.foldlM_raises kept start raised
              exact (ih fuel (stack ++ [aid]) t d (le_refl _) room.1 room.2).2 e here

/-- The searches of `plan` end at the depth it gives them. -/
theorem visits_end (assertions : List Assertion) {deeper : Nat}
    (deep : assertions.length < deeper) :
    (assertions.map Assertion.id).foldlM (visit assertions deeper []) ⟨[], []⟩ =
        (assertions.map Assertion.id).foldlM (visit assertions (assertions.length + 1) [])
          ⟨[], []⟩ ∧
      Fails (fun e => e.cls = planError)
        ((assertions.map Assertion.id).foldlM (visit assertions (assertions.length + 1) [])
          ⟨[], []⟩) := by
  have kept : ∀ aid ∈ assertions.map Assertion.id, ∀ t next,
      Sound assertions t ∧ (unseen assertions t).card < assertions.length + 1 →
        visit assertions (assertions.length + 1) [] t aid = .ok next →
          Sound assertions next ∧ (unseen assertions next).card < assertions.length + 1 := by
    rintro aid _ t next ⟨before, room⟩ ran
    have visited := visit_visited assertions _ [] t aid next before ran
    have shrinks := @Grows.unseen assertions t next visited.grows
    exact ⟨visited.sound, by omega⟩
  have start : Sound assertions ⟨[], []⟩ ∧
      (unseen assertions ⟨[], []⟩).card < assertions.length + 1 := by
    refine ⟨sound_start assertions, ?_⟩
    have fewer : (unseen assertions ⟨[], []⟩).card ≤ (assertions.map Assertion.id).toFinset.card :=
      Finset.card_filter_le _ _
    have bound := List.toFinset_card_le (assertions.map Assertion.id)
    rw [List.length_map] at bound
    omega
  constructor
  · exact Fold.foldlM_congr (fun aid _ t room =>
      (visit_ends assertions _ deeper [] t aid deep room.1 room.2).1) kept start
  · intro e raised
    obtain ⟨aid, -, t, room, here⟩ := Fold.foldlM_raises kept start raised
    exact (visit_ends assertions _ _ [] t aid (le_refl _) room.1 room.2).2 e here

/-- A plan over documents: what was read, in an order that respects it. -/
theorem plan_arranged {docs : List Value} {centralRequired : List Str} {requirements : Value}
    {planned : List Assertion} (accepted : plan docs centralRequired requirements = .ok planned) :
    ∃ arranged, List.Perm arranged docs ∧ List.Forall₂ Entry arranged planned ∧
      ∀ front a back, planned = front ++ a :: back →
        ∀ d ∈ a.dependencies, d ∈ front.map Assertion.id := by
  obtain ⟨assertions, visits, read, checked, visited, rfl⟩ := plan_ok.mp accepted
  obtain ⟨alike, ordered⟩ := visited_ordered checked.distinct visited
  obtain ⟨arranged, paired, same⟩ := List.perm_comp_forall₂ alike (read_ok.mp read).flip
  refine ⟨arranged, same, paired.flip, ?_⟩
  intro front a back split d needed
  have member : a ∈ assertions := by
    rw [← alike.mem_iff, split]
    exact List.mem_append_right _ List.mem_cons_self
  rw [split, List.map_append, List.map_cons, ordered_append] at ordered
  apply ordered.2.1
  unfold dependsOn
  rw [byId_of_mem checked.distinct member]
  exact needed

/-- The planner returns exactly on well-formed graphs, a permutation of the entries
in which every assertion comes after its dependencies; and its search ends. -/
theorem plan_iff_wellFormed (docs : List Value) (centralRequired : List Str)
    (registry : Option Registry) :
    ((∃ planned, plan docs centralRequired (requirementsOf registry) = .ok planned) ↔
        ∃ assertions, WellFormed docs assertions centralRequired registry) ∧
      (∀ planned, plan docs centralRequired (requirementsOf registry) = .ok planned →
        ∃ arranged, List.Perm arranged docs ∧ List.Forall₂ Entry arranged planned ∧
          ∀ front a back, planned = front ++ a :: back →
            ∀ d ∈ a.dependencies, d ∈ front.map Assertion.id) ∧
      ∀ (assertions : List Assertion) (deeper : Nat), assertions.length < deeper →
        (assertions.map Assertion.id).foldlM (visit assertions deeper []) ⟨[], []⟩ =
            (assertions.map Assertion.id).foldlM (visit assertions (assertions.length + 1) [])
              ⟨[], []⟩ ∧
          Fails (fun e => e.cls = planError) ((assertions.map Assertion.id).foldlM
            (visit assertions (assertions.length + 1) []) ⟨[], []⟩) := by
  refine ⟨?_, fun planned => plan_arranged, fun assertions deeper => visits_end assertions⟩
  constructor
  · rintro ⟨planned, accepted⟩
    obtain ⟨assertions, visits, read, checked, visited, -⟩ := plan_ok.mp accepted
    obtain ⟨references, claimed⟩ := traceable_iff.mp checked.traceable
    obtain ⟨closed, acyclic⟩ := (visits_iff checked.distinct).mp ⟨visits, visited⟩
    exact ⟨assertions, read_ok.mp read, references, claimed, checked.distinct, checked.required,
      closed, acyclic⟩
  · rintro ⟨assertions, formed⟩
    obtain ⟨visits, visited⟩ := (visits_iff formed.distinct).mpr ⟨formed.closed, formed.acyclic⟩
    exact ⟨visits.planned, plan_ok.mpr ⟨assertions, visits, read_ok.mpr formed.entries,
      ⟨traceable_iff.mpr ⟨formed.references, formed.claimed⟩, formed.distinct, formed.required⟩,
      visited, rfl⟩⟩

end DevGate.Plan
