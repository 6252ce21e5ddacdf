import DevGate.Lib.Topological
import DevGate.Coherence.Plan

set_option autoImplicit false

/- The planner accepts a list of assertions exactly when it can be ordered, and
then orders it: every assertion comes after its dependencies. -/
namespace DevGate.Plan

open Py Evaluators Topological

/-- The direct dependencies of an id. -/
def dependsOn (assertions : List Assertion) (aid : Str) : List Str :=
  ((byId assertions aid).map Assertion.dependencies).getD []

theorem mem_of_byId {assertions : List Assertion} {aid : Str} {a : Assertion}
    (found : byId assertions aid = some a) : a ∈ assertions ∧ a.id = aid := by
  unfold byId at found
  rw [Dict.get?_ofPairs] at found
  have member := List.mem_reverse.mp (Dict.mem_of_get? found)
  obtain ⟨b, inside, same⟩ := List.mem_map.mp member
  rw [Prod.mk.injEq] at same
  rw [← same.2]
  exact ⟨inside, same.1⟩

theorem byId_of_mem {assertions : List Assertion} (distinct : (assertions.map Assertion.id).Nodup)
    {a : Assertion} (member : a ∈ assertions) : byId assertions a.id = some a := by
  apply Dict.get?_ofPairs_of_mem
  · rw [List.map_map]
    exact distinct
  · exact List.mem_map.mpr ⟨a, member, rfl⟩

/-- The finished ids are the planned ones, in order. -/
structure Sound (assertions : List Assertion) (s : Visits) : Prop where
  done : ∀ aid, Dict.get? s.state aid = some .done ↔ aid ∈ s.planned.map Assertion.id
  distinct : (s.planned.map Assertion.id).Nodup
  ordered : Ordered (dependsOn assertions) [] (s.planned.map Assertion.id)
  known : ∀ a ∈ s.planned, byId assertions a.id = some a

/-- What a completed call changes: ids only get finished. -/
structure Grows (s next : Visits) : Prop where
  inProgress : ∀ aid, Dict.get? next.state aid = some .inProgress ↔
    Dict.get? s.state aid = some .inProgress
  done : ∀ aid, Dict.get? s.state aid = some .done → Dict.get? next.state aid = some .done

theorem Grows.refl (s : Visits) : Grows s s := ⟨fun _ => Iff.rfl, fun _ finished => finished⟩

theorem Grows.trans {s middle next : Visits} (first : Grows s middle) (second : Grows middle next) :
    Grows s next :=
  ⟨fun aid => (second.inProgress aid).trans (first.inProgress aid),
    fun aid finished => second.done aid (first.done aid finished)⟩

/-- A call that returned from `s` with `next` has finished `aid`. -/
structure Visited (assertions : List Assertion) (s : Visits) (aid : Str) (next : Visits) : Prop where
  sound : Sound assertions next
  grows : Grows s next
  finished : Dict.get? next.state aid = some .done

theorem foldlM_visited {assertions : List Assertion} {call : Visits → Str → Except Exc Visits}
    (each : ∀ s aid next, Sound assertions s → call s aid = .ok next →
      Visited assertions s aid next) (aids : List Str) {s next : Visits}
    (sound : Sound assertions s) (ran : aids.foldlM call s = .ok next) :
    Sound assertions next ∧ Grows s next ∧
      ∀ aid ∈ aids, Dict.get? next.state aid = some .done := by
  induction aids generalizing s with
  | nil =>
      cases ran
      exact ⟨sound, Grows.refl _, by simp⟩
  | cons aid rest ih =>
      rw [List.foldlM_cons] at ran
      obtain ⟨middle, here, ran⟩ := bind_ok.mp ran
      have visited := each s aid middle sound here
      obtain ⟨final, later, finished⟩ := ih visited.sound ran
      refine ⟨final, visited.grows.trans later, ?_⟩
      rw [List.forall_mem_cons]
      exact ⟨later.done aid visited.finished, finished⟩

/-- Marking a new id as in progress finishes nothing. -/
theorem Sound.enter {assertions : List Assertion} {s : Visits} (sound : Sound assertions s)
    {aid : Str} (fresh : Dict.get? s.state aid = none) :
    Sound assertions { s with state := Dict.set s.state aid .inProgress } := by
  refine ⟨?_, sound.distinct, sound.ordered, sound.known⟩
  intro other
  show Dict.get? (Dict.set s.state aid .inProgress) other = some .done ↔ _
  rw [Dict.get?_set, ← sound.done]
  split
  · rename_i same
    rw [← same, fresh]
    simp
  · exact Iff.rfl

/-- After its dependencies, an id in progress is finished. -/
theorem Sound.leave {assertions : List Assertion} {s : Visits} (sound : Sound assertions s)
    {a : Assertion} (known : byId assertions a.id = some a)
    (open_ : Dict.get? s.state a.id = some .inProgress)
    (finished : ∀ d ∈ a.dependencies, Dict.get? s.state d = some .done) :
    Sound assertions { state := Dict.set s.state a.id .done, planned := s.planned ++ [a] } := by
  have absent : a.id ∉ s.planned.map Assertion.id := by
    rw [← sound.done, open_]
    simp
  refine ⟨?_, ?_, ?_, ?_⟩
  · intro other
    show Dict.get? (Dict.set s.state a.id .done) other = some .done ↔ _
    rw [Dict.get?_set, List.map_append, List.mem_append, ← sound.done, List.map_singleton,
      List.mem_singleton]
    split
    · rename_i same
      simp [same]
    · rename_i apart
      simp [Ne.symm apart]
  · show ((s.planned ++ [a]).map Assertion.id).Nodup
    rw [List.map_append, List.nodup_append]
    refine ⟨sound.distinct, List.nodup_singleton _, ?_⟩
    intro x inside y last same
    rw [List.map_singleton, List.mem_singleton] at last
    rw [same, last] at inside
    exact absent inside
  · show Ordered (dependsOn assertions) [] ((s.planned ++ [a]).map Assertion.id)
    rw [List.map_append, List.map_singleton]
    apply sound.ordered.concat
    intro d needed
    unfold dependsOn at needed
    rw [known, Option.map_some, Option.getD_some] at needed
    rw [List.nil_append, ← sound.done]
    exact finished d needed
  · intro b member
    rcases List.mem_append.mp member with before | last
    · exact sound.known b before
    · rw [List.mem_singleton.mp last]
      exact known

theorem visit_visited (assertions : List Assertion) (fuel : Nat) :
    ∀ stack s aid next, Sound assertions s → visit assertions fuel stack s aid = .ok next →
      Visited assertions s aid next := by
  induction fuel with
  | zero => intro stack s aid next _ ran; cases ran
  | succ fuel ih =>
      intro stack s aid next sound ran
      unfold visit at ran
      split at ran
      · rename_i finished
        cases ran
        exact ⟨sound, Grows.refl s, finished⟩
      · cases ran
      · rename_i fresh
        split at ran
        · cases ran
        · rename_i a found
          obtain ⟨-, rfl⟩ := mem_of_byId found
          obtain ⟨middle, dependencies, ran⟩ := bind_ok.mp ran
          cases ran
          obtain ⟨entered, grows, finished⟩ := foldlM_visited (ih (stack ++ [a.id]))
            a.dependencies (sound.enter fresh) dependencies
          have open_ : Dict.get? middle.state a.id = some .inProgress := by
            rw [grows.inProgress]
            exact Dict.get?_set_self s.state a.id Mark.inProgress
          have elsewhere : ∀ other, a.id ≠ other → ∀ mark,
              Dict.get? ({ s with state := Dict.set s.state a.id .inProgress } : Visits).state other
                = some mark ↔ Dict.get? s.state other = some mark := by
            intro other apart mark
            rw [Dict.get?_set_of_ne s.state a.id other Mark.inProgress apart]
          refine ⟨entered.leave found open_ finished, ⟨?_, ?_⟩,
            Dict.get?_set_self middle.state a.id Mark.done⟩
          · intro other
            show Dict.get? (Dict.set middle.state a.id .done) other = _ ↔ _
            rw [Dict.get?_set]
            split
            · rename_i same
              rw [← same, fresh]
              simp
            · rename_i apart
              rw [grows.inProgress, elsewhere other apart]
          · intro other before
            show Dict.get? (Dict.set middle.state a.id .done) other = _
            rw [Dict.get?_set]
            split
            · rfl
            · rename_i apart
              exact grows.done other ((elsewhere other apart _).mpr before)

/-- The ids the planner visits are known, and can be ranked. -/
structure Plannable (assertions : List Assertion) (ids : List Str) (rank : Str → Nat) : Prop where
  known : ∀ aid ∈ ids, ∃ a, byId assertions aid = some a
  ranked : Ranked (dependsOn assertions) ids rank

/-- Nothing in progress stands below `aid`. -/
def Above (rank : Str → Nat) (s : Visits) (aid : Str) : Prop :=
  ∀ other, Dict.get? s.state other = some .inProgress → rank aid < rank other

theorem foldlM_completes {assertions : List Assertion} (rank : Str → Nat)
    {call : Visits → Str → Except Exc Visits} (aids : List Str)
    (sound : ∀ s aid next, Sound assertions s → call s aid = .ok next →
      Visited assertions s aid next)
    (each : ∀ s, ∀ aid ∈ aids, Sound assertions s → Above rank s aid → ∃ next, call s aid = .ok next)
    {s : Visits} (start : Sound assertions s) (above : ∀ aid ∈ aids, Above rank s aid) :
    ∃ next, aids.foldlM call s = .ok next := by
  induction aids generalizing s with
  | nil => exact ⟨s, rfl⟩
  | cons aid rest ih =>
      rw [List.forall_mem_cons] at above
      obtain ⟨middle, here⟩ := each s aid List.mem_cons_self start above.1
      have visited := sound s aid middle start here
      have later := ih (fun s aid member => each s aid (List.mem_cons_of_mem _ member))
        visited.sound (fun other member third open_ =>
          above.2 other member third ((visited.grows.inProgress third).mp open_))
      obtain ⟨next, ran⟩ := later
      rw [List.foldlM_cons, here, ok_bind]
      exact ⟨next, ran⟩

/-- Along a rank the recursion ends before the fuel does, and meets no cycle. -/
theorem visit_completes {assertions : List Assertion} {ids : List Str} {rank : Str → Nat}
    (plannable : Plannable assertions ids rank) (fuel : Nat) :
    ∀ stack s aid, aid ∈ ids → rank aid < fuel → Sound assertions s → Above rank s aid →
      ∃ next, visit assertions fuel stack s aid = .ok next := by
  induction fuel with
  | zero => intro stack s aid _ short; omega
  | succ fuel ih =>
      intro stack s aid member short sound above
      unfold visit
      cases marked : Dict.get? s.state aid with
      | some mark =>
          cases mark with
          | done => exact ⟨s, rfl⟩
          | inProgress =>
              have impossible := above aid marked
              omega
      | none =>
          obtain ⟨a, found⟩ := plannable.known aid member
          dsimp only
          rw [found]
          dsimp only
          have lower : ∀ d ∈ a.dependencies, d ∈ ids ∧ rank d < rank aid := by
            intro d needed
            apply plannable.ranked.closed aid member d
            unfold dependsOn
            rw [found]
            exact needed
          have dependencies := foldlM_completes rank a.dependencies
            (visit_visited assertions fuel (stack ++ [aid]))
            (fun s d needed sound above => by
              have below := lower d needed
              exact ih (stack ++ [aid]) s d below.1 (by omega) sound above)
            (sound.enter marked)
            (fun d needed other open_ => by
              have below := lower d needed
              rw [Dict.get?_set] at open_
              split at open_
              · rename_i same
                rw [← same]
                exact below.2
              · have higher := above other open_
                omega)
          obtain ⟨next, ran⟩ := dependencies
          rw [ran, ok_bind]
          exact ⟨_, rfl⟩

theorem sound_start (assertions : List Assertion) : Sound assertions ⟨[], []⟩ :=
  ⟨by simp, by simp, trivial, by simp⟩

theorem foldlM_visit_completes {assertions : List Assertion} {ids : List Str} {rank : Str → Nat}
    (plannable : Plannable assertions ids rank) :
    ∃ visits, ids.foldlM (visit assertions (ids.length + 1) []) ⟨[], []⟩ = .ok visits := by
  apply foldlM_completes rank ids (visit_visited assertions (ids.length + 1) [])
  · intro s aid member sound above
    have bound := plannable.ranked.bounded aid member
    exact visit_completes plannable (ids.length + 1) [] s aid member (by omega) sound above
  · exact sound_start assertions
  · intro aid _ other open_
    cases open_

theorem dupes_eq_nil_iff (ids : List Str) : dupes ids = [] ↔ ids.Nodup := by
  unfold dupes
  rw [Str.sorted_eq_nil_iff, List.filter_eq_nil_iff, List.nodup_iff_count_le_one]
  constructor
  · intro single aid
    by_cases member : aid ∈ ids
    · have once := single aid (List.mem_dedup.mpr member)
      rw [decide_eq_true_eq] at once
      omega
    · rw [List.count_eq_zero_of_not_mem member]
      omega
  · intro single aid _
    rw [decide_eq_true_eq]
    have once := single aid
    omega

theorem byId_isSome_iff (assertions : List Assertion) (aid : Str) :
    (byId assertions aid).isSome = true ↔ aid ∈ assertions.map Assertion.id := by
  unfold byId
  rw [Dict.get?_ofPairs, Dict.get?_isSome_iff, List.map_reverse, List.mem_reverse, List.map_map]
  rfl

/-- The checks before the ordering. -/
structure Accepted (assertions : List Assertion) (centralRequired : List Str)
    (requirements : Value) : Prop where
  traceable : checkRequirements assertions requirements = .ok ()
  distinct : (assertions.map Assertion.id).Nodup
  required : ∀ req ∈ centralRequired, req ∈ assertions.map Assertion.id

theorem plan_ok {docs : List Value} {centralRequired : List Str} {requirements : Value}
    {planned : List Assertion} :
    plan docs centralRequired requirements = .ok planned ↔
      ∃ assertions visits, docs.mapM checkAssertion = .ok assertions ∧
        Accepted assertions centralRequired requirements ∧
        (assertions.map Assertion.id).foldlM (visit assertions (assertions.length + 1) [])
          ⟨[], []⟩ = .ok visits ∧ visits.planned = planned := by
  have named : ∀ (assertions : List Assertion) (req : Str),
      (byId assertions req).isNone = true ↔ req ∉ assertions.map Assertion.id := by
    intro assertions req
    rw [← byId_isSome_iff, Option.isNone_iff_eq_none, Option.not_isSome_iff_eq_none]
  unfold plan
  rw [bind_ok]
  constructor
  · intro ran
    obtain ⟨assertions, read, ran⟩ := ran
    obtain ⟨_, traceable, ran⟩ := bind_ok.mp ran
    obtain ⟨distinct, ran⟩ := guard_ok.mp ran
    split at ran
    · cases ran
    · rename_i present
      obtain ⟨visits, visited, ran⟩ := bind_ok.mp ran
      cases ran
      refine ⟨assertions, visits, read, ⟨traceable, ?_, ?_⟩, visited, rfl⟩
      · rw [← dupes_eq_nil_iff]
        exact not_not.mp distinct
      · intro req needed
        have here := List.find?_eq_none.mp present req needed
        rw [named] at here
        exact not_not.mp here
  · intro planned'
    obtain ⟨assertions, visits, read, accepted, visited, rfl⟩ := planned'
    refine ⟨assertions, read, ?_⟩
    have distinct : dupes (assertions.map Assertion.id) = [] :=
      (dupes_eq_nil_iff _).mpr accepted.distinct
    have present : centralRequired.find? (fun req => (byId assertions req).isNone) = none := by
      rw [List.find?_eq_none]
      intro req needed
      rw [named]
      exact not_not.mpr (accepted.required req needed)
    rw [accepted.traceable, ok_bind]
    dsimp only
    rw [distinct, if_neg (by simp), present]
    dsimp only
    rw [visited]
    rfl

/-- What the planner orders is the input, each assertion after its dependencies. -/
theorem visited_ordered {assertions : List Assertion} {visits : Visits}
    (distinct : (assertions.map Assertion.id).Nodup)
    (visited : (assertions.map Assertion.id).foldlM (visit assertions (assertions.length + 1) [])
      ⟨[], []⟩ = .ok visits) :
    List.Perm visits.planned assertions ∧
      Ordered (dependsOn assertions) [] (visits.planned.map Assertion.id) := by
  obtain ⟨sound, -, finished⟩ := foldlM_visited
    (visit_visited assertions (assertions.length + 1) []) _ (sound_start assertions) visited
  refine ⟨?_, sound.ordered⟩
  rw [List.perm_ext_iff_of_nodup sound.distinct.of_map distinct.of_map]
  intro a
  constructor
  · intro member
    exact (mem_of_byId (sound.known a member)).1
  · intro member
    have done := finished a.id (List.mem_map.mpr ⟨a, member, rfl⟩)
    rw [sound.done] at done
    obtain ⟨b, inside, same⟩ := List.mem_map.mp done
    have one := sound.known b inside
    rw [same, byId_of_mem distinct member, Option.some.injEq] at one
    rw [one]
    exact inside

/-- An accepted list can be ranked. -/
theorem plannable_of_visited {assertions : List Assertion} {visits : Visits}
    (distinct : (assertions.map Assertion.id).Nodup)
    (visited : (assertions.map Assertion.id).foldlM (visit assertions (assertions.length + 1) [])
      ⟨[], []⟩ = .ok visits) :
    ∃ rank, Plannable assertions (assertions.map Assertion.id) rank := by
  obtain ⟨same, ordered⟩ := visited_ordered distinct visited
  have ids := same.map Assertion.id
  refine ⟨_, ?_, (ordered.ranked (ids.nodup_iff.mpr distinct)).perm ids⟩
  intro aid member
  exact Option.isSome_iff_exists.mp ((byId_isSome_iff assertions aid).mpr member)

theorem byId_perm {assertions others : List Assertion} (same : List.Perm others assertions)
    (distinct : (assertions.map Assertion.id).Nodup) : byId others = byId assertions := by
  have otherDistinct : (others.map Assertion.id).Nodup :=
    (same.map Assertion.id).nodup_iff.mpr distinct
  funext aid
  apply Option.ext
  intro a
  constructor
  · intro found
    obtain ⟨member, rfl⟩ := mem_of_byId found
    exact byId_of_mem distinct (same.mem_iff.mp member)
  · intro found
    obtain ⟨member, rfl⟩ := mem_of_byId found
    exact byId_of_mem otherDistinct (same.mem_iff.mpr member)

theorem dependsOn_perm {assertions others : List Assertion} (same : List.Perm others assertions)
    (distinct : (assertions.map Assertion.id).Nodup) : dependsOn others = dependsOn assertions := by
  funext aid
  unfold dependsOn
  rw [byId_perm same distinct]

theorem Plannable.perm {assertions others : List Assertion} {rank : Str → Nat}
    (plannable : Plannable assertions (assertions.map Assertion.id) rank)
    (same : List.Perm others assertions) (distinct : (assertions.map Assertion.id).Nodup) :
    Plannable others (others.map Assertion.id) rank := by
  refine ⟨?_, ?_⟩
  · intro aid member
    rw [byId_perm same distinct]
    exact plannable.known aid ((same.map Assertion.id).mem_iff.mp member)
  · rw [dependsOn_perm same distinct]
    exact plannable.ranked.perm (same.map Assertion.id).symm

theorem forM_ok {α : Type} {f : α → Except Exc Unit} (xs : List α) :
    xs.forM f = .ok () ↔ ∀ x ∈ xs, f x = .ok () := by
  induction xs with
  | nil => simp [List.forM]
  | cons x rest ih =>
      rw [List.forall_mem_cons, ← ih]
      show (f x >>= fun _ => rest.forM f) = .ok () ↔ _
      rw [bind_ok]
      exact ⟨fun ran => ran.elim (fun _ done => done), fun done => ⟨(), done⟩⟩

theorem checkClaimed_congr {claimed others : List Str} (same : ∀ rid, rid ∈ claimed ↔ rid ∈ others)
    (requirement : Str × Value) : checkClaimed claimed requirement = checkClaimed others requirement := by
  unfold checkClaimed
  simp only [same]

theorem checkTraceability_ok {assertions : List Assertion} {requirements : Value} :
    checkTraceability assertions requirements = .ok () ↔
      ∃ rids known registry, (orEmpty requirements).iter = .ok rids ∧
        rids.mapM Value.key = .ok known ∧ items (orEmpty requirements) = .ok registry ∧
        (∀ a ∈ assertions, checkRefs known a = .ok ()) ∧
        ∀ req ∈ registry,
          checkClaimed (assertions.flatMap Assertion.requirementRefs) req = .ok () := by
  unfold checkTraceability
  constructor
  · intro ran
    obtain ⟨rids, iterated, ran⟩ := bind_ok.mp ran
    obtain ⟨known, keyed, ran⟩ := bind_ok.mp ran
    obtain ⟨_, refs, ran⟩ := bind_ok.mp ran
    obtain ⟨registry, listed, ran⟩ := bind_ok.mp ran
    exact ⟨rids, known, registry, iterated, keyed, listed, (forM_ok assertions).mp refs,
      (forM_ok registry).mp ran⟩
  · intro checks
    obtain ⟨rids, known, registry, iterated, keyed, listed, refs, claimed⟩ := checks
    rw [iterated, ok_bind, keyed, ok_bind, (forM_ok assertions).mpr refs, ok_bind, listed, ok_bind]
    exact (forM_ok registry).mpr claimed

theorem Accepted.perm {assertions others : List Assertion} {centralRequired : List Str}
    {requirements : Value} (accepted : Accepted assertions centralRequired requirements)
    (same : List.Perm others assertions) : Accepted others centralRequired requirements := by
  have ids := same.map Assertion.id
  refine ⟨?_, ids.nodup_iff.mpr accepted.distinct, ?_⟩
  · have traceable := accepted.traceable
    unfold checkRequirements at traceable ⊢
    split
    · rfl
    · rename_i given
      rw [if_neg given, checkTraceability_ok] at traceable
      obtain ⟨rids, known, registry, iterated, keyed, listed, refs, claimed⟩ := traceable
      rw [checkTraceability_ok]
      refine ⟨rids, known, registry, iterated, keyed, listed, ?_, ?_⟩
      · intro a member
        exact refs a (same.mem_iff.mp member)
      · intro req member
        rw [checkClaimed_congr (fun rid => (same.flatMap_right Assertion.requirementRefs).mem_iff)]
        exact claimed req member
  · intro req needed
    exact ids.mem_iff.mpr (accepted.required req needed)

theorem mapM_ok {α β : Type} {f : α → Except Exc β} (xs : List α) (ys : List β) :
    xs.mapM f = .ok ys ↔ (∀ x ∈ xs, ∃ y, f x = .ok y) ∧ ys = xs.filterMap (fun x => (f x).toOption) := by
  induction xs generalizing ys with
  | nil =>
      rw [List.mapM_nil, pure_ok, Except.ok.injEq, List.filterMap_nil]
      simp [eq_comm]
  | cons x rest ih =>
      rw [List.mapM_cons, List.forall_mem_cons]
      constructor
      · intro ran
        obtain ⟨y, here, ran⟩ := bind_ok.mp ran
        obtain ⟨later, ranLater, ran⟩ := bind_ok.mp ran
        cases ran
        obtain ⟨each, rfl⟩ := (ih later).mp ranLater
        refine ⟨⟨⟨y, here⟩, each⟩, ?_⟩
        rw [List.filterMap_cons_some (by rw [here]; rfl)]
      · intro each
        obtain ⟨⟨⟨y, here⟩, each⟩, rfl⟩ := each
        rw [here, ok_bind, (ih _).mpr ⟨each, rfl⟩, ok_bind,
          List.filterMap_cons_some (by rw [here]; rfl)]
        rfl

theorem mapM_perm {α β : Type} {f : α → Except Exc β} {xs others : List α} {ys : List β}
    (ran : xs.mapM f = .ok ys) (same : List.Perm others xs) :
    ∃ zs, others.mapM f = .ok zs ∧ List.Perm zs ys := by
  obtain ⟨each, rfl⟩ := (mapM_ok xs ys).mp ran
  refine ⟨others.filterMap (fun x => (f x).toOption), (mapM_ok others _).mpr ⟨?_, rfl⟩,
    same.filterMap _⟩
  intro x member
  exact each x (same.mem_iff.mp member)

/-- Acceptance does not depend on the order of the documents. -/
theorem plan_perm {docs others : List Value} {centralRequired : List Str} {requirements : Value}
    {planned : List Assertion} (same : List.Perm others docs)
    (accepted : plan docs centralRequired requirements = .ok planned) :
    ∃ replanned, plan others centralRequired requirements = .ok replanned := by
  obtain ⟨assertions, visits, read, checked, visited, -⟩ := plan_ok.mp accepted
  obtain ⟨rank, plannable⟩ := plannable_of_visited checked.distinct visited
  obtain ⟨reordered, reread, alike⟩ := mapM_perm read same
  obtain ⟨revisits, revisited⟩ :=
    foldlM_visit_completes (plannable.perm alike checked.distinct)
  rw [List.length_map] at revisited
  exact ⟨revisits.planned, plan_ok.mpr ⟨reordered, revisits, reread, checked.perm alike, revisited,
    rfl⟩⟩

/-- A plan is a permutation of the assertions, each after its dependencies. -/
theorem plan_ordered {docs : List Value} {centralRequired : List Str} {requirements : Value}
    {planned assertions : List Assertion}
    (accepted : plan docs centralRequired requirements = .ok planned)
    (read : docs.mapM checkAssertion = .ok assertions) :
    List.Perm planned assertions ∧ (assertions.map Assertion.id).Nodup ∧
      Ordered (dependsOn assertions) [] (planned.map Assertion.id) := by
  obtain ⟨same, visits, reread, checked, visited, rfl⟩ := plan_ok.mp accepted
  rw [read, Except.ok.injEq] at reread
  subst reread
  obtain ⟨alike, ordered⟩ := visited_ordered checked.distinct visited
  exact ⟨alike, checked.distinct, ordered⟩

end DevGate.Plan
