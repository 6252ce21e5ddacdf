import DevGate.Coherence.AdvisoryShelter
import DevGate.Coherence.PlanOrder
import DevGate.Coherence.RunVerdict

set_option autoImplicit false

/- What the exit code of a run with a result vouches for: which inputs, which assertions, and what
became of each. -/
namespace DevGate

open Py

/-- A sealed run answers the exit code of its ledger. -/
theorem Attest.sealRun_code {env : SignerEnv} {outDir : Str} {res : Value}
    {ledger : List Evaluate.Row} {ids : Result.Identities} {evidenceDigest : Str} {ctx : Value}
    {blocked : Bool} {world last : World} {code : Int}
    (ran : sealRun env outDir res ledger ids evidenceDigest ctx blocked world = (.ok code, last)) :
    ∃ stage, code = (Result.decide ledger stage none (some blocked)).2 := by
  unfold sealRun at ran
  obtain ⟨stage, w, staged, ran⟩ := Act.bind_ok.mp ran
  rw [Act.ofExcept_run, Prod.mk.injEq] at staged
  obtain ⟨new, -, answered⟩ := (leaves_sealRun env outDir res ledger ids evidenceDigest ctx blocked
    staged.1).of (show sealRun env outDir res ledger ids evidenceDigest ctx blocked world = _
      from Act.bind_ok.mpr ⟨stage, w, by rw [Act.ofExcept_run, staged.1, staged.2], ran⟩)
  exact ⟨_, (answered code rfl).matrix⟩

namespace Run

/-! The inputs. -/

/-- The request expects the digest that was computed for the input. -/
def Pinned (req : Dict Str Value) (key : Str) (computed : Option Str) : Prop :=
  ∃ input digest, (Value.dict req).item key = .ok input ∧
    input.get "expected_digest" = .ok (some (.str digest)) ∧ computed = some digest

theorem pinned_of_expected {req : Dict Str Value} {key actual : Str}
    (passed : expected req key actual = .ok ()) : Pinned req key (some actual) := by
  obtain ⟨input, held, passed⟩ := bind_ok.mp passed
  obtain ⟨claimed, looked, passed⟩ := bind_ok.mp passed
  obtain ⟨_, -, passed⟩ := bind_ok.mp passed
  have same := ensure_ok.mp passed
  refine ⟨input, actual, held, ?_, rfl⟩
  cases claimed with
  | none => cases same
  | some v =>
      rw [looked]
      exact congrArg (fun v => Except.ok (some v)) same

theorem item_get {v w : Value} {key : Str} (held : v.item key = .ok w) :
    v.get key = .ok (some w) := by
  obtain ⟨kvs, rfl, inside⟩ := Value.item_ok.mp held
  rw [Value.get_dict, inside]

theorem require_ok {obj v : Value} {key where_ : Str} (ran : require obj key where_ = .ok v) :
    obj.item key = .ok v := by
  unfold require at ran
  split at ran
  · rename_i w held
    rw [held, ran]
  · split at ran <;> cases ran

/-- A policy that is resolved has the digest that was expected. -/
theorem authorize_digest {bundle binding time : Value} {expected : Str} {pol : Dict Str Value}
    (ran : Policy.authorize bundle expected binding time = .ok pol) :
    Dict.get? pol "policy_digest" = some (.str expected) := by
  unfold Policy.authorize at ran
  obtain ⟨_, -, ran⟩ := bind_ok.mp ran
  obtain ⟨_, -, ran⟩ := bind_ok.mp ran
  obtain ⟨computed, -, ran⟩ := bind_ok.mp ran
  obtain ⟨_, same, ran⟩ := bind_ok.mp ran
  obtain ⟨_, -, ran⟩ := bind_ok.mp ran
  obtain ⟨_, -, ran⟩ := bind_ok.mp ran
  cases ran
  rw [Dict.get?_set_self, ensure_ok.mp same]

theorem pinned_policy {site : Site} {req ctx pol : Dict Str Value} {actual : Str}
    (read : readPolicy site req ctx = .ok (pol, actual)) : Pinned req "policy" (some actual) := by
  unfold readPolicy at read
  obtain ⟨input, held, read⟩ := bind_ok.mp read
  obtain ⟨_, -, read⟩ := bind_ok.mp read
  obtain ⟨root, -, read⟩ := bind_ok.mp read
  obtain ⟨claimed, wanted, read⟩ := bind_ok.mp read
  obtain ⟨digest, text, read⟩ := bind_ok.mp read
  obtain ⟨time, -, read⟩ := bind_ok.mp read
  obtain ⟨found, resolved, read⟩ := bind_ok.mp read
  obtain ⟨computed, stated, read⟩ := bind_ok.mp read
  obtain ⟨final, same, read⟩ := bind_ok.mp read
  cases read
  obtain ⟨bundle, -, authorized⟩ := bind_ok.mp resolved
  have recorded := authorize_digest authorized
  obtain ⟨kvs, shape, inside⟩ := Value.item_ok.mp stated
  cases shape
  rw [recorded, Option.some.injEq] at inside
  subst inside
  cases same
  have claimed_ : claimed = .str actual := by
    cases claimed with
    | str s =>
        cases text
        rfl
    | _ => cases text
  subst claimed_
  exact ⟨input, actual, held, item_get (require_ok wanted), rfl⟩

theorem Climbed.pinned {b : Bench} {outDir : Str} {req : Dict Str Value} {a : Annotated}
    (climbed : Climbed b outDir req a) :
    Pinned a.request "subject" a.identities.subject ∧
      Pinned a.request "openspec" a.identities.openspec ∧
      Pinned a.request "policy" a.identities.policy ∧
      Pinned a.request "context" a.identities.context := by
  have of := resolveInputs_ok climbed.inputs
  obtain ⟨_, -, subject, subjectIs⟩ := of.subject
  obtain ⟨_, -, package, packageIs⟩ := of.package
  obtain ⟨root, _, -, facts, contextIs⟩ := of.context
  obtain ⟨_, policy, policyIs⟩ := of.policy
  obtain ⟨_, context, -⟩ := bind_ok.mp facts
  -- the evaluator's image and platform are all that is added to the identities
  have same : ∃ image platform, a.identities =
      { a.inputs.identities with evaluatorImage := some image, platform := some platform } := by
    have ran := climbed.evaluator
    unfold resolveEvaluator at ran
    dsimp only at ran
    split at ran
    · cases ran
    · obtain ⟨⟨image, platform⟩, -, ran⟩ := bind_ok.mp ran
      exact ⟨image, platform, (Except.ok.inj ran).symm⟩
  obtain ⟨image, platform, same⟩ := same
  rw [climbed.given, same]
  dsimp only
  rw [subjectIs, packageIs, policyIs, contextIs]
  exact ⟨pinned_of_expected subject, pinned_of_expected package, pinned_policy policy,
    pinned_of_expected context⟩

/-! The assertions. -/

/-- What is planned under ids that may be any values: they are the ids of planned assertions. -/
theorem planUnder_ok {docs required : List Value} {requirements : Value} {planned : List Assertion}
    (ran : planUnder docs required requirements = .ok planned) :
    ∃ names : List Str, required = names.map .str ∧
      Plan.plan docs names requirements = .ok planned := by
  unfold planUnder at ran
  dsimp only at ran
  split at ran
  · rename_i texts
    refine ⟨_, ?_, ran⟩
    rw [List.find?_eq_none] at texts
    have all : required.takeWhile (fun v => v.str?.isSome) = required := by
      rw [List.takeWhile_eq_self_iff]
      intro v inside
      cases held : v.str? with
      | none => exact absurd (by rw [held]; rfl) (texts v inside)
      | some s => rfl
    rw [all]
    clear ran all
    induction required with
    | nil => rfl
    | cons v rest ih =>
        rw [List.forall_mem_cons] at texts
        cases v with
        | str s => exact congrArg (Value.str s :: ·) (ih texts.2)
        | _ => exact absurd rfl texts.1
  · rename_i v found
    obtain ⟨assertions, read, ran⟩ := bind_ok.mp ran
    obtain ⟨_, traceable, ran⟩ := bind_ok.mp ran
    split at ran
    · rename_i blocked
      -- the planner refuses the same duplicates and the same missing ids
      obtain ⟨same, visits, reread, accepted, -, -⟩ := Plan.plan_ok.mp ran
      rw [read, Except.ok.injEq] at reread
      subst reread
      rcases blocked with twice | missing
      · exact absurd ((Plan.dupes_eq_nil_iff _).mpr accepted.distinct) twice
      · obtain ⟨name, listed, absent⟩ := List.any_eq_true.mp missing
        have named := (Plan.byId_isSome_iff assertions name).mpr (accepted.required name listed)
        rw [Option.isNone_iff_eq_none] at absent
        rw [absent] at named
        cases named
    · obtain ⟨_, -, ran⟩ := bind_ok.mp ran
      cases ran

/-- The planned assertions are those of the package under the repository's overlay, each once, and
those that the bundle requires are among them. -/
structure Complete (b : Bench) (a : Annotated) : Prop where
  distinct : (a.planned.map Assertion.id).Nodup
  whole : ∃ docs under assertions, readAssertions b a.outDir a.request a.identities = .ok docs ∧
    overlaid b a.outDir a.request a.inputs.policy docs a.identities = .ok under ∧
    under.mapM Plan.checkAssertion = .ok assertions ∧ List.Perm a.planned assertions
  required : ∃ required, Policy.centralRequired a.inputs.policy = .ok required ∧
    ∀ v ∈ required, ∃ x ∈ a.planned, v = .str x.id

theorem Climbed.complete {b : Bench} {outDir : Str} {req : Dict Str Value} {a : Annotated}
    (climbed : Climbed b outDir req a) : Complete b a := by
  obtain ⟨docs, under, read, overlay, planned⟩ := climbed.planned
  have planned := guarded_ok.mp planned
  obtain ⟨required, central, planned⟩ := bind_ok.mp planned
  obtain ⟨names, same, planned⟩ := planUnder_ok planned
  obtain ⟨assertions, visits, checked, accepted, -, -⟩ := Plan.plan_ok.mp planned
  obtain ⟨alike, -, -⟩ := Plan.plan_ordered planned checked
  have ids := alike.map Assertion.id
  rw [← climbed.place, ← climbed.given] at read overlay
  refine ⟨ids.nodup_iff.mpr accepted.distinct,
    ⟨docs, under, assertions, read, overlay, checked, alike⟩, required, central, fun v inside => ?_⟩
  rw [same] at inside
  obtain ⟨name, listed, rfl⟩ := List.mem_map.mp inside
  obtain ⟨x, member, is⟩ := List.mem_map.mp (ids.mem_iff.mpr (accepted.required name listed))
  exact ⟨x, member, by rw [is]⟩

/-! The decision. -/

/-- The run of a request file that does not read as a document. -/
theorem run_of_unloaded {p : Printer} {b : Bench} {parent : Str} {file : Except Exc Bytes} {e : Exc}
    (unloaded : (do Json.loadText (← file)) = .error e) :
    ∃ stop : Stop, stop.Classed ∧ run p b parent file = answer p (.stopped stop) := by
  cases stopped : guarded malformed
      (fun text => ⟨parent, "invalid-input", "malformed request: " :: text, "invocation", {}⟩)
      (.error e : Except Exc Value) with
  | ok req => cases guarded_ok.mp stopped
  | error stop =>
      refine ⟨stop, guarded_classed (fun _ => Result.classed_input) stop stopped, ?_⟩
      unfold run
      dsimp only
      rw [unloaded, stopped]

/-- A run that answers a code of the ladder has a result, and the code is that of its ladder. -/
theorem run_concluded {p : Printer} {b : Bench} {parent : Str} {file : Except Exc Bytes}
    {world last : World} {code : Int} (ran : run p b parent file world = (.ok code, last))
    (ladder : code < Result.exitInvalidInput) :
    ∃ bytes req d before after, file = .ok bytes ∧ Json.loadText bytes = .ok req ∧
      concluded p b parent req before = (.ok (.ok d), after) ∧
      ∃ stage, code = (Result.decide d.annotated.report.ledger stage none
        (some d.annotated.report.blocked)).2 := by
  have failed : ∀ {outDir errorClass stage : Str} {reason : Text} {ids : Result.Identities}
      {ledger : Option (List Evaluate.Row)} {world last : World}, Result.Classed errorClass →
      Result.fail p outDir errorClass reason stage ids ledger world ≠ (.ok code, last) := by
    intro outDir errorClass stage reason ids ledger world last known fails
    rw [Result.fail_code fails] at ladder
    have above := (classed_code known).2.1
    omega
  have answered : ∀ {halt : Halt} {world last : World}, halt.Classed →
      answer p halt world ≠ (.ok code, last) := by
    intro halt world last known answers
    cases halt with
    | stopped s =>
        cases s with
        | refused r => exact failed known answers
        | raised e => cases answers
    | failed r ledger => exact failed known answers
  cases loaded : (do Json.loadText (← file)) with
  | error e =>
      obtain ⟨stop, known, same⟩ := @run_of_unloaded p b parent file e loaded
      rw [same] at ran
      exact absurd ran (answered known)
  | ok req =>
      rw [run_of_loaded loaded] at ran
      obtain ⟨bytes, opened, read⟩ := bind_ok.mp loaded
      obtain ⟨outcome, middle, went, ran⟩ := Act.bind_ok.mp ran
      cases outcome with
      | error halt =>
          obtain ⟨_, -, -, known⟩ := (leaves_concluded p b parent req).of went
          exact absurd ran (answered (known halt rfl))
      | ok d =>
          obtain ⟨sealed_, w, ended, ran⟩ := Act.bind_ok.mp ran
          refine ⟨bytes, req, d, world, middle, opened, read, went, ?_⟩
          rcases Act.catching_ok.mp ended with done | ⟨e, v, -, -, handled⟩
          · obtain ⟨found, _, sealed_, done⟩ := Act.bind_ok.mp done
            cases done
            obtain ⟨_, _, -, ran⟩ := Act.bind_ok.mp ran
            cases ran
            exact Attest.sealRun_code sealed_
          · obtain ⟨found, _, fails, handled⟩ := Act.bind_ok.mp handled
            cases handled
            cases ran
            exact absurd fails (failed (by decide))

/-- The ladder of a run: a row for each planned assertion, and a block is a row that blocks. -/
structure Laddered (a : Annotated) : Prop where
  rows : a.report.ledger.map Evaluate.Row.assertionId = a.planned.map Assertion.id
  blocked : a.report.blocked = true ↔ ∃ row ∈ a.report.ledger, row.enforcement = .block
  satisfied : ∀ row ∈ a.report.ledger, row.outcome = .satisfied → row.enforcement ≠ .block

theorem Climbed.laddered {b : Bench} {outDir : Str} {req : Dict Str Value} {a : Annotated}
    (climbed : Climbed b outDir req a) : Laddered a := by
  have accounts := Evaluate.run_accounts (Evaluators.builtins_owns a.inputs.package b.subject)
    (guarded_ok.mp climbed.progress)
  obtain ⟨baseline, exceptions, ladder, -, -, ran⟩ := adopt_ok climbed.report
  obtain ⟨-, now, sorted, -, -, same⟩ := Adoption.evaluate_ok.mp ran
  have ledger : a.report.ledger = _ := (congrArg Adoption.Report.ledger same).symm
  rw [Adoption.climb_ledger] at ledger
  refine ⟨?_, ?_, fun row inside satisfied => ?_⟩
  · rw [ledger, ← accounts.rows, List.map_map]
    apply List.map_congr_left
    intro e _
    obtain ⟨enforcement, reason, kept⟩ := Adoption.mirror_keeps _ _ e
    rw [Function.comp_apply, kept]
  · rw [← same]
    exact Adoption.blocked_iff_row accounts _
  · rw [ledger] at inside
    obtain ⟨e, member, rfl⟩ := List.mem_map.mp inside
    obtain ⟨enforcement, reason, kept⟩ := Adoption.mirror_keeps _ _ e
    rw [kept] at satisfied
    rw [Adoption.mirror_enforcement, show e.outcome = .satisfied from satisfied]
    exact nofun

/-- What the exit code of a run says of its assertions. -/
structure Vouches (a : Annotated) (code : Int) : Prop where
  pass : code = Result.exitPass ↔ ∀ row ∈ a.report.ledger, row.outcome = .satisfied
  fail : code = Result.exitFail ↔ ∃ row ∈ a.report.ledger, row.enforcement = .block

theorem Laddered.vouches {a : Annotated} (laddered : Laddered a) (stage : Int) :
    Vouches a (Result.decide a.report.ledger stage none (some a.report.blocked)).2 := by
  have closed :
      a.report.ledger.any (fun e => e.outcome = .violated || e.outcome = .unresolved) = false ↔
        ∀ row ∈ a.report.ledger, row.outcome = .satisfied := by
    rw [List.any_eq_false]
    refine forall₂_congr (fun row _ => ?_)
    cases row.outcome <;> simp
  unfold Result.decide
  dsimp only [Option.getD_some]
  cases blocks : a.report.blocked with
  | true =>
      rw [if_pos rfl]
      have found := laddered.blocked.mp blocks
      refine ⟨iff_of_false (by decide) (fun all => ?_), iff_of_true rfl found⟩
      obtain ⟨row, inside, stops⟩ := found
      exact laddered.satisfied row inside (all row inside) stops
  | false =>
      have none_ : ¬ ∃ row ∈ a.report.ledger, row.enforcement = .block := by
        rw [← laddered.blocked, blocks]
        exact Bool.false_ne_true
      rw [if_neg Bool.false_ne_true]
      split
      · rename_i open_
        refine ⟨iff_of_false (by decide) (fun all => ?_), iff_of_false (by decide) none_⟩
        rw [closed.mpr all] at open_
        cases open_
      · rename_i shut
        rw [Bool.not_eq_true] at shut
        exact ⟨iff_of_true rfl (closed.mp shut), iff_of_false (by decide) none_⟩

/-- What a run with the exit code `code` stands for: its four inputs are under the digests of the
request, every assertion of the package is planned, once, and has a row. -/
structure Stands (p : Printer) (b : Bench) (parent : Str) (file : Except Exc Bytes) (d : Decided)
    (code : Int) : Prop where
  decoded : ∃ bytes, file = .ok bytes ∧ Json.loadText bytes = .ok (.dict d.annotated.request)
  concluded : ∃ before after,
    concluded p b parent (.dict d.annotated.request) before = (.ok (.ok d), after)
  subject : Pinned d.annotated.request "subject" d.annotated.identities.subject
  openspec : Pinned d.annotated.request "openspec" d.annotated.identities.openspec
  policy : Pinned d.annotated.request "policy" d.annotated.identities.policy
  context : Pinned d.annotated.request "context" d.annotated.identities.context
  complete : Complete b d.annotated
  rows : d.annotated.report.ledger.map Evaluate.Row.assertionId =
    d.annotated.planned.map Assertion.id
  vouches : Vouches d.annotated code

/-- A run that decides answers PASS where every assertion is satisfied, whatever the ladder
shelters, and FAIL where a row blocks. -/
theorem run_vouches {p : Printer} {b : Bench} {parent : Str} {file : Except Exc Bytes}
    {world last : World} {code : Int} (ran : run p b parent file world = (.ok code, last))
    (ladder : code < Result.exitInvalidInput) : ∃ d, Stands p b parent file d code := by
  obtain ⟨bytes, req, d, before, after, opened, read, went, stage, rfl⟩ := run_concluded ran ladder
  have accepted := (concluded_ok went).accepted
  have climbed := (concluded_ok went).climbed
  obtain ⟨subject, openspec, policy, context⟩ := climbed.pinned
  obtain ⟨rfl, -⟩ := accept_ok accepted
  exact ⟨d, {
    decoded := ⟨bytes, opened, read⟩
    concluded := ⟨before, after, went⟩
    subject
    openspec
    policy
    context
    complete := climbed.complete
    rows := climbed.laddered.rows
    vouches := climbed.laddered.vouches stage }⟩

theorem run_vouches_pilot :
    ∃ d, Stands Pilot.printer Pilot.bench "/run" (Canon.canon Pilot.request) d 20 := by
  obtain ⟨last, ran⟩ := Pilot.ran
  exact run_vouches ran (by decide)

end Run

end DevGate
