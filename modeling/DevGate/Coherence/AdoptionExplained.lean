import DevGate.Coherence.AdoptionMonotone
import DevGate.Coherence.EvaluatorFindings

set_option autoImplicit false

/- A blocked run is explained by its rows, whatever the order of the findings,
the baseline entries and the exceptions. -/
namespace DevGate.Adoption

open Py Evaluate Evaluators

/-- `e` is the strictest enforcement among `fs`. -/
def IsStrictest (fs : List Finding) (e : Enforcement) : Prop :=
  (∃ f ∈ fs, f.enforcement = e) ∧ ∀ f ∈ fs, f.enforcement.rank ≤ e.rank

theorem rank_injective {a b : Enforcement} (same : a.rank = b.rank) : a = b := by
  cases a <;> cases b <;> first | rfl | cases same

theorem IsStrictest.unique {fs : List Finding} {a b : Enforcement} (first : IsStrictest fs a)
    (second : IsStrictest fs b) : a = b := by
  obtain ⟨⟨f, inside, rfl⟩, above⟩ := first
  obtain ⟨⟨g, inside', rfl⟩, above'⟩ := second
  have forth := above' f inside
  have back := above g inside'
  exact rank_injective (by omega)

theorem strictest_some {fs : List Finding} {e : Enforcement} (found : strictest fs = some e) :
    IsStrictest fs e := by
  induction fs generalizing e with
  | nil => cases found
  | cons f rest ih =>
      unfold strictest at found
      cases tail : strictest rest with
      | none =>
          rw [tail, Option.some.injEq] at found
          rw [(strictest_none_iff rest).mp tail]
          exact ⟨⟨f, by simp, found⟩, by simp [found]⟩
      | some top =>
          rw [tail, Option.some.injEq] at found
          obtain ⟨⟨g, inside, attained⟩, above⟩ := ih tail
          split at found
          · rename_i softer
            subst found
            refine ⟨⟨g, List.mem_cons_of_mem _ inside, attained⟩, ?_⟩
            intro h member
            rcases List.mem_cons.mp member with rfl | member
            · omega
            · exact above h member
          · rename_i harder
            subst found
            refine ⟨⟨f, by simp, rfl⟩, ?_⟩
            intro h member
            rcases List.mem_cons.mp member with rfl | member
            · exact Nat.le_refl _
            · have below := above h member
              omega

/-- The strictest enforcement depends on which enforcements occur, not on where. -/
theorem strictest_congr {fs gs : List Finding}
    (same : ∀ e, (∃ f ∈ fs, f.enforcement = e) ↔ ∃ g ∈ gs, g.enforcement = e) :
    strictest fs = strictest gs := by
  cases left : strictest fs with
  | none =>
      rw [(strictest_none_iff fs).mp left] at same
      have empty : gs = [] := by
        rw [List.eq_nil_iff_forall_not_mem]
        intro g member
        obtain ⟨f, impossible, -⟩ := (same g.enforcement).mpr ⟨g, member, rfl⟩
        cases impossible
      rw [empty]
      rfl
  | some e =>
      obtain ⟨attained, above⟩ := strictest_some left
      cases right : strictest gs with
      | none =>
          rw [(strictest_none_iff gs).mp right] at same
          obtain ⟨g, impossible, -⟩ := (same e).mp attained
          cases impossible
      | some e' =>
          obtain ⟨attained', above'⟩ := strictest_some right
          obtain ⟨g, inside, rfl⟩ := (same e).mp attained
          obtain ⟨f, inside', rfl⟩ := (same e').mpr attained'
          have forth := above' g inside
          have back := above f inside'
          rw [rank_injective (Nat.le_antisymm forth back)]

/-- The branches of the loop over the findings, as far as enforcement goes. -/
def verdict (ctx : Context) (f : Finding) : Enforcement :=
  let fp := fingerprint (components ctx.versions f)
  if ctx.stage < 2 then .advisory
  else if fp ∈ ctx.exceptions.expired then .block
  else if (Dict.get? ctx.exceptions.active fp).isSome then .exceptionAdvisory
  else if fp ∈ ctx.baseline ∧ fp ∉ ctx.escalated ∧ ctx.advisoryExpired = false ∧
      shelterEnds ctx.stage ctx.evaluators f.assertionId ctx.core = false then .advisory
  else .block

theorem annotate_verdict (ctx : Context) (f : Finding) :
    (annotate ctx f).1.enforcement = verdict ctx f := by
  unfold annotate verdict
  dsimp only
  split
  · rfl
  · split
    · rfl
    · split
      · rename_i active
        simp [active]
      · rename_i inactive
        simp only [inactive, Option.isSome_none, Bool.false_eq_true, ↓reduceIte]
        split
        · rfl
        · split <;> rfl

/-- Two contexts that differ in the order of their collections only. -/
structure Context.Agrees (ctx ctx' : Context) : Prop where
  stage : ctx'.stage = ctx.stage
  versions : ctx'.versions = ctx.versions
  evaluators : ctx'.evaluators = ctx.evaluators
  core : ctx'.core = ctx.core
  baseline : ∀ fp, fp ∈ ctx'.baseline ↔ fp ∈ ctx.baseline
  escalated : ∀ fp, fp ∈ ctx'.escalated ↔ fp ∈ ctx.escalated
  expired : ∀ fp, fp ∈ ctx'.exceptions.expired ↔ fp ∈ ctx.exceptions.expired
  active : ∀ fp, (Dict.get? ctx'.exceptions.active fp).isSome =
    (Dict.get? ctx.exceptions.active fp).isSome
  advisoryExpired : ctx'.advisoryExpired = ctx.advisoryExpired

theorem Context.Agrees.verdict {ctx ctx' : Context} (agrees : ctx.Agrees ctx') (f : Finding) :
    Adoption.verdict ctx' f = Adoption.verdict ctx f := by
  unfold Adoption.verdict
  simp only [agrees.stage, agrees.versions, agrees.evaluators, agrees.core, agrees.baseline,
    agrees.escalated, agrees.expired, agrees.active, agrees.advisoryExpired]

theorem mirror_enforcement (stage : Int) (findings : List Finding) (e : Row) :
    (mirror stage findings e).1.enforcement = match e.outcome with
      | .satisfied => .advisory
      | .violated =>
          (strictest (findings.filter (fun f => f.assertionId = e.assertionId))).getD .block
      | .unresolved => if 2 ≤ stage then .block else .advisory := by
  unfold mirror
  cases e.outcome with
  | satisfied => rfl
  | unresolved =>
      dsimp only
      split <;> rfl
  | violated =>
      dsimp only
      split
      · rename_i none'
        rw [none']
        rfl
      · rename_i enforcement some'
        rw [some']
        rfl

/-- A row blocks exactly when it ends with BLOCK. -/
theorem mirror_blocks_iff (stage : Int) (findings : List Finding) (e : Row) :
    (mirror stage findings e).2 = true ↔ (mirror stage findings e).1.enforcement = .block := by
  unfold mirror
  cases e.outcome with
  | satisfied => simp
  | unresolved =>
      dsimp only
      split <;> simp
  | violated =>
      dsimp only
      split <;> simp

/-- Adoption writes the enforcement and the reason of a row, and nothing else. -/
theorem mirror_keeps (stage : Int) (findings : List Finding) (e : Row) :
    ∃ enforcement reason, (mirror stage findings e).1 =
      { e with enforcement := enforcement, reason := reason } := by
  unfold mirror
  split
  · exact ⟨_, _, rfl⟩
  · dsimp only
    split <;> exact ⟨_, _, rfl⟩
  · split <;> exact ⟨_, _, rfl⟩

@[simp] theorem mirror_assertionId (stage : Int) (findings : List Finding) (e : Row) :
    (mirror stage findings e).1.assertionId = e.assertionId := by
  obtain ⟨enforcement, reason, same⟩ := mirror_keeps stage findings e
  rw [same]

@[simp] theorem mirror_outcome (stage : Int) (findings : List Finding) (e : Row) :
    (mirror stage findings e).1.outcome = e.outcome := by
  obtain ⟨enforcement, reason, same⟩ := mirror_keeps stage findings e
  rw [same]

/-- Whether the exception has expired at `now`. -/
def past (now : Datetime) (ex : ExceptionRecord) : Except Exc Bool := do
  let expires ← parse ex.expiresAt
  expires.le now

theorem sortException_past {now : Datetime} {s next : Exceptions} {ex : ExceptionRecord} :
    sortException now s ex = .ok next ↔ ∃ gone, past now ex = .ok gone ∧
      next = if gone then { s with expired := fingerprint ex.findingFingerprint :: s.expired }
        else { s with active := Dict.set s.active (fingerprint ex.findingFingerprint) ex } := by
  rw [sortException_ok]
  unfold past
  simp only [bind_ok]
  constructor
  · rintro ⟨expires, gone, parsed, compared, same⟩
    exact ⟨gone, ⟨expires, parsed, compared⟩, same⟩
  · rintro ⟨gone, ⟨expires, parsed, compared⟩, same⟩
    exact ⟨expires, gone, parsed, compared, same⟩

/-- What the exceptions come to, without their order. -/
structure Sorts (now : Datetime) (exceptions : List ExceptionRecord) (s next : Exceptions) :
    Prop where
  dated : ∀ ex ∈ exceptions, ∃ gone, past now ex = .ok gone
  expired : ∀ fp, fp ∈ next.expired ↔ fp ∈ s.expired ∨
    ∃ ex ∈ exceptions, past now ex = .ok true ∧ fingerprint ex.findingFingerprint = fp
  active : ∀ fp, (Dict.get? next.active fp).isSome = true ↔
    (Dict.get? s.active fp).isSome = true ∨
      ∃ ex ∈ exceptions, past now ex = .ok false ∧ fingerprint ex.findingFingerprint = fp

theorem foldlM_sorts {now : Datetime} (exceptions : List ExceptionRecord) {s next : Exceptions}
    (sorted : exceptions.foldlM (sortException now) s = .ok next) : Sorts now exceptions s next := by
  induction exceptions generalizing s with
  | nil =>
      cases sorted
      exact ⟨by simp, by simp, by simp⟩
  | cons ex rest ih =>
      rw [List.foldlM_cons] at sorted
      obtain ⟨mid, here, sorted⟩ := bind_ok.mp sorted
      obtain ⟨gone, dated, rfl⟩ := sortException_past.mp here
      have later := ih sorted
      refine ⟨?_, ?_, ?_⟩
      · intro x member
        rcases List.mem_cons.mp member with rfl | member
        · exact ⟨gone, dated⟩
        · exact later.dated x member
      · intro fp
        rw [later.expired]
        cases gone with
        | true => simp [dated, or_assoc, or_comm, eq_comm]
        | false => simp [dated]
      · intro fp
        rw [later.active]
        cases gone with
        | true => simp [dated]
        | false =>
            simp only [Bool.false_eq_true, ↓reduceIte, Dict.get?_set, List.mem_cons,
              exists_eq_or_imp, dated, true_and]
            split
            · rename_i same
              simp [same]
            · rename_i other
              simp [other]

theorem foldlM_sortException_isOk {now : Datetime} (exceptions : List ExceptionRecord)
    (dated : ∀ ex ∈ exceptions, ∃ gone, past now ex = .ok gone) (s : Exceptions) :
    ∃ next, exceptions.foldlM (sortException now) s = .ok next := by
  induction exceptions generalizing s with
  | nil => exact ⟨s, rfl⟩
  | cons ex rest ih =>
      obtain ⟨gone, here⟩ := dated ex (by simp)
      obtain ⟨next, later⟩ := ih (fun x member => dated x (List.mem_cons_of_mem _ member))
        (if gone then { s with expired := fingerprint ex.findingFingerprint :: s.expired }
          else { s with active := Dict.set s.active (fingerprint ex.findingFingerprint) ex })
      refine ⟨next, ?_⟩
      rw [List.foldlM_cons, sortException_past.mpr ⟨gone, here, rfl⟩, ok_bind, later]

theorem validateExceptions_ok (exceptions : List ExceptionRecord) :
    validateExceptions exceptions = .ok () ↔ ∀ ex ∈ exceptions,
      isWildcard ex.assertionId = false ∧ isWildcard ex.subjectRef = false := by
  induction exceptions with
  | nil => simp [validateExceptions]
  | cons ex rest ih =>
      unfold validateExceptions
      rw [guard_ok, guard_ok, ih]
      simp [and_assoc]

theorem baselineFps_perm {baseline baseline' : List BaselineEntry}
    (shuffled : List.Perm baseline' baseline) (fp : Str) :
    fp ∈ baselineFps baseline' ↔ fp ∈ baselineFps baseline :=
  ((shuffled.filter _).map _).mem_iff

theorem escalatedFps_perm (floors : Dict Str Str) {baseline baseline' : List BaselineEntry}
    (shuffled : List.Perm baseline' baseline) (fp : Str) :
    fp ∈ escalatedFps floors baseline' ↔ fp ∈ escalatedFps floors baseline :=
  ((shuffled.filter _).map _).mem_iff

/-- Shuffled exceptions sort into the same fingerprints. -/
theorem foldlM_perm {now : Datetime} {exceptions exceptions' : List ExceptionRecord}
    (shuffled : List.Perm exceptions' exceptions) {sorted : Exceptions}
    (split : exceptions.foldlM (sortException now) ⟨[], []⟩ = .ok sorted) :
    ∃ sorted', exceptions'.foldlM (sortException now) ⟨[], []⟩ = .ok sorted' ∧
      (∀ fp, fp ∈ sorted'.expired ↔ fp ∈ sorted.expired) ∧
      ∀ fp, (Dict.get? sorted'.active fp).isSome = (Dict.get? sorted.active fp).isSome := by
  have sorts := foldlM_sorts exceptions split
  obtain ⟨sorted', split'⟩ := foldlM_sortException_isOk exceptions'
    (fun ex member => sorts.dated ex (shuffled.mem_iff.mp member)) ⟨[], []⟩
  have sorts' := foldlM_sorts exceptions' split'
  refine ⟨sorted', split', ?_, ?_⟩
  · intro fp
    rw [sorts'.expired, sorts.expired]
    simp only [shuffled.mem_iff]
  · intro fp
    rw [Bool.eq_iff_iff, sorts'.active, sorts.active]
    simp only [shuffled.mem_iff]

/-- The findings of one assertion, after the ladder. -/
def ofAssertion (findings : List Finding) (aid : Str) : List Finding :=
  findings.filter (fun f => f.assertionId = aid)

theorem mem_ofAssertion {findings : List Finding} {aid : Str} {f : Finding} :
    f ∈ ofAssertion findings aid ↔ f ∈ findings ∧ f.assertionId = aid := by
  simp [ofAssertion]

/-- Under agreeing contexts shuffled findings give every row the same enforcement. -/
theorem Context.Agrees.row {ctx ctx' : Context} (agrees : ctx.Agrees ctx')
    {findings findings' : List Finding} (shuffled : List.Perm findings' findings) (e : Row) :
    (mirror ctx'.stage (findings'.map (fun f => (annotate ctx' f).1)) e).1.enforcement =
      (mirror ctx.stage (findings.map (fun f => (annotate ctx f).1)) e).1.enforcement := by
  have same : strictest (ofAssertion (findings'.map (fun f => (annotate ctx' f).1)) e.assertionId) =
      strictest (ofAssertion (findings.map (fun f => (annotate ctx f).1)) e.assertionId) := by
    apply strictest_congr
    intro enforcement
    simp only [mem_ofAssertion, List.mem_map]
    constructor
    · rintro ⟨_, ⟨⟨f, inside, rfl⟩, about⟩, rfl⟩
      rw [annotate_assertionId] at about
      refine ⟨_, ⟨⟨f, shuffled.mem_iff.mp inside, rfl⟩, ?_⟩, ?_⟩
      · rw [annotate_assertionId, about]
      · rw [annotate_verdict, annotate_verdict, agrees.verdict]
    · rintro ⟨_, ⟨⟨f, inside, rfl⟩, about⟩, rfl⟩
      rw [annotate_assertionId] at about
      refine ⟨_, ⟨⟨f, shuffled.mem_iff.mpr inside, rfl⟩, ?_⟩, ?_⟩
      · rw [annotate_assertionId, about]
      · rw [annotate_verdict, annotate_verdict, agrees.verdict]
  rw [mirror_enforcement, mirror_enforcement, agrees.stage]
  unfold ofAssertion at same
  rw [same]

theorem climb_blocked_iff (ctx : Context) (ledger : List Row) (findings : List Finding) :
    (climb ctx ledger findings).blocked = true ↔ (∃ f ∈ findings, verdict ctx f = .block) ∨
      ∃ e ∈ (climb ctx ledger findings).ledger, e.enforcement = .block := by
  rw [climb_blocked, climb_ledger]
  simp only [← annotate_enforcement, annotate_verdict, mirror_blocks_iff, List.mem_map]
  apply or_congr_right
  constructor
  · rintro ⟨e, member, blocks⟩
    exact ⟨_, ⟨e, member, rfl⟩, blocks⟩
  · rintro ⟨_, ⟨e, member, rfl⟩, blocks⟩
    exact ⟨e, member, blocks⟩

/-- What a shuffle of the findings, the baseline and the exceptions leaves alone. -/
structure SameReport (findings findings' : List Finding) (out out' : Report) : Prop where
  blocked : out'.blocked = out.blocked
  rows : out'.ledger.map Row.enforcement = out.ledger.map Row.enforcement
  findings : ∃ enforcementOf : Finding → Enforcement,
    out.findings.map Finding.enforcement = findings.map enforcementOf ∧
      out'.findings.map Finding.enforcement = findings'.map enforcementOf

theorem Context.Agrees.report {ctx ctx' : Context} (agrees : ctx.Agrees ctx') (ledger : List Row)
    {findings findings' : List Finding} (shuffled : List.Perm findings' findings) :
    SameReport findings findings' (climb ctx ledger findings) (climb ctx' ledger findings') := by
  have rows : (climb ctx' ledger findings').ledger.map Row.enforcement =
      (climb ctx ledger findings).ledger.map Row.enforcement := by
    rw [climb_ledger, climb_ledger, climb_findings, climb_findings, List.map_map, List.map_map]
    exact List.map_congr_left (fun e _ => agrees.row shuffled e)
  refine ⟨?_, rows, Adoption.verdict ctx, ?_, ?_⟩
  · rw [Bool.eq_iff_iff, climb_blocked_iff, climb_blocked_iff]
    have blocks : ∀ r : Report, (∃ e ∈ r.ledger, e.enforcement = .block) ↔
        Enforcement.block ∈ r.ledger.map Row.enforcement := by simp
    rw [blocks, blocks, rows]
    simp only [agrees.verdict, shuffled.mem_iff]
  · rw [climb_findings, List.map_map]
    exact List.map_congr_left (fun f _ => annotate_verdict ctx f)
  · rw [climb_findings, List.map_map]
    refine List.map_congr_left (fun f _ => ?_)
    rw [Function.comp_apply, annotate_verdict, agrees.verdict]

theorem evaluate_perm {ledger : List Row} {findings : List Finding} {planned : List Planned}
    {baseline : List BaselineEntry} {exceptions : List ExceptionRecord} {ladder : Ladder}
    {out : Report} (ran : evaluate ledger findings planned baseline exceptions ladder = .ok out)
    {findings' : List Finding} {baseline' : List BaselineEntry}
    {exceptions' : List ExceptionRecord} (shuffledFindings : List.Perm findings' findings)
    (shuffledBaseline : List.Perm baseline' baseline)
    (shuffledExceptions : List.Perm exceptions' exceptions) :
    ∃ out', evaluate ledger findings' planned baseline' exceptions' ladder = .ok out' ∧
      SameReport findings findings' out out' := by
  obtain ⟨valid, now, sorted, parsed, split, rfl⟩ := evaluate_ok.mp ran
  obtain ⟨sorted', split', expired, active⟩ := foldlM_perm shuffledExceptions split
  have valid' : validateExceptions exceptions' = .ok () := by
    rw [validateExceptions_ok] at valid ⊢
    intro ex member
    exact valid ex (shuffledExceptions.mem_iff.mp member)
  have agrees : (contextOf planned baseline ladder sorted).Agrees
      (contextOf planned baseline' ladder sorted') := {
    stage := rfl
    versions := rfl
    evaluators := rfl
    core := rfl
    baseline := baselineFps_perm shuffledBaseline
    escalated := escalatedFps_perm ladder.severityFloor shuffledBaseline
    expired := expired
    active := active
    advisoryExpired := rfl }
  exact ⟨_, evaluate_ok.mpr ⟨valid', now, sorted', parsed, split', rfl⟩,
    agrees.report ledger shuffledFindings⟩

/-- The findings of a run are explained by its rows: a blocked finding blocks
the row of its assertion. -/
theorem blocked_iff_row {s : Progress} {planned : List Assertion} (accounts : Accounts s planned)
    (ctx : Context) :
    (climb ctx s.ledger s.findings).blocked = true ↔
      ∃ e ∈ (climb ctx s.ledger s.findings).ledger, e.enforcement = .block := by
  rw [climb_blocked_iff]
  refine ⟨?_, Or.inr⟩
  rintro (⟨f, inside, blocks⟩ | row)
  · obtain ⟨e, member, violated, about⟩ := accounts.owned f inside
    rw [climb_ledger]
    refine ⟨_, List.mem_map.mpr ⟨e, member, rfl⟩, ?_⟩
    rw [← mirror_blocks_iff, mirror_blocks]
    refine Or.inr ⟨violated, Or.inr ⟨(annotate ctx f).1, ?_, ?_, ?_⟩⟩
    · rw [climb_findings]
      exact List.mem_map.mpr ⟨f, inside, rfl⟩
    · rw [annotate_assertionId, about]
    · rw [annotate_verdict, blocks]
  · exact row

theorem violated_row_strictest {s : Progress} {planned : List Assertion}
    (accounts : Accounts s planned) (ctx : Context) :
    ∀ e ∈ (climb ctx s.ledger s.findings).ledger, e.outcome = .violated →
      IsStrictest (ofAssertion (climb ctx s.ledger s.findings).findings e.assertionId)
        e.enforcement := by
  intro _ member violated
  rw [climb_ledger] at member
  obtain ⟨e, inside, rfl⟩ := List.mem_map.mp member
  rw [mirror_outcome] at violated
  rw [mirror_assertionId, mirror_enforcement, violated]
  obtain ⟨f, reported, about⟩ := accounts.explained e inside violated
  have some' : strictest (ofAssertion (climb ctx s.ledger s.findings).findings e.assertionId) ≠
      none := by
    rw [ne_eq, strictest_none_iff]
    intro empty
    have here : (annotate ctx f).1 ∈
        ofAssertion (climb ctx s.ledger s.findings).findings e.assertionId := by
      rw [mem_ofAssertion, climb_findings, annotate_assertionId]
      exact ⟨List.mem_map.mpr ⟨f, reported, rfl⟩, about⟩
    rw [empty] at here
    cases here
  obtain ⟨enforcement, strict⟩ := Option.ne_none_iff_exists'.mp some'
  unfold ofAssertion at strict ⊢
  rw [strict]
  exact strictest_some strict

/-- Below stage 2 every finding and every row ends advisory. -/
theorem advisory_below_ratchet {s : Progress} {planned : List Assertion}
    (accounts : Accounts s planned) (ctx : Context) (early : ctx.stage < 2) :
    (∀ f ∈ (climb ctx s.ledger s.findings).findings, f.enforcement = .advisory) ∧
      ∀ e ∈ (climb ctx s.ledger s.findings).ledger, e.enforcement = .advisory := by
  have findings : ∀ f ∈ (climb ctx s.ledger s.findings).findings, f.enforcement = .advisory := by
    intro _ member
    rw [climb_findings] at member
    obtain ⟨f, inside, rfl⟩ := List.mem_map.mp member
    rw [annotate_verdict, verdict, if_pos early]
  refine ⟨findings, ?_⟩
  intro e member
  cases outcome : e.outcome with
  | violated =>
      obtain ⟨⟨f, inside, attained⟩, -⟩ := violated_row_strictest accounts ctx e member outcome
      rw [← attained]
      exact findings f (mem_ofAssertion.mp inside).1
  | satisfied =>
      rw [climb_ledger] at member
      obtain ⟨e₀, inside, rfl⟩ := List.mem_map.mp member
      rw [mirror_outcome] at outcome
      rw [mirror_enforcement, outcome]
  | unresolved =>
      rw [climb_ledger] at member
      obtain ⟨e₀, inside, rfl⟩ := List.mem_map.mp member
      rw [mirror_outcome] at outcome
      rw [mirror_enforcement, outcome]
      exact if_neg (by omega)

/-- A blocked run is exactly explained by its rows. -/
theorem evaluate_explained (package : Package) (tree : SubjectTree) (captured : Dict Str Value)
    (drift : Assertion → Option Text) (maxEvaluators : Int) (planned : List Assertion)
    (run : Progress)
    (ran : Evaluate.run (builtins package tree) captured drift maxEvaluators planned = .ok run)
    (baseline : List BaselineEntry) (exceptions : List ExceptionRecord) (ladder : Ladder)
    (out : Report)
    (adopted : evaluate run.ledger run.findings (planned.map Planned.ofAssertion) baseline
      exceptions ladder = .ok out) :
    (out.blocked = true ↔ ∃ e ∈ out.ledger, e.enforcement = .block) ∧
    (∀ e ∈ out.ledger, e.outcome = .violated →
      IsStrictest (ofAssertion out.findings e.assertionId) e.enforcement) ∧
    (ladder.stage < 2 → out.blocked = false ∧ (∀ f ∈ out.findings, f.enforcement = .advisory) ∧
      ∀ e ∈ out.ledger, e.enforcement = .advisory) ∧
    out.ledger.map (fun e => (e.assertionId, e.outcome)) =
      run.ledger.map (fun e => (e.assertionId, e.outcome)) ∧
    (∀ findings' baseline' exceptions', List.Perm findings' run.findings →
      List.Perm baseline' baseline → List.Perm exceptions' exceptions →
      ∃ out', evaluate run.ledger findings' (planned.map Planned.ofAssertion) baseline'
        exceptions' ladder = .ok out' ∧ SameReport run.findings findings' out out') := by
  have accounts := run_accounts (builtins_owns package tree) ran
  obtain ⟨-, now, sorted, -, -, rfl⟩ := evaluate_ok.mp adopted
  refine ⟨blocked_iff_row accounts _, violated_row_strictest accounts _, ?_, ?_, ?_⟩
  · intro early
    obtain ⟨findings, rows⟩ := advisory_below_ratchet accounts
      (contextOf (planned.map Planned.ofAssertion) baseline ladder sorted) early
    refine ⟨?_, findings, rows⟩
    rw [Bool.eq_false_iff, ne_eq, blocked_iff_row accounts]
    rintro ⟨e, member, blocks⟩
    rw [rows e member] at blocks
    cases blocks
  · rw [climb_ledger, List.map_map]
    refine List.map_congr_left (fun e _ => ?_)
    rw [Function.comp_apply, mirror_assertionId, mirror_outcome]
  · intro findings' baseline' exceptions' shuffledFindings shuffledBaseline shuffledExceptions
    exact evaluate_perm adopted shuffledFindings shuffledBaseline shuffledExceptions

/-- An assertion on the declared product name, and a package that breaks it. -/
def nameAssertion : Assertion where
  id := "a1"
  version := 1
  requirementRefs := ["r1"]
  subjects := [⟨.artifactMetadata, none, some "release_manifest.name", none, none⟩]
  evaluator := ⟨"devgate.builtin.identity-consistency", "sha256:0"⟩
  parameters := [("approved_value_ref", .str "product.name")]
  severity := .high
  dependencies := []
  retentionDays := 30

def misnamed : Package :=
  [("product", .dict [("name", .str "gate")]),
    ("release_manifest", .dict [("name", .str "gait")])]

def bareTree : SubjectTree := ⟨"subject", true, fun _ => .ok none, []⟩

theorem evaluate_explained_at_misnamed :
    ∃ (run : Progress) (out : Report),
      Evaluate.run (builtins misnamed bareTree) [] (fun _ => none) defaultMaxEvaluators
        [nameAssertion] = .ok run ∧
      evaluate run.ledger run.findings [Planned.ofAssertion nameAssertion] [] [] ratchet =
        .ok out ∧
      ∃ e ∈ out.ledger, e.enforcement = .block := by
  have ran : ∃ run, Evaluate.run (builtins misnamed bareTree) [] (fun _ => none)
      defaultMaxEvaluators [nameAssertion] = .ok run ∧ ∃ out,
        evaluate run.ledger run.findings [Planned.ofAssertion nameAssertion] [] [] ratchet =
          .ok out ∧ out.blocked = true := ⟨_, rfl, _, rfl, by decide⟩
  obtain ⟨run, ran, out, adopted, blocked⟩ := ran
  exact ⟨run, out, ran, adopted,
    (evaluate_explained misnamed bareTree [] _ _ [nameAssertion] run ran [] [] ratchet out
      adopted).1.mp blocked⟩

end DevGate.Adoption
