import DevGate.Coherence.Adoption

set_option autoImplicit false

/- A stricter ladder blocks everything a more lenient one blocks. -/
namespace DevGate.Adoption

open Py Evaluate

theorem sweep_eq {α : Type} (body : α → α × Bool) (xs : List α) (blocked : Bool) :
    sweep body xs blocked =
      (xs.map (fun x => (body x).1), blocked || xs.any (fun x => (body x).2)) := by
  induction xs generalizing blocked with
  | nil => simp [sweep]
  | cons x rest ih => simp [sweep, ih, Bool.or_assoc]

/-- Some baseline entry names the finding, and nothing ends its shelter. -/
def Sheltered (ctx : Context) (f : Finding) : Prop :=
  let fp := fingerprint (components ctx.versions f)
  fp ∈ ctx.baseline ∧ fp ∉ ctx.escalated ∧ ctx.advisoryExpired = false ∧
    shelterEnds ctx.stage ctx.evaluators f.assertionId ctx.core = false

/-- When the loop over the findings blocks on a finding. -/
def Blocks (ctx : Context) (f : Finding) : Prop :=
  let fp := fingerprint (components ctx.versions f)
  2 ≤ ctx.stage ∧ (fp ∈ ctx.exceptions.expired ∨
    (Dict.get? ctx.exceptions.active fp = none ∧ ¬ Sheltered ctx f))

theorem annotate_spec (ctx : Context) (f : Finding) :
    ((annotate ctx f).2 = true ↔ Blocks ctx f) ∧
      ((annotate ctx f).1.enforcement = .block ↔ Blocks ctx f) := by
  unfold annotate Blocks Sheltered
  dsimp only
  generalize fingerprint (components ctx.versions f) = fp
  split
  · rename_i early
    have below : ¬ 2 ≤ ctx.stage := by omega
    simp [below]
  · rename_i enforced
    have above : 2 ≤ ctx.stage := by omega
    split
    · rename_i expired
      simp [above, expired]
    · rename_i unexpired
      split
      · rename_i ex active
        simp [active, unexpired]
      · rename_i inactive
        split
        · rename_i sheltered
          simp [inactive, unexpired, sheltered]
        · rename_i open'
          split <;> simp [above, inactive, unexpired, open']

theorem annotate_blocks (ctx : Context) (f : Finding) :
    (annotate ctx f).2 = true ↔ Blocks ctx f := (annotate_spec ctx f).1

theorem annotate_enforcement (ctx : Context) (f : Finding) :
    (annotate ctx f).1.enforcement = .block ↔ Blocks ctx f := (annotate_spec ctx f).2

@[simp] theorem annotate_assertionId (ctx : Context) (f : Finding) :
    (annotate ctx f).1.assertionId = f.assertionId := by
  unfold annotate
  dsimp only
  split
  · rfl
  · split
    · rfl
    · split
      · rfl
      · split
        · rfl
        · split <;> rfl

/-- A context at least as strict, for the same findings and baseline. -/
structure Context.Tightens (lenient strict : Context) : Prop where
  stage : lenient.stage ≤ strict.stage
  versions : strict.versions = lenient.versions
  evaluators : strict.evaluators = lenient.evaluators
  core : ∀ evaluator ∈ lenient.core, evaluator ∈ strict.core
  baseline : strict.baseline = lenient.baseline
  escalated : ∀ fp ∈ lenient.escalated, fp ∈ strict.escalated
  expired : ∀ fp ∈ lenient.exceptions.expired, fp ∈ strict.exceptions.expired
  active : ∀ fp, Dict.get? lenient.exceptions.active fp = none →
    Dict.get? strict.exceptions.active fp = none
  advisoryExpired : lenient.advisoryExpired = true → strict.advisoryExpired = true

theorem shelterEnds_mono {stage stage' : Int} (later : stage ≤ stage')
    (evaluators : Dict Str (Option Str)) (aid : Str) {core core' : List Str}
    (wider : ∀ evaluator ∈ core, evaluator ∈ core')
    (ends : shelterEnds stage evaluators aid core = true) :
    shelterEnds stage' evaluators aid core' = true := by
  unfold shelterEnds at ends ⊢
  by_cases full : 4 ≤ stage'
  · simp [full]
  · have before : ¬ 4 ≤ stage := by omega
    simp only [before, ↓reduceIte] at ends
    simp only [full, ↓reduceIte]
    split at ends
    · rename_i atCore
      have same : stage' = 3 := by omega
      simp only [same, ↓reduceIte]
      cases named : (Dict.get? evaluators aid).join with
      | none => simp [named] at ends
      | some evaluator =>
          simp only [named, decide_eq_true_eq] at ends ⊢
          exact wider evaluator ends
    · cases ends

theorem Context.Tightens.sheltered {lenient strict : Context} (tightens : lenient.Tightens strict)
    (f : Finding) (sheltered : Sheltered strict f) : Sheltered lenient f := by
  obtain ⟨listed, unescalated, current, shelter⟩ := sheltered
  rw [tightens.versions] at listed unescalated
  rw [tightens.baseline] at listed
  rw [tightens.evaluators] at shelter
  refine ⟨listed, ?_, ?_, ?_⟩
  · intro escalated
    exact unescalated (tightens.escalated _ escalated)
  · by_contra spent
    rw [tightens.advisoryExpired (by simpa using spent)] at current
    cases current
  · by_contra ends
    have ends' := shelterEnds_mono tightens.stage lenient.evaluators f.assertionId tightens.core
      (by simpa using ends)
    rw [ends'] at shelter
    cases shelter

theorem Context.Tightens.blocks {lenient strict : Context} (tightens : lenient.Tightens strict)
    (f : Finding) (blocks : Blocks lenient f) : Blocks strict f := by
  obtain ⟨enforced, reason⟩ := blocks
  have stage := tightens.stage
  refine ⟨by omega, ?_⟩
  rw [tightens.versions]
  rcases reason with expired | ⟨inactive, unsheltered⟩
  · exact Or.inl (tightens.expired _ expired)
  · exact Or.inr ⟨tightens.active _ inactive, fun sheltered =>
      unsheltered (tightens.sheltered f sheltered)⟩

theorem climb_findings (ctx : Context) (ledger : List Row) (findings : List Finding) :
    (climb ctx ledger findings).findings = findings.map (fun f => (annotate ctx f).1) := by
  simp [climb, sweep_eq]

theorem climb_ledger (ctx : Context) (ledger : List Row) (findings : List Finding) :
    (climb ctx ledger findings).ledger =
      ledger.map (fun e => (mirror ctx.stage (climb ctx ledger findings).findings e).1) := by
  simp [climb, sweep_eq]

theorem climb_blocked (ctx : Context) (ledger : List Row) (findings : List Finding) :
    (climb ctx ledger findings).blocked = true ↔
      (∃ f ∈ findings, Blocks ctx f) ∨
        ∃ e ∈ ledger, (mirror ctx.stage (climb ctx ledger findings).findings e).2 = true := by
  simp [climb, sweep_eq, annotate_blocks]

theorem evaluate_ok {ledger : List Row} {findings : List Finding} {planned : List Planned}
    {baseline : List BaselineEntry} {exceptions : List ExceptionRecord} {ladder : Ladder}
    {out : Report} :
    evaluate ledger findings planned baseline exceptions ladder = .ok out ↔
      validateExceptions exceptions = .ok () ∧ ∃ now sorted,
        parse ladder.evaluationTime = .ok now ∧
        exceptions.foldlM (sortException now) ⟨[], []⟩ = .ok sorted ∧
        climb (contextOf planned baseline ladder sorted) ledger findings = out := by
  unfold evaluate
  rw [bind_ok]
  constructor
  · rintro ⟨_, valid, rest⟩
    obtain ⟨now, parsed, rest⟩ := bind_ok.mp rest
    obtain ⟨sorted, split, rest⟩ := bind_ok.mp rest
    exact ⟨valid, now, sorted, parsed, split, Except.ok.inj rest⟩
  · rintro ⟨valid, now, sorted, parsed, split, rfl⟩
    refine ⟨(), valid, ?_⟩
    rw [parsed, ok_bind, split, ok_bind]

/-- What a later clock does to the exceptions: more have expired, fewer are active. -/
structure Exceptions.Later (s s' : Exceptions) : Prop where
  expired : ∀ fp ∈ s.expired, fp ∈ s'.expired
  active : ∀ fp, Dict.get? s.active fp = none → Dict.get? s'.active fp = none

theorem sortException_ok {now : Datetime} {s next : Exceptions} {ex : ExceptionRecord} :
    sortException now s ex = .ok next ↔
      ∃ expires past, parse ex.expiresAt = .ok expires ∧ expires.le now = .ok past ∧
        next = if past then { s with expired := fingerprint ex.findingFingerprint :: s.expired }
          else { s with active := Dict.set s.active (fingerprint ex.findingFingerprint) ex } := by
  unfold sortException
  dsimp only
  rw [bind_ok]
  constructor
  · rintro ⟨expires, parsed, rest⟩
    obtain ⟨past, compared, rest⟩ := bind_ok.mp rest
    refine ⟨expires, past, parsed, compared, ?_⟩
    cases past <;> exact (Except.ok.inj rest).symm
  · rintro ⟨expires, past, parsed, compared, rfl⟩
    refine ⟨expires, parsed, bind_ok.mpr ⟨past, compared, ?_⟩⟩
    cases past <;> rfl

theorem le_later {expires now now' : Datetime} {past : Bool} (compared : expires.le now = .ok past)
    (later : now.le now' = .ok true) :
    ∃ past', expires.le now' = .ok past' ∧ (past = true → past' = true) := by
  obtain ⟨comparable, order⟩ := Datetime.le_ok.mp compared
  obtain ⟨comparable', order'⟩ := Datetime.le_ok.mp later
  refine ⟨_, Datetime.le_ok.mpr ⟨comparable.trans comparable', rfl⟩, ?_⟩
  rintro rfl
  simp only [decide_eq_true_eq] at order order' ⊢
  omega

/-- One exception, under two clocks. -/
theorem Exceptions.Later.step {now now' : Datetime} (later : now.le now' = .ok true)
    {s s' next : Exceptions} (invariant : s.Later s') {ex : ExceptionRecord}
    (sorted : sortException now s ex = .ok next) :
    ∃ next', sortException now' s' ex = .ok next' ∧ next.Later next' := by
  obtain ⟨expires, past, parsed, compared, rfl⟩ := sortException_ok.mp sorted
  obtain ⟨past', compared', mono⟩ := le_later compared later
  refine ⟨_, sortException_ok.mpr ⟨expires, past', parsed, compared', rfl⟩, ?_⟩
  cases past with
  | true =>
      rw [mono rfl]
      refine ⟨?_, invariant.active⟩
      intro fp member
      rcases List.mem_cons.mp member with same | member
      · exact List.mem_cons.mpr (Or.inl same)
      · exact List.mem_cons_of_mem _ (invariant.expired fp member)
  | false =>
      cases past' with
      | true =>
          refine ⟨fun fp member => List.mem_cons_of_mem _ (invariant.expired fp member), ?_⟩
          intro fp inactive
          apply invariant.active
          simp only [Bool.false_eq_true, ↓reduceIte, Dict.get?_set] at inactive
          split at inactive
          · cases inactive
          · exact inactive
      | false =>
          refine ⟨invariant.expired, ?_⟩
          intro fp inactive
          simp only [Bool.false_eq_true, ↓reduceIte, Dict.get?_set] at inactive ⊢
          split at inactive
          · cases inactive
          · rename_i other
            rw [if_neg other]
            exact invariant.active fp inactive

theorem Exceptions.Later.fold {now now' : Datetime} (later : now.le now' = .ok true)
    (exceptions : List ExceptionRecord) {s s' next : Exceptions} (invariant : s.Later s')
    (sorted : exceptions.foldlM (sortException now) s = .ok next) :
    ∃ next', exceptions.foldlM (sortException now') s' = .ok next' ∧ next.Later next' := by
  induction exceptions generalizing s s' with
  | nil =>
      cases sorted
      exact ⟨s', rfl, invariant⟩
  | cons ex rest ih =>
      rw [List.foldlM_cons] at sorted
      obtain ⟨mid, here, sorted⟩ := bind_ok.mp sorted
      obtain ⟨mid', here', invariant'⟩ := invariant.step later here
      obtain ⟨next', rest', invariant''⟩ := ih invariant' sorted
      refine ⟨next', ?_, invariant''⟩
      rw [List.foldlM_cons, here', ok_bind, rest']

/-- A severity floor is at least as high wherever the lenient one states a rank. -/
def RaisesFloors (lenient strict : Dict Str Str) : Prop :=
  ∀ id severity rank, Dict.get? lenient id = some severity →
    Dict.get? severityRank severity = some rank → ∃ severity' rank',
      Dict.get? strict id = some severity' ∧ Dict.get? severityRank severity' = some rank' ∧
        rank ≤ rank'

theorem isEscalated_mono {lenient strict : Dict Str Str} (raises : RaisesFloors lenient strict)
    (b : BaselineEntry) (escalated : isEscalated lenient b = true) :
    isEscalated strict b = true := by
  unfold isEscalated at escalated ⊢
  cases adopted : b.severity.bind (Dict.get? severityRank) with
  | none => simp [adopted] at escalated
  | some adoptedRank =>
      cases floor : (Dict.get? lenient b.fingerprint.assertionId).bind
          (Dict.get? severityRank) with
      | none => simp [floor, adopted] at escalated
      | some floorRank =>
          obtain ⟨severity, stated, ranked⟩ := Option.bind_eq_some_iff.mp floor
          obtain ⟨severity', rank', stated', ranked', higher⟩ := raises _ _ _ stated ranked
          simp only [floor, adopted, decide_eq_true_eq] at escalated
          simp only [stated', Option.bind_some, ranked', decide_eq_true_eq]
          omega

theorem escalatedFps_mono {lenient strict : Dict Str Str} (raises : RaisesFloors lenient strict)
    (baseline : List BaselineEntry) :
    ∀ fp ∈ escalatedFps lenient baseline, fp ∈ escalatedFps strict baseline := by
  intro fp member
  unfold escalatedFps at member ⊢
  obtain ⟨b, kept, rfl⟩ := List.mem_map.mp member
  obtain ⟨inside, escalated⟩ := List.mem_filter.mp kept
  rw [Bool.and_eq_true] at escalated
  refine List.mem_map.mpr ⟨b, List.mem_filter.mpr ⟨inside, ?_⟩, rfl⟩
  rw [Bool.and_eq_true]
  exact ⟨escalated.1, isEscalated_mono raises b escalated.2⟩

/-- The second ladder is the first with any of its inputs tightened. -/
structure Ladder.Tightens (lenient strict : Ladder) : Prop where
  stage : lenient.stage ≤ strict.stage
  time : ∃ now now', parse lenient.evaluationTime = .ok now ∧
    parse strict.evaluationTime = .ok now' ∧ now.le now' = .ok true
  core : ∀ evaluator ∈ lenient.coreClasses.getD defaultEnforcedCore,
    evaluator ∈ strict.coreClasses.getD defaultEnforcedCore
  floors : RaisesFloors lenient.severityFloor strict.severityFloor
  advisoryExpired : lenient.advisoryExpired = true → strict.advisoryExpired = true

theorem strictest_none_iff (fs : List Finding) : strictest fs = none ↔ fs = [] := by
  cases fs with
  | nil => simp [strictest]
  | cons f rest => cases h : strictest rest <;> simp [strictest, h]

/-- The strictest of several findings blocks exactly when one of them does. -/
theorem strictest_block_iff (fs : List Finding) :
    strictest fs = some .block ↔ ∃ f ∈ fs, f.enforcement = .block := by
  induction fs with
  | nil => simp [strictest]
  | cons f rest ih =>
      unfold strictest
      cases tail : strictest rest with
      | none =>
          rw [(strictest_none_iff rest).mp tail]
          simp
      | some e =>
          rw [tail, Option.some.injEq] at ih
          simp only [Option.some.injEq, List.mem_cons, exists_eq_or_imp, ← ih]
          cases f.enforcement <;> cases e <;> decide

/-- When the loop over the ledger blocks on a row. -/
theorem mirror_blocks (stage : Int) (findings : List Finding) (e : Row) :
    (mirror stage findings e).2 = true ↔
      (e.outcome = .unresolved ∧ 2 ≤ stage) ∨ (e.outcome = .violated ∧
        ((∀ f ∈ findings, f.assertionId ≠ e.assertionId) ∨
          ∃ f ∈ findings, f.assertionId = e.assertionId ∧ f.enforcement = .block)) := by
  unfold mirror
  cases e.outcome with
  | satisfied => simp
  | unresolved => by_cases enforced : 2 ≤ stage <;> simp [enforced]
  | violated =>
      dsimp only
      have empty := strictest_none_iff (findings.filter (fun f => f.assertionId = e.assertionId))
      have top := strictest_block_iff (findings.filter (fun f => f.assertionId = e.assertionId))
      cases strict : strictest (findings.filter (fun f => f.assertionId = e.assertionId)) with
      | none =>
          have none' := empty.mp strict
          rw [List.filter_eq_nil_iff] at none'
          simpa using Or.inl none'
      | some enforcement =>
          rw [strict] at empty top
          have some' : ¬ ∀ f ∈ findings, f.assertionId ≠ e.assertionId := by
            intro absent
            have impossible := empty.mpr (List.filter_eq_nil_iff.mpr (by simpa using absent))
            cases impossible
          simp only [List.mem_filter, decide_eq_true_eq, and_assoc, Option.some.injEq] at top
          simp only [decide_eq_true_eq, top, some', false_or, reduceCtorEq, false_and, true_and]

theorem Ladder.Tightens.context {lenient strict : Ladder} (tightens : lenient.Tightens strict)
    (planned : List Planned) (baseline : List BaselineEntry) {sorted sorted' : Exceptions}
    (later : sorted.Later sorted') :
    (contextOf planned baseline lenient sorted).Tightens
      (contextOf planned baseline strict sorted') where
  stage := tightens.stage
  versions := rfl
  evaluators := rfl
  core := tightens.core
  baseline := rfl
  escalated := escalatedFps_mono tightens.floors baseline
  expired := later.expired
  active := later.active
  advisoryExpired := tightens.advisoryExpired

/-- Row by row: what the mirrored findings block under the lenient context, they
block under the strict one. -/
theorem Context.Tightens.row {lenient strict : Context} (tightens : lenient.Tightens strict)
    (findings : List Finding) (e : Row)
    (blocks : (mirror lenient.stage (findings.map (fun f => (annotate lenient f).1)) e).2 = true) :
    (mirror strict.stage (findings.map (fun f => (annotate strict f).1)) e).2 = true := by
  rw [mirror_blocks] at blocks ⊢
  have stage := tightens.stage
  simp only [List.forall_mem_map, annotate_assertionId] at blocks ⊢
  rcases blocks with ⟨unresolved, enforced⟩ | ⟨violated, absent | ⟨_, member, same, blocked⟩⟩
  · exact Or.inl ⟨unresolved, by omega⟩
  · exact Or.inr ⟨violated, Or.inl absent⟩
  · obtain ⟨f, inside, rfl⟩ := List.mem_map.mp member
    rw [annotate_assertionId] at same
    rw [annotate_enforcement] at blocked
    refine Or.inr ⟨violated, Or.inr ⟨_, List.mem_map.mpr ⟨f, inside, rfl⟩, ?_, ?_⟩⟩
    · rw [annotate_assertionId, same]
    · rw [annotate_enforcement]
      exact tightens.blocks f blocked

theorem Context.Tightens.climb {lenient strict : Context} (tightens : lenient.Tightens strict)
    (ledger : List Row) (findings : List Finding)
    (blocked : (Adoption.climb lenient ledger findings).blocked = true) :
    (Adoption.climb strict ledger findings).blocked = true := by
  rw [climb_blocked, climb_findings] at blocked ⊢
  rcases blocked with ⟨f, member, blocks⟩ | ⟨e, member, blocks⟩
  · exact Or.inl ⟨f, member, tightens.blocks f blocks⟩
  · exact Or.inr ⟨e, member, tightens.row findings e blocks⟩

/-- Tightening any of the ladder's inputs blocks at least what was blocked: each
finding, and the run. -/
theorem evaluate_monotone (ledger : List Row) (findings : List Finding) (planned : List Planned)
    (baseline : List BaselineEntry) (exceptions : List ExceptionRecord) (lenient strict : Ladder)
    (tightens : lenient.Tightens strict) (out : Report)
    (ran : evaluate ledger findings planned baseline exceptions lenient = .ok out) :
    ∃ out', evaluate ledger findings planned baseline exceptions strict = .ok out' ∧
      (∀ (i : Nat) (f : Finding), out.findings[i]? = some f → f.enforcement = .block →
        ∃ f' : Finding, out'.findings[i]? = some f' ∧ f'.enforcement = .block) ∧
      (out.blocked = true → out'.blocked = true) := by
  obtain ⟨valid, now, sorted, parsed, split, rfl⟩ := evaluate_ok.mp ran
  obtain ⟨now₁, now', parsed₁, parsed', later⟩ := tightens.time
  rw [parsed, Except.ok.injEq] at parsed₁
  subst parsed₁
  have start : Exceptions.Later ⟨[], []⟩ ⟨[], []⟩ := ⟨fun _ member => member, fun _ none' => none'⟩
  obtain ⟨sorted', split', later'⟩ := start.fold later exceptions split
  have contexts := tightens.context planned baseline later'
  refine ⟨_, evaluate_ok.mpr ⟨valid, now', sorted', parsed', split', rfl⟩, ?_,
    contexts.climb ledger findings⟩
  intro i f found blocked
  rw [climb_findings, List.getElem?_map, Option.map_eq_some_iff] at found
  obtain ⟨f₀, here, rfl⟩ := found
  refine ⟨_, by rw [climb_findings, List.getElem?_map, here, Option.map_some], ?_⟩
  rw [annotate_enforcement] at blocked ⊢
  exact contexts.blocks f₀ blocked

/-- A finding about `src/a`, and the row it belongs to. -/
def debt : Finding where
  assertionId := "a1"
  findingKey := "a1|src/a|identity-mismatch"
  violationClass := some "identity-mismatch"
  outcome := .violated
  enforcement := .block
  severity := .high
  subjectLocations := ["src/a"]
  expected := []
  observed := []

def debtRow : Row := ⟨"a1", 1, .violated, none, .block⟩

def debtEntry : BaselineEntry :=
  ⟨⟨"a1", 1, "src/a", "identity-mismatch"⟩, some "medium", some "open"⟩

def ratchet : Ladder := ⟨2, "2026-01-01T00:00:00Z", none, [("a1", "low")], false⟩

def enforcedFull : Ladder := ⟨4, "2026-01-02T00:00:00+00:00", none, [("a1", "critical")], true⟩

theorem ratchet_tightens : ratchet.Tightens enforcedFull where
  stage := by decide
  time := ⟨_, _, rfl, rfl, by decide⟩
  core := fun _ member => member
  floors := by
    intro id severity rank stated ranked
    have named := Dict.mem_of_get? stated
    simp only [ratchet, List.mem_singleton, Prod.mk.injEq] at named
    obtain ⟨rfl, rfl⟩ := named
    refine ⟨"critical", 3, by decide, by decide, ?_⟩
    have low : Dict.get? severityRank "low" = some 0 := by decide
    rw [low, Option.some.injEq] at ranked
    omega
  advisoryExpired := fun impossible => by cases impossible

def regression : Finding := { debt with subjectLocations := ["src/b"] }

theorem evaluate_monotone_at_regression :
    ∃ out' : Report, evaluate [debtRow] [debt, regression] [⟨"a1", some 1, none⟩] [debtEntry] []
      enforcedFull = .ok out' ∧ out'.blocked = true := by
  have ran : ∃ out, evaluate [debtRow] [debt, regression] [⟨"a1", some 1, none⟩] [debtEntry] []
      ratchet = .ok out ∧ out.blocked = true := ⟨_, rfl, by decide⟩
  obtain ⟨out, ran, blocked⟩ := ran
  obtain ⟨out', ran', -, blocked'⟩ := evaluate_monotone _ _ _ _ _ _ _ ratchet_tightens out ran
  exact ⟨out', ran', blocked' blocked⟩

end DevGate.Adoption
