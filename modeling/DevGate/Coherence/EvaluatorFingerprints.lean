import DevGate.Coherence.AdoptionFingerprint

set_option autoImplicit false

/- When different violated objects get different adoption fingerprints. -/
namespace DevGate.Adoption

open Py Evaluate Evaluators

/-- With a pipe-free id and class the string gives back id, location and class. -/
theorem fingerprint_pipe_free {fp fp' : Fingerprint} (id : pipe ∉ fp.assertionId)
    (id' : pipe ∉ fp'.assertionId) (key : pipe ∉ fp.violationKey) (key' : pipe ∉ fp'.violationKey)
    (same : fingerprint fp = fingerprint fp') :
    fp.assertionId = fp'.assertionId ∧ fp.subjectLocation = fp'.subjectLocation ∧
      fp.violationKey = fp'.violationKey := by
  have segments := congrArg (Str.split pipe) same
  rw [split_fingerprint, split_fingerprint, Str.split_of_not_mem _ _ id,
    Str.split_of_not_mem _ _ id', Str.split_of_not_mem _ _ key,
    Str.split_of_not_mem _ _ key'] at segments
  obtain ⟨ids, rest⟩ := List.cons.inj segments
  obtain ⟨-, rest⟩ := List.cons.inj rest
  obtain ⟨locations, keys⟩ := List.append_inj' rest rfl
  exact ⟨ids, Str.split_injective pipe locations, (List.cons.inj keys).1⟩

/-- The location the fingerprint of a finding is built from. -/
def location (f : Finding) : Str := f.subjectLocations.headD "?"

theorem violation_assertionId {package : Package} {tree : SubjectTree} {a : Assertion}
    {facts : Dict Str Value} {builtin : Builtin} {o : Object} {f : Finding}
    (violation : Violation package tree a facts builtin o f) : f.assertionId = a.id := by
  cases violation <;> rfl

/-- The violation classes of the built-in evaluators. -/
def classes : List Str :=
  ["identity-mismatch", "orphan-requirement", "unmarked-requirement", "selector-empty",
    "self-referential-release", "captured-fact-mismatch"]

theorem classes_pipe_free : ∀ c ∈ classes, pipe ∉ c := by decide

theorem violation_class {package : Package} {tree : SubjectTree} {a : Assertion}
    {facts : Dict Str Value} {builtin : Builtin} {o : Object} {f : Finding}
    (violation : Violation package tree a facts builtin o f) :
    ∃ c ∈ classes, f.violationClass = some c ∧ vclass f = c := by
  cases violation with
  | mismatch => exact ⟨"identity-mismatch", by decide, rfl, rfl⟩
  | orphan => exact ⟨"orphan-requirement", by decide, rfl, rfl⟩
  | unmarked => exact ⟨"unmarked-requirement", by decide, rfl, rfl⟩
  | noManifest => exact ⟨"selector-empty", by decide, rfl, rfl⟩
  | selfReferential => exact ⟨"self-referential-release", by decide, rfl, rfl⟩
  | captured => exact ⟨"captured-fact-mismatch", by decide, rfl, rfl⟩

theorem violation_pipe_free {package : Package} {tree : SubjectTree} {a : Assertion}
    {facts : Dict Str Value} {builtin : Builtin} {o : Object} {f : Finding}
    (violation : Violation package tree a facts builtin o f) : pipe ∉ vclass f := by
  obtain ⟨c, known, -, same⟩ := violation_class violation
  rw [same]
  exact classes_pipe_free c known

/-- `a` reports `f` about `o`: its evaluator, given the facts it declared,
completes, and `f` is one of the findings. -/
def Reports (package : Package) (tree : SubjectTree) (captured : Dict Str Value) (a : Assertion)
    (o : Object) (f : Finding) : Prop :=
  ∃ builtin facts found, Builtin.ofId? a.evaluator.id = some builtin ∧
    bindFacts captured (declaredFacts a) [] = .ok facts ∧
    builtins package tree builtin a facts = .ok found ∧ f ∈ found ∧
    Violation package tree a facts builtin o f

theorem idPattern_pipe_free {a : Assertion} (wellFormed : Schemacheck.WellFormed a) :
    pipe ∉ a.id := by
  have within : Re.Within (fun c => c != pipe) Schemacheck.idPattern.re := by
    refine ⟨?_, ?_⟩ <;> intro c listed <;> rw [bne_iff_ne] <;> rintro rfl
    · exact absurd listed (by decide)
    · exact absurd listed (by decide)
  intro member
  have other := Re.fullmatch_within within wellFormed.id pipe member
  simp at other

/-- Two reported findings share a fingerprint string exactly when assertion,
location and class agree. -/
theorem fingerprint_eq_iff {package : Package} {tree : SubjectTree} {captured : Dict Str Value}
    {a₁ a₂ : Assertion} {o₁ o₂ : Object} {f₁ f₂ : Finding}
    (wellFormed₁ : Schemacheck.WellFormed a₁) (wellFormed₂ : Schemacheck.WellFormed a₂)
    (reports₁ : Reports package tree captured a₁ o₁ f₁)
    (reports₂ : Reports package tree captured a₂ o₂ f₂) (numbers : Dict Str Int) :
    fingerprint (components numbers f₁) = fingerprint (components numbers f₂) ↔
      a₁.id = a₂.id ∧ location f₁ = location f₂ ∧ vclass f₁ = vclass f₂ := by
  obtain ⟨_, _, _, _, _, _, _, violation₁⟩ := reports₁
  obtain ⟨_, _, _, _, _, _, _, violation₂⟩ := reports₂
  have id₁ := violation_assertionId violation₁
  have id₂ := violation_assertionId violation₂
  constructor
  · intro same
    have apart := fingerprint_pipe_free
      (by rw [components, id₁]; exact idPattern_pipe_free wellFormed₁)
      (by rw [components, id₂]; exact idPattern_pipe_free wellFormed₂)
      (violation_pipe_free violation₁) (violation_pipe_free violation₂) same
    rw [← id₁, ← id₂]
    exact apart
  · rintro ⟨ids, locations, classes⟩
    have same : components numbers f₁ = components numbers f₂ := by
      unfold components
      rw [id₁, id₂, ids, classes]
      unfold location at locations
      rw [locations]
    rw [same]

/-- The ladder tells two findings apart: different fingerprints, and debt recorded
for the first never shelters the second. -/
structure KeptApart (planned : List Planned) (f₁ f₂ : Finding) : Prop where
  fingerprints : ∀ ledger findings baseline exceptions ladder out,
    evaluate ledger findings planned baseline exceptions ladder = .ok out →
    ∀ (i j : Nat) (g₁ g₂ : Finding), findings[i]? = some f₁ → findings[j]? = some f₂ →
      out.findings[i]? = some g₁ → out.findings[j]? = some g₂ → g₁.fingerprint ≠ g₂.fingerprint
  shelter : ∀ ledger findings (baseline : List BaselineEntry) ladder out,
    (∀ b ∈ baseline, b.fingerprint = components (versions planned) f₁) → 2 ≤ ladder.stage →
    evaluate ledger findings planned baseline [] ladder = .ok out →
    ∀ (j : Nat) (g₂ : Finding), findings[j]? = some f₂ → out.findings[j]? = some g₂ →
      g₂.enforcement = .block

theorem annotate_fingerprint (ctx : Context) (f : Finding) :
    (annotate ctx f).1.fingerprint = some (fingerprint (components ctx.versions f)) := by
  unfold annotate
  dsimp only
  split
  · rfl
  · split
    · rfl
    · split
      · rfl
      · split
        · rfl
        · split <;> rfl

theorem evaluate_getElem? {ledger : List Row} {findings : List Finding} {planned : List Planned}
    {baseline : List BaselineEntry} {exceptions : List ExceptionRecord} {ladder : Ladder}
    {out : Report} (ran : evaluate ledger findings planned baseline exceptions ladder = .ok out) :
    ∃ now sorted, exceptions.foldlM (sortException now) ⟨[], []⟩ = .ok sorted ∧
      ∀ (i : Nat) (f g : Finding), findings[i]? = some f → out.findings[i]? = some g →
        g = (annotate (contextOf planned baseline ladder sorted) f).1 := by
  obtain ⟨-, now, sorted, -, split, rfl⟩ := evaluate_ok.mp ran
  refine ⟨now, sorted, split, ?_⟩
  intro i f g found reported
  rw [climb_findings, List.getElem?_map, found, Option.map_some, Option.some.injEq] at reported
  exact reported.symm

theorem keptApart_iff (planned : List Planned) (f₁ f₂ : Finding) :
    KeptApart planned f₁ f₂ ↔ fingerprint (components (versions planned) f₁) ≠
      fingerprint (components (versions planned) f₂) := by
  constructor
  · intro apart same
    obtain ⟨now, parsed⟩ : ∃ now, parse floorless.evaluationTime = .ok now := ⟨_, rfl⟩
    have ran : evaluate [] [f₁, f₂] planned [] [] floorless =
        .ok (climb (contextOf planned [] floorless ⟨[], []⟩) [] [f₁, f₂]) :=
      evaluate_ok.mpr ⟨rfl, now, ⟨[], []⟩, parsed, rfl, rfl⟩
    refine apart.fingerprints [] [f₁, f₂] [] [] floorless _ ran 0 1
      (annotate (contextOf planned [] floorless ⟨[], []⟩) f₁).1
      (annotate (contextOf planned [] floorless ⟨[], []⟩) f₂).1 rfl rfl ?_ ?_ ?_
    · rw [climb_findings]
      rfl
    · rw [climb_findings]
      rfl
    · rw [annotate_fingerprint, annotate_fingerprint]
      exact congrArg some same
  · intro apart
    refine ⟨?_, ?_⟩
    · intro ledger findings baseline exceptions ladder out ran i j g₁ g₂ at₁ at₂ out₁ out₂
      obtain ⟨now, sorted, -, shown⟩ := evaluate_getElem? ran
      rw [shown i f₁ g₁ at₁ out₁, shown j f₂ g₂ at₂ out₂, annotate_fingerprint,
        annotate_fingerprint, ne_eq, Option.some.injEq]
      exact apart
    · intro ledger findings baseline ladder out recorded enforced ran j g₂ at₂ out₂
      obtain ⟨now, sorted, split, shown⟩ := evaluate_getElem? ran
      cases split
      rw [shown j f₂ g₂ at₂ out₂, annotate_enforcement]
      refine ⟨enforced, Or.inr ⟨rfl, ?_⟩⟩
      rintro ⟨listed, -⟩
      obtain ⟨b, kept, same⟩ := List.mem_map.mp listed
      rw [recorded b (List.mem_filter.mp kept).1] at same
      exact apart same

/-- Different violated objects are told apart. -/
def FingerprintsSeparate (package : Package) (tree : SubjectTree) (captured : Dict Str Value)
    (planned : List Assertion) : Prop :=
  ∀ a₁ ∈ planned, ∀ a₂ ∈ planned, ∀ o₁ f₁ o₂ f₂, Reports package tree captured a₁ o₁ f₁ →
    Reports package tree captured a₂ o₂ f₂ →
    (a₁.id, o₁, f₁.violationClass) ≠ (a₂.id, o₂, f₂.violationClass) →
    KeptApart (planned.map Planned.ofAssertion) f₁ f₂

/-- One assertion's objects of one class are reported at different locations. -/
def ObjectsSeparate (package : Package) (tree : SubjectTree) (captured : Dict Str Value)
    (a : Assertion) : Prop :=
  ∀ o₁ f₁ o₂ f₂, Reports package tree captured a o₁ f₁ → Reports package tree captured a o₂ f₂ →
    location f₁ = location f₂ → vclass f₁ = vclass f₂ → o₁ = o₂

theorem reports_violationClass {package : Package} {tree : SubjectTree}
    {captured : Dict Str Value} {a : Assertion} {o : Object} {f : Finding}
    (reports : Reports package tree captured a o f) : f.violationClass = some (vclass f) := by
  obtain ⟨_, _, _, _, _, _, _, violation⟩ := reports
  obtain ⟨c, -, stated, same⟩ := violation_class violation
  rw [stated, same]

theorem fingerprintsSeparate_iff_objects (package : Package) (tree : SubjectTree)
    (captured : Dict Str Value) (planned : List Assertion)
    (wellFormed : ∀ a ∈ planned, Schemacheck.WellFormed a)
    (distinct : (planned.map Assertion.id).Nodup) :
    FingerprintsSeparate package tree captured planned ↔
      ∀ a ∈ planned, ObjectsSeparate package tree captured a := by
  constructor
  · intro separate a member o₁ f₁ o₂ f₂ reports₁ reports₂ locations sameClass
    by_contra different
    have keys : (a.id, o₁, f₁.violationClass) ≠ (a.id, o₂, f₂.violationClass) := by
      intro same
      simp only [Prod.mk.injEq] at same
      exact different same.2.1
    have apart := separate a member a member o₁ f₁ o₂ f₂ reports₁ reports₂ keys
    rw [keptApart_iff] at apart
    exact apart ((fingerprint_eq_iff (wellFormed a member) (wellFormed a member) reports₁ reports₂
      _).mpr ⟨rfl, locations, sameClass⟩)
  · intro objects a₁ member₁ a₂ member₂ o₁ f₁ o₂ f₂ reports₁ reports₂ keys
    rw [keptApart_iff]
    intro same
    obtain ⟨ids, locations, sameClass⟩ := (fingerprint_eq_iff (wellFormed a₁ member₁)
      (wellFormed a₂ member₂) reports₁ reports₂ _).mp same
    have one : a₁ = a₂ := List.inj_on_of_nodup_map distinct member₁ member₂ ids
    subst one
    have object := objects a₁ member₁ o₁ f₁ o₂ f₂ reports₁ reports₂ locations sameClass
    apply keys
    rw [object, reports_violationClass reports₁, reports_violationClass reports₂, sameClass]

theorem identityFindings_completes {package : Package} {tree : SubjectTree} {a : Assertion}
    {approved : Value} (sels : List Selector) :
    (∃ found, identityFindings package tree a approved sels = .ok found) ↔
      ∀ sel ∈ sels, ∃ v, extract package tree sel = .ok v ∧ v ≠ .null := by
  induction sels with
  | nil => exact ⟨by simp, fun _ => ⟨[], rfl⟩⟩
  | cons sel rest ih =>
      rw [List.forall_mem_cons, ← ih]
      constructor
      · rintro ⟨found, ran⟩
        unfold identityFindings at ran
        obtain ⟨v, extracted, ran⟩ := bind_ok.mp ran
        obtain ⟨present, ran⟩ := guard_ok.mp ran
        obtain ⟨later, ranLater, -⟩ := bind_ok.mp ran
        exact ⟨⟨v, extracted, present⟩, later, ranLater⟩
      · rintro ⟨⟨v, extracted, present⟩, later, ranLater⟩
        unfold identityFindings
        rw [extracted, ok_bind, if_neg present, ranLater]
        exact ⟨_, rfl⟩

theorem capturedFindings_completes {facts : Dict Str Value} {field : Value} {a : Assertion}
    {approved : Value} (sels : List Selector) :
    (∃ found, capturedFindings facts field a approved sels = .ok found) ↔
      ∀ sel ∈ sels, sel.kind = .capturedFact → ∃ v, capturedValue facts field sel = .ok v := by
  induction sels with
  | nil => exact ⟨by simp, fun _ => ⟨[], rfl⟩⟩
  | cons sel rest ih =>
      rw [List.forall_mem_cons, ← ih, capturedFindings]
      by_cases kind : sel.kind = .capturedFact
      · rw [if_neg (not_not.mpr kind)]
        constructor
        · rintro ⟨found, ran⟩
          obtain ⟨v, replayed, ran⟩ := bind_ok.mp ran
          obtain ⟨later, ranLater, -⟩ := bind_ok.mp ran
          exact ⟨fun _ => ⟨v, replayed⟩, later, ranLater⟩
        · rintro ⟨here, later, ranLater⟩
          obtain ⟨v, replayed⟩ := here kind
          rw [replayed, ok_bind, ranLater]
          exact ⟨_, rfl⟩
      · rw [if_pos kind]
        exact ⟨fun ran => ⟨fun same => absurd same kind, ran⟩, fun ran => ran.2⟩

theorem orphanFindings_completes (a : Assertion) (reqs : List (Str × Value)) :
    (∃ found, orphanFindings a reqs = .ok found) ↔ ∀ req ∈ reqs, ∃ kvs, req.2 = .dict kvs := by
  induction reqs with
  | nil => exact ⟨by simp, fun _ => ⟨[], rfl⟩⟩
  | cons req rest ih =>
      obtain ⟨rid, data⟩ := req
      rw [List.forall_mem_cons, ← ih, orphanFindings]
      constructor
      · rintro ⟨found, ran⟩
        obtain ⟨here, ranHere, ran⟩ := bind_ok.mp ran
        obtain ⟨later, ranLater, -⟩ := bind_ok.mp ran
        unfold orphanFinding at ranHere
        obtain ⟨testable, got, -⟩ := bind_ok.mp ranHere
        obtain ⟨kvs, same, -⟩ := Value.get_ok.mp got
        exact ⟨⟨kvs, same⟩, later, ranLater⟩
      · rintro ⟨⟨kvs, same⟩, later, ranLater⟩
        have here : ∃ found, orphanFinding a rid data = .ok found := by
          rw [show data = .dict kvs from same]
          unfold orphanFinding
          rw [Value.get_dict, ok_bind]
          split <;> exact ⟨_, rfl⟩
        obtain ⟨found, ranHere⟩ := here
        rw [ranHere, ok_bind, ranLater]
        exact ⟨_, rfl⟩

theorem unmarkedFindings_completes {a : Assertion} {marked : List Str} {reqs : List (Str × Value)}
    (dicts : ∀ req ∈ reqs, ∃ kvs, req.2 = .dict kvs) :
    ∃ found, unmarkedFindings a marked reqs = .ok found := by
  induction reqs with
  | nil => exact ⟨[], rfl⟩
  | cons req rest ih =>
      obtain ⟨rid, data⟩ := req
      rw [List.forall_mem_cons] at dicts
      obtain ⟨⟨kvs, same⟩, dicts⟩ := dicts
      obtain ⟨later, ranLater⟩ := ih dicts
      unfold unmarkedFindings
      rw [show data = .dict kvs from same, Value.get_dict, ok_bind, ranLater]
      exact ⟨_, rfl⟩

/-- Subjects of an identity assertion whose value is not the approved one are
reported under different locations, where every subject resolves. -/
def IdentitySeparable (package : Package) (tree : SubjectTree) (a : Assertion) : Prop :=
  ∀ approved, approvedValue package a = .ok approved →
    (∀ sel ∈ a.subjects, ∃ v, extract package tree sel = .ok v ∧ v ≠ .null) →
    ∀ s ∈ a.subjects, ∀ t ∈ a.subjects, ∀ v w, extract package tree s = .ok v →
      v.eq approved = false → extract package tree t = .ok w → w.eq approved = false →
      loc s = loc t → s = t

/-- The same of the captured-fact subjects, where every declared fact has the field. -/
def CapturedSeparable (package : Package) (a : Assertion) (facts : Dict Str Value) : Prop :=
  ∀ approved, approvedValue package a = .ok approved →
    let replay := capturedValue facts ((Dict.get? a.parameters "response_field").getD (.str "value"))
    (∀ sel ∈ a.subjects, sel.kind = .capturedFact → ∃ v, replay sel = .ok v) →
    ∀ s ∈ a.subjects, ∀ t ∈ a.subjects, s.kind = .capturedFact → t.kind = .capturedFact →
      ∀ v w, replay s = .ok v → v.eq approved = false → replay t = .ok w →
        w.eq approved = false → loc s = loc t → s = t

/-- The registry has at most one orphan, where it and the marker scan can be read. -/
def OrphansSeparable (package : Package) (tree : SubjectTree) (a : Assertion) : Prop :=
  ∀ reqs, items (requirements package) = .ok reqs → (∀ req ∈ reqs, ∃ kvs, req.2 = .dict kvs) →
    (isTruthy (Dict.get? a.parameters "marker_scan") = true →
      ∃ marked, sourceMarkers tree = .ok marked) →
    ∀ r ∈ reqs, ∀ r' ∈ reqs, isOrphan r.2 = true → isOrphan r'.2 = true → r.1 = r'.1

def Separable (package : Package) (tree : SubjectTree) (captured : Dict Str Value)
    (a : Assertion) : Prop :=
  ∀ builtin facts, Builtin.ofId? a.evaluator.id = some builtin →
    bindFacts captured (declaredFacts a) [] = .ok facts →
    match builtin with
    | .identityConsistency => IdentitySeparable package tree a
    | .traceabilityCompleteness => OrphansSeparable package tree a
    | .releaseClaimConsistency => True
    | .capturedFactConsistency => CapturedSeparable package a facts

theorem identity_completes {package : Package} {tree : SubjectTree} {a : Assertion} :
    (∃ found, identityConsistency package tree a = .ok found) ↔
      ∃ approved, approvedValue package a = .ok approved ∧
        ∀ sel ∈ a.subjects, ∃ v, extract package tree sel = .ok v ∧ v ≠ .null := by
  unfold identityConsistency
  constructor
  · rintro ⟨found, ran⟩
    obtain ⟨approved, named, ran⟩ := bind_ok.mp ran
    exact ⟨approved, named, (identityFindings_completes a.subjects).mp ⟨found, ran⟩⟩
  · rintro ⟨approved, named, resolves⟩
    rw [named, ok_bind]
    exact (identityFindings_completes a.subjects).mpr resolves

theorem captured_completes {package : Package} {a : Assertion} {facts : Dict Str Value} :
    (∃ found, capturedFactConsistency package a facts = .ok found) ↔
      ∃ approved, approvedValue package a = .ok approved ∧
        ∀ sel ∈ a.subjects, sel.kind = .capturedFact → ∃ v, capturedValue facts
          ((Dict.get? a.parameters "response_field").getD (.str "value")) sel = .ok v := by
  unfold capturedFactConsistency
  constructor
  · rintro ⟨found, ran⟩
    obtain ⟨approved, named, ran⟩ := bind_ok.mp ran
    exact ⟨approved, named, (capturedFindings_completes a.subjects).mp ⟨found, ran⟩⟩
  · rintro ⟨approved, named, replays⟩
    rw [named, ok_bind]
    exact (capturedFindings_completes a.subjects).mpr replays

theorem traceability_completes {package : Package} {tree : SubjectTree} {a : Assertion} :
    (∃ found, traceabilityCompleteness package tree a = .ok found) ↔
      ∃ reqs, items (requirements package) = .ok reqs ∧
        (∀ req ∈ reqs, ∃ kvs, req.2 = .dict kvs) ∧
        (isTruthy (Dict.get? a.parameters "marker_scan") = true →
          ∃ marked, sourceMarkers tree = .ok marked) := by
  unfold traceabilityCompleteness
  constructor
  · rintro ⟨found, ran⟩
    obtain ⟨reqs, registry, ran⟩ := bind_ok.mp ran
    obtain ⟨orphans, ranOrphans, ran⟩ := bind_ok.mp ran
    refine ⟨reqs, registry, (orphanFindings_completes a reqs).mp ⟨orphans, ranOrphans⟩, ?_⟩
    intro scan
    rw [if_pos scan] at ran
    obtain ⟨marked, markers, -⟩ := bind_ok.mp ran
    exact ⟨marked, markers⟩
  · rintro ⟨reqs, registry, dicts, scans⟩
    obtain ⟨orphans, ranOrphans⟩ := (orphanFindings_completes a reqs).mpr dicts
    rw [registry, ok_bind, ranOrphans, ok_bind]
    split
    · rename_i scan
      obtain ⟨marked, markers⟩ := scans scan
      have unmarked : ∃ found, unmarkedFindings a marked reqs = .ok found :=
        unmarkedFindings_completes dicts
      obtain ⟨found, ran⟩ := unmarked
      rw [markers, ok_bind, ran]
      exact ⟨_, rfl⟩
    · exact ⟨_, rfl⟩

theorem reports_iff {package : Package} {tree : SubjectTree} {captured : Dict Str Value}
    {a : Assertion} {o : Object} {f : Finding} :
    Reports package tree captured a o f ↔
      ∃ builtin facts, Builtin.ofId? a.evaluator.id = some builtin ∧
        bindFacts captured (declaredFacts a) [] = .ok facts ∧
        (∃ found, builtins package tree builtin a facts = .ok found) ∧
        Violation package tree a facts builtin o f := by
  constructor
  · rintro ⟨builtin, facts, found, known, bound, ran, -, violation⟩
    exact ⟨builtin, facts, known, bound, ⟨found, ran⟩, violation⟩
  · rintro ⟨builtin, facts, known, bound, ⟨found, ran⟩, violation⟩
    exact ⟨builtin, facts, found, known, bound, ran, (mem_builtins ran f).mpr ⟨o, violation⟩,
      violation⟩

theorem ObjectsSeparate.separable {package : Package} {tree : SubjectTree}
    {captured : Dict Str Value} {a : Assertion}
    (separate : ObjectsSeparate package tree captured a) :
    Separable package tree captured a := by
  intro builtin facts known bound
  have apart : ∀ o f o' f', (∃ found, builtins package tree builtin a facts = .ok found) →
      Violation package tree a facts builtin o f → Violation package tree a facts builtin o' f' →
      location f = location f' → vclass f = vclass f' → o = o' := by
    intro o f o' f' completes violation violation'
    exact separate o f o' f' (reports_iff.mpr ⟨builtin, facts, known, bound, completes, violation⟩)
      (reports_iff.mpr ⟨builtin, facts, known, bound, completes, violation'⟩)
  cases builtin with
  | identityConsistency =>
      intro approved named resolves s declared t declared' v w extracted differs extracted'
        differs' locations
      have object := apart _ _ _ _ (identity_completes.mpr ⟨approved, named, resolves⟩)
        (.mismatch named declared extracted differs)
        (.mismatch named declared' extracted' differs') locations rfl
      exact Object.subject.inj object
  | traceabilityCompleteness =>
      intro reqs registry dicts scans r registered r' registered' unclaimed unclaimed'
      have object := apart _ _ _ _ (traceability_completes.mpr ⟨reqs, registry, dicts, scans⟩)
        (.orphan registry registered unclaimed) (.orphan registry registered' unclaimed') rfl rfl
      exact Object.requirement.inj object
  | releaseClaimConsistency => exact trivial
  | capturedFactConsistency =>
      intro approved named replay replays s declared t declared' kind kind' v w replayed differs
        replayed' differs' locations
      have object := apart _ _ _ _ (captured_completes.mpr ⟨approved, named, replays⟩)
        (.captured named declared kind replayed differs)
        (.captured named declared' kind' replayed' differs') locations rfl
      exact Object.subject.inj object

theorem Separable.objectsSeparate {package : Package} {tree : SubjectTree}
    {captured : Dict Str Value} {a : Assertion} (separable : Separable package tree captured a) :
    ObjectsSeparate package tree captured a := by
  intro o₁ f₁ o₂ f₂ reports₁ reports₂ locations sameClass
  obtain ⟨builtin, facts, known, bound, completes, violation₁⟩ := reports_iff.mp reports₁
  obtain ⟨builtin', facts', known', bound', -, violation₂⟩ := reports_iff.mp reports₂
  rw [known, Option.some.injEq] at known'
  rw [bound, Except.ok.injEq] at bound'
  subst known' bound'
  have apart := separable builtin facts known bound
  cases violation₁ with
  | mismatch named declared extracted differs =>
      obtain ⟨approved, named', resolves⟩ := identity_completes.mp completes
      cases violation₂ with
      | mismatch named₂ declared₂ extracted₂ differs₂ =>
          rw [named', Except.ok.injEq] at named named₂
          subst named named₂
          exact congrArg Object.subject (apart approved named' resolves _ declared _ declared₂ _ _
            extracted differs extracted₂ differs₂ locations)
  | orphan registry registered unclaimed =>
      obtain ⟨reqs, registry', dicts, scans⟩ := traceability_completes.mp completes
      cases violation₂ with
      | orphan registry₂ registered₂ unclaimed₂ =>
          rw [registry', Except.ok.injEq] at registry registry₂
          subst registry registry₂
          exact congrArg Object.requirement
            (apart reqs registry' dicts scans _ registered _ registered₂ unclaimed unclaimed₂)
      | unmarked =>
          have confused : ("orphan-requirement" : Str) = "unmarked-requirement" := sameClass
          exact absurd confused (by decide)
  | unmarked =>
      cases violation₂ with
      | orphan =>
          have confused : ("unmarked-requirement" : Str) = "orphan-requirement" := sameClass
          exact absurd confused (by decide)
      | unmarked => exact congrArg Object.requirement locations
  | noManifest =>
      cases violation₂ <;> rfl
  | selfReferential =>
      cases violation₂ <;> rfl
  | captured named declared kind replayed differs =>
      obtain ⟨approved, named', replays⟩ := captured_completes.mp completes
      cases violation₂ with
      | captured named₂ declared₂ kind₂ replayed₂ differs₂ =>
          rw [named', Except.ok.injEq] at named named₂
          subst named named₂
          exact congrArg Object.subject (apart approved named' replays _ declared _ declared₂ kind
            kind₂ _ _ replayed differs replayed₂ differs₂ locations)

def testableRequirement : Value := .dict [("testable", .bool true)]

def registryOf (rids : List Str) : Package :=
  [("normative_requirements", .dict (rids.map (fun rid => (rid, testableRequirement))))]

def traced : Assertion where
  id := "traced"
  version := 1
  requirementRefs := ["r1"]
  subjects := [⟨.directory, some "src", none, none, none⟩]
  evaluator := ⟨"devgate.builtin.traceability-completeness", "sha256:0"⟩
  parameters := []
  severity := .high
  dependencies := []
  retentionDays := 0

theorem traced_wellFormed : ∀ a ∈ [traced], Schemacheck.WellFormed a := by
  intro a member
  rw [List.mem_singleton.mp member]
  exact ⟨by decide, by decide⟩

end DevGate.Adoption
