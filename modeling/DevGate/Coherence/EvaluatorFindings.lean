import DevGate.Coherence.EvaluateLedger

set_option autoImplicit false

/- What each built-in evaluator reports, and about which object. -/
namespace DevGate.Evaluators

open Py

inductive Object where
  | requirement (rid : Str)
  | subject (sel : Selector)
  | release
  deriving DecidableEq

def isTestable (data : Value) : Bool := isTruthy (data.field? "testable")

def isOrphan (data : Value) : Bool := isTestable data && !isTruthy (data.field? "assertion_ids")

/-- The object violates the assertion, and the finding says so. -/
inductive Violation (package : Package) (tree : SubjectTree) (a : Assertion)
    (facts : Dict Str Value) : Builtin → Object → Finding → Prop where
  | mismatch {approved observed : Value} {sel : Selector}
      (named : approvedValue package a = .ok approved) (declared : sel ∈ a.subjects)
      (extracted : extract package tree sel = .ok observed)
      (differs : observed.eq approved = false) :
      Violation package tree a facts .identityConsistency (.subject sel)
        (mk a "identity-mismatch" [.str approved] [.str observed] [loc sel])
  | orphan {reqs : List (Str × Value)} {rid : Str} {data : Value}
      (registry : items (requirements package) = .ok reqs) (registered : (rid, data) ∈ reqs)
      (unclaimed : isOrphan data = true) :
      Violation package tree a facts .traceabilityCompleteness (.requirement rid)
        (mk a "orphan-requirement" ["an assertion"] ["requirement ", rid, " untestable"])
  | unmarked {reqs : List (Str × Value)} {rid : Str} {data : Value} {marked : List Str}
      (registry : items (requirements package) = .ok reqs) (registered : (rid, data) ∈ reqs)
      (scan : isTruthy (Dict.get? a.parameters "marker_scan") = true)
      (markers : sourceMarkers tree = .ok marked) (testable : isTestable data = true)
      (absent : rid ∉ marked) :
      Violation package tree a facts .traceabilityCompleteness (.requirement rid)
        (mk a "unmarked-requirement"
          ["\x60// spec: ", rid, "\x60 or \x60# spec: ", rid, "\x60 in subject source"]
          ["no marker in subject tree"] [rid])
  | noManifest (missing : (Dict.get? package "release_manifest").getD .null = .null) :
      Violation package tree a facts .releaseClaimConsistency .release
        (mk a "selector-empty" ["release manifest"] ["none in package"])
  | selfReferential {manifest : Value}
      (given : (Dict.get? package "release_manifest").getD .null = manifest)
      (same : isTruthy (manifest.field? "subject_digest") = true ∧
        ((manifest.field? "subject_digest").getD .null).eq
          ((manifest.field? "payload_digest").getD .null) = true) :
      Violation package tree a facts .releaseClaimConsistency .release
        (mk a "self-referential-release" ["inner payload digest distinct from subject"]
          ["manifest claims digest of bundle containing it"])
  | captured {approved observed : Value} {sel : Selector}
      (named : approvedValue package a = .ok approved) (declared : sel ∈ a.subjects)
      (kind : sel.kind = .capturedFact)
      (replayed : capturedValue facts ((Dict.get? a.parameters "response_field").getD (.str "value"))
        sel = .ok observed)
      (differs : observed.eq approved = false) :
      Violation package tree a facts .capturedFactConsistency (.subject sel)
        (mk a "captured-fact-mismatch" [.str approved] [.str observed] [loc sel])

theorem get_field {v : Value} {key : Str} {found : Option Value} (got : v.get key = .ok found) :
    v.field? key = found := by
  obtain ⟨kvs, rfl, found⟩ := Value.get_ok.mp got
  exact found

theorem mem_identityFindings {package : Package} {tree : SubjectTree} {a : Assertion}
    {approved : Value} {sels : List Selector} {found : List Finding}
    (ran : identityFindings package tree a approved sels = .ok found) (f : Finding) :
    f ∈ found ↔ ∃ sel ∈ sels, ∃ observed, extract package tree sel = .ok observed ∧
      observed.eq approved = false ∧
      f = mk a "identity-mismatch" [.str approved] [.str observed] [loc sel] := by
  induction sels generalizing found with
  | nil =>
      cases ran
      simp
  | cons sel rest ih =>
      unfold identityFindings at ran
      obtain ⟨observed, extracted, ran⟩ := bind_ok.mp ran
      obtain ⟨-, ran⟩ := guard_ok.mp ran
      obtain ⟨later, ranLater, ran⟩ := bind_ok.mp ran
      cases ran
      rw [List.mem_append, ih ranLater]
      simp only [List.mem_cons, exists_eq_or_imp, extracted, Except.ok.injEq, exists_eq_left']
      apply or_congr_left
      cases observed.eq approved <;> simp

theorem mem_orphanFinding {a : Assertion} {rid : Str} {data : Value} {found : List Finding}
    (ran : orphanFinding a rid data = .ok found) (f : Finding) :
    f ∈ found ↔ isOrphan data = true ∧
      f = mk a "orphan-requirement" ["an assertion"] ["requirement ", rid, " untestable"] := by
  unfold orphanFinding at ran
  obtain ⟨testable, got, ran⟩ := bind_ok.mp ran
  unfold isOrphan isTestable
  rw [get_field got]
  split at ran
  · rename_i truthy
    obtain ⟨ids, gotIds, ran⟩ := bind_ok.mp ran
    cases ran
    rw [get_field gotIds, truthy]
    cases isTruthy ids <;> simp
  · rename_i falsy
    cases ran
    simp [falsy]

theorem mem_orphanFindings {a : Assertion} {reqs : List (Str × Value)} {found : List Finding}
    (ran : orphanFindings a reqs = .ok found) (f : Finding) :
    f ∈ found ↔ ∃ req ∈ reqs, isOrphan req.2 = true ∧
      f = mk a "orphan-requirement" ["an assertion"] ["requirement ", req.1, " untestable"] := by
  induction reqs generalizing found with
  | nil =>
      cases ran
      simp
  | cons req rest ih =>
      obtain ⟨rid, data⟩ := req
      unfold orphanFindings at ran
      obtain ⟨here, ranHere, ran⟩ := bind_ok.mp ran
      obtain ⟨later, ranLater, ran⟩ := bind_ok.mp ran
      cases ran
      rw [List.mem_append, ih ranLater, mem_orphanFinding ranHere]
      simp only [List.mem_cons, exists_eq_or_imp]

theorem mem_unmarkedFindings {a : Assertion} {marked : List Str} {reqs : List (Str × Value)}
    {found : List Finding} (ran : unmarkedFindings a marked reqs = .ok found) (f : Finding) :
    f ∈ found ↔ ∃ req ∈ reqs, (isTestable req.2 = true ∧ req.1 ∉ marked) ∧
      f = mk a "unmarked-requirement"
        ["\x60// spec: ", req.1, "\x60 or \x60# spec: ", req.1, "\x60 in subject source"]
        ["no marker in subject tree"] [req.1] := by
  induction reqs generalizing found with
  | nil =>
      cases ran
      simp
  | cons req rest ih =>
      obtain ⟨rid, data⟩ := req
      unfold unmarkedFindings at ran
      obtain ⟨testable, got, ran⟩ := bind_ok.mp ran
      obtain ⟨later, ranLater, ran⟩ := bind_ok.mp ran
      cases ran
      rw [List.mem_append, ih ranLater]
      simp only [List.mem_cons, exists_eq_or_imp]
      apply or_congr_left
      unfold isTestable
      rw [get_field got]
      split
      · rename_i reported
        simp only [Bool.and_eq_true, decide_eq_true_eq] at reported
        simp [reported]
      · rename_i quiet
        simp only [Bool.and_eq_true, decide_eq_true_eq] at quiet
        simp [quiet]

theorem mem_capturedFindings {facts : Dict Str Value} {field : Value} {a : Assertion}
    {approved : Value} {sels : List Selector} {found : List Finding}
    (ran : capturedFindings facts field a approved sels = .ok found) (f : Finding) :
    f ∈ found ↔ ∃ sel ∈ sels, sel.kind = .capturedFact ∧ ∃ observed,
      capturedValue facts field sel = .ok observed ∧ observed.eq approved = false ∧
      f = mk a "captured-fact-mismatch" [.str approved] [.str observed] [loc sel] := by
  induction sels generalizing found with
  | nil =>
      cases ran
      simp
  | cons sel rest ih =>
      unfold capturedFindings at ran
      simp only [List.mem_cons, exists_eq_or_imp]
      split at ran
      · rename_i other
        rw [ih ran]
        simp [other]
      · rename_i kind
        obtain ⟨observed, replayed, ran⟩ := bind_ok.mp ran
        obtain ⟨later, ranLater, ran⟩ := bind_ok.mp ran
        cases ran
        rw [List.mem_append, ih ranLater]
        simp only [not_not.mp kind, replayed, true_and, Except.ok.injEq, exists_eq_left']
        apply or_congr_left
        cases observed.eq approved <;> simp

theorem mem_traceability {package : Package} {tree : SubjectTree} {a : Assertion}
    {found : List Finding} (facts : Dict Str Value)
    (ran : traceabilityCompleteness package tree a = .ok found) (f : Finding) :
    f ∈ found ↔ ∃ o, Violation package tree a facts .traceabilityCompleteness o f := by
  unfold traceabilityCompleteness at ran
  obtain ⟨reqs, registry, ran⟩ := bind_ok.mp ran
  obtain ⟨orphans, ranOrphans, ran⟩ := bind_ok.mp ran
  split at ran
  · rename_i scan
    obtain ⟨marked, markers, ran⟩ := bind_ok.mp ran
    obtain ⟨unmarked, ranUnmarked, ran⟩ := bind_ok.mp ran
    cases ran
    rw [List.mem_append, mem_orphanFindings ranOrphans, mem_unmarkedFindings ranUnmarked]
    constructor
    · rintro (⟨req, registered, unclaimed, rfl⟩ | ⟨req, registered, ⟨testable, absent⟩, rfl⟩)
      · exact ⟨_, .orphan registry registered unclaimed⟩
      · exact ⟨_, .unmarked registry registered scan markers testable absent⟩
    · rintro ⟨o, violation⟩
      cases violation with
      | orphan registry' registered unclaimed =>
          rw [registry, Except.ok.injEq] at registry'
          subst registry'
          exact Or.inl ⟨_, registered, unclaimed, rfl⟩
      | unmarked registry' registered scan markers' testable absent =>
          rw [registry, Except.ok.injEq] at registry'
          rw [markers, Except.ok.injEq] at markers'
          subst registry' markers'
          exact Or.inr ⟨_, registered, ⟨testable, absent⟩, rfl⟩
  · rename_i noScan
    cases ran
    rw [mem_orphanFindings ranOrphans]
    constructor
    · rintro ⟨req, registered, unclaimed, rfl⟩
      exact ⟨_, .orphan registry registered unclaimed⟩
    · rintro ⟨o, violation⟩
      cases violation with
      | orphan registry' registered unclaimed =>
          rw [registry, Except.ok.injEq] at registry'
          subst registry'
          exact ⟨_, registered, unclaimed, rfl⟩
      | unmarked _ _ scan => exact absurd scan noScan

theorem mem_releaseClaim {package : Package} {a : Assertion} {found : List Finding}
    (tree : SubjectTree) (facts : Dict Str Value)
    (ran : releaseClaimConsistency package a = .ok found) (f : Finding) :
    f ∈ found ↔ ∃ o, Violation package tree a facts .releaseClaimConsistency o f := by
  unfold releaseClaimConsistency at ran
  split at ran
  · rename_i missing
    cases ran
    rw [List.mem_singleton]
    constructor
    · rintro rfl
      exact ⟨_, .noManifest missing⟩
    · rintro ⟨o, violation⟩
      cases violation with
      | noManifest => rfl
      | selfReferential given same =>
          rw [missing] at given
          subst given
          simp [Value.field?, isTruthy, Value.truthy] at same
  · rename_i present
    obtain ⟨inner, gotInner, ran⟩ := bind_ok.mp ran
    obtain ⟨outer, gotOuter, ran⟩ := bind_ok.mp ran
    cases ran
    rw [← get_field gotInner, ← get_field gotOuter]
    constructor
    · intro member
      split at member
      · rename_i same
        rw [List.mem_singleton] at member
        subst member
        rw [Bool.and_eq_true] at same
        exact ⟨_, .selfReferential rfl same⟩
      · cases member
    · rintro ⟨o, violation⟩
      cases violation with
      | noManifest missing => exact absurd missing present
      | selfReferential given' same =>
          subst given'
          rw [if_pos (by rw [Bool.and_eq_true]; exact same)]
          exact List.mem_singleton_self _

/-- An evaluator that completes reports exactly the violations. -/
theorem mem_builtins {package : Package} {tree : SubjectTree} {builtin : Builtin} {a : Assertion}
    {facts : Dict Str Value} {found : List Finding}
    (ran : builtins package tree builtin a facts = .ok found) (f : Finding) :
    f ∈ found ↔ ∃ o, Violation package tree a facts builtin o f := by
  cases builtin with
  | identityConsistency =>
      change identityConsistency package tree a = .ok found at ran
      unfold identityConsistency at ran
      obtain ⟨approved, named, ran⟩ := bind_ok.mp ran
      rw [mem_identityFindings ran]
      constructor
      · rintro ⟨sel, declared, observed, extracted, differs, rfl⟩
        exact ⟨_, .mismatch named declared extracted differs⟩
      · rintro ⟨o, violation⟩
        cases violation with
        | mismatch named' declared extracted differs =>
            rw [named, Except.ok.injEq] at named'
            subst named'
            exact ⟨_, declared, _, extracted, differs, rfl⟩
  | traceabilityCompleteness => exact mem_traceability facts ran f
  | releaseClaimConsistency => exact mem_releaseClaim tree facts ran f
  | capturedFactConsistency =>
      change capturedFactConsistency package a facts = .ok found at ran
      unfold capturedFactConsistency at ran
      obtain ⟨approved, named, ran⟩ := bind_ok.mp ran
      rw [mem_capturedFindings ran]
      constructor
      · rintro ⟨sel, declared, kind, observed, replayed, differs, rfl⟩
        exact ⟨_, .captured named declared kind replayed differs⟩
      · rintro ⟨o, violation⟩
        cases violation with
        | captured named' declared kind replayed differs =>
            rw [named, Except.ok.injEq] at named'
            subst named'
            exact ⟨_, declared, kind, _, replayed, differs, rfl⟩

theorem builtins_owns (package : Package) (tree : SubjectTree) :
    Evaluate.Owns (builtins package tree) := by
  intro builtin a facts found ran f member
  obtain ⟨o, violation⟩ := (mem_builtins ran f).mp member
  cases violation <;> rfl

end DevGate.Evaluators
