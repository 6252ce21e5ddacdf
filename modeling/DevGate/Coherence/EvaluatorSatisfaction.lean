import DevGate.Coherence.EvaluatorFindings

set_option autoImplicit false

/- What an empty list of findings says about the subjects of an assertion: which of
them were resolved, and to what. -/
namespace DevGate.Evaluators

open Py

/-- The approved value an assertion names in its package. -/
structure Approves (package : Package) (a : Assertion) (approved : Value) : Prop where
  named : dig (.dict package) ((Dict.get? a.parameters "approved_value_ref").getD .null) =
    .ok approved
  given : approved ≠ .null

/-- A selector of the package or of the tree resolves to the approved value. -/
def Extracts (package : Package) (tree : SubjectTree) (approved : Value) (sel : Selector) : Prop :=
  ∃ observed, extract package tree sel = .ok observed ∧ observed ≠ .null ∧
    observed.eq approved = true

/-- The response field an assertion compares. -/
def responseField (a : Assertion) : Value :=
  (Dict.get? a.parameters "response_field").getD (.str "value")

/-- A captured fact is bound under the selector's name and holds the approved value. -/
def Replays (facts : Dict Str Value) (field approved : Value) (sel : Selector) : Prop :=
  ∃ name response observed, sel.factId = some name ∧
    Dict.get? facts name = some (.dict response) ∧ dig (.dict response) field = .ok observed ∧
    observed ≠ .null ∧ observed.eq approved = true

theorem approvedValue_ok {package : Package} {a : Assertion} {approved : Value} :
    approvedValue package a = .ok approved ↔ Approves package a approved := by
  unfold approvedValue
  constructor
  · intro ran
    obtain ⟨found, dug, ran⟩ := bind_ok.mp ran
    obtain ⟨given, same⟩ := guard_ok.mp ran
    cases same
    exact ⟨dug, given⟩
  · intro approves
    exact bind_ok.mpr ⟨approved, approves.named, guard_ok.mpr ⟨approves.given, rfl⟩⟩

/-- The identity evaluator is silent when every subject resolves to the approved value. -/
theorem identityFindings_nil {package : Package} {tree : SubjectTree} {a : Assertion}
    {approved : Value} (sels : List Selector) :
    identityFindings package tree a approved sels = .ok [] ↔
      ∀ sel ∈ sels, Extracts package tree approved sel := by
  induction sels with
  | nil => simp [identityFindings]
  | cons sel rest ih =>
      rw [List.forall_mem_cons, ← ih, identityFindings]
      constructor
      · intro ran
        obtain ⟨observed, extracted, ran⟩ := bind_ok.mp ran
        obtain ⟨given, ran⟩ := guard_ok.mp ran
        obtain ⟨later, ranLater, ran⟩ := bind_ok.mp ran
        obtain ⟨quiet, nothing⟩ := List.append_eq_nil_iff.mp (Except.ok.inj ran)
        subst nothing
        refine ⟨⟨observed, extracted, given, ?_⟩, ranLater⟩
        by_contra differs
        rw [if_neg differs] at quiet
        cases quiet
      · rintro ⟨⟨observed, extracted, given, same⟩, ranLater⟩
        refine bind_ok.mpr ⟨observed, extracted, guard_ok.mpr ⟨given, ?_⟩⟩
        refine bind_ok.mpr ⟨[], ranLater, ?_⟩
        rw [same]
        rfl

theorem identityConsistency_nil (package : Package) (tree : SubjectTree) (a : Assertion) :
    identityConsistency package tree a = .ok [] ↔
      ∃ approved, Approves package a approved ∧
        ∀ sel ∈ a.subjects, Extracts package tree approved sel := by
  unfold identityConsistency
  rw [bind_ok]
  simp only [approvedValue_ok, identityFindings_nil]

theorem capturedValue_ok {facts : Dict Str Value} {field observed : Value} {sel : Selector} :
    capturedValue facts field sel = .ok observed ↔
      ∃ name response, sel.factId = some name ∧ Dict.get? facts name = some (.dict response) ∧
        dig (.dict response) field = .ok observed ∧ observed ≠ .null := by
  unfold capturedValue
  constructor
  · intro ran
    obtain ⟨bound, ran⟩ := guard_ok.mp ran
    obtain ⟨name, named, held⟩ : ∃ name, sel.factId = some name ∧
        Dict.get? facts name = some ((sel.factId.bind (Dict.get? facts)).getD .null) := by
      cases named : sel.factId with
      | none => simp [named] at bound
      | some name =>
          cases held : Dict.get? facts name with
          | none => simp [named, held] at bound
          | some response => exact ⟨name, rfl, by rw [Option.bind_some, held, Option.getD_some, ← held]⟩
    dsimp only at ran
    split at ran
    · rename_i object
      obtain ⟨found, dug, ran⟩ := bind_ok.mp ran
      obtain ⟨given, same⟩ := guard_ok.mp ran
      cases same
      cases response : (sel.factId.bind (Dict.get? facts)).getD .null with
      | dict response' =>
          rw [response] at held dug
          exact ⟨name, response', named, held, dug, given⟩
      | _ =>
          rw [response] at object
          cases object
    · obtain ⟨found, absent, ran⟩ := bind_ok.mp ran
      cases absent
      exact absurd rfl (guard_ok.mp ran).1
  · rintro ⟨name, response, named, held, dug, given⟩
    rw [named, Option.bind_some, held, Option.getD_some]
    refine guard_ok.mpr ⟨Value.noConfusion, ?_⟩
    exact bind_ok.mpr ⟨observed, dug, guard_ok.mpr ⟨given, rfl⟩⟩

/-- The captured-fact evaluator is silent when every captured-fact subject replays the
approved value; it passes over the subjects of the other kinds. -/
theorem capturedFindings_nil {facts : Dict Str Value} {field : Value} {a : Assertion}
    {approved : Value} (sels : List Selector) :
    capturedFindings facts field a approved sels = .ok [] ↔
      ∀ sel ∈ sels, sel.kind = .capturedFact → Replays facts field approved sel := by
  induction sels with
  | nil => simp [capturedFindings]
  | cons sel rest ih =>
      rw [List.forall_mem_cons, ← ih, capturedFindings]
      by_cases kind : sel.kind = .capturedFact
      · rw [if_neg (not_not.mpr kind)]
        constructor
        · intro ran
          obtain ⟨observed, replayed, ran⟩ := bind_ok.mp ran
          obtain ⟨later, ranLater, ran⟩ := bind_ok.mp ran
          obtain ⟨quiet, nothing⟩ := List.append_eq_nil_iff.mp (Except.ok.inj ran)
          subst nothing
          obtain ⟨name, response, named, held, dug, given⟩ := capturedValue_ok.mp replayed
          have same : observed.eq approved = true := by
            by_contra differs
            rw [if_neg differs] at quiet
            cases quiet
          exact ⟨fun _ => ⟨name, response, observed, named, held, dug, given, same⟩, ranLater⟩
        · rintro ⟨replays, ranLater⟩
          obtain ⟨name, response, observed, named, held, dug, given, same⟩ := replays kind
          refine bind_ok.mpr ⟨observed, capturedValue_ok.mpr ⟨name, response, named, held, dug, given⟩, ?_⟩
          refine bind_ok.mpr ⟨[], ranLater, ?_⟩
          rw [same]
          rfl
      · rw [if_pos kind]
        exact ⟨fun ran => ⟨fun is => absurd is kind, ran⟩, fun both => both.2⟩

theorem capturedFactConsistency_nil (package : Package) (a : Assertion) (facts : Dict Str Value) :
    capturedFactConsistency package a facts = .ok [] ↔
      ∃ approved, Approves package a approved ∧ ∀ sel ∈ a.subjects,
        sel.kind = .capturedFact → Replays facts (responseField a) approved sel := by
  unfold capturedFactConsistency
  rw [bind_ok]
  simp only [approvedValue_ok, capturedFindings_nil, responseField]

/-- Where either evaluator finds nothing, every subject was resolved, by the evaluator's
own rule, to the approved value. -/
structure NeverVacuous (package : Package) (tree : SubjectTree) (a : Assertion)
    (facts : Dict Str Value) : Prop where
  identity : identityConsistency package tree a = .ok [] →
    ∃ approved, Approves package a approved ∧
      ∀ sel ∈ a.subjects, Extracts package tree approved sel
  captured : capturedFactConsistency package a facts = .ok [] →
    ∃ approved, Approves package a approved ∧ ∀ sel ∈ a.subjects,
      sel.kind = .capturedFact ∧ Replays facts (responseField a) approved sel

/-- The captured-fact evaluator understands every subject, or has reason to object to one
that it does. -/
def Covered (package : Package) (a : Assertion) (facts : Dict Str Value) : Prop :=
  (∀ sel ∈ a.subjects, sel.kind = .capturedFact) ∨
    ∀ approved, Approves package a approved → ∃ sel ∈ a.subjects,
      sel.kind = .capturedFact ∧ ¬ Replays facts (responseField a) approved sel

/-- Silence is never vacuous exactly when no subject of another kind slips past a silent
captured-fact evaluator. -/
theorem neverVacuous_iff (package : Package) (tree : SubjectTree) (a : Assertion)
    (facts : Dict Str Value) :
    NeverVacuous package tree a facts ↔ Covered package a facts := by
  constructor
  · intro never
    by_cases silent : capturedFactConsistency package a facts = .ok []
    · obtain ⟨approved, approves, each⟩ := never.captured silent
      exact Or.inl (fun sel declared => (each sel declared).1)
    · apply Or.inr
      intro approved approves
      by_contra none_
      push Not at none_
      exact silent ((capturedFactConsistency_nil package a facts).mpr ⟨approved, approves, none_⟩)
  · intro covered
    refine ⟨(identityConsistency_nil package tree a).mp, ?_⟩
    intro silent
    obtain ⟨approved, approves, each⟩ := (capturedFactConsistency_nil package a facts).mp silent
    rcases covered with kinds | objects
    · exact ⟨approved, approves,
        fun sel declared => ⟨kinds sel declared, each sel declared (kinds sel declared)⟩⟩
    · obtain ⟨sel, declared, kind, fails⟩ := objects approved approves
      exact absurd (each sel declared kind) fails

/-- An assertion about a file, held by the evaluator of captured facts. -/
def fileAssertion : Assertion where
  id := "a1"
  version := 1
  requirementRefs := ["r1"]
  subjects := [⟨.file, some "README.md", none, some "structured-metadata", none⟩]
  evaluator := ⟨Builtin.capturedFactConsistency.id, "sha256:0"⟩
  parameters := [("approved_value_ref", .str "name")]
  severity := .high
  dependencies := []
  retentionDays := 30

/-- A package that names its product, an empty tree and no fact at all satisfy it. -/
theorem file_subject_satisfied :
    ¬ ∀ (package : Package) (tree : SubjectTree) (a : Assertion) (facts : Dict Str Value),
      NeverVacuous package tree a facts := by
  intro never
  let package : Package := [("name", .str "Acme")]
  let tree : SubjectTree := ⟨"/repo", true, fun _ => .ok none, []⟩
  have silent : capturedFactConsistency package fileAssertion [] = .ok [] := by rfl
  obtain ⟨approved, approves, each⟩ := (never package tree fileAssertion []).captured silent
  have kind := (each _ List.mem_cons_self).1
  exact absurd kind (by decide)

end DevGate.Evaluators
