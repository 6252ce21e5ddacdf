import DevGate.Coherence.RunSound

set_option autoImplicit false

/- The baseline and exception sets of a run, and the digests that its context binds. -/
namespace DevGate

open Py

namespace Policy

/-- A set that is loaded is the content of its file, or is empty where there is none. -/
theorem loadSet_ok {disk : Disk} {rootP : Path} {file label : Str} {entries : List Value} :
    loadSet disk rootP file label = .ok entries ↔
      (disk.exists_ (rootP.join file) = false ∧ entries = []) ∨
        (disk.exists_ (rootP.join file) = true ∧
          loadJsonSet disk (label ++ " set") (rootP.join file) = .ok entries ∧
          checkEntries (Issue.setSchema label) label entries = []) := by
  unfold loadSet
  dsimp only
  cases there : disk.exists_ (rootP.join file) with
  | false =>
      rw [if_neg Bool.false_ne_true]
      simp only [pure, Except.pure, Except.ok.injEq, true_and, Bool.false_eq_true, false_and, or_false]
      exact eq_comm
  | true =>
      rw [if_pos rfl]
      simp only [Bool.true_eq_false, false_and, true_and, false_or]
      constructor
      · intro ran
        obtain ⟨found, read, ran⟩ := bind_ok.mp ran
        obtain ⟨_, checked, ran⟩ := bind_ok.mp ran
        cases ran
        exact ⟨read, ensure_ok.mp checked⟩
      · rintro ⟨read, checked⟩
        exact bind_ok.mpr ⟨entries, read, bind_ok.mpr ⟨(), ensure_ok.mpr checked, rfl⟩⟩

theorem checkEntries_nil (schema : Schemacheck.Schema) (label : Str) :
    checkEntries schema label [] = [] := rfl

theorem loadJsonSet_ok {disk : Disk} {label : Str} {path : Path} {entries : List Value} :
    loadJsonSet disk label path = .ok entries ↔
      (do Json.loadText (← disk.read path)) = .ok (.list entries) := by
  unfold loadJsonSet readJson
  cases read : (do Json.loadText (← disk.read path) : Except Exc Value) with
  | ok v =>
      rw [show ((Except.ok v : Except Exc Value) >>= _) = _ from rfl]
      cases v <;> simp
  | error e =>
      dsimp only
      split <;> simp [bind, Except.bind]

end Policy

namespace Context

theorem accepts_digestOrNull {v : Value} (accepted : Schemacheck.Accepts Schemacheck.digestOrNull v) :
    v = .null ∨ ∃ digest, v = .str digest ∧ digest ≠ [] := by
  cases v with
  | null => exact Or.inl rfl
  | str digest =>
      refine Or.inr ⟨digest, rfl, ?_⟩
      rintro rfl
      exact absurd (accepted.pattern rfl) (by decide)
  | _ =>
      obtain ⟨path, -, typed, -⟩ := accepted.checked
      simp [Schemacheck.typeErrors, Schemacheck.digestOrNull, Schemacheck.TypeSpec.names,
        Schemacheck.isType, Value.isStr, Schemacheck.violation] at typed

/-- The context binds the set under the digest. -/
def Bound (ctx : Dict Str Value) (label digest : Str) : Prop :=
  Dict.get? ctx (label ++ "_set_digest") = some (.str digest)

/-- The schema states what a context binds a set with. -/
def IsSet (label : Str) : Prop :=
  Dict.get? Schemacheck.evaluationContext.properties (label ++ "_set_digest") =
    some Schemacheck.digestOrNull

/-- A loaded context binds a set with a digest, or not at all. -/
theorem bound_cases {env : Issue.Env} {disk : Disk} {root label : Str} {ctx : Dict Str Value}
    (loaded : load env disk root = .ok ctx) (set_ : IsSet label) :
    (∃ digest, Bound ctx label digest ∧ digest ≠ []) ∨
      (((Dict.get? ctx (label ++ "_set_digest")).getD .null).truthy = false ∧
        ∀ digest, ¬ Bound ctx label digest) := by
  obtain ⟨kvs, digest, accepted, -, rfl⟩ := Run.load_ok loaded
  have apart : "context_digest" ≠ label ++ "_set_digest" := by
    intro same
    unfold IsSet at set_
    rw [← same] at set_
    cases set_
  unfold Bound
  rw [Dict.get?_set_of_ne _ _ _ _ apart]
  cases found : Dict.get? kvs (label ++ "_set_digest") with
  | none => exact Or.inr ⟨rfl, nofun⟩
  | some v =>
      rcases accepts_digestOrNull (accepted.lookup found set_) with rfl | ⟨digest, rfl, some_⟩
      · exact Or.inr ⟨rfl, nofun⟩
      · exact Or.inl ⟨digest, rfl, some_⟩

theorem verifyBoundSet_ok {ctx : Dict Str Value} {label digest : Str} {entries : Value}
    (bound : Bound ctx label digest) (some_ : digest ≠ []) :
    verifyBoundSet ctx label entries = .ok () ↔ Issue.setDigest entries label = .ok digest := by
  unfold verifyBoundSet
  rw [show Dict.get? ctx (label ++ "_set_digest") = _ from bound]
  have named : (Value.str digest).truthy = true := by
    simpa [Value.truthy] using some_
  rw [Option.getD_some, if_pos named]
  cases digested : Issue.setDigest entries label with
  | error e => simp [bind, Except.bind]
  | ok actual =>
      rw [ok_bind, ensure_ok, Value.eq_str, Value.str.injEq, Except.ok.injEq]
      exact eq_comm

end Context

namespace Run

open Context (Bound IsSet)

/-- The policy directory of a request. -/
def policyRoot (req : Dict Str Value) : Except Exc Str := do
  pathArg (← (← (Value.dict req).item "policy").item "root")

/-- The ladder of the run was climbed under the sets. -/
structure Used (b : Bench) (a : Annotated) (baseline exceptions : List Value) : Prop where
  loaded : ∃ root, policyRoot a.request = .ok root ∧
    Policy.loadAdoptionSets b.site.disk root = .ok (baseline, exceptions)
  climbed : ∃ ladder, Adoption.evaluate a.progress.ledger a.progress.findings
    (a.planned.map Adoption.Planned.ofAssertion) (baseline.filterMap Adoption.BaselineEntry.read)
    (exceptions.filterMap Adoption.ExceptionRecord.read) ladder = .ok a.report

theorem Climbed.used {b : Bench} {outDir : Str} {req : Dict Str Value} {a : Annotated}
    (climbed : Climbed b outDir req a) : ∃ baseline exceptions, Used b a baseline exceptions ∧
      Context.verifyBoundSets a.inputs.context (.list baseline) (.list exceptions) = .ok () := by
  have ran := climbed.report
  unfold adopt at ran
  obtain ⟨input, held, ran⟩ := bind_ok.mp ran
  obtain ⟨place, named, ran⟩ := bind_ok.mp ran
  obtain ⟨root, text, ran⟩ := bind_ok.mp ran
  obtain ⟨⟨baseline, exceptions⟩, loaded, ran⟩ := bind_ok.mp ran
  obtain ⟨expired, -, ran⟩ := bind_ok.mp ran
  obtain ⟨_, verified, ran⟩ := bind_ok.mp ran
  obtain ⟨core, -, ran⟩ := bind_ok.mp ran
  obtain ⟨stage, -, ran⟩ := bind_ok.mp ran
  obtain ⟨_, -, ran⟩ := bind_ok.mp ran
  obtain ⟨time, -, ran⟩ := bind_ok.mp ran
  obtain ⟨floors, -, ran⟩ := bind_ok.mp ran
  rw [← climbed.given] at held
  exact ⟨baseline, exceptions, ⟨⟨root, bind_ok.mpr ⟨input, held, bind_ok.mpr ⟨place, named, text⟩⟩,
    loaded⟩, ⟨_, ran⟩⟩, verified⟩

/-- The set is the one the context binds, or is empty where it binds none. -/
structure Committed (ctx : Dict Str Value) (label : Str) (entries : List Value) : Prop where
  bound : ∀ digest, Bound ctx label digest → Issue.setDigest (.list entries) label = .ok digest
  unbound : (∀ digest, ¬ Bound ctx label digest) → entries = []

/-- The policy directory of the run has no such file, or one that holds the empty list. -/
def Vacant (b : Bench) (a : Annotated) (file : Str) : Prop :=
  ∃ root rootP, policyRoot a.request = .ok root ∧ b.site.disk.resolve (Path.ofStr root) = .ok rootP ∧
    (b.site.disk.exists_ (rootP.join file) = false ∨
      (do Json.loadText (← b.site.disk.read (rootP.join file))) = .ok (.list []))

theorem vacant_iff {b : Bench} {a : Annotated} {root file label : Str} {rootP : Path}
    {entries : List Value} (placed : policyRoot a.request = .ok root)
    (resolved : b.site.disk.resolve (Path.ofStr root) = .ok rootP)
    (loaded : Policy.loadSet b.site.disk rootP file label = .ok entries) :
    Vacant b a file ↔ entries = [] := by
  constructor
  · rintro ⟨root', rootP', placed', resolved', empty⟩
    rw [placed, Except.ok.injEq] at placed'
    subst placed'
    rw [resolved, Except.ok.injEq] at resolved'
    subst resolved'
    rcases Policy.loadSet_ok.mp loaded with ⟨-, none_⟩ | ⟨there, read, -⟩
    · exact none_
    · rcases empty with absent | holds
      · rw [there] at absent
        cases absent
      · rw [Policy.loadJsonSet_ok, holds] at read
        cases read
        rfl
  · rintro rfl
    refine ⟨root, rootP, placed, resolved, ?_⟩
    rcases Policy.loadSet_ok.mp loaded with ⟨absent, -⟩ | ⟨-, read, -⟩
    · exact Or.inl absent
    · exact Or.inr (Policy.loadJsonSet_ok.mp read)

/-- A set that was loaded and verified is committed where the context binds it, or it is empty. -/
theorem committed_iff {env : Issue.Env} {disk : Disk} {root label : Str} {ctx : Dict Str Value}
    {entries : List Value} (context : Context.load env disk root = .ok ctx) (set_ : IsSet label)
    (verified : Context.verifyBoundSet ctx label (.list entries) = .ok ()) :
    Committed ctx label entries ↔ (∃ digest, Bound ctx label digest) ∨ entries = [] := by
  rcases Context.bound_cases context set_ with ⟨digest, bound, some_⟩ | ⟨-, unbound⟩
  · refine iff_of_true ⟨fun other bound' => ?_, fun none_ => absurd bound (none_ digest)⟩
      (Or.inl ⟨digest, bound⟩)
    have same : digest = other := by
      have agree := bound.symm.trans bound'
      exact Value.str.inj (Option.some.inj agree)
    rw [← same]
    exact (Context.verifyBoundSet_ok bound some_).mp verified
  · constructor
    · intro committed
      exact Or.inr (committed.unbound unbound)
    · rintro (⟨digest, bound⟩ | empty)
      · exact absurd bound (unbound digest)
      · exact ⟨fun digest bound => absurd bound (unbound digest), fun _ => empty⟩

theorem loadAdoptionSets_ok {disk : Disk} {root : Str} {baseline exceptions : List Value} :
    Policy.loadAdoptionSets disk root = .ok (baseline, exceptions) ↔
      ∃ rootP, disk.resolve (Path.ofStr root) = .ok rootP ∧
        Policy.loadSet disk rootP "baseline.json" "baseline" = .ok baseline ∧
        Policy.loadSet disk rootP "exceptions.json" "exception" = .ok exceptions := by
  unfold Policy.loadAdoptionSets
  constructor
  · intro ran
    obtain ⟨rootP, resolved, ran⟩ := bind_ok.mp ran
    obtain ⟨first, baseline_, ran⟩ := bind_ok.mp ran
    obtain ⟨second, exceptions_, ran⟩ := bind_ok.mp ran
    cases ran
    exact ⟨rootP, resolved, baseline_, exceptions_⟩
  · rintro ⟨rootP, resolved, baseline_, exceptions_⟩
    exact bind_ok.mpr ⟨rootP, resolved, bind_ok.mpr ⟨_, baseline_, bind_ok.mpr ⟨_, exceptions_, rfl⟩⟩⟩

/-- The sets of a run that decides are those its context commits it to exactly where, for each set
that the context leaves unbound, the policy directory has none or an empty one. -/
theorem sets_committed_iff {p : Printer} {b : Bench} {parent : Str} {file : Except Exc Bytes}
    {world last : World} {code : Int} (ran : run p b parent file world = (.ok code, last))
    (ladder : code < Result.exitInvalidInput) :
    ∃ d baseline exceptions, Stands p b parent file d code ∧
      Used b d.annotated baseline exceptions ∧
      (Committed d.annotated.inputs.context "baseline" baseline ∧
          Committed d.annotated.inputs.context "exception" exceptions ↔
        ((∃ digest, Bound d.annotated.inputs.context "baseline" digest) ∨
            Vacant b d.annotated "baseline.json") ∧
          ((∃ digest, Bound d.annotated.inputs.context "exception" digest) ∨
            Vacant b d.annotated "exceptions.json")) := by
  obtain ⟨d, stands⟩ := run_vouches ran ladder
  obtain ⟨before, after, went⟩ := stands.concluded
  have climbed := (concluded_ok went).climbed
  obtain ⟨root, context⟩ := (resolveInputs_ok climbed.inputs).loaded
  obtain ⟨baseline, exceptions, used, verified⟩ := climbed.used
  obtain ⟨place, placed, loaded⟩ := used.loaded
  obtain ⟨rootP, resolved, first, second⟩ := loadAdoptionSets_ok.mp loaded
  obtain ⟨_, verified₁, verified₂⟩ := bind_ok.mp verified
  have isBaseline : IsSet "baseline" := rfl
  have isException : IsSet "exception" := rfl
  refine ⟨d, baseline, exceptions, stands, used, ?_⟩
  rw [committed_iff context isBaseline verified₁, committed_iff context isException verified₂,
    vacant_iff placed resolved first, vacant_iff placed resolved second]

theorem sets_committed_iff_pilot : ∃ d baseline exceptions,
    Stands Pilot.printer Pilot.bench "/run" (Canon.canon Pilot.request) d 20 ∧
      Used Pilot.bench d.annotated baseline exceptions ∧
      (Committed d.annotated.inputs.context "baseline" baseline ∧
          Committed d.annotated.inputs.context "exception" exceptions ↔
        ((∃ digest, Bound d.annotated.inputs.context "baseline" digest) ∨
            Vacant Pilot.bench d.annotated "baseline.json") ∧
          ((∃ digest, Bound d.annotated.inputs.context "exception" digest) ∨
            Vacant Pilot.bench d.annotated "exceptions.json")) := by
  obtain ⟨last, ran⟩ := Pilot.ran
  exact sets_committed_iff ran (by decide)

end Run

end DevGate
