import DevGate.Coherence.AdoptionExplained
import DevGate.Coherence.Conclude
import DevGate.Coherence.EvaluatorFindings
import DevGate.Coherence.EvidenceSeal
import DevGate.Coherence.PlanGraph
import DevGate.Coherence.ResultSchema
import DevGate.Coherence.RunSemantics
import DevGate.Coherence.RunSound

set_option autoImplicit false

/- When the result of a run satisfies its frozen schema: the ladder writes a reason on the findings
whose shelter has expired, for which the schema has no property. -/
namespace DevGate

open Py

/-! What evaluators report, and what the ladder adds. -/

/-- A finding as an evaluator makes it. -/
structure Finding.Made (f : Finding) : Prop where
  violated : f.outcome = .violated
  classified : ∃ c, f.violationClass = some c
  silent : f.reason = none

namespace Evaluators

theorem builtins_made {package : Package} {tree : SubjectTree} {builtin : Builtin} {a : Assertion}
    {facts : Dict Str Value} {found : List Finding}
    (ran : builtins package tree builtin a facts = .ok found) : ∀ f ∈ found, f.Made := by
  intro f member
  obtain ⟨o, violation⟩ := (mem_builtins ran f).mp member
  cases violation <;> exact ⟨rfl, ⟨_, rfl⟩, rfl⟩

end Evaluators

namespace Evaluate

open Evaluators

/-- What is reported of assertions with versions from 1 on. -/
structure Sound (s : Progress) : Prop where
  numbered : ∀ e ∈ s.ledger, 1 ≤ e.version
  made : ∀ f ∈ s.findings, f.Made

variable {package : Package} {tree : SubjectTree} {captured : Dict Str Value}
  {drift : Assertion → Option Text}

theorem assess_made {done : Dict Str Outcome} {a : Assertion} {v : Verdict}
    (assessed : assess (builtins package tree) captured drift done a = .ok v) :
    ∀ f ∈ v.found, f.Made := by
  unfold assess at assessed
  split at assessed
  · cases assessed
    exact nofun
  · rename_i builtin known
    split at assessed
    · cases assessed
      exact nofun
    · obtain ⟨facts, -, assessed⟩ := bind_ok.mp assessed
      split at assessed
      · cases assessed
        exact nofun
      · cases assessed
        have found : (remeasure (drift a) (judge a (builtins package tree builtin a facts))).found =
            (judge a (builtins package tree builtin a facts)).found := by
          unfold remeasure
          cases drift a <;> rfl
        rw [found]
        cases ran : builtins package tree builtin a facts with
        | ok found => exact builtins_made ran
        | error e =>
            unfold judge
            dsimp only
            split <;> exact nofun

theorem Sound.step {s next : Progress} {a : Assertion} (sound : Sound s) (numbered : 1 ≤ a.version)
    (ran : step (builtins package tree) captured drift s a = .ok next) : Sound next := by
  obtain ⟨v, assessed, rfl⟩ := step_ok.mp ran
  constructor
  · intro e member
    rcases List.mem_append.mp member with before | here
    · exact sound.numbered e before
    · cases List.mem_singleton.mp here
      exact numbered
  · intro f member
    unfold Progress.settle at member
    dsimp only at member
    split at member
    · rcases List.mem_append.mp member with before | here
      · exact sound.made f before
      · exact assess_made assessed f here
    · exact sound.made f member

theorem run_sound {maxEvaluators : Int} {planned : List Assertion} {out : Progress}
    (numbered : ∀ a ∈ planned, 1 ≤ a.version)
    (ran : run (builtins package tree) captured drift maxEvaluators planned = .ok out) :
    Sound out :=
  Fold.foldlM_keeps (fun a member _ _ sound ran => sound.step (numbered a member) ran)
    ⟨fun _ inside => absurd inside List.not_mem_nil, fun _ inside => absurd inside List.not_mem_nil⟩
    (run_ok.mp ran).2

end Evaluate

namespace Adoption

/-- A finding that blocks because the shelter of its baseline entry has expired. -/
def LosesShelter (ctx : Context) (f : Finding) : Prop :=
  let fp := fingerprint (components ctx.versions f)
  2 ≤ ctx.stage ∧ ctx.advisoryExpired = true ∧ fp ∈ ctx.baseline ∧
    fp ∉ ctx.exceptions.expired ∧ Dict.get? ctx.exceptions.active fp = none

theorem annotate_reason {f : Finding} (made : f.Made) (ctx : Context) :
    (annotate ctx f).1.reason = none ↔ ¬ LosesShelter ctx f := by
  have silent := made.silent
  unfold annotate LosesShelter
  dsimp only
  generalize fingerprint (components ctx.versions f) = fp
  split
  · rename_i early
    have below : ¬ 2 ≤ ctx.stage := by omega
    simp [below, silent]
  · rename_i enforced
    have above : 2 ≤ ctx.stage := by omega
    split
    · rename_i expired
      simp [expired, silent]
    · rename_i unexpired
      split
      · rename_i ex active
        simp [active, silent]
      · rename_i inactive
        split
        · rename_i sheltered
          simp [sheltered.2.2.1, silent]
        · split
          · rename_i spent
            simp [above, unexpired, inactive, spent.1, spent.2]
          · rename_i kept
            have apart : ¬ (ctx.advisoryExpired = true ∧ fp ∈ ctx.baseline) := kept
            simp only [silent, true_iff]
            rintro ⟨-, expired, listed, -⟩
            exact apart ⟨expired, listed⟩

theorem annotate_complete {f : Finding} (made : f.Made) (ctx : Context) :
    Result.Complete (annotate ctx f).1 := by
  have whole : ∃ enforcement exceptionId reason, (annotate ctx f).1 =
      { f with fingerprint := some (fingerprint (components ctx.versions f)),
               enforcement := enforcement, exceptionId := exceptionId, reason := reason } := by
    unfold annotate
    dsimp only
    split
    · exact ⟨_, _, _, rfl⟩
    · split
      · exact ⟨_, _, _, rfl⟩
      · split
        · exact ⟨_, _, _, rfl⟩
        · split
          · exact ⟨_, _, _, rfl⟩
          · split <;> exact ⟨_, _, _, rfl⟩
  obtain ⟨enforcement, exceptionId, reason, same⟩ := whole
  rw [same]
  exact ⟨made.violated, made.classified, ⟨_, rfl⟩⟩

end Adoption

namespace Profiles

theorem atSha {d : Str} {o : Option Str} (held : o.filter isSha = some d) : isSha d = true :=
  (Option.filter_eq_some_iff.mp held).2

theorem validateProfile_sha {labels : List Str} {v : Value} {profile : Profile}
    (valid : validateProfile labels v = .ok profile) : isSha profile.imageManifestDigest = true := by
  unfold validateProfile fail at valid
  split at valid
  · split at valid
    · cases valid
    · split at valid
      · cases valid
      · dsimp only at valid
        split at valid
        · cases valid
        · split at valid
          · cases valid
          · rename_i digest held
            split at valid
            · cases valid
            · split at valid
              · cases valid
              · cases valid
                exact atSha held
  · cases valid

theorem validateProfiles_sha {vs : List Value} {labels : List Str} {profiles : List Profile}
    (valid : validateProfiles labels vs = .ok profiles) :
    ∀ profile ∈ profiles, isSha profile.imageManifestDigest = true := by
  induction vs generalizing labels profiles with
  | nil =>
      cases valid
      exact nofun
  | cons v vs ih =>
      obtain ⟨profile, first, valid⟩ := bind_ok.mp valid
      obtain ⟨rest, later, valid⟩ := bind_ok.mp valid
      cases valid
      exact List.forall_mem_cons.mpr ⟨validateProfile_sha first, ih later⟩

/-- The digests of a registry are digests. -/
structure Registry.Sha (reg : Registry) : Prop where
  index : ∀ d, reg.imageIndexDigest = some d → isSha d = true
  profiles : ∀ profile ∈ reg.profiles, isSha profile.imageManifestDigest = true

theorem validateRegistry_sha {v : Value} {reg : Registry} (valid : validateRegistry v = .ok reg) :
    reg.Sha := by
  unfold validateRegistry fail at valid
  split at valid
  · split at valid
    · cases valid
    · split at valid
      · cases valid
      · dsimp only at valid
        split at valid
        · cases valid
        · rename_i proper
          split at valid
          · obtain ⟨profiles, each, valid⟩ := bind_ok.mp valid
            cases valid
            refine ⟨fun d held => ?_, validateProfiles_sha each⟩
            dsimp only at held
            by_contra loose
            apply proper
            refine ⟨fun null => ?_, ?_⟩
            · rw [null] at held
              cases held
            · rw [held]
              simpa using loose
          · cases valid
  · cases valid

theorem loadRegistry_sha {disk : Disk} {path : Str} {reg : Registry}
    (loaded : loadRegistry disk path = .ok reg) : reg.Sha := by
  unfold loadRegistry fail at loaded
  split at loaded
  · exact validateRegistry_sha loaded
  · split at loaded
    · cases loaded
    · split at loaded
      · cases loaded
      · cases loaded

theorem resolveProfile_sha {reg : Registry} {label : Str} {profile : Profile} (sha : reg.Sha)
    (found : resolveProfile reg label = .ok profile) : isSha profile.imageManifestDigest = true := by
  unfold resolveProfile fail at found
  split at found
  · rename_i known
    cases found
    exact sha.profiles _ (List.mem_of_find?_eq_some known)
  · cases found

/-- The image is a digest, and the platform satisfies its schema. -/
theorem resolveEvaluatorIdentity_proper {disk : Disk} {path label image : Str} {env : Option Str}
    {platform : Value} (given : ∀ d, env = some d → isSha d = true)
    (ran : resolveEvaluatorIdentity disk path label env = .ok (image, platform)) :
    isSha image = true ∧ ∀ path, Schemacheck.validate Schemacheck.platform platform path = [] := by
  have valid : ∀ (index manifest : Option Str), (∀ d, index = some d → isSha d = true) →
      (∀ d, manifest = some d → isSha d = true) → ∀ path,
      Schemacheck.validate Schemacheck.platform
        (.dict [("index_digest", (index.map Value.str).getD .null),
          ("manifest_digest", (manifest.map Value.str).getD .null), ("profile", .str label)]) path = [] := by
    intro index manifest first second path
    refine Schemacheck.validate_object (fun _ => ⟨rfl, rfl, rfl⟩) rfl ?_ path
    intro key sub stated v found path
    simp only [Schemacheck.platform, List.mem_cons, Prod.mk.injEq, List.not_mem_nil, or_false]
      at stated
    rcases stated with ⟨rfl, rfl⟩ | ⟨rfl, rfl⟩ | ⟨rfl, rfl⟩
    · cases found
      exact Schemacheck.validate_digestOrNull first path
    · cases found
      exact Schemacheck.validate_digestOrNull second path
    · cases found
      exact Schemacheck.validate_string _ path
  unfold resolveEvaluatorIdentity at ran
  dsimp only at ran
  cases loaded : loadRegistry disk path with
  | error e =>
      rw [loaded] at ran
      dsimp only at ran
      split at ran
      · rename_i digest
        split at ran
        · cases ran
          exact ⟨given image rfl, valid none none nofun nofun⟩
        · cases ran
      · cases ran
  | ok reg =>
      have sha := loadRegistry_sha loaded
      rw [loaded] at ran
      dsimp only at ran
      split at ran
      · rename_i prof digest found
        cases ran
        exact ⟨given image rfl, valid reg.imageIndexDigest (some prof.imageManifestDigest) sha.index
          (fun d same => Option.some.inj same ▸ resolveProfile_sha sha found)⟩
      · rename_i prof found
        cases ran
        exact ⟨resolveProfile_sha sha found, valid reg.imageIndexDigest
          (some prof.imageManifestDigest) sha.index
          (fun d same => Option.some.inj same ▸ resolveProfile_sha sha found)⟩
      · cases ran
        exact ⟨given image rfl, valid reg.imageIndexDigest none sha.index nofun⟩
      · cases ran

end Profiles

namespace Run

/-- The ladder that the run climbed. -/
structure OnLadder (a : Annotated) (ctx : Adoption.Context) : Prop where
  staged : stageOf a.inputs.context = .ok ctx.stage
  expiry : advisoryExpired a.request a.inputs.policy a.inputs.context = .ok ctx.advisoryExpired
  climbed : Adoption.climb ctx a.progress.ledger a.progress.findings = a.report

theorem Climbed.onLadder {b : Bench} {outDir : Str} {req : Dict Str Value} {a : Annotated}
    (climbed : Climbed b outDir req a) : ∃ ctx, OnLadder a ctx := by
  obtain ⟨baseline, exceptions, ladder, expiry, staged, ran⟩ := adopt_ok climbed.report
  obtain ⟨-, now, sorted, -, -, same⟩ := Adoption.evaluate_ok.mp ran
  rw [← climbed.given] at expiry
  exact ⟨_, staged, expiry, same⟩

/-- A digest that the request expects is a digest. -/
theorem Pinned.sha {req : Dict Str Value} {key : Str} {computed : Option Str}
    (accepted : Schemacheck.Accepts Schemacheck.request (.dict req))
    (stated : Dict.get? Schemacheck.request.properties key = some Schemacheck.inputRef)
    (pinned : Pinned req key computed) :
    ∃ d, computed = some d ∧ Schemacheck.digestPattern.re.fullmatch d = true := by
  obtain ⟨input, digest, held, expected, same⟩ := pinned
  obtain ⟨_, object, found⟩ := Value.item_ok.mp held
  cases object
  have inner := accepted.lookup found stated
  obtain ⟨kvs, rfl, looked⟩ := Value.get_ok.mp expected
  have bounded : Dict.get? Schemacheck.inputRef.properties "expected_digest" =
      some Schemacheck.digest := rfl
  exact ⟨digest, same, (inner.lookup looked bounded).pattern rfl⟩

theorem Climbed.proper {b : Bench} {outDir : Str} {req : Dict Str Value} {a : Annotated}
    (climbed : Climbed b outDir req a)
    (accepted : Schemacheck.Accepts Schemacheck.request (.dict req)) :
    Result.Proper a.identities := by
  obtain ⟨subject, openspec, policy, context⟩ := climbed.pinned
  rw [climbed.given] at subject openspec policy context
  have ran := climbed.evaluator
  unfold resolveEvaluator at ran
  dsimp only at ran
  split at ran
  · cases ran
  · rename_i plain
    obtain ⟨⟨image, platform⟩, resolved, ran⟩ := bind_ok.mp ran
    have given : ∀ d, b.image = some d → Profiles.isSha d = true := by
      intro d held
      rw [held] at plain
      simpa using plain
    have evaluator := Profiles.resolveEvaluatorIdentity_proper given (guarded_ok.mp resolved)
    have same := Except.ok.inj ran
    exact {
      subject := subject.sha accepted rfl
      openspec := openspec.sha accepted rfl
      policy := policy.sha accepted rfl
      context := context.sha accepted rfl
      evaluatorImage := ⟨image, by rw [← same], evaluator.1⟩
      platform := ⟨platform, by rw [← same], evaluator.2⟩ }

/-- The rows and findings of the ladder are of the kinds that the schema asks for. -/
theorem Climbed.kinds {b : Bench} {outDir : Str} {req : Dict Str Value} {a : Annotated}
    {ctx : Adoption.Context} (climbed : Climbed b outDir req a) (ladder : OnLadder a ctx) :
    Evaluate.Sound a.progress ∧ (∀ e ∈ a.report.ledger, 1 ≤ e.version) := by
  have numbered : ∀ x ∈ a.planned, 1 ≤ x.version := by
    obtain ⟨docs, under, assertions, -, -, checked, alike⟩ := climbed.complete.whole
    intro x inside
    obtain ⟨doc, -, made⟩ := (mapM_members checked).2 x (alike.mem_iff.mp inside)
    have entry := Plan.checkAssertion_ok.mp made
    obtain ⟨y, read, wellFormed⟩ := Schemacheck.accepts_assertion ⟨"$", entry.valid⟩
    rw [entry.read, Option.some.injEq] at read
    rw [read]
    exact wellFormed.version
  have sound := Evaluate.run_sound numbered (guarded_ok.mp climbed.progress)
  refine ⟨sound, fun e inside => ?_⟩
  rw [← ladder.climbed, Adoption.climb_ledger] at inside
  obtain ⟨row, member, rfl⟩ := List.mem_map.mp inside
  obtain ⟨enforcement, reason, kept⟩ := Adoption.mirror_keeps _ _ row
  rw [kept]
  exact sound.numbered row member

theorem issued_known {b : Bench} {outDir : Str} {req : Dict Str Value} {a : Annotated}
    (climbed : Climbed b outDir req a) :
    ∃ s ∈ [Str.ofString "fresh-promotion", "replay"], semanticsOf a.inputs.context = .str s := by
  obtain ⟨root, loaded⟩ := (resolveInputs_ok climbed.inputs).loaded
  obtain ⟨kvs, digest, accepted, -, same⟩ := load_ok loaded
  unfold semanticsOf
  rw [same, Dict.get?_set_of_ne _ _ _ _ (by decide)]
  cases found : Dict.get? kvs "semantics" with
  | none => exact ⟨"fresh-promotion", List.mem_cons_self, rfl⟩
  | some v =>
      obtain ⟨s, listed, same⟩ := Schemacheck.accepts_names (accepted.lookup found rfl)
      exact ⟨s, listed, same⟩

/-- Every finding is reported with the reference to its evidence. -/
theorem reported_findings {findings : List Finding} {refs : List Str}
    (paired : refs.length = findings.length) :
    (List.zipWith (fun f rel => (⟨f, [rel]⟩ : Result.Reported)) findings refs).map
      Result.Reported.finding = findings := by
  induction findings generalizing refs with
  | nil => rfl
  | cons f findings ih =>
      cases refs with
      | nil => cases paired
      | cons rel refs =>
          rw [List.length_cons, List.length_cons, Nat.add_right_cancel_iff] at paired
          rw [List.zipWith_cons_cons, List.map_cons, ih paired]

/-- The result of a run that decides satisfies its frozen schema exactly where no finding of it
loses the shelter of its baseline entry to an expired window. -/
theorem result_conforms_iff {p : Printer} {b : Bench} {parent : Str} {file : Except Exc Bytes}
    {world last : World} {code : Int} (ran : run p b parent file world = (.ok code, last))
    (ladder : code < Result.exitInvalidInput) :
    ∃ d ctx, Stands p b parent file d code ∧ OnLadder d.annotated ctx ∧
      ((∀ path, Schemacheck.validate Schemacheck.result d.result path = []) ↔
        ∀ f ∈ d.annotated.progress.findings, ¬ Adoption.LosesShelter ctx f) := by
  obtain ⟨d, stands⟩ := run_vouches ran ladder
  obtain ⟨before, after, went⟩ := stands.concluded
  have run := concluded_ok went
  have climbed := run.climbed
  obtain ⟨-, accepted⟩ := accept_ok run.accepted
  obtain ⟨ctx, onLadder⟩ := climbed.onLadder
  obtain ⟨sound, numbered⟩ := climbed.kinds onLadder
  have proper := climbed.proper accepted
  obtain ⟨s, known, semantics⟩ := issued_known climbed
  obtain ⟨refs, stage, evidence, -, built⟩ := run.built.made
  rw [semantics] at built
  obtain ⟨objects, manifest, each, -, -, digested, same, -⟩ := Evidence.sealFindings_ok evidence
  have paired : refs.length = d.annotated.report.findings.length := by
    rw [same, List.length_map, ← (List.forall₂_iff_get.mp (Fold.mapM_forall₂.mp each)).1,
      List.length_map]
  have whole : (reported d.annotated refs).map Result.Reported.finding = d.annotated.report.findings :=
    reported_findings paired
  have findings : d.annotated.report.findings =
      d.annotated.progress.findings.map (fun f => (Adoption.annotate ctx f).1) := by
    rw [← onLadder.climbed, Adoption.climb_findings]
  have complete : ∀ f ∈ reported d.annotated refs, Result.Complete f.finding := by
    intro f inside
    have member := List.mem_map_of_mem (f := Result.Reported.finding) inside
    rw [whole, findings] at member
    obtain ⟨made, known, same⟩ := List.mem_map.mp member
    rw [← same]
    exact Adoption.annotate_complete (sound.made made known) ctx
  have sealed_ : Schemacheck.digestPattern.re.fullmatch d.evidence = true := by
    rw [digested]
    exact Schemacheck.matches_digest _ _
  refine ⟨d, ctx, stands, onLadder, ?_⟩
  have valid := Result.build_valid proper known numbered complete sealed_ built
  constructor
  · intro conforms f inside
    rw [← Adoption.annotate_reason (sound.made f inside) ctx]
    have member : (Adoption.annotate ctx f).1 ∈ d.annotated.report.findings := by
      rw [findings]
      exact List.mem_map_of_mem inside
    rw [← whole] at member
    obtain ⟨r, there, is⟩ := List.mem_map.mp member
    rw [← is]
    exact (valid []).mp (conforms []) r there
  · intro kept path
    refine (valid path).mpr (fun r inside => ?_)
    have member := List.mem_map_of_mem (f := Result.Reported.finding) inside
    rw [whole, findings] at member
    obtain ⟨f, known, same⟩ := List.mem_map.mp member
    rw [← same]
    exact (Adoption.annotate_reason (sound.made f known) ctx).mpr (kept f known)

theorem result_conforms_iff_pilot : ∃ d ctx,
    Stands Pilot.printer Pilot.bench "/run" (Canon.canon Pilot.request) d 20 ∧
      OnLadder d.annotated ctx ∧
      ((∀ path, Schemacheck.validate Schemacheck.result d.result path = []) ↔
        ∀ f ∈ d.annotated.progress.findings, ¬ Adoption.LosesShelter ctx f) := by
  obtain ⟨last, ran⟩ := Pilot.ran
  exact result_conforms_iff ran (by decide)

end Run

end DevGate
