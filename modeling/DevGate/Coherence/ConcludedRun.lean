import DevGate.Coherence.Conclude
import DevGate.Coherence.EvidenceSeal
import DevGate.Coherence.Issuance

set_option autoImplicit false

/- What a run went through that has its result, step by step. -/
namespace DevGate.Run

open Py
open Adoption (policyError)
open Result (Identities)

/-- An accepted request is an object of its schema. -/
theorem accept_ok {parent outDir : Str} {req : Value} {kvs : Dict Str Value}
    (ran : accept parent req = .ok (kvs, outDir)) :
    req = .dict kvs ∧ Schemacheck.Accepts Schemacheck.request (.dict kvs) := by
  cases req with
  | dict given =>
      unfold accept at ran
      dsimp only at ran
      split at ran
      · obtain ⟨⟨own, outputs⟩, checked, ran⟩ := bind_ok.mp ran
        cases ran
        have checked := guarded_ok.mp checked
        unfold checkRequest at checked
        obtain ⟨_, valid, checked⟩ := bind_ok.mp checked
        obtain ⟨_, -, checked⟩ := bind_ok.mp checked
        cases checked
        exact ⟨rfl, "$", ensure_ok.mp valid⟩
      · cases ran
  | _ => cases ran

/-- The four inputs of a run, each read as its step reads it. -/
structure Inputs.Of (site : Site) (req : Dict Str Value) (inputs : Inputs) : Prop where
  subject : ∃ actual, readSubject site req = .ok (inputs.subject, actual) ∧
    expected req "subject" actual = .ok () ∧ inputs.identities.subject = some actual
  package : ∃ actual, readPackage site req = .ok (inputs.package, actual) ∧
    expected req "openspec" actual = .ok () ∧ inputs.identities.openspec = some actual
  context : ∃ root actual, readContext site req = .ok (root, inputs.context, actual) ∧
    readFacts site req root actual inputs.context = .ok inputs.facts ∧
    inputs.identities.context = some actual
  policy : ∃ actual, readPolicy site req inputs.context = .ok (inputs.policy, actual) ∧
    inputs.identities.policy = some actual

theorem resolveInputs_ok {site : Site} {outDir : Str} {req : Dict Str Value} {inputs : Inputs}
    (ran : resolveInputs site outDir req = .ok inputs) : inputs.Of site req := by
  unfold resolveInputs resolveSubject resolvePackage resolveContext resolvePolicy at ran
  obtain ⟨⟨subject, ids₁⟩, first, ran⟩ := bind_ok.mp ran
  obtain ⟨⟨package, ids₂⟩, second, ran⟩ := bind_ok.mp ran
  obtain ⟨⟨context, facts, ids₃⟩, third, ran⟩ := bind_ok.mp ran
  obtain ⟨⟨policy, ids₄⟩, fourth, ran⟩ := bind_ok.mp ran
  obtain ⟨⟨_, actual₁⟩, subjectRead, first⟩ := bind_ok.mp first
  obtain ⟨_, pinned₁, first⟩ := bind_ok.mp first
  obtain ⟨⟨_, actual₂⟩, packageRead, second⟩ := bind_ok.mp second
  obtain ⟨_, pinned₂, second⟩ := bind_ok.mp second
  obtain ⟨⟨root, _, actual₃⟩, contextRead, third⟩ := bind_ok.mp third
  obtain ⟨_, captured, third⟩ := bind_ok.mp third
  obtain ⟨⟨_, actual₄⟩, policyRead, fourth⟩ := bind_ok.mp fourth
  cases first
  cases second
  cases third
  cases fourth
  cases ran
  exact ⟨⟨actual₁, guarded_ok.mp subjectRead, guarded_ok.mp pinned₁, rfl⟩,
    ⟨actual₂, guarded_ok.mp packageRead, guarded_ok.mp pinned₂, rfl⟩,
    ⟨root, actual₃, guarded_ok.mp contextRead, guarded_ok.mp captured, rfl⟩,
    ⟨actual₄, guarded_ok.mp policyRead, rfl⟩⟩

/-- The inputs of a run are what its four steps resolve. -/
theorem resolveInputs_of {site : Site} {outDir : Str} {req : Dict Str Value} {inputs : Inputs}
    {ids₁ ids₂ ids₃ : Identities}
    (subject : resolveSubject site outDir req {} = .ok (inputs.subject, ids₁))
    (package_ : resolvePackage site outDir req ids₁ = .ok (inputs.package, ids₂))
    (context_ : resolveContext site outDir req ids₂ = .ok (inputs.context, inputs.facts, ids₃))
    (policy_ : resolvePolicy site outDir req inputs.context ids₃ =
      .ok (inputs.policy, inputs.identities)) : resolveInputs site outDir req = .ok inputs := by
  unfold resolveInputs
  rw [subject, ok_bind]
  dsimp only
  rw [package_, ok_bind]
  dsimp only
  rw [context_, ok_bind]
  dsimp only
  rw [policy_]
  rfl

/-- A context that is loaded is a document of its schema, with its digest. -/
theorem load_ok {env : Issue.Env} {disk : Disk} {root : Str} {ctx : Dict Str Value}
    (loaded : Context.load env disk root = .ok ctx) : ∃ kvs digest,
      Schemacheck.Accepts Schemacheck.evaluationContext (.dict kvs) ∧
        Canon.digestObj .context (.dict kvs) = .ok digest ∧
        ctx = Dict.set kvs "context_digest" (.str digest) := by
  unfold Context.load at loaded
  obtain ⟨base, -, loaded⟩ := bind_ok.mp loaded
  dsimp only at loaded
  split at loaded
  · obtain ⟨doc, -, checked⟩ := bind_ok.mp loaded
    obtain ⟨kvs, digest, rfl, accepted, -, digested, same⟩ := Context.checkContext_ok checked
    exact ⟨kvs, digest, accepted, digested, same⟩
  · cases loaded

theorem Inputs.Of.loaded {site : Site} {req : Dict Str Value} {inputs : Inputs}
    (of : inputs.Of site req) : ∃ root, Context.load site.env site.disk root = .ok inputs.context := by
  obtain ⟨root, actual, read, -⟩ := of.context
  unfold readContext at read
  obtain ⟨_, -, read⟩ := bind_ok.mp read
  obtain ⟨_, -, read⟩ := bind_ok.mp read
  obtain ⟨_, -, read⟩ := bind_ok.mp read
  obtain ⟨ctx, loaded, read⟩ := bind_ok.mp read
  obtain ⟨_, -, read⟩ := bind_ok.mp read
  obtain ⟨_, -, read⟩ := bind_ok.mp read
  cases read
  exact ⟨_, loaded⟩

theorem mapError_ok {ε ε' α : Type} {f : ε → ε'} {x : Except ε α} {a : α} :
    x.mapError f = .ok a ↔ x = .ok a := by
  cases x <;> simp [Except.mapError]

/-- The run of an accepted request went up the ladder. -/
structure Climbed (b : Bench) (outDir : Str) (req : Dict Str Value) (a : Annotated) : Prop where
  place : a.outDir = outDir
  given : a.request = req
  inputs : resolveInputs b.site outDir req = .ok a.inputs
  evaluator : resolveEvaluator b outDir a.inputs.context a.inputs.identities = .ok a.identities
  planned : ∃ docs under, readAssertions b outDir req a.identities = .ok docs ∧
    overlaid b outDir req a.inputs.policy docs a.identities = .ok under ∧
    plan outDir a.inputs under a.identities = .ok a.planned
  progress : evaluated b outDir a.inputs a.planned a.identities = .ok a.progress
  faultless : a.progress.error = none
  report : adopt b.site.disk req a.inputs.policy a.inputs.context a.progress.ledger
    a.progress.findings (a.planned.map Adoption.Planned.ofAssertion) = .ok a.report

theorem annotate_ok {b : Bench} {outDir : Str} {req : Dict Str Value} {a : Annotated}
    (ran : annotate b outDir req = .ok a) : Climbed b outDir req a := by
  unfold annotate at ran
  obtain ⟨inputs, resolved, ran⟩ := bind_ok.mp ran
  obtain ⟨ids, evaluator, ran⟩ := bind_ok.mp ran
  obtain ⟨docs, read, ran⟩ := bind_ok.mp ran
  obtain ⟨under, overlay, ran⟩ := bind_ok.mp ran
  obtain ⟨planned, made, ran⟩ := bind_ok.mp ran
  obtain ⟨progress, went, ran⟩ := bind_ok.mp ran
  rw [mapError_ok] at resolved evaluator read overlay made went
  split at ran
  · cases ran
  · rename_i faultless
    obtain ⟨report, climbed, ran⟩ := bind_ok.mp ran
    cases ran
    exact ⟨rfl, rfl, resolved, evaluator, ⟨docs, under, read, overlay, made⟩, went, faultless,
      guarded_ok.mp (mapError_ok.mp climbed)⟩

/-- A run whose steps all answer is annotated with what they answer. -/
theorem annotate_of {b : Bench} {outDir : Str} {a : Annotated} {docs under : List Value}
    (place : a.outDir = outDir) (resolved : resolveInputs b.site outDir a.request = .ok a.inputs)
    (evaluator : resolveEvaluator b outDir a.inputs.context a.inputs.identities = .ok a.identities)
    (read : readAssertions b outDir a.request a.identities = .ok docs)
    (overlay : overlaid b outDir a.request a.inputs.policy docs a.identities = .ok under)
    (made : plan outDir a.inputs under a.identities = .ok a.planned)
    (went : evaluated b outDir a.inputs a.planned a.identities = .ok a.progress)
    (faultless : a.progress.error = none)
    (climbed : adopted b outDir a.request a.inputs a.planned a.progress a.identities = .ok a.report) :
    annotate b outDir a.request = .ok a := by
  have kept : ∀ {α : Type} {x : Except Stop α} {y : α}, x = .ok y → x.mapError Halt.stopped = .ok y := by
    intro α x y same
    rw [same]
    rfl
  unfold annotate
  rw [kept resolved, ok_bind, kept evaluator, ok_bind, kept read, ok_bind, kept overlay, ok_bind,
    kept made, ok_bind, kept went, ok_bind, faultless]
  dsimp only
  rw [kept climbed, ok_bind, ← place]
  rfl

/-- The findings with the evidence that was sealed for them. -/
def reported (a : Annotated) (refs : List Str) : List Result.Reported :=
  List.zipWith (fun f rel => ⟨f, [rel]⟩) a.report.findings refs

/-- The findings were sealed, and the result built of them. -/
structure Reports (p : Printer) (b : Bench) (d : Decided) (world last : World) : Prop where
  made : ∃ refs stage,
    Evidence.sealFindings b.site.disk
        (d.annotated.report.findings.map (fun f => Result.findingDoc p ⟨f, []⟩)) d.annotated.outDir []
        (retentionDays d.annotated.planned) world = (.ok (refs, d.evidence), last) ∧
      stageOf d.annotated.inputs.context = .ok stage ∧
      Result.build p d.annotated.report.ledger (reported d.annotated refs) d.annotated.identities stage
        (semanticsOf d.annotated.inputs.context) d.evidence (some d.annotated.report.blocked) =
        .ok d.result

theorem sealEvidence_ok {p : Printer} {b : Bench} {a : Annotated} {world last : World}
    {made : List Str × Str} (ran : sealEvidence p b a world = (.ok (.ok made), last)) :
    Evidence.sealFindings b.site.disk (a.report.findings.map (fun f => Result.findingDoc p ⟨f, []⟩))
      a.outDir [] (retentionDays a.planned) world = (.ok made, last) := by
  rcases Act.catching_ok.mp ran with done | ⟨e, middle, -, -, handled⟩
  · obtain ⟨found, middle, went, done⟩ := Act.bind_ok.mp done
    cases done
    exact went
  · cases handled

theorem payload_ok {p : Printer} {b : Bench} {a : Annotated} {d : Decided} {world last : World}
    (ran : payload p b a world = (.ok (.ok d), last)) : d.annotated = a ∧ Reports p b d world last := by
  unfold payload at ran
  obtain ⟨found, middle, sealed_, ran⟩ := Act.bind_ok.mp ran
  cases found with
  | error halt => cases ran
  | ok made =>
      obtain ⟨refs, digest⟩ := made
      obtain ⟨stage, w, staged, ran⟩ := Act.bind_ok.mp ran
      obtain ⟨res, w', built, ran⟩ := Act.bind_ok.mp ran
      rw [Act.ofExcept_run, Prod.mk.injEq] at staged built
      obtain ⟨staged, rfl⟩ := staged
      obtain ⟨built, rfl⟩ := built
      cases ran
      exact ⟨rfl, ⟨refs, stage, sealEvidence_ok sealed_, staged, built⟩⟩

/-- A run of a decoded request that has its result. -/
structure Concluded (p : Printer) (b : Bench) (parent : Str) (req : Value) (d : Decided)
    (world last : World) : Prop where
  accepted : accept parent req = .ok (d.annotated.request, d.annotated.outDir)
  climbed : Climbed b d.annotated.outDir d.annotated.request d.annotated
  built : Reports p b d world last

theorem concluded_ok {p : Printer} {b : Bench} {parent : Str} {req : Value} {d : Decided}
    {world last : World} (ran : concluded p b parent req world = (.ok (.ok d), last)) :
    Concluded p b parent req d world last := by
  unfold concluded at ran
  cases accepted : accept parent req with
  | error stop =>
      rw [accepted] at ran
      cases ran
  | ok found =>
      obtain ⟨kvs, outDir⟩ := found
      rw [accepted] at ran
      dsimp only at ran
      cases went : annotate b outDir kvs with
      | error halt =>
          rw [went] at ran
          cases ran
      | ok a =>
          rw [went] at ran
          obtain ⟨rfl, built⟩ := payload_ok ran
          have climbed := annotate_ok went
          have same := climbed.place
          have given := climbed.given
          subst same given
          exact ⟨accepted, climbed, built⟩

/-- The run of an accepted request is sealed as it is annotated. -/
theorem concluded_of {p : Printer} {b : Bench} {parent : Str} {req : Value} {a : Annotated}
    (accepted : accept parent req = .ok (a.request, a.outDir))
    (annotated : annotate b a.outDir a.request = .ok a) :
    concluded p b parent req = payload p b a := by
  unfold concluded
  rw [accepted]
  dsimp only
  rw [annotated]

/-- The run of a request file that reads as a document. -/
theorem run_of_loaded {p : Printer} {b : Bench} {parent : Str} {file : Except Exc Bytes} {req : Value}
    (loaded : (do Json.loadText (← file)) = .ok req) :
    run p b parent file = (do
      match ← concluded p b parent req with
      | .error halt => answer p halt
      | .ok d => finish p b d) := by
  unfold run
  rw [loaded]
  rfl

/-! A run whose file operations all succeed. -/

/-- With no operation on files failing, the computation answers. -/
def Calm {α : Type} (body : Act α) (a : α) : Prop :=
  ∀ world, world.fates = [] → ∃ last, body world = (.ok a, last) ∧ last.fates = []

theorem Calm.pure {α : Type} (a : α) : Calm (pure a : Act α) a := fun world calm => ⟨world, rfl, calm⟩

theorem Calm.ofExcept {α : Type} {x : Except Exc α} {a : α} (answers : x = .ok a) :
    Calm (Act.ofExcept x) a := by
  intro world calm
  rw [answers]
  exact ⟨world, rfl, calm⟩

theorem Calm.replace (path : Path) (payload : Bytes) : Calm (Act.replace path payload) () :=
  fun _ calm => ⟨_, Act.replace_calm calm, calm⟩

theorem Calm.bind {α β : Type} {body : Act α} {next : α → Act β} {a : α} {b : β}
    (first : Calm body a) (later : Calm (next a) b) : Calm (body >>= next) b := by
  intro world calm
  obtain ⟨middle, ran, calm⟩ := first world calm
  obtain ⟨last, went, calm⟩ := later middle calm
  exact ⟨last, Act.bind_ok.mpr ⟨a, middle, ran, went⟩, calm⟩

theorem Calm.catching {α : Type} {body : Act α} {a : α} (answers : Calm body a)
    (classes : List ExcClass) (handler : Exc → Act α) : Calm (body.catching classes handler) a := by
  intro world calm
  obtain ⟨last, ran, calm⟩ := answers world calm
  exact ⟨last, Act.catching_ok.mpr (Or.inl ran), calm⟩

theorem emitEnvelope_calm {outDir : Str} {decision stage semantics path : Value} {code : Int}
    {signed needed : Bool} {payload : Bytes} (needs : Attest.required stage semantics = .ok needed)
    (encoded : Canon.canon (Attest.envelope decision code stage semantics needed signed path) =
      .ok payload) : Calm (Attest.emitEnvelope outDir decision code stage semantics signed path) () :=
  (Calm.ofExcept needs).bind ((Calm.ofExcept encoded).bind
    ((Calm.replace _ _).catching _ _))

theorem emitAttestation_calm {env : Attest.SignerEnv} {outDir evidence : Str} {payload bytes : Bytes}
    {ids : Identities} {time attestation : Value}
    (signed : Attest.sign env payload ids evidence time = .ok attestation)
    (encoded : Canon.canon attestation = .ok bytes) :
    Calm (Attest.emitAttestation env outDir payload ids evidence time) () :=
  (Calm.ofExcept signed).bind ((Calm.ofExcept encoded).bind ((Calm.replace _ _).catching _ _))

/-- The seal of a run that has to be signed and can be. -/
theorem sealRun_calm {env : Attest.SignerEnv} {outDir evidence : Str} {res ctx : Value}
    {ledger : List Evaluate.Row} {ids : Identities} {blocked : Bool}
    {stage semantics time attestation decision : Value} {payload bytes envelope : Bytes}
    (staged : ctx.item "stage" = .ok stage)
    (labelled : Attest.getOr ctx "semantics" (.str "fresh-promotion") = .ok semantics)
    (encoded : Canon.canon res = .ok payload) (needs : Attest.required stage semantics = .ok true)
    (timed : ctx.item "evaluation_time" = .ok time)
    (signed : Attest.sign env payload ids evidence time = .ok attestation)
    (written : Canon.canon attestation = .ok bytes) (decides : res.item "decision" = .ok decision)
    (enveloped : Canon.canon (Attest.envelope decision
      (Result.decide ledger ((Attest.integral? stage).getD 0) none (some blocked)).2 stage semantics
      true true (.str "attestation.json")) = .ok envelope) :
    Calm (Attest.sealRun env outDir res ledger ids evidence ctx blocked)
      (Result.decide ledger ((Attest.integral? stage).getD 0) none (some blocked)).2 := by
  unfold Attest.sealRun
  apply (Calm.ofExcept staged).bind
  apply (Calm.ofExcept labelled).bind
  apply (Calm.ofExcept encoded).bind
  apply Calm.bind (((Calm.replace _ _).bind (Calm.pure outDir)).catching _ _)
  apply (Calm.ofExcept needs).bind
  apply (Calm.ofExcept timed).bind
  apply (emitAttestation_calm signed written).bind
  apply (Calm.ofExcept decides).bind
  exact (emitEnvelope_calm needs enveloped).bind (Calm.pure _)

/-- Can the claim beside the decision be written? -/
def claimable (p : Printer) (d : Decided) : Except Exc Unit := do
  let payload ← Canon.canon d.result
  let claim ← decisionClaim p d (Canon.digest .decision payload)
  let _ ← Canon.canon claim.document
  let _ ← Verification.digestClaim claim.document
  return ()

theorem emitDecisionClaim_calm {p : Printer} {d : Decided} (writes : claimable p d = .ok ()) :
    Calm (emitDecisionClaim p d) () := by
  unfold claimable at writes
  obtain ⟨payload, encoded, writes⟩ := bind_ok.mp writes
  obtain ⟨claim, made, writes⟩ := bind_ok.mp writes
  obtain ⟨bytes, whole, writes⟩ := bind_ok.mp writes
  obtain ⟨digest, digested, -⟩ := bind_ok.mp writes
  apply Calm.catching
  apply (Calm.ofExcept encoded).bind
  apply (Calm.ofExcept made).bind
  apply (Calm.ofExcept whole).bind
  apply (Calm.replace _ _).bind
  apply (Calm.ofExcept digested).bind
  exact Calm.replace _ _

theorem finish_calm {p : Printer} {b : Bench} {d : Decided} {code : Int}
    (sealed_ : Calm (Attest.sealRun b.signer d.annotated.outDir d.result d.annotated.report.ledger
      d.annotated.identities d.evidence (.dict d.annotated.inputs.context)
      d.annotated.report.blocked) code) (writes : claimable p d = .ok ()) :
    Calm (finish p b d) code := by
  unfold finish
  have answered : Calm (sealDecision p b d) (.ok code) :=
    (sealed_.bind (Calm.pure (Except.ok code))).catching _ _
  apply answered.bind
  exact (emitDecisionClaim_calm writes).bind (Calm.pure code)

/-- An attestation is valid whatever its signature is. -/
theorem attestation_valid {s : Attest.Statement} (tag : Str)
    (decision : ∀ path, Schemacheck.validate Schemacheck.digest (.str s.decision) path = [])
    (bound : ∀ path, Schemacheck.validate Schemacheck.boundDigests s.bound path = [])
    (issued : ∀ sub, Dict.get? Schemacheck.attestation.properties "issued_at" = some sub →
      ∀ path, Schemacheck.validate sub s.issuedAt path = []) (path : Str) :
    Schemacheck.validate Schemacheck.attestation (.dict (Dict.set s.unsigned "signature" (.str tag)))
      path = [] := by
  refine Schemacheck.validate_object (fun _ => ⟨rfl, rfl, rfl⟩) rfl ?_ path
  intro key sub stated v found path
  simp only [Schemacheck.attestation, List.mem_cons, Prod.mk.injEq, List.not_mem_nil,
    or_false] at stated
  rcases stated with ⟨rfl, rfl⟩ | ⟨rfl, rfl⟩ | ⟨rfl, rfl⟩ | ⟨rfl, rfl⟩ | ⟨rfl, rfl⟩ | ⟨rfl, rfl⟩
  · cases found
    rfl
  · cases found
    exact decision path
  · cases found
    exact bound path
  · cases found
    rfl
  · cases found
    rfl
  · cases found
    exact issued _ rfl path

/-- Does a run have a result of which `check` holds, and end with `code`? -/
def Ends (p : Printer) (b : Bench) (check : Decided → Bool) (code : Int) :
    Except Exc (Except Halt Decided) × World → Bool
  | (.ok (.ok d), world) => check d && (finish p b d world).1.toOption = some code
  | _ => false

theorem ends_iff {p : Printer} {b : Bench} {check : Decided → Bool} {code : Int}
    {ran : Except Exc (Except Halt Decided) × World} :
    Ends p b check code ran = true ↔ ∃ d last, ran = (.ok (.ok d), last) ∧ check d = true ∧
      ∃ after, finish p b d last = (.ok code, after) := by
  unfold Ends
  split
  · rename_i d world
    rw [Bool.and_eq_true, decide_eq_true_iff]
    constructor
    · rintro ⟨holds, ends⟩
      refine ⟨d, world, rfl, holds, (finish p b d world).2, ?_⟩
      cases ran : finish p b d world with
      | mk answer after =>
          rw [ran] at ends
          cases answer with
          | error e => cases ends
          | ok found => rw [Option.some.inj ends]
    · rintro ⟨d', last, same, holds, after, ends⟩
      cases same
      rw [ends]
      exact ⟨holds, rfl⟩
  · rename_i other
    simp only [Bool.false_eq_true, false_iff, not_exists, not_and]
    rintro d last rfl
    exact absurd rfl (other d last)

/-! A signed run with inherited debt, under a context that names no baseline set. -/

deriving instance DecidableEq for Identities
deriving instance DecidableEq for Evaluate.Progress
deriving instance DecidableEq for Adoption.Report

namespace Pilot

def bundle : Value :=
  .dict [("advisory_escalation", .dict [("on_expiry", .str "block")]),
    ("api_version", .str Policy.bundleVersion), ("bundle_epoch", .int 1),
    ("stages", .dict [("max_advisory_age_days", .int 30)])]

def bundleDigest : Str :=
  "sha256:a5929fba20fb2eee2319735f2198f370b34838219074aac1c36a899680b844b8"

/-- The issuing of the context: a repository at stage 2, and no sets. -/
def call : Issue.Call where
  ctxDir := "/context"
  policyDir := "/policy"
  repo := "pilot"
  registryPath := "/registry.json"
  evaluationTime := "2026-07-01T00:00:00Z"

def stages : Value := .dict [("pilot", .dict [("owner", .str "central"), ("stage", .int 2)])]

def context : Value :=
  .dict (Issue.contextDoc call (.int 2)
    (.dict [("expected_digest", .str bundleDigest), ("min_bundle_epoch", .int 0),
      ("grandfathers", .list [])])
    ⟨none, none, none⟩
    [("issued_at", .str "2026-07-01T00:00:00Z"), ("issuer", .str "cp-stand-in")])

def package : Value :=
  .dict [("normative_inventory", .list [.dict [("digest", .str (Canon.digest .file [])),
      ("kind", .str "normative"), ("path", .str "s")]]),
    ("package_id", .str "p"), ("package_version", .str "1"),
    ("schema_version", .str Package.apiVersion)]

def imageDigest : Str := "sha256:" ++ List.replicate 64 (Chr.ofChar '0')

def assertion : Value :=
  .dict [("id", .str "release"), ("version", .int 1), ("requirement_refs", .list [.str "req-01"]),
    ("owner", .str "central"), ("requirement", .str "A release binds its payload."),
    ("subjects", .list [.dict [("kind", .str "file"), ("path", .str "release.json")]]),
    ("evaluator", .dict [("id", .str "devgate.builtin.release-claim-consistency"),
      ("digest", .str imageDigest)]),
    ("parameters", .dict []), ("severity", .str "high"), ("dependencies", .list []),
    ("finding_key", .list [.str "assertion_id"]), ("evidence", .dict [("retention_days", .int 30)])]

/-- The violation, as debt of the repository. -/
def debt : Value := Adoption.debtDoc ⟨"release", 1, "release.json", "selector-empty"⟩

def files : List (Path × Value) :=
  [(⟨true, ["context", "context.json"]⟩, context), (⟨true, ["openspec", "package.json"]⟩, package),
    (⟨true, ["openspec", "specs", "release.json"]⟩, assertion),
    (⟨true, ["policy", "policy.json"]⟩, bundle),
    (⟨true, ["policy", "baseline.json"]⟩, .list [debt]), (⟨true, ["registry.json"]⟩, stages)]

def read (p : Path) : Except Exc Bytes :=
  match files.find? (fun file => file.1 = p) with
  | some file => Canon.canon file.2
  | none => if p = ⟨true, ["openspec", "s"]⟩ then .ok [] else .error ⟨.osError, []⟩

def signerKey : Attest.EnvText :=
  ⟨"000102030405060708090a0b0c0d0e0f101112131415161718191a1b1c1d1e1f", rfl⟩

def bench : Bench where
  site := {
    tree := {
      resolve := fun p => .ok p
      exists_ := fun p => (read p).isOk
      isFile := fun p => (read p).isOk
      isDir := fun p => !(read p).isOk
      read
      isSymlink := fun _ => false
      lossy := fun _ => .error ⟨.osError, []⟩
      walked := fun p =>
        .dir (if p = ⟨true, ["openspec", "specs"]⟩ then [("release.json", .other)] else []) }
    fold := ⟨id, id⟩
    env := ⟨none, none⟩ }
  registry := "/profiles.json"
  image := some imageDigest
  signer := ⟨some signerKey, none, none⟩
  subject := ⟨"/subject", true, fun _ => .ok none, []⟩
  drift := fun _ => none

def input (root digest : Str) : Value :=
  .dict [("expected_digest", .str digest), ("root", .str root)]

/-- The request asks for a replay. -/
def request : Value :=
  .dict [("api_version", .str Schemacheck.requestVersion),
    ("context", input "/context"
      "sha256:2475bf1493256220c8ab288f6505f839edba94a42257d0c34d037f387ab467c4"),
    ("openspec", input "/openspec"
      "sha256:f91e09df080c8aaa95f056625185c99dfc4cf441488b6c14277c96656ef33ee1"),
    ("outputs", .str "/out"), ("policy", input "/policy" bundleDigest),
    ("repository", .dict [("advisory_started", .str "2026-01-01T00:00:00Z")]),
    ("semantics", .str "replay"),
    ("subject", input "/subject"
      "sha256:d4f4bfb8bd617148e35236a0ae0f854b26e7820d87950341619e55342767e4f6")]

def printer : Printer := ⟨fun _ => false, fun _ => []⟩

/-- A replay is asked for under a context of fresh promotion, and the debt is blocked by age. -/
def Reached (d : Decided) : Bool :=
  Dict.get? d.annotated.request "semantics" = some (.str "replay") ∧
    Dict.get? d.annotated.inputs.context "semantics" = some (.str "fresh-promotion") ∧
    d.annotated.report.findings.map Finding.reason = [some (Str.ofString "advisory-expired:existing-debt")]

/-! What the steps of the run answer. -/

def subjectDigest : Str :=
  "sha256:d4f4bfb8bd617148e35236a0ae0f854b26e7820d87950341619e55342767e4f6"

def packageDigest : Str :=
  "sha256:f91e09df080c8aaa95f056625185c99dfc4cf441488b6c14277c96656ef33ee1"

def contextDigest : Str :=
  "sha256:2475bf1493256220c8ab288f6505f839edba94a42257d0c34d037f387ab467c4"

def inputs : Inputs where
  subject :=
    .dict [("api_version", .str "devgate.spec-coherence.subject-manifest/v1"),
      ("subject_kind", .str "source-tree"), ("entries", .list []),
      ("subject_digest", .str subjectDigest)]
  package :=
    [("api_version", .str "devgate.openspec.package/v1"), ("package_id", .str "p"),
      ("package_version", .str "1"),
      ("normative_inventory", .list [.dict [
        ("digest", .str "sha256:53141d9dd2891299580e327a1272b53befa134a3e8e6ba346a1af421b8a5f82c"),
        ("kind", .str "normative"), ("path", .str "s")]]),
      ("imports", .list []), ("package_digest", .str packageDigest)]
  context :=
    [("api_version", .str "devgate.spec-coherence.context/v1"), ("baseline_set_digest", .null),
      ("capability_grants", .list []), ("captured_facts", .list []),
      ("context_id", .str "pilot-context"), ("evaluation_time", .str "2026-07-01T00:00:00Z"),
      ("exception_set_digest", .null), ("execution_profile", .str "linux-amd64-v1"),
      ("issuance", .dict [("issued_at", .str "2026-07-01T00:00:00Z"),
        ("issuer", .str "cp-stand-in")]),
      ("policy_binding", .dict [("expected_digest", .str bundleDigest), ("grandfathers", .list []),
        ("min_bundle_epoch", .int 0)]),
      ("semantics", .str "fresh-promotion"), ("signer_set_digest", .null), ("stage", .int 2),
      ("supported_runners", .list [.str "linux-amd64-v1"]), ("context_digest", .str contextDigest)]
  facts := []
  policy :=
    [("advisory_escalation", .dict [("on_expiry", .str "block")]),
      ("api_version", .str "devgate.spec-coherence.policy/v1"), ("bundle_epoch", .int 1),
      ("stages", .dict [("max_advisory_age_days", .int 30)]), ("policy_digest", .str bundleDigest)]
  identities := ⟨some subjectDigest, some packageDigest, some bundleDigest, some contextDigest, none, none⟩

def planned : Assertion :=
  ⟨"release", 1, ["req-01"], [⟨.file, some "release.json", none, none, none⟩],
    ⟨"devgate.builtin.release-claim-consistency", imageDigest⟩, [], .high, [], 30⟩

def row : Evaluate.Row := ⟨"release", 1, .violated, none, .block⟩

def violation : Finding where
  assertionId := "release"
  findingKey := "release|release.json|selector-empty"
  violationClass := some (Str.ofString "selector-empty")
  outcome := .violated
  enforcement := .block
  severity := .high
  subjectLocations := ["release.json"]
  expected := ["release manifest"]
  observed := ["none in package"]

def annotated : Annotated where
  outDir := "/out"
  request := request.dict?.getD []
  inputs := inputs
  identities := { inputs.identities with
    evaluatorImage := some imageDigest
    platform := some (.dict [("index_digest", .null), ("manifest_digest", .null),
      ("profile", .str "linux-amd64-v1")]) }
  planned := [planned]
  progress := ⟨[row], [violation], [("release", .violated)], none⟩
  report :=
    { ledger := [row]
      findings := [{ violation with
        fingerprint := some (Str.ofString "release|v1|release.json|selector-empty")
        reason := some (Str.ofString "advisory-expired:existing-debt") }]
      blocked := true }

/-- The assertion, as the package has it. -/
def assertionRead : Value := Json.canonical assertion

theorem ok_of_toOption {ε α : Type} {x : Except ε α} {a : α} (answers : x.toOption = some a) :
    x = .ok a := by
  cases x with
  | error e => cases answers
  | ok b => rw [Option.some.inj answers]

/-- The run of the pilot is annotated. Each step is evaluated by itself. -/
theorem annotates : accept "/run" request = .ok (annotated.request, annotated.outDir) ∧
    annotate bench annotated.outDir annotated.request = .ok annotated := by
  have accepted : accept "/run" request = .ok (annotated.request, annotated.outDir) :=
    ok_of_toOption (by decide +kernel)
  have subject : resolveSubject bench.site annotated.outDir annotated.request {} =
      .ok (inputs.subject, { subject := some subjectDigest }) :=
    ok_of_toOption (by decide +kernel)
  have package_ : resolvePackage bench.site annotated.outDir annotated.request
      { subject := some subjectDigest } =
        .ok (inputs.package, { subject := some subjectDigest, openspec := some packageDigest }) :=
    ok_of_toOption (by decide +kernel)
  have context_ : resolveContext bench.site annotated.outDir annotated.request
      { subject := some subjectDigest, openspec := some packageDigest } =
        .ok (inputs.context, inputs.facts,
          ⟨some subjectDigest, some packageDigest, none, some contextDigest, none, none⟩) :=
    ok_of_toOption (by decide +kernel)
  have policy_ : resolvePolicy bench.site annotated.outDir annotated.request inputs.context
      ⟨some subjectDigest, some packageDigest, none, some contextDigest, none, none⟩ =
        .ok (inputs.policy, inputs.identities) :=
    ok_of_toOption (by decide +kernel)
  have evaluator : resolveEvaluator bench annotated.outDir inputs.context inputs.identities =
      .ok annotated.identities :=
    ok_of_toOption (by decide +kernel)
  have read : readAssertions bench annotated.outDir annotated.request annotated.identities =
      .ok [assertionRead] :=
    ok_of_toOption (by decide +kernel)
  have overlay : overlaid bench annotated.outDir annotated.request inputs.policy [assertionRead]
      annotated.identities = .ok [assertionRead] :=
    ok_of_toOption (by decide +kernel)
  have made : plan annotated.outDir inputs [assertionRead] annotated.identities =
      .ok annotated.planned :=
    ok_of_toOption (by decide +kernel)
  have went : evaluated bench annotated.outDir inputs annotated.planned annotated.identities =
      .ok annotated.progress :=
    ok_of_toOption (by decide +kernel)
  have climbed : adopted bench annotated.outDir annotated.request inputs annotated.planned
      annotated.progress annotated.identities = .ok annotated.report :=
    ok_of_toOption (by decide +kernel)
  exact ⟨accepted, annotate_of rfl (resolveInputs_of subject package_ context_ policy_) evaluator
    read overlay made went rfl climbed⟩

/-- Is there a result of which `check` holds, with all file operations done? -/
def Sealed (check : Decided → Bool) : Except Exc (Except Halt Decided) × World → Bool
  | (.ok (.ok d), world) => check d && world.fates.isEmpty
  | _ => false

/-- The result reads as FAIL, and can be written. -/
def Writable (d : Decided) : Bool :=
  Reached d && (Canon.canon d.result).isOk && (claimable printer d).isOk &&
    decide ((d.result.item "decision").toOption = some (.str "FAIL"))

theorem seals : Sealed Writable (payload printer bench annotated ⟨[], [], []⟩) = true := by
  decide +kernel

theorem sealed_ok {check : Decided → Bool} {ran : Except Exc (Except Halt Decided) × World}
    (holds : Sealed check ran = true) :
    ∃ d last, ran = (.ok (.ok d), last) ∧ check d = true ∧ last.fates = [] := by
  unfold Sealed at holds
  split at holds
  · rename_i d last
    rw [Bool.and_eq_true, List.isEmpty_iff] at holds
    exact ⟨d, last, rfl, holds.1, holds.2⟩
  · cases holds

theorem ok_of_isOk {ε α : Type} {x : Except ε α} (answers : x.isOk = true) : ∃ a, x = .ok a := by
  cases x with
  | error e => cases answers
  | ok a => exact ⟨a, rfl⟩

/-- What the pilot signs. -/
def statement (payload manifest : Bytes) : Attest.Statement where
  decision := Canon.digest .decision payload
  subject := .str subjectDigest
  openspec := .str packageDigest
  policy := .str bundleDigest
  context := .str contextDigest
  evaluatorImage := imageDigest
  evidence := Canon.digest .evidenceManifest manifest
  keyId := "signer-1"
  identity := "pilot-signer"
  issuedAt := .str "2026-07-01T00:00:00Z"

theorem bound_valid (payload manifest : Bytes) (path : Str) :
    Schemacheck.validate Schemacheck.boundDigests (statement payload manifest).bound path = [] := by
  have image : Schemacheck.digestPattern.re.fullmatch imageDigest = true := by decide +kernel
  refine Schemacheck.validate_object (fun _ => ⟨rfl, rfl, rfl⟩) rfl ?_ path
  intro key sub stated v found path
  simp only [Schemacheck.boundDigests, List.mem_cons, Prod.mk.injEq, List.not_mem_nil,
    or_false] at stated
  rcases stated with ⟨rfl, rfl⟩ | ⟨rfl, rfl⟩ | ⟨rfl, rfl⟩ | ⟨rfl, rfl⟩ | ⟨rfl, rfl⟩ | ⟨rfl, rfl⟩
  · cases found
    exact Schemacheck.validate_matching (by decide +kernel) path
  · cases found
    exact Schemacheck.validate_matching (by decide +kernel) path
  · cases found
    exact Schemacheck.validate_matching (by decide +kernel) path
  · cases found
    exact Schemacheck.validate_matching (by decide +kernel) path
  · cases found
    exact Schemacheck.validate_matching image path
  · cases found
    exact Schemacheck.validate_digest _ _ path

theorem signs (payload manifest : Bytes) : ∃ attestation bytes,
    Attest.sign bench.signer payload annotated.identities (Canon.digest .evidenceManifest manifest)
        (.str "2026-07-01T00:00:00Z") = .ok attestation ∧ Canon.canon attestation = .ok bytes := by
  have keyed : Attest.key bench.signer = .ok (some ((List.range 32).map UInt8.ofNat)) :=
    ok_of_toOption (by decide +kernel)
  have stated : Attest.statement bench.signer payload annotated.identities
      (Canon.digest .evidenceManifest manifest) (.str "2026-07-01T00:00:00Z") =
        .ok (statement payload manifest) := rfl
  obtain ⟨message, encoded⟩ : ∃ message,
      Canon.canon (.dict (statement payload manifest).unsigned) = .ok message :=
    ⟨_, Canon.canon_ok.mpr ⟨rfl, rfl⟩⟩
  have dated : Schemacheck.validDateTime "2026-07-01T00:00:00Z" = true := by decide +kernel
  have valid := attestation_valid (s := statement payload manifest)
    (Attest.signature ((List.range 32).map UInt8.ofNat) message)
    (Schemacheck.validate_digest _ _) (bound_valid payload manifest) (by
      intro sub found path
      cases found
      simp [statement, Schemacheck.validate, Schemacheck.valueErrors, Schemacheck.typeErrors,
        Schemacheck.TypeSpec.names, Schemacheck.isType, Value.isStr, Schemacheck.textErrors,
        Schemacheck.numberErrors, dated]) "$"
  refine ⟨.dict (Dict.set (statement payload manifest).unsigned "signature"
    (.str (Attest.signature ((List.range 32).map UInt8.ofNat) message))), _, ?_,
    Canon.canon_ok.mpr ⟨rfl, rfl⟩⟩
  unfold Attest.sign
  rw [keyed, ok_bind]
  dsimp only
  rw [stated, ok_bind, encoded, ok_bind]
  exact if_neg (not_not.mpr valid)

/-- The run of the pilot has its result, and ends with FAIL. -/
theorem ends : Ends printer bench Reached 20 (concluded printer bench "/run" request ⟨[], [], []⟩) = true := by
  obtain ⟨d, last, ran, writable, calm⟩ := sealed_ok seals
  obtain ⟨own, reports⟩ := payload_ok ran
  unfold Writable at writable
  rw [Bool.and_eq_true, Bool.and_eq_true, Bool.and_eq_true, decide_eq_true_iff] at writable
  obtain ⟨⟨⟨reached, encodes⟩, claims⟩, decided⟩ := writable
  obtain ⟨payload, encoded⟩ := ok_of_isOk encodes
  obtain ⟨_, claims⟩ := ok_of_isOk claims
  obtain ⟨refs, stage, evidence, -⟩ := reports.made
  obtain ⟨objects, manifest, -, -, -, digested, -⟩ := Evidence.sealFindings_ok evidence
  obtain ⟨attestation, bytes, signed, written⟩ := signs payload manifest
  rw [concluded_of annotates.1 annotates.2, ends_iff]
  refine ⟨d, last, ran, reached, ?_⟩
  have finishes : Calm (finish printer bench d) 20 := by
    apply finish_calm ?_ claims
    rw [own, digested]
    have staged : (Value.dict inputs.context).item "stage" = .ok (.int 2) := rfl
    have timed : (Value.dict inputs.context).item "evaluation_time" =
        .ok (.str "2026-07-01T00:00:00Z") := rfl
    have labelled : Attest.getOr (.dict inputs.context) "semantics" (.str "fresh-promotion") =
        .ok (.str "fresh-promotion") := rfl
    exact sealRun_calm staged labelled encoded rfl timed signed written (ok_of_toOption decided)
      (Canon.canon_ok.mpr ⟨rfl, rfl⟩)
  obtain ⟨after, finished, -⟩ := finishes last calm
  exact ⟨after, finished⟩

theorem loaded : (do Json.loadText (← Canon.canon request)) = .ok request := by
  decide +kernel

/-- The run of the pilot ends with FAIL. -/
theorem ran : ∃ last, run printer bench "/run" (Canon.canon request) ⟨[], [], []⟩ = (.ok 20, last) := by
  obtain ⟨d, after, concludes, -, last, finishes⟩ := ends_iff.mp ends
  refine ⟨last, ?_⟩
  rw [run_of_loaded loaded]
  exact Act.bind_ok.mpr ⟨_, _, concludes, finishes⟩

end Pilot

end DevGate.Run
