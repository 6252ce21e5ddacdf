import DevGate.Coherence.AttestSeal
import DevGate.Coherence.RunWrites

set_option autoImplicit false

/- The exit code of a run, and the artifacts it leaves: the last result, the envelope, and what is
attested. -/
namespace DevGate

open Py Canon

namespace Result

theorem leaves_emitWithFallback (outDir : Str) (payload : Bytes) :
    Act.Leaves (fun answer new => ∀ dir, answer = .ok dir → Act.lastNamed "result.json" new = some payload)
      (emitWithFallback outDir payload) := by
  have each : ∀ new : List (Path × Bytes),
      (∀ write ∈ new, Named ["result.json"] write ∧ write.2 = payload) →
        ∀ write ∈ new, write.1.name = Str.ofString "result.json" ∧ write.2 = payload :=
    fun new fits write inside => ⟨List.mem_singleton.mp (fits write inside).1, (fits write inside).2⟩
  have wrote : ∀ dir : Str, Act.Leaves
      (fun (answer : Except Exc Str) new => ∀ place, answer = .ok place → new ≠ [])
      (do emit (Path.ofStr (dir ++ "/result.json")) payload; return dir) := by
    intro dir
    refine (Act.leaves_replace _ _).bind (fun _ _ _ _ => nofun) (fun _ new done => ?_)
    refine Act.Leaves.pure (fun _ _ => ?_)
    rcases done with rfl | ⟨-, e, failed⟩
    · exact List.cons_ne_nil _ _
    · cases failed
  have some_ : Act.Leaves (fun answer new => ∀ place, answer = .ok place → new ≠ [])
      (emitWithFallback outDir payload) := by
    refine (wrote outDir).catching (fun _ _ kept => kept) (fun _ _ _ _ _ => nofun) (fun _ new _ _ => ?_)
    refine Act.leaves_mkdtemp.bind (fun _ _ _ _ => nofun) (fun fallback _ _ => ?_)
    refine (wrote fallback).mono (fun _ _ kept place answered => ?_)
    intro nothing
    exact kept place answered (List.append_eq_nil_iff.mp (List.append_eq_nil_iff.mp nothing).2).2
  refine (some_.and (writes_emitWithFallback outDir payload)).mono (fun _ new both dir answered => ?_)
  exact Act.lastNamed_of_forall (each new both.2) (both.1 dir answered)

/-- An error class of the decision matrix. -/
def Classed (errorClass : Str) : Prop := errorClass ∈ exitMap.map Prod.fst

instance (errorClass : Str) : Decidable (Classed errorClass) := by
  unfold Classed
  infer_instance

theorem classed_input : Classed "invalid-input" := by decide

theorem classed_policy : Classed "policy-resolution" := by decide

theorem classed_execution : Classed "execution" := by decide

theorem classed_protocol : Classed "protocol" := by decide

/-- `_fail` answers the code of the class, and its envelope is the last result. -/
theorem leaves_fail (p : Printer) (outDir errorClass : Str) (reason : Text) (stage : Str)
    (ids : Identities) (ledger : Option (List Evaluate.Row)) :
    Act.Leaves
      (fun answer new => (∀ write ∈ new, Named ["result.json"] write) ∧ ∀ code, answer = .ok code →
        ∃ payload, canon (errorEnvelope p errorClass (p.render reason) stage ids ledger) = .ok payload ∧
          Act.lastNamed "result.json" new = some payload ∧
          code = (decide [] 0 (some errorClass) none).2)
      (fail p outDir errorClass reason stage ids ledger) := by
  refine Act.Leaves.and (writes_fail p outDir errorClass reason stage ids ledger) ?_
  refine Act.Leaves.after (fun _ _ _ => nofun) (fun payload encoded => ?_)
  refine (leaves_emitWithFallback outDir payload).bind (fun _ _ _ _ => nofun) (fun dir new kept => ?_)
  refine Act.Leaves.pure (fun code answered => ?_)
  cases answered
  exact ⟨payload, encoded, by rw [List.append_nil]; exact kept dir rfl, rfl⟩

end Result

/-- What a reader of the bytes finds under a key. -/
def Shows (bytes : Bytes) (key : Str) (v : Value) : Prop :=
  ∃ doc, Json.loadText bytes = .ok doc ∧ doc.get key = .ok (some v)

/-- An object is read with the fields it was written with. -/
theorem shows_of_canon {kvs : List (Str × Value)} {bytes : Bytes} (encoded : canon (.dict kvs) = .ok bytes)
    (distinct : (kvs.map Prod.fst).Nodup) (tidy : ∀ kv ∈ kvs, Json.Tidy kv.1) {key : Str} {v : Value}
    (held : Dict.get? kvs key = some v) : Shows bytes key (Json.decoded v) := by
  obtain ⟨own, shape, looked⟩ := Json.get?_decoded distinct tidy key
  refine ⟨_, loadText_canon encoded, ?_⟩
  rw [shape, Value.get_dict, looked, held]
  rfl

namespace Attest

/-- The envelope of a sealed run, as it is read. -/
theorem shows_envelope {decision : Value} {code : Int} {stage semantics : Value}
    {needed signed : Bool} {attestationPath : Value} {bytes : Bytes}
    (encoded : canon (envelope decision code stage semantics needed signed attestationPath) = .ok bytes) :
    Shows bytes "decision" (Json.decoded decision) ∧ Shows bytes "exit_code" (.int code) := by
  let keys : List Str := ["api_version", "decision", "exit_code", "stage", "semantics",
    "attestation_required", "signed", "artifacts"]
  have distinct : keys.Nodup := by decide
  have tidy : ∀ key ∈ keys, Json.Tidy key := by
    have plain : ∀ key ∈ keys, key.all (fun c => 0x20 ≤ c.val && c.val ≤ 0x7e) = true := by decide
    exact fun key listed => (Json.printable_of_all (plain key listed)).tidy
  unfold envelope at encoded
  have shows := @shows_of_canon _ _ encoded distinct (fun kv inside => tidy _ (List.mem_map_of_mem inside))
  exact ⟨@shows "decision" decision rfl, @shows "exit_code" (.int code) rfl⟩

/-- A sealed run answers the exit code of its ledger, with the result and its envelope last. -/
structure Answered (res : Value) (ledger : List Evaluate.Row) (stage : Value) (blocked : Bool) (code : Int)
    (new : List (Path × Bytes)) : Prop where
  matrix : code = (Result.decide ledger ((integral? stage).getD 0) none (some blocked)).2
  result : ∃ payload, canon res = .ok payload ∧ Act.lastNamed "result.json" new = some payload
  envelope : ∃ decision bytes, res.item "decision" = .ok decision ∧
    Act.lastNamed "run-envelope.json" new = some bytes ∧
    Shows bytes "decision" (Json.decoded decision) ∧ Shows bytes "exit_code" (.int code)

/-- The bytes are an attestation of a decision. -/
def Signed (env : SignerEnv) (ids : Result.Identities) (decision bytes : Bytes) : Prop :=
  ∃ evidence time attestation, sign env decision ids evidence time = .ok attestation ∧
    canon attestation = .ok bytes

/-- The stage and the semantics of the context need an attestation. -/
def Needed (ctx : Value) : Prop :=
  ∃ stage semantics, ctx.item "stage" = .ok stage ∧
    getOr ctx "semantics" (.str "fresh-promotion") = .ok semantics ∧ required stage semantics = .ok true

/-- A file of a sealed run: an attestation is one of the canonical result, where one is needed. -/
structure OfSeal (env : SignerEnv) (ids : Result.Identities) (res ctx : Value) (write : Path × Bytes) :
    Prop where
  named : Named runFiles write
  attested : write.1.name = Str.ofString "attestation.json" →
    Needed ctx ∧ ∃ payload, canon res = .ok payload ∧ Signed env ids payload write.2

/-- Only the attestation has to be accounted for. -/
theorem OfSeal.of_named {env : SignerEnv} {ids : Result.Identities} {res ctx : Value} {name : Str}
    (listed : name ∈ runFiles) (other : name ≠ "attestation.json") {write : Path × Bytes}
    (named : Named [name] write) : OfSeal env ids res ctx write := by
  have same := List.mem_singleton.mp named
  refine ⟨?_, fun is => ?_⟩
  · unfold Named
    rw [same]
    exact listed
  · rw [same] at is
    exact absurd is other

section

variable (env : SignerEnv) (outDir : Str) (res : Value) (ledger : List Evaluate.Row)
  (ids : Result.Identities) (evidenceDigest : Str) (ctx : Value) (blocked : Bool)

theorem writes_sealRun :
    Act.Writes (OfSeal env ids res ctx) (sealRun env outDir res ledger ids evidenceDigest ctx blocked) := by
  unfold sealRun
  refine Act.Writes.after (fun stage staged => Act.Writes.after (fun semantics labelled =>
    Act.Writes.after (fun payload encoded => ?_)))
  refine Act.Writes.bind ?_ (fun _ => Act.Writes.after (fun signed asked => ?_))
  · exact (writes_emitWithFallback outDir payload).mono (fun write wrote =>
      OfSeal.of_named (by decide) (by decide) wrote.1)
  have enveloped : ∀ place : Value, Act.Writes (OfSeal env ids res ctx) (do
      let decision ← Act.ofExcept (res.item "decision")
      emitEnvelope outDir decision
        (Result.decide ledger ((integral? stage).getD 0) none (some blocked)).2 stage semantics signed place
      return (Result.decide ledger ((integral? stage).getD 0) none (some blocked)).2) := by
    intro place
    refine Act.Writes.after (fun decision _ => Act.Writes.bind ?_ (fun _ => Act.Writes.pure _))
    exact (writes_emitEnvelope _ _ _ _ _ _ _).mono (fun write named =>
      OfSeal.of_named (by decide) (by decide) named)
  cases signed with
  | false => exact enveloped _
  | true =>
      refine Act.Writes.after (fun time timed => Act.Writes.bind ?_ (fun _ => enveloped _))
      refine Act.Writes.after (fun attestation made => Act.Writes.after (fun bytes written => ?_))
      refine writes_orAttestationError (Act.Writes.replace ⟨?_, fun _ => ?_⟩)
      · have named : Named ["attestation.json"] (Path.ofStr (outDir ++ "/attestation.json"), bytes) :=
          named_file outDir List.mem_cons_self (by decide) bytes
        exact named.mono (by simp [runFiles])
      · exact ⟨⟨stage, semantics, staged, labelled, asked⟩, payload, encoded, evidenceDigest, time,
          attestation, made, written⟩

theorem leaves_emitEnvelope (decision : Value) (code : Int) (stage semantics : Value) (signed : Bool)
    (place : Value) :
    Act.Leaves
      (fun answer new => answer = .ok () → ∃ bytes, Act.lastNamed "run-envelope.json" new = some bytes ∧
        Shows bytes "decision" (Json.decoded decision) ∧ Shows bytes "exit_code" (.int code))
      (emitEnvelope outDir decision code stage semantics signed place) := by
  refine Act.Leaves.after (fun _ _ => nofun) (fun needed _ =>
    Act.Leaves.after (fun _ _ => nofun) (fun bytes encoded => ?_))
  have shown := shows_envelope encoded
  have name : (Path.ofStr (outDir ++ "/run-envelope.json")).name = "run-envelope.json" :=
    Path.name_ofStr_append outDir (by decide)
  refine Act.Leaves.catching (Act.leaves_replace _ _) (fun _ new wrote _ => ?_) (fun _ _ _ _ => nofun)
    (fun _ _ _ _ => Act.Leaves.raise nofun)
  rcases wrote with rfl | ⟨-, e, failed⟩
  · refine ⟨bytes, Act.lastNamed_of_forall (fun write inside => ?_) (List.cons_ne_nil _ _), shown⟩
    rw [List.mem_singleton.mp inside]
    exact ⟨name, rfl⟩
  · cases failed

theorem leaves_sealRun {stage : Value} (staged : ctx.item "stage" = .ok stage) :
    Act.Leaves (fun answer new => ∀ code, answer = .ok code → Answered res ledger stage blocked code new)
      (sealRun env outDir res ledger ids evidenceDigest ctx blocked) := by
  unfold sealRun
  refine Act.Leaves.after (fun _ _ _ => nofun) (fun stage' same => ?_)
  rw [staged] at same
  cases same
  refine Act.Leaves.after (fun _ _ _ => nofun) (fun semantics _ =>
    Act.Leaves.after (fun _ _ _ => nofun) (fun payload encoded => ?_))
  refine Act.Leaves.bind (Result.leaves_emitWithFallback outDir payload) (fun _ _ _ _ => nofun)
    (fun place first kept => Act.Leaves.after (fun _ _ _ => nofun) (fun signed _ => ?_))
  have result := kept place rfl
  -- what follows the result: the attestation, if there is one, then the envelope
  have follows : ∀ (place : Value) (second : List (Path × Bytes)),
      (∀ write ∈ second, Named ["attestation.json"] write) →
      Act.Leaves (fun answer more => ∀ code, answer = .ok code →
          Answered res ledger stage blocked code (first ++ (second ++ more)))
        (do
          let decision ← Act.ofExcept (res.item "decision")
          emitEnvelope outDir decision
            (Result.decide ledger ((integral? stage).getD 0) none (some blocked)).2 stage semantics signed place
          return (Result.decide ledger ((integral? stage).getD 0) none (some blocked)).2) := by
    intro place second attested
    refine Act.Leaves.after (fun _ _ _ => nofun) (fun decision decided => ?_)
    refine Act.Leaves.bind ((leaves_emitEnvelope _ _ _ _ _ _ _).and (writes_emitEnvelope _ _ _ _ _ _ _))
      (fun _ _ _ _ => nofun) (fun _ third wrote => Act.Leaves.pure (fun code answered => ?_))
    cases answered
    obtain ⟨bytes, last, shown⟩ := wrote.1 rfl
    have later : Act.lastNamed "result.json" (second ++ (third ++ [])) = none := by
      apply Act.lastNamed_aside
      intro write inside
      rw [List.append_nil] at inside
      rcases List.mem_append.mp inside with inside | inside
      · rw [List.mem_singleton.mp (attested write inside)]
        decide
      · rw [List.mem_singleton.mp (wrote.2 write inside)]
        decide
    refine ⟨rfl, ⟨payload, encoded, ?_⟩, decision, bytes, decided, ?_, shown⟩
    · rw [Act.lastNamed_append, later, result]
      rfl
    · rw [List.append_nil, ← List.append_assoc, Act.lastNamed_append, last]
      rfl
  cases signed with
  | false => exact (follows .null [] nofun)
  | true =>
      refine Act.Leaves.after (fun _ _ _ => nofun) (fun time _ => ?_)
      refine Act.Leaves.bind (writes_emitAttestation env outDir payload ids evidenceDigest time)
        (fun _ _ _ _ => nofun) (fun _ second attested => ?_)
      exact follows _ second attested

end

/-- An attestation binds a subject. -/
theorem bound_subject {env : SignerEnv} {ids : Result.Identities} {decision bytes : Bytes}
    (signed : Signed env ids decision bytes) : ∃ attestation bound text,
      Json.loadText bytes = .ok attestation ∧ attestation.get "bound" = .ok (some bound) ∧
        bound.get "subject_digest" = .ok (some (.str text)) := by
  obtain ⟨evidence, time, attestation, made, encoded⟩ := signed
  obtain ⟨k, s, message, -, stated, -, rfl, -⟩ := sign_ok made
  obtain ⟨subject, -, same⟩ := need_ok.mp (statement_ok stated).subject
  have plain : ((s.signed (signature k message)).map Prod.fst ++ boundKeys).all
      (fun key => key.all (fun c => 0x20 ≤ c.val && c.val ≤ 0x7e)) = true := rfl
  have tidy : ∀ key ∈ (s.signed (signature k message)).map Prod.fst ++ boundKeys, Json.Tidy key :=
    fun key listed => (Json.printable_of_all (List.all_eq_true.mp plain key listed)).tidy
  obtain ⟨bound, shape, looked⟩ := Json.get?_decoded (bound_distinct s)
    (fun kv inside => tidy kv.1 (List.mem_append_right _ (key_mem_bound inside))) "subject_digest"
  obtain ⟨doc, read, held⟩ := shows_of_canon encoded (signed_distinct s _)
    (fun kv inside => tidy kv.1 (List.mem_append_left _ (List.mem_map_of_mem inside)))
    (show Dict.get? (s.signed (signature k message)) "bound" = some (.dict s.boundPairs) from rfl)
  have found : Dict.get? s.boundPairs "subject_digest" = some (.str subject) := by
    rw [← same]
    rfl
  refine ⟨doc, .dict bound, Json.merge subject, read, by rw [held, shape], ?_⟩
  rw [Value.get_dict, looked, found]
  rfl

theorem errorEnvelope_keys (p : Printer) (errorClass reason stage : Str) (ids : Result.Identities)
    (ledger : Option (List Evaluate.Row)) : ∃ kvs,
      Result.errorEnvelope p errorClass reason stage ids ledger = .dict kvs ∧
        (kvs.map Prod.fst = ["api_version", "decision", "error", "identities"] ∨
          kvs.map Prod.fst = ["api_version", "decision", "error", "identities", "assertion_results"]) ∧
        Dict.get? kvs "decision" = some (.str "ERROR") ∧
        Dict.get? kvs "error" = some (.dict [("class", .str errorClass), ("reason", .str reason),
          ("stage", .str stage)]) ∧ Dict.get? kvs "subject_digest" = none := by
  cases ledger with
  | none => exact ⟨_, rfl, Or.inl rfl, rfl, rfl, rfl⟩
  | some rows => exact ⟨_, rfl, Or.inr rfl, rfl, rfl, rfl⟩

/-- The envelope of an error, as it is read. -/
theorem read_errorEnvelope {p : Printer} {errorClass reason stage : Str} {ids : Result.Identities}
    {ledger : Option (List Evaluate.Row)} {payload : Bytes}
    (encoded : canon (Result.errorEnvelope p errorClass reason stage ids ledger) = .ok payload) :
    ∃ kvs, (∀ key, (Json.decoded (.dict kvs)).get key = .ok ((Dict.get? kvs key).map Json.decoded)) ∧
      canon (.dict kvs) = .ok payload ∧ Dict.get? kvs "decision" = some (.str "ERROR") ∧
      Dict.get? kvs "error" = some (.dict [("class", .str errorClass), ("reason", .str reason),
        ("stage", .str stage)]) ∧ Dict.get? kvs "subject_digest" = none := by
  obtain ⟨kvs, shape, keys, decision, error, subject⟩ :=
    errorEnvelope_keys p errorClass reason stage ids ledger
  have distinct : (kvs.map Prod.fst).Nodup := by
    rcases keys with same | same <;> rw [same] <;> decide
  have plain : (kvs.map Prod.fst).all (fun key => key.all (fun c => 0x20 ≤ c.val && c.val ≤ 0x7e)) = true := by
    rcases keys with same | same <;> rw [same] <;> decide
  rw [shape] at encoded
  refine ⟨kvs, fun key => ?_, encoded, decision, error, subject⟩
  obtain ⟨own, same, looked⟩ := Json.get?_decoded distinct (fun kv inside =>
    (Json.printable_of_all (List.all_eq_true.mp plain kv.1 (List.mem_map_of_mem inside))).tidy) key
  rw [same, Value.get_dict, looked]

/-- No attestation of any run vouches for the envelope of an error. -/
theorem not_verified {p : Printer} {errorClass reason stage : Str} {ids ids' : Result.Identities}
    {ledger : Option (List Evaluate.Row)} {payload decision bytes : Bytes} {env : SignerEnv}
    (encoded : canon (Result.errorEnvelope p errorClass reason stage ids ledger) = .ok payload)
    (signed : Signed env ids' decision bytes) (disk : Disk) (runDir : Str)
    (result : disk.read ((Path.ofStr runDir).join "result.json") = .ok payload)
    (attested : disk.read ((Path.ofStr runDir).join "attestation.json") = .ok bytes)
    (set : SignerSet) (why : Str) : verify disk runDir set ≠ .ok (true, why) := by
  intro accepted
  obtain ⟨attestation, entry, decision', bound, evidence, accepts⟩ := accepted_of_verify accepted
  obtain ⟨resultDoc, manifest, loaded⟩ := accepts.documents
  obtain ⟨-, shown, -⟩ := loadArtifacts_ok.mp loaded
  unfold document at shown
  rw [attested, ok_bind] at shown
  obtain ⟨doc, found, text, read, claimed, subject⟩ := bound_subject signed
  rw [shown] at read
  cases read
  have same := accepts.claimed
  rw [getOr_some claimed] at same
  cases same
  obtain ⟨kvs, fields, encoded', -, -, none_⟩ := read_errorEnvelope encoded
  obtain ⟨parsed, opened, agree⟩ := accepts.identities
  have given := accepts.result
  rw [result] at given
  cases given
  obtain ⟨passes, rfl⟩ := canon_ok.mp encoded'
  rw [Json.loadBytes_dumps (exact_of_check passes)] at opened
  cases opened
  rw [boundKeys, unbound, fields, none_, Option.map_none, ok_bind, subject, ok_bind] at agree
  rw [if_neg (by simp [Value.eq, Value.same, Value.num?])] at agree
  cases agree

end Attest

namespace Run

open Result (Classed classed_input classed_policy classed_execution classed_protocol)

/-- The refusal, if it is one, is of a class of the matrix. -/
def Stop.Classed : Stop → Prop
  | .refused r => Result.Classed r.errorClass
  | .raised _ => True

def Halt.Classed : Halt → Prop
  | .stopped s => s.Classed
  | .failed r _ => Result.Classed r.errorClass

theorem guarded_classed {α : Type} {classes : List ExcClass} {refusal : Text → Refusal}
    {x : Except Exc α} (known : ∀ text, Classed (refusal text).errorClass) :
    Fails Stop.Classed (guarded classes refusal x) := by
  unfold guarded
  split
  · exact Fails.ok
  · split
    · exact Fails.error (known _)
    · exact Fails.error trivial

theorem mapError_classed {α : Type} {x : Except Stop α} (known : Fails Stop.Classed x) :
    Fails Halt.Classed (x.mapError Halt.stopped) := by
  cases x with
  | error stop => exact Fails.error (known stop rfl)
  | ok a => exact Fails.ok

theorem accept_classed (parent : Str) (req : Value) : Fails Stop.Classed (accept parent req) := by
  unfold accept
  cases req with
  | dict kvs =>
      dsimp only
      split
      · exact (guarded_classed (fun _ => classed_input)).bind (fun _ _ => Fails.ok)
      · exact Fails.error classed_protocol
  | _ => exact Fails.error classed_input

theorem resolveInputs_classed (site : Site) (outDir : Str) (req : Dict Str Value) :
    Fails Stop.Classed (resolveInputs site outDir req) := by
  unfold resolveInputs resolveSubject resolvePackage resolveContext resolvePolicy
  refine Fails.bind ?_ (fun _ _ => Fails.bind ?_ (fun _ _ => Fails.bind ?_ (fun _ _ => Fails.bind ?_
    (fun _ _ => Fails.ok))))
  · exact (guarded_classed (fun _ => classed_input)).bind (fun _ _ =>
      (guarded_classed (fun _ => classed_input)).bind (fun _ _ => Fails.ok))
  · exact (guarded_classed (fun _ => classed_input)).bind (fun _ _ =>
      (guarded_classed (fun _ => classed_input)).bind (fun _ _ => Fails.ok))
  · exact (guarded_classed (fun _ => classed_policy)).bind (fun _ _ =>
      (guarded_classed (fun _ => classed_policy)).bind (fun _ _ => Fails.ok))
  · exact (guarded_classed (fun _ => classed_policy)).bind (fun _ _ => Fails.ok)

theorem annotate_classed (b : Bench) (outDir : Str) (req : Dict Str Value) :
    Fails Halt.Classed (annotate b outDir req) := by
  unfold annotate resolveEvaluator readAssertions overlaid plan evaluated adopted
  refine (mapError_classed (resolveInputs_classed _ _ _)).bind (fun inputs _ => ?_)
  refine Fails.bind (mapError_classed ?_) (fun ids _ => ?_)
  · split
    · exact Fails.error classed_input
    · exact (guarded_classed (fun _ => classed_input)).bind (fun _ _ => Fails.ok)
  refine (mapError_classed (guarded_classed (fun _ => classed_input))).bind (fun docs _ => ?_)
  refine (mapError_classed (guarded_classed (fun _ => classed_policy))).bind (fun under _ => ?_)
  refine (mapError_classed (guarded_classed (fun _ => classed_input))).bind (fun planned _ => ?_)
  refine (mapError_classed (guarded_classed (fun _ => classed_execution))).bind (fun progress _ => ?_)
  split
  · exact Fails.error classed_execution
  · exact (mapError_classed (guarded_classed (fun _ => classed_policy))).bind (fun _ _ => Fails.ok)

/-- The decision that an exit code stands for. -/
def decisionOf (code : Int) : Result.Decision :=
  if code = Result.exitPass then .pass
  else if code = Result.exitAdvisory then .advisory
  else if code = Result.exitFail then .fail
  else .error

def contractCodes : List Int :=
  [Result.exitPass, Result.exitAdvisory, Result.exitFail, Result.exitInvalidInput, Result.exitPolicy,
    Result.exitExecution, Result.exitEvidence, Result.exitProtocol]

/-- A result says what the exit code says; an error names a class that the matrix maps to it. -/
structure Verdict (code : Int) (result : Bytes) : Prop where
  decision : Shows result "decision" (.str (decisionOf code).name)
  classed : decisionOf code = .error → ∃ error errorClass, Shows result "error" error ∧
    error.get "class" = .ok (some (.str errorClass)) ∧ Classed errorClass ∧
    code = (Result.decide [] 0 (some errorClass) none).2

/-- The exit code and the artifacts that were written agree. -/
structure Agrees (code : Int) (new : List (Path × Bytes)) : Prop where
  contract : code ∈ contractCodes
  result : ∃ bytes, Act.lastNamed "result.json" new = some bytes ∧ Verdict code bytes
  envelope : code < Result.exitInvalidInput → ∃ bytes, Act.lastNamed "run-envelope.json" new = some bytes ∧
    Shows bytes "decision" (.str (decisionOf code).name) ∧ Shows bytes "exit_code" (.int code)
  /-- An attestation that was written vouches for no error, wherever the two stand together. -/
  unattested : Result.exitInvalidInput ≤ code → ∀ bytes, Act.lastNamed "result.json" new = some bytes →
    ∀ write ∈ new, write.1.name = Str.ofString "attestation.json" → ∀ (disk : Disk) (runDir : Str),
      disk.read ((Path.ofStr runDir).join "result.json") = .ok bytes →
      disk.read ((Path.ofStr runDir).join "attestation.json") = .ok write.2 →
      ∀ set why, Attest.verify disk runDir set ≠ .ok (true, why)

theorem Agrees.aside {code : Int} {front new back : List (Path × Bytes)} (agrees : Agrees code new)
    (before : ∀ write ∈ front, ¬ Named runFiles write) (after : ∀ write ∈ back, ¬ Named runFiles write) :
    Agrees code (front ++ (new ++ back)) := by
  have other : ∀ (name : Str) (log : List (Path × Bytes)), name ∈ runFiles →
      (∀ write ∈ log, ¬ Named runFiles write) → ∀ write ∈ log, write.1.name ≠ name := by
    intro name log listed aside write inside same
    apply aside write inside
    unfold Named
    rw [same]
    exact listed
  have kept : ∀ name : Str, name ∈ runFiles →
      Act.lastNamed name (front ++ (new ++ back)) = Act.lastNamed name new := by
    intro name listed
    rw [Act.lastNamed_append, Act.lastNamed_append, Act.lastNamed_aside (other name back listed after),
      Act.lastNamed_aside (other name front listed before), Option.none_or, Option.or_none]
  have result := kept "result.json" (by decide)
  have envelope := kept "run-envelope.json" (by decide)
  refine ⟨agrees.contract, ?_, ?_, ?_⟩
  · rw [result]
    exact agrees.result
  · rw [envelope]
    exact agrees.envelope
  · rw [result]
    intro error bytes last write inside name
    refine agrees.unattested error bytes last write ?_ name
    rcases List.mem_append.mp inside with inside | inside
    · exact absurd name (other _ front (by decide) before write inside)
    · exact (List.mem_append.mp inside).resolve_right
        (fun inside => other _ back (by decide) after write inside name)

/-- The codes of the classes are those of an error. -/
theorem classed_code {errorClass : Str} (known : Classed errorClass) :
    decisionOf (Result.decide [] 0 (some errorClass) none).2 = .error ∧
      Result.exitInvalidInput ≤ (Result.decide [] 0 (some errorClass) none).2 ∧
      (Result.decide [] 0 (some errorClass) none).2 ∈ contractCodes := by
  have all : ∀ name ∈ Result.exitMap.map Prod.fst,
      decisionOf (Result.decide [] 0 (some name) none).2 = .error ∧
        Result.exitInvalidInput ≤ (Result.decide [] 0 (some name) none).2 ∧
        (Result.decide [] 0 (some name) none).2 ∈ contractCodes := by decide
  exact all errorClass known

/-- The codes of the ladder are those of its decisions. -/
theorem ladder_code (ledger : List Evaluate.Row) (stage : Int) (blocked : Bool) :
    decisionOf (Result.decide ledger stage none (some blocked)).2 =
        (Result.decide ledger stage none (some blocked)).1 ∧
      (Result.decide ledger stage none (some blocked)).2 < Result.exitInvalidInput ∧
      (Result.decide ledger stage none (some blocked)).2 ∈ contractCodes := by
  unfold Result.decide
  dsimp only [Option.getD_some]
  cases blocked with
  | true =>
      rw [if_pos rfl]
      decide
  | false =>
      rw [if_neg Bool.false_ne_true]
      split <;> decide

/-- An error that is answered stands in the last result, whatever was written before. -/
theorem agrees_of_failed {p : Printer} {errorClass reason stage : Str} {ids : Result.Identities}
    {ledger : Option (List Evaluate.Row)} {payload : Bytes} {front new : List (Path × Bytes)}
    (known : Classed errorClass)
    (encoded : canon (Result.errorEnvelope p errorClass reason stage ids ledger) = .ok payload)
    (last : Act.lastNamed "result.json" new = some payload)
    (attested : ∀ write ∈ front ++ new, write.1.name = Str.ofString "attestation.json" →
      ∃ env ids decision, Attest.Signed env ids decision write.2) :
    Agrees (Result.decide [] 0 (some errorClass) none).2 (front ++ new) := by
  obtain ⟨named, error, contract⟩ := classed_code known
  obtain ⟨kvs, fields, encoded', decision, detail, -⟩ := Attest.read_errorEnvelope encoded
  have read := loadText_canon encoded'
  have final : Act.lastNamed "result.json" (front ++ new) = some payload := by
    rw [Act.lastNamed_append, last]
    rfl
  refine ⟨contract, ⟨payload, final, ⟨?_, fun _ => ?_⟩⟩, fun below => ?_, ?_⟩
  · refine ⟨_, read, ?_⟩
    rw [fields, decision, named]
    rfl
  · have distinct : (["class", "reason", "stage"] : List Str).Nodup := by decide
    have plain : ∀ key ∈ (["class", "reason", "stage"] : List Str) ++ Result.exitMap.map Prod.fst,
        key.all (fun c => 0x20 ≤ c.val && c.val ≤ 0x7e) = true := by decide
    have tidy : ∀ key ∈ (["class", "reason", "stage"] : List Str) ++ Result.exitMap.map Prod.fst,
        Json.Tidy key := fun key listed => (Json.printable_of_all (plain key listed)).tidy
    obtain ⟨own, shape, looked⟩ := @Json.get?_decoded [("class", .str errorClass), ("reason", .str reason),
      ("stage", .str stage)] distinct (fun kv inside =>
        tidy kv.1 (List.mem_append_left _ (List.mem_map_of_mem inside))) "class"
    refine ⟨.dict own, errorClass, ⟨_, read, ?_⟩, ?_, known, rfl⟩
    · rw [fields, detail, Option.map_some, shape]
    · have same : Json.decoded (.str errorClass) = .str errorClass := by
        rw [Json.decoded, Json.merge_tidy (tidy errorClass (List.mem_append_right _ known))]
      rw [Value.get_dict, looked]
      exact congrArg (fun v => (Except.ok (some v) : Except Exc (Option Value))) same
  · omega
  · intro _ bytes same write inside name disk runDir result attestation set why
    rw [final] at same
    cases same
    obtain ⟨env, ids', decision', signed⟩ := attested write inside name
    exact Attest.not_verified encoded signed disk runDir result attestation set why

/-- What the files of a sealed run are to a run with its result. -/
abbrev Decided.Sealed (b : Bench) (d : Decided) : Path × Bytes → Prop :=
  Attest.OfSeal b.signer d.annotated.identities d.result (.dict d.annotated.inputs.context)

theorem leaves_answer (p : Printer) {halt : Halt} (known : halt.Classed) :
    Act.Leaves (fun answer new => ∀ code, answer = .ok code → Agrees code new) (answer p halt) := by
  have failed : ∀ (outDir errorClass : Str) (reason : Text) (stage : Str) (ids : Result.Identities)
      (ledger : Option (List Evaluate.Row)), Classed errorClass →
      Act.Leaves (fun answer new => ∀ code, answer = .ok code → Agrees code new)
        (Result.fail p outDir errorClass reason stage ids ledger) := by
    intro outDir errorClass reason stage ids ledger known
    refine (Result.leaves_fail p outDir errorClass reason stage ids ledger).mono (fun answer new wrote => ?_)
    intro code answered
    obtain ⟨payload, encoded, last, rfl⟩ := wrote.2 code answered
    have attested : ∀ write ∈ [] ++ new, write.1.name = Str.ofString "attestation.json" →
        ∃ env ids decision, Attest.Signed env ids decision write.2 := by
      intro write inside name
      have other := List.mem_singleton.mp (wrote.1 write inside)
      rw [name] at other
      exact absurd other (by decide)
    exact agrees_of_failed known encoded last attested
  cases halt with
  | stopped s =>
      cases s with
      | refused r => exact failed _ _ _ _ _ _ known
      | raised e => exact Act.Leaves.raise (fun _ => nofun)
  | failed r ledger => exact failed _ _ _ _ _ _ known

/-- A sealed run agrees with the code of its ladder. -/
theorem agrees_of_answered {p : Printer} {b : Bench} {parent : Str} {req : Value} {d : Decided}
    {world last : World} (run : Concluded p b parent req d world last) {stage : Value} {code : Int}
    {new : List (Path × Bytes)}
    (answered : Attest.Answered d.result d.annotated.report.ledger stage d.annotated.report.blocked code new) :
    Agrees code new := by
  obtain ⟨refs, number, -, -, built⟩ := run.built.made
  obtain ⟨kvs, same, fields⟩ := Attest.build_ok built
  obtain ⟨decided, below, contract⟩ := ladder_code d.annotated.report.ledger
    ((Attest.integral? stage).getD 0) d.annotated.report.blocked
  rw [← answered.matrix] at decided below contract
  have name : Dict.get? kvs "decision" = some (.str (decisionOf code).name) := by
    rw [fields.decision, decided]
    rfl
  have read : Json.decoded (.str (decisionOf code).name) = .str (decisionOf code).name := by
    cases decisionOf code <;> rfl
  obtain ⟨payload, encoded, result⟩ := answered.result
  obtain ⟨decision, bytes, held, envelope, shown⟩ := answered.envelope
  rw [same] at encoded held
  have stated : decision = .str (decisionOf code).name := by
    obtain ⟨own, shape, inside⟩ := Value.item_ok.mp held
    cases shape
    rw [name] at inside
    exact (Option.some.inj inside).symm
  refine ⟨contract, ⟨payload, result, ⟨_, loadText_canon encoded, ?_⟩, fun is => ?_⟩, fun _ => ?_, ?_⟩
  · rw [fields.get, name, Option.map_some, read]
  · have ladder : ∀ c ∈ contractCodes, c < Result.exitInvalidInput → decisionOf c ≠ .error := by decide
    exact absurd is (ladder code contract below)
  · rw [stated, read] at shown
    exact ⟨bytes, envelope, shown⟩
  · intro above
    omega

/-- The stage that the ladder was climbed under is the stage that is sealed. -/
theorem stageOf_item {ctx : Dict Str Value} {number : Int} (staged : stageOf ctx = .ok number) :
    ∃ stage, (Value.dict ctx).item "stage" = .ok stage := by
  obtain ⟨stage, held, -⟩ := bind_ok.mp staged
  exact ⟨stage, held⟩

/-- The code of a sealed run, or of the envelope in its place, agrees with what was written. -/
theorem leaves_sealDecision {p : Printer} {b : Bench} {parent : Str} {req : Value} {d : Decided}
    {world last : World} (run : Concluded p b parent req d world last) :
    Act.Leaves (fun answer new => ∀ outcome, answer = .ok outcome →
      ∀ code, outcome = .error code ∨ outcome = .ok code → Agrees code new) (sealDecision p b d) := by
  obtain ⟨refs, number, -, staged, -⟩ := run.built.made
  obtain ⟨stage, held⟩ := stageOf_item staged
  have tried : Act.Leaves
      (fun answer new => (∀ write ∈ new, d.Sealed b write) ∧ ∀ outcome : Except Int Int,
        answer = .ok outcome → ∀ code, outcome = .error code ∨ outcome = .ok code → Agrees code new)
      (do
        let code ← Attest.sealRun b.signer d.annotated.outDir d.result d.annotated.report.ledger
          d.annotated.identities d.evidence (.dict d.annotated.inputs.context) d.annotated.report.blocked
        return .ok code) := by
    refine Act.Leaves.bind (Act.Leaves.and (Attest.writes_sealRun _ _ _ _ _ _ _ _)
      (Attest.leaves_sealRun _ _ _ _ _ _ _ _ held)) (fun e new wrote => ⟨wrote.1, fun _ => nofun⟩)
      (fun code new wrote => Act.Leaves.pure ?_)
    rw [List.append_nil]
    refine ⟨wrote.1, fun outcome same found is => ?_⟩
    cases same
    rcases is with is | is
    · cases is
    · cases is
      exact agrees_of_answered run (wrote.2 code rfl)
  refine tried.catching (fun _ _ wrote => wrote.2) (fun _ _ _ _ _ => nofun) (fun e front wrote _ => ?_)
  refine Act.Leaves.bind (Result.leaves_fail p _ "attestation" e.msg "attestation" _ _)
    (fun _ _ _ _ => nofun) (fun code new failed => Act.Leaves.pure ?_)
  rw [List.append_nil]
  intro outcome same found is
  cases same
  rcases is with is | is
  · cases is
    obtain ⟨payload, encoded, last, rfl⟩ := failed.2 code rfl
    refine agrees_of_failed (by decide) encoded last (fun write inside name => ?_)
    rcases List.mem_append.mp inside with inside | inside
    · obtain ⟨-, payload, -, signed⟩ := (wrote.1 write inside).attested name
      exact ⟨_, _, _, signed⟩
    · have other := List.mem_singleton.mp (failed.1 write inside)
      rw [name] at other
      exact absurd other (by decide)
  · cases is

theorem leaves_finish {p : Printer} {b : Bench} {parent : Str} {req : Value} {d : Decided}
    {world last : World} (run : Concluded p b parent req d world last) :
    Act.Leaves (fun answer new => ∀ code, answer = .ok code → Agrees code new) (finish p b d) := by
  refine (leaves_sealDecision run).bind (fun _ _ _ _ => nofun) (fun outcome new agrees => ?_)
  cases outcome with
  | error code =>
      refine Act.Leaves.pure (fun found same => ?_)
      cases same
      rw [List.append_nil]
      exact agrees _ rfl code (Or.inl rfl)
  | ok code =>
      refine Act.Leaves.bind (writes_emitDecisionClaim p d) (fun _ _ _ _ => nofun)
        (fun _ back aside => Act.Leaves.pure (fun found same => ?_))
      cases same
      have kept := @Agrees.aside code [] new back (agrees _ rfl code (Or.inr rfl)) nofun aside
      rwa [List.nil_append, ← List.append_nil (new ++ back), List.append_assoc] at kept

theorem leaves_sealEvidence (p : Printer) (b : Bench) (a : Annotated) :
    Act.Leaves (fun answer new => (∀ write ∈ new, ¬ Named runFiles write) ∧
      ∀ halt, answer = .ok (.error halt) → halt.Classed) (sealEvidence p b a) := by
  have tried : Act.Leaves (fun answer new => (∀ write ∈ new, ¬ Named runFiles write) ∧
      ∀ halt : Halt, answer = .ok (.error halt) → halt.Classed)
      (do
        let made ← Evidence.sealFindings b.site.disk
          (a.report.findings.map (fun f => Result.findingDoc p ⟨f, []⟩)) a.outDir []
          (retentionDays a.planned)
        return .ok made : Act (Except Halt (List Str × Str))) := by
    refine Act.Leaves.bind (Evidence.writes_sealFindings _ _ _ _ _)
      (fun _ _ aside => ⟨aside, fun _ => nofun⟩) (fun made new aside => Act.Leaves.pure ?_)
    rw [List.append_nil]
    exact ⟨aside, fun _ => nofun⟩
  refine tried.catching (fun _ _ wrote => wrote) (fun _ _ wrote _ => ⟨wrote.1, fun _ => nofun⟩)
    (fun e new wrote _ => Act.Leaves.pure ?_)
  rw [List.append_nil]
  refine ⟨wrote.1, fun halt same => ?_⟩
  cases same
  exact show Classed "evidence" by decide

/-- Up to its result a run writes evidence only, and what stops it is of a class of the matrix. -/
theorem leaves_concluded (p : Printer) (b : Bench) (parent : Str) (req : Value) :
    Act.Leaves (fun answer new => (∀ write ∈ new, ¬ Named runFiles write) ∧
      ∀ halt, answer = .ok (.error halt) → halt.Classed) (concluded p b parent req) := by
  unfold concluded
  cases accepted : accept parent req with
  | error stop =>
      refine Act.Leaves.pure ⟨nofun, fun halt same => ?_⟩
      cases same
      exact accept_classed parent req stop accepted
  | ok found =>
      obtain ⟨kvs, outDir⟩ := found
      dsimp only
      cases went : annotate b outDir kvs with
      | error halt =>
          refine Act.Leaves.pure ⟨nofun, fun halt' same => ?_⟩
          cases same
          exact annotate_classed b outDir kvs halt went
      | ok a =>
          dsimp only
          have sealed_ := leaves_sealEvidence p b a
          unfold payload
          refine sealed_.bind (fun _ _ wrote => ⟨wrote.1, fun _ => nofun⟩) (fun outcome new wrote => ?_)
          cases outcome with
          | error halt =>
              refine Act.Leaves.pure ⟨?_, fun halt' same => ?_⟩
              · rw [List.append_nil]
                exact wrote.1
              · cases same
                exact wrote.2 halt rfl
          | ok made =>
              have nothing : ∀ (x : Except Exc (Except Halt Decided)), (∀ halt, x ≠ .ok (.error halt)) →
                  (∀ write ∈ new ++ [], ¬ Named runFiles write) ∧
                    ∀ halt, x = .ok (.error halt) → halt.Classed := by
                intro x none_
                rw [List.append_nil]
                exact ⟨wrote.1, fun halt same => absurd same (none_ halt)⟩
              refine Act.Leaves.after (fun e _ => nothing _ (fun _ => nofun)) (fun stage _ =>
                Act.Leaves.after (fun e _ => nothing _ (fun _ => nofun)) (fun res _ =>
                  Act.Leaves.pure (nothing _ (fun _ => nofun))))

/-- The exit code of a run, its last result and its envelope agree, and no attestation it wrote
vouches for an error. -/
theorem run_agrees {p : Printer} {b : Bench} {parent : Str} {file : Except Exc Bytes}
    {world last : World} {code : Int} (ran : run p b parent file world = (.ok code, last)) :
    ∃ new, last.log = world.log ++ new ∧ Agrees code new := by
  have leaves : Act.Leaves (fun answer new => ∀ code, answer = .ok code → Agrees code new)
      (run p b parent file) := by
    unfold run
    dsimp only
    split
    · rename_i stop stopped
      exact leaves_answer p ((guarded_classed (fun _ => classed_input)) stop stopped)
    · rename_i req _
      refine (leaves_concluded p b parent req).ran.bind (fun _ _ _ _ => nofun) (fun outcome front wrote => ?_)
      obtain ⟨⟨aside, known⟩, before, after, went⟩ := wrote
      have behind : ∀ {body : Act Int},
          Act.Leaves (fun answer new => ∀ code, answer = .ok code → Agrees code new) body →
          Act.Leaves (fun answer new => ∀ code, answer = .ok code → Agrees code (front ++ new)) body := by
        intro body leaves
        refine leaves.mono (fun answer new agrees code answered => ?_)
        have kept := @Agrees.aside code front new [] (agrees code answered) aside nofun
        rwa [List.append_nil] at kept
      cases outcome with
      | error halt => exact behind (leaves_answer p (known halt rfl))
      | ok d => exact behind (leaves_finish (concluded_ok went))
  obtain ⟨new, log, agrees⟩ := leaves.of ran
  exact ⟨new, log, agrees code rfl⟩

theorem run_agrees_pilot : ∃ last,
    run Pilot.printer Pilot.bench "/run" (Canon.canon Pilot.request) ⟨[], [], []⟩ = (.ok 20, last) ∧
      ∃ new, last.log = [] ++ new ∧ Agrees 20 new := by
  obtain ⟨last, ran⟩ := Pilot.ran
  exact ⟨last, ran, run_agrees ran⟩

/-- The write is an attestation of the canonical result of a run of the request, under a context
whose stage and semantics need one. -/
def Attests (p : Printer) (b : Bench) (parent : Str) (file : Except Exc Bytes) (bytes : Bytes) : Prop :=
  ∃ text req d before after payload, file = .ok text ∧ Json.loadText text = .ok req ∧
    concluded p b parent req before = (.ok (.ok d), after) ∧
    Attest.Needed (.dict d.annotated.inputs.context) ∧ canon d.result = .ok payload ∧
    Attest.Signed b.signer d.annotated.identities payload bytes

/-- However a run ends, what it attests is its own result. -/
theorem run_attests (p : Printer) (b : Bench) (parent : Str) (file : Except Exc Bytes)
    (world : World) : ∃ new, (run p b parent file world).2.log = world.log ++ new ∧
      ∀ write ∈ new, write.1.name = Str.ofString "attestation.json" → Attests p b parent file write.2 := by
  have other : ∀ write : Path × Bytes, Named ["result.json"] write →
      write.1.name = Str.ofString "attestation.json" → Attests p b parent file write.2 := by
    intro write named name
    have same := List.mem_singleton.mp named
    rw [name] at same
    exact absurd same (by decide)
  have aside : ∀ write : Path × Bytes, ¬ Named runFiles write →
      write.1.name = Str.ofString "attestation.json" → Attests p b parent file write.2 := by
    intro write unnamed name
    refine absurd ?_ unnamed
    unfold Named
    rw [name]
    decide
  have answered : ∀ halt, Act.Writes (fun write =>
      write.1.name = Str.ofString "attestation.json" → Attests p b parent file write.2) (answer p halt) := by
    intro halt
    cases halt with
    | stopped s =>
        cases s with
        | refused r => exact (Result.writes_fail p _ _ _ _ _ _).mono other
        | raised e => exact Act.Writes.raise e
    | failed r ledger => exact (Result.writes_fail p _ _ _ _ _ _).mono other
  have writes : Act.Writes (fun write =>
      write.1.name = Str.ofString "attestation.json" → Attests p b parent file write.2)
      (run p b parent file) := by
    unfold run
    dsimp only
    split
    · exact answered _
    · rename_i req loaded
      obtain ⟨text, opened, decoded⟩ := bind_ok.mp (guarded_ok.mp loaded)
      refine Act.Leaves.bind (leaves_concluded p b parent req).ran
        (fun e new wrote write inside => aside write (wrote.1.1 write inside))
        (fun outcome new wrote => ?_)
      refine Act.Writes.append ?_ (fun write inside => aside write (wrote.1.1 write inside))
      obtain ⟨-, before, after, went⟩ := wrote
      cases outcome with
      | error halt => exact answered halt
      | ok d =>
          have signed : ∀ write, d.Sealed b write → write.1.name = Str.ofString "attestation.json" →
              Attests p b parent file write.2 := by
            intro write sealed_ name
            obtain ⟨needed, payload, encoded, signed⟩ := sealed_.attested name
            exact ⟨text, req, d, before, after, payload, opened, decoded, went, needed, encoded, signed⟩
          refine Act.Writes.bind ?_ (fun outcome => ?_)
          · refine Act.Writes.catching ?_ (fun e => ?_)
            · exact ((Attest.writes_sealRun _ _ _ _ _ _ _ _).mono signed).bind (fun _ => Act.Writes.pure _)
            · exact ((Result.writes_fail p _ _ _ _ _ _).mono other).bind (fun _ => Act.Writes.pure _)
          · cases outcome with
            | error code => exact Act.Writes.pure _
            | ok code =>
                exact ((writes_emitDecisionClaim p d).mono aside).bind (fun _ => Act.Writes.pure _)
  exact writes world

end Run

end DevGate
