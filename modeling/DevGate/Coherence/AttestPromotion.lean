import DevGate.Coherence.AttestSeal

set_option autoImplicit false

/- What `verify_promotion` says of a run directory: which result it was signed for, and
not whether that result may be promoted. -/
namespace DevGate.Attest

open Py Canon
open Result (Identities need emit)

/-- A run whose stage and semantics need an attestation signed `message` under `k`, for
the decision that `result.build` gave it. -/
def SealsRun (k message decision : Bytes) : Prop :=
  ∃ (p : Printer) (env : SignerEnv) (ledger : List Evaluate.Row) (reported : List Result.Reported)
    (ids : Identities) (stageNo : Int) (stage semantics res time attestation : Value)
    (blocked : Bool) (evidenceDigest : Str),
    Result.build p ledger reported ids stageNo semantics evidenceDigest (some blocked) = .ok res ∧
      required stage semantics = .ok true ∧ canon res = .ok decision ∧ Json.Clean time ∧
      sign env decision ids evidenceDigest time = .ok attestation ∧ Presents attestation k message

/-- The keys of a set sign in `seal_run` only, and the decision digest does not collide. -/
def SealedOnly (disk : Disk) (out : Path) (set : SignerSet) : Prop :=
  ∀ presented entry k m bytes, document disk out "attestation.json" = .ok presented →
    disk.read (out.join "result.json") = .ok bytes → entry ∈ set.signers →
    fromhex? entry.key = some k → Presents presented k m →
    ∃ decision, SealsRun k m decision ∧
      Separates (preimage .decision bytes) (preimage .decision decision)

theorem presents_signed {s : Statement} {tag : Str} {k message : Bytes}
    (presents : Presents (.dict (s.signed tag)) k message) : canon (.dict s.unsigned) = .ok message := by
  obtain ⟨kvs, shape, encoded, -⟩ := presents
  cases shape
  rwa [erase_signed] at encoded

theorem decide_cases (ledger : List Evaluate.Row) (stage : Int) (blocked : Option Bool) :
    (Result.decide ledger stage none blocked).1 ∈ [Result.Decision.pass, .advisory, .fail] := by
  unfold Result.decide
  simp only
  split
  · simp
  split
  · simp
  · simp

theorem fresh_of_required {stage semantics : Value} (promoting : required stage semantics = .ok true) :
    semantics = .str "fresh-promotion" := by
  unfold required at promoting
  split at promoting
  · have both := Except.ok.inj promoting
    rw [Bool.and_eq_true] at both
    exact Value.eq_text.mp both.2
  · cases promoting

theorem verifyPromotion_ok {disk : Disk} {runDir candidate reason : Str} {set : SignerSet}
    (accepted : verifyPromotion disk runDir set candidate = .ok (true, reason)) :
    ∃ attestation bound why, verify disk runDir set = .ok (true, why) ∧
      document disk (Path.ofStr runDir) "attestation.json" = .ok attestation ∧
      getOr attestation "bound" (.dict []) = .ok bound ∧
      bound.get "subject_digest" = .ok (some (.str candidate)) := by
  unfold verifyPromotion at accepted
  obtain ⟨⟨fine, why⟩, verified, accepted⟩ := bind_ok.mp accepted
  cases fine with
  | false => cases accepted
  | true =>
      simp only [↓reduceIte] at accepted
      split at accepted
      · split at accepted <;> cases accepted
      · rename_i attestation read
        obtain ⟨bound, claimed, accepted⟩ := bind_ok.mp accepted
        obtain ⟨found, looked, accepted⟩ := bind_ok.mp accepted
        split at accepted
        · rename_i same
          cases accepted
          have subject := Value.eq_text.mp same
          cases found with
          | none => cases subject
          | some v =>
              rw [Option.getD_some] at subject
              rw [subject] at looked
              exact ⟨attestation, bound, why, verified, read, claimed, looked⟩
        · cases accepted

/-- A run directory that verifies for the promotion of a candidate holds a fresh-promotion
result for that candidate, which is no ERROR. Nothing is said of PASS: whether the decision
may be promoted is left to the consumer. -/
theorem promotion_is_for_the_candidate {disk : Disk} {runDir candidate reason : Str}
    {set : SignerSet} (sealedOnly : SealedOnly disk (Path.ofStr runDir) set)
    (accepted : verifyPromotion disk runDir set candidate = .ok (true, reason)) :
    ∃ bytes res outcome, disk.read ((Path.ofStr runDir).join "result.json") = .ok bytes ∧
      Json.loadBytes bytes = .ok res ∧
      res.get "semantics" = .ok (some (.str "fresh-promotion")) ∧
      res.get "subject_digest" = .ok (some (.str candidate)) ∧
      res.get "decision" = .ok (some (.str outcome.name)) ∧
      outcome ∈ [Result.Decision.pass, .advisory, .fail] := by
  obtain ⟨attestation, bound, why, verified, read, claimed, subject⟩ := verifyPromotion_ok accepted
  obtain ⟨presented, entry, bytes, bound', evidence, accepts⟩ := accepted_of_verify verified
  obtain ⟨resultDoc, manifest, loaded⟩ := accepts.documents
  obtain ⟨-, shown, -⟩ := loadArtifacts_ok.mp loaded
  rw [shown] at read
  cases read
  obtain ⟨_, -, text⟩ := bind_ok.mp shown
  have clean := Json.loadText_clean text
  obtain ⟨k, m, hex, presents⟩ := checkSignature_true.mp accepts.signature
  obtain ⟨decision, ⟨p, env, ledger, reported, ids, stageNo, stage, semantics, res, time, signed,
    blocked, evidenceDigest, built, promoting, encoded, timed, made, tagged⟩, separates⟩ :=
    sealedOnly _ entry k m bytes shown accepts.result (mem_of_checkSigner accepts.signer) hex
      presents
  obtain ⟨k', s, payload, keyed, stated, encodedMessage, rfl, valid⟩ := sign_ok made
  have message := presents_signed tagged
  rw [encodedMessage] at message
  cases message
  have of := statement_ok stated
  have plain := plain_of_signed of valid timed
  have same := same_of_presents plain encodedMessage clean presents
  have carries := carries_of_same plain clean same
  -- the bytes of the result are those the run signed
  have whole : bytes = decision := by
    obtain ⟨v, looked, agree⟩ := accepts.stated
    rw [getOr_some carries.decision] at looked
    cases looked
    rw [Value.eq_str, Value.str.injEq, of.decision] at agree
    exact digest_injective separates agree.symm
  rw [whole] at accepts
  obtain ⟨kvs, rfl, fields⟩ := build_ok built
  obtain ⟨passes, bytes_⟩ := canon_ok.mp encoded
  obtain ⟨v, lookedBound, bounds, -⟩ := carries.bound
  rw [getOr_some lookedBound] at claimed
  cases claimed
  have fresh := fresh_of_required promoting
  refine ⟨decision, Json.decoded (.dict kvs), _, accepts.result, ?_, ?_, ?_, ?_,
    decide_cases ledger stageNo (some blocked)⟩
  · rw [bytes_]
    exact Json.loadBytes_dumps (exact_of_check passes)
  · rw [fields.get, fields.semantics, fresh]
    rfl
  · rw [fields.stated of plain _ (by simp [boundKeys]), ← bounds, subject]
  · rw [fields.get, fields.decision, Option.map_some]
    cases (Result.decide ledger stageNo none (some blocked)).1 <;> rfl

/-- What `seal_run` signs is signed for the decision it was given. -/
theorem sealsRun_of_seals {p : Printer} {env : SignerEnv} {ledger : List Evaluate.Row}
    {reported : List Result.Reported} {ids : Identities} {stageNo : Int} {evidenceDigest : Str}
    (stage : Value) {semantics res time : Value} {blocked : Bool} {s : Statement} {k message decision : Bytes}
    (built : Result.build p ledger reported ids stageNo semantics evidenceDigest (some blocked) =
      .ok res)
    (promoting : required stage semantics = .ok true)
    (seals : Seals env ids evidenceDigest res time s k message decision) :
    SealsRun k message decision := by
  refine ⟨p, env, ledger, reported, ids, stageNo, stage, semantics, res, time, _, blocked,
    evidenceDigest, built, promoting, seals.encoded, seals.timed, seals.signed, _, rfl, ?_,
    Dict.get?_set_self _ _ _⟩
  rw [erase_signed]
  exact seals.encodedMessage

/-- In the directory of a run whose key is the only one of the set. -/
theorem sealedOnly_of_standing {disk : Disk} {out : Path} {s : Statement}
    {k message decision : Bytes} {objects : List Evidence.Sealed} {manifest : Bytes}
    {set : SignerSet} (standing : Standing disk out s k message decision objects manifest)
    (signs : Signs s k message decision objects manifest) (run : SealsRun k message decision)
    (keys : ∀ entry ∈ set.signers, ∀ k', fromhex? entry.key = some k' → k' = k) :
    SealedOnly disk out set := by
  have signed := standing.document signs
  obtain ⟨_, -, loaded⟩ := bind_ok.mp signed
  have original := presents_of_same signs.message (Json.loadText_clean loaded)
    (Json.canonical_canonical (.dict (s.signed (signature k message))))
  intro presented entry k' m bytes shown read listed hex presents
  rw [signed] at shown
  cases shown
  rw [standing.decision] at read
  cases read
  rw [keys entry listed k' hex] at presents ⊢
  obtain ⟨kvs, shape, first, -⟩ := presents
  obtain ⟨kvs', shape', second, -⟩ := original
  rw [shape] at shape'
  cases shape'
  rw [first] at second
  cases second
  exact ⟨_, run, fun _ => rfl⟩

/-! A blocked run. -/

/-- A sealed run verifies for the promotion of its own subject, whatever was decided. -/
theorem promotes_of_standing {disk : Disk} {runDir subject : Str} {s : Statement}
    {k message decision : Bytes} {objects : List Evidence.Sealed} {manifest : Bytes}
    {set : SignerSet}
    (standing : Standing disk (Path.ofStr runDir) s k message decision objects manifest)
    (signs : Signs s k message decision objects manifest) (named : s.subject = .str subject)
    (verified : verify disk runDir set = .ok (true, "ok")) :
    verifyPromotion disk runDir set subject = .ok (true, "ok") := by
  have signed := standing.document signs
  obtain ⟨_, -, loaded⟩ := bind_ok.mp signed
  have carries := carries_of_same signs.plain (Json.loadText_clean loaded)
    (Json.canonical_canonical (.dict (s.signed (signature k message))))
  obtain ⟨bound, lookedBound, bounds, -⟩ := carries.bound
  have subject_ : bound.get "subject_digest" = .ok (some (.str subject)) := by
    rw [bounds, ← named]
    rfl
  have same : Value.eq (.str subject) (.str subject) = true := by rw [Value.eq_str]
  unfold verifyPromotion
  simp only [verified, ok_bind, ↓reduceIte, signed, getOr_some lookedBound, subject_, Option.getD_some,
    same, pure_ok]

/-- A violation at Stage 2 that no baseline and no exception shelters. -/
def blockedFinding : Finding where
  assertionId := "a"
  findingKey := "a"
  violationClass := some "missing"
  outcome := .violated
  enforcement := .block
  severity := .high
  subjectLocations := ["x"]
  expected := ["y"]
  observed := ["z"]
  fingerprint := some (digest .policy [])

def blockedRow : Evaluate.Row := ⟨"a", 1, .violated, none, .block⟩

def blockedDocs : List Value := [Result.findingDoc asciiPrinter ⟨blockedFinding, []⟩]

def blockedObject : Evidence.Sealed where
  aid := "a"
  payload := Utf8.ascii (Json.dumps (.dict [("assertion_id", .str "a"), ("finding_key", .str "a"),
    ("subject_locations", .list [.str "x"]), ("expected", .str "y"), ("observed", .str "z")]))
  retentionClass := "standard"

theorem blocked_each : blockedDocs.mapM (Evidence.sealOne (Evidence.secrets []) []) =
    .ok [blockedObject] := by
  have sealed_ : Evidence.sealOne (Evidence.secrets []) []
      (Result.findingDoc asciiPrinter ⟨blockedFinding, []⟩) = .ok blockedObject := by
    apply Evidence.sealOne_of_scrubbed (.dict [("assertion_id", .str "a"),
      ("finding_key", .str "a"), ("subject_locations", .list [.str "x"]), ("expected", .str "y"),
      ("observed", .str "z")])
    · rfl
    · rfl
    · rfl
    · rfl
    · rfl
  unfold blockedDocs
  rw [List.mapM_cons, sealed_]
  rfl

theorem blocked_marks : Evidence.MarksSeparate (Evidence.secrets []) [] blockedDocs := by
  intro objects each o₁ first o₂ second _
  rw [blocked_each] at each
  cases each
  rw [List.mem_singleton.mp first, List.mem_singleton.mp second]

theorem blocked_stands : ∃ res last s k message decision objects manifest time,
    Result.build asciiPrinter [blockedRow] [⟨blockedFinding, [blockedObject.rel]⟩] pilotIds 2
        (.str "fresh-promotion") (pilotEvidence [blockedObject]) (some true) = .ok res ∧
      sealRun pilotEnv "/out" res [blockedRow] pilotIds (pilotEvidence [blockedObject]) pilotCtx true
        (pilotMiddle [blockedObject]) = (.ok 20, last) ∧
      Standing (Evidence.blank.after last.log) (Path.ofStr "/out") s k message decision objects
        manifest ∧
      Signs s k message decision objects manifest ∧
      Seals pilotEnv pilotIds (pilotEvidence [blockedObject]) res time s k message decision ∧
      verifyPromotion (Evidence.blank.after last.log) "/out" pilotSet (digest .file []) =
        .ok (true, "ok") := by
  obtain ⟨res, built⟩ : ∃ res, Result.build asciiPrinter [blockedRow]
      [⟨blockedFinding, [blockedObject.rel]⟩] pilotIds 2 (.str "fresh-promotion")
      (pilotEvidence [blockedObject]) (some true) = .ok res := ⟨_, rfl⟩
  have fits : check res = .ok () := by
    cases built
    rfl
  obtain ⟨last, ran⟩ := pilot_run built fits
  obtain ⟨s, k, message, decision, objects, manifest, time, standing, signs, seals, stated⟩ :=
    standing_of_sealed (Evidence.blank_linkless _) (by decide) blocked_marks
      (pilot_bundled blocked_each) rfl built clean_pilotCtx rfl rfl rfl ran
  have verified := verify_of_standing standing signs seals pilot_approves stated
  obtain ⟨_, known, subject⟩ := need_ok.mp seals.made.subject
  cases known
  exact ⟨res, last, s, k, message, decision, objects, manifest, time, built, ran, standing, signs, seals,
    promotes_of_standing standing signs subject verified⟩

/-- A Stage 2 run that fails is signed, and verifies for the promotion of its subject. -/
theorem failing_run_verifies_for_promotion : ∃ res last,
    Result.build asciiPrinter [blockedRow] [⟨blockedFinding, [blockedObject.rel]⟩] pilotIds 2
        (.str "fresh-promotion") (pilotEvidence [blockedObject]) (some true) = .ok res ∧
      sealRun pilotEnv "/out" res [blockedRow] pilotIds (pilotEvidence [blockedObject]) pilotCtx true
        (pilotMiddle [blockedObject]) = (.ok 20, last) ∧
      verifyPromotion (Evidence.blank.after last.log) "/out" pilotSet (digest .file []) =
        .ok (true, "ok") ∧
      res.get "decision" = .ok (some (.str "FAIL")) ∧
      ∃ bytes, canon res = .ok bytes ∧
        (Evidence.blank.after last.log).read ((Path.ofStr "/out").join "result.json") = .ok bytes := by
  obtain ⟨res, last, s, k, message, decision, objects, manifest, time, built, ran, standing, -, seals,
    promotes⟩ := blocked_stands
  obtain ⟨kvs, rfl, fields⟩ := build_ok built
  refine ⟨_, last, built, ran, promotes, ?_, decision, seals.encoded, standing.decision⟩
  rw [Value.get_dict, fields.decision]
  rfl

theorem pilot_keys : ∀ entry ∈ pilotSet.signers, ∀ k, fromhex? entry.key = some k → k = pilotBytes := by
  have hex : fromhex? pilotSigner.key = some pilotBytes := by decide +kernel
  intro entry listed k found
  rw [List.mem_singleton.mp listed, hex] at found
  exact (Option.some.inj found).symm

/-- What the failing run promotes is its own subject. -/
theorem failing_run_is_for_its_subject : ∃ last bytes res outcome,
    (Evidence.blank.after last).read ((Path.ofStr "/out").join "result.json") = .ok bytes ∧
      Json.loadBytes bytes = .ok res ∧
      res.get "semantics" = .ok (some (.str "fresh-promotion")) ∧
      res.get "subject_digest" = .ok (some (.str (digest .file []))) ∧
      res.get "decision" = .ok (some (.str (Result.Decision.name outcome))) ∧
      outcome ∈ [Result.Decision.pass, .advisory, .fail] := by
  obtain ⟨res, last, s, k, message, decision, objects, manifest, time, built, -, standing, signs, seals,
    promotes⟩ := blocked_stands
  have run := sealsRun_of_seals (.int 2) built rfl seals
  have keyed := seals.keyed
  rw [pilot_key] at keyed
  cases keyed
  exact ⟨last.log, promotion_is_for_the_candidate
    (sealedOnly_of_standing standing signs run pilot_keys) promotes⟩

end DevGate.Attest
