import DevGate.Coherence.Attest
import DevGate.Coherence.EvidenceSeal
import DevGate.Py.Utc

set_option autoImplicit false

/- A sealed run verifies, and a run that verifies is the sealed one. -/
namespace DevGate.Attest

open Py Canon
open Result (Identities need emit)

/-! What a run signs. -/

def Statement.boundPairs (s : Statement) : List (Str × Value) :=
  [("subject_digest", s.subject), ("openspec_digest", s.openspec), ("policy_digest", s.policy),
    ("context_digest", s.context), ("evaluator_image_digest", .str s.evaluatorImage),
    ("evidence_manifest_digest", .str s.evidence)]

def Statement.signerPairs (s : Statement) : List (Str × Value) :=
  [("key_id", .str s.keyId), ("identity", .str s.identity)]

/-- The attestation with its tag. -/
def Statement.signed (s : Statement) (tag : Str) : List (Str × Value) :=
  Dict.set s.unsigned "signature" (.str tag)

theorem sign_ok {env : SignerEnv} {decisionBytes : Bytes} {ids : Identities} {evidenceDigest : Str}
    {evaluationTime attestation : Value}
    (signed : sign env decisionBytes ids evidenceDigest evaluationTime = .ok attestation) :
    ∃ k s payload, key env = .ok (some k) ∧
      statement env decisionBytes ids evidenceDigest evaluationTime = .ok s ∧
      canon (.dict s.unsigned) = .ok payload ∧
      attestation = .dict (s.signed (signature k payload)) ∧
      Schemacheck.Accepts Schemacheck.attestation attestation := by
  unfold sign at signed
  obtain ⟨found, keyed, signed⟩ := bind_ok.mp signed
  cases found with
  | none => cases signed
  | some k =>
      obtain ⟨s, stated, signed⟩ := bind_ok.mp signed
      obtain ⟨payload, encoded, signed⟩ := bind_ok.mp signed
      obtain ⟨valid, signed⟩ := guard_ok.mp signed
      cases signed
      exact ⟨k, s, payload, keyed, stated, encoded, rfl, "$", not_not.mp valid⟩

theorem need_ok {key : Str} {s : Option Str} {v : Value} :
    need key s = .ok v ↔ ∃ text, s = some text ∧ v = .str text := by
  cases s <;> simp [need, eq_comm]

/-- The statement is made of the identities of the run. -/
structure Statement.Of (s : Statement) (env : SignerEnv) (decisionBytes : Bytes) (ids : Identities)
    (evidenceDigest : Str) (evaluationTime : Value) : Prop where
  decision : s.decision = digest .decision decisionBytes
  subject : need "subject_digest" ids.subject = .ok s.subject
  openspec : need "openspec_digest" ids.openspec = .ok s.openspec
  policy : need "policy_digest" ids.policy = .ok s.policy
  context : need "context_digest" ids.context = .ok s.context
  image : ids.evaluatorImage = some s.evaluatorImage
  evidence : s.evidence = evidenceDigest
  keyId : s.keyId = signerKeyId env
  identity : s.identity = signerIdentity env
  issuedAt : s.issuedAt = evaluationTime

theorem statement_ok {env : SignerEnv} {decisionBytes : Bytes} {ids : Identities}
    {evidenceDigest : Str} {evaluationTime : Value} {s : Statement}
    (stated : statement env decisionBytes ids evidenceDigest evaluationTime = .ok s) :
    s.Of env decisionBytes ids evidenceDigest evaluationTime := by
  unfold statement at stated
  split at stated
  · cases stated
  · rename_i image known
    obtain ⟨subject, first, stated⟩ := bind_ok.mp stated
    obtain ⟨openspec, second, stated⟩ := bind_ok.mp stated
    obtain ⟨policy, third, stated⟩ := bind_ok.mp stated
    obtain ⟨context, fourth, stated⟩ := bind_ok.mp stated
    cases stated
    exact ⟨rfl, first, second, third, fourth, known, rfl, rfl, rfl, rfl⟩

/-- Every text of a statement reads back as it was written. -/
structure Statement.Plain (s : Statement) : Prop where
  decision : Json.Tidy s.decision
  bound : ∀ kv ∈ s.boundPairs, ∃ text, kv.2 = .str text ∧ Json.Tidy text
  keyId : Json.Tidy s.keyId
  identity : Json.Tidy s.identity
  issuedAt : Json.Clean s.issuedAt

theorem tidy_literal (s : String)
    (all : (Str.ofString s).all (fun c => 0x20 ≤ c.val && c.val ≤ 0x7e) = true) : Json.Tidy s :=
  (Json.printable_of_all all).tidy

def digestChr (c : Chr) : Bool := 0x20 ≤ c.val && c.val ≤ 0x7e

theorem digestPattern_within : Schemacheck.digestPattern.re.Within digestChr :=
  ⟨Re.within_word (by decide), Re.within_times (Re.within_oneOf (by decide)) 64⟩

theorem tidy_of_digest {text : Str} (accepted : Schemacheck.Accepts Schemacheck.digest (.str text)) :
    Json.Tidy text := by
  apply Json.Printable.tidy
  intro c inside
  have matched := accepted.pattern (p := Schemacheck.digestPattern) rfl
  have range := Re.fullmatch_within digestPattern_within matched c inside
  simpa [digestChr] using range

theorem EnvText.tidy (t : EnvText) : Json.Tidy t.text := by
  apply Json.tidy_of_not_high
  intro c inside
  simpa using List.all_eq_true.mp t.decoded c inside

theorem tidy_signerKeyId (env : SignerEnv) : Json.Tidy (signerKeyId env) := by
  unfold signerKeyId
  cases env.keyId with
  | none => exact tidy_literal _ (by decide)
  | some t => exact t.tidy

theorem tidy_signerIdentity (env : SignerEnv) : Json.Tidy (signerIdentity env) := by
  unfold signerIdentity
  cases env.identity with
  | none => exact tidy_literal _ (by decide)
  | some t => exact t.tidy

theorem signed_distinct (s : Statement) (tag : Str) : ((s.signed tag).map Prod.fst).Nodup := by
  have keys : (s.signed tag).map Prod.fst = (["api_version", "statement_digest", "bound", "signer",
      "issued_at", "signature"] : List Str) := rfl
  rw [keys]
  decide

theorem bound_distinct (s : Statement) : (s.boundPairs.map Prod.fst).Nodup := by
  have keys : s.boundPairs.map Prod.fst = boundKeys := rfl
  rw [keys]
  decide

theorem signer_distinct (s : Statement) : (s.signerPairs.map Prod.fst).Nodup := by
  have keys : s.signerPairs.map Prod.fst = (["key_id", "identity"] : List Str) := rfl
  rw [keys]
  decide

theorem key_mem_bound {s : Statement} {kv : Str × Value} (inside : kv ∈ s.boundPairs) :
    kv.1 ∈ boundKeys := by
  have keys : s.boundPairs.map Prod.fst = boundKeys := rfl
  rw [← keys]
  exact List.mem_map_of_mem inside

theorem bound_property {key : Str} (listed : key ∈ boundKeys) :
    (key, Schemacheck.digest) ∈ Schemacheck.boundDigests.properties := by
  have pairs : Schemacheck.boundDigests.properties =
      boundKeys.map (fun key => (key, Schemacheck.digest)) := rfl
  rw [pairs]
  exact List.mem_map_of_mem listed

/-- What the frozen schema accepted, with texts of the environment and of the context, reads back. -/
theorem plain_of_signed {env : SignerEnv} {decisionBytes : Bytes} {ids : Identities}
    {evidenceDigest : Str} {evaluationTime : Value} {s : Statement} {tag : Str}
    (made : s.Of env decisionBytes ids evidenceDigest evaluationTime)
    (valid : Schemacheck.Accepts Schemacheck.attestation (.dict (s.signed tag)))
    (clean : Json.Clean evaluationTime) : s.Plain := by
  have listed : (("bound" : Str), Schemacheck.boundDigests) ∈ Schemacheck.attestation.properties := by
    simp [Schemacheck.attestation]
  have bound : Schemacheck.Accepts Schemacheck.boundDigests (.dict s.boundPairs) :=
    valid.property listed rfl
  have text : ∀ kv ∈ s.boundPairs, ∃ text, kv.2 = .str text := by
    intro kv inside
    obtain ⟨subject, -, first⟩ := need_ok.mp made.subject
    obtain ⟨openspec, -, second⟩ := need_ok.mp made.openspec
    obtain ⟨policy, -, third⟩ := need_ok.mp made.policy
    obtain ⟨context, -, fourth⟩ := need_ok.mp made.context
    simp only [Statement.boundPairs, List.mem_cons, List.not_mem_nil, or_false] at inside
    rcases inside with rfl | rfl | rfl | rfl | rfl | rfl
    · exact ⟨subject, first⟩
    · exact ⟨openspec, second⟩
    · exact ⟨policy, third⟩
    · exact ⟨context, fourth⟩
    · exact ⟨_, rfl⟩
    · exact ⟨_, rfl⟩
  constructor
  · rw [made.decision]
    exact (Evidence.printable_digest _ _).tidy
  · intro kv inside
    obtain ⟨shown, same⟩ := text kv inside
    have accepted := bound.property (bound_property (key_mem_bound inside))
      (Dict.get?_of_mem (bound_distinct s) inside)
    rw [same] at accepted
    exact ⟨shown, same, tidy_of_digest accepted⟩
  · rw [made.keyId]
    exact tidy_signerKeyId env
  · rw [made.identity]
    exact tidy_signerIdentity env
  · rw [made.issuedAt]
    exact clean

theorem clean_pairs {kvs : List (Str × Value)} (distinct : (kvs.map Prod.fst).Nodup)
    (printable : (kvs.map Prod.fst).all
      (fun key => key.all (fun c => 0x20 ≤ c.val && c.val ≤ 0x7e)) = true)
    (each : ∀ kv ∈ kvs, Json.Clean kv.2) : Json.Clean (.dict kvs) := by
  refine Json.Clean.dict distinct ?_ each
  intro kv inside
  have all := List.all_eq_true.mp printable kv.1 (List.mem_map_of_mem inside)
  exact (Json.printable_of_all all).tidy

theorem Statement.Plain.clean_bound {s : Statement} (plain : s.Plain) :
    Json.Clean (.dict s.boundPairs) := by
  have keys : s.boundPairs.map Prod.fst = boundKeys := rfl
  apply clean_pairs (bound_distinct s) (by rw [keys]; decide)
  intro kv inside
  obtain ⟨text, same, tidy⟩ := plain.bound kv inside
  rw [same]
  exact .str tidy

theorem Statement.Plain.clean_signer {s : Statement} (plain : s.Plain) :
    Json.Clean (.dict s.signerPairs) := by
  have keys : s.signerPairs.map Prod.fst = (["key_id", "identity"] : List Str) := rfl
  apply clean_pairs (signer_distinct s) (by rw [keys]; decide)
  unfold Statement.signerPairs
  simp only [List.forall_mem_cons]
  exact ⟨.str plain.keyId, .str plain.identity, by simp⟩

theorem Statement.Plain.clean_unsigned {s : Statement} (plain : s.Plain) :
    Json.Clean (.dict s.unsigned) := by
  have keys : s.unsigned.map Prod.fst =
      (["api_version", "statement_digest", "bound", "signer", "issued_at"] : List Str) := rfl
  apply clean_pairs (by rw [keys]; decide) (by rw [keys]; decide)
  unfold Statement.unsigned
  simp only [List.forall_mem_cons]
  exact ⟨.str (tidy_literal _ (by decide)), .str plain.decision, plain.clean_bound,
    plain.clean_signer, plain.issuedAt, by simp⟩

theorem Statement.Plain.clean_signed {s : Statement} (plain : s.Plain) {tag : Str}
    (tidy : Json.Tidy tag) : Json.Clean (.dict (s.signed tag)) := by
  cases plain.clean_unsigned with
  | dict distinct keys each =>
      apply Json.Clean.dict (signed_distinct s tag)
      · intro kv inside
        rcases Dict.mem_set inside with rfl | old
        · exact tidy_literal _ (by decide)
        · exact keys kv old
      · intro kv inside
        rcases Dict.mem_set inside with rfl | old
        · exact .str tidy
        · exact each kv old

/-! What an attestation says, in whatever order its keys stand. -/

/-- The message that a tag is for, and the tag presented for it under `k`. -/
def Presents (attestation : Value) (k message : Bytes) : Prop :=
  ∃ kvs, attestation = .dict kvs ∧ canon (.dict (Dict.erase kvs "signature")) = .ok message ∧
    Dict.get? kvs "signature" = some (.str (signature k message))

/-- An attestation of the statement, whoever signed it. -/
structure Carries (attestation : Value) (s : Statement) : Prop where
  decision : attestation.get "statement_digest" = .ok (some (.str s.decision))
  signer : ∃ v, attestation.get "signer" = .ok (some v) ∧
    v.get "key_id" = .ok (some (.str s.keyId)) ∧ v.get "identity" = .ok (some (.str s.identity))
  bound : ∃ v, attestation.get "bound" = .ok (some v) ∧
    (∀ key, v.get key = .ok (Dict.get? s.boundPairs key)) ∧
    v.item "evidence_manifest_digest" = .ok (.str s.evidence)

/-- A text is looked up as it stands. -/
theorem get_text {v : Value} (clean : Json.Clean v) {kvs : List (Str × Value)}
    (distinct : (kvs.map Prod.fst).Nodup) (same : Json.canonical v = Json.canonical (.dict kvs))
    {key text : Str} (recorded : Dict.get? kvs key = some (.str text)) :
    v.get key = .ok (some (.str text)) := by
  obtain ⟨w, looked, -, agree, -⟩ := clean.get_some _ _ distinct same recorded
  rw [looked, Json.canonical_eq_str agree]

theorem Statement.Plain.get_bound {s : Statement} (plain : s.Plain) {v : Value}
    (clean : Json.Clean v) (same : Json.canonical v = Json.canonical (.dict s.boundPairs)) (key : Str) :
    v.get key = .ok (Dict.get? s.boundPairs key) := by
  cases recorded : Dict.get? s.boundPairs key with
  | none =>
      obtain ⟨found, looked, agree, -⟩ := clean.get (bound_distinct s) same key
      rw [recorded, Option.map_none, Option.map_eq_none_iff] at agree
      rw [looked, agree]
  | some value =>
      obtain ⟨text, shape, -⟩ := plain.bound _ (Dict.mem_of_get? recorded)
      dsimp only at shape
      rw [shape] at recorded ⊢
      exact get_text clean (bound_distinct s) same recorded

theorem carries_of_same {attestation : Value} {s : Statement} {tag : Str} (plain : s.Plain)
    (clean : Json.Clean attestation)
    (same : Json.canonical attestation = Json.canonical (.dict (s.signed tag))) :
    Carries attestation s := by
  have distinct := signed_distinct s tag
  obtain ⟨signer, lookedSigner, -, agreeSigner, cleanSigner⟩ :=
    clean.get_some "signer" (.dict s.signerPairs) distinct same rfl
  obtain ⟨bound, lookedBound, -, agreeBound, cleanBound⟩ :=
    clean.get_some "bound" (.dict s.boundPairs) distinct same rfl
  constructor
  · exact get_text clean distinct same rfl
  · exact ⟨signer, lookedSigner, get_text cleanSigner (signer_distinct s) agreeSigner rfl,
      get_text cleanSigner (signer_distinct s) agreeSigner rfl⟩
  · refine ⟨bound, lookedBound, plain.get_bound cleanBound agreeBound, ?_⟩
    obtain ⟨w, -, looked, agree, -⟩ := cleanBound.get_some "evidence_manifest_digest"
      (.str s.evidence) (bound_distinct s) agreeBound rfl
    rw [looked, Json.canonical_eq_str agree]

theorem erase_nodup {kvs : List (Str × Value)} (distinct : (kvs.map Prod.fst).Nodup) (key : Str) :
    ((Dict.erase kvs key).map Prod.fst).Nodup :=
  distinct.sublist (List.filter_sublist.map Prod.fst)

theorem clean_erase {kvs : List (Str × Value)} (clean : Json.Clean (.dict kvs)) (key : Str) :
    Json.Clean (.dict (Dict.erase kvs key)) := by
  cases clean with
  | dict distinct keys each =>
      exact Json.Clean.dict (erase_nodup distinct key)
        (fun kv inside => keys kv (List.mem_of_mem_filter inside))
        (fun kv inside => each kv (List.mem_of_mem_filter inside))

theorem get?_signed (s : Statement) (tag key : Str) :
    Dict.get? (s.signed tag) key = if "signature" = key then some (.str tag)
      else Dict.get? s.unsigned key := Dict.get?_set _ _ _ _

theorem unsigned_distinct (s : Statement) : (s.unsigned.map Prod.fst).Nodup := by
  have keys : s.unsigned.map Prod.fst =
      (["api_version", "statement_digest", "bound", "signer", "issued_at"] : List Str) := rfl
  rw [keys]
  decide

/-- An attestation equal to the signed one, key order aside, presents its tag. -/
theorem presents_of_same {attestation : Value} {s : Statement} {k payload : Bytes}
    (encoded : canon (.dict s.unsigned) = .ok payload) (clean : Json.Clean attestation)
    (same : Json.canonical attestation = Json.canonical (.dict (s.signed (signature k payload)))) :
    Presents attestation k payload := by
  have distinct := signed_distinct s (signature k payload)
  have looked := fun key => clean.get distinct same key
  have tag : attestation.get "signature" = .ok (some (.str (signature k payload))) :=
    get_text clean distinct same rfl
  cases clean with
  | @dict kvs apart keys each =>
      have unsigned : Json.canonical (.dict (Dict.erase kvs "signature")) =
          Json.canonical (.dict s.unsigned) := by
        apply Json.canonical_ext (erase_nodup apart _) (unsigned_distinct s)
        intro key
        obtain ⟨found, here, agree, -⟩ := looked key
        cases here
        rw [get?_signed] at agree
        rw [Dict.get?_erase]
        split
        · rename_i same'
          rw [← same']
          rfl
        · rename_i other
          rw [agree, if_neg other]
      exact ⟨kvs, rfl, canon_of_same unsigned encoded, Except.ok.inj tag⟩
  | _ => cases tag

/-- A tag for the message of a statement is presented with that statement. -/
theorem same_of_presents {attestation : Value} {s : Statement} {k payload : Bytes}
    (plain : s.Plain) (encoded : canon (.dict s.unsigned) = .ok payload)
    (clean : Json.Clean attestation) (presents : Presents attestation k payload) :
    Json.canonical attestation = Json.canonical (.dict (s.signed (signature k payload))) := by
  obtain ⟨kvs, rfl, message, tag⟩ := presents
  have unsigned : Json.canonical (.dict (Dict.erase kvs "signature")) =
      Json.canonical (.dict s.unsigned) :=
    Evidence.same_manifest plain.clean_unsigned (clean_erase clean _) encoded message
  have looked := fun key =>
    (clean_erase clean "signature").get (unsigned_distinct s) unsigned key
  cases clean with
  | dict apart keys each =>
      apply Json.canonical_ext apart (signed_distinct s _)
      intro key
      rw [get?_signed]
      split
      · rename_i same
        rw [← same, tag]
      · rename_i other
        obtain ⟨found, here, agree, -⟩ := looked key
        rw [Value.get_dict, Dict.get?_erase, if_neg other] at here
        cases here
        exact agree

/-! The verifier, check by check. -/

theorem loadArtifacts_ok {disk : Disk} {out : Path} {resultDoc attestation manifest : Value} :
    loadArtifacts disk out = .ok (some (resultDoc, attestation, manifest)) ↔
      document disk out "result.json" = .ok resultDoc ∧
        document disk out "attestation.json" = .ok attestation ∧
        document disk out "evidence-manifest.json" = .ok manifest := by
  unfold loadArtifacts
  cases document disk out "result.json" with
  | error e => by_cases known : e.isA [.osError, .jsonDecodeError] = true <;> simp [known]
  | ok first =>
      cases document disk out "attestation.json" with
      | error e => by_cases known : e.isA [.osError, .jsonDecodeError] = true <;> simp [known]
      | ok second =>
          cases document disk out "evidence-manifest.json" with
          | error e => by_cases known : e.isA [.osError, .jsonDecodeError] = true <;> simp [known]
          | ok third => simp

/-- What `verify` found in a directory it accepts. -/
structure Accepted (disk : Disk) (runDir : Str) (set : SignerSet) (attestation : Value) (entry : Signer)
    (decision : Bytes) (bound evidence : Value) : Prop where
  there : (disk.exists_ ((Path.ofStr runDir).join "result.json") &&
    disk.exists_ ((Path.ofStr runDir).join "attestation.json") &&
    disk.exists_ ((Path.ofStr runDir).join "evidence-manifest.json")) = true
  documents : ∃ resultDoc manifest,
    loadArtifacts disk (Path.ofStr runDir) = .ok (some (resultDoc, attestation, manifest))
  signer : checkSigner attestation set = .ok (.ok entry)
  signature : checkSignature attestation entry = .ok true
  result : disk.read ((Path.ofStr runDir).join "result.json") = .ok decision
  stated : ∃ v, getOr attestation "statement_digest" .null = .ok v ∧
    Value.eq (.str (digest .decision decision)) v = true
  claimed : getOr attestation "bound" (.dict []) = .ok bound
  identities : ∃ parsed, Json.loadBytes decision = .ok parsed ∧
    unbound parsed bound boundKeys = .ok none
  sealed_ : bound.item "evidence_manifest_digest" = .ok evidence
  holds : evidenceHolds disk runDir evidence = .ok true

theorem verify_of_accepted {disk : Disk} {runDir : Str} {set : SignerSet} {attestation : Value}
    {entry : Signer} {decision : Bytes} {bound evidence : Value}
    (accepts : Accepted disk runDir set attestation entry decision bound evidence) :
    verify disk runDir set = .ok (true, "ok") := by
  obtain ⟨resultDoc, manifest, loaded⟩ := accepts.documents
  obtain ⟨v, looked, same⟩ := accepts.stated
  obtain ⟨parsed, read, agree⟩ := accepts.identities
  have checks : verifyArtifacts disk runDir attestation set = .ok (true, "ok") := by
    unfold verifyArtifacts
    simp only [accepts.signer, ok_bind, accepts.signature, ↓reduceIte, accepts.result, looked, same,
      Bool.true_eq_false, read, accepts.claimed, agree, accepts.sealed_, accepts.holds, pure_ok]
  unfold verify
  rw [if_pos accepts.there, loaded, ok_bind]
  exact checks

theorem accepted_of_verify {disk : Disk} {runDir reason : Str} {set : SignerSet}
    (accepted : verify disk runDir set = .ok (true, reason)) :
    ∃ attestation entry decision bound evidence,
      Accepted disk runDir set attestation entry decision bound evidence := by
  unfold verify at accepted
  simp only at accepted
  split at accepted
  · rename_i there
    obtain ⟨documents, loaded, accepted⟩ := bind_ok.mp accepted
    cases documents with
    | none => cases accepted
    | some documents =>
        obtain ⟨resultDoc, attestation, manifest⟩ := documents
        dsimp only at accepted
        unfold verifyArtifacts at accepted
        obtain ⟨signer, checked, accepted⟩ := bind_ok.mp accepted
        cases signer with
        | error refused => cases accepted
        | ok entry =>
            obtain ⟨tagged, signature_, accepted⟩ := bind_ok.mp accepted
            cases tagged with
            | false => cases accepted
            | true =>
                rw [if_pos rfl] at accepted
                obtain ⟨decision, result, accepted⟩ := bind_ok.mp accepted
                obtain ⟨v, looked, accepted⟩ := bind_ok.mp accepted
                split at accepted
                · cases accepted
                · rename_i same
                  obtain ⟨parsed, read, accepted⟩ := bind_ok.mp accepted
                  obtain ⟨bound, found, accepted⟩ := bind_ok.mp accepted
                  obtain ⟨missed, agree, accepted⟩ := bind_ok.mp accepted
                  cases missed with
                  | some key => cases accepted
                  | none =>
                      obtain ⟨evidence, item, accepted⟩ := bind_ok.mp accepted
                      obtain ⟨held, holds, accepted⟩ := bind_ok.mp accepted
                      cases held with
                      | false => cases accepted
                      | true =>
                          exact ⟨attestation, entry, decision, bound, evidence, there,
                            ⟨resultDoc, manifest, loaded⟩, checked, signature_, result,
                            ⟨v, looked, by simpa using same⟩, found, ⟨parsed, read, agree⟩, item, holds⟩
  · cases accepted

/-! What a promotion-authorizing run writes. -/

theorem orAttestationError_ok {body : Act Unit} {what : Str} {world last : World}
    (ran : orAttestationError body what world = (.ok (), last)) : body world = (.ok (), last) := by
  rcases Act.catching_ok.mp ran with fine | ⟨e, middle, -, -, raised⟩
  · exact fine
  · cases raised

theorem emitWithFallback_calm (outDir : Str) (payload : Bytes) {world : World}
    (calm : world.fates = []) : Result.emitWithFallback outDir payload world =
      (.ok outDir, { world with
        log := world.log ++ [(Path.ofStr (outDir ++ "/result.json"), payload)] }) := by
  unfold Result.emitWithFallback emit Act.catching
  rw [Act.bind_run, Act.replace_calm calm]
  rfl

theorem emitAttestation_ok {env : SignerEnv} {outDir : Str} {payload : Bytes} {ids : Identities}
    {evidenceDigest : Str} {evaluationTime : Value} {world last : World}
    (ran : emitAttestation env outDir payload ids evidenceDigest evaluationTime world =
      (.ok (), last)) :
    ∃ attestation bytes, sign env payload ids evidenceDigest evaluationTime = .ok attestation ∧
      canon attestation = .ok bytes ∧
      last.log = world.log ++ [(Path.ofStr (outDir ++ "/attestation.json"), bytes)] := by
  unfold emitAttestation at ran
  obtain ⟨attestation, w₁, signed, ran⟩ := Act.bind_ok.mp ran
  obtain ⟨bytes, w₂, encoded, ran⟩ := Act.bind_ok.mp ran
  rw [Act.ofExcept_run, Prod.mk.injEq] at signed encoded
  obtain ⟨signed, rfl⟩ := signed
  obtain ⟨encoded, rfl⟩ := encoded
  exact ⟨attestation, bytes, signed, encoded, Act.replace_ok (orAttestationError_ok ran)⟩

theorem emitEnvelope_ok {outDir : Str} {decision : Value} {exitCode : Int} {stage semantics : Value}
    {signed : Bool} {attestationPath : Value} {world last : World}
    (ran : emitEnvelope outDir decision exitCode stage semantics signed attestationPath world =
      (.ok (), last)) :
    ∃ needed bytes, required stage semantics = .ok needed ∧
      canon (envelope decision exitCode stage semantics needed signed attestationPath) = .ok bytes ∧
      last.log = world.log ++ [(Path.ofStr (outDir ++ "/run-envelope.json"), bytes)] := by
  unfold emitEnvelope at ran
  obtain ⟨needed, w₁, asked, ran⟩ := Act.bind_ok.mp ran
  obtain ⟨bytes, w₂, encoded, ran⟩ := Act.bind_ok.mp ran
  rw [Act.ofExcept_run, Prod.mk.injEq] at asked encoded
  obtain ⟨asked, rfl⟩ := asked
  obtain ⟨encoded, rfl⟩ := encoded
  exact ⟨needed, bytes, asked, encoded, Act.replace_ok (orAttestationError_ok ran)⟩

/-- The writes of a sealed run: the decision, the attestation, the envelope. -/
theorem sealRun_ok {env : SignerEnv} {outDir : Str} {res : Value} {ledger : List Evaluate.Row}
    {ids : Identities} {evidenceDigest : Str} {ctx stage semantics : Value} {blocked : Bool}
    {world last : World} {code : Int} (calm : world.fates = [])
    (staged : ctx.item "stage" = .ok stage)
    (labelled : getOr ctx "semantics" (.str "fresh-promotion") = .ok semantics)
    (promoting : required stage semantics = .ok true)
    (ran : sealRun env outDir res ledger ids evidenceDigest ctx blocked world = (.ok code, last)) :
    ∃ evaluationTime payload attestation bytes envelope, ctx.item "evaluation_time" = .ok evaluationTime ∧
      canon res = .ok payload ∧ sign env payload ids evidenceDigest evaluationTime = .ok attestation ∧
      canon attestation = .ok bytes ∧
      last.log = world.log ++ [(Path.ofStr (outDir ++ "/result.json"), payload),
        (Path.ofStr (outDir ++ "/attestation.json"), bytes),
        (Path.ofStr (outDir ++ "/run-envelope.json"), envelope)] := by
  unfold sealRun at ran
  obtain ⟨stage', w₁, first, ran⟩ := Act.bind_ok.mp ran
  obtain ⟨semantics', w₂, second, ran⟩ := Act.bind_ok.mp ran
  obtain ⟨payload, w₃, encoded, ran⟩ := Act.bind_ok.mp ran
  obtain ⟨place, w₄, wrote, ran⟩ := Act.bind_ok.mp ran
  obtain ⟨needed, w₅, asked, ran⟩ := Act.bind_ok.mp ran
  rw [Act.ofExcept_run, Prod.mk.injEq] at first second encoded asked
  obtain ⟨first, rfl⟩ := first
  obtain ⟨second, rfl⟩ := second
  obtain ⟨encoded, rfl⟩ := encoded
  obtain ⟨asked, rfl⟩ := asked
  rw [staged] at first
  cases first
  rw [labelled] at second
  cases second
  rw [promoting] at asked
  cases asked
  rw [emitWithFallback_calm _ _ calm, Prod.mk.injEq] at wrote
  obtain ⟨-, rfl⟩ := wrote
  rw [if_pos rfl] at ran
  obtain ⟨time, w₆, timed, ran⟩ := Act.bind_ok.mp ran
  rw [Act.ofExcept_run, Prod.mk.injEq] at timed
  obtain ⟨timed, rfl⟩ := timed
  obtain ⟨_, w₇, emitted, ran⟩ := Act.bind_ok.mp ran
  obtain ⟨attestation, bytes, signed, encoded', log⟩ := emitAttestation_ok emitted
  obtain ⟨decision, w₈, decided, ran⟩ := Act.bind_ok.mp ran
  rw [Act.ofExcept_run, Prod.mk.injEq] at decided
  obtain ⟨-, rfl⟩ := decided
  obtain ⟨_, w₉, enveloped, done⟩ := Act.bind_ok.mp ran
  obtain ⟨needed, envelope, -, -, log'⟩ := emitEnvelope_ok enveloped
  cases done
  refine ⟨time, payload, attestation, bytes, envelope, timed, encoded, signed, encoded', ?_⟩
  rw [log', log]
  simp only [List.append_assoc, List.cons_append, List.nil_append]

/-- `seal_run` signed a statement for the canonical bytes of the result. -/
structure Seals (env : SignerEnv) (ids : Identities) (evidenceDigest : Str) (res time : Value)
    (s : Statement) (k message decision : Bytes) : Prop where
  made : s.Of env decision ids evidenceDigest time
  keyed : key env = .ok (some k)
  encoded : canon res = .ok decision
  encodedMessage : canon (.dict s.unsigned) = .ok message
  signed : sign env decision ids evidenceDigest time = .ok (.dict (s.signed (signature k message)))
  timed : Json.Clean time
  plain : s.Plain

theorem clean_item {v w : Value} {key : Str} (clean : Json.Clean v) (looked : v.item key = .ok w) :
    Json.Clean w := by
  obtain ⟨kvs, rfl, inside⟩ := Value.item_ok.mp looked
  cases clean with
  | dict distinct keys each => exact each _ (Dict.mem_of_get? inside)

theorem seals_of_sealRun {env : SignerEnv} {outDir : Str} {res : Value} {ledger : List Evaluate.Row}
    {ids : Identities} {evidenceDigest : Str} {ctx stage semantics : Value} {blocked : Bool}
    {world last : World} {code : Int} (calm : world.fates = []) (loaded : Json.Clean ctx)
    (staged : ctx.item "stage" = .ok stage)
    (labelled : getOr ctx "semantics" (.str "fresh-promotion") = .ok semantics)
    (promoting : required stage semantics = .ok true)
    (ran : sealRun env outDir res ledger ids evidenceDigest ctx blocked world = (.ok code, last)) :
    ∃ time s k message decision bytes envelope,
      Seals env ids evidenceDigest res time s k message decision ∧
      canon (.dict (s.signed (signature k message))) = .ok bytes ∧
      last.log = world.log ++ [(Path.ofStr (outDir ++ "/result.json"), decision),
        (Path.ofStr (outDir ++ "/attestation.json"), bytes),
        (Path.ofStr (outDir ++ "/run-envelope.json"), envelope)] := by
  obtain ⟨time, decision, attestation, bytes, envelope, timed, encoded, signed, encoded', log⟩ :=
    sealRun_ok calm staged labelled promoting ran
  obtain ⟨k, s, message, keyed, stated, encodedMessage, rfl, valid⟩ := sign_ok signed
  have made := statement_ok stated
  have clean := clean_item loaded timed
  exact ⟨time, s, k, message, decision, bytes, envelope,
    ⟨made, keyed, encoded, encodedMessage, signed, clean, plain_of_signed made valid clean⟩, encoded', log⟩

/-! What the decision says of the identities that the attestation binds. -/

theorem text_decoded {s : Statement} (plain : s.Plain) {key : Str} :
    (Dict.get? s.boundPairs key).map Json.decoded = Dict.get? s.boundPairs key := by
  cases recorded : Dict.get? s.boundPairs key with
  | none => rfl
  | some value =>
      obtain ⟨text, same, tidy⟩ := plain.bound _ (Dict.mem_of_get? recorded)
      dsimp only at same
      rw [Option.map_some, same, Json.decoded, Json.merge_tidy tidy]

def resultKeys : List Str :=
  ["api_version", "decision", "semantics", "subject_digest", "openspec_digest", "policy_digest",
    "context_digest", "evaluator_image_digest", "platform", "assertion_summary",
    "assertion_results", "findings", "evidence_manifest_digest", "error"]

theorem resultKeys_distinct : resultKeys.Nodup := by decide +kernel

theorem resultKeys_tidy {kvs : List (Str × Value)} (keys : kvs.map Prod.fst = resultKeys) :
    ∀ kv ∈ kvs, Json.Tidy kv.1 := by
  have all : (kvs.map Prod.fst).all
      (fun key => key.all (fun c => 0x20 ≤ c.val && c.val ≤ 0x7e)) = true := by
    rw [keys]
    decide
  intro kv inside
  exact (Json.printable_of_all (List.all_eq_true.mp all kv.1 (List.mem_map_of_mem inside))).tidy

/-- The fields of a built result that a verifier reads. -/
structure Built (kvs : List (Str × Value)) (ids : Identities) (decision : Result.Decision)
    (semantics : Value) (evidenceDigest : Str) : Prop where
  keys : kvs.map Prod.fst = resultKeys
  decision : Dict.get? kvs "decision" = some (.str decision.name)
  semantics : Dict.get? kvs "semantics" = some semantics
  subject : ∃ v, need "subject_digest" ids.subject = .ok v ∧ Dict.get? kvs "subject_digest" = some v
  openspec : ∃ v, need "openspec_digest" ids.openspec = .ok v ∧
    Dict.get? kvs "openspec_digest" = some v
  policy : ∃ v, need "policy_digest" ids.policy = .ok v ∧ Dict.get? kvs "policy_digest" = some v
  context : ∃ v, need "context_digest" ids.context = .ok v ∧ Dict.get? kvs "context_digest" = some v
  image : ∃ v, need "evaluator_image_digest" ids.evaluatorImage = .ok v ∧
    Dict.get? kvs "evaluator_image_digest" = some v
  evidence : Dict.get? kvs "evidence_manifest_digest" = some (.str evidenceDigest)

theorem build_ok {p : Printer} {ledger : List Evaluate.Row} {reported : List Result.Reported}
    {ids : Identities} {stage : Int} {semantics : Value} {evidenceDigest : Str}
    {blocked : Option Bool} {res : Value}
    (built : Result.build p ledger reported ids stage semantics evidenceDigest blocked = .ok res) :
    ∃ kvs, res = .dict kvs ∧
      Built kvs ids (Result.decide ledger stage none blocked).1 semantics evidenceDigest := by
  unfold Result.build at built
  obtain ⟨subject, first, built⟩ := bind_ok.mp built
  obtain ⟨openspec, second, built⟩ := bind_ok.mp built
  obtain ⟨policy, third, built⟩ := bind_ok.mp built
  obtain ⟨context, fourth, built⟩ := bind_ok.mp built
  obtain ⟨image, fifth, built⟩ := bind_ok.mp built
  obtain ⟨platform, -, built⟩ := bind_ok.mp built
  refine ⟨_, (Except.ok.inj built).symm, rfl, ?_, ?_, ⟨subject, first, ?_⟩, ⟨openspec, second, ?_⟩,
    ⟨policy, third, ?_⟩, ⟨context, fourth, ?_⟩, ⟨image, fifth, ?_⟩, ?_⟩
  all_goals simp [Dict.get?_cons]

/-- A field of the result as it is read from its file. -/
theorem Built.get {kvs : List (Str × Value)} {ids : Identities} {decision : Result.Decision}
    {semantics : Value} {evidenceDigest : Str}
    (built : Built kvs ids decision semantics evidenceDigest) (key : Str) :
    (Json.decoded (.dict kvs)).get key = .ok ((Dict.get? kvs key).map Json.decoded) := by
  obtain ⟨own, shape, looked⟩ :=
    Json.get?_decoded (built.keys ▸ resultKeys_distinct) (resultKeys_tidy built.keys) key
  rw [shape, Value.get_dict, looked]

/-- The decision, read from its file, states what the attestation of its run binds. -/
theorem Built.stated {kvs : List (Str × Value)} {ids : Identities} {decision : Result.Decision}
    {semantics : Value} {evidenceDigest : Str} {s : Statement} {env : SignerEnv}
    {decisionBytes : Bytes} {evaluationTime : Value}
    (built : Built kvs ids decision semantics evidenceDigest)
    (made : s.Of env decisionBytes ids evidenceDigest evaluationTime) (plain : s.Plain) :
    ∀ key ∈ boundKeys, (Json.decoded (.dict kvs)).get key = .ok (Dict.get? s.boundPairs key) := by
  obtain ⟨subject, first, lookedSubject⟩ := built.subject
  obtain ⟨openspec, second, lookedOpenspec⟩ := built.openspec
  obtain ⟨policy, third, lookedPolicy⟩ := built.policy
  obtain ⟨context, fourth, lookedContext⟩ := built.context
  obtain ⟨image, fifth, lookedImage⟩ := built.image
  rw [made.subject] at first
  cases first
  rw [made.openspec] at second
  cases second
  rw [made.policy] at third
  cases third
  rw [made.context] at fourth
  cases fourth
  rw [made.image] at fifth
  cases fifth
  have lookups : ∀ key ∈ boundKeys, Dict.get? kvs key = Dict.get? s.boundPairs key := by
    have lookedEvidence := built.evidence
    unfold boundKeys Statement.boundPairs
    rw [made.evidence]
    simp [Dict.get?_cons, lookedSubject, lookedOpenspec, lookedPolicy, lookedContext, lookedImage,
      lookedEvidence]
  intro key listed
  rw [built.get key, lookups key listed, text_decoded plain]

theorem unbound_none {resultDoc bound : Value} {keys : List Str}
    (same : ∀ key ∈ keys, ∃ text, resultDoc.get key = .ok (some (.str text)) ∧
      bound.get key = .ok (some (.str text))) : unbound resultDoc bound keys = .ok none := by
  induction keys with
  | nil => rfl
  | cons key rest ih =>
      rw [List.forall_mem_cons] at same
      obtain ⟨⟨text, stated, claimed⟩, later⟩ := same
      have agree : Value.eq (.str text) (.str text) = true := by simp [Value.eq, Value.same]
      rw [unbound, stated, ok_bind, claimed, ok_bind, Option.getD_some, if_pos agree, ih later]

theorem getOr_some {v found default : Value} {key : Str} (looked : v.get key = .ok (some found)) :
    getOr v key default = .ok found := by
  unfold getOr
  rw [looked]
  rfl

theorem bound_some (s : Statement) {key : Str} (listed : key ∈ boundKeys) :
    ∃ value, Dict.get? s.boundPairs key = some value := by
  have keys : s.boundPairs.map Prod.fst = boundKeys := rfl
  rw [← keys, ← Dict.get?_isSome_iff] at listed
  exact Option.isSome_iff_exists.mp listed

/-! The signer. -/

theorem eq_text {s t : Str} : Value.eq (.str s) (.str t) = decide (s = t) := by
  rw [Bool.eq_iff_iff, Value.eq_str, Value.str.injEq, decide_eq_true_eq]
  exact eq_comm

/-- The first entry with the signing key id has the key and the identity of the
environment, stands, and its window holds the time of the set, all in one layout. -/
structure Approves (set : SignerSet) (entry : Signer) (env : SignerEnv) : Prop where
  first : set.signers.find? (fun s => s.keyId = signerKeyId env) = some entry
  identity : entry.identity = signerIdentity env
  key : ∃ k, key env = .ok (some k) ∧ fromhex? entry.key = some k
  standing : entry.revoked = false
  window : ∃ (layout : Utc.Layout) (start now stop : List Nat),
    layout.Fits start ∧ layout.Fits now ∧ layout.Fits stop ∧
      entry.validFrom = layout.write start ∧ set.asOf = layout.write now ∧
      entry.validUntil = layout.write stop ∧
      Utc.notAfter start now = true ∧ Utc.notAfter now stop = true

theorem find_signer (set : SignerSet) (id : Str) :
    set.signers.find? (fun s => Value.eq (.str s.keyId) (.str id)) =
      set.signers.find? (fun s => s.keyId = id) := by
  simp only [eq_text]

theorem checkSigner_approved {attestation : Value} {s : Statement} {set : SignerSet} {entry : Signer}
    {env : SignerEnv} (carries : Carries attestation s) (keyId : s.keyId = signerKeyId env)
    (identity : s.identity = signerIdentity env) (approves : Approves set entry env) :
    checkSigner attestation set = .ok (.ok entry) := by
  obtain ⟨signer, looked, named, known⟩ := carries.signer
  obtain ⟨layout, start, now, stop, fits₁, fits₂, fits₃, from_, asOf, until_, early, late⟩ :=
    approves.window
  have opened : Str.le entry.validFrom set.asOf = true := by
    rw [from_, asOf]
    exact Utc.write_le early fits₁ fits₂
  have closed : Str.le set.asOf entry.validUntil = true := by
    rw [asOf, until_]
    exact Utc.write_le late fits₂ fits₃
  have same : Value.eq (.str entry.identity) (.str s.identity) = true := by
    rw [eq_text, approves.identity, identity, decide_eq_true_eq]
  unfold checkSigner
  simp only [getOr_some looked, getOr_some named, ok_bind, find_signer, keyId, approves.first,
    getOr_some known, same, Bool.true_eq_false, ↓reduceIte, approves.standing, Bool.false_eq_true,
    opened, closed, pure_ok]

theorem erase_signed (s : Statement) (tag : Str) :
    Dict.erase (s.signed tag) "signature" = s.unsigned := by
  simp [Statement.signed, Statement.unsigned, Dict.erase, Dict.set]

theorem printable_signature (k message : Bytes) : Json.Printable (signature k message) := by
  apply Json.Printable.append (Json.printable_of_all (by decide))
  intro c inside
  exact (Evidence.mem_hexDigits (mem_sha256 inside)).1

theorem compareDigest_true {expected : Str} {presented : Value} (ascii : Utf8.IsAscii expected) :
    compareDigest expected presented = .ok true ↔ presented = .str expected := by
  cases presented with
  | str s =>
      rw [compareDigest, Value.str.injEq]
      split
      · simp [eq_comm]
      · rename_i wide
        constructor
        · intro same
          cases same
        · rintro rfl
          apply absurd _ wide
          rw [List.all_eq_true]
          intro c inside
          exact decide_eq_true (ascii c inside)
  | _ => simp [compareDigest]

theorem ascii_signature (k message : Bytes) : Utf8.IsAscii (signature k message) := by
  intro c inside
  have range := printable_signature k message c inside
  omega

/-- The signature is accepted exactly where it is presented under the entry's key. -/
theorem checkSignature_true {attestation : Value} {entry : Signer} :
    checkSignature attestation entry = .ok true ↔
      ∃ k message, fromhex? entry.key = some k ∧ Presents attestation k message := by
  have hex : ∀ k, fromhex entry.key = .ok k ↔ fromhex? entry.key = some k := by
    intro k
    unfold fromhex
    cases fromhex? entry.key <;> simp
  have filled : ∀ k message, (.str [] : Value) ≠ .str (signature k message) := by
    intro k message same
    have long := congrArg List.length (Value.str.inj same)
    rw [signature, List.length_append] at long
    have mark : signaturePrefix.length = 12 := rfl
    rw [mark, List.length_nil] at long
    omega
  cases attestation with
  | dict kvs =>
      unfold checkSignature Presents
      simp only [bind_ok, hex, Value.dict.injEq, exists_eq_left']
      constructor
      · rintro ⟨k, keyed, message, encoded, same⟩
        rw [compareDigest_true (ascii_signature k message)] at same
        cases found : Dict.get? kvs "signature" with
        | none =>
            rw [found] at same
            exact absurd same (filled k message)
        | some tag =>
            rw [found, Option.getD_some] at same
            exact ⟨k, message, keyed, encoded, by rw [same]⟩
      · rintro ⟨k, message, keyed, encoded, tag⟩
        refine ⟨k, keyed, message, encoded, ?_⟩
        rw [compareDigest_true (ascii_signature k message), tag]
        rfl
  | _ => simp [checkSignature, Presents]

/-! A sealed run. -/

/-- The files of a sealed run stand in a directory. -/
structure Standing (disk : Disk) (out : Path) (s : Statement) (k message decision : Bytes)
    (objects : List Evidence.Sealed) (manifest : Bytes) : Prop where
  there : (disk.exists_ (out.join "result.json") && disk.exists_ (out.join "attestation.json")) = true
  decision : disk.read (out.join "result.json") = .ok decision
  attestation : ∃ bytes, disk.read (out.join "attestation.json") = .ok bytes ∧
    canon (.dict (s.signed (signature k message))) = .ok bytes
  bundle : Evidence.Stored disk out objects manifest

/-- The statement that a run signed, and what its digests are of. -/
structure Signs (s : Statement) (k message decision : Bytes) (objects : List Evidence.Sealed)
    (manifest : Bytes) : Prop where
  plain : s.Plain
  message : canon (.dict s.unsigned) = .ok message
  decision : s.decision = digest .decision decision
  named : ∀ o ∈ objects, o.Plain
  listing : canon (Evidence.manifestOf objects) = .ok manifest
  evidence : s.evidence = digest .evidenceManifest manifest

theorem Standing.document {disk : Disk} {out : Path} {s : Statement} {k message decision : Bytes}
    {objects : List Evidence.Sealed} {manifest : Bytes}
    (standing : Standing disk out s k message decision objects manifest)
    (signs : Signs s k message decision objects manifest) :
    document disk out "attestation.json" =
      .ok (Json.canonical (.dict (s.signed (signature k message)))) := by
  obtain ⟨bytes, read, encoded⟩ := standing.attestation
  unfold Attest.document
  rw [read, ok_bind, loadText_canon encoded,
    Json.decoded_clean (signs.plain.clean_signed (printable_signature k message).tidy)]

theorem verify_of_standing {disk : Disk} {runDir : Str} {s : Statement} {k message decision : Bytes}
    {objects : List Evidence.Sealed} {manifest : Bytes} {set : SignerSet} {entry : Signer}
    {env : SignerEnv} {res time : Value} {ids : Identities} {evidenceDigest : Str}
    (standing : Standing disk (Path.ofStr runDir) s k message decision objects manifest)
    (signs : Signs s k message decision objects manifest)
    (seals : Seals env ids evidenceDigest res time s k message decision)
    (approves : Approves set entry env)
    (stated : ∀ key ∈ boundKeys, (Json.decoded res).get key = .ok (Dict.get? s.boundPairs key)) :
    verify disk runDir set = .ok (true, "ok") := by
  have signed := standing.document signs
  obtain ⟨bytes, -, loaded⟩ := bind_ok.mp signed
  have clean := Json.loadText_clean loaded
  have same := Json.canonical_canonical (.dict (s.signed (signature k message)))
  have carries := carries_of_same signs.plain clean same
  have presents := presents_of_same signs.message clean same
  obtain ⟨bound, lookedBound, bounds, evidence⟩ := carries.bound
  obtain ⟨k', keyed', hex⟩ := approves.key
  rw [seals.keyed] at keyed'
  cases keyed'
  have decided : document disk (Path.ofStr runDir) "result.json" = .ok (Json.decoded res) := by
    unfold Attest.document
    rw [standing.decision, ok_bind, loadText_canon seals.encoded]
  obtain ⟨manifestBytes, readManifest, loadedManifest⟩ :=
    Evidence.loadManifest_ok.mp (Evidence.loadManifest_stored signs.named signs.listing standing.bundle)
  have manifested : document disk (Path.ofStr runDir) "evidence-manifest.json" =
      .ok (Json.canonical (Evidence.manifestOf objects)) := by
    unfold Attest.document
    rw [readManifest, ok_bind, loadedManifest]
  obtain ⟨passes, text⟩ := canon_ok.mp seals.encoded
  suffices accepts : Accepted disk runDir set (Json.canonical (.dict (s.signed (signature k message))))
      entry decision bound (.str s.evidence) from
    verify_of_accepted accepts
  constructor
  · rw [standing.there, Bool.true_and]
    exact standing.bundle.there
  · exact ⟨_, _, loadArtifacts_ok.mpr ⟨decided, signed, manifested⟩⟩
  · exact checkSigner_approved carries seals.made.keyId seals.made.identity approves
  · exact checkSignature_true.mpr ⟨k, message, hex, presents⟩
  · exact standing.decision
  · refine ⟨_, getOr_some carries.decision, ?_⟩
    rw [Value.eq_str, signs.decision]
  · exact getOr_some lookedBound
  · refine ⟨Json.decoded res, ?_, ?_⟩
    · rw [text]
      exact Json.loadBytes_dumps (exact_of_check passes)
    · apply unbound_none
      intro key listed
      obtain ⟨value, recorded⟩ := bound_some s listed
      obtain ⟨shown, shape, -⟩ := signs.plain.bound _ (Dict.mem_of_get? recorded)
      dsimp only at shape
      refine ⟨shown, ?_, ?_⟩
      · rw [stated key listed, recorded, shape]
      · rw [bounds key, recorded, shape]
  · exact evidence
  · rw [evidenceHolds, signs.evidence]
    exact Evidence.verify_of_stored signs.named signs.listing standing.bundle

/-- HMAC and SHA-256 as ideal, for an editor without the keys of the set: the hashes do
not collide on what the two directories hold, and a tag that the later one presents under
a key of the set is for the message that the run signed. -/
structure Ideal (later sealed_ : Disk) (out : Path) (set : SignerSet) : Prop where
  decisions : ∀ b₁ b₂, later.read (out.join "result.json") = .ok b₁ →
    sealed_.read (out.join "result.json") = .ok b₂ →
    Separates (preimage .decision b₁) (preimage .decision b₂)
  bundles : Evidence.HashesSeparate later sealed_ out
  tags : ∀ presented original entry k k' m m', document later out "attestation.json" = .ok presented →
    document sealed_ out "attestation.json" = .ok original → entry ∈ set.signers →
    fromhex? entry.key = some k → Presents presented k m → Presents original k' m' → m = m'

/-- Two directories hold one run: the bytes of the decision, the attestation value and
the bundle. -/
structure SameRun (later sealed_ : Disk) (out : Path) : Prop where
  decision : ∃ bytes, later.read (out.join "result.json") = .ok bytes ∧
    sealed_.read (out.join "result.json") = .ok bytes
  attestation : ∃ presented original, document later out "attestation.json" = .ok presented ∧
    document sealed_ out "attestation.json" = .ok original ∧
    Json.canonical presented = Json.canonical original
  bundle : Evidence.SameBundle later sealed_ out

theorem find_approved {set : SignerSet} {entry other : Signer} {attestation : Value} {s : Statement}
    {env : SignerEnv} (carries : Carries attestation s) (keyId : s.keyId = signerKeyId env)
    (approves : Approves set entry env) (checked : checkSigner attestation set = .ok (.ok other)) :
    other = entry := by
  obtain ⟨signer, looked, named, known⟩ := carries.signer
  unfold checkSigner at checked
  simp only [getOr_some looked, getOr_some named, ok_bind, find_signer, keyId, approves.first,
    getOr_some known] at checked
  split at checked
  · cases checked
  split at checked
  · cases checked
  split at checked
  · cases checked
  split at checked
  · cases checked
  · cases checked
    rfl

theorem mem_of_checkSigner {attestation : Value} {set : SignerSet} {entry : Signer}
    (checked : checkSigner attestation set = .ok (.ok entry)) : entry ∈ set.signers := by
  unfold checkSigner at checked
  obtain ⟨signer, -, checked⟩ := bind_ok.mp checked
  obtain ⟨keyId, -, checked⟩ := bind_ok.mp checked
  split at checked
  · cases checked
  · rename_i found inside
    obtain ⟨identity, -, checked⟩ := bind_ok.mp checked
    have member := List.mem_of_find?_eq_some inside
    split at checked
    · cases checked
    split at checked
    · cases checked
    split at checked
    · cases checked
    split at checked
    · cases checked
    · cases checked
      exact member

/-- A directory that verifies holds the run that was sealed. -/
theorem sameRun_of_verify {later sealed_ : Disk} {runDir reason : Str} {s : Statement}
    {k message decision : Bytes} {objects : List Evidence.Sealed} {manifest : Bytes}
    {set : SignerSet} {entry : Signer} {env : SignerEnv}
    (standing : Standing sealed_ (Path.ofStr runDir) s k message decision objects manifest)
    (signs : Signs s k message decision objects manifest) (keyId : s.keyId = signerKeyId env)
    (keyed : key env = .ok (some k)) (approves : Approves set entry env)
    (ideal : Ideal later sealed_ (Path.ofStr runDir) set)
    (accepted : verify later runDir set = .ok (true, reason)) :
    SameRun later sealed_ (Path.ofStr runDir) := by
  obtain ⟨presented, other, found, bound, evidence, accepts⟩ := accepted_of_verify accepted
  obtain ⟨resultDoc, manifestDoc, loaded⟩ := accepts.documents
  obtain ⟨-, shown, -⟩ := loadArtifacts_ok.mp loaded
  obtain ⟨bytes, -, read⟩ := bind_ok.mp shown
  have clean := Json.loadText_clean read
  have signed := standing.document signs
  obtain ⟨bytes', -, read'⟩ := bind_ok.mp signed
  have canonical := Json.canonical_canonical (.dict (s.signed (signature k message)))
  have original := presents_of_same signs.message (Json.loadText_clean read') canonical
  -- the tag is for the message that was signed
  obtain ⟨k', m, hex, presents⟩ := checkSignature_true.mp accepts.signature
  have same := ideal.tags presented _ other k' k m message shown signed
    (mem_of_checkSigner accepts.signer) hex presents original
  rw [same] at presents
  have carried := same_of_presents signs.plain signs.message clean presents
  have carries := carries_of_same signs.plain clean carried
  -- so the entry is the approved one, and the key with it
  have entry_ := find_approved carries keyId approves accepts.signer
  obtain ⟨known, keyed', hex'⟩ := approves.key
  rw [keyed] at keyed'
  cases keyed'
  rw [entry_, hex'] at hex
  cases hex
  refine ⟨?_, ?_, ?_⟩
  · obtain ⟨v, looked, agree⟩ := accepts.stated
    rw [getOr_some carries.decision] at looked
    cases looked
    rw [Value.eq_str, Value.str.injEq, signs.decision] at agree
    have separates := ideal.decisions found decision accepts.result standing.decision
    have whole := digest_injective separates agree.symm
    exact ⟨decision, by rw [← whole]; exact accepts.result, standing.decision⟩
  · exact ⟨presented, _, shown, signed, by rw [carried, canonical]⟩
  · obtain ⟨v, lookedBound, -, item⟩ := carries.bound
    have claimed := accepts.claimed
    rw [getOr_some lookedBound] at claimed
    cases claimed
    have sealedItem := accepts.sealed_
    rw [item] at sealedItem
    cases sealedItem
    have holds := accepts.holds
    rw [evidenceHolds, signs.evidence] at holds
    exact Evidence.sameBundle_of_verify signs.named signs.listing standing.bundle ideal.bundles holds

/-- The files beside the bundle that `seal_run` writes. -/
theorem runWrites_eq {outDir : Str} (named : outDir ≠ []) (decision attestation envelope : Bytes) :
    ([(Path.ofStr (outDir ++ "/result.json"), decision),
      (Path.ofStr (outDir ++ "/attestation.json"), attestation),
      (Path.ofStr (outDir ++ "/run-envelope.json"), envelope)] : List (Path × Bytes)) =
      [((Path.ofStr outDir).sub ["result.json"], decision),
        ((Path.ofStr outDir).sub ["attestation.json"], attestation),
        ((Path.ofStr outDir).sub ["run-envelope.json"], envelope)] := by
  have first := @Path.ofStr_append outDir "result.json" named ⟨by decide, by decide, by decide⟩
  have second := @Path.ofStr_append outDir "attestation.json" named ⟨by decide, by decide, by decide⟩
  have third := @Path.ofStr_append outDir "run-envelope.json" named ⟨by decide, by decide, by decide⟩
  rw [← first, ← second, ← third]
  rfl

/-- A file written once below a directory without links. -/
theorem read_written {disk : Disk} {out root : Path} (linkless : disk.Linkless out root)
    (name : Str) (bytes : Bytes) (front back : List (Path × Bytes)) (up : name ≠ "..")
    (plain : name ≠ [] ∧ name ≠ "." ∧ Chr.ofChar '/' ∉ name)
    (others : ∀ write ∈ back, ∃ other, write.1 = out.sub [other] ∧ other ≠ ".." ∧ other ≠ name) :
    (disk.after (front ++ [(out.sub [name], bytes)] ++ back)).exists_ (out.join name) = true ∧
      (disk.after (front ++ [(out.sub [name], bytes)] ++ back)).read (out.join name) = .ok bytes := by
  have joined : out.join name = out.sub [name] :=
    Path.join_names out [name] (by simp) (by simpa using plain)
  have place : disk.locate (out.sub [name]) = root.sub [name] :=
    linkless.locate (by simpa using Ne.symm up)
  have stands : disk.written (front ++ [(out.sub [name], bytes)] ++ back) (root.sub [name]) =
      some bytes := by
    apply Disk.written_between
    · intro write later there
      obtain ⟨other, at_, up', apart⟩ := others write later
      rw [at_, linkless.locate (by simpa using Ne.symm up')] at there
      exact apart (List.cons.inj (Path.sub_injective there)).1
    · apply Disk.written_of_forall
      · exact ⟨_, List.mem_singleton_self _, place⟩
      · intro write inside _
        rw [List.mem_singleton.mp inside]
  rw [joined]
  simp only [Disk.after, place, stands, Option.isSome_some, Bool.true_or, and_self]

/-- The decision and the attestation stand after the writes of `seal_run`. -/
theorem standing_after {disk : Disk} {out root : Path} (linkless : disk.Linkless out root)
    (log : List (Path × Bytes)) (decision attestation envelope : Bytes) :
    let after := disk.after (log ++ [(out.sub ["result.json"], decision),
      (out.sub ["attestation.json"], attestation), (out.sub ["run-envelope.json"], envelope)])
    (after.exists_ (out.join "result.json") = true ∧ after.read (out.join "result.json") = .ok decision) ∧
      (after.exists_ (out.join "attestation.json") = true ∧
        after.read (out.join "attestation.json") = .ok attestation) := by
  constructor
  · have first := read_written linkless "result.json" decision log
      [(out.sub ["attestation.json"], attestation), (out.sub ["run-envelope.json"], envelope)]
      (by decide) (by decide)
      (by
        simp only [List.forall_mem_cons]
        exact ⟨⟨_, rfl, by decide, by decide⟩, ⟨_, rfl, by decide, by decide⟩, by simp⟩)
    rwa [List.append_assoc] at first
  · have second := read_written linkless "attestation.json" attestation
      (log ++ [(out.sub ["result.json"], decision)])
      [(out.sub ["run-envelope.json"], envelope)] (by decide) (by decide)
      (by
        simp only [List.forall_mem_cons]
        exact ⟨⟨_, rfl, by decide, by decide⟩, by simp⟩)
    rwa [List.append_assoc, List.append_assoc] at second

/-- The files of a run that was sealed where it could be written, and what it signed. -/
theorem standing_of_sealed {p : Printer} {disk : Disk} {root : Path} {env : SignerEnv}
    {outDir : Str} {findings redact : List Value} {retention : Dict Str Value}
    {ledger : List Evaluate.Row} {reported : List Result.Reported} {ids : Identities} {stageNo : Int}
    {stage semantics ctx : Value} {blocked : Bool} {world middle last : World} {refs : List Str}
    {evidenceDigest : Str} {res : Value} {code : Int}
    (linkless : disk.Linkless (Path.ofStr outDir) root) (named : outDir ≠ [])
    (separate : Evidence.MarksSeparate (Evidence.secrets redact) retention findings)
    (bundled : Evidence.sealFindings disk findings outDir redact retention world =
      (.ok (refs, evidenceDigest), middle))
    (writable : middle.fates = [])
    (built : Result.build p ledger reported ids stageNo semantics evidenceDigest (some blocked) =
      .ok res)
    (loaded : Json.Clean ctx) (staged : ctx.item "stage" = .ok stage)
    (labelled : getOr ctx "semantics" (.str "fresh-promotion") = .ok semantics)
    (promoting : required stage semantics = .ok true)
    (ran : sealRun env outDir res ledger ids evidenceDigest ctx blocked middle = (.ok code, last)) :
    ∃ s k message decision objects manifest time,
      Standing (disk.after last.log) (Path.ofStr outDir) s k message decision objects manifest ∧
      Signs s k message decision objects manifest ∧
      Seals env ids evidenceDigest res time s k message decision ∧
      ∀ key ∈ boundKeys, (Json.decoded res).get key = .ok (Dict.get? s.boundPairs key) := by
  obtain ⟨time, s, k, message, decision, bytes, envelope, seals, encoded, log⟩ :=
    seals_of_sealRun writable loaded staged labelled promoting ran
  rw [runWrites_eq named] at log
  obtain ⟨objects, manifest, plainObjects, encodedManifest, same, stored⟩ :=
    Evidence.stored_of_sealed [((Path.ofStr outDir).sub ["result.json"], decision),
        ((Path.ofStr outDir).sub ["attestation.json"], bytes),
        ((Path.ofStr outDir).sub ["run-envelope.json"], envelope)] linkless bundled separate
      (by
        simp only [List.forall_mem_cons]
        exact ⟨⟨_, rfl, by decide, by decide⟩, ⟨_, rfl, by decide, by decide⟩,
          ⟨_, rfl, by decide, by decide⟩, by simp⟩)
  rw [← log] at stored
  have files := standing_after linkless middle.log decision bytes envelope
  rw [← log] at files
  have signs : Signs s k message decision objects manifest :=
    ⟨seals.plain, seals.encodedMessage, seals.made.decision, plainObjects, encodedManifest,
      by rw [seals.made.evidence, same]⟩
  have standing : Standing (disk.after last.log) (Path.ofStr outDir) s k message decision objects
      manifest := by
    refine ⟨?_, files.1.2, ⟨bytes, files.2.2, encoded⟩, stored⟩
    rw [files.1.1, files.2.1]
    rfl
  obtain ⟨kvs, rfl, fields⟩ := build_ok built
  exact ⟨s, k, message, decision, objects, manifest, time, standing, signs, seals,
    fields.stated seals.made seals.plain⟩

theorem bound_properties :
    Schemacheck.boundDigests.properties = boundKeys.map (fun key => (key, Schemacheck.digest)) := rfl

theorem validate_bound {s : Statement} (texts : ∀ kv ∈ s.boundPairs, ∃ text, kv.2 = .str text ∧
      Schemacheck.digestPattern.re.fullmatch text = true) (path : Str) :
    Schemacheck.validate Schemacheck.boundDigests (.dict s.boundPairs) path = [] := by
  refine Schemacheck.validate_object (fun _ => ⟨rfl, rfl, rfl⟩) rfl ?_ path
  intro key sub stated v found path
  rw [bound_properties] at stated
  obtain ⟨_, -, same⟩ := List.mem_map.mp stated
  cases same
  obtain ⟨text, shown, matched⟩ := texts _ (Dict.mem_of_get? found)
  dsimp only at shown
  rw [shown]
  exact Schemacheck.validate_matching matched path

/-- A statement of digests and a date-time is signed in the form the schema demands. -/
theorem validate_signed {s : Statement} {tag time : Str}
    (decided : Schemacheck.digestPattern.re.fullmatch s.decision = true)
    (texts : ∀ kv ∈ s.boundPairs, ∃ text, kv.2 = .str text ∧
      Schemacheck.digestPattern.re.fullmatch text = true)
    (issuedAt : s.issuedAt = .str time) (timed : Schemacheck.validDateTime time = true) (path : Str) :
    Schemacheck.validate Schemacheck.attestation (.dict (s.signed tag)) path = [] := by
  refine Schemacheck.validate_object (fun _ => ⟨rfl, rfl, rfl⟩) rfl ?_ path
  intro key sub stated v found path
  simp only [Schemacheck.attestation, List.mem_cons, Prod.mk.injEq, List.not_mem_nil, or_false]
    at stated
  rcases stated with ⟨rfl, rfl⟩ | ⟨rfl, rfl⟩ | ⟨rfl, rfl⟩ | ⟨rfl, rfl⟩ | ⟨rfl, rfl⟩ | ⟨rfl, rfl⟩
  · cases found
    rfl
  · cases found
    exact Schemacheck.validate_matching decided path
  · cases found
    exact validate_bound texts path
  · cases found
    rfl
  · cases found
    rfl
  · cases found
    rw [issuedAt]
    simp [Schemacheck.validate, Schemacheck.valueErrors, Schemacheck.typeErrors,
      Schemacheck.TypeSpec.names, Schemacheck.isType, Value.isStr, Schemacheck.textErrors, timed,
      Schemacheck.numberErrors]

theorem sign_run {env : SignerEnv} {k payload : Bytes} (decisionBytes : Bytes) (ids : Identities)
    {evidenceDigest : Str} {evaluationTime : Value} (s : Statement) (keyed : key env = .ok (some k))
    (stated : statement env decisionBytes ids evidenceDigest evaluationTime = .ok s)
    (encoded : canon (.dict s.unsigned) = .ok payload)
    (valid : Schemacheck.validate Schemacheck.attestation
      (.dict (s.signed (signature k payload))) "$" = []) :
    sign env decisionBytes ids evidenceDigest evaluationTime =
      .ok (.dict (s.signed (signature k payload))) := by
  unfold Statement.signed at valid
  unfold sign
  simp only [keyed, ok_bind, stated, encoded, valid, ne_eq, not_true_eq_false, ↓reduceIte, pure_ok]
  rfl

/-- Where nothing fails, a run that can be signed is sealed. -/
theorem sealRun_run {env : SignerEnv} (outDir : Str) {res : Value} {ledger : List Evaluate.Row}
    {ids : Identities} {evidenceDigest : Str} (ctx : Value) {stage semantics evaluationTime attestation
      decision : Value} {payload bytes enveloped : Bytes} {blocked : Bool} {world : World}
    (calm : world.fates = []) (staged : ctx.item "stage" = .ok stage)
    (labelled : getOr ctx "semantics" (.str "fresh-promotion") = .ok semantics)
    (promoting : required stage semantics = .ok true)
    (timed : ctx.item "evaluation_time" = .ok evaluationTime) (encoded : canon res = .ok payload)
    (signed : sign env payload ids evidenceDigest evaluationTime = .ok attestation)
    (encoded' : canon attestation = .ok bytes) (decided : res.item "decision" = .ok decision)
    (envelope_ : canon (envelope decision
      (Result.decide ledger ((integral? stage).getD 0) none (some blocked)).2 stage semantics true true
      (.str "attestation.json")) = .ok enveloped) :
    ∃ last, sealRun env outDir res ledger ids evidenceDigest ctx blocked world =
      (.ok (Result.decide ledger ((integral? stage).getD 0) none (some blocked)).2, last) := by
  obtain ⟨log, fates, temps⟩ := world
  cases calm
  have wrote : ∀ front path payload what, orAttestationError (emit path payload) what
      ⟨front, [], temps⟩ = (.ok (), ⟨front ++ [(path, payload)], [], temps⟩) := fun _ _ _ _ => rfl
  have fell := emitWithFallback_calm outDir payload (rfl : (⟨log, [], temps⟩ : World).fates = [])
  refine ⟨⟨log ++ [(Path.ofStr (outDir ++ "/result.json"), payload)] ++
      [(Path.ofStr (outDir ++ "/attestation.json"), bytes)] ++
      [(Path.ofStr (outDir ++ "/run-envelope.json"), enveloped)], [], temps⟩, ?_⟩
  unfold sealRun emitAttestation emitEnvelope
  simp only [Act.bind_run, Act.ofExcept_run, staged, labelled, encoded, fell, promoting, ↓reduceIte,
    timed, signed, encoded', wrote, decided, envelope_, Act.pure_run]

def pilotKey : EnvText := ⟨"000102030405060708090a0b0c0d0e0f101112131415161718191a1b1c1d1e1f", by decide⟩

def pilotEnv : SignerEnv := ⟨some pilotKey, none, none⟩

def pilotIds : Identities :=
  let d := digest .file []
  ⟨some d, some d, some d, some d, some d, some (.str "linux-amd64")⟩

def pilotCtx : Value :=
  .dict [("stage", .int 2), ("evaluation_time", .str "2026-01-02T03:04:05Z")]

def pilotSigner : Signer :=
  ⟨"signer-1", "pilot-signer", "000102030405060708090A0B0C0D0E0F101112131415161718191A1B1C1D1E1F",
    Utc.isoSeconds.write [2026, 1, 1, 0, 0, 0], Utc.isoSeconds.write [2027, 1, 1, 0, 0, 0], false⟩

def pilotSet : SignerSet where
  asOf := Utc.isoSeconds.write [2026, 6, 1, 0, 0, 0]
  signers := [pilotSigner]

def pilotBytes : Bytes := (List.range 32).map UInt8.ofNat

theorem pilot_key : key pilotEnv = .ok (some pilotBytes) := by decide +kernel

theorem pilot_approves : Approves pilotSet pilotSigner pilotEnv := by
  constructor
  · rfl
  · rfl
  · exact ⟨pilotBytes, pilot_key, by decide +kernel⟩
  · rfl
  · exact ⟨Utc.isoSeconds, _, _, _, by simp [Utc.Layout.Fits, Utc.isoSeconds],
      by simp [Utc.Layout.Fits, Utc.isoSeconds], by simp [Utc.Layout.Fits, Utc.isoSeconds],
      rfl, rfl, rfl, by decide, by decide⟩

def pilotStatement (decisionBytes : Bytes) (evidenceDigest : Str) : Statement :=
  let d := digest .file []
  ⟨digest .decision decisionBytes, .str d, .str d, .str d, .str d, d, evidenceDigest, "signer-1",
    "pilot-signer", .str "2026-01-02T03:04:05Z"⟩

theorem pilot_signs (decisionBytes manifest : Bytes) : ∃ attestation bytes,
    sign pilotEnv decisionBytes pilotIds (digest .evidenceManifest manifest)
      (.str "2026-01-02T03:04:05Z") = .ok attestation ∧ canon attestation = .ok bytes := by
  have matched : ∀ tag payload, ∃ text, Value.str (digest tag payload) = .str text ∧
      Schemacheck.digestPattern.re.fullmatch text = true :=
    fun tag payload => ⟨_, rfl, Schemacheck.matches_digest tag payload⟩
  have signed := sign_run decisionBytes pilotIds
    (pilotStatement decisionBytes (digest .evidenceManifest manifest)) pilot_key rfl
    (canon_ok.mpr ⟨rfl, rfl⟩)
    (validate_signed (Schemacheck.matches_digest _ _)
      (by
        simp only [Statement.boundPairs, pilotStatement, List.forall_mem_cons]
        exact ⟨matched _ _, matched _ _, matched _ _, matched _ _, matched _ _, matched _ _, by simp⟩)
      rfl (by decide +kernel) "$")
  exact ⟨_, _, signed, canon_ok.mpr ⟨rfl, rfl⟩⟩

theorem ideal_self (disk : Disk) (out : Path) (set : SignerSet) : Ideal disk disk out set := by
  constructor
  · intro b₁ b₂ first second _
    rw [first] at second
    cases second
    rfl
  · exact Evidence.separate_self disk out
  · intro presented original entry k k' m m' first second _ _ ⟨kvs, shape, encoded, _⟩
      ⟨kvs', shape', encoded', _⟩
    rw [first] at second
    cases second
    rw [shape] at shape'
    cases shape'
    rw [encoded] at encoded'
    exact Except.ok.inj encoded'

def asciiPrinter : Printer := ⟨fun _ => false, fun _ => []⟩

theorem clean_pilotCtx : Json.Clean pilotCtx := by
  apply clean_pairs (by decide) (by decide)
  simp only [List.forall_mem_cons]
  exact ⟨.int 2, .str (tidy_literal _ (by decide)), by simp⟩

def pilotManifest (objects : List Evidence.Sealed) : Bytes :=
  Utf8.ascii (Json.dumps (Evidence.manifestOf objects))

def pilotEvidence (objects : List Evidence.Sealed) : Str :=
  digest .evidenceManifest (pilotManifest objects)

/-- What the pilot directory holds once its findings are sealed. -/
def pilotMiddle (objects : List Evidence.Sealed) : World :=
  ⟨[] ++ Evidence.bundleWrites (Path.ofStr "/out") objects (pilotManifest objects), [], []⟩

theorem check_exit (ledger : List Evaluate.Row) (stage : Int) (blocked : Option Bool) :
    check (.int (Result.decide ledger stage none blocked).2) = .ok () := by
  unfold Result.decide
  simp only
  split
  · rfl
  split <;> rfl

theorem pilot_bundled {findings : List Value} {objects : List Evidence.Sealed}
    (each : findings.mapM (Evidence.sealOne (Evidence.secrets []) []) = .ok objects) :
    Evidence.sealFindings Evidence.blank findings "/out" [] [] ⟨[], [], []⟩ =
      (.ok (objects.map Evidence.Sealed.rel, pilotEvidence objects), pilotMiddle objects) :=
  Evidence.sealFindings_run rfl each
    (fun o inside => ⟨_, Evidence.contained_rel (Evidence.blank_linkless (Path.ofStr "/out"))
      (Evidence.plain_of_mapM each o inside)⟩)

/-- A pilot run with any ledger is sealed and signed. -/
theorem pilot_run {ledger : List Evaluate.Row} {reported : List Result.Reported} {blocked : Bool}
    {objects : List Evidence.Sealed} {res : Value}
    (built : Result.build asciiPrinter ledger reported pilotIds 2 (.str "fresh-promotion")
      (pilotEvidence objects) (some blocked) = .ok res) (fits : check res = .ok ()) :
    ∃ last, sealRun pilotEnv "/out" res ledger pilotIds (pilotEvidence objects) pilotCtx blocked
      (pilotMiddle objects) = (.ok (Result.decide ledger 2 none (some blocked)).2, last) := by
  obtain ⟨attestation, bytes, signed, encoded⟩ :=
    pilot_signs (Utf8.ascii (Json.dumps res)) (pilotManifest objects)
  obtain ⟨kvs, rfl, fields⟩ := build_ok built
  have enveloped : check (envelope (.str (Result.decide ledger 2 none (some blocked)).1.name)
      (Result.decide ledger 2 none (some blocked)).2 (.int 2) (.str "fresh-promotion") true true
      (.str "attestation.json")) = .ok () := by
    unfold envelope
    rw [check, checkPairs_ok]
    simp only [List.forall_mem_cons, check_exit]
    exact ⟨rfl, rfl, trivial, rfl, rfl, rfl, rfl, rfl, by simp⟩
  exact sealRun_run "/out" pilotCtx rfl rfl rfl rfl rfl
    (canon_ok.mpr ⟨fits, rfl⟩) signed encoded (Value.item_ok.mpr ⟨kvs, rfl, fields.decision⟩)
    (canon_ok.mpr ⟨enveloped, rfl⟩)

def pilotObjects : List Evidence.Sealed :=
  [Evidence.objectDoc "k", Evidence.objectDoc "k", Evidence.objectDoc "l"]

end DevGate.Attest
