import DevGate.Coherence.ConcludedRun
import DevGate.Coherence.EvidenceSeal
import DevGate.Py.Writes

set_option autoImplicit false

/- Which files each step of a run may write, by their names. -/
namespace DevGate

open Py Canon

/-- The write is to a file of one of these names. -/
def Named (names : List Str) (write : Path × Bytes) : Prop := write.1.name ∈ names

theorem Named.mono {names more : List Str} (inside : names ⊆ more) {write : Path × Bytes}
    (named : Named names write) : Named more write := inside named

/-- A file of a directory that is named by a text. -/
theorem named_file (outDir : Str) {name : Str} {names : List Str} (listed : name ∈ names)
    (plain : Path.IsName name) (payload : Bytes) :
    Named names (Path.ofStr (outDir ++ Chr.ofChar '/' :: name), payload) := by
  unfold Named
  dsimp only
  rwa [Path.name_ofStr_append outDir plain]

theorem writes_emitWithFallback (outDir : Str) (payload : Bytes) :
    Act.Writes (fun write => Named ["result.json"] write ∧ write.2 = payload)
      (Result.emitWithFallback outDir payload) := by
  have fits : ∀ dir : Str, Named ["result.json"] (Path.ofStr (dir ++ "/result.json"), payload) ∧
      (Path.ofStr (dir ++ "/result.json"), payload).2 = payload :=
    fun dir => ⟨named_file dir List.mem_cons_self (by decide) payload, rfl⟩
  refine Act.Writes.catching ?_ (fun _ => ?_)
  · exact (Act.Writes.replace (fits outDir)).bind (fun _ => Act.Writes.pure _)
  · exact Act.Writes.mkdtemp.bind (fun fallback =>
      (Act.Writes.replace (fits fallback)).bind (fun _ => Act.Writes.pure _))

/-- The names of the files that a run is read by. -/
def runFiles : List Str := ["result.json", "attestation.json", "run-envelope.json"]

namespace Evidence

/-- A sealed object is no file of the run's own. -/
theorem file_not_mem (o : Sealed) : o.file ∉ runFiles := by
  have dashes : ("--" : Str) <:+: o.file := by
    unfold Sealed.file
    exact ⟨o.aid, o.mark ++ (".json" : Str), by simp only [List.append_assoc]⟩
  have single : ∀ name ∈ runFiles, ¬ ("--" : Str) <:+: name := by decide
  exact fun listed => single _ listed dashes

theorem writes_orEvidenceError {body : Act Unit} {what : Text} {P : Path × Bytes → Prop}
    (writes : Act.Writes P body) : Act.Writes P (orEvidenceError body what) :=
  writes.catching (fun _ => Act.Writes.raise _)

/-- Sealing leaves the run's own files alone. -/
theorem writes_sealAll (disk : Disk) (out : Path) (values : List Str) (retention : Dict Str Value)
    (findings : List Value) :
    Act.Writes (fun write => ¬ Named runFiles write) (sealAll disk out values retention findings) := by
  induction findings with
  | nil => exact Act.Writes.pure _
  | cons f rest ih =>
      unfold sealAll
      refine Act.Writes.after (fun o made => ?_)
      have named := (plain_of_sealOne made).named
      have aside : ¬ Named runFiles (out.join o.rel, o.payload) := by
        unfold Named
        dsimp only
        rw [Sealed.join_rel named]
        have name : (out.sub o.names).name = o.file := Path.name_sub out ["evidence", "findings"]
        rw [name]
        exact file_not_mem o
      refine (Act.Writes.ofExcept _).bind (fun _ => ?_)
      refine (writes_orEvidenceError (Act.Writes.replace aside)).bind (fun _ => ?_)
      exact ih.bind (fun _ => Act.Writes.pure _)

theorem writes_sealFindings (disk : Disk) (findings : List Value) (outputDir : Str)
    (redact : List Value) (retention : Dict Str Value) :
    Act.Writes (fun write => ¬ Named runFiles write)
      (sealFindings disk findings outputDir redact retention) := by
  have aside : ∀ payload : Bytes,
      ¬ Named runFiles ((Path.ofStr outputDir).join "evidence-manifest.json", payload) := by
    intro payload
    unfold Named
    dsimp only
    rw [Path.name_join _ (by decide)]
    decide
  unfold sealFindings
  refine (writes_orEvidenceError Act.Writes.mkdir).bind (fun _ => ?_)
  refine (Act.Writes.ofExcept _).bind (fun _ => ?_)
  refine (writes_sealAll _ _ _ _ _).bind (fun _ => ?_)
  refine (Act.Writes.ofExcept _).bind (fun _ => ?_)
  refine (Act.Writes.ofExcept _).bind (fun _ => ?_)
  exact (writes_orEvidenceError (Act.Writes.replace (aside _))).bind (fun _ => Act.Writes.pure _)

end Evidence

namespace Attest

theorem writes_orAttestationError {body : Act Unit} {what : Str} {P : Path × Bytes → Prop}
    (writes : Act.Writes P body) : Act.Writes P (orAttestationError body what) :=
  writes.catching (fun _ => Act.Writes.raise _)

theorem writes_emitEnvelope (outDir : Str) (decision : Value) (exitCode : Int)
    (stage semantics : Value) (signed : Bool) (attestationPath : Value) :
    Act.Writes (Named ["run-envelope.json"])
      (emitEnvelope outDir decision exitCode stage semantics signed attestationPath) :=
  (Act.Writes.ofExcept _).bind (fun _ => (Act.Writes.ofExcept _).bind (fun _ =>
    writes_orAttestationError (Act.Writes.replace
      (named_file outDir List.mem_cons_self (by decide) _))))

theorem writes_emitAttestation (env : SignerEnv) (outDir : Str) (payload : Bytes)
    (ids : Result.Identities) (evidenceDigest : Str) (evaluationTime : Value) :
    Act.Writes (Named ["attestation.json"])
      (emitAttestation env outDir payload ids evidenceDigest evaluationTime) :=
  (Act.Writes.ofExcept _).bind (fun _ => (Act.Writes.ofExcept _).bind (fun _ =>
    writes_orAttestationError (Act.Writes.replace
      (named_file outDir List.mem_cons_self (by decide) _))))

/-- A run that needs no attestation writes none. -/
theorem writes_sealRun_unsigned {env : SignerEnv} {outDir : Str} {res : Value}
    {ledger : List Evaluate.Row} {ids : Result.Identities} {evidenceDigest : Str} {ctx semantics : Value}
    {blocked : Bool} (labelled : getOr ctx "semantics" (.str "fresh-promotion") = .ok semantics)
    (spared : semantics.eq (.str "fresh-promotion") = false) :
    Act.Writes (Named ["result.json", "run-envelope.json"])
      (sealRun env outDir res ledger ids evidenceDigest ctx blocked) := by
  unfold sealRun
  refine (Act.Writes.ofExcept _).bind (fun stage => ?_)
  refine Act.Writes.after (fun semantics' same => ?_)
  rw [labelled] at same
  cases same
  refine (Act.Writes.ofExcept _).bind (fun payload => ?_)
  refine ((writes_emitWithFallback outDir payload).mono
    (fun write wrote => wrote.1.mono (by simp))).bind (fun _ => ?_)
  refine Act.Writes.after (fun signed asked => ?_)
  have unsigned : signed = false := by
    unfold required at asked
    split at asked
    · cases asked
      rw [spared, Bool.and_false]
    · cases asked
  rw [unsigned]
  refine (Act.Writes.ofExcept _).bind (fun decision => ?_)
  exact ((writes_emitEnvelope _ _ _ _ _ _ _).mono (fun write wrote => wrote.mono (by simp))).bind
    (fun _ => Act.Writes.pure _)

end Attest

namespace Result

theorem writes_fail (p : Printer) (outDir errorClass : Str) (reason : Text) (stage : Str)
    (ids : Identities) (ledger : Option (List Evaluate.Row)) :
    Act.Writes (Named ["result.json"]) (fail p outDir errorClass reason stage ids ledger) :=
  (Act.Writes.ofExcept _).bind (fun _ =>
    ((writes_emitWithFallback _ _).mono (fun _ wrote => wrote.1)).bind (fun _ => Act.Writes.pure _))

end Result

namespace Run

/-- The claim stands in files of its own. -/
theorem writes_emitDecisionClaim (p : Printer) (d : Decided) :
    Act.Writes (fun write => ¬ Named runFiles write) (emitDecisionClaim p d) := by
  have first : ∀ payload : Bytes, ¬ Named runFiles
      ((Path.ofStr d.annotated.outDir).join "decision.claim.json", payload) := by
    intro payload
    unfold Named
    dsimp only
    rw [Path.name_join _ (by decide)]
    decide
  have second : ∀ payload : Bytes, ¬ Named runFiles (Path.ofStr
      (((Path.ofStr d.annotated.outDir).join "decision.claim.json").str ++ ".digest"), payload) := by
    intro payload
    unfold Named
    dsimp only
    rw [Path.name_beside _ (by decide) (by decide)]
    decide
  refine Act.Writes.catching ?_ (fun _ => Act.Writes.pure _)
  refine (Act.Writes.ofExcept _).bind (fun _ => (Act.Writes.ofExcept _).bind (fun _ =>
    (Act.Writes.ofExcept _).bind (fun _ => ?_)))
  refine (Act.Writes.replace (first _)).bind (fun _ => ?_)
  exact (Act.Writes.ofExcept _).bind (fun _ => Act.Writes.replace (second _))

end Run

end DevGate
