import DevGate.Coherence.SignerWindows
import DevGate.Lib.Fold

set_option autoImplicit false

/- When the verification of a sealed run answers, and on which artifacts it raises instead. -/
namespace DevGate

open Py Canon
open Fold (Ends ends_bind)

/-- A document that parses, or fails as the verifiers expect: unread, or no JSON. A text that is
no UTF-8, or that holds an integer too long to read, does neither. -/
def Proper (disk : Disk) (p : Path) : Prop :=
  Fails (fun e => e.isA [.osError, .jsonDecodeError] = true) (do Json.loadText (← disk.read p))

theorem ends_get {v : Value} {key : Str} : Ends (v.get key) ↔ ∃ kvs, v = .dict kvs := by
  cases v <;> simp [Value.get, Ends]

theorem ends_item {v : Value} {key : Str} :
    Ends (v.item key) ↔ ∃ kvs, v = .dict kvs ∧ (Dict.get? kvs key).isSome = true := by
  constructor
  · rintro ⟨found, looked⟩
    obtain ⟨kvs, shape, held⟩ := Value.item_ok.mp looked
    exact ⟨kvs, shape, by rw [held]; rfl⟩
  · rintro ⟨kvs, shape, some_⟩
    obtain ⟨found, held⟩ := Option.isSome_iff_exists.mp some_
    exact ⟨found, Value.item_ok.mpr ⟨kvs, shape, held⟩⟩

namespace Evidence

section

variable {disk : Disk} {out : Path}

/-- The file an entry lists is there, with the digest the entry states. -/
def Meets (disk : Disk) (out : Path) (entry : Value) : Prop :=
  ∃ kvs fp bytes, entry = .dict kvs ∧
    contained disk out ((Dict.get? kvs "path").getD .null) = .ok fp ∧ disk.isFile fp = true ∧
      disk.read fp = .ok bytes ∧
        Dict.get? kvs "digest" = some (.str (digest .evidenceManifest bytes))

/-- An entry that the verifier can judge: an object whose path resolves, into the bundle or not,
and that states some digest where its file is there. -/
def EntryAnswers (disk : Disk) (out : Path) (entry : Value) : Prop :=
  ∃ kvs, entry = .dict kvs ∧
    Fails (fun e => e.isA [evidenceError] = true)
      (contained disk out ((Dict.get? kvs "path").getD .null)) ∧
    ∀ fp, contained disk out ((Dict.get? kvs "path").getD .null) = .ok fp → disk.isFile fp = true →
      Ends (disk.read fp) ∧ (Dict.get? kvs "digest").isSome = true

theorem verifyObject_ends {entry : Value} :
    Ends (verifyObject disk out entry) ↔ EntryAnswers disk out entry := by
  unfold verifyObject EntryAnswers
  rw [ends_bind]
  constructor
  · rintro ⟨path, looked, answered⟩
    obtain ⟨kvs, rfl, rfl⟩ := Value.get_ok.mp looked
    refine ⟨kvs, rfl, ?_⟩
    cases placed : contained disk out ((Dict.get? kvs "path").getD .null) with
    | error e =>
        rw [placed] at answered
        dsimp only at answered
        refine ⟨Fails.error ?_, fun _ same => by cases same⟩
        by_contra foreign
        rw [if_neg foreign] at answered
        exact Fold.ends_error e answered
    | ok fp =>
        rw [placed] at answered
        dsimp only at answered
        refine ⟨Fails.ok, ?_⟩
        rintro _ ⟨⟩ file
        rw [if_pos file] at answered
        obtain ⟨bytes, read, answered⟩ := ends_bind.mp answered
        obtain ⟨recorded, looked', -⟩ := ends_bind.mp answered
        obtain ⟨_, ⟨⟩, some_⟩ := ends_item.mp ⟨recorded, looked'⟩
        exact ⟨⟨bytes, read⟩, some_⟩
  · rintro ⟨kvs, rfl, refuses, judged⟩
    refine ⟨Dict.get? kvs "path", rfl, ?_⟩
    cases placed : contained disk out ((Dict.get? kvs "path").getD .null) with
    | error e =>
        dsimp only
        rw [if_pos (refuses e placed)]
        exact Fold.ends_ok _
    | ok fp =>
        dsimp only
        by_cases file : disk.isFile fp = true
        · rw [if_pos file]
          obtain ⟨read, some_⟩ := judged fp placed file
          exact read.bind (fun _ _ => (ends_item.mpr ⟨kvs, rfl, some_⟩).bind (fun _ _ => Fold.ends_ok _))
        · rw [if_neg file]
          exact Fold.ends_ok _

theorem verifyObject_meets {entry : Value} :
    verifyObject disk out entry = .ok true ↔ Meets disk out entry := by
  unfold verifyObject Meets
  constructor
  · intro ran
    obtain ⟨path, looked, ran⟩ := bind_ok.mp ran
    obtain ⟨kvs, rfl, rfl⟩ := Value.get_ok.mp looked
    cases placed : contained disk out ((Dict.get? kvs "path").getD .null) with
    | error e =>
        rw [placed] at ran
        dsimp only at ran
        split at ran <;> cases ran
    | ok fp =>
        rw [placed] at ran
        dsimp only at ran
        split at ran
        · rename_i file
          obtain ⟨bytes, read, ran⟩ := bind_ok.mp ran
          obtain ⟨recorded, looked', ran⟩ := bind_ok.mp ran
          obtain ⟨_, ⟨⟩, held⟩ := Value.item_ok.mp looked'
          rw [(Value.eq_str _ _).mp (Except.ok.inj ran)] at held
          exact ⟨kvs, fp, bytes, rfl, placed, file, read, held⟩
        · cases ran
  · rintro ⟨kvs, fp, bytes, rfl, placed, file, read, held⟩
    refine bind_ok.mpr ⟨Dict.get? kvs "path", rfl, ?_⟩
    rw [placed]
    dsimp only
    rw [if_pos file, read, ok_bind, Value.item_ok.mpr ⟨kvs, rfl, held⟩, ok_bind]
    exact congrArg Except.ok ((Value.eq_str _ _).mpr rfl)

theorem verifyObjects_meets {entries : List Value} :
    verifyObjects disk out entries = .ok true ↔ ∀ e ∈ entries, Meets disk out e := by
  induction entries with
  | nil => simp [verifyObjects]
  | cons entry rest ih =>
      rw [verifyObjects, List.forall_mem_cons, ← ih, ← verifyObject_meets]
      cases verifyObject disk out entry with
      | error e => simp
      | ok answer => cases answer <;> simp

/-- The entries are judged one after another, up to the first whose file does not meet it. -/
theorem verifyObjects_ends {entries : List Value} :
    Ends (verifyObjects disk out entries) ↔ ∀ front entry back, entries = front ++ entry :: back →
      (∀ e ∈ front, Meets disk out e) → EntryAnswers disk out entry := by
  induction entries with
  | nil => simp [verifyObjects]
  | cons first rest ih =>
      rw [verifyObjects, ends_bind]
      constructor
      · rintro ⟨answer, here, later⟩ front entry back split met
        cases front with
        | nil =>
            cases split
            exact verifyObject_ends.mp ⟨answer, here⟩
        | cons other front =>
            cases split
            rw [List.forall_mem_cons, ← verifyObject_meets, here] at met
            cases met.1
            exact ih.mp later front entry back rfl met.2
      · intro each
        obtain ⟨answer, here⟩ := verifyObject_ends.mpr (each [] first rest rfl (by simp))
        refine ⟨answer, here, ?_⟩
        cases answer with
        | false => exact Fold.ends_ok _
        | true =>
            refine ih.mpr ?_
            intro front entry back split met
            refine each (first :: front) entry back (by rw [split]; rfl) ?_
            rw [List.forall_mem_cons]
            exact ⟨verifyObject_meets.mp here, met⟩

end

/-- A manifest that the verifier can judge: an object whose entries it can, up to the first that
is not met, and which is canonical where all are met. -/
def ManifestAnswers (disk : Disk) (out : Path) (manifest : Value) : Prop :=
  ∃ kvs objects, manifest = .dict kvs ∧
    ((Dict.get? kvs "objects").getD (.list [])).iter = .ok objects ∧
    (∀ front entry back, objects = front ++ entry :: back →
      (∀ e ∈ front, Meets disk out e) → EntryAnswers disk out entry) ∧
    ((∀ e ∈ objects, Meets disk out e) → check manifest = .ok ())

/-- The evidence of a run directory that the verifier can judge. -/
def Answers (disk : Disk) (runDir : Str) : Prop :=
  let place := (Path.ofStr runDir).join "evidence-manifest.json"
  disk.exists_ place = true → Proper disk place ∧
    ∀ manifest, (do Json.loadText (← disk.read place)) = .ok manifest →
      ManifestAnswers disk (Path.ofStr runDir) manifest

theorem loadManifest_none {disk : Disk} {out : Path}
    (proper : Proper disk (out.join "evidence-manifest.json")) {e : Exc}
    (failed : (do Json.loadText (← disk.read (out.join "evidence-manifest.json"))) =
      (.error e : Except Exc Value)) : loadManifest disk out = .ok none := by
  unfold loadManifest
  rw [failed]
  dsimp only
  rw [if_pos (proper e failed)]

theorem loadManifest_ends {disk : Disk} {out : Path} :
    Ends (loadManifest disk out) ↔ Proper disk (out.join "evidence-manifest.json") := by
  constructor
  · rintro ⟨found, ran⟩ e failed
    unfold loadManifest at ran
    rw [failed] at ran
    dsimp only at ran
    split at ran
    · assumption
    · cases ran
  · intro proper
    cases read : (do Json.loadText (← disk.read (out.join "evidence-manifest.json")) :
      Except Exc Value) with
    | error e => exact ⟨none, loadManifest_none proper read⟩
    | ok manifest =>
        refine ⟨some manifest, ?_⟩
        unfold loadManifest
        rw [read]

theorem digestObj_ends {tag : RoleTag} {v : Value} : Ends (digestObj tag v) ↔ check v = .ok () := by
  unfold digestObj canon
  cases check v with
  | error e => simp
  | ok u => simp

theorem verify_ends {disk : Disk} {runDir expected : Str} :
    Ends (verify disk runDir expected) ↔ Answers disk runDir := by
  unfold verify Answers
  dsimp only
  by_cases there : disk.exists_ ((Path.ofStr runDir).join "evidence-manifest.json") = true
  · rw [if_pos there, ends_bind]
    simp only [there, true_implies]
    constructor
    · rintro ⟨found, loaded, answered⟩
      have proper := loadManifest_ends.mp ⟨found, loaded⟩
      refine ⟨proper, fun manifest read => ?_⟩
      have same : loadManifest disk (Path.ofStr runDir) = .ok (some manifest) := by
        unfold loadManifest
        rw [read]
      rw [same] at loaded
      cases loaded
      obtain ⟨entries, looked, answered⟩ := ends_bind.mp answered
      obtain ⟨kvs, rfl, rfl⟩ := Value.get_ok.mp looked
      obtain ⟨objects, listed, answered⟩ := ends_bind.mp answered
      obtain ⟨met, judged, answered⟩ := ends_bind.mp answered
      refine ⟨kvs, objects, rfl, listed, verifyObjects_ends.mp ⟨met, judged⟩, ?_⟩
      intro all
      rw [verifyObjects_meets.mpr all] at judged
      cases judged
      rw [if_pos rfl] at answered
      obtain ⟨actual, digested, -⟩ := ends_bind.mp answered
      exact digestObj_ends.mp ⟨actual, digested⟩
    · rintro ⟨proper, judged⟩
      obtain ⟨found, loaded⟩ := loadManifest_ends.mpr proper
      refine ⟨found, loaded, ?_⟩
      cases found with
      | none => exact Fold.ends_ok _
      | some manifest =>
          obtain ⟨bytes, read, parsed⟩ := loadManifest_ok.mp loaded
          have document : (do Json.loadText (← disk.read
              ((Path.ofStr runDir).join "evidence-manifest.json"))) = .ok manifest := by
            rw [read]
            exact parsed
          obtain ⟨kvs, objects, rfl, listed, each, canonical⟩ := judged manifest document
          dsimp only
          rw [Value.get_dict, ok_bind, listed, ok_bind]
          obtain ⟨met, ran⟩ := verifyObjects_ends.mpr each
          rw [ran, ok_bind]
          cases met with
          | false => exact Fold.ends_ok _
          | true =>
              rw [if_pos rfl]
              exact (digestObj_ends.mpr (canonical (verifyObjects_meets.mp ran))).bind
                (fun _ _ => Fold.ends_ok _)
  · rw [if_neg there]
    exact ⟨fun _ present => absurd present there, fun _ => Fold.ends_ok _⟩

end Evidence

namespace Attest

/-- An attestation whose signer can be looked up. -/
def NamesSigner (attestation : Value) : Prop :=
  ∃ kvs signer, attestation = .dict kvs ∧
    (Dict.get? kvs "signer").getD (.dict []) = .dict signer

theorem getOr_dict (kvs : Dict Str Value) (key : Str) (default : Value) :
    getOr (.dict kvs) key default = .ok ((Dict.get? kvs key).getD default) := rfl

theorem ends_getOr {v : Value} {key : Str} {default : Value} :
    Ends (getOr v key default) ↔ ∃ kvs, v = .dict kvs := by
  cases v <;> simp [getOr, Value.get, Ends]

theorem checkSigner_ends {attestation : Value} {set : SignerSet} :
    Ends (checkSigner attestation set) ↔ NamesSigner attestation := by
  unfold checkSigner NamesSigner
  constructor
  · intro ran
    obtain ⟨signer, looked, ran⟩ := ends_bind.mp ran
    obtain ⟨keyId, named, -⟩ := ends_bind.mp ran
    obtain ⟨kvs, rfl⟩ := ends_getOr.mp ⟨signer, looked⟩
    obtain ⟨own, rfl⟩ := ends_getOr.mp ⟨keyId, named⟩
    exact ⟨kvs, own, rfl, Except.ok.inj looked⟩
  · rintro ⟨kvs, signer, rfl, named⟩
    rw [getOr_dict, ok_bind, named, getOr_dict, ok_bind]
    cases set.signers.find? (fun s => Value.eq (.str s.keyId) ((Dict.get? signer "key_id").getD (.str [])))
      with
    | none => exact Fold.ends_ok _
    | some entry =>
        dsimp only
        rw [getOr_dict, ok_bind]
        exact Fold.ends_ite (Fold.ends_ok _) (Fold.ends_ite (Fold.ends_ok _)
          (Fold.ends_ite (Fold.ends_ok _) (Fold.ends_ite (Fold.ends_ok _) (Fold.ends_ok _))))

/-- A signature that can be compared: under a key of whole bytes, over a canonical attestation,
by an ASCII text. -/
structure Comparable (attestation : Dict Str Value) (entry : Signer) : Prop where
  key : (fromhex? entry.key).isSome = true
  unsigned : check (.dict (Dict.erase attestation "signature")) = .ok ()
  text : ∃ tag, (Dict.get? attestation "signature").getD (.str []) = .str tag ∧ Utf8.IsAscii tag

theorem compareDigest_ends {expected : Str} {presented : Value} :
    Ends (compareDigest expected presented) ↔ ∃ tag, presented = .str tag ∧ Utf8.IsAscii tag := by
  unfold Utf8.IsAscii
  cases presented with
  | str s =>
      rw [compareDigest]
      simp only [Value.str.injEq, exists_eq_left']
      split
      · rename_i ascii
        rw [List.all_eq_true] at ascii
        simp only [Fold.ends_ok, true_iff]
        exact fun c inside => of_decide_eq_true (ascii c inside)
      · rename_i wide
        simp only [Fold.ends_error, false_iff]
        intro ascii
        apply wide
        rw [List.all_eq_true]
        exact fun c inside => decide_eq_true (ascii c inside)
  | _ => simp [compareDigest]

theorem checkSignature_ends {kvs : Dict Str Value} {entry : Signer} :
    Ends (checkSignature (.dict kvs) entry) ↔ Comparable kvs entry := by
  unfold checkSignature fromhex canon
  constructor
  · intro ran
    obtain ⟨k, keyed, ran⟩ := ends_bind.mp ran
    obtain ⟨payload, encoded, ran⟩ := ends_bind.mp ran
    obtain ⟨_, checked, -⟩ := ends_bind.mp ⟨payload, encoded⟩
    refine ⟨?_, checked, compareDigest_ends.mp ran⟩
    split at keyed
    · rename_i bytes decoded
      rw [decoded]
      rfl
    · cases keyed
  · rintro ⟨key, unsigned, text⟩
    obtain ⟨k, keyed⟩ := Option.isSome_iff_exists.mp key
    rw [keyed]
    dsimp only
    rw [ok_bind, unsigned, ok_bind, pure_ok, ok_bind]
    exact compareDigest_ends.mpr text

theorem unbound_ends {resultDoc bound : Value} {key : Str} {rest : List Str} :
    Ends (unbound resultDoc bound (key :: rest)) ↔
      ∃ stated claimed, resultDoc = .dict stated ∧ bound = .dict claimed := by
  constructor
  · intro ran
    rw [unbound] at ran
    obtain ⟨v, looked, ran⟩ := ends_bind.mp ran
    obtain ⟨w, looked', -⟩ := ends_bind.mp ran
    obtain ⟨stated, rfl⟩ := ends_get.mp ⟨v, looked⟩
    obtain ⟨claimed, rfl⟩ := ends_get.mp ⟨w, looked'⟩
    exact ⟨stated, claimed, rfl, rfl⟩
  · rintro ⟨stated, claimed, rfl, rfl⟩
    have runs : ∀ keys, Ends (unbound (.dict stated) (.dict claimed) keys) := by
      intro keys
      induction keys with
      | nil => exact Fold.ends_ok _
      | cons key rest ih =>
          rw [unbound, Value.get_dict, ok_bind, Value.get_dict, ok_bind]
          exact Fold.ends_ite ih (Fold.ends_ok _)
    exact runs _

theorem unbound_agree {stated claimed : Dict Str Value} {keys : List Str} :
    unbound (.dict stated) (.dict claimed) keys = .ok none ↔
      ∀ key ∈ keys, Value.eq ((Dict.get? stated key).getD .null)
        ((Dict.get? claimed key).getD .null) = true := by
  induction keys with
  | nil => simp [unbound]
  | cons key rest ih =>
      rw [unbound, Value.get_dict, ok_bind, Value.get_dict, ok_bind, List.forall_mem_cons, ← ih]
      dsimp only
      split
      · rename_i agree
        exact ⟨fun later => ⟨agree, later⟩, fun both => both.2⟩
      · rename_i differ
        constructor
        · intro ran
          cases ran
        · exact fun both => absurd both.1 differ

/-- The documents of a run, opened one after another: each is proper, up to the first that does
not parse. -/
def Opens (disk : Disk) (out : Path) : List Str → Prop
  | [] => True
  | name :: rest =>
      Proper disk (out.join name) ∧ (Ends (document disk out name) → Opens disk out rest)

def artifacts : List Str := ["result.json", "attestation.json", "evidence-manifest.json"]

theorem loadArtifacts_ends {disk : Disk} {out : Path} :
    Ends (loadArtifacts disk out) ↔ Opens disk out artifacts := by
  have proper_ok : ∀ {name : Str} {v : Value}, document disk out name = .ok v →
      Proper disk (out.join name) := by
    intro name v read e failed
    unfold document at read
    rw [failed] at read
    cases read
  have proper_error : ∀ {name : Str} {e : Exc}, document disk out name = .error e →
      (Proper disk (out.join name) ↔ e.isA [.osError, .jsonDecodeError] = true) := by
    intro name e read
    unfold document at read
    unfold Proper Fails
    rw [read]
    exact ⟨fun all => all e rfl, fun kind e' same => by cases same; exact kind⟩
  have answers : ∀ e : Exc, Ends (if e.isA [.osError, .jsonDecodeError] then
      .ok (none : Option (Value × Value × Value)) else .error e) ↔
        e.isA [.osError, .jsonDecodeError] = true := by
    intro e
    split
    · rename_i kind
      simp [kind]
    · rename_i kind
      simp [kind]
  unfold loadArtifacts artifacts
  simp only [Opens, and_true, implies_true]
  cases first : document disk out "result.json" with
  | error e =>
      rw [error_bind, proper_error first]
      simp [answers]
  | ok r =>
      rw [ok_bind]
      cases second : document disk out "attestation.json" with
      | error e =>
          rw [error_bind, proper_error second]
          simp [answers, proper_ok first]
      | ok a =>
          rw [ok_bind]
          cases third : document disk out "evidence-manifest.json" with
          | error e =>
              rw [error_bind, proper_error third]
              simp [answers, proper_ok first, proper_ok second]
          | ok m => simp [proper_ok first, proper_ok second, proper_ok third]

/-- What the set admits of an attestation: its first entry for the signing key, by the text of
its window. -/
def Admits (set : SignerSet) (attestation : Value) (entry : Signer) : Prop :=
  ∃ keyId identity, SignedBy attestation keyId identity ∧
    set.signers.find? (fun s => s.keyId = keyId) = some entry ∧ entry.identity = identity ∧
    entry.revoked = false ∧ entry.BracketsText set.asOf

/-- Two objects of digests that can be compared: where they agree on every bound identity, the
attestation states the evidence's. -/
def BindsEvidence (resultDoc bound : Value) : Prop :=
  ∃ stated claimed, resultDoc = .dict stated ∧ bound = .dict claimed ∧
    ((∀ key ∈ boundKeys, Value.eq ((Dict.get? stated key).getD .null)
      ((Dict.get? claimed key).getD .null) = true) →
        (Dict.get? claimed "evidence_manifest_digest").isSome = true)

/-- The checks of an attestation and a result that the verifier can make, up to the first that
fails. -/
def Checkable (set : SignerSet) (attestation : Value) (decision : Bytes) : Prop :=
  NamesSigner attestation ∧ ∀ kvs entry, attestation = .dict kvs → Admits set attestation entry →
    Comparable kvs entry ∧ ∀ k message, fromhex? entry.key = some k → Presents attestation k message →
      Dict.get? kvs "statement_digest" = some (.str (digest .decision decision)) →
        ∃ resultDoc, Json.loadBytes decision = .ok resultDoc ∧
          BindsEvidence resultDoc ((Dict.get? kvs "bound").getD (.dict []))

theorem evidenceHolds_ends {disk : Disk} {runDir : Str} (evidence : Evidence.Answers disk runDir)
    (expected : Value) : Ends (evidenceHolds disk runDir expected) := by
  unfold evidenceHolds
  split
  · exact Evidence.verify_ends.mpr evidence
  · exact Evidence.verify_ends.mpr evidence

theorem verifyArtifacts_ends {disk : Disk} {runDir : Str} {attestation : Value} {set : SignerSet}
    {decision : Bytes} (read : disk.read ((Path.ofStr runDir).join "result.json") = .ok decision)
    (evidence : Evidence.Answers disk runDir) :
    Ends (verifyArtifacts disk runDir attestation set) ↔ Checkable set attestation decision := by
  unfold verifyArtifacts Checkable
  rw [ends_bind]
  constructor
  · rintro ⟨outcome, checked, answered⟩
    refine ⟨checkSigner_ends.mp ⟨outcome, checked⟩, ?_⟩
    rintro kvs entry rfl admits
    rw [checkSigner_ok.mpr admits] at checked
    cases checked
    obtain ⟨same, compared, answered⟩ := ends_bind.mp answered
    refine ⟨checkSignature_ends.mp ⟨same, compared⟩, ?_⟩
    intro k message keyed presents stated
    rw [checkSignature_true.mpr ⟨k, message, keyed, presents⟩] at compared
    cases compared
    have met : Value.eq (.str (digest .decision decision))
        (.str (digest .decision decision)) = true := (Value.eq_str _ _).mpr rfl
    rw [if_pos rfl, read, ok_bind, getOr_dict, ok_bind, stated, Option.getD_some, met,
      if_neg Bool.true_eq_false.mp] at answered
    obtain ⟨resultDoc, parsed, answered⟩ := ends_bind.mp answered
    rw [getOr_dict, ok_bind] at answered
    obtain ⟨missed, agreed, answered⟩ := ends_bind.mp answered
    obtain ⟨own, claimed, rfl, bound⟩ := unbound_ends.mp ⟨missed, agreed⟩
    refine ⟨_, parsed, own, claimed, rfl, bound, ?_⟩
    intro all
    rw [bound, unbound_agree.mpr all] at agreed
    cases agreed
    rw [bound] at answered
    obtain ⟨expected, looked, -⟩ := ends_bind.mp answered
    obtain ⟨_, ⟨⟩, some_⟩ := ends_item.mp ⟨expected, looked⟩
    exact some_
  · rintro ⟨named, later⟩
    obtain ⟨outcome, checked⟩ : Ends (checkSigner attestation set) := checkSigner_ends.mpr named
    refine ⟨outcome, checked, ?_⟩
    cases outcome with
    | error reason => exact Fold.ends_ok _
    | ok entry =>
        obtain ⟨kvs, signer, rfl, -⟩ := named
        obtain ⟨comparable, bound⟩ := later kvs entry rfl (checkSigner_ok.mp checked)
        obtain ⟨same, compared⟩ := checkSignature_ends.mpr comparable
        dsimp only
        rw [compared, ok_bind]
        cases same with
        | false => exact Fold.ends_ok _
        | true =>
            obtain ⟨k, message, keyed, presents⟩ := checkSignature_true.mp compared
            rw [if_pos rfl, read, ok_bind, getOr_dict, ok_bind]
            split
            · exact Fold.ends_ok _
            · rename_i met
              rw [Bool.not_eq_false, Value.eq_str] at met
              have stated : Dict.get? kvs "statement_digest" =
                  some (.str (digest .decision decision)) := by
                cases found : Dict.get? kvs "statement_digest" with
                | none =>
                    rw [found] at met
                    cases met
                | some v =>
                    rw [found] at met
                    exact congrArg some met
              obtain ⟨resultDoc, parsed, own, claimed, rfl, same, some_⟩ :=
                bound k message keyed presents stated
              rw [parsed, ok_bind, getOr_dict, ok_bind, same]
              obtain ⟨missed, agreed⟩ := unbound_ends.mpr ⟨own, claimed, rfl, rfl⟩
              rw [boundKeys, agreed, ok_bind]
              cases missed with
              | some key => exact Fold.ends_ok _
              | none =>
                  have all := unbound_agree.mp agreed
                  obtain ⟨expected, looked⟩ := ends_item.mpr ⟨claimed, rfl, some_ all⟩
                  dsimp only
                  rw [looked, ok_bind]
                  exact (evidenceHolds_ends evidence expected).bind
                    (fun _ _ => Fold.ends_ite (Fold.ends_ok _) (Fold.ends_ok _))

/-- The artifacts of a run directory that the verifier can judge. -/
def Answers (disk : Disk) (runDir : Str) (set : SignerSet) : Prop :=
  let out := Path.ofStr runDir
  (∀ name ∈ artifacts, disk.exists_ (out.join name) = true) → Opens disk out artifacts ∧
    ∀ attestation manifest decision, document disk out "attestation.json" = .ok attestation →
      document disk out "evidence-manifest.json" = .ok manifest →
      disk.read (out.join "result.json") = .ok decision → Ends (Json.loadText decision) →
        Checkable set attestation decision

theorem verify_ends {disk : Disk} {runDir : Str} {set : SignerSet}
    (evidence : Evidence.Answers disk runDir) :
    Ends (verify disk runDir set) ↔ Answers disk runDir set := by
  have there_iff : (disk.exists_ ((Path.ofStr runDir).join "result.json") &&
      disk.exists_ ((Path.ofStr runDir).join "attestation.json") &&
        disk.exists_ ((Path.ofStr runDir).join "evidence-manifest.json")) = true ↔
      ∀ name ∈ artifacts, disk.exists_ ((Path.ofStr runDir).join name) = true := by
    unfold artifacts
    simp only [Bool.and_eq_true, List.forall_mem_cons, List.not_mem_nil, false_implies,
      implies_true, and_true, and_assoc]
  unfold verify Answers
  dsimp only
  by_cases there : ∀ name ∈ artifacts, disk.exists_ ((Path.ofStr runDir).join name) = true
  · rw [if_pos (there_iff.mpr there), ends_bind]
    constructor
    · rintro ⟨found, loaded, answered⟩ -
      refine ⟨loadArtifacts_ends.mp ⟨found, loaded⟩, ?_⟩
      rintro attestation manifest decision second third read ⟨resultDoc, parsed⟩
      have first : document disk (Path.ofStr runDir) "result.json" = .ok resultDoc :=
        bind_ok.mpr ⟨decision, read, parsed⟩
      rw [loadArtifacts_ok.mpr ⟨first, second, third⟩] at loaded
      cases loaded
      exact (verifyArtifacts_ends read evidence).mp answered
    · intro judged
      obtain ⟨opens, checkable⟩ := judged there
      obtain ⟨found, loaded⟩ := loadArtifacts_ends.mpr opens
      refine ⟨found, loaded, ?_⟩
      rcases found with _ | ⟨resultDoc, attestation, manifest⟩
      · exact Fold.ends_ok _
      · obtain ⟨first, second, third⟩ := loadArtifacts_ok.mp loaded
        obtain ⟨decision, read, parsed⟩ := bind_ok.mp first
        exact (verifyArtifacts_ends read evidence).mpr
          (checkable attestation manifest decision second third read ⟨resultDoc, parsed⟩)
  · rw [if_neg (fun all => there (there_iff.mp all))]
    exact ⟨fun _ all => absurd all there, fun _ => Fold.ends_ok _⟩

/-- A directory of three documents. -/
def threeFiles (decision attestation manifest : Bytes) : Disk where
  resolve p := .ok p
  exists_ _ := true
  isFile _ := false
  isDir _ := true
  read p :=
    if p.name = "result.json" then .ok decision
    else if p.name = "attestation.json" then .ok attestation
    else .ok manifest

end Attest

end DevGate
