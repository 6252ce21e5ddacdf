import DevGate.Coherence.Evidence

set_option autoImplicit false

/- A sealed bundle verifies, and a bundle that verifies is the sealed one. -/
namespace DevGate.Evidence

open Py Canon
open Result (emit)

/-- The writes of the loop. -/
def objectWrites (out : Path) (objects : List Sealed) : List (Path × Bytes) :=
  objects.map (fun o => (out.join o.rel, o.payload))

theorem orEvidenceError_ok {body : Act Unit} {what : Text} {world last : World}
    (ran : orEvidenceError body what world = (.ok (), last)) : body world = (.ok (), last) := by
  rcases Act.catching_ok.mp ran with fine | ⟨e, middle, -, -, raised⟩
  · exact fine
  · cases raised

theorem sealAll_ok {disk : Disk} {out : Path} {values : List Str} {retention : Dict Str Value}
    {findings : List Value} {world last : World} {objects : List Sealed}
    (ran : sealAll disk out values retention findings world = (.ok objects, last)) :
    findings.mapM (sealOne values retention) = .ok objects ∧
      (∀ o ∈ objects, ∃ p, contained disk out (.str o.rel) = .ok p) ∧
      last.log = world.log ++ objectWrites out objects := by
  induction findings generalizing world last objects with
  | nil =>
      cases ran
      exact ⟨rfl, by simp, by simp [objectWrites]⟩
  | cons f rest ih =>
      rw [sealAll] at ran
      obtain ⟨o, w₁, sealed_, ran⟩ := Act.bind_ok.mp ran
      obtain ⟨p, w₂, inside, ran⟩ := Act.bind_ok.mp ran
      obtain ⟨_, w₃, wrote, ran⟩ := Act.bind_ok.mp ran
      obtain ⟨later, w₄, looped, done⟩ := Act.bind_ok.mp ran
      rw [Act.ofExcept_run, Prod.mk.injEq] at sealed_ inside
      obtain ⟨sealed_, rfl⟩ := sealed_
      obtain ⟨inside, rfl⟩ := inside
      have log := Act.replace_ok (orEvidenceError_ok wrote)
      obtain ⟨mapped, each, logs⟩ := ih looped
      cases done
      refine ⟨?_, ?_, ?_⟩
      · rw [List.mapM_cons, sealed_, ok_bind, mapped]
        rfl
      · rw [List.forall_mem_cons]
        exact ⟨⟨p, inside⟩, each⟩
      · rw [logs, log, List.append_assoc]
        rfl

/-- The writes of a sealed bundle. -/
def bundleWrites (out : Path) (objects : List Sealed) (manifest : Bytes) : List (Path × Bytes) :=
  objectWrites out objects ++ [(out.join "evidence-manifest.json", manifest)]

theorem sealFindings_ok {disk : Disk} {findings : List Value} {outputDir : Str} {redact : List Value}
    {retention : Dict Str Value} {world last : World} {refs : List Str} {digest : Str}
    (ran : sealFindings disk findings outputDir redact retention world = (.ok (refs, digest), last)) :
    ∃ objects manifest, findings.mapM (sealOne (secrets redact) retention) = .ok objects ∧
      (∀ o ∈ objects, ∃ p, contained disk (Path.ofStr outputDir) (.str o.rel) = .ok p) ∧
      canon (manifestOf objects) = .ok manifest ∧
      digest = Canon.digest .evidenceManifest manifest ∧ refs = objects.map Sealed.rel ∧
      last.log = world.log ++ bundleWrites (Path.ofStr outputDir) objects manifest := by
  unfold sealFindings at ran
  obtain ⟨_, w₁, made, ran⟩ := Act.bind_ok.mp ran
  obtain ⟨_, w₂, checked, ran⟩ := Act.bind_ok.mp ran
  obtain ⟨objects, w₃, looped, ran⟩ := Act.bind_ok.mp ran
  obtain ⟨found, w₄, digested, ran⟩ := Act.bind_ok.mp ran
  obtain ⟨payload, w₅, encoded, ran⟩ := Act.bind_ok.mp ran
  obtain ⟨_, w₆, wrote, done⟩ := Act.bind_ok.mp ran
  rw [Act.ofExcept_run, Prod.mk.injEq] at checked digested encoded
  obtain ⟨-, rfl⟩ := checked
  obtain ⟨digested, rfl⟩ := digested
  obtain ⟨encoded, rfl⟩ := encoded
  cases done
  have start := Act.mkdir_ok (orEvidenceError_ok made)
  obtain ⟨mapped, each, logs⟩ := sealAll_ok looped
  have log := Act.replace_ok (orEvidenceError_ok wrote)
  refine ⟨objects, payload, mapped, each, encoded, ?_, rfl, ?_⟩
  · unfold digestObj at digested
    rw [encoded, ok_bind] at digested
    exact (Except.ok.inj digested).symm
  · rw [log, logs, start, List.append_assoc]
    rfl

/-! Where every file operation succeeds. -/

theorem sealAll_run {disk : Disk} {out : Path} {values : List Str} {retention : Dict Str Value}
    {findings : List Value} {objects : List Sealed} (log : List (Path × Bytes)) {temps : List Str}
    (each : findings.mapM (sealOne values retention) = .ok objects)
    (inside : ∀ o ∈ objects, ∃ p, contained disk out (.str o.rel) = .ok p) :
    sealAll disk out values retention findings ⟨log, [], temps⟩ =
      (.ok objects, ⟨log ++ objectWrites out objects, [], temps⟩) := by
  induction findings generalizing objects log with
  | nil =>
      cases each
      simp only [sealAll, objectWrites, Act.pure_run, List.reverse_nil, List.map_nil, List.append_nil]
  | cons f rest ih =>
      rw [List.mapM_cons] at each
      obtain ⟨o, first, each⟩ := bind_ok.mp each
      obtain ⟨later, mapped, each⟩ := bind_ok.mp each
      cases each
      rw [List.forall_mem_cons] at inside
      obtain ⟨⟨p, within⟩, deeper⟩ := inside
      have wrote : orEvidenceError (emit (out.join o.rel) o.payload) ["cannot seal evidence ", o.rel]
          ⟨log, [], temps⟩ = (.ok (), ⟨log ++ [(out.join o.rel, o.payload)], [], temps⟩) := rfl
      have looped := ih (log ++ [(out.join o.rel, o.payload)]) mapped deeper
      rw [sealAll]
      simp only [Act.bind_run, Act.ofExcept_run, first, within, wrote, looped, Act.pure_run,
        objectWrites, List.map_cons, List.append_assoc, List.singleton_append]

theorem check_manifestOf (objects : List Sealed) : check (manifestOf objects) = .ok () := by
  have entries : checkList (objects.map Sealed.entry) = .ok () := by
    rw [checkList_ok]
    intro entry inside
    obtain ⟨o, -, rfl⟩ := List.mem_map.mp inside
    rfl
  unfold manifestOf
  rw [check, checkPairs_ok]
  simp only [List.forall_mem_cons]
  refine ⟨rfl, ?_, by simp⟩
  rw [check]
  exact entries

theorem canon_manifestOf (objects : List Sealed) :
    canon (manifestOf objects) = .ok (Utf8.ascii (Json.dumps (manifestOf objects))) :=
  canon_ok.mpr ⟨check_manifestOf objects, rfl⟩

theorem sealFindings_run {disk : Disk} {outputDir : Str} {findings redact : List Value}
    {retention : Dict Str Value} {objects : List Sealed} {log : List (Path × Bytes)}
    {temps : List Str} (days : checkRetention retention = .ok ())
    (each : findings.mapM (sealOne (secrets redact) retention) = .ok objects)
    (inside : ∀ o ∈ objects, ∃ p, contained disk (Path.ofStr outputDir) (.str o.rel) = .ok p) :
    sealFindings disk findings outputDir redact retention ⟨log, [], temps⟩ =
      (.ok (objects.map Sealed.rel,
          Canon.digest .evidenceManifest (Utf8.ascii (Json.dumps (manifestOf objects)))),
        ⟨log ++ bundleWrites (Path.ofStr outputDir) objects
          (Utf8.ascii (Json.dumps (manifestOf objects))), [], temps⟩) := by
  have made : orEvidenceError Act.mkdir ["cannot create evidence directory ", outputDir]
      ⟨log, [], temps⟩ = (.ok (), ⟨log, [], temps⟩) := rfl
  have wrote : ∀ front payload,
      orEvidenceError (emit ((Path.ofStr outputDir).join "evidence-manifest.json") payload)
        ["cannot seal evidence manifest"] ⟨front, [], temps⟩ =
      (.ok (), ⟨front ++ [((Path.ofStr outputDir).join "evidence-manifest.json", payload)], [], temps⟩) :=
    fun _ _ => rfl
  unfold sealFindings
  simp only [Act.bind_run, made, Act.ofExcept_run, days, sealAll_run _ each inside, digestObj,
    canon_manifestOf, ok_bind, pure_ok, wrote, Act.pure_run, bundleWrites, List.append_assoc]

/-! What a finding is sealed as. -/

theorem sealOne_ok {values : List Str} {retention : Dict Str Value} {f : Value} {o : Sealed}
    (sealed_ : sealOne values retention f = .ok o) :
    ∃ ev, f.item "assertion_id" = .ok (.str o.aid) ∧
      assertionIdRe.fullmatch o.aid = true ∧ disclosed f o.aid = .ok ev ∧
      canon (redactValues values ev) = .ok o.payload ∧
      (∀ r ∈ values, ¬ r <:+: Json.dumps (redactValues values ev)) ∧
      o.retentionClass = retentionClass retention o.aid := by
  unfold sealOne at sealed_
  obtain ⟨id, looked, sealed_⟩ := bind_ok.mp sealed_
  obtain ⟨aid, checked, sealed_⟩ := bind_ok.mp sealed_
  obtain ⟨ev, shown, sealed_⟩ := bind_ok.mp sealed_
  obtain ⟨payload, encoded, sealed_⟩ := bind_ok.mp sealed_
  obtain ⟨scrubbed, sealed_⟩ := guard_ok.mp sealed_
  cases sealed_
  have named : id = .str aid ∧ assertionIdRe.fullmatch aid = true := by
    unfold checkId at checked
    split at checked
    · split at checked
      · rename_i matched
        cases checked
        exact ⟨rfl, matched⟩
      · cases checked
    · cases checked
  rw [named.1] at looked
  refine ⟨ev, looked, named.2, shown, encoded, ?_, rfl⟩
  intro r inside survives
  apply scrubbed
  rw [List.any_eq_true]
  exact ⟨r, inside, decide_eq_true survives⟩

theorem sealOne_of_scrubbed {values : List Str} {retention : Dict Str Value} {f : Value} {aid : Str}
    (ev : Value) {payload : Bytes} (looked : f.item "assertion_id" = .ok (.str aid))
    (named : assertionIdRe.fullmatch aid = true) (shown : disclosed f aid = .ok ev)
    (encoded : canon (redactValues values ev) = .ok payload)
    (scrubbed : values.any (fun r => r <:+: Json.dumps (redactValues values ev)) = false) :
    sealOne values retention f = .ok ⟨aid, payload, retentionClass retention aid⟩ := by
  have checked : checkId (.str aid) = .ok aid := by simp only [checkId, named, ↓reduceIte]
  unfold sealOne
  simp only [looked, ok_bind, checked, shown, encoded, scrubbed, Bool.false_eq_true, ↓reduceIte]
  rfl

/-- The characters of an assertion id. -/
def idChr (c : Chr) : Bool := 0x20 ≤ c.val && c.val ≤ 0x7e && c != Chr.ofChar '/'

theorem assertionIdRe_within : assertionIdRe.Within idChr :=
  ⟨Re.within_oneOf (by decide), Re.within_oneOf (by decide)⟩

theorem idChr_iff {c : Chr} :
    idChr c = true ↔ (0x20 ≤ c.val ∧ c.val ≤ 0x7e) ∧ c ≠ Chr.ofChar '/' := by
  unfold idChr
  rw [Bool.and_eq_true, Bool.and_eq_true, decide_eq_true_eq, decide_eq_true_eq, bne_iff_ne]

theorem idChr_of_fullmatch {aid : Str} (named : assertionIdRe.fullmatch aid = true) :
    ∀ c ∈ aid, (0x20 ≤ c.val ∧ c.val ≤ 0x7e) ∧ c ≠ Chr.ofChar '/' := by
  intro c inside
  exact idChr_iff.mp (Re.fullmatch_within assertionIdRe_within named c inside)

theorem mem_hexDigits {c : Chr} (digit : c ∈ hexDigits.map Chr.ofChar) :
    (0x20 ≤ c.val ∧ c.val ≤ 0x7e) ∧ c ≠ Chr.ofChar '/' := by
  have each : hexDigits.all (fun d => idChr (Chr.ofChar d)) = true := by decide
  rw [List.all_eq_true] at each
  obtain ⟨d, inside, rfl⟩ := List.mem_map.mp digit
  exact idChr_iff.mp (each d inside)

namespace Sealed

theorem mark_eq (o : Sealed) :
    o.mark = (sha256 (preimage .evidenceManifest o.payload)).take nameDigitChars := rfl

theorem length_mark (o : Sealed) : o.mark.length = nameDigitChars := by
  rw [mark_eq, List.length_take, length_sha256]
  rfl

theorem mem_mark {o : Sealed} {c : Chr} (inside : c ∈ o.mark) :
    (0x20 ≤ c.val ∧ c.val ≤ 0x7e) ∧ c ≠ Chr.ofChar '/' := by
  rw [mark_eq] at inside
  exact mem_hexDigits (mem_sha256 (List.mem_of_mem_take inside))

def file (o : Sealed) : Str := o.aid ++ "--" ++ o.mark ++ ".json"

def names (o : Sealed) : List Str := ["evidence", "findings", o.file]

theorem rel_eq (o : Sealed) : o.rel = Str.join "/" o.names := by
  unfold rel names file
  simp only [Str.join, List.append_assoc]
  rfl

theorem rel_injective {o₁ o₂ : Sealed} (same : o₁.rel = o₂.rel) :
    o₁.aid = o₂.aid ∧ o₁.mark = o₂.mark := by
  unfold rel at same
  have marked := List.append_cancel_right same
  obtain ⟨front, mark⟩ := List.append_inj' marked (by rw [length_mark, length_mark])
  exact ⟨List.append_cancel_left (List.append_cancel_right front), mark⟩

theorem file_plain {o : Sealed} (named : assertionIdRe.fullmatch o.aid = true) :
    o.file ≠ [] ∧ o.file ≠ "." ∧ o.file ≠ ".." ∧ Chr.ofChar '/' ∉ o.file := by
  have long : 5 ≤ o.file.length := by
    have tail : (".json" : Str).length = 5 := rfl
    unfold file
    rw [List.length_append]
    omega
  refine ⟨?_, ?_, ?_, ?_⟩
  · intro same
    rw [same] at long
    exact absurd long (by decide)
  · intro same
    rw [same] at long
    exact absurd long (by decide)
  · intro same
    rw [same] at long
    exact absurd long (by decide)
  · unfold file
    simp only [List.mem_append, not_or]
    exact ⟨⟨⟨fun inside => (idChr_of_fullmatch named _ inside).2 rfl, by decide⟩,
      fun inside => (mem_mark inside).2 rfl⟩, by decide⟩

theorem join_rel {o : Sealed} (named : assertionIdRe.fullmatch o.aid = true) (out : Path) :
    out.join o.rel = out.sub o.names := by
  obtain ⟨filled, dot, -, slash⟩ := file_plain named
  rw [rel_eq]
  apply Path.join_names
  · exact List.cons_ne_nil _ _
  · unfold names
    simp only [List.forall_mem_cons]
    exact ⟨by decide, by decide, ⟨filled, dot, slash⟩, by simp⟩

theorem names_below {o : Sealed} (named : assertionIdRe.fullmatch o.aid = true) :
    (".." : Str) ∉ o.names := by
  have apart := (file_plain named).2.2.1
  unfold names
  simp only [List.mem_cons, List.not_mem_nil, not_or, or_false]
  exact ⟨by decide, by decide, Ne.symm apart⟩

theorem names_injective {o₁ o₂ : Sealed} (same : o₁.names = o₂.names) : o₁.rel = o₂.rel := by
  rw [rel_eq, rel_eq, same]

end Sealed

/-! What `verify` accepts. -/

/-- A manifest entry lists an object, in whatever order its keys stand. -/
def Lists (entry : Value) (o : Sealed) : Prop :=
  entry.get "path" = .ok (some (.str o.rel)) ∧ entry.item "digest" = .ok (.str o.digest)

theorem entry_distinct {path digest media id retention redacted_ : Value} :
    (([("path", path), ("digest", digest), ("media_type", media), ("assertion_id", id),
      ("retention_class", retention), ("redacted", redacted_)] : Dict Str Value).map
        Prod.fst).Nodup := by
  simp only [List.map_cons, List.map_nil]
  decide

theorem lists_of_same {entry : Value} {o : Sealed} (clean : Json.Clean entry)
    (same : Json.canonical entry = Json.canonical o.entry) : Lists entry o := by
  unfold Sealed.entry at same
  constructor
  · obtain ⟨w, looked, -, agree, -⟩ :=
      clean.get_some "path" (.str o.rel) entry_distinct same rfl
    rw [looked, Json.canonical_eq_str agree]
  · obtain ⟨w, -, looked, agree, -⟩ :=
      clean.get_some "digest" (.str o.digest) entry_distinct same rfl
    rw [looked, Json.canonical_eq_str agree]

theorem lists_each {entries : List Value} {objects : List Sealed}
    (clean : ∀ entry ∈ entries, Json.Clean entry)
    (same : entries.map Json.canonical = objects.map (fun o => Json.canonical o.entry)) :
    List.Forall₂ Lists entries objects := by
  induction objects generalizing entries with
  | nil =>
      rw [List.map_nil, List.map_eq_nil_iff] at same
      rw [same]
      exact .nil
  | cons o rest ih =>
      cases entries with
      | nil => cases same
      | cons entry later =>
          rw [List.map_cons, List.map_cons, List.cons.injEq] at same
          rw [List.forall_mem_cons] at clean
          exact .cons (lists_of_same clean.1 same.1) (ih clean.2 same.2)

theorem manifest_distinct {version objects : Value} :
    (([("api_version", version), ("objects", objects)] : Dict Str Value).map
      Prod.fst).Nodup := by
  simp only [List.map_cons, List.map_nil]
  decide

theorem objects_of_same {manifest : Value} {objects : List Sealed} (clean : Json.Clean manifest)
    (same : Json.canonical manifest = Json.canonical (manifestOf objects)) :
    ∃ entries, manifest.get "objects" = .ok (some (.list entries)) ∧
      List.Forall₂ Lists entries objects := by
  unfold manifestOf at same
  obtain ⟨w, looked, -, agree, clean'⟩ :=
    clean.get_some "objects" (.list (objects.map Sealed.entry)) manifest_distinct same rfl
  rw [Json.canonical.eq_def (.list _)] at agree
  simp only [Json.canonicalList_eq_map, List.map_map] at agree
  obtain ⟨entries, rfl, mapped⟩ := Json.canonical_eq_list agree
  cases clean' with
  | list each => exact ⟨entries, looked, lists_each each mapped⟩

/-- A file of the bundle: inside it, with these bytes. -/
def Holds (disk : Disk) (out : Path) (rel : Str) (bytes : Bytes) : Prop :=
  ∃ p, contained disk out (.str rel) = .ok p ∧ disk.isFile p = true ∧ disk.read p = .ok bytes

theorem verifyObject_true {disk : Disk} {out : Path} {entry : Value} {o : Sealed}
    (lists : Lists entry o) :
    verifyObject disk out entry = .ok true ↔
      ∃ bytes, Holds disk out o.rel bytes ∧ Canon.digest .evidenceManifest bytes = o.digest := by
  unfold verifyObject Holds
  rw [lists.1, ok_bind, Option.getD_some]
  cases contained disk out (.str o.rel) with
  | error e => by_cases bad : e.isA [evidenceError] = true <;> simp [bad]
  | ok p =>
      simp only [Except.ok.injEq, exists_eq_left']
      by_cases file : disk.isFile p = true
      · simp only [file, ↓reduceIte, lists.2, ok_bind, true_and]
        cases disk.read p with
        | error e => simp
        | ok bytes => simpa using ⟨Eq.symm, Eq.symm⟩
      · simp [file]

theorem verifyObjects_true {disk : Disk} {out : Path} {entries : List Value}
    {objects : List Sealed} (lists : List.Forall₂ Lists entries objects) :
    verifyObjects disk out entries = .ok true ↔
      ∀ o ∈ objects, ∃ bytes, Holds disk out o.rel bytes ∧
        Canon.digest .evidenceManifest bytes = o.digest := by
  induction lists with
  | nil => simp [verifyObjects]
  | @cons entry o _ _ first rest ih =>
      rw [verifyObjects, List.forall_mem_cons, ← ih, ← verifyObject_true first]
      cases verifyObject disk out entry with
      | error e => simp
      | ok answer => cases answer <;> simp

theorem loadManifest_ok {disk : Disk} {out : Path} {manifest : Value} :
    loadManifest disk out = .ok (some manifest) ↔
      ∃ bytes, disk.read (out.join "evidence-manifest.json") = .ok bytes ∧
        Json.loadText bytes = .ok manifest := by
  rw [← bind_ok]
  unfold loadManifest
  cases (do Json.loadText (← disk.read (out.join "evidence-manifest.json")) : Except Exc Value) with
  | error e => by_cases known : e.isA [.osError, .jsonDecodeError] = true <;> simp [known]
  | ok found => simp

theorem verify_true {disk : Disk} {outputDir expected : Str} :
    verify disk outputDir expected = .ok true ↔
      disk.exists_ ((Path.ofStr outputDir).join "evidence-manifest.json") = true ∧
        ∃ manifest found objects, loadManifest disk (Path.ofStr outputDir) = .ok (some manifest) ∧
          manifest.get "objects" = .ok found ∧ (found.getD (.list [])).iter = .ok objects ∧
          verifyObjects disk (Path.ofStr outputDir) objects = .ok true ∧
          digestObj .evidenceManifest manifest = .ok expected := by
  unfold verify
  by_cases there : disk.exists_ ((Path.ofStr outputDir).join "evidence-manifest.json") = true
  · simp only [there, ↓reduceIte, true_and]
    constructor
    · intro ran
      obtain ⟨loaded, read, ran⟩ := bind_ok.mp ran
      cases loaded with
      | none => cases ran
      | some manifest =>
          obtain ⟨found, looked, ran⟩ := bind_ok.mp ran
          obtain ⟨objects, gathered, ran⟩ := bind_ok.mp ran
          obtain ⟨answer, checked, ran⟩ := bind_ok.mp ran
          cases answer with
          | false => cases ran
          | true =>
              obtain ⟨digest, computed, same⟩ := bind_ok.mp ran
              have agree := Except.ok.inj same
              rw [decide_eq_true_eq] at agree
              rw [agree] at computed
              exact ⟨manifest, found, objects, read, looked, gathered, checked, computed⟩
    · intro ⟨manifest, found, objects, read, looked, gathered, checked, computed⟩
      rw [read, ok_bind]
      simp only [looked, ok_bind, gathered, checked, ↓reduceIte, computed, pure_ok, decide_true]
  · simp [there]

/-! A sealed bundle. -/

/-- The files of a bundle stand in a directory. -/
structure Stored (disk : Disk) (out : Path) (objects : List Sealed) (manifest : Bytes) : Prop where
  there : disk.exists_ (out.join "evidence-manifest.json") = true
  manifest : disk.read (out.join "evidence-manifest.json") = .ok manifest
  objects : ∀ o ∈ objects, Holds disk out o.rel o.payload

/-- What a manifest that encodes as the sealed one lists. -/
theorem same_manifest {sealed_ presented : Value} {payload : Bytes}
    (clean : Json.Clean sealed_) (clean' : Json.Clean presented)
    (encoded : canon sealed_ = .ok payload) (encoded' : canon presented = .ok payload) :
    Json.canonical presented = Json.canonical sealed_ := by
  rw [← Json.decoded_clean clean', ← Json.decoded_clean clean]
  exact decoded_injective encoded' encoded

theorem printable_daysText {days : Value} {text : Str} (shown : daysText days = some text) :
    Json.Printable text := by
  unfold daysText at shown
  split at shown
  · cases shown
    exact Json.printable_ofInt _
  · cases shown
    exact Json.printable_of_all (by decide)
  · cases shown
    exact Json.printable_of_all (by decide)
  · cases shown

theorem printable_retentionClass (retention : Dict Str Value) (aid : Str) :
    Json.Printable (retentionClass retention aid) := by
  unfold retentionClass
  split
  · rename_i days found
    obtain ⟨value, -, shown⟩ := Option.bind_eq_some_iff.mp found
    exact ((Json.printable_of_all (by decide)).append (printable_daysText shown)).append
      (Json.printable_of_all (by decide))
  · exact Json.printable_of_all (by decide)

theorem printable_digest (tag : RoleTag) (payload : Bytes) :
    Json.Printable (Canon.digest tag payload) := by
  apply Json.Printable.append (Json.printable_of_all (by decide))
  intro c inside
  exact (mem_hexDigits (mem_sha256 inside)).1

/-- An object whose id and retention class are those of a sealed finding. -/
structure Sealed.Plain (o : Sealed) : Prop where
  named : assertionIdRe.fullmatch o.aid = true
  retention : Json.Printable o.retentionClass

theorem Sealed.Plain.printable_aid {o : Sealed} (plain : o.Plain) : Json.Printable o.aid :=
  fun c inside => (idChr_of_fullmatch plain.named c inside).1

theorem Sealed.Plain.printable_rel {o : Sealed} (plain : o.Plain) : Json.Printable o.rel := by
  unfold Sealed.rel
  have fixed : ∀ s : String, (Str.ofString s).all (fun c => 0x20 ≤ c.val && c.val ≤ 0x7e) = true →
      Json.Printable s := fun _ all => Json.printable_of_all all
  exact ((((fixed _ (by decide)).append plain.printable_aid).append (fixed _ (by decide))).append
    (fun c inside => (Sealed.mem_mark inside).1)).append (fixed _ (by decide))

theorem clean_entry {o : Sealed} (plain : o.Plain) : Json.Clean o.entry := by
  have tidy : ∀ s : String, (Str.ofString s).all (fun c => 0x20 ≤ c.val && c.val ≤ 0x7e) = true →
      Json.Tidy s := fun _ all => (Json.printable_of_all all).tidy
  unfold Sealed.entry
  apply Json.Clean.dict entry_distinct
  · simp only [List.forall_mem_cons]
    exact ⟨tidy _ (by decide), tidy _ (by decide), tidy _ (by decide), tidy _ (by decide),
      tidy _ (by decide), tidy _ (by decide), by simp⟩
  · simp only [List.forall_mem_cons]
    exact ⟨.str plain.printable_rel.tidy, .str (printable_digest _ _).tidy, .str (tidy _ (by decide)),
      .str plain.printable_aid.tidy, .str plain.retention.tidy, .bool true, by simp⟩

theorem clean_manifestOf {objects : List Sealed} (plain : ∀ o ∈ objects, o.Plain) :
    Json.Clean (manifestOf objects) := by
  have tidy : ∀ s : String, (Str.ofString s).all (fun c => 0x20 ≤ c.val && c.val ≤ 0x7e) = true →
      Json.Tidy s := fun _ all => (Json.printable_of_all all).tidy
  unfold manifestOf
  apply Json.Clean.dict manifest_distinct
  · simp only [List.forall_mem_cons]
    exact ⟨tidy _ (by decide), tidy _ (by decide), by simp⟩
  · simp only [List.forall_mem_cons]
    refine ⟨.str (tidy _ (by decide)), .list ?_, by simp⟩
    intro entry inside
    obtain ⟨o, member, rfl⟩ := List.mem_map.mp inside
    exact clean_entry (plain o member)

theorem plain_of_sealOne {values : List Str} {retention : Dict Str Value} {f : Value} {o : Sealed}
    (sealed_ : sealOne values retention f = .ok o) : o.Plain := by
  obtain ⟨_, -, named, -, -, -, kept⟩ := sealOne_ok sealed_
  exact ⟨named, by rw [kept]; exact printable_retentionClass _ _⟩

theorem contained_rel {disk : Disk} {out root : Path} (linkless : disk.Linkless out root)
    {o : Sealed} (plain : o.Plain) : contained disk out (.str o.rel) = .ok (root.sub o.names) := by
  have below := linkless.below o.names (Sealed.names_below plain.named)
  rw [← Sealed.join_rel plain.named] at below
  obtain ⟨c, name, shape⟩ : ∃ c name, o.rel = c :: name := ⟨_, _, rfl⟩
  rw [shape] at below ⊢
  have inside : root.isParent (root.sub o.names) = true := Path.isParent_sub root (List.cons_ne_nil _ _)
  unfold contained
  simp only [linkless.top, below, ok_bind, inside, ↓reduceIte]

theorem join_manifest (out : Path) :
    out.join "evidence-manifest.json" = out.sub ["evidence-manifest.json"] :=
  Path.join_names out ["evidence-manifest.json"] (by simp) (by decide)

/-- The files stand in a directory that holds no links once they were written there. -/
theorem stored_after {disk : Disk} {out root : Path} {log : List (Path × Bytes)}
    {objects : List Sealed} {manifest : Bytes} (linkless : disk.Linkless out root)
    (plain : ∀ o ∈ objects, o.Plain)
    (object : ∀ o ∈ objects, disk.written log (root.sub o.names) = some o.payload)
    (last : disk.written log (root.sub ["evidence-manifest.json"]) = some manifest) :
    Stored (disk.after log) out objects manifest := by
  have place : disk.locate (out.join "evidence-manifest.json") =
      root.sub ["evidence-manifest.json"] := by
    rw [join_manifest]
    exact linkless.locate (by decide)
  constructor
  · simp only [Disk.after, place, last, Option.isSome_some, Bool.true_or]
  · simp only [Disk.after, place, last]
  · intro o inside
    have real := linkless.locate_real (Sealed.names_below (plain o inside).named)
    refine ⟨root.sub o.names, contained_rel linkless (plain o inside), ?_, ?_⟩
    · simp only [Disk.after, real, object o inside, Option.isSome_some, Bool.true_or]
    · simp only [Disk.after, real, object o inside]

/-- What the writes of a bundle leave, where distinct objects have distinct names. -/
theorem written_bundle {disk : Disk} {out root : Path} {objects : List Sealed} (manifest : Bytes)
    (linkless : disk.Linkless out root) (plain : ∀ o ∈ objects, o.Plain)
    (separate : ∀ o₁ ∈ objects, ∀ o₂ ∈ objects, o₁.mark = o₂.mark → o₁.payload = o₂.payload) :
    (∀ o ∈ objects,
      disk.written (bundleWrites out objects manifest) (root.sub o.names) = some o.payload) ∧
    disk.written (bundleWrites out objects manifest) (root.sub ["evidence-manifest.json"]) =
      some manifest := by
  have object : ∀ o ∈ objects, disk.locate (out.join o.rel) = root.sub o.names := by
    intro o inside
    rw [Sealed.join_rel (plain o inside).named]
    exact linkless.locate (Sealed.names_below (plain o inside).named)
  have last : disk.locate (out.join "evidence-manifest.json") =
      root.sub ["evidence-manifest.json"] := by
    rw [join_manifest]
    exact linkless.locate (by decide)
  unfold bundleWrites objectWrites
  constructor
  · intro o inside
    apply Disk.written_of_forall
    · exact ⟨_, List.mem_append_left _ (List.mem_map_of_mem inside), object o inside⟩
    · intro write written there
      rcases List.mem_append.mp written with early | late
      · obtain ⟨other, member, rfl⟩ := List.mem_map.mp early
        rw [object other member] at there
        have named := Sealed.names_injective (Path.sub_injective there)
        exact separate other member o inside (Sealed.rel_injective named).2
      · rw [List.mem_singleton.mp late, last] at there
        cases Path.sub_injective there
  · apply Disk.written_of_forall
    · exact ⟨_, List.mem_append_right _ (List.mem_singleton_self _), last⟩
    · intro write written there
      rcases List.mem_append.mp written with early | late
      · obtain ⟨other, member, rfl⟩ := List.mem_map.mp early
        rw [object other member] at there
        cases Path.sub_injective there
      · rw [List.mem_singleton.mp late]

theorem loadManifest_stored {disk : Disk} {out : Path} {objects : List Sealed} {manifest : Bytes}
    (plain : ∀ o ∈ objects, o.Plain) (encoded : canon (manifestOf objects) = .ok manifest)
    (stored : Stored disk out objects manifest) :
    loadManifest disk out = .ok (some (Json.canonical (manifestOf objects))) := by
  rw [loadManifest_ok]
  refine ⟨manifest, stored.manifest, ?_⟩
  rw [loadText_canon encoded, Json.decoded_clean (clean_manifestOf plain)]

/-- A bundle whose files stand verifies. -/
theorem verify_of_stored {disk : Disk} {outputDir : Str} {objects : List Sealed} {manifest : Bytes}
    (plain : ∀ o ∈ objects, o.Plain) (encoded : canon (manifestOf objects) = .ok manifest)
    (stored : Stored disk (Path.ofStr outputDir) objects manifest) :
    verify disk outputDir (Canon.digest .evidenceManifest manifest) = .ok true := by
  have read := loadManifest_stored plain encoded stored
  obtain ⟨bytes, -, loaded⟩ := loadManifest_ok.mp read
  obtain ⟨entries, looked, lists⟩ := objects_of_same (Json.loadText_clean loaded)
    (Json.canonical_canonical (manifestOf objects))
  rw [verify_true]
  refine ⟨stored.there, _, _, entries, read, looked, rfl, ?_, ?_⟩
  · rw [verifyObjects_true lists]
    intro o inside
    exact ⟨o.payload, stored.objects o inside, rfl⟩
  · unfold digestObj
    rw [canon_canonical.mpr encoded]
    rfl

/-- A bundle that verifies holds the sealed manifest and the sealed bytes, unless
SHA-256 collides on them. -/
theorem stored_of_verify {disk : Disk} {outputDir : Str} {objects : List Sealed} {manifest : Bytes}
    (plain : ∀ o ∈ objects, o.Plain) (encoded : canon (manifestOf objects) = .ok manifest)
    (accepted : verify disk outputDir (Canon.digest .evidenceManifest manifest) = .ok true)
    (manifests : ∀ presented payload,
      loadManifest disk (Path.ofStr outputDir) = .ok (some presented) →
      canon presented = .ok payload →
      Separates (preimage .evidenceManifest payload) (preimage .evidenceManifest manifest))
    (files : ∀ o ∈ objects, ∀ bytes, Holds disk (Path.ofStr outputDir) o.rel bytes →
      Separates (preimage .evidenceManifest bytes) (preimage .evidenceManifest o.payload)) :
    ∃ presented, loadManifest disk (Path.ofStr outputDir) = .ok (some presented) ∧
      Json.canonical presented = Json.canonical (manifestOf objects) ∧
      ∀ o ∈ objects, Holds disk (Path.ofStr outputDir) o.rel o.payload := by
  obtain ⟨-, presented, found, entries, read, looked, gathered, checked, computed⟩ :=
    verify_true.mp accepted
  obtain ⟨payload, encoded', same⟩ := bind_ok.mp computed
  have agree := digest_injective (manifests presented payload read encoded') (Except.ok.inj same)
  rw [agree] at encoded'
  obtain ⟨bytes, -, loaded⟩ := loadManifest_ok.mp read
  have clean := Json.loadText_clean loaded
  have identical := same_manifest (clean_manifestOf plain) clean encoded encoded'
  obtain ⟨listed, looked', lists⟩ := objects_of_same clean identical
  rw [looked'] at looked
  cases looked
  cases gathered
  refine ⟨presented, read, identical, ?_⟩
  intro o inside
  obtain ⟨held, holds, digests⟩ := (verifyObjects_true lists).mp checked o inside
  have bytesAgree := digest_injective (files o inside held holds) digests
  rw [← bytesAgree]
  exact holds

theorem plain_of_mapM {values : List Str} {retention : Dict Str Value} {findings : List Value}
    {objects : List Sealed} (each : findings.mapM (sealOne values retention) = .ok objects) :
    ∀ o ∈ objects, o.Plain := by
  intro o inside
  obtain ⟨f, -, sealed_⟩ := (mapM_members each).2 o inside
  exact plain_of_sealOne sealed_

/-- The name prefixes do not collide on the sealed findings. -/
def MarksSeparate (values : List Str) (retention : Dict Str Value) (findings : List Value) : Prop :=
  ∀ objects, findings.mapM (sealOne values retention) = .ok objects →
    ∀ o₁ ∈ objects, ∀ o₂ ∈ objects, o₁.mark = o₂.mark → o₁.payload = o₂.payload

/-- The files a manifest lists. -/
def listed (manifest : Value) : List Str :=
  (((manifest.field? "objects").bind Value.list?).getD []).filterMap
    (fun entry => (entry.field? "path").bind Value.str?)

/-- SHA-256 does not collide on what two directories hold as bundles. -/
structure HashesSeparate (first second : Disk) (out : Path) : Prop where
  manifests : ∀ m₁ m₂ b₁ b₂, loadManifest first out = .ok (some m₁) →
    loadManifest second out = .ok (some m₂) → canon m₁ = .ok b₁ → canon m₂ = .ok b₂ →
    Separates (preimage .evidenceManifest b₁) (preimage .evidenceManifest b₂)
  files : ∀ rel b₁ b₂, Holds first out rel b₁ → Holds second out rel b₂ →
    Separates (preimage .evidenceManifest b₁) (preimage .evidenceManifest b₂)

theorem listed_of_lists {manifest : Value} {entries : List Value} {objects : List Sealed}
    (looked : manifest.get "objects" = .ok (some (.list entries)))
    (lists : List.Forall₂ Lists entries objects) : listed manifest = objects.map Sealed.rel := by
  unfold listed
  rw [Value.field?_of_get looked]
  simp only [Option.bind_some, Value.list?, Option.getD_some]
  clear looked
  induction lists with
  | nil => rfl
  | cons first rest ih =>
      rw [List.filterMap_cons, Value.field?_of_get first.1, List.map_cons]
      simp only [Option.bind_some, Value.str?, ih]

/-- A write beside the bundle. -/
def Beside (out : Path) (write : Path × Bytes) : Prop :=
  ∃ name, write.1 = out.sub [name] ∧ name ≠ ".." ∧ name ≠ "evidence-manifest.json"

/-- A sealed bundle stands, whatever is written beside it afterwards. -/
theorem stored_of_sealed {disk : Disk} {findings : List Value} {outputDir : Str}
    {redact : List Value} {retention : Dict Str Value} {world last : World} {refs : List Str}
    {digest : Str} {root : Path} (back : List (Path × Bytes))
    (linkless : disk.Linkless (Path.ofStr outputDir) root)
    (ran : sealFindings disk findings outputDir redact retention world = (.ok (refs, digest), last))
    (separate : MarksSeparate (secrets redact) retention findings)
    (beside : ∀ write ∈ back, Beside (Path.ofStr outputDir) write) :
    ∃ objects manifest, (∀ o ∈ objects, o.Plain) ∧ canon (manifestOf objects) = .ok manifest ∧
      digest = Canon.digest .evidenceManifest manifest ∧
      Stored (disk.after (last.log ++ back)) (Path.ofStr outputDir) objects manifest := by
  obtain ⟨objects, manifest, each, -, encoded, same, -, log⟩ := sealFindings_ok ran
  have plain := plain_of_mapM each
  obtain ⟨object, final⟩ := written_bundle manifest linkless plain (separate objects each)
  have place : ∀ write ∈ back, ∃ name, disk.locate write.1 = root.sub [name] ∧
      name ≠ "evidence-manifest.json" := by
    intro write inside
    obtain ⟨name, at_, up, other⟩ := beside write inside
    refine ⟨name, ?_, other⟩
    rw [at_]
    exact linkless.locate (by simpa using Ne.symm up)
  refine ⟨objects, manifest, plain, encoded, same, ?_⟩
  rw [log]
  apply stored_after linkless plain
  · intro o inside
    apply Disk.written_between _ (object o inside)
    intro write later there
    obtain ⟨name, at_, -⟩ := place write later
    rw [at_] at there
    cases Path.sub_injective there
  · apply Disk.written_between _ final
    intro write later there
    obtain ⟨name, at_, other⟩ := place write later
    rw [at_] at there
    exact other (List.cons.inj (Path.sub_injective there)).1

/-- Two directories hold one bundle: the same manifest value, and the same bytes in
every file it lists. -/
def SameBundle (later sealed_ : Disk) (out : Path) : Prop :=
  ∃ presented original, loadManifest later out = .ok (some presented) ∧
    loadManifest sealed_ out = .ok (some original) ∧
    Json.canonical presented = Json.canonical original ∧
    ∀ rel ∈ listed presented, ∃ bytes, Holds later out rel bytes ∧ Holds sealed_ out rel bytes

theorem sameBundle_of_verify {later sealed_ : Disk} {outputDir : Str} {objects : List Sealed}
    {manifest : Bytes} (plain : ∀ o ∈ objects, o.Plain)
    (encoded : canon (manifestOf objects) = .ok manifest)
    (stored : Stored sealed_ (Path.ofStr outputDir) objects manifest)
    (apart : HashesSeparate later sealed_ (Path.ofStr outputDir))
    (accepted : verify later outputDir (Canon.digest .evidenceManifest manifest) = .ok true) :
    SameBundle later sealed_ (Path.ofStr outputDir) := by
  have original := loadManifest_stored plain encoded stored
  obtain ⟨presented, read, same, holds⟩ := stored_of_verify plain encoded accepted
    (fun presented payload read encoded' =>
      apart.manifests presented _ payload manifest read original encoded' (canon_canonical.mpr encoded))
    (fun o inside bytes held => apart.files o.rel bytes o.payload held (stored.objects o inside))
  refine ⟨presented, _, read, original, ?_, ?_⟩
  · rw [same, Json.canonical_canonical]
  · obtain ⟨bytes, -, loaded⟩ := loadManifest_ok.mp read
    obtain ⟨entries, looked, lists⟩ := objects_of_same (Json.loadText_clean loaded) same
    intro rel named
    rw [listed_of_lists looked lists] at named
    obtain ⟨o, inside, rfl⟩ := List.mem_map.mp named
    exact ⟨o.payload, holds o inside, stored.objects o inside⟩

/-- Findings sealed into a directory without links verify there; whatever the
directory holds later, it verifies only with the sealed manifest and the sealed
bytes in every file listed. -/
theorem sealed_bundle_verifies_unmodified {disk : Disk} {findings : List Value} {outputDir : Str}
    {redact : List Value} {retention : Dict Str Value} {world last : World} {refs : List Str}
    {digest : Str} {root : Path} (linkless : disk.Linkless (Path.ofStr outputDir) root)
    (ran : sealFindings disk findings outputDir redact retention world = (.ok (refs, digest), last))
    (separate : MarksSeparate (secrets redact) retention findings) :
    verify (disk.after last.log) outputDir digest = .ok true ∧
      ∀ later : Disk, HashesSeparate later (disk.after last.log) (Path.ofStr outputDir) →
        verify later outputDir digest = .ok true →
        ∃ presented original, loadManifest later (Path.ofStr outputDir) = .ok (some presented) ∧
          loadManifest (disk.after last.log) (Path.ofStr outputDir) = .ok (some original) ∧
          Json.canonical presented = Json.canonical original ∧
          ∀ rel ∈ listed presented, ∃ bytes, Holds later (Path.ofStr outputDir) rel bytes ∧
            Holds (disk.after last.log) (Path.ofStr outputDir) rel bytes := by
  obtain ⟨objects, manifest, plain, encoded, rfl, stored⟩ :=
    stored_of_sealed [] linkless ran separate (by simp)
  rw [List.append_nil] at stored
  exact ⟨verify_of_stored plain encoded stored,
    fun later apart accepted => sameBundle_of_verify plain encoded stored apart accepted⟩

/-- A file system without links, and empty. -/
def blank : Disk where
  resolve p := .ok p
  exists_ _ := false
  isFile _ := false
  isDir _ := false
  read _ := .error ⟨.osError, ["No such file or directory"]⟩

theorem blank_linkless (out : Path) : blank.Linkless out out := ⟨rfl, fun _ _ => rfl, fun _ _ => rfl⟩

def findingDoc (key : Str) : Value :=
  .dict [("assertion_id", .str "a"), ("finding_key", .str key), ("subject_locations", .list []),
    ("expected", .null), ("observed", .str "x")]

/-- One finding twice and another of the same assertion. -/
def twoFindings : List Value := [findingDoc "k", findingDoc "k", findingDoc "l"]

def objectDoc (key : Str) : Sealed :=
  ⟨"a", Utf8.ascii (Json.dumps (findingDoc key)), "standard"⟩

theorem two_each : twoFindings.mapM (sealOne (secrets []) []) =
    .ok [objectDoc "k", objectDoc "k", objectDoc "l"] := rfl

theorem two_sealed : ∃ refs digest last,
    sealFindings blank twoFindings "/out" [] [] ⟨[], [], []⟩ = (.ok (refs, digest), last) := by
  refine ⟨_, _, _, sealFindings_run rfl two_each ?_⟩
  intro o inside
  exact ⟨_, contained_rel (blank_linkless _) (plain_of_mapM two_each o inside)⟩

theorem marks_differ : (objectDoc "k").mark ≠ (objectDoc "l").mark := by decide +kernel

theorem two_marks : MarksSeparate (secrets []) [] twoFindings := by
  intro objects each o₁ first o₂ second same
  rw [two_each] at each
  cases each
  simp only [List.mem_cons, List.not_mem_nil, or_false, or_self_left] at first second
  rcases first with rfl | rfl
  · rcases second with rfl | rfl
    · rfl
    · exact absurd same marks_differ
  · rcases second with rfl | rfl
    · exact absurd same.symm marks_differ
    · rfl

theorem separate_self (disk : Disk) (out : Path) : HashesSeparate disk disk out := by
  constructor
  · intro m₁ m₂ b₁ b₂ read₁ read₂ encoded₁ encoded₂ _
    rw [read₁] at read₂
    cases read₂
    rw [encoded₁] at encoded₂
    cases encoded₂
    rfl
  · intro rel b₁ b₂ ⟨p₁, within₁, _, read₁⟩ ⟨p₂, within₂, _, read₂⟩ _
    rw [within₁] at within₂
    cases within₂
    rw [read₁] at read₂
    cases read₂
    rfl

theorem two_verify : ∃ refs digest last,
    sealFindings blank twoFindings "/out" [] [] ⟨[], [], []⟩ = (.ok (refs, digest), last) ∧
      verify (blank.after last.log) "/out" digest = .ok true ∧
      ∃ presented, loadManifest (blank.after last.log) (Path.ofStr "/out") = .ok (some presented) := by
  obtain ⟨refs, digest, last, ran⟩ := two_sealed
  obtain ⟨accepted, only⟩ :=
    sealed_bundle_verifies_unmodified (blank_linkless _) ran two_marks
  obtain ⟨presented, _, read, -⟩ := only (blank.after last.log) (separate_self _ _) accepted
  exact ⟨refs, digest, last, ran, accepted, presented, read⟩

end DevGate.Evidence
