import DevGate.Coherence.EvidenceSeal
import DevGate.Py.JsonStrings

set_option autoImplicit false

/- Which secrets a sealed bundle still shows. -/
namespace DevGate.Evidence

open Py Canon
open Result (emit)

theorem redactValues_eq (values : List Str) (v : Value) :
    redactValues values v = Json.mapStrings (redactStr values) v := by
  have lists : ∀ vs : List Value, (∀ v ∈ vs, redactValues values v = Json.mapStrings (redactStr values) v) →
      redactList values vs = Json.mapStringsList (redactStr values) vs := by
    intro vs each
    induction vs with
    | nil => rfl
    | cons v vs ih =>
        rw [List.forall_mem_cons] at each
        rw [redactList, Json.mapStringsList, each.1, ih each.2]
  have pairs : ∀ kvs : List (Str × Value),
      (∀ kv ∈ kvs, redactValues values kv.2 = Json.mapStrings (redactStr values) kv.2) →
      redactPairs values kvs = Json.mapStringsPairs (redactStr values) kvs := by
    intro kvs each
    induction kvs with
    | nil => rfl
    | cons kv rest ih =>
        rw [List.forall_mem_cons] at each
        rw [redactPairs, Json.mapStringsPairs, each.1, ih each.2]
  induction v using Value.ind with
  | list vs ih => rw [redactValues, Json.mapStrings, lists vs ih]
  | dict kvs ih => rw [redactValues, Json.mapStrings, pairs kvs ih]
  | _ => rfl

/-- The string values that a reader of a sealed object finds. -/
theorem strings_payload {values : List Str} {ev : Value} {payload : Bytes}
    (encoded : canon (redactValues values ev) = .ok payload) {v : Value}
    (read : Json.loadText payload = .ok v) :
    Json.strings v = (Json.strings (Json.kept ev)).map (fun s => Json.merge (redactStr values s)) := by
  rw [loadText_canon encoded] at read
  cases read
  rw [Json.strings_decoded, redactValues_eq, Json.kept_mapStrings, Json.strings_mapStrings,
    List.map_map]
  rfl

/-- A secret stands in a file: in its name, or in a string of what it decodes to. -/
def Shows (manifest : Path) (r : Str) (write : Path × Bytes) : Prop :=
  r <:+: write.1.name ∨
    ∃ v, Json.loadText write.2 = .ok v ∧
      ∃ s ∈ if write.1 = manifest then Json.texts v else Json.strings v, r <:+: s

/-- The texts every manifest holds, and its name. -/
def manifestTexts : List Str :=
  ["evidence-manifest.json", "api_version", "devgate.spec-coherence.evidence/v1", "objects"]

/-- The texts a manifest entry holds. -/
def Sealed.texts (o : Sealed) : List Str :=
  ["path", o.rel, "digest", o.digest, "media_type", "application/json", "assertion_id", o.aid,
    "retention_class", o.retentionClass, "redacted"]

/-- A secret that the replacements may leave and the fail-safe does not see: JSON does
not spell it as it is, and it overlaps the replacement text or holds a character that
a pair of surrogates decodes to. -/
def Elusive (r : Str) : Prop :=
  ¬ Json.Unescaped r ∧ (Str.Overlaps r redacted ∨ ∃ c ∈ r, 0x10000 ≤ c.val)

/-- A finding that keeps a secret out of the bundle: the manifest entry of its scrubbed
content is free of it, and so, where it is elusive, is what the replacements make of
its strings. -/
structure KeepsOut (values : List Str) (retention : Dict Str Value) (r : Str) (f : Value) : Prop where
  entry : ∀ aid ev payload, f.item "assertion_id" = .ok (.str aid) → disclosed f aid = .ok ev →
    canon (redactValues values ev) = .ok payload →
    ∀ t ∈ Sealed.texts ⟨aid, payload, retentionClass retention aid⟩, ¬ r <:+: t
  strings : Elusive r → ∀ aid ev, f.item "assertion_id" = .ok (.str aid) →
    disclosed f aid = .ok ev →
    ∀ s ∈ Json.strings (Json.kept ev), ¬ r <:+: Json.merge (redactStr values s)

theorem texts_entry (o : Sealed) : Json.texts o.entry = o.texts := rfl

theorem mem_texts_manifestOf {objects : List Sealed} {t : Str} :
    t ∈ Json.texts (manifestOf objects) ↔
      t ∈ manifestTexts.tail ∨ ∃ o ∈ objects, t ∈ o.texts := by
  have whole : Json.texts (manifestOf objects) = manifestTexts.tail ++ objects.flatMap Sealed.texts := by
    have entries : Json.textsList (objects.map Sealed.entry) = objects.flatMap Sealed.texts := by
      rw [Json.textsList_eq_flatMap, List.flatMap_map]
      exact List.flatMap_congr (fun o _ => texts_entry o)
    rw [manifestOf, Json.texts, Json.textsPairs, Json.textsPairs, Json.textsPairs, Json.texts,
      Json.texts, entries, List.append_nil]
    rfl
  rw [whole, List.mem_append, List.mem_flatMap]

theorem name_object {o : Sealed} (named : assertionIdRe.fullmatch o.aid = true) (out : Path) :
    (out.join o.rel).name = o.file := by
  rw [Sealed.join_rel named]
  simp [Path.name, Path.sub, Sealed.names]

theorem name_manifest (out : Path) :
    (out.join "evidence-manifest.json").name = "evidence-manifest.json" := by
  rw [join_manifest]
  simp [Path.name, Path.sub]

theorem object_ne_manifest {o : Sealed} (named : assertionIdRe.fullmatch o.aid = true) (out : Path) :
    out.join o.rel ≠ out.join "evidence-manifest.json" := by
  intro same
  rw [Sealed.join_rel named, join_manifest] at same
  cases Path.sub_injective same

theorem file_suffix (o : Sealed) : o.file <:+ o.rel := by
  have shape : o.rel = "evidence/findings/" ++ o.file := by
    unfold Sealed.rel Sealed.file
    simp only [List.append_assoc]
  rw [shape]
  exact List.suffix_append _ _

/-- The manifest shows a secret exactly where one of its texts holds it. -/
theorem shows_manifest {out : Path} {objects : List Sealed} {manifest : Bytes} {r : Str}
    (plain : ∀ o ∈ objects, o.Plain) (encoded : canon (manifestOf objects) = .ok manifest) :
    Shows (out.join "evidence-manifest.json") r (out.join "evidence-manifest.json", manifest) ↔
      (∃ t ∈ manifestTexts, r <:+: t) ∨ ∃ o ∈ objects, ∃ t ∈ o.texts, r <:+: t := by
  have found : ∀ t, t ∈ Json.texts (Json.decoded (manifestOf objects)) ↔
      t ∈ manifestTexts.tail ∨ ∃ o ∈ objects, t ∈ o.texts := by
    intro t
    rw [Json.decoded_clean (clean_manifestOf plain), Json.mem_texts_canonical, mem_texts_manifestOf]
  unfold Shows
  simp only [name_manifest, loadText_canon encoded, Except.ok.injEq, exists_eq_left', ↓reduceIte, found]
  constructor
  · rintro (named | ⟨t, fixed | ⟨o, inside, listed⟩, shown⟩)
    · exact Or.inl ⟨_, List.mem_cons_self, named⟩
    · exact Or.inl ⟨t, List.mem_of_mem_tail fixed, shown⟩
    · exact Or.inr ⟨o, inside, t, listed, shown⟩
  · rintro (⟨t, fixed, shown⟩ | ⟨o, inside, t, listed, shown⟩)
    · rcases List.mem_cons.mp fixed with rfl | later
      · exact Or.inl shown
      · exact Or.inr ⟨t, Or.inl later, shown⟩
    · exact Or.inr ⟨t, Or.inr ⟨o, inside, listed⟩, shown⟩

/-- A secret apart from the replacement text is replaced, for good. -/
theorem elusive_of_shown {values : List Str} {r s : Str} (filled : r ≠ []) (granted : r ∈ values)
    (escaped : ¬ Json.Unescaped r) (found : r <:+: Json.merge (redactStr values s)) : Elusive r := by
  refine ⟨escaped, ?_⟩
  by_cases apart : Str.Overlaps r redacted
  · exact Or.inl apart
  · right
    by_contra none
    simp only [not_exists, not_and, not_le] at none
    exact Str.not_infix_foldl_replaceAll filled apart granted s (Json.infix_of_merge none found)

/-- A sealed object shows a secret in its name, or where the replacements have left an
elusive one: they and the fail-safe see to all others. -/
theorem shows_object {out : Path} {values : List Str} {retention : Dict Str Value} {f : Value}
    {o : Sealed} {r : Str} (filled : r ≠ []) (granted : r ∈ values)
    (sealed_ : sealOne values retention f = .ok o) :
    Shows (out.join "evidence-manifest.json") r (out.join o.rel, o.payload) ↔
      r <:+: o.file ∨ Elusive r ∧ ∃ ev, disclosed f o.aid = .ok ev ∧
        ∃ s ∈ Json.strings (Json.kept ev), r <:+: Json.merge (redactStr values s) := by
  obtain ⟨ev, -, named, shown, encoded, checked, -⟩ := sealOne_ok sealed_
  have strings := strings_payload encoded (loadText_canon encoded)
  unfold Shows
  simp only [name_object named, object_ne_manifest named, loadText_canon encoded, shown,
    Except.ok.injEq, exists_eq_left', ↓reduceIte]
  apply or_congr_right
  constructor
  · intro ⟨t, inside, found⟩
    have escaped : ¬ Json.Unescaped r := fun unescaped =>
      checked r granted (Json.infix_dumps_of_decoded unescaped inside found)
    rw [strings] at inside
    obtain ⟨s, member, rfl⟩ := List.mem_map.mp inside
    exact ⟨elusive_of_shown filled granted escaped found, s, member, found⟩
  · intro ⟨_, s, member, found⟩
    refine ⟨_, ?_, found⟩
    rw [strings]
    exact List.mem_map_of_mem member

/-- The files of a sealed bundle are free of the granted secrets exactly when the texts
of the bundle's own are, and no finding lets one through. -/
theorem secrets_kept_out_iff {disk : Disk} {findings : List Value} {outputDir : Str}
    {redact : List Value} {retention : Dict Str Value} {fates : List Fate} {temps : List Str}
    {last : World} {refs : List Str} {digest : Str}
    (ran : sealFindings disk findings outputDir redact retention ⟨[], fates, temps⟩ =
      (.ok (refs, digest), last)) :
    (∀ r ∈ secrets redact, ∀ write ∈ last.log,
        ¬ Shows ((Path.ofStr outputDir).join "evidence-manifest.json") r write) ↔
      ∀ r ∈ secrets redact, (∀ t ∈ manifestTexts, ¬ r <:+: t) ∧
        ∀ f ∈ findings, KeepsOut (secrets redact) retention r f := by
  obtain ⟨objects, manifest, each, -, encoded, -, -, log⟩ := sealFindings_ok ran
  obtain ⟨forth, back⟩ := mapM_members each
  have plain := plain_of_mapM each
  have files : ∀ P : Path × Bytes → Prop, (∀ write ∈ last.log, P write) ↔
      (∀ o ∈ objects, P ((Path.ofStr outputDir).join o.rel, o.payload)) ∧
        P ((Path.ofStr outputDir).join "evidence-manifest.json", manifest) := by
    intro P
    rw [log, List.nil_append, bundleWrites, List.forall_mem_append, objectWrites,
      List.forall_mem_map, List.forall_mem_singleton]
  simp only [files, shows_manifest plain encoded, not_or, not_exists, not_and]
  apply forall_congr'
  intro r
  apply forall_congr'
  intro granted
  have filled : r ≠ [] := by simpa using (List.mem_filter.mp granted).2
  constructor
  · rintro ⟨objectsFree, fixed, listed⟩
    refine ⟨fixed, ?_⟩
    intro f inside
    obtain ⟨o, member, sealed_⟩ := forth f inside
    obtain ⟨ev, looked, named, shown, payload, -, kept⟩ := sealOne_ok sealed_
    have free := objectsFree o member
    rw [shows_object filled granted sealed_, not_or, not_and] at free
    constructor
    · intro aid ev' payload' looked' shown' encoded' t texts
      rw [looked] at looked'
      cases looked'
      rw [shown] at shown'
      cases shown'
      rw [payload] at encoded'
      cases encoded'
      rw [← kept] at texts
      exact listed o member t texts
    · intro escaped aid ev' looked' shown' s strings found
      rw [looked] at looked'
      cases looked'
      exact free.2 escaped ⟨ev', shown', s, strings, found⟩
  · rintro ⟨fixed, kept⟩
    have listed : ∀ o ∈ objects, ∀ t ∈ o.texts, ¬ r <:+: t := by
      intro o member t texts
      obtain ⟨f, inside, sealed_⟩ := back o member
      obtain ⟨ev, looked, named, shown, payload, -, class_⟩ := sealOne_ok sealed_
      apply (kept f inside).entry o.aid ev o.payload looked shown payload
      rw [← class_]
      exact texts
    refine ⟨?_, fixed, listed⟩
    intro o member
    obtain ⟨f, inside, sealed_⟩ := back o member
    obtain ⟨ev, looked, -⟩ := sealOne_ok sealed_
    rw [shows_object filled granted sealed_]
    rintro (named | ⟨escaped, ev', shown', s, strings, found⟩)
    · have path : o.rel ∈ o.texts := List.mem_cons_of_mem _ List.mem_cons_self
      exact listed o member o.rel path (named.trans (file_suffix o).isInfix)
    · exact (kept f inside).strings escaped o.aid ev' looked shown' s strings found

def leakContent (observed : Str) : Value :=
  .dict [("assertion_id", .str "a"), ("finding_key", .str "k"), ("subject_locations", .list []),
    ("expected", .null), ("observed", .str observed)]

/-- Scrubbing the second secret puts the first one together. -/
def leakRedact : List Value := [.str "é[", .str "token"]

def leakPayload : Bytes := Utf8.ascii (Json.dumps (leakContent "é[REDACTED]"))

theorem leak_redacted :
    redactValues (secrets leakRedact) (leakContent "étoken") = leakContent "é[REDACTED]" := by
  decide +kernel

theorem leak_each : [leakContent "étoken"].mapM (sealOne (secrets leakRedact) []) =
    .ok [⟨"a", leakPayload, "standard"⟩] := by
  have encoded : canon (redactValues (secrets leakRedact) (leakContent "étoken")) = .ok leakPayload := by
    rw [leak_redacted]
    rfl
  have scrubbed : (secrets leakRedact).any
      (fun r => r <:+: Json.dumps (redactValues (secrets leakRedact) (leakContent "étoken"))) = false := by
    rw [leak_redacted]
    decide +kernel
  rw [List.mapM_cons, sealOne_of_scrubbed _ rfl (by decide +kernel) rfl encoded scrubbed]
  rfl

theorem leak_plain : Sealed.Plain ⟨"a", leakPayload, "standard"⟩ :=
  plain_of_mapM leak_each _ List.mem_cons_self

/-- Sealing answers a digest, and the object decodes to a string with a secret in it. -/
theorem leak_run : ∃ refs digest last,
    sealFindings blank [leakContent "étoken"] "/out" leakRedact [] ⟨[], [], []⟩ =
      (.ok (refs, digest), last) ∧
    ∃ r ∈ secrets leakRedact, ∃ write ∈ last.log,
      Shows ((Path.ofStr "/out").join "evidence-manifest.json") r write := by
  refine ⟨_, _, _, sealFindings_run rfl leak_each ?_, "é[", by decide +kernel,
    ((Path.ofStr "/out").join (Sealed.rel ⟨"a", leakPayload, "standard"⟩), leakPayload), ?_, ?_⟩
  · intro o inside
    exact ⟨_, contained_rel (blank_linkless _) (plain_of_mapM leak_each o inside)⟩
  · exact List.mem_cons_self
  · have content : Json.loadText leakPayload = .ok (Json.decoded (leakContent "é[REDACTED]")) :=
      loadText_canon rfl
    refine Or.inr ⟨_, content, "é[REDACTED]", ?_, ⟨[], "REDACTED]", by decide⟩⟩
    simp only [object_ne_manifest leak_plain.named, ↓reduceIte]
    decide +kernel

theorem sealed_bundle_shows_secret : ¬ ∀ (disk : Disk) (findings redact : List Value) (outputDir : Str)
    (refs : List Str) (digest : Str) (last : World),
    sealFindings disk findings outputDir redact [] ⟨[], [], []⟩ = (.ok (refs, digest), last) →
    ∀ r ∈ secrets redact, ∀ write ∈ last.log,
      ¬ Shows ((Path.ofStr outputDir).join "evidence-manifest.json") r write := by
  intro claimed
  obtain ⟨refs, digest, last, ran, r, granted, write, written, shown⟩ := leak_run
  exact claimed blank _ leakRedact "/out" refs digest last ran r granted write written shown

theorem leak_condition : ∃ refs digest last,
    sealFindings blank [leakContent "étoken"] "/out" leakRedact [] ⟨[], [], []⟩ =
      (.ok (refs, digest), last) ∧
    ¬ ∀ r ∈ secrets leakRedact, (∀ t ∈ manifestTexts, ¬ r <:+: t) ∧
      ∀ f ∈ [leakContent "étoken"], KeepsOut (secrets leakRedact) [] r f := by
  obtain ⟨refs, digest, last, ran, r, granted, write, written, shown⟩ := leak_run
  refine ⟨refs, digest, last, ran, ?_⟩
  intro kept
  exact (secrets_kept_out_iff ran).mpr kept r granted write written shown

end DevGate.Evidence
