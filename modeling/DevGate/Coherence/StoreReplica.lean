import DevGate.Coherence.EvidenceSeal
import DevGate.Coherence.Store
import DevGate.Py.JsonFaults
import DevGate.Py.RealPath

set_option autoImplicit false

/- An upload replicates the sealed bundle where the bundle is named by its real path. -/
namespace DevGate.Store

open Py Canon
open Evidence (contained evidenceError Sealed Stored Holds manifestOf verify blank)

/-- A sealed bundle stands in a directory, and its files can be read. -/
structure Bundle (disk : Disk) (out : Path) (objects : List Sealed) (manifest : Bytes) : Prop where
  plain : ∀ o ∈ objects, o.Plain
  encoded : canon (manifestOf objects) = .ok manifest
  stored : Stored disk out objects manifest
  file : disk.isFile (out.join "evidence-manifest.json") = true
  readable : ∀ fp ∈ fixedFiles disk out, ∃ bytes, disk.read fp = .ok bytes

/-- A file that was sent: its name in the bundle, and its bytes. -/
def Sent (disk : Disk) (out : Path) (fp : Path) (item : Str × Bytes) : Prop :=
  ∃ names, fp = out.sub names ∧ item.1 = Path.str ⟨false, names⟩ ∧ disk.read fp = .ok item.2

/-- What a manifest entry's object is read from. -/
def Object (disk : Disk) (out : Path) (o : Sealed) (fp : Path) : Prop :=
  contained disk out (.str o.rel) = .ok fp ∧ disk.isFile fp = true ∧ disk.read fp = .ok o.payload

/-! What is sent. -/

theorem containedOr_ok {disk : Disk} {out fp : Path} {rel : Value} :
    containedOr disk out rel = .ok fp ↔ contained disk out rel = .ok fp := by
  unfold containedOr
  cases contained disk out rel <;> simp

theorem listed_objects {disk : Disk} {out : Path} {entries : List Value} {objects : List Sealed}
    (lists : List.Forall₂ Evidence.Lists entries objects)
    (each : ∀ o ∈ objects, Holds disk out o.rel o.payload) :
    ∃ files, listed disk out entries = .ok files ∧ List.Forall₂ (Object disk out) objects files := by
  induction lists with
  | nil => exact ⟨[], rfl, .nil⟩
  | @cons entry o entries objects first _ ih =>
      rw [List.forall_mem_cons] at each
      obtain ⟨fp, inside, file, read⟩ := each.1
      obtain ⟨files, later, paired⟩ := ih each.2
      refine ⟨fp :: files, ?_, .cons ⟨inside, file, read⟩ paired⟩
      rw [listed, first.1]
      simp only [ok_bind, Option.getD_some, containedOr_ok.mpr inside, later, file, ↓reduceIte,
        pure_ok]

theorem artifacts_bundle {disk : Disk} {runDir : Str} {objects : List Sealed} {manifest : Bytes}
    (bundle : Bundle disk (Path.ofStr runDir) objects manifest) :
    ∃ files, artifacts disk runDir = .ok (fixedFiles disk (Path.ofStr runDir) ++ files) ∧
      List.Forall₂ (Object disk (Path.ofStr runDir)) objects files := by
  have loaded : Json.loadText manifest = .ok (Json.canonical (manifestOf objects)) := by
    rw [loadText_canon bundle.encoded, Json.decoded_clean (Evidence.clean_manifestOf bundle.plain)]
  obtain ⟨entries, looked, lists⟩ := Evidence.objects_of_same (Json.loadText_clean loaded)
    (Json.canonical_canonical (manifestOf objects))
  obtain ⟨files, found, paired⟩ := listed_objects lists bundle.stored.objects
  refine ⟨files, ?_, paired⟩
  unfold artifacts
  simp only [bundle.file, ↓reduceIte, bundle.stored.manifest, ok_bind, loaded, looked,
    Option.getD_some, Value.iter, found, pure_ok]

theorem manifestDigest_bundle {disk : Disk} {runDir : Str} {objects : List Sealed}
    {manifest : Bytes} (bundle : Bundle disk (Path.ofStr runDir) objects manifest) :
    manifestDigest disk runDir = .ok (Canon.digest .evidenceManifest manifest) := by
  have loaded : Json.loadText manifest = .ok (Json.canonical (manifestOf objects)) := by
    rw [loadText_canon bundle.encoded, Json.decoded_clean (Evidence.clean_manifestOf bundle.plain)]
  unfold manifestDigest digestObj
  rw [bundle.stored.manifest, ok_bind, loaded, ok_bind, canon_canonical.mpr bundle.encoded]
  rfl

theorem sendOne_ok {disk : Disk} {transport : Transport} {out fp : Path}
    {sent : List (Str × Bytes)} {item : Str × Bytes}
    (ran : sendOne disk transport out sent fp = .ok item) : Sent disk out fp item := by
  obtain ⟨found, below, ran⟩ := bind_ok.mp ran
  obtain ⟨payload, read, ran⟩ := bind_ok.mp ran
  obtain ⟨_, -, ran⟩ := bind_ok.mp ran
  obtain ⟨names, place, rfl⟩ := Path.relativeTo_ok.mp below
  cases ran
  exact ⟨names, place, rfl, read⟩

theorem sendAll_ok {disk : Disk} {transport : Transport} {out : Path} {files : List Path}
    {sent last : List (Str × Bytes)}
    (ran : sendAll disk transport out sent files = (.ok (), last)) :
    ∃ items, last = sent ++ items ∧ List.Forall₂ (Sent disk out) files items := by
  induction files generalizing sent with
  | nil =>
      cases ran
      exact ⟨[], (List.append_nil _).symm, .nil⟩
  | cons fp rest ih =>
      rw [sendAll] at ran
      cases first : sendOne disk transport out sent fp with
      | error e =>
          rw [first] at ran
          cases ran
      | ok item =>
          rw [first] at ran
          obtain ⟨items, whole, paired⟩ := ih ran
          refine ⟨item :: items, ?_, .cons (sendOne_ok first) paired⟩
          rw [whole, List.append_assoc]
          rfl

theorem sendAll_run {disk : Disk} {transport : Transport} {out : Path} {files : List Path}
    {items : List (Str × Bytes)} (sent : List (Str × Bytes))
    (takes : ∀ sent name payload, transport sent name payload = .ok ())
    (paired : List.Forall₂ (Sent disk out) files items) :
    sendAll disk transport out sent files = (.ok (), sent ++ items) := by
  induction paired generalizing sent with
  | nil =>
      rw [List.append_nil]
      rfl
  | @cons fp item files items first _ ih =>
      obtain ⟨names, place, named, read⟩ := first
      have one : sendOne disk transport out sent fp = .ok item := by
        unfold sendOne
        rw [Path.relativeTo_ok.mpr ⟨names, place, rfl⟩, ok_bind, read, ok_bind, ← named, takes]
        rfl
      rw [sendAll, one]
      show sendAll disk transport out (sent ++ [item]) files = _
      rw [ih, List.append_assoc]
      rfl

/-! What the delivered files are. -/

/-- A name below a directory. -/
structure Below (names : List Str) : Prop where
  some_ : names ≠ []
  plain : ∀ part ∈ names, part ≠ [] ∧ part ≠ "." ∧ part ≠ ".." ∧ Chr.ofChar '/' ∉ part

theorem Below.str {names : List Str} (below : Below names) :
    Path.str ⟨false, names⟩ = Str.join "/" names := by
  unfold Path.str
  rw [if_neg Bool.false_ne_true, if_neg below.some_]

theorem Below.join {names : List Str} (below : Below names) (dest : Path) :
    dest.join (Path.str ⟨false, names⟩) = dest.sub names := by
  rw [below.str]
  apply Path.join_names dest names below.some_
  intro part inside
  have plain := below.plain part inside
  exact ⟨plain.1, plain.2.1, plain.2.2.2⟩

theorem Below.up {names : List Str} (below : Below names) : (".." : Str) ∉ names := by
  intro inside
  exact (below.plain _ inside).2.2.1 rfl

theorem below_names {o : Sealed} (plain : o.Plain) : Below o.names := by
  obtain ⟨filled, dot, up, slash⟩ := Sealed.file_plain plain.named
  constructor
  · exact List.cons_ne_nil _ _
  · unfold Sealed.names
    simp only [List.forall_mem_cons]
    exact ⟨by decide, by decide, ⟨filled, dot, up, slash⟩, by simp⟩

theorem below_fixed {name : Str} (inside : name ∈ bundleFiles) : Below [name] := by
  have each : ∀ file ∈ bundleFiles,
      file ≠ [] ∧ file ≠ "." ∧ file ≠ ".." ∧ Chr.ofChar '/' ∉ file := by decide
  constructor
  · exact List.cons_ne_nil _ _
  · intro part member
    rw [List.mem_singleton.mp member]
    exact each name inside

theorem join_fixed {name : Str} (inside : name ∈ bundleFiles) (out : Path) :
    out.join name = out.sub [name] := (below_fixed inside).join out

/-- The bytes, written under the names they were sent by. -/
def delivered (dest : Path) (sent : List (Str × Bytes)) : List (Path × Bytes) :=
  sent.map (fun item => (dest.join item.1, item.2))

section

variable {disk fresh : Disk} {out dest root : Path} {files : List Path} {items : List (Str × Bytes)}

/-- A delivered file is one that was sent, where it was sent to. -/
theorem of_delivered (linkless : fresh.Linkless dest root)
    (paired : List.Forall₂ (Sent disk out) files items)
    (below : ∀ fp ∈ files, ∀ names, fp = out.sub names → Below names) {write : Path × Bytes}
    (written : write ∈ delivered dest items) :
    ∃ names, out.sub names ∈ files ∧ fresh.locate write.1 = root.sub names ∧
      disk.read (out.sub names) = .ok write.2 := by
  obtain ⟨item, inside, rfl⟩ := List.mem_map.mp written
  obtain ⟨fp, member, names, rfl, named, read⟩ := (paired_members paired).2 item inside
  refine ⟨names, member, ?_, read⟩
  have plain := below _ member names rfl
  show fresh.locate (dest.join item.1) = _
  rw [named, plain.join, linkless.locate plain.up]

/-- A file that was sent stands in the copy, under its name. -/
theorem written_delivered (linkless : fresh.Linkless dest root)
    (paired : List.Forall₂ (Sent disk out) files items)
    (below : ∀ fp ∈ files, ∀ names, fp = out.sub names → Below names) {names : List Str}
    {bytes : Bytes} (member : out.sub names ∈ files) (read : disk.read (out.sub names) = .ok bytes) :
    fresh.written (delivered dest items) (root.sub names) = some bytes := by
  apply Disk.written_of_forall
  · obtain ⟨item, inside, names', place, named, -⟩ := (paired_members paired).1 _ member
    have same : names = names' := Path.sub_injective place
    have plain := below _ member names rfl
    refine ⟨_, List.mem_map_of_mem inside, ?_⟩
    show fresh.locate (dest.join item.1) = _
    rw [named, ← same, plain.join, linkless.locate plain.up]
  · intro write written there
    obtain ⟨names', -, place, read'⟩ := of_delivered linkless paired below written
    have same : names' = names := Path.sub_injective (place.symm.trans there)
    rw [same, read] at read'
    exact (Except.ok.inj read').symm

theorem not_delivered (linkless : fresh.Linkless dest root)
    (paired : List.Forall₂ (Sent disk out) files items)
    (below : ∀ fp ∈ files, ∀ names, fp = out.sub names → Below names) {names : List Str}
    (absent : out.sub names ∉ files) :
    fresh.written (delivered dest items) (root.sub names) = none := by
  unfold Disk.written
  rw [Option.map_eq_none_iff, List.find?_eq_none]
  intro write written
  rw [decide_eq_true_eq]
  intro there
  obtain ⟨names', member, place, -⟩ :=
    of_delivered linkless paired below (List.mem_reverse.mp written)
  have same : names' = names := Path.sub_injective (place.symm.trans there)
  rw [same] at member
  exact absent member

end

/-! The copy. -/

/-- An empty directory without links. -/
structure Fresh (disk : Disk) (dest root : Path) : Prop extends disk.Linkless dest root where
  bare : ∀ name ∈ bundleFiles, disk.isFile (dest.join name) = false

/-- The copy of a bundle: it verifies, and its files are those of the bundle. -/
structure Replica (disk : Disk) (out : Path) (copy : Disk) (dest : Str) (objects : List Sealed)
    (manifest : Bytes) : Prop where
  verifies : verify copy dest (Canon.digest .evidenceManifest manifest) = .ok true
  stored : Stored copy (Path.ofStr dest) objects manifest
  present : ∀ name ∈ bundleFiles,
    copy.isFile ((Path.ofStr dest).join name) = disk.isFile (out.join name)
  same : ∀ name ∈ bundleFiles, disk.isFile (out.join name) = true →
    copy.read ((Path.ofStr dest).join name) = disk.read (out.join name)

/-- Is every object listed under its real path? -/
def Spelled (disk : Disk) (out : Path) (objects : List Sealed) : Prop :=
  ∀ o ∈ objects, disk.resolve (out.join o.rel) = .ok (out.join o.rel)

theorem contained_resolve {disk : Disk} {out fp : Path} {rel : Str}
    (inside : contained disk out (.str rel) = .ok fp) : disk.resolve (out.join rel) = .ok fp := by
  unfold contained at inside
  split at inside
  · rename_i c name same
    cases same
    obtain ⟨root, -, inside⟩ := bind_ok.mp inside
    obtain ⟨p, resolved, inside⟩ := bind_ok.mp inside
    split at inside
    · cases inside
      exact resolved
    · cases inside
  · cases inside

theorem mem_fixedFiles {disk : Disk} {out : Path} {name : Str} (inside : name ∈ bundleFiles) :
    out.join name ∈ fixedFiles disk out ↔ disk.isFile (out.join name) = true := by
  unfold fixedFiles
  rw [List.mem_filter]
  exact ⟨And.right, fun file => ⟨List.mem_map_of_mem inside, file⟩⟩

theorem sent_fixed {disk : Disk} {out : Path}
    (readable : ∀ fp ∈ fixedFiles disk out, ∃ bytes, disk.read fp = .ok bytes) :
    ∃ items, List.Forall₂ (Sent disk out) (fixedFiles disk out) items := by
  have named : ∀ fp ∈ fixedFiles disk out, ∃ item, Sent disk out fp item := by
    intro fp inside
    obtain ⟨bytes, read⟩ := readable fp inside
    obtain ⟨name, member, rfl⟩ := List.mem_map.mp (List.mem_of_mem_filter inside)
    exact ⟨⟨_, bytes⟩, [name], join_fixed member out, rfl, read⟩
  generalize fixedFiles disk out = files at named
  induction files with
  | nil => exact ⟨[], .nil⟩
  | cons fp rest ih =>
      rw [List.forall_mem_cons] at named
      obtain ⟨item, first⟩ := named.1
      obtain ⟨items, paired⟩ := ih named.2
      exact ⟨item :: items, .cons first paired⟩

/-- The receipt of an upload. -/
def receipt (manifest : Bytes) : Value :=
  .dict [("evidence_manifest_digest", .str (Canon.digest .evidenceManifest manifest))]

theorem upload_run {disk : Disk} {runDir : Str} {transport : Transport} {objects : List Sealed}
    {manifest : Bytes} {files : List Path} {items : List (Str × Bytes)}
    (bundle : Bundle disk (Path.ofStr runDir) objects manifest)
    (takes : ∀ sent name payload, transport sent name payload = .ok ())
    (gathered : artifacts disk runDir = .ok files)
    (paired : List.Forall₂ (Sent disk (Path.ofStr runDir)) files items) :
    upload disk runDir transport = (.ok (receipt manifest), items) := by
  unfold upload
  simp only [bundle.file, ↓reduceIte, gathered, sendAll_run [] takes paired, List.nil_append,
    manifestDigest_bundle bundle, ok_bind, pure_ok]
  rfl

section

variable {disk : Disk} {runDir : Str} {objects : List Sealed} {manifest : Bytes}

theorem object_spelled {out fp : Path} {o : Sealed} (plain : o.Plain)
    (spelled : disk.resolve (out.join o.rel) = .ok (out.join o.rel)) (object : Object disk out o fp) :
    fp = out.sub o.names := by
  have resolved := contained_resolve object.1
  rw [spelled, Sealed.join_rel plain.named] at resolved
  exact (Except.ok.inj resolved).symm

theorem sent_objects {out : Path} {files : List Path} (plain : ∀ o ∈ objects, o.Plain)
    (spelled : Spelled disk out objects) (paired : List.Forall₂ (Object disk out) objects files) :
    List.Forall₂ (Sent disk out) files (objects.map (fun o => (o.rel, o.payload))) := by
  induction paired with
  | nil => exact .nil
  | @cons o fp objects files first _ ih =>
      rw [List.forall_mem_cons] at plain
      unfold Spelled at spelled
      rw [List.forall_mem_cons] at spelled
      refine .cons ⟨o.names, object_spelled plain.1 spelled.1 first, ?_, first.2.2⟩
        (ih plain.2 spelled.2)
      rw [(below_names plain.1).str]
      exact Sealed.rel_eq o

/-- The files of a bundle whose objects are listed under their real paths. -/
theorem files_below {out : Path} {files : List Path} (plain : ∀ o ∈ objects, o.Plain)
    (spelled : Spelled disk out objects) (paired : List.Forall₂ (Object disk out) objects files) :
    ∀ fp ∈ fixedFiles disk out ++ files, ∀ names, fp = out.sub names → Below names := by
  intro fp inside names place
  rcases List.mem_append.mp inside with fixed | object
  · obtain ⟨name, member, there⟩ := List.mem_map.mp (List.mem_of_mem_filter fixed)
    have same : names = [name] :=
      Path.sub_injective (place.symm.trans (there.symm.trans (join_fixed member out)))
    rw [same]
    exact below_fixed member
  · obtain ⟨o, member, found⟩ := (paired_members paired).2 fp object
    have same : names = o.names :=
      Path.sub_injective (place.symm.trans (object_spelled (plain o member) (spelled o member) found))
    rw [same]
    exact below_names (plain o member)

theorem replica_of_sent {fresh : Disk} {dest : Str} {root : Path} {files : List Path}
    {items : List (Str × Bytes)} (bundle : Bundle disk (Path.ofStr runDir) objects manifest)
    (spelled : Spelled disk (Path.ofStr runDir) objects)
    (paired : List.Forall₂ (Object disk (Path.ofStr runDir)) objects files)
    (sent : List.Forall₂ (Sent disk (Path.ofStr runDir))
      (fixedFiles disk (Path.ofStr runDir) ++ files) items)
    (empty : Fresh fresh (Path.ofStr dest) root) :
    Replica disk (Path.ofStr runDir) (fresh.after (delivered (Path.ofStr dest) items)) dest objects
      manifest := by
  have linkless := empty.toLinkless
  have below := files_below bundle.plain spelled paired
  have last : ("evidence-manifest.json" : Str) ∈ bundleFiles := by decide
  have stored : Stored (fresh.after (delivered (Path.ofStr dest) items)) (Path.ofStr dest) objects
      manifest := by
    apply Evidence.stored_after linkless bundle.plain
    · intro o inside
      obtain ⟨fp, member, object⟩ := (paired_members paired).1 o inside
      have place := object_spelled (bundle.plain o inside) (spelled o inside) object
      rw [place] at member
      apply written_delivered linkless sent below (List.mem_append_right _ member)
      rw [← place]
      exact object.2.2
    · apply written_delivered linkless sent below
      · rw [← join_fixed last]
        exact List.mem_append_left _ ((mem_fixedFiles last).mpr bundle.file)
      · rw [← join_fixed last]
        exact bundle.stored.manifest
  have locate : ∀ name ∈ bundleFiles,
      fresh.locate ((Path.ofStr dest).join name) = root.sub [name] := by
    intro name inside
    rw [join_fixed inside]
    exact linkless.locate (below_fixed inside).up
  refine ⟨Evidence.verify_of_stored bundle.plain bundle.encoded stored, stored, ?_, ?_⟩
  · intro name inside
    show ((fresh.written _ (fresh.locate _)).isSome || fresh.isFile _) = _
    rw [locate name inside, empty.bare name inside, Bool.or_false]
    by_cases file : disk.isFile ((Path.ofStr runDir).join name) = true
    · have member := (mem_fixedFiles inside).mpr file
      obtain ⟨bytes, read⟩ := bundle.readable _ member
      rw [join_fixed inside] at member read
      rw [written_delivered linkless sent below (List.mem_append_left _ member) read, file]
      rfl
    · have absent : (Path.ofStr runDir).sub [name] ∉ fixedFiles disk (Path.ofStr runDir) ++ files := by
        rw [List.mem_append, not_or]
        constructor
        · intro member
          rw [← join_fixed inside] at member
          exact file ((mem_fixedFiles inside).mp member)
        · intro member
          obtain ⟨o, listed_, object⟩ := (paired_members paired).2 _ member
          have place := object_spelled (bundle.plain o listed_) (spelled o listed_) object
          cases Path.sub_injective place
      rw [not_delivered linkless sent below absent, Bool.eq_false_iff.mpr file]
      rfl
  · intro name inside file
    have member := (mem_fixedFiles inside).mpr file
    obtain ⟨bytes, read⟩ := bundle.readable _ member
    rw [read]
    rw [join_fixed inside] at member read
    unfold Disk.after
    dsimp only
    rw [locate name inside, written_delivered linkless sent below (List.mem_append_left _ member) read]

/-- What an upload of a sealed bundle does, over a transport that takes every file. -/
def Replicates (disk : Disk) (runDir : Str) (transport : Transport) : Prop :=
  ∀ objects manifest, Bundle disk (Path.ofStr runDir) objects manifest →
    (∀ sent name payload, transport sent name payload = .ok ()) →
    ∃ items, upload disk runDir transport = (.ok (receipt manifest), items) ∧
      ∀ (fresh : Disk) (dest : Str) (root : Path), Fresh fresh (Path.ofStr dest) root →
        Replica disk (Path.ofStr runDir) (fresh.after (delivered (Path.ofStr dest) items)) dest
          objects manifest

theorem replicates_of_spelled {transport : Transport}
    (bundle : Bundle disk (Path.ofStr runDir) objects manifest)
    (takes : ∀ sent name payload, transport sent name payload = .ok ())
    (spelled : Spelled disk (Path.ofStr runDir) objects) :
    ∃ items, upload disk runDir transport = (.ok (receipt manifest), items) ∧
      ∀ (fresh : Disk) (dest : Str) (root : Path), Fresh fresh (Path.ofStr dest) root →
        Replica disk (Path.ofStr runDir) (fresh.after (delivered (Path.ofStr dest) items)) dest
          objects manifest := by
  obtain ⟨files, gathered, paired⟩ := artifacts_bundle bundle
  obtain ⟨fixed, sent⟩ := sent_fixed bundle.readable
  have all := List.rel_append sent (sent_objects bundle.plain spelled paired)
  refine ⟨_, upload_run bundle takes gathered all, ?_⟩
  intro fresh dest root empty
  exact replica_of_sent bundle spelled paired all empty

theorem sent_of_upload {transport : Transport} {answer : Value} {items : List (Str × Bytes)}
    {files : List Path} (gathered : artifacts disk runDir = .ok files)
    (ran : upload disk runDir transport = (.ok answer, items)) :
    List.Forall₂ (Sent disk (Path.ofStr runDir)) files items := by
  unfold upload at ran
  simp only [gathered] at ran
  split at ran
  · split at ran
    · cases ran
    · rename_i sent all
      obtain ⟨items', whole, paired⟩ := sendAll_ok all
      rw [List.nil_append] at whole
      have same : sent = items := (Prod.ext_iff.mp ran).2
      rw [← same, whole]
      exact paired
  · cases ran

/-- What stands in a copy was sent under its name. -/
theorem sent_of_stands {items : List (Str × Bytes)} {dest : Path} {names : List Str}
    (file : (blank.after (delivered dest items)).isFile (dest.sub names) = true) :
    ∃ item ∈ items, dest.join item.1 = dest.sub names := by
  have some_ : (blank.written (delivered dest items) (dest.sub names)).isSome = true := by
    have whole : ((blank.written (delivered dest items) (dest.sub names)).isSome || false) = true :=
      file
    rwa [Bool.or_false] at whole
  obtain ⟨bytes, found⟩ := Option.isSome_iff_exists.mp some_
  unfold Disk.written at found
  obtain ⟨write, found, -⟩ := Option.map_eq_some_iff.mp found
  have there := List.find?_some found
  obtain ⟨item, inside, rfl⟩ :=
    List.mem_map.mp (List.mem_reverse.mp (List.mem_of_find?_eq_some found))
  rw [decide_eq_true_eq] at there
  exact ⟨item, inside, there⟩

theorem below_of_real {out : Path} {names : List Str} (real : (out.sub names).Real)
    (some_ : names ≠ []) : Below names :=
  ⟨some_, fun part inside => real.names part (List.mem_append_right _ inside)⟩

/-- Where an upload replicates a bundle, its objects are listed under their real paths. -/
theorem spelled_of_replicates {transport : Transport} {items : List (Str × Bytes)}
    (realpath : disk.Realpath) (bundle : Bundle disk (Path.ofStr runDir) objects manifest)
    (ran : upload disk runDir transport = (.ok (receipt manifest), items))
    (stored : Stored (blank.after (delivered (Path.ofStr "/copy") items)) (Path.ofStr "/copy")
      objects manifest) : Spelled disk (Path.ofStr runDir) objects := by
  obtain ⟨files, gathered, paired⟩ := artifacts_bundle bundle
  have sent := sent_of_upload gathered ran
  intro o inside
  have plain := below_names (bundle.plain o inside)
  have named := Sealed.join_rel (bundle.plain o inside).named
  obtain ⟨p, found, file, -⟩ := stored.objects o inside
  have place : Path.sub (Path.ofStr "/copy") o.names = p := by
    rw [← named]
    exact Except.ok.inj (contained_resolve found)
  rw [← place] at file
  obtain ⟨item, member, there⟩ := sent_of_stands file
  obtain ⟨fp, gathered, names, rfl, called, -⟩ := (paired_members sent).2 item member
  rw [called] at there
  rcases List.mem_append.mp gathered with fixed | object
  · obtain ⟨name, member, spelled⟩ := List.mem_map.mp (List.mem_of_mem_filter fixed)
    rw [join_fixed member] at spelled
    rw [← Path.sub_injective spelled, (below_fixed member).join] at there
    cases Path.sub_injective there
  · obtain ⟨o', -, source⟩ := (paired_members paired).2 _ object
    have resolved := contained_resolve source.1
    have same : names = o.names := by
      by_cases some_ : names = []
      · subst some_
        have top : Path.sub (Path.ofStr "/copy") [] = Path.sub (Path.ofStr "/copy") o.names := there
        exact absurd (Path.sub_injective top).symm plain.some_
      · have below := below_of_real (realpath.real resolved) some_
        rw [below.join] at there
        exact Path.sub_injective there
    rw [named, ← same]
    exact realpath.again resolved

theorem blank_fresh (dest : Str) : Fresh blank (Path.ofStr dest) (Path.ofStr dest) :=
  { Evidence.blank_linkless (Path.ofStr dest) with bare := fun _ _ => rfl }

theorem replicates_iff {transport : Transport} (realpath : disk.Realpath) :
    Replicates disk runDir transport ↔
      ∀ objects manifest, Bundle disk (Path.ofStr runDir) objects manifest →
        (∀ sent name payload, transport sent name payload = .ok ()) →
        Spelled disk (Path.ofStr runDir) objects := by
  constructor
  · intro replicates objects manifest bundle takes
    obtain ⟨items, ran, copies⟩ := replicates objects manifest bundle takes
    exact spelled_of_replicates realpath bundle ran (copies blank "/copy" _ (blank_fresh _)).stored
  · intro spelled objects manifest bundle takes
    exact replicates_of_spelled bundle takes (spelled objects manifest bundle takes)

/-- In a directory without links the objects are listed under their real paths where the
directory is named by its own. -/
theorem spelled_iff {out root : Path} (linkless : disk.Linkless out root)
    (plain : ∀ o ∈ objects, o.Plain) : Spelled disk out objects ↔ objects = [] ∨ out = root := by
  have resolved : ∀ o ∈ objects, disk.resolve (out.join o.rel) = .ok (root.sub o.names) := by
    intro o inside
    rw [Sealed.join_rel (plain o inside).named]
    exact linkless.below o.names (below_names (plain o inside)).up
  constructor
  · intro spelled
    cases objects with
    | nil => exact .inl rfl
    | cons o rest =>
        have same := spelled o List.mem_cons_self
        rw [resolved o List.mem_cons_self, Sealed.join_rel (plain o List.mem_cons_self).named,
          Except.ok.injEq, Path.sub, Path.sub, Py.Path.mk.injEq] at same
        have parts := List.append_cancel_right same.2
        refine .inr ?_
        cases out
        cases root
        cases same.1
        cases parts
        rfl
  · intro named o inside
    rcases named with none | same
    · rw [none] at inside
      cases inside
    · rw [resolved o inside, Sealed.join_rel (plain o inside).named, same]

end

end DevGate.Store
