import DevGate.Coherence.StoreReplica
import DevGate.Py.Raises

set_option autoImplicit false

/- What an upload raises: an UploadError, as long as the manifest is well formed, its files are
named below the directory, and the transport fails with an OSError. -/
namespace DevGate.Store

open Py Canon
open Evidence (contained evidenceError Sealed manifestOf)

/-- The documented behaviour of the file operations. -/
structure Standard (disk : Disk) : Prop extends disk.Realpath where
  reads : ∀ p, Fails (fun e => e.cls = .osError) (disk.read p)
  resolves : ∀ p, Fails (fun e => e.cls ∈ [ExcClass.osError, .runtimeError, .valueError])
    (disk.resolve p)

def Surfaces (e : Exc) : Prop := e.isA [uploadError] = true

/-- The classes of the exceptions that are no UploadError. -/
def builtins : List ExcClass :=
  [.osError, .runtimeError, .valueError, .typeError, .attributeError, .jsonDecodeError,
    .unicodeDecodeError, canonError]

theorem not_surfaces {e : Exc} (other : e.cls ∈ builtins) : ¬ Surfaces e := by
  have each : ∀ c ∈ builtins, [uploadError].any c.isSubclass = false := by decide
  unfold Surfaces Exc.isA
  rw [each e.cls other]
  exact Bool.false_ne_true

theorem surfaces_own (msg : Text) : Surfaces ⟨uploadError, msg⟩ := by
  exact @Exc.isA_of_cls _ uploadError _ _ rfl (by decide)

/-- What never raises an UploadError raises nothing else either only where it answers. -/
theorem fails_iff_ok {α : Type} {x : Except Exc α} (other : Fails (fun e => e.cls ∈ builtins) x) :
    Fails Surfaces x ↔ ∃ a, x = .ok a := by
  constructor
  · intro fails
    cases x with
    | error e => exact absurd (fails e rfl) (not_surfaces (other e rfl))
    | ok a => exact ⟨a, rfl⟩
  · rintro ⟨a, rfl⟩
    exact Fails.ok

theorem get_fails (v : Value) (key : Str) : Fails (fun e => e.cls ∈ builtins) (v.get key) := by
  cases v with
  | dict kvs => exact Fails.ok
  | _ => exact Fails.error (by decide : ExcClass.attributeError ∈ builtins)

theorem iter_fails (v : Value) : Fails (fun e => e.cls ∈ builtins) v.iter := by
  cases v with
  | list vs => exact Fails.ok
  | dict kvs => exact Fails.ok
  | str s => exact Fails.ok
  | _ => exact Fails.error (by decide : ExcClass.typeError ∈ builtins)

theorem loadText_fails (bytes : Bytes) :
    Fails (fun e => e.cls ∈ builtins) (Json.loadText bytes) := by
  intro e raised
  have known := Json.loadText_fails bytes e raised
  have each : ∀ c ∈ [ExcClass.jsonDecodeError, .unicodeDecodeError, .valueError, .runtimeError],
      c ∈ builtins := by decide
  exact each e.cls known

theorem check_fails (v : Value) : Fails (fun e => e.cls = canonError) (check v) := by
  induction v using Value.ind with
  | null => exact Fails.ok
  | bool b => exact Fails.ok
  | str s => exact Fails.ok
  | float x => exact Fails.error rfl
  | int n =>
      rw [check]
      split
      · exact Fails.ok
      · exact Fails.error rfl
  | list vs ih =>
      rw [check]
      induction vs with
      | nil => exact Fails.ok
      | cons v vs later =>
          rw [List.forall_mem_cons] at ih
          rw [checkList]
          exact ih.1.bind (fun _ _ => later ih.2)
  | dict kvs ih =>
      rw [check]
      induction kvs with
      | nil => exact Fails.ok
      | cons kv rest later =>
          rw [List.forall_mem_cons] at ih
          rw [checkPairs]
          exact ih.1.bind (fun _ _ => later ih.2)

theorem digestObj_fails (tag : RoleTag) (v : Value) :
    Fails (fun e => e.cls ∈ builtins) (digestObj tag v) := by
  have known : Fails (fun e => e.cls ∈ builtins) (check v) := by
    intro e raised
    rw [check_fails v e raised]
    decide
  exact (known.bind (fun _ _ => Fails.ok)).bind (fun _ _ => Fails.ok)

/-! What `artifacts` raises. -/

/-- An entry of the manifest, and the path it names inside the bundle. -/
def Place (disk : Disk) (out : Path) (entry : Value) (fp : Path) : Prop :=
  ∃ path, entry.get "path" = .ok path ∧ contained disk out (path.getD .null) = .ok fp

/-- An entry whose path is refused. -/
def Refused (disk : Disk) (out : Path) (entry : Value) : Prop :=
  ∃ path e, entry.get "path" = .ok path ∧ contained disk out (path.getD .null) = .error e ∧
    e.cls = evidenceError

/-- Every entry names a path inside the bundle, up to one that is refused. -/
def Resolves (disk : Disk) (out : Path) : List Value → Prop
  | [] => True
  | entry :: rest =>
      Refused disk out entry ∨ ((∃ fp, Place disk out entry fp) ∧ Resolves disk out rest)

theorem contained_fails {disk : Disk} (standard : Standard disk) (out : Path) (rel : Value) :
    Fails (fun e => e.cls = evidenceError ∨ e.cls ∈ builtins) (contained disk out rel) := by
  have known : ∀ p, Fails (fun e => e.cls = evidenceError ∨ e.cls ∈ builtins) (disk.resolve p) := by
    intro p e raised
    have each : ∀ c ∈ [ExcClass.osError, .runtimeError, .valueError], c ∈ builtins := by decide
    exact .inr (each e.cls (standard.resolves p e raised))
  unfold contained
  split
  · apply (known _).bind
    intro root _
    apply (known _).bind
    intro p _
    split
    · exact Fails.ok
    · exact Fails.error (.inl rfl)
  · exact Fails.error (.inl rfl)

theorem containedOr_fails {disk : Disk} (standard : Standard disk) {out : Path} {rel : Value} :
    Fails Surfaces (containedOr disk out rel) ↔
      (∃ e, contained disk out rel = .error e ∧ e.cls = evidenceError) ∨
        ∃ fp, contained disk out rel = .ok fp := by
  have known := contained_fails standard out rel
  unfold containedOr
  cases found : contained disk out rel with
  | ok fp => exact ⟨fun _ => .inr ⟨fp, rfl⟩, fun _ => Fails.ok⟩
  | error e =>
      rcases known e found with refused | other
      · have matched : e.isA [evidenceError] = true := Exc.isA_of_cls refused (by decide)
        simp only [matched, ↓reduceIte]
        exact ⟨fun _ => .inl ⟨e, rfl, refused⟩, fun _ => Fails.error (surfaces_own _)⟩
      · have each : ∀ c ∈ builtins, [evidenceError].any c.isSubclass = false ∧ c ≠ evidenceError := by
          decide
        have missed : e.isA [evidenceError] = false := (each e.cls other).1
        simp only [missed, Bool.false_eq_true, ↓reduceIte]
        constructor
        · intro fails
          exact absurd (fails e rfl) (not_surfaces other)
        · rintro (⟨e', same, refused⟩ | ⟨fp, same⟩)
          · cases same
            exact absurd refused (each e.cls other).2
          · cases same

theorem listed_fails {disk : Disk} (standard : Standard disk) (out : Path) (entries : List Value) :
    Fails Surfaces (listed disk out entries) ↔ Resolves disk out entries := by
  induction entries with
  | nil => exact ⟨fun _ => trivial, fun _ => Fails.ok⟩
  | cons entry rest ih =>
      rw [listed, fails_bind_iff, fails_iff_ok (get_fails entry "path"), Resolves]
      constructor
      · rintro ⟨⟨path, looked⟩, next⟩
        have later := fails_bind_iff.mp (next path looked)
        rcases (containedOr_fails standard).mp later.1 with ⟨e, raised, refused⟩ | ⟨fp, inside⟩
        · exact .inl ⟨path, e, looked, raised, refused⟩
        · have more := fails_bind_iff.mp (later.2 fp (containedOr_ok.mpr inside))
          exact .inr ⟨⟨fp, path, looked, inside⟩, ih.mp more.1⟩
      · rintro (⟨path, e, looked, raised, refused⟩ | ⟨⟨fp, path, looked, inside⟩, more⟩)
        · refine ⟨⟨path, looked⟩, ?_⟩
          intro path' again
          cases looked.symm.trans again
          refine Fails.bind ((containedOr_fails standard).mpr (.inl ⟨e, raised, refused⟩)) ?_
          intro fp found
          cases (containedOr_ok.mp found).symm.trans raised
        · refine ⟨⟨path, looked⟩, ?_⟩
          intro path' again
          cases looked.symm.trans again
          refine Fails.bind ((containedOr_fails standard).mpr (.inr ⟨fp, inside⟩)) ?_
          intro fp' found
          exact (ih.mpr more).bind (fun _ _ => Fails.ok)

theorem listed_ok {disk : Disk} {out : Path} {entries : List Value} {files : List Path} :
    listed disk out entries = .ok files ↔
      ∃ places, List.Forall₂ (Place disk out) entries places ∧ files = places.filter disk.isFile := by
  induction entries generalizing files with
  | nil =>
      constructor
      · intro ran
        cases ran
        exact ⟨[], .nil, rfl⟩
      · rintro ⟨places, paired, rfl⟩
        cases paired
        rfl
  | cons entry rest ih =>
      rw [listed]
      constructor
      · intro ran
        obtain ⟨path, looked, ran⟩ := bind_ok.mp ran
        obtain ⟨fp, inside, ran⟩ := bind_ok.mp ran
        obtain ⟨later, found, ran⟩ := bind_ok.mp ran
        obtain ⟨places, paired, rfl⟩ := ih.mp found
        refine ⟨fp :: places, .cons ⟨path, looked, containedOr_ok.mp inside⟩ paired, ?_⟩
        rw [List.filter_cons]
        exact (Except.ok.inj ran).symm
      · rintro ⟨places, paired, rfl⟩
        cases paired with
        | @cons _ fp _ places first paired =>
            obtain ⟨path, looked, inside⟩ := first
            rw [looked, ok_bind, containedOr_ok.mpr inside, ok_bind, ih.mpr ⟨places, paired, rfl⟩,
              ok_bind, List.filter_cons]
            rfl

/-! What the loop of `upload` raises. -/

/-- As far as the sending gets, each file lies below the directory as it is spelled, and the
transport fails with an OSError or an UploadError; `last` holds where all was sent. -/
def Takes (disk : Disk) (transport : Transport) (out : Path) (last : Prop) :
    List (Str × Bytes) → List Path → Prop
  | _, [] => last
  | sent, fp :: rest =>
      ∃ names, fp = out.sub names ∧ ∀ payload, disk.read fp = .ok payload →
        let name := Path.str ⟨false, names⟩
        (∀ e, transport sent name payload = .error e → e.isA [uploadError, .osError] = true) ∧
          (transport sent name payload = .ok () →
            Takes disk transport out last (sent ++ [(name, payload)]) rest)

theorem surfaced_iff {fp : Path} {e : Exc} :
    Surfaces (surfaced fp e) ↔ e.isA [uploadError, .osError] = true := by
  have both : e.isA [uploadError, .osError] = (e.isA [uploadError] || e.isA [.osError]) := by
    simp only [Exc.isA, List.any_cons, List.any_nil, Bool.or_false]
  rw [both]
  unfold surfaced
  by_cases own : e.isA [uploadError] = true
  · simp [own, Surfaces]
  · by_cases os : e.isA [.osError] = true
    · simp only [own, Bool.false_eq_true, ↓reduceIte, os, Bool.or_true, iff_true]
      exact surfaces_own _
    · simp [own, os, Surfaces]

/-- What one file does. -/
theorem sendOne_cases {disk : Disk} (standard : Standard disk) (transport : Transport)
    (out fp : Path) (sent : List (Str × Bytes)) :
    (∃ e, sendOne disk transport out sent fp = .error e ∧ e.cls = .valueError ∧
        ¬ ∃ names, fp = out.sub names) ∨
      ∃ names, fp = out.sub names ∧
        ((∃ e, disk.read fp = .error e ∧ e.cls = .osError ∧
            sendOne disk transport out sent fp = .error e) ∨
          ∃ payload, disk.read fp = .ok payload ∧
            sendOne disk transport out sent fp =
              (transport sent (Path.str ⟨false, names⟩) payload).map
                (fun _ => (Path.str ⟨false, names⟩, payload))) := by
  cases below : fp.relativeTo out with
  | error e =>
      refine .inl ⟨e, ?_, ?_, ?_⟩
      · unfold sendOne
        rw [below]
        rfl
      · unfold Path.relativeTo at below
        split at below
        · cases below
        · cases below
          rfl
      · rintro ⟨names, place⟩
        cases below.symm.trans (Path.relativeTo_ok.mpr ⟨names, place, rfl⟩)
  | ok found =>
      obtain ⟨names, place, rfl⟩ := Path.relativeTo_ok.mp below
      refine .inr ⟨names, place, ?_⟩
      cases read : disk.read fp with
      | error e =>
          refine .inl ⟨e, rfl, standard.reads fp e read, ?_⟩
          unfold sendOne
          rw [below, ok_bind, read]
          rfl
      | ok payload =>
          refine .inr ⟨payload, rfl, ?_⟩
          unfold sendOne
          rw [below, ok_bind, read, ok_bind]
          cases transport sent (Path.str ⟨false, names⟩) payload <;> rfl

theorem sendAll_fails {disk : Disk} {transport : Transport} {out : Path} (standard : Standard disk)
    (last : Prop) (files : List Path) (sent : List (Str × Bytes)) :
    (Fails Surfaces (sendAll disk transport out sent files).1 ∧
        ((sendAll disk transport out sent files).1 = .ok () → last)) ↔
      Takes disk transport out last sent files := by
  induction files generalizing sent with
  | nil =>
      rw [sendAll, Takes]
      exact ⟨fun both => both.2 rfl, fun holds => ⟨Fails.ok, fun _ => holds⟩⟩
  | cons fp rest ih =>
      rw [sendAll, Takes]
      rcases sendOne_cases standard transport out fp sent with
        ⟨e, raised, value, above⟩ | ⟨names, place, ⟨e, unread, os, raised⟩ | ⟨payload, read, one⟩⟩
      · have apart : e.isA [uploadError, .osError] = false := Exc.isA_of_cls value (by decide)
        simp only [raised]
        constructor
        · rintro ⟨fails, -⟩
          rw [surfaced_iff.mp (fails _ rfl)] at apart
          cases apart
        · rintro ⟨names, place, -⟩
          exact absurd ⟨names, place⟩ above
      · have matched : e.isA [uploadError, .osError] = true := Exc.isA_of_cls os (by decide)
        simp only [raised]
        constructor
        · intro _
          refine ⟨names, place, ?_⟩
          intro payload read
          cases unread.symm.trans read
        · intro _
          exact ⟨Fails.error (surfaced_iff.mpr matched), fun sent => by cases sent⟩
      · have only : ∀ P : List Str → Prop, (∃ names', fp = out.sub names' ∧ P names') ↔ P names := by
          intro P
          constructor
          · rintro ⟨names', again, holds⟩
            rwa [Path.sub_injective (place.symm.trans again)]
          · intro holds
            exact ⟨names, place, holds⟩
        rw [only]
        cases answer : transport sent (Path.str ⟨false, names⟩) payload with
        | error e =>
            rw [answer] at one
            simp only [one, Except.map]
            constructor
            · rintro ⟨fails, -⟩ payload' again
              cases read.symm.trans again
              refine ⟨?_, ?_⟩
              · intro e' raised
                cases answer.symm.trans raised
                exact surfaced_iff.mp (fails _ rfl)
              · intro took
                cases answer.symm.trans took
            · intro each
              exact ⟨Fails.error (surfaced_iff.mpr ((each payload read).1 e answer)),
                fun sent => by cases sent⟩
        | ok =>
            rw [answer] at one
            simp only [one, Except.map]
            rw [ih]
            constructor
            · intro later payload' again
              cases read.symm.trans again
              exact ⟨fun e raised => (by cases answer.symm.trans raised), fun _ => later⟩
            · intro each
              exact (each payload read).2 answer

/-! What `upload` raises. -/

/-- Every exception of an upload is an UploadError. -/
def OnlyUploadError (disk : Disk) (runDir : Str) (transport : Transport) : Prop :=
  Fails Surfaces (upload disk runDir transport).1

/-- The manifest is a readable document that lists what can be placed, and what it lists is
taken; where all is sent the manifest is canonical. -/
def Handled (disk : Disk) (runDir : Str) (transport : Transport) : Prop :=
  let out := Path.ofStr runDir
  disk.isFile (out.join "evidence-manifest.json") = true →
    ∃ bytes manifest found entries,
      disk.read (out.join "evidence-manifest.json") = .ok bytes ∧
      Json.loadText bytes = .ok manifest ∧ manifest.get "objects" = .ok found ∧
      (found.getD (.list [])).iter = .ok entries ∧ Resolves disk out entries ∧
      ∀ places, List.Forall₂ (Place disk out) entries places →
        Takes disk transport out (check manifest = .ok ()) []
          (fixedFiles disk out ++ places.filter disk.isFile)

theorem digestObj_ok {tag : RoleTag} {v : Value} :
    (∃ digest, digestObj tag v = .ok digest) ↔ check v = .ok () := by
  unfold digestObj canon
  cases check v <;> simp

section

variable {disk : Disk} {runDir : Str} {transport : Transport}

theorem artifacts_fails (standard : Standard disk)
    (file : disk.isFile ((Path.ofStr runDir).join "evidence-manifest.json") = true) :
    Fails Surfaces (artifacts disk runDir) ↔
      ∃ bytes manifest found entries,
        disk.read ((Path.ofStr runDir).join "evidence-manifest.json") = .ok bytes ∧
        Json.loadText bytes = .ok manifest ∧ manifest.get "objects" = .ok found ∧
        (found.getD (.list [])).iter = .ok entries ∧ Resolves disk (Path.ofStr runDir) entries := by
  have reads : ∀ p, Fails (fun e => e.cls ∈ builtins) (disk.read p) := by
    intro p e raised
    rw [standard.reads p e raised]
    decide
  unfold artifacts
  simp only [file, ↓reduceIte]
  constructor
  · intro fails
    obtain ⟨first, fails⟩ := fails_bind_iff.mp fails
    obtain ⟨bytes, read⟩ := (fails_iff_ok (reads _)).mp first
    obtain ⟨first, fails⟩ := fails_bind_iff.mp (fails bytes read)
    obtain ⟨manifest, loaded⟩ := (fails_iff_ok (loadText_fails _)).mp first
    obtain ⟨first, fails⟩ := fails_bind_iff.mp (fails manifest loaded)
    obtain ⟨found, looked⟩ := (fails_iff_ok (get_fails _ _)).mp first
    obtain ⟨first, fails⟩ := fails_bind_iff.mp (fails found looked)
    obtain ⟨entries, gathered⟩ := (fails_iff_ok (iter_fails _)).mp first
    have last := (fails_bind_iff.mp (fails entries gathered)).1
    exact ⟨bytes, manifest, found, entries, read, loaded, looked, gathered,
      (listed_fails standard _ _).mp last⟩
  · intro ⟨bytes, manifest, found, entries, read, loaded, looked, gathered, resolves⟩
    simp only [read, ok_bind, loaded, looked, gathered]
    exact ((listed_fails standard _ _).mpr resolves).bind (fun _ _ => Fails.ok)

theorem artifacts_ok {bytes : Bytes} {manifest : Value} {found : Option Value}
    {entries : List Value} {files : List Path}
    (file : disk.isFile ((Path.ofStr runDir).join "evidence-manifest.json") = true)
    (read : disk.read ((Path.ofStr runDir).join "evidence-manifest.json") = .ok bytes)
    (loaded : Json.loadText bytes = .ok manifest) (looked : manifest.get "objects" = .ok found)
    (gathered : (found.getD (.list [])).iter = .ok entries) :
    artifacts disk runDir = .ok files ↔
      ∃ places, List.Forall₂ (Place disk (Path.ofStr runDir)) entries places ∧
        files = fixedFiles disk (Path.ofStr runDir) ++ places.filter disk.isFile := by
  unfold artifacts
  simp only [file, ↓reduceIte, read, ok_bind, loaded, looked, gathered, bind_ok, listed_ok, pure_ok,
    Except.ok.injEq]
  constructor
  · rintro ⟨_, ⟨places, paired, rfl⟩, rfl⟩
    exact ⟨places, paired, rfl⟩
  · rintro ⟨places, paired, rfl⟩
    exact ⟨_, ⟨places, paired, rfl⟩, rfl⟩

theorem upload_fails {bytes : Bytes} {manifest : Value} {files : List Path}
    (standard : Standard disk)
    (file : disk.isFile ((Path.ofStr runDir).join "evidence-manifest.json") = true)
    (read : disk.read ((Path.ofStr runDir).join "evidence-manifest.json") = .ok bytes)
    (loaded : Json.loadText bytes = .ok manifest) (gathered : artifacts disk runDir = .ok files) :
    OnlyUploadError disk runDir transport ↔
      Takes disk transport (Path.ofStr runDir) (check manifest = .ok ()) [] files := by
  have digest : manifestDigest disk runDir = digestObj .evidenceManifest manifest := by
    unfold manifestDigest
    rw [read, ok_bind, loaded, ok_bind]
  rw [← sendAll_fails standard, ← digestObj_ok, ← fails_iff_ok (digestObj_fails _ _)]
  unfold OnlyUploadError upload
  simp only [file, ↓reduceIte, gathered, digest]
  cases all : sendAll disk transport (Path.ofStr runDir) [] files with
  | mk answer sent =>
      cases answer with
      | error e =>
          exact ⟨fun fails => ⟨Fails.error (fails e rfl), fun sent => by cases sent⟩,
            fun both => Fails.error (both.1 e rfl)⟩
      | ok =>
          simp only [forall_const]
          rw [fails_bind_iff]
          exact ⟨fun both => ⟨Fails.ok, both.1⟩, fun both => ⟨both.2, fun _ _ => Fails.ok⟩⟩

theorem only_iff (standard : Standard disk) :
    OnlyUploadError disk runDir transport ↔ Handled disk runDir transport := by
  by_cases file : disk.isFile ((Path.ofStr runDir).join "evidence-manifest.json") = true
  · constructor
    · intro only _
      have gathers : Fails Surfaces (artifacts disk runDir) := by
        intro e raised
        apply only
        unfold upload
        simp only [file, ↓reduceIte, raised]
      obtain ⟨bytes, manifest, found, entries, read, loaded, looked, gathered, resolves⟩ :=
        (artifacts_fails standard file).mp gathers
      refine ⟨bytes, manifest, found, entries, read, loaded, looked, gathered, resolves, ?_⟩
      intro places paired
      have files := (artifacts_ok file read loaded looked gathered).mpr ⟨places, paired, rfl⟩
      exact (upload_fails standard file read loaded files).mp only
    · intro handled
      obtain ⟨bytes, manifest, found, entries, read, loaded, looked, gathered, resolves, takes⟩ :=
        handled file
      cases answer : artifacts disk runDir with
      | error e =>
          have gathers := (artifacts_fails standard file).mpr
            ⟨bytes, manifest, found, entries, read, loaded, looked, gathered, resolves⟩
          unfold OnlyUploadError upload
          simp only [file, ↓reduceIte, answer]
          exact Fails.error (gathers e answer)
      | ok files =>
          obtain ⟨places, paired, rfl⟩ :=
            (artifacts_ok file read loaded looked gathered).mp answer
          exact (upload_fails standard file read loaded answer).mpr (takes places paired)
  · constructor
    · intro _ stands
      exact absurd stands file
    · intro _
      unfold OnlyUploadError upload
      simp only [file, Bool.false_eq_true, ↓reduceIte]
      exact Fails.error (surfaces_own _)

end

/-- A file system without links, in which the working directory is `/w` and every directory holds
a bundle of these objects. -/
def pilotDisk (objects : List Sealed) : Disk where
  resolve p := .ok ⟨true, ((if p.absolute then [] else [("w" : Str)]) ++ p.parts).filter (fun part =>
    part ≠ [] ∧ part ≠ "." ∧ part ≠ ".." ∧ Chr.ofChar '/' ∉ part)⟩
  exists_ _ := true
  isFile p := p.name ≠ "result.json" ∧ p.name ≠ "attestation.json"
  isDir _ := true
  read p :=
    if p.name = "evidence-manifest.json" then .ok (Utf8.ascii (Json.dumps (manifestOf objects)))
    else .ok []

theorem pilot_standard (objects : List Sealed) : Standard (pilotDisk objects) := by
  constructor
  · constructor
    · intro p q resolved
      rw [← Except.ok.inj resolved]
      refine ⟨rfl, ?_⟩
      intro part inside
      simpa using (List.mem_filter.mp inside).2
    · intro p q resolved
      rw [← Except.ok.inj resolved]
      show Except.ok (⟨true, List.filter _ ([] ++ List.filter _ _)⟩ : Py.Path) = _
      rw [List.nil_append, List.filter_filter]
      simp
  · intro p e raised
    unfold pilotDisk at raised
    simp only at raised
    split at raised <;> cases raised
  · intro p e raised
    cases raised

/-- A path of names below an absolute one of names is its own real path. -/
theorem pilot_resolve (objects : List Sealed) {names : List Str} (below : Below names) :
    (pilotDisk objects).resolve (Path.sub ⟨true, ["w", "run"]⟩ names) =
      .ok (Path.sub ⟨true, ["w", "run"]⟩ names) := by
  have kept : ([("w" : Str), "run"] ++ names).filter (fun part =>
      decide (part ≠ [] ∧ part ≠ "." ∧ part ≠ ".." ∧ Chr.ofChar '/' ∉ part)) =
        [("w" : Str), "run"] ++ names := by
    have each : ∀ part ∈ [("w" : Str), "run"],
        part ≠ [] ∧ part ≠ "." ∧ part ≠ ".." ∧ Chr.ofChar '/' ∉ part := by decide
    rw [List.filter_eq_self]
    intro part inside
    rw [decide_eq_true_eq]
    rcases List.mem_append.mp inside with top | named
    · exact each part top
    · exact below.plain part named
  show Except.ok (⟨true, List.filter _ ([] ++ ([("w" : Str), "run"] ++ names))⟩ : Py.Path) = _
  rw [List.nil_append, kept]
  rfl

/-- A transport that takes everything. -/
def takesAll : Transport := fun _ _ _ => .ok ()

def oneObject : Sealed := ⟨"a", [], "standard"⟩

theorem one_plain : oneObject.Plain := ⟨by decide, Json.printable_of_all (by decide)⟩

theorem one_bundle : Bundle (pilotDisk [oneObject]) (Path.ofStr "run") [oneObject]
    (Utf8.ascii (Json.dumps (manifestOf [oneObject]))) := by
  have plain : ∀ o ∈ [oneObject], o.Plain := by
    intro o inside
    rw [List.mem_singleton.mp inside]
    exact one_plain
  have named : (Path.ofStr "run").join oneObject.rel = (Path.ofStr "run").sub oneObject.names :=
    Sealed.join_rel one_plain.named _
  have top : (pilotDisk [oneObject]).resolve (Path.ofStr "run") = .ok ⟨true, ["w", "run"]⟩ := rfl
  have inside : contained (pilotDisk [oneObject]) (Path.ofStr "run") (.str oneObject.rel) =
      .ok (Path.sub ⟨true, ["w", "run"]⟩ oneObject.names) := by
    have below : (pilotDisk [oneObject]).resolve ((Path.ofStr "run").join oneObject.rel) =
        .ok (Path.sub ⟨true, ["w", "run"]⟩ oneObject.names) := by
      rw [named]
      exact pilot_resolve [oneObject] (below_names one_plain)
    have some_ : oneObject.names ≠ [] := (below_names one_plain).some_
    have within := Path.isParent_sub ⟨true, ["w", "run"]⟩ some_
    show (do
      let root ← (pilotDisk [oneObject]).resolve (Path.ofStr "run")
      let p ← (pilotDisk [oneObject]).resolve ((Path.ofStr "run").join oneObject.rel)
      if root.isParent p then Except.ok p else _) = _
    rw [top, below, ok_bind, ok_bind, if_pos within]
  refine ⟨plain, Evidence.canon_manifestOf _, ⟨rfl, rfl, ?_⟩, rfl, ?_⟩
  · intro o member
    rw [List.mem_singleton.mp member]
    exact ⟨_, inside, rfl, rfl⟩
  · intro fp _
    unfold pilotDisk
    simp only
    split
    · exact ⟨_, rfl⟩
    · exact ⟨_, rfl⟩

end DevGate.Store
