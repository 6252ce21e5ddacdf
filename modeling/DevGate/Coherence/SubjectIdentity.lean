import DevGate.Coherence.ManifestIdentity

set_option autoImplicit false

/- A subject digest identifies a tree as far as its names hold no backslash: a name that holds one
is recorded under the path of a nested file. -/
namespace DevGate.Manifest

open Py Canon

/-- Equal entries record equal paths of equal content. -/
theorem entry_inj {h h' : Held} {path path' : Str} (clean : Json.Clean (h.entry path))
    (same : Json.canonical (h.entry path) = Json.canonical (h'.entry path')) :
    path = path' ∧ h.kind = h'.kind ∧ h.outcome = h'.outcome ∧
      h.bytes.map contentDigest = h'.bytes.map contentDigest := by
  have field : ∀ (key : Str) {v v' : Value}, (h.entry path).get key = .ok (some v) →
      (h'.entry path').get key = .ok (some v') → Json.canonical v = Json.canonical v' := by
    intro key v v' looked looked'
    obtain ⟨w, found, -, agree, -⟩ := clean.get_some key v' entry_distinct same
      (Except.ok.inj looked')
    rw [Option.some.inj (Except.ok.inj (looked.symm.trans found))]
    exact agree
  have paths : Json.canonical (.str path) = Json.canonical (.str path') := field "path" rfl rfl
  have kinds : Json.canonical (.str h.kind) = Json.canonical (.str h'.kind) := field "kind" rfl rfl
  have outcomes : Json.canonical (h.outcome.elim .null .str) =
      Json.canonical (h'.outcome.elim .null .str) := field "policy_outcome" rfl rfl
  have digests : Json.canonical (h.bytes.elim .null (fun b => .str (contentDigest b))) =
      Json.canonical (h'.bytes.elim .null (fun b => .str (contentDigest b))) :=
    field "digest" rfl rfl
  refine ⟨Value.str.inj paths, Value.str.inj kinds, ?_, ?_⟩
  · cases own : h.outcome <;> cases own' : h'.outcome <;> rw [own, own'] at outcomes
    · cases outcomes
    · cases outcomes
    · rw [Value.str.inj outcomes]
  · cases own : h.bytes <;> cases own' : h'.bytes <;> rw [own, own'] at digests
    · cases digests
    · cases digests
    · exact congrArg some (Value.str.inj digests)

section

variable {fold : Folding} {kind : Value} {excludes : List Str} {b c : Built fold kind excludes}

/-- Some file of the tree has these bytes. -/
def Built.Holds (b : Built fold kind excludes) (bytes : Bytes) : Prop :=
  ∃ found ∈ b.founds, ∃ h, held b.tree b.place found = .ok h ∧ h.bytes = some bytes

/-- SHA-256 does not collide on the two manifests, on two files or on their hashes. -/
structure Apart (b c : Built fold kind excludes) : Prop where
  manifests : Separates (preimage .subjectManifest b.payload) (preimage .subjectManifest c.payload)
  files : ∀ x y, b.Holds x → c.Holds y → Separates x y ∧
    Separates (preimage .file (Sha256.digest x)) (preimage .file (Sha256.digest y))

theorem contents_eq {x y : Bytes} (apart : Separates x y)
    (tagged : Separates (preimage .file (Sha256.digest x)) (preimage .file (Sha256.digest y)))
    (same : contentDigest x = contentDigest y) : x = y := by
  have hashes := digest_injective tagged same
  apply apart
  unfold sha256
  rw [hashes]

/-- Two names with one entry: the same recorded path, and the same content. -/
structure Paired (b c : Built fold kind excludes) (found other : Found) : Prop where
  first : found ∈ b.founds
  second : other ∈ c.founds
  path : rel fold found.names = rel fold other.names
  content : ∃ h, held b.tree b.place found = .ok h ∧ held c.tree c.place other = .ok h

theorem paired_of_records {found other : Found} {e e' : Value} (apart : Apart b c)
    (lawful : fold.Lawful) (first : found ∈ b.founds) (second : other ∈ c.founds)
    (records : Records b.tree fold b.place found e)
    (records' : Records c.tree fold c.place other e')
    (same : Json.canonical e = Json.canonical e') : Paired b c found other := by
  have clean := b.clean_records lawful first records
  obtain ⟨h, holds, rfl⟩ := records
  obtain ⟨h', holds', rfl⟩ := records'
  obtain ⟨path, kinds, outcomes, digests⟩ := entry_inj clean same
  refine ⟨first, second, path, h, holds, ?_⟩
  have bytes : h.bytes = h'.bytes := by
    cases own : h.bytes with
    | none =>
        rw [own, Option.map_none, eq_comm, Option.map_eq_none_iff] at digests
        exact digests.symm
    | some x =>
        cases own' : h'.bytes with
        | none =>
            rw [own, own'] at digests
            cases digests
        | some y =>
            rw [own, own'] at digests
            have separate := apart.files x y ⟨found, first, h, holds, own⟩ ⟨other, second, h', holds', own'⟩
            rw [contents_eq separate.1 separate.2 (Option.some.inj digests)]
  cases h
  cases h'
  cases kinds
  cases outcomes
  cases bytes
  exact holds'

theorem paired_all {founds others : List Found} {es es' : List Value} (apart : Apart b c)
    (lawful : fold.Lawful) (first : ∀ found ∈ founds, found ∈ b.founds)
    (second : ∀ other ∈ others, other ∈ c.founds)
    (records : List.Forall₂ (Records b.tree fold b.place) founds es)
    (records' : List.Forall₂ (Records c.tree fold c.place) others es')
    (same : es.map Json.canonical = es'.map Json.canonical) :
    List.Forall₂ (Paired b c) founds others := by
  induction records generalizing others es' with
  | nil =>
      cases records' with
      | nil => exact .nil
      | cons _ _ => cases same
  | @cons found e founds es here _ ih =>
      cases records' with
      | nil => cases same
      | @cons other e' others es' here' later =>
          rw [List.map_cons, List.map_cons, List.cons.injEq] at same
          rw [List.forall_mem_cons] at first second
          exact .cons (paired_of_records apart lawful first.1 second.1 here here' same.1)
            (ih first.2 second.2 later same.2)

/-- Two trees of one digest record the same paths of the same content, one after another. -/
theorem paired_founds (apart : Apart b c) (lawful : fold.Lawful) (clean : Json.Clean kind)
    (same : b.digest = c.digest) : List.Forall₂ (Paired b c) b.founds c.founds := by
  obtain ⟨recorded, encoded, digest⟩ := b.built_ok
  obtain ⟨recorded', encoded', digest'⟩ := c.built_ok
  rw [digest, digest', Option.some.injEq, Value.str.injEq] at same
  have bytes := digest_injective apart.manifests same
  have manifests := (canon_injective encoded encoded' (b.clean_manifest lawful clean)
    (c.clean_manifest lawful clean)).mp bytes
  have distinct : ((manifestOf kind c.entries).map Prod.fst).Nodup := by
    simp only [manifestOf, List.map_cons, List.map_nil]
    decide
  obtain ⟨w, found, -, agree, -⟩ := (b.clean_manifest lawful clean).get_some "entries"
    (.list c.entries) distinct manifests rfl
  have own : (.list b.entries : Value) = w := Option.some.inj (Except.ok.inj found)
  rw [← own, Json.canonical, Json.canonical, Json.canonicalList_eq_map, Json.canonicalList_eq_map,
    Value.list.injEq] at agree
  exact paired_all apart lawful (fun _ inside => inside) (fun _ inside => inside)
    (recordAll_ok recorded).1 (recordAll_ok recorded').1 agree

/-- The names of two paths hold as many backslashes each. -/
def SameMarks (found other : Found) : Prop :=
  found.names.map (List.count (Chr.ofChar '\\')) = other.names.map (List.count (Chr.ofChar '\\'))

theorem marks_eq (lawful : fold.Lawful) (names : List Str) :
    (names.map fold.nfc).map (List.count (Chr.ofChar '\\')) =
      names.map (List.count (Chr.ofChar '\\')) := by
  rw [List.map_map]
  apply List.map_congr_left
  intro name _
  exact lawful.count_nfc (.inr rfl) name

/-- Two names with one entry have the same segments where their backslashes agree. -/
theorem segments_iff (lawful : fold.Lawful) {found other : Found} (paired : Paired b c found other) :
    found.names.map fold.nfc = other.names.map fold.nfc ↔ SameMarks found other := by
  unfold SameMarks
  constructor
  · intro same
    rw [← marks_eq lawful, same, marks_eq lawful]
  · intro marks
    apply Str.flatMap_split_injective (Chr.ofChar '\\')
    · rw [marks_eq lawful, marks_eq lawful, marks]
    · rw [← b.split_path lawful paired.first, ← c.split_path lawful paired.second, paired.path]

theorem forall₂_and {α β : Type} {R S : α → β → Prop} {xs : List α} {ys : List β}
    (first : List.Forall₂ R xs ys) (second : List.Forall₂ S xs ys) :
    List.Forall₂ (fun x y => R x y ∧ S x y) xs ys := by
  induction first with
  | nil => exact .nil
  | cons here _ ih =>
      cases second with
      | cons here' later => exact .cons ⟨here, here'⟩ (ih later)

/-- The same files, links, submodules and excluded folders: the same paths segment by segment, each
of the same kind, bytes and policy outcome. -/
def SameTree (b c : Built fold kind excludes) : Prop := ∀ segments h, b.Has segments h ↔ c.Has segments h

/-- Two trees of one subject digest are the same tree exactly where the backslashes in their names
agree. -/
theorem sameTree_iff (lawful : fold.Lawful) (clean : Json.Clean kind) (apart : Apart b c)
    (same : b.digest = c.digest) :
    SameTree b c ↔ List.Forall₂ SameMarks b.founds c.founds := by
  have paired := paired_founds apart lawful clean same
  constructor
  · intro tree
    refine paired.imp ?_
    intro found other pair
    obtain ⟨h, holds, -⟩ := pair.content
    obtain ⟨other', inside, segments, -⟩ := (tree _ h).mp ⟨found, pair.first, rfl, holds⟩
    have path : rel fold other'.names = rel fold other.names := by
      apply Str.split_injective (Chr.ofChar '/')
      rw [c.split_path lawful inside, segments, ← b.split_path lawful pair.first, pair.path]
    rw [c.found_eq inside pair.second path] at segments
    exact (segments_iff lawful pair).mp segments.symm
  · intro marks
    have segments : List.Forall₂ (fun found other => Paired b c found other ∧
        found.names.map fold.nfc = other.names.map fold.nfc) b.founds c.founds := by
      refine (forall₂_and paired marks).imp ?_
      intro found other both
      exact ⟨both.1, (segments_iff lawful both.1).mpr both.2⟩
    intro names h
    constructor
    · rintro ⟨found, inside, rfl, holds⟩
      obtain ⟨other, member, pair, path⟩ := (paired_members segments).1 found inside
      obtain ⟨h', own, own'⟩ := pair.content
      rw [holds, Except.ok.injEq] at own
      exact ⟨other, member, path.symm, own ▸ own'⟩
    · rintro ⟨other, inside, rfl, holds⟩
      obtain ⟨found, member, pair, path⟩ := (paired_members segments).2 other inside
      obtain ⟨h', own, own'⟩ := pair.content
      rw [holds, Except.ok.injEq] at own'
      exact ⟨found, member, path, own' ▸ own⟩

/-- A tree without a backslash in its names. -/
def Built.Plain (b : Built fold kind excludes) : Prop :=
  ∀ found ∈ b.founds, ∀ name ∈ found.names, Chr.ofChar '\\' ∉ name

/-- Trees without backslashes are told apart. -/
theorem sameTree_of_plain (lawful : fold.Lawful) (clean : Json.Clean kind) (apart : Apart b c)
    (same : b.digest = c.digest) (plain : b.Plain) (plain' : c.Plain) : SameTree b c := by
  have whole : ∀ names : List Str, (∀ name ∈ names, Chr.ofChar '\\' ∉ name) →
      (names.map fold.nfc).flatMap (Str.split (Chr.ofChar '\\')) = names.map fold.nfc := by
    intro names free
    induction names with
    | nil => rfl
    | cons name rest ih =>
        rw [List.forall_mem_cons] at free
        rw [List.map_cons, List.flatMap_cons, ih free.2,
          Str.split_of_not_mem _ _ (lawful.absent _ _ (.inr rfl) free.1)]
        rfl
  refine (sameTree_iff lawful clean apart same).mpr ?_
  refine (paired_founds apart lawful clean same).imp ?_
  intro found other pair
  apply (segments_iff lawful pair).mp
  rw [← whole _ (plain found pair.first), ← whole _ (plain' other pair.second),
    ← b.split_path lawful pair.first, ← c.split_path lawful pair.second, pair.path]

end

/-! Two trees. -/

/-- On ASCII texts, normalisation and case folding of lower-case names change nothing. -/
def ascii : Folding := ⟨id, id⟩

theorem ascii_lawful : ascii.Lawful :=
  ⟨fun _ _ _ _ => rfl, fun _ _ _ absent => absent, fun _ legible => legible⟩

/-- A file system whose files are empty, walked as this. -/
def pilotTree (shape : Shape) : Tree where
  resolve p := .ok p
  exists_ _ := true
  isFile _ := false
  isDir _ := true
  read _ := .ok []
  isSymlink _ := false
  lossy _ := .error ⟨.osError, []⟩
  walked _ := shape

/-- The entry of an empty file. -/
def emptyFile (path : Str) : Value := Held.entry ⟨"file", some [], none⟩ path

/-- The manifest of one empty file. -/
def oneFile (path : Str) : Value :=
  .dict (manifestOf (.str "source-tree") [emptyFile path] ++ [(("subject_digest" : Str), Value.str
    (Canon.digest .subjectManifest
      (Utf8.ascii (Json.dumps (.dict (manifestOf (.str "source-tree") [emptyFile path]))))))])

theorem build_oneFile {tree : Tree} {path : Str} {place : Path}
    (resolved : tree.resolve (Path.ofStr "/r") = .ok place) (dir : tree.isDir place = true)
    (recorded : recordAll tree ascii place [] (walk tree place [] [] (tree.walked place)) =
      .ok [emptyFile path]) :
    build tree ascii "/r" (.str "source-tree") [] = .ok (oneFile path) := by
  have encoded : canon (.dict (manifestOf (.str "source-tree") [emptyFile path])) =
      .ok (Utf8.ascii (Json.dumps (.dict (manifestOf (.str "source-tree") [emptyFile path])))) :=
    canon_ok.mpr ⟨rfl, rfl⟩
  unfold build
  simp only [resolved, ok_bind, dir, ↓reduceIte, recorded, digestObj, encoded]
  rfl

/-- A file with a backslash in its name. -/
def backslashTree : Built ascii (.str "source-tree") [] where
  tree := pilotTree (.dir [("a\\b", .other)])
  root := "/r"
  place := ⟨true, ["r"]⟩
  resolved := rfl
  named := by
    intro found inside name member
    rw [List.mem_singleton.mp (show found ∈ [(⟨["a\\b"], .file⟩ : Found)] from inside)] at member
    rw [List.mem_singleton.mp member]
    exact ⟨by decide, legible_of_all (by decide)⟩
  manifest := oneFile "a/b"
  built := build_oneFile rfl rfl rfl

/-- A file in a directory. -/
def nestedTree : Built ascii (.str "source-tree") [] where
  tree := pilotTree (.dir [("a", .dir [("b", .other)])])
  root := "/r"
  place := ⟨true, ["r"]⟩
  resolved := rfl
  named := by
    intro found inside name member
    rw [List.mem_singleton.mp (show found ∈ [(⟨["a", "b"], .file⟩ : Found)] from inside)] at member
    rcases List.mem_cons.mp member with first | later
    · rw [first]
      exact ⟨by decide, legible_of_all (by decide)⟩
    · rw [List.mem_singleton.mp later]
      exact ⟨by decide, legible_of_all (by decide)⟩
  manifest := oneFile "a/b"
  built := build_oneFile rfl rfl rfl

/-- One digest, and another tree. -/
theorem backslash_not_sameTree :
    backslashTree.digest = nestedTree.digest ∧ ¬ SameTree backslashTree nestedTree := by
  refine ⟨rfl, ?_⟩
  intro same
  have has : backslashTree.Has ["a\\b"] ⟨"file", some [], none⟩ :=
    ⟨⟨["a\\b"], .file⟩, List.mem_cons_self, rfl, rfl⟩
  obtain ⟨found, inside, segments, -⟩ := (same _ _).mp has
  rw [List.mem_singleton.mp (show found ∈ [(⟨["a", "b"], .file⟩ : Found)] from inside)] at segments
  exact absurd segments (by decide)

theorem nested_sameTree : SameTree nestedTree nestedTree := by
  have apart : Apart nestedTree nestedTree := by
    have empty : ∀ x, nestedTree.Holds x → x = [] := by
      rintro x ⟨found, inside, h, holds, bytes⟩
      rw [List.mem_singleton.mp (show found ∈ [(⟨["a", "b"], .file⟩ : Found)] from inside)] at holds
      cases holds
      exact (Option.some.inj bytes).symm
    refine ⟨fun _ => rfl, ?_⟩
    intro x y first second
    rw [empty x first, empty y second]
    exact ⟨fun _ => rfl, fun _ => rfl⟩
  exact (sameTree_iff ascii_lawful (.str (legible_of_all (by decide) : Legible "source-tree").tidy)
    apart rfl).mpr (.cons rfl .nil)

end DevGate.Manifest
