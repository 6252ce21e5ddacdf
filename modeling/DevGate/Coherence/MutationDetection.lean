import DevGate.Coherence.SubjectIdentity
import DevGate.Lib.Fold

set_option autoImplicit false

/- first_mutation and the subject digest: the one compares the recorded entries as sets, the
other hashes them in walk order. -/
namespace DevGate.Manifest

open Py Canon

/-- What is compared of the entry of a name. -/
def driftKey (path : Str) (h : Held) : List Key :=
  [.str path, .str h.kind, h.bytes.elim .null (fun b => .str (contentDigest b)),
    h.outcome.elim .null .str]

theorem drift_entry (path : Str) (h : Held) : drift (h.entry path) = .ok (driftKey path h) := by
  obtain ⟨kind, bytes, outcome⟩ := h
  cases bytes <;> cases outcome <;> rfl

theorem driftKey_inj {path path' : Str} {h h' : Held} (same : driftKey path h = driftKey path' h') :
    path = path' ∧ h.kind = h'.kind ∧ h.outcome = h'.outcome ∧
      h.bytes.map contentDigest = h'.bytes.map contentDigest := by
  unfold driftKey at same
  simp only [List.cons.injEq, Key.str.injEq, and_true] at same
  obtain ⟨paths, kinds, digests, outcomes⟩ := same
  refine ⟨paths, kinds, ?_, ?_⟩
  · cases own : h.outcome <;> cases own' : h'.outcome <;> rw [own, own'] at outcomes
    · cases outcomes
    · cases outcomes
    · rw [Key.str.inj outcomes]
  · cases own : h.bytes <;> cases own' : h'.bytes <;> rw [own, own'] at digests
    · cases digests
    · cases digests
    · exact congrArg some (Key.str.inj digests)

theorem firstOutside_none {known : List (List Key)} (entries : List Value) :
    firstOutside known entries = .ok none ↔ ∀ e ∈ entries, ∃ key ∈ known, drift e = .ok key := by
  induction entries with
  | nil => simp [firstOutside]
  | cons e rest ih =>
      rw [firstOutside, List.forall_mem_cons, ← ih]
      cases compared : drift e with
      | error e' => simp
      | ok key =>
          rw [ok_bind]
          by_cases member : key ∈ known
          · rw [if_pos member]
            simp [member]
          · rw [if_neg member]
            constructor
            · intro ran
              obtain ⟨path, -, same⟩ := bind_ok.mp ran
              cases same
            · rintro ⟨⟨key', inside, same⟩, -⟩
              cases same
              exact absurd inside member

section

variable {fold : Folding} {kind : Value} {excludes : List Str} {b c : Built fold kind excludes}

namespace Built

/-- The tree records this content under this path. -/
def Shows (b : Built fold kind excludes) (path : Str) (h : Held) : Prop :=
  ∃ found ∈ b.founds, rel fold found.names = path ∧ held b.tree b.place found = .ok h

/-- The recorded paths, in walk order. -/
def paths (b : Built fold kind excludes) : List Str := b.founds.map (fun found => rel fold found.names)

theorem mem_entries (b : Built fold kind excludes) {e : Value} :
    e ∈ b.entries ↔ ∃ path h, b.Shows path h ∧ e = h.entry path := by
  obtain ⟨forth, back⟩ := paired_members (recordAll_ok b.built_ok.1).1
  constructor
  · intro inside
    obtain ⟨found, member, h, holds, rfl⟩ := back e inside
    exact ⟨_, h, ⟨found, member, rfl, holds⟩, rfl⟩
  · rintro ⟨path, h, ⟨found, member, rfl, holds⟩, rfl⟩
    obtain ⟨e, inside, h', holds', rfl⟩ := forth found member
    rw [holds] at holds'
    cases holds'
    exact inside

/-- What is compared of the entries, in their order. -/
theorem drifts (b : Built fold kind excludes) :
    ∃ keys, b.entries.mapM drift = .ok keys ∧
      ∀ key, key ∈ keys ↔ ∃ path h, b.Shows path h ∧ key = driftKey path h := by
  have compared : ∀ e ∈ b.entries, ∃ key, drift e = .ok key := by
    intro e inside
    obtain ⟨path, h, -, rfl⟩ := b.mem_entries.mp inside
    exact ⟨_, drift_entry path h⟩
  obtain ⟨keys, ran⟩ := Fold.mapM_ends.mpr compared
  obtain ⟨forth, back⟩ := mapM_members ran
  refine ⟨keys, ran, fun key => ⟨?_, ?_⟩⟩
  · intro inside
    obtain ⟨e, member, same⟩ := back key inside
    obtain ⟨path, h, shows_, rfl⟩ := b.mem_entries.mp member
    rw [drift_entry] at same
    exact ⟨path, h, shows_, (Except.ok.inj same).symm⟩
  · rintro ⟨path, h, shows_, rfl⟩
    obtain ⟨key, member, same⟩ := forth _ (b.mem_entries.mpr ⟨path, h, shows_, rfl⟩)
    rw [drift_entry] at same
    rw [Except.ok.inj same]
    exact member

theorem manifest_eq (b : Built fold kind excludes) : ∃ digest : Str, b.manifest =
    .dict (manifestOf kind b.entries ++ [(("subject_digest" : Str), Value.str digest)]) := by
  have built := b.built
  unfold build at built
  rw [b.resolved, ok_bind] at built
  split at built
  · obtain ⟨entries, recorded, built⟩ := bind_ok.mp built
    obtain ⟨digest, digested, built⟩ := bind_ok.mp built
    refine ⟨digest, ?_⟩
    unfold Built.entries
    rw [← Except.ok.inj built]
    rfl
  · cases built

end Built

/-- The same content under the same paths, in whatever order. -/
def SameRecords (b c : Built fold kind excludes) : Prop := ∀ path h, b.Shows path h ↔ c.Shows path h

/-- A path and content are told from what is compared of them. -/
theorem shows_of_driftKey (apart : Apart b c) {path path' : Str} {h h' : Held}
    (first : b.Shows path h) (second : c.Shows path' h') (same : driftKey path h = driftKey path' h') :
    path = path' ∧ h = h' := by
  obtain ⟨paths, kinds, outcomes, digests⟩ := driftKey_inj same
  refine ⟨paths, ?_⟩
  have bytes : h.bytes = h'.bytes := by
    obtain ⟨found, member, -, holds⟩ := first
    obtain ⟨other, member', -, holds'⟩ := second
    cases own : h.bytes with
    | none =>
        rw [own, Option.map_none, eq_comm, Option.map_eq_none_iff] at digests
        exact digests.symm
    | some x =>
        cases own' : h'.bytes with
        | none =>
            rw [own, own'] at digests
            cases digests
        | some y =>
            rw [own, own'] at digests
            have separate := apart.files x y ⟨found, member, h, holds, own⟩ ⟨other, member', h', holds', own'⟩
            rw [contents_eq separate.1 separate.2 (Option.some.inj digests)]
  cases h
  cases h'
  cases kinds
  cases outcomes
  cases bytes
  rfl

theorem manifestOf_entries (kind : Value) (entries : List Value) :
    ∃ own, Json.decoded (.dict (manifestOf kind entries)) = .dict own ∧
      Dict.get? own "entries" = some (.list (entries.map Json.decoded)) := by
  have tidy : ∀ s : String, (Str.ofString s).all (fun c => !c.isHigh) = true → Json.Tidy s :=
    fun _ all => (legible_of_all all).tidy
  have distinct : ((manifestOf kind entries).map Prod.fst).Nodup := by
    simp only [manifestOf, List.map_cons, List.map_nil]
    decide
  have keys : ∀ kv ∈ manifestOf kind entries, Json.Tidy kv.1 := by
    simp only [manifestOf, List.forall_mem_cons]
    exact ⟨tidy _ (by decide), tidy _ (by decide), tidy _ (by decide), by simp⟩
  obtain ⟨own, decodes, found⟩ := Json.get?_decoded distinct keys "entries"
  refine ⟨own, decodes, ?_⟩
  rw [found, ← Json.decodedList_eq_map]
  rfl

/-- Two trees of one digest have the same entries, one after another. -/
theorem entries_agree (apart : Apart b c) (lawful : fold.Lawful) (same : b.digest = c.digest) :
    b.entries.map Json.canonical = c.entries.map Json.canonical := by
  obtain ⟨recorded, encoded, digest⟩ := b.built_ok
  obtain ⟨recorded', encoded', digest'⟩ := c.built_ok
  rw [digest, digest', Option.some.injEq, Value.str.injEq] at same
  have bytes := digest_injective apart.manifests same
  rw [bytes] at encoded
  have decodes := decoded_injective encoded encoded'
  obtain ⟨own, first, found⟩ := manifestOf_entries kind b.entries
  obtain ⟨own', second, found'⟩ := manifestOf_entries kind c.entries
  rw [first, second, Value.dict.injEq] at decodes
  rw [decodes, found', Option.some.injEq, Value.list.injEq] at found
  have clean : ∀ d : Built fold kind excludes, d.entries.map Json.decoded =
      d.entries.map Json.canonical := by
    intro d
    apply List.map_congr_left
    intro e inside
    obtain ⟨name, member, records⟩ := (paired_members (recordAll_ok d.built_ok.1).1).2 e inside
    exact Json.decoded_clean (d.clean_records lawful member records)
  rw [← clean b, ← clean c, found]

/-- Names in one order, under the same paths of the same content, have the same entries. -/
theorem entries_eq {founds others : List Found} {es es' : List Value} (same : SameRecords b c)
    (first : ∀ found ∈ founds, found ∈ b.founds) (second : ∀ other ∈ others, other ∈ c.founds)
    (records : List.Forall₂ (Records b.tree fold b.place) founds es)
    (records' : List.Forall₂ (Records c.tree fold c.place) others es')
    (order : founds.map (fun found => rel fold found.names) =
      others.map (fun other => rel fold other.names)) : es = es' := by
  induction records generalizing others es' with
  | nil =>
      cases records' with
      | nil => rfl
      | cons _ _ => cases order
  | @cons found e founds es here _ ih =>
      cases records' with
      | nil => cases order
      | @cons other e' others es' here' later =>
          rw [List.map_cons, List.map_cons, List.cons.injEq] at order
          rw [List.forall_mem_cons] at first second
          obtain ⟨h, holds, rfl⟩ := here
          obtain ⟨h', holds', rfl⟩ := here'
          obtain ⟨own, inside, path, shown⟩ := (same _ h).mp ⟨found, first.1, rfl, holds⟩
          rw [c.found_eq inside second.1 (path.trans order.1), holds'] at shown
          rw [Except.ok.inj shown, order.1, ih first.2 second.2 later order.2]

/-- Two trees have one digest exactly when they record the same, in one order. -/
theorem digest_eq_iff (lawful : fold.Lawful) (apart : Apart b c) :
    c.digest = b.digest ↔ SameRecords b c ∧ b.paths = c.paths := by
  obtain ⟨recorded, -, digest⟩ := b.built_ok
  obtain ⟨recorded', -, digest'⟩ := c.built_ok
  constructor
  · intro same
    have paired := paired_all apart lawful (fun _ inside => inside) (fun _ inside => inside)
      (recordAll_ok recorded).1 (recordAll_ok recorded').1 (entries_agree apart lawful same.symm)
    constructor
    · intro path h
      constructor
      · rintro ⟨found, inside, rfl, holds⟩
        obtain ⟨other, member, pair⟩ := (paired_members paired).1 found inside
        obtain ⟨h', own, own'⟩ := pair.content
        rw [holds, Except.ok.injEq] at own
        exact ⟨other, member, pair.path.symm, own ▸ own'⟩
      · rintro ⟨other, inside, rfl, holds⟩
        obtain ⟨found, member, pair⟩ := (paired_members paired).2 other inside
        obtain ⟨h', own, own'⟩ := pair.content
        rw [holds, Except.ok.injEq] at own'
        exact ⟨found, member, pair.path, own' ▸ own⟩
    · unfold Built.paths
      rw [← List.forall₂_eq_eq_eq, List.forall₂_map_left_iff, List.forall₂_map_right_iff]
      exact paired.imp (fun _ _ pair => pair.path)
  · rintro ⟨same, order⟩
    have entries := entries_eq same (fun _ inside => inside) (fun _ inside => inside)
      (recordAll_ok recorded).1 (recordAll_ok recorded').1 order
    rw [digest, digest']
    unfold Built.payload
    rw [entries]

end

section

variable {fold : Folding} {kind : Value} {b c : Built fold kind defaultExcludes}

/-- No path drifted exactly when the two trees record the same. -/
theorem firstMutation_none (apart : Apart b c) :
    firstMutation c.tree fold b.manifest c.root = .ok none ↔ SameRecords b c := by
  obtain ⟨digest, before⟩ := b.manifest_eq
  obtain ⟨digest', after⟩ := c.manifest_eq
  obtain ⟨old, ranOld, memOld⟩ := b.drifts
  obtain ⟨new, ranNew, memNew⟩ := c.drifts
  have ran : firstMutation c.tree fold b.manifest c.root = .ok none ↔
      firstOutside new b.entries = .ok none ∧ firstOutside old c.entries = .ok none := by
    have kinds : b.manifest.get "subject_kind" = .ok (some kind) := by
      rw [before]
      rfl
    have entries : b.manifest.item "entries" = .ok (.list b.entries) := by
      rw [before]
      rfl
    have entries' : c.manifest.item "entries" = .ok (.list c.entries) := by
      rw [after]
      rfl
    have listed : ∀ vs : List Value, Value.iter (.list vs) = .ok vs := fun _ => rfl
    unfold firstMutation
    rw [kinds, ok_bind, Option.getD_some, c.built]
    dsimp only
    rw [entries, ok_bind, listed, ok_bind, entries', ok_bind, listed, ok_bind, ranOld, ok_bind,
      ranNew, ok_bind]
    rcases firstOutside new b.entries with e | path | _
    · simp
    · simp
    · simp
  rw [ran, firstOutside_none, firstOutside_none]
  constructor
  · rintro ⟨stays, fresh⟩ path h
    constructor
    · intro shown
      obtain ⟨key, inside, compared⟩ := stays _ (b.mem_entries.mpr ⟨path, h, shown, rfl⟩)
      rw [drift_entry] at compared
      obtain ⟨path', h', shown', same⟩ := (memNew key).mp inside
      rw [← Except.ok.inj compared] at same
      obtain ⟨rfl, rfl⟩ := shows_of_driftKey apart shown shown' same
      exact shown'
    · intro shown
      obtain ⟨key, inside, compared⟩ := fresh _ (c.mem_entries.mpr ⟨path, h, shown, rfl⟩)
      rw [drift_entry] at compared
      obtain ⟨path', h', shown', same⟩ := (memOld key).mp inside
      rw [← Except.ok.inj compared] at same
      obtain ⟨rfl, rfl⟩ := shows_of_driftKey apart shown' shown same.symm
      exact shown'
  · intro same
    constructor
    · intro e inside
      obtain ⟨path, h, shown, rfl⟩ := b.mem_entries.mp inside
      exact ⟨_, (memNew _).mpr ⟨path, h, (same path h).mp shown, rfl⟩, drift_entry path h⟩
    · intro e inside
      obtain ⟨path, h, shown, rfl⟩ := c.mem_entries.mp inside
      exact ⟨_, (memOld _).mpr ⟨path, h, (same path h).mpr shown, rfl⟩, drift_entry path h⟩

/-- Mutation detection agrees with the subject digest exactly when trees that record the same
record it in one order. -/
theorem agrees_iff (lawful : fold.Lawful) (apart : Apart b c) :
    (firstMutation c.tree fold b.manifest c.root = .ok none ↔ c.digest = b.digest) ↔
      (SameRecords b c → b.paths = c.paths) := by
  rw [firstMutation_none apart, digest_eq_iff lawful apart]
  constructor
  · exact fun agree same => (agree.mp same).2
  · exact fun order => ⟨fun same => ⟨same, order same⟩, fun both => both.1⟩

end

/-! A tree, before and after. -/

/-- The manifest of empty files. -/
def emptyFiles (paths : List Str) : Value :=
  .dict (manifestOf (.str "source-tree") (paths.map emptyFile) ++ [(("subject_digest" : Str),
    Value.str (Canon.digest .subjectManifest
      (Utf8.ascii (Json.dumps (.dict (manifestOf (.str "source-tree") (paths.map emptyFile)))))))])

theorem build_emptyFiles {tree : Tree} {paths : List Str} {place : Path}
    (resolved : tree.resolve (Path.ofStr "/r") = .ok place) (dir : tree.isDir place = true)
    (recorded : recordAll tree ascii place [] (walk tree place defaultExcludes [] (tree.walked place)) =
      .ok (paths.map emptyFile))
    (checked : check (.dict (manifestOf (.str "source-tree") (paths.map emptyFile))) = .ok ()) :
    build tree ascii "/r" (.str "source-tree") defaultExcludes = .ok (emptyFiles paths) := by
  have encoded : canon (.dict (manifestOf (.str "source-tree") (paths.map emptyFile))) =
      .ok (Utf8.ascii (Json.dumps (.dict (manifestOf (.str "source-tree") (paths.map emptyFile))))) :=
    canon_ok.mpr ⟨checked, rfl⟩
  unfold build
  simp only [resolved, ok_bind, dir, ↓reduceIte, recorded, digestObj, encoded]
  rfl

/-- The names of a walk, checked one by one. -/
theorem named_of_all {founds : List Found}
    (all : founds.all (fun found => found.names.all (fun name => !name.contains (Chr.ofChar '/') &&
      name.all (fun c => !c.isHigh))) = true) :
    ∀ found ∈ founds, ∀ name ∈ found.names, Chr.ofChar '/' ∉ name ∧ Legible name := by
  intro found inside name member
  have both := List.all_eq_true.mp (List.all_eq_true.mp all found inside) name member
  rw [Bool.and_eq_true, Bool.not_eq_true', List.contains_eq_mem, decide_eq_false_iff_not] at both
  exact ⟨both.1, legible_of_all both.2⟩

/-- Two empty files, the first with a backslash in its name. -/
def flatTree : Built ascii (.str "source-tree") defaultExcludes where
  tree := pilotTree (.dir [("a\\b", .other), ("c", .other)])
  root := "/r"
  place := ⟨true, ["r"]⟩
  resolved := rfl
  named := named_of_all (by decide +kernel)
  manifest := emptyFiles ["a/b", "c"]
  built := build_emptyFiles rfl rfl rfl rfl

/-- The first one deleted, and a file of a directory added. -/
def movedTree : Built ascii (.str "source-tree") defaultExcludes where
  tree := pilotTree (.dir [("a", .dir [("b", .other)]), ("c", .other)])
  root := "/r"
  place := ⟨true, ["r"]⟩
  resolved := rfl
  named := named_of_all (by decide +kernel)
  manifest := emptyFiles ["c", "a/b"]
  built := build_emptyFiles rfl rfl rfl rfl

/-- Another digest, and no path that drifted. -/
theorem moved_unnoticed :
    ¬ (firstMutation movedTree.tree ascii flatTree.manifest movedTree.root = .ok none ↔
      movedTree.digest = flatTree.digest) := by
  intro agree
  have unnoticed : firstMutation movedTree.tree ascii flatTree.manifest movedTree.root = .ok none := by
    decide +kernel
  have digests : movedTree.digest ≠ flatTree.digest := by decide +kernel
  exact digests (agree.mp unnoticed)

theorem apart_flatTree : Apart flatTree flatTree := by
  have empty : ∀ x, flatTree.Holds x → x = [] := by
    rintro x ⟨found, inside, h, holds, bytes⟩
    have each : ∀ found ∈ flatTree.founds, found.kind = .file := by decide +kernel
    unfold held at holds
    rw [each found inside] at holds
    cases holds
    exact (Option.some.inj bytes).symm
  refine ⟨fun _ => rfl, ?_⟩
  intro x y first second
  rw [empty x first, empty y second]
  exact ⟨fun _ => rfl, fun _ => rfl⟩

theorem agrees_iff_flat :
    (firstMutation flatTree.tree ascii flatTree.manifest flatTree.root = .ok none ↔
      flatTree.digest = flatTree.digest) ↔
        (SameRecords flatTree flatTree → flatTree.paths = flatTree.paths) :=
  agrees_iff ascii_lawful apart_flatTree

end DevGate.Manifest
