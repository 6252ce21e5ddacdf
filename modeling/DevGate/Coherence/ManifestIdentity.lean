import DevGate.Coherence.CanonFaithful
import DevGate.Coherence.Manifest

set_option autoImplicit false

/- When two trees of one subject digest are the same tree. -/
namespace Py

theorem Str.length_split (sep : Chr) (s : Str) : (Str.split sep s).length = s.count sep + 1 := by
  induction s with
  | nil => rfl
  | cons c rest ih =>
      by_cases same : c = sep
      · subst same
        rw [Str.split_cons_sep, List.length_cons, ih, List.count_cons_self]
      · obtain ⟨piece, pieces, cut⟩ := List.exists_cons_of_ne_nil (Str.split_ne_nil sep rest)
        have whole : Str.split sep (c :: rest) = (c :: piece) :: pieces := by
          rw [Str.split, if_neg same, cut]
        rw [cut, List.length_cons] at ih
        rw [whole, List.length_cons, List.count_cons_of_ne same]
        exact ih

/-- Texts cut in as many pieces each are read back from the pieces. -/
theorem Str.flatMap_split_injective (sep : Chr) {xs ys : List Str}
    (counts : xs.map (List.count sep) = ys.map (List.count sep))
    (same : xs.flatMap (Str.split sep) = ys.flatMap (Str.split sep)) : xs = ys := by
  induction xs generalizing ys with
  | nil =>
      rw [List.map_nil, eq_comm, List.map_eq_nil_iff] at counts
      rw [counts]
  | cons x xs ih =>
      cases ys with
      | nil => cases counts
      | cons y ys =>
          rw [List.map_cons, List.map_cons, List.cons.injEq] at counts
          rw [List.flatMap_cons, List.flatMap_cons] at same
          have long : (Str.split sep x).length = (Str.split sep y).length := by
            rw [Str.length_split, Str.length_split, counts.1]
          obtain ⟨first, later⟩ := List.append_inj same long
          rw [Str.split_injective sep first, ih counts.2 later]

theorem Str.slashed_append (s t : Str) : (s ++ t).slashed = s.slashed ++ t.slashed := List.map_append

theorem Str.slashed_join (parts : List Str) :
    (Str.join "/" parts).slashed = Str.join "/" (parts.map Str.slashed) := by
  induction parts with
  | nil => rfl
  | cons part rest ih =>
      cases rest with
      | nil => rfl
      | cons next more =>
          have right : Str.join "/" ((part :: next :: more).map Str.slashed) =
              part.slashed ++ "/" ++ Str.join "/" ((next :: more).map Str.slashed) := rfl
          rw [Str.join_cons _ _ _ (List.cons_ne_nil _ _), Str.slashed_append, Str.slashed_append, ih,
            right]
          rfl

theorem Str.split_slashed {s : Str} (free : Chr.ofChar '/' ∉ s) :
    Str.split (Chr.ofChar '/') s.slashed = Str.split (Chr.ofChar '\\') s := by
  induction s with
  | nil => rfl
  | cons c rest ih =>
      rw [List.mem_cons, not_or] at free
      have later := ih free.2
      by_cases back : c = Chr.ofChar '\\'
      · subst back
        have whole : Str.slashed (Chr.ofChar '\\' :: rest) = Chr.ofChar '/' :: Str.slashed rest := rfl
        rw [whole, Str.split_cons_sep, Str.split_cons_sep, later]
      · have whole : Str.slashed (c :: rest) = c :: Str.slashed rest := by
          unfold Str.slashed
          rw [List.map_cons, if_neg back]
        rw [whole, Str.split, if_neg (Ne.symm free.1), later, Str.split, if_neg back]

theorem Shape.ind {P : Shape → Prop} (other : P .other)
    (dir : ∀ entries : List (Str × Shape), (∀ e ∈ entries, P e.2) → P (.dir entries)) :
    ∀ shape, P shape :=
  @Shape.rec P (fun entries => ∀ e ∈ entries, P e.2) (fun e => P e.2) other dir
    (fun _ member => absurd member List.not_mem_nil)
    (fun _ _ head tail => by
      intro e member
      rcases List.mem_cons.mp member with rfl | member
      · exact head
      · exact tail e member)
    (fun _ _ shape => shape)

/-- The documented behaviour of NFC on the separators, which compose with nothing and decompose
from nothing, and on the texts that hold no high surrogate. -/
structure Folding.Lawful (fold : Folding) : Prop where
  parted : ∀ (s t : Str) (c : Chr), c = Chr.ofChar '/' ∨ c = Chr.ofChar '\\' →
    fold.nfc (s ++ c :: t) = fold.nfc s ++ c :: fold.nfc t
  absent : ∀ (s : Str) (c : Chr), c = Chr.ofChar '/' ∨ c = Chr.ofChar '\\' → c ∉ s → c ∉ fold.nfc s
  legible : ∀ s : Str, (∀ c ∈ s, c.isHigh = false) → ∀ c ∈ fold.nfc s, c.isHigh = false

namespace Folding.Lawful

variable {fold : Folding} (lawful : fold.Lawful)

include lawful

theorem nfc_join {c : Chr} (sep : c = Chr.ofChar '/' ∨ c = Chr.ofChar '\\') {parts : List Str}
    (some_ : parts ≠ []) : fold.nfc (Str.join [c] parts) = Str.join [c] (parts.map fold.nfc) := by
  induction parts with
  | nil => exact absurd rfl some_
  | cons part rest ih =>
      cases rest with
      | nil => rfl
      | cons next more =>
          have right : Str.join [c] ((part :: next :: more).map fold.nfc) =
              fold.nfc part ++ [c] ++ Str.join [c] ((next :: more).map fold.nfc) := rfl
          rw [Str.join_cons _ _ _ (List.cons_ne_nil _ _), List.append_assoc, List.singleton_append,
            lawful.parted _ _ _ sep, ih (List.cons_ne_nil _ _), right, List.append_assoc,
            List.singleton_append]

theorem split_nfc {c : Chr} (sep : c = Chr.ofChar '/' ∨ c = Chr.ofChar '\\') (s : Str) :
    Str.split c (fold.nfc s) = (Str.split c s).map fold.nfc := by
  have some_ := Str.split_ne_nil c s
  have whole := lawful.nfc_join sep some_
  rw [Str.join_split] at whole
  rw [whole]
  apply Str.split_join_of_not_mem
  · rwa [ne_eq, List.map_eq_nil_iff]
  · intro piece inside
    obtain ⟨part, member, rfl⟩ := List.mem_map.mp inside
    exact lawful.absent part c sep (Str.not_mem_of_mem_split c s part member)

theorem count_nfc {c : Chr} (sep : c = Chr.ofChar '/' ∨ c = Chr.ofChar '\\') (s : Str) :
    (fold.nfc s).count c = s.count c := by
  have long := congrArg List.length (lawful.split_nfc sep s)
  rw [List.length_map, Str.length_split, Str.length_split] at long
  omega

end Folding.Lawful

end Py

namespace DevGate.Manifest

open Py Canon

/-- The segments of a recorded path: those of the names, cut at their backslashes. -/
theorem split_rel {fold : Folding} (lawful : fold.Lawful) {names : List Str} (some_ : names ≠ [])
    (free : ∀ name ∈ names, Chr.ofChar '/' ∉ name) :
    Str.split (Chr.ofChar '/') (rel fold names) =
      (names.map fold.nfc).flatMap (Str.split (Chr.ofChar '\\')) := by
  unfold rel norm
  rw [lawful.split_nfc (.inl rfl), Str.slashed_join]
  have cut : Str.split (Chr.ofChar '/') (Str.join "/" (names.map Str.slashed)) =
      (names.map Str.slashed).flatMap (Str.split (Chr.ofChar '/')) :=
    Str.split_join _ _ (by rwa [ne_eq, List.map_eq_nil_iff])
  rw [cut]
  clear cut some_
  induction names with
  | nil => rfl
  | cons name rest ih =>
      rw [List.forall_mem_cons] at free
      simp only [List.map_cons, List.flatMap_cons, List.map_append]
      rw [ih free.2, Str.split_slashed free.1, lawful.split_nfc (.inr rfl)]

/-! The names a walk records. -/

theorem walkAll_eq_map (tree : Tree) (root : Path) (excludes : List Str) (names : List Str)
    (entries : List (Str × Shape)) :
    walkAll tree root excludes names entries = entries.map (fun e =>
      (e.1, e.2.isDir, walk tree root excludes (names ++ [e.1]) e.2)) := by
  induction entries with
  | nil => rfl
  | cons e rest ih => rw [walkAll, ih, List.map_cons]

theorem mem_recorded {tree : Tree} {root : Path} {excludes names : List Str} {kids : List Kid}
    {found : Found} (member : found ∈ recorded tree root excludes names kids) :
    ∃ kid ∈ kids, found.names = names ++ [kid.1] ∨ found ∈ kid.2.2 := by
  unfold recorded at member
  have of_sorted : ∀ {p : Kid → Bool} {kid : Kid}, kid ∈ Json.sortKeys (kids.filter p) → kid ∈ kids :=
    fun inside => List.mem_of_mem_filter ((List.perm_insertionSort _ _).mem_iff.mp inside)
  rcases List.mem_append.mp member with front | deeper
  · rcases List.mem_append.mp front with dir | file
    · obtain ⟨kid, inside, named⟩ := List.mem_filterMap.mp dir
      obtain ⟨kind, -, rfl⟩ := Option.map_eq_some_iff.mp named
      exact ⟨kid, of_sorted inside, .inl rfl⟩
    · obtain ⟨kid, inside, rfl⟩ := List.mem_map.mp file
      exact ⟨kid, of_sorted inside, .inl rfl⟩
  · obtain ⟨kid, inside, below⟩ := List.mem_flatMap.mp deeper
    exact ⟨kid, of_sorted (List.mem_of_mem_filter inside), .inr below⟩

/-- A walk records names below where it starts. -/
theorem walk_names (tree : Tree) (root : Path) (excludes : List Str) (shape : Shape) :
    ∀ names, ∀ found ∈ walk tree root excludes names shape,
      ∃ more, more ≠ [] ∧ found.names = names ++ more := by
  induction shape using Shape.ind with
  | other =>
      intro names found inside
      rw [walk] at inside
      cases inside
  | dir entries ih =>
      intro names found inside
      rw [walk, walkAll_eq_map] at inside
      obtain ⟨kid, member, found_⟩ := mem_recorded inside
      obtain ⟨e, listed, rfl⟩ := List.mem_map.mp member
      rcases found_ with here | below
      · exact ⟨[e.1], List.cons_ne_nil _ _, here⟩
      · obtain ⟨more, -, named⟩ := ih e listed _ found below
        refine ⟨e.1 :: more, List.cons_ne_nil _ _, ?_⟩
        rw [named, List.append_assoc]
        rfl

/-! What is recorded of a name. -/

/-- What stands under a name: its kind, its bytes where it is a file, and its policy outcome. -/
structure Held where
  kind : Str
  bytes : Option Bytes
  outcome : Option Str
  deriving DecidableEq

def held (tree : Tree) (root : Path) (found : Found) : Except Exc Held :=
  let fp := root.sub found.names
  match found.kind with
  | .dirLink => do
      return ⟨"symlink", none,
        some (if ← escapes tree.toDisk fp root then "symlink-escape" else "symlink-forbidden")⟩
  | .submodule => do
      match ← gitlinkCommit tree fp with
      | some sha => return ⟨"submodule", none, some ("submodule-pinned:" ++ sha)⟩
      | none => return ⟨"submodule", none, some "submodule-unresolved"⟩
  | .excluded =>
      return ⟨"excluded", none, some ("excluded-by-policy:" ++ found.names.getLastD [])⟩
  | .fileLink => return ⟨"symlink", none, some "symlink-forbidden"⟩
  | .file => do return ⟨"file", some (← tree.read fp), none⟩

/-- The digest under which a file is recorded. -/
def contentDigest (bytes : Bytes) : Str := Canon.digest .file (Sha256.digest bytes)

def Held.entry (h : Held) (path : Str) : Value :=
  Manifest.entry path h.kind (h.bytes.elim .null (fun b => .str (contentDigest b)))
    (h.outcome.elim .null .str) (h.bytes.elim .null (fun b => .int b.length))

theorem describe_ok {tree : Tree} {root : Path} {path : Str} {found : Found} {e : Value} :
    describe tree root path found = .ok e ↔
      ∃ h, held tree root found = .ok h ∧ e = h.entry path := by
  unfold describe held
  cases found.kind with
  | dirLink =>
      cases answer : escapes tree.toDisk (root.sub found.names) root with
      | error e => simp [answer]
      | ok escaped => simp [answer, Held.entry, eq_comm]
  | submodule =>
      cases answer : gitlinkCommit tree (root.sub found.names) with
      | error e => simp [answer]
      | ok commit => cases commit <;> simp [answer, Held.entry, eq_comm]
  | excluded => simp [Held.entry, eq_comm]
  | fileLink => simp [Held.entry, eq_comm]
  | file =>
      unfold digestFile
      cases answer : tree.read (root.sub found.names) with
      | error e => simp [answer]
      | ok data => simp [answer, Held.entry, contentDigest, eq_comm]

/-- What a name collides under. -/
def collisionKey (fold : Folding) (found : Found) : Str := fold.casefold (rel fold found.names)

/-- An entry, and what stands under its name. -/
def Records (tree : Tree) (fold : Folding) (root : Path) (found : Found) (e : Value) : Prop :=
  ∃ h, held tree root found = .ok h ∧ e = h.entry (rel fold found.names)

section

variable {tree : Tree} {fold : Folding} {root : Path}

theorem record_ok {seen seen' : Dict Str Str} {found : Found} {e : Value}
    (ran : record tree fold root seen found = .ok (seen', e)) :
    Dict.get? seen (collisionKey fold found) = none ∧
      seen' = Dict.set seen (collisionKey fold found) (rel fold found.names) ∧
      Records tree fold root found e := by
  obtain ⟨_, -, ran⟩ := bind_ok.mp ran
  obtain ⟨next, fresh, ran⟩ := bind_ok.mp ran
  obtain ⟨entry, described, ran⟩ := bind_ok.mp ran
  cases ran
  unfold checkCollision at fresh
  split at fresh
  · cases fresh
  · rename_i absent
    exact ⟨absent, (Except.ok.inj fresh).symm, describe_ok.mp described⟩

/-- The entries of a walk: one for each name, under keys that do not collide. -/
theorem recordAll_ok {founds : List Found} {seen : Dict Str Str} {entries : List Value}
    (ran : recordAll tree fold root seen founds = .ok entries) :
    List.Forall₂ (Records tree fold root) founds entries ∧
      (founds.map (collisionKey fold)).Nodup ∧
      ∀ found ∈ founds, Dict.get? seen (collisionKey fold found) = none := by
  induction founds generalizing seen entries with
  | nil =>
      cases ran
      exact ⟨.nil, List.nodup_nil, by simp⟩
  | cons found rest ih =>
      obtain ⟨⟨seen', e⟩, first, ran⟩ := bind_ok.mp ran
      obtain ⟨later, looped, done⟩ := bind_ok.mp ran
      cases done
      obtain ⟨absent, rfl, described⟩ := record_ok first
      obtain ⟨paired, distinct, fresh⟩ := ih looped
      have apart : ∀ other ∈ rest, collisionKey fold found ≠ collisionKey fold other ∧
          Dict.get? seen (collisionKey fold other) = none := by
        intro other inside
        have missed := fresh other inside
        rw [Dict.get?_set] at missed
        split at missed
        · cases missed
        · rename_i different
          exact ⟨different, missed⟩
      refine ⟨.cons described paired, ?_, ?_⟩
      · rw [List.map_cons, List.nodup_cons]
        refine ⟨?_, distinct⟩
        intro inside
        obtain ⟨other, member, same⟩ := List.mem_map.mp inside
        exact (apart other member).1 same.symm
      · rw [List.forall_mem_cons]
        exact ⟨absent, fun other inside => (apart other inside).2⟩

end

/-! The recorded texts. -/

/-- A text of a directory listing: what its bytes do not spell stands as low surrogates. -/
def Legible (s : Str) : Prop := ∀ c ∈ s, c.isHigh = false

theorem Legible.tidy {s : Str} (legible : Legible s) : Json.Tidy s := Json.tidy_of_not_high legible

theorem Legible.append {s t : Str} (left : Legible s) (right : Legible t) : Legible (s ++ t) := by
  intro c inside
  rcases List.mem_append.mp inside with front | back
  · exact left c front
  · exact right c back

theorem legible_of_all {s : Str} (all : s.all (fun c => !c.isHigh) = true) : Legible s := by
  intro c inside
  simpa using List.all_eq_true.mp all c inside

theorem Legible.slashed {s : Str} (legible : Legible s) : Legible s.slashed := by
  intro c inside
  obtain ⟨d, member, rfl⟩ := List.mem_map.mp inside
  split
  · decide
  · exact legible d member

theorem legible_join {parts : List Str} (each : ∀ part ∈ parts, Legible part) :
    Legible (Str.join "/" parts) := by
  induction parts with
  | nil => exact legible_of_all rfl
  | cons part rest ih =>
      rw [List.forall_mem_cons] at each
      by_cases last : rest = []
      · subst last
        exact each.1
      · rw [Str.join_cons _ _ _ last]
        exact (each.1.append (legible_of_all (by decide))).append (ih each.2)

theorem legible_rel {fold : Folding} (lawful : fold.Lawful) {names : List Str}
    (each : ∀ name ∈ names, Legible name) : Legible (rel fold names) :=
  lawful.legible _ (legible_join each).slashed

theorem legible_digit {d : Char} (inside : d ∈ hexDigits) : (Chr.ofChar d).isHigh = false := by
  have each : hexDigits.all (fun d => !(Chr.ofChar d).isHigh) = true := by decide
  simpa using List.all_eq_true.mp each d inside

theorem legible_commit {sha : Str} (commit : isCommit sha = true) : Legible sha := by
  unfold isCommit at commit
  rw [Bool.and_eq_true] at commit
  intro c inside
  obtain ⟨d, member, same⟩ := List.any_eq_true.mp (List.all_eq_true.mp commit.2 c inside)
  rw [beq_iff_eq] at same
  rw [same]
  exact legible_digit member

theorem packed_commit {ref text sha : Str} (found : packed ref text = some sha) :
    isCommit sha = true := by
  obtain ⟨line, -, found⟩ := List.exists_of_findSome?_eq_some found
  split at found
  · split at found
    · rename_i pinned
      cases found
      exact pinned.2
    · cases found
  · cases found

theorem followRef_commit {tree : Tree} {gitdir : Path} {ref sha : Str}
    (found : followRef tree gitdir ref = .ok (some sha)) : isCommit sha = true := by
  obtain ⟨loose, -, found⟩ := bind_ok.mp found
  split at found
  · rename_i pinned
    cases found
    exact (Option.filter_eq_some_iff.mp pinned).2
  · split at found
    · exact packed_commit (Except.ok.inj found)
    · split at found <;> cases found

theorem gitlinkCommit_commit {tree : Tree} {subdir : Path} {sha : Str}
    (found : gitlinkCommit tree subdir = .ok (some sha)) : isCommit sha = true := by
  obtain ⟨raw, -, found⟩ := bind_ok.mp found
  split at found
  · cases found
  · split at found
    · cases found
    · obtain ⟨head, -, found⟩ := bind_ok.mp found
      split at found
      · cases found
      · split at found
        · rename_i commit
          cases found
          exact commit
        · split at found
          · cases found
          · exact followRef_commit found

/-- Kind and outcome are legible where the names are. -/
theorem held_legible {tree : Tree} {root : Path} {found : Found} {h : Held}
    (names : ∀ name ∈ found.names, Legible name) (holds : held tree root found = .ok h) :
    Legible h.kind ∧ ∀ outcome ∈ h.outcome, Legible outcome := by
  have fixed : ∀ s : String, (Str.ofString s).all (fun c => !c.isHigh) = true → Legible s :=
    fun _ all => legible_of_all all
  unfold held at holds
  split at holds
  · obtain ⟨escaped, -, same⟩ := bind_ok.mp holds
    cases same
    refine ⟨fixed _ (by decide), ?_⟩
    intro outcome inside
    cases inside
    cases escaped
    · exact fixed _ (by decide)
    · exact fixed _ (by decide)
  · obtain ⟨commit, pinned, same⟩ := bind_ok.mp holds
    cases commit with
    | none =>
        cases same
        refine ⟨fixed _ (by decide), ?_⟩
        intro outcome inside
        cases inside
        exact fixed _ (by decide)
    | some sha =>
        cases same
        refine ⟨fixed _ (by decide), ?_⟩
        intro outcome inside
        cases inside
        exact (fixed _ (by decide)).append (legible_commit (gitlinkCommit_commit pinned))
  · cases holds
    refine ⟨fixed _ (by decide), ?_⟩
    intro outcome inside
    cases inside
    refine (fixed _ (by decide)).append ?_
    rw [List.getLastD_eq_getLast?]
    cases last : found.names.getLast? with
    | none => exact legible_of_all rfl
    | some name => exact names name (List.mem_of_getLast? last)
  · cases holds
    refine ⟨fixed _ (by decide), ?_⟩
    intro outcome inside
    cases inside
    exact fixed _ (by decide)
  · obtain ⟨data, -, same⟩ := bind_ok.mp holds
    cases same
    refine ⟨fixed _ (by decide), ?_⟩
    intro outcome inside
    cases inside

theorem entry_distinct {path kind digest outcome size : Value} :
    (([("path", path), ("kind", kind), ("digest", digest), ("policy_outcome", outcome),
      ("size_bytes", size)] : Dict Str Value).map Prod.fst).Nodup := by
  simp only [List.map_cons, List.map_nil]
  decide

theorem clean_entry {h : Held} {path : Str} (legible : Legible path)
    (texts : Legible h.kind ∧ ∀ outcome ∈ h.outcome, Legible outcome) : Json.Clean (h.entry path) := by
  have tidy : ∀ s : String, (Str.ofString s).all (fun c => !c.isHigh) = true → Json.Tidy s :=
    fun _ all => (legible_of_all all).tidy
  have digits : ∀ bytes, Json.Tidy (contentDigest bytes) := by
    intro bytes
    apply Legible.tidy
    refine (legible_of_all (by decide) : Legible "sha256:").append ?_
    intro c inside
    obtain ⟨d, member, rfl⟩ := List.mem_map.mp (mem_sha256 inside)
    exact legible_digit member
  unfold Held.entry Manifest.entry
  apply Json.Clean.dict entry_distinct
  · simp only [List.forall_mem_cons]
    exact ⟨tidy _ (by decide), tidy _ (by decide), tidy _ (by decide), tidy _ (by decide),
      tidy _ (by decide), by simp⟩
  · simp only [List.forall_mem_cons]
    refine ⟨.str legible.tidy, .str texts.1.tidy, ?_, ?_, ?_, by simp⟩
    · cases h.bytes with
      | none => exact .null
      | some bytes => exact .str (digits bytes)
    · cases outcome : h.outcome with
      | none => exact .null
      | some text => exact .str (texts.2 text outcome).tidy
    · cases h.bytes with
      | none => exact .null
      | some bytes => exact .int _

/-! Trees whose manifest was built. -/

/-- A tree and its manifest. -/
structure Built (fold : Folding) (kind : Value) (excludes : List Str) where
  tree : Tree
  root : Str
  place : Path
  resolved : tree.resolve (Path.ofStr root) = .ok place
  named : ∀ found ∈ walk tree place excludes [] (tree.walked place), ∀ name ∈ found.names,
    Chr.ofChar '/' ∉ name ∧ Legible name
  manifest : Value
  built : build tree fold root kind excludes = .ok manifest

namespace Built

variable {fold : Folding} {kind : Value} {excludes : List Str} (b : Built fold kind excludes)

def founds : List Found := walk b.tree b.place excludes [] (b.tree.walked b.place)

def digest : Option Value := b.manifest.field? "subject_digest"

/-- The tree has this, at the path of these segments up to NFC. -/
def Has (segments : List Str) (h : Held) : Prop :=
  ∃ found ∈ b.founds, found.names.map fold.nfc = segments ∧ held b.tree b.place found = .ok h

def entries : List Value := ((b.manifest.field? "entries").bind Value.list?).getD []

/-- The bytes the subject digest is computed over. -/
def payload : Bytes := Utf8.ascii (Json.dumps (.dict (manifestOf kind b.entries)))

theorem built_ok : recordAll b.tree fold b.place [] b.founds = .ok b.entries ∧
    canon (.dict (manifestOf kind b.entries)) = .ok b.payload ∧
    b.digest = some (.str (Canon.digest .subjectManifest b.payload)) := by
  have built := b.built
  unfold build at built
  rw [b.resolved, ok_bind] at built
  split at built
  · obtain ⟨entries, recorded, built⟩ := bind_ok.mp built
    obtain ⟨digest, digested, built⟩ := bind_ok.mp built
    obtain ⟨payload, encoded, same⟩ := bind_ok.mp digested
    have listed : b.entries = entries := by
      unfold Built.entries
      rw [← Except.ok.inj built]
      rfl
    have bytes : b.payload = payload := by
      unfold Built.payload
      rw [listed]
      exact (canon_ok.mp encoded).2.symm
    rw [bytes, listed]
    refine ⟨recorded, encoded, ?_⟩
    unfold Built.digest
    rw [← Except.ok.inj built, ← Except.ok.inj same]
    rfl
  · cases built

theorem names_some {found : Found} (inside : found ∈ b.founds) : found.names ≠ [] := by
  obtain ⟨more, some_, named⟩ := walk_names _ _ _ _ _ found inside
  rw [named, List.nil_append]
  exact some_

/-- The segments of a recorded path. -/
theorem split_path (lawful : fold.Lawful) {found : Found} (inside : found ∈ b.founds) :
    Str.split (Chr.ofChar '/') (rel fold found.names) =
      (found.names.map fold.nfc).flatMap (Str.split (Chr.ofChar '\\')) :=
  split_rel lawful (b.names_some inside) (fun name member => (b.named found inside name member).1)

/-- Within a tree a recorded path is that of one name. -/
theorem found_eq {found other : Found} (inside : found ∈ b.founds) (inside' : other ∈ b.founds)
    (same : rel fold found.names = rel fold other.names) : found = other := by
  have distinct := (recordAll_ok b.built_ok.1).2.1
  apply List.inj_on_of_nodup_map distinct inside inside'
  unfold collisionKey
  rw [same]

theorem clean_records {found : Found} {e : Value} (lawful : fold.Lawful)
    (inside : found ∈ b.founds) (records : Records b.tree fold b.place found e) : Json.Clean e := by
  obtain ⟨h, holds, rfl⟩ := records
  have names : ∀ name ∈ found.names, Legible name :=
    fun name member => (b.named found inside name member).2
  exact clean_entry (legible_rel lawful names) (held_legible names holds)

theorem clean_manifest (lawful : fold.Lawful) (clean : Json.Clean kind) :
    Json.Clean (.dict (manifestOf kind b.entries)) := by
  have tidy : ∀ s : String, (Str.ofString s).all (fun c => !c.isHigh) = true → Json.Tidy s :=
    fun _ all => (legible_of_all all).tidy
  have distinct : ((manifestOf kind b.entries).map Prod.fst).Nodup := by
    simp only [manifestOf, List.map_cons, List.map_nil]
    decide
  apply Json.Clean.dict distinct
  · simp only [manifestOf, List.forall_mem_cons]
    exact ⟨tidy _ (by decide), tidy _ (by decide), tidy _ (by decide), by simp⟩
  · simp only [manifestOf, List.forall_mem_cons]
    refine ⟨.str (tidy _ (by decide)), clean, .list ?_, by simp⟩
    intro e inside
    obtain ⟨found, member, records⟩ := (paired_members (recordAll_ok b.built_ok.1).1).2 e inside
    exact b.clean_records lawful member records

end Built

end DevGate.Manifest
