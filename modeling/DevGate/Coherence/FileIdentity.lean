import DevGate.Coherence.Context
import DevGate.Coherence.Manifest
import DevGate.Coherence.Package

set_option autoImplicit false

/- One role tag, three routes: the subject manifest digests the hash of a file, the inventory and
the captured facts digest its bytes. -/
namespace DevGate.FileIdentity

open Py Canon

/-- Where a file is digested under `file/v1`. -/
inductive Route where
  | manifest
  | inventory
  | fact
  deriving DecidableEq

/-- What a route digests of a file's bytes. -/
def Route.payload : Route → Bytes → Bytes
  | .manifest, bytes => Sha256.digest bytes
  | .inventory, bytes => bytes
  | .fact, bytes => bytes

/-- The digest a file has on a route. -/
def Route.digest (r : Route) (bytes : Bytes) : Str := Canon.digest .file (r.payload bytes)

/-! What the routes are in the code. -/

theorem manifest_digest {disk : Disk} {fp : Path} {bytes : Bytes} (read : disk.read fp = .ok bytes) :
    Manifest.digestFile disk fp = .ok (Route.digest .manifest bytes) := by
  unfold Manifest.digestFile
  rw [read]
  rfl

/-- The entry of a file in a subject manifest. -/
theorem manifest_entry {tree : Tree} {root : Path} {path : Str} {names : List Str} {bytes : Bytes}
    (read : tree.read (root.sub names) = .ok bytes) :
    Manifest.describe tree root path ⟨names, .file⟩ =
      .ok (Manifest.entry path "file" (.str (Route.digest .manifest bytes)) .null
        (.int bytes.length)) := by
  unfold Manifest.describe
  simp only [read, ok_bind, manifest_digest read]
  rfl

/-- An inventory entry is accepted under the digest of its file. -/
theorem inventory_entry {disk : Disk} {root fp : Path} {name : Str} {kind : Value} {recorded : Str}
    {bytes : Bytes} {found : Option Path} (place : root.join name = fp)
    (read : disk.read fp = .ok bytes)
    (accepted : Package.checkEntry disk root
      (.dict [("path", .str name), ("kind", kind), ("digest", .str recorded)]) = .ok found) :
    recorded = Route.digest .inventory bytes := by
  unfold Package.checkEntry at accepted
  obtain ⟨path, looked, accepted⟩ := bind_ok.mp accepted
  obtain ⟨kind', looked', accepted⟩ := bind_ok.mp accepted
  obtain ⟨claimed, stated, accepted⟩ := bind_ok.mp accepted
  obtain ⟨at_, below, accepted⟩ := bind_ok.mp accepted
  cases looked
  cases stated
  cases below
  rw [place] at accepted
  split at accepted
  · obtain ⟨actual, digested, accepted⟩ := bind_ok.mp accepted
    unfold Package.fileDigest at digested
    rw [read] at digested
    cases digested
    split at accepted
    · rename_i same
      rw [Value.eq_str] at same
      rw [Value.str.inj same]
      rfl
    · cases accepted
  · cases accepted

/-- The content of a captured fact is handed over under the digest its record binds. -/
theorem fact_record {disk : Disk} {base : Path} {fid name : Str} {dig content : Value}
    {bytes : Bytes} (read : disk.read ((base.join "facts").join fid) = .ok bytes)
    (accepted : Context.readFact disk base (.str fid) dig = .ok (name, content)) :
    dig = .str (Route.digest .fact bytes) := by
  unfold Context.readFact Context.factPath at accepted
  simp only [ok_bind, read] at accepted
  obtain ⟨_, same, -⟩ := bind_ok.mp accepted
  rw [ensure_ok, Value.eq_str] at same
  exact same

/-- Does the route digest the hash of a file? -/
def Route.prehashed (r : Route) : Bool := r = .manifest

theorem digest_eq_iff {r r' : Route} {a b : Bytes}
    (apart : Separates (preimage .file (r.payload a)) (preimage .file (r'.payload b))) :
    r.digest a = r'.digest b ↔ r.payload a = r'.payload b :=
  ⟨digest_injective apart, fun same => by unfold Route.digest; rw [same]⟩

/-- On one kind of route the digests are equal exactly where the bytes are. -/
theorem payload_eq_iff {r r' : Route} {a b : Bytes} (apart : Separates a b)
    (alike : r.prehashed = r'.prehashed) : r.payload a = r'.payload b ↔ a = b := by
  have hashes : Sha256.digest a = Sha256.digest b ↔ a = b := by
    constructor
    · intro same
      apply apart
      unfold sha256
      rw [same]
    · intro same
      rw [same]
  cases r <;> cases r' <;> first | exact hashes | exact Iff.rfl | cases alike

/-- The digest a file is given on a route. -/
def Route.fileDigest (r : Route) (disk : Disk) (fp : Path) : Except Exc Str :=
  match r with
  | .manifest => Manifest.digestFile disk fp
  | .inventory => Package.fileDigest disk fp
  | .fact => do return Canon.digest .file (← disk.read fp)

theorem fileDigest_eq (r : Route) {disk : Disk} {fp : Path} {bytes : Bytes}
    (read : disk.read fp = .ok bytes) : r.fileDigest disk fp = .ok (r.digest bytes) := by
  cases r with
  | manifest => exact manifest_digest read
  | inventory =>
      show (do return Canon.digest .file (← disk.read fp) : Except Exc Str) = _
      rw [read]
      rfl
  | fact =>
      show (do return Canon.digest .file (← disk.read fp) : Except Exc Str) = _
      rw [read]
      rfl

/-- Two files have one digest exactly where they have the same bytes, whatever the routes. -/
def OneIdentity (r r' : Route) (disk disk' : Disk) (fp fp' : Path) : Prop :=
  ∀ a b, disk.read fp = .ok a → disk'.read fp' = .ok b →
    (r.fileDigest disk fp = r'.fileDigest disk' fp' ↔ a = b)

/-- Across the two kinds of route, the digests tell the files apart exactly where the hash of the
one is the other's bytes just when their bytes are the same. -/
theorem oneIdentity_iff {r r' : Route} {disk disk' : Disk} {fp fp' : Path} {a b : Bytes}
    (read : disk.read fp = .ok a) (read' : disk'.read fp' = .ok b) (apart : Separates a b)
    (tagged : Separates (preimage .file (r.payload a)) (preimage .file (r'.payload b))) :
    OneIdentity r r' disk disk' fp fp' ↔
      (r.prehashed = r'.prehashed ∨
        (r.prehashed = true ∧ (Sha256.digest a = b ↔ a = b)) ∨
        (r'.prehashed = true ∧ (a = Sha256.digest b ↔ a = b))) := by
  have one : OneIdentity r r' disk disk' fp fp' ↔ (r.payload a = r'.payload b ↔ a = b) := by
    rw [← digest_eq_iff tagged]
    unfold OneIdentity
    rw [fileDigest_eq r read, fileDigest_eq r' read', Except.ok.injEq]
    constructor
    · intro identity
      exact identity a b read read'
    · intro identity a' b' again again'
      cases read.symm.trans again
      cases read'.symm.trans again'
      exact identity
  rw [one]
  by_cases alike : r.prehashed = r'.prehashed
  · simp only [alike, true_or, iff_true]
    exact payload_eq_iff apart alike
  · cases r <;> cases r' <;> first | exact absurd rfl alike | simp [Route.payload, Route.prehashed]

/-- A file system that holds two files. -/
def twoFiles : Disk where
  resolve p := .ok p
  exists_ _ := true
  isFile _ := true
  isDir _ := false
  read p := .ok (if p.name = "a" then [] else [0])

theorem inventory_identity :
    OneIdentity .inventory .fact twoFiles twoFiles (Path.ofStr "/a") (Path.ofStr "/b") := by
  have other : sha256 [] ≠ sha256 [0] := by decide +kernel
  have other' : sha256 (preimage .file []) ≠ sha256 (preimage .file [0]) := by decide +kernel
  have apart : Separates [] [0] := fun same => absurd same other
  have tagged : Separates (preimage .file (Route.payload .inventory []))
      (preimage .file (Route.payload .fact [0])) := fun same => absurd same other'
  exact (oneIdentity_iff rfl rfl apart tagged).mpr (.inl rfl)

/-- An empty file is digested in two ways. -/
theorem manifest_not_identity :
    ¬ OneIdentity .manifest .inventory twoFiles twoFiles (Path.ofStr "/a") (Path.ofStr "/a") := by
  intro identity
  have other : Route.digest .manifest [] ≠ Route.digest .inventory [] := by decide +kernel
  have same := (identity [] [] rfl rfl).mpr rfl
  have first := fileDigest_eq .manifest (show twoFiles.read (Path.ofStr "/a") = .ok [] from rfl)
  have second := fileDigest_eq .inventory (show twoFiles.read (Path.ofStr "/a") = .ok [] from rfl)
  rw [first, second] at same
  exact other (Except.ok.inj same)

end DevGate.FileIdentity
