import DevGate.Coherence.Adoption
import DevGate.Coherence.AttestSeal

set_option autoImplicit false

/- Which signers a set approves at its reference time. The code reads the first entry
for the signing key and compares the times of its window as texts. -/
namespace DevGate.Attest

open Py

/-- The key id and the identity that an attestation names. -/
def SignedBy (attestation : Value) (keyId identity : Str) : Prop :=
  ∃ signer, getOr attestation "signer" (.dict []) = .ok signer ∧
    getOr signer "key_id" (.str []) = .ok (.str keyId) ∧
    getOr signer "identity" .null = .ok (.str identity)

theorem SignedBy.unique {attestation : Value} {keyId identity keyId' identity' : Str}
    (signed : SignedBy attestation keyId identity)
    (signed' : SignedBy attestation keyId' identity') : keyId' = keyId ∧ identity' = identity := by
  obtain ⟨signer, looked, named, known⟩ := signed
  obtain ⟨signer', looked', named', known'⟩ := signed'
  rw [looked] at looked'
  cases looked'
  rw [named] at named'
  rw [known] at known'
  cases named'
  cases known'
  exact ⟨rfl, rfl⟩

/-- The window holds the reference time, as points in time. -/
def Signer.Brackets (entry : Signer) (asOf : Str) : Prop :=
  ∃ start now stop, Adoption.parse entry.validFrom = .ok start ∧
    Adoption.parse asOf = .ok now ∧ Adoption.parse entry.validUntil = .ok stop ∧
    start.instant ≤ now.instant ∧ now.instant ≤ stop.instant

/-- The window holds the reference time, as texts. -/
def Signer.BracketsText (entry : Signer) (asOf : Str) : Prop :=
  Str.le entry.validFrom asOf = true ∧ Str.le asOf entry.validUntil = true

/-- Some entry with the key and the identity holds the reference time, and no entry with the
key is revoked. -/
def Approved (attestation : Value) (set : SignerSet) : Prop :=
  ∃ keyId identity, SignedBy attestation keyId identity ∧
    (∃ entry ∈ set.signers, entry.keyId = keyId ∧ entry.identity = identity ∧
      entry.revoked = false ∧ entry.Brackets set.asOf) ∧
    ∀ entry ∈ set.signers, entry.keyId = keyId → entry.revoked = false

/-- What the code accepts: the first entry with the key, by the text of its window. -/
theorem checkSigner_ok {attestation : Value} {set : SignerSet} {entry : Signer} :
    checkSigner attestation set = .ok (.ok entry) ↔
      ∃ keyId identity, SignedBy attestation keyId identity ∧
        set.signers.find? (fun s => s.keyId = keyId) = some entry ∧ entry.identity = identity ∧
        entry.revoked = false ∧ entry.BracketsText set.asOf := by
  unfold checkSigner
  constructor
  · intro checked
    obtain ⟨signer, looked, checked⟩ := bind_ok.mp checked
    obtain ⟨keyId, named, checked⟩ := bind_ok.mp checked
    split at checked
    · cases checked
    · rename_i first found
      obtain ⟨identity, known, checked⟩ := bind_ok.mp checked
      have key : keyId = .str first.keyId := by
        simpa using List.find?_some found
      rw [key, find_signer] at found
      split at checked
      · cases checked
      rename_i mismatch
      have same : identity = .str first.identity := by
        rw [Bool.not_eq_false] at mismatch
        exact (Value.eq_str _ _).mp mismatch
      split at checked
      · cases checked
      rename_i standing
      split at checked
      · cases checked
      rename_i started
      split at checked
      · cases checked
      rename_i open_
      cases checked
      rw [Bool.not_eq_false] at started open_
      rw [key] at named
      rw [same] at known
      exact ⟨entry.keyId, entry.identity, ⟨signer, looked, named, known⟩, found, rfl,
        by simpa using standing, started, open_⟩
  · rintro ⟨keyId, identity, ⟨signer, looked, named, known⟩, found, rfl, standing, started, open_⟩
    have same : Value.eq (.str entry.identity) (.str entry.identity) = true := by
      rw [Value.eq_str]
    rw [looked, ok_bind, named, ok_bind, find_signer, found]
    dsimp only
    rw [known, ok_bind, same, if_neg Bool.true_eq_false.mp, standing, started, open_]
    rfl

/-- The first entry for a key answers as all of them do at their points in time: one revoked
entry closes it, and else its text admits the identity when some entry's window does. -/
structure Aligned (set : SignerSet) (keyId identity : Str) (first : Signer) : Prop where
  closed : (∃ entry ∈ set.signers, entry.keyId = keyId ∧ entry.revoked = true) →
    first.revoked = true ∨ first.identity ≠ identity ∨ ¬ first.BracketsText set.asOf
  standing : (∀ entry ∈ set.signers, entry.keyId = keyId → entry.revoked = false) →
    (first.identity = identity ∧ first.BracketsText set.asOf ↔
      ∃ entry ∈ set.signers, entry.keyId = keyId ∧ entry.identity = identity ∧
        entry.Brackets set.asOf)

/-- For the only entry with its key the texts of the window must order as its times do. -/
theorem aligned_sole {set : SignerSet} {keyId identity : Str} {first : Signer}
    (listed : first ∈ set.signers) (key : first.keyId = keyId)
    (sole : ∀ entry ∈ set.signers, entry.keyId = keyId → entry = first) :
    Aligned set keyId identity first ↔
      (first.identity = identity → first.revoked = false →
        (first.BracketsText set.asOf ↔ first.Brackets set.asOf)) := by
  have some_ : (∃ entry ∈ set.signers, entry.keyId = keyId ∧ entry.identity = identity ∧
      entry.Brackets set.asOf) ↔ first.identity = identity ∧ first.Brackets set.asOf := by
    constructor
    · rintro ⟨entry, inside, named, rest⟩
      have same := sole entry inside named
      subst same
      exact rest
    · intro rest
      exact ⟨first, listed, key, rest⟩
  constructor
  · rintro ⟨-, standing⟩ known stands
    have every : ∀ entry ∈ set.signers, entry.keyId = keyId → entry.revoked = false := by
      intro entry inside named
      rw [sole entry inside named, stands]
    have agree := (standing every).trans some_
    exact ⟨fun text => (agree.mp ⟨known, text⟩).2, fun times => (agree.mpr ⟨known, times⟩).2⟩
  · intro agree
    refine ⟨?_, ?_⟩
    · rintro ⟨entry, inside, named, revoked⟩
      rw [sole entry inside named] at revoked
      exact Or.inl revoked
    · intro every
      rw [some_]
      exact and_congr_right (fun known => agree known (every first listed key))

/-- The signer check accepts an attestation exactly when the set approves its signer. -/
def AcceptsApproved (attestation : Value) (set : SignerSet) : Prop :=
  (∃ entry, checkSigner attestation set = .ok (.ok entry)) ↔ Approved attestation set

theorem acceptsApproved_of_read (attestation : Value) (set : SignerSet) :
    AcceptsApproved attestation set ↔
      ∀ keyId identity first, SignedBy attestation keyId identity →
        set.signers.find? (fun s => s.keyId = keyId) = some first →
        Aligned set keyId identity first := by
  constructor
  · intro law keyId identity first signed found
    have admits : (first.identity = identity ∧ first.revoked = false ∧
        first.BracketsText set.asOf) → Approved attestation set := by
      rintro ⟨known, stands, text⟩
      exact law.mp ⟨first, checkSigner_ok.mpr
        ⟨keyId, identity, signed, found, known, stands, text⟩⟩
    refine ⟨?_, ?_⟩
    · rintro ⟨entry, inside, named, revoked⟩
      by_contra accepted
      push Not at accepted
      have stands : first.revoked = false := by simpa using accepted.1
      obtain ⟨_, _, signed', -, none_⟩ := admits ⟨accepted.2.1, stands, accepted.2.2⟩
      obtain ⟨rfl, -⟩ := signed.unique signed'
      rw [none_ entry inside named] at revoked
      cases revoked
    · intro every
      have key : first.keyId = keyId := by simpa using List.find?_some found
      have stands := every first (List.mem_of_find?_eq_some found) key
      constructor
      · rintro ⟨known, text⟩
        obtain ⟨_, _, signed', ⟨entry, inside, named, same, -, times⟩, -⟩ :=
          admits ⟨known, stands, text⟩
        obtain ⟨rfl, rfl⟩ := signed.unique signed'
        exact ⟨entry, inside, named, same, times⟩
      · rintro ⟨entry, inside, named, known, times⟩
        obtain ⟨other, accepted⟩ := law.mpr ⟨keyId, identity, signed,
          ⟨entry, inside, named, known, every entry inside named, times⟩, every⟩
        obtain ⟨_, _, signed', found', known', -, text⟩ := checkSigner_ok.mp accepted
        obtain ⟨rfl, rfl⟩ := signed.unique signed'
        rw [found, Option.some.injEq] at found'
        subst found'
        exact ⟨known', text⟩
  · intro aligned
    constructor
    · rintro ⟨entry, accepted⟩
      obtain ⟨keyId, identity, signed, found, known, stands, text⟩ := checkSigner_ok.mp accepted
      have agrees := aligned keyId identity entry signed found
      have every : ∀ other ∈ set.signers, other.keyId = keyId → other.revoked = false := by
        intro other inside named
        by_contra revoked
        rw [Bool.not_eq_false] at revoked
        rcases agrees.closed ⟨other, inside, named, revoked⟩ with gone | stranger | outside
        · rw [stands] at gone
          cases gone
        · exact stranger known
        · exact outside text
      obtain ⟨witness, inside, named, same, times⟩ := (agrees.standing every).mp ⟨known, text⟩
      exact ⟨keyId, identity, signed,
        ⟨witness, inside, named, same, every witness inside named, times⟩, every⟩
    · rintro ⟨keyId, identity, signed, ⟨entry, inside, named, known, -, times⟩, every⟩
      have some_ : (set.signers.find? (fun s => s.keyId = keyId)).isSome = true := by
        rw [List.find?_isSome]
        exact ⟨entry, inside, decide_eq_true named⟩
      obtain ⟨first, found⟩ := Option.isSome_iff_exists.mp some_
      have key : first.keyId = keyId := by simpa using List.find?_some found
      obtain ⟨same, text⟩ := ((aligned keyId identity first signed found).standing every).mpr
        ⟨entry, inside, named, known, times⟩
      exact ⟨first, checkSigner_ok.mpr ⟨keyId, identity, signed, found, same,
        every first (List.mem_of_find?_eq_some found) key, text⟩⟩

/-- A required text of an accepted object. -/
theorem text_of_accepts {s sub : Schemacheck.Schema} {kvs : List (Str × Value)}
    (accepted : Schemacheck.Accepts s (.dict kvs)) (key : Str) (needed : key ∈ s.required)
    (stated : Dict.get? s.properties key = some sub) (text : sub.type = some (.one .string)) :
    ∃ read, (Dict.get? kvs key).bind Value.str? = some read := by
  obtain ⟨v, found, inner⟩ := accepted.field key needed stated
  obtain ⟨read, same⟩ := Schemacheck.accepts_string inner text
  exact ⟨read, by rw [found, Option.bind_some, same]⟩

theorem read_signer {v : Value} (accepted : Schemacheck.Accepts Schemacheck.signer v) :
    ∃ entry, Signer.read v = some entry := by
  obtain ⟨kvs, rfl⟩ := accepted.isObject rfl
  obtain ⟨keyId, keyIdRead⟩ := text_of_accepts accepted "key_id" (by decide) rfl rfl
  obtain ⟨identity, identityRead⟩ := text_of_accepts accepted "identity" (by decide) rfl rfl
  obtain ⟨key, keyRead⟩ := text_of_accepts accepted "key" (by decide) rfl rfl
  obtain ⟨validFrom, fromRead⟩ := text_of_accepts accepted "valid_from" (by decide) rfl rfl
  obtain ⟨validUntil, untilRead⟩ := text_of_accepts accepted "valid_until" (by decide) rfl rfl
  simp only [Signer.read, keyIdRead, identityRead, keyRead, fromRead, untilRead]
  exact ⟨_, rfl⟩

/-- A set of the frozen contract is read. -/
theorem read_signerSet {doc : Value} (accepted : Schemacheck.Accepts Schemacheck.signerSet doc) :
    ∃ set, SignerSet.read doc = some set := by
  obtain ⟨kvs, rfl⟩ := accepted.isObject rfl
  obtain ⟨asOf, asOfRead⟩ := text_of_accepts accepted "as_of" (by decide) rfl rfl
  obtain ⟨v, found, inner⟩ := accepted.field "signers" (by decide) rfl
  obtain ⟨docs, rfl⟩ := Schemacheck.isType_array (inner.type rfl)
  obtain ⟨signers, signersRead⟩ :=
    Schemacheck.mapM_isSome (fun v inside => read_signer (inner.items rfl v inside))
  refine ⟨⟨asOf, signers⟩, ?_⟩
  simp only [SignerSet.read, asOfRead, found, Option.bind_some, Value.list?]
  exact Option.bind_eq_some_iff.mpr ⟨asOf, rfl, Option.bind_eq_some_iff.mpr ⟨docs, rfl,
    Option.bind_eq_some_iff.mpr ⟨signers, signersRead, rfl⟩⟩⟩

/-- Over every accepted set and every attestation: the signer check is the approval exactly
when the first entry for the signing key is aligned with all of its entries. -/
theorem acceptsApproved_iff (doc : Value)
    (accepted : Schemacheck.Accepts Schemacheck.signerSet doc) :
    ∃ set, SignerSet.read doc = some set ∧ ∀ attestation,
      (AcceptsApproved attestation set ↔
        ∀ keyId identity first, SignedBy attestation keyId identity →
          set.signers.find? (fun s => s.keyId = keyId) = some first →
          Aligned set keyId identity first) := by
  obtain ⟨set, read⟩ := read_signerSet accepted
  exact ⟨set, read, fun attestation => acceptsApproved_of_read attestation set⟩

/-- A set of one signer, from one moment to another. -/
def soleSet (asOf from_ until_ : Str) : Value :=
  .dict [("api_version", .str "devgate.spec-coherence.signer-set/v1"), ("as_of", .str asOf),
    ("signers", .list [.dict [("key_id", .str "k1"), ("identity", .str "pilot"),
      ("key", .str (List.replicate 64 (Chr.ofChar 'a'))), ("valid_from", .str from_),
      ("valid_until", .str until_)]])]

theorem acceptsApproved_iff_pilot :
    ∃ set, SignerSet.read (soleSet "2026-06-01T00:00:00Z" "2026-01-01T00:00:00Z"
        "2027-01-01T00:00:00Z") = some set ∧ ∀ attestation,
      (AcceptsApproved attestation set ↔
        ∀ keyId identity first, SignedBy attestation keyId identity →
          set.signers.find? (fun s => s.keyId = keyId) = some first →
          Aligned set keyId identity first) :=
  acceptsApproved_iff _ ⟨"$", by rfl⟩

/-- The window opens an hour before the reference time, in another offset. -/
theorem offset_window_refused :
    ¬ ∀ (doc : Value) (set : SignerSet) (attestation : Value),
      Schemacheck.Accepts Schemacheck.signerSet doc → SignerSet.read doc = some set →
      AcceptsApproved attestation set := by
  intro law
  let doc := soleSet "2026-06-01T00:00:00Z" "2026-06-01T01:00:00+02:00" "2027-01-01T00:00:00Z"
  let entry : Signer := ⟨"k1", "pilot", List.replicate 64 (Chr.ofChar 'a'),
    "2026-06-01T01:00:00+02:00", "2027-01-01T00:00:00Z", false⟩
  let attestation : Value :=
    .dict [("signer", .dict [("key_id", .str "k1"), ("identity", .str "pilot")])]
  have signed : SignedBy attestation "k1" "pilot" := ⟨_, rfl, rfl, rfl⟩
  have approves := (law doc ⟨"2026-06-01T00:00:00Z", [entry]⟩ attestation ⟨"$", by rfl⟩ rfl).mpr
  have brackets : entry.Brackets "2026-06-01T00:00:00Z" :=
    ⟨⟨63915958800000000, some 7200000000⟩, ⟨63915955200000000, some 0⟩,
      ⟨63934444800000000, some 0⟩, by decide, by decide, by decide, by decide, by decide⟩
  obtain ⟨accepted, checked⟩ := approves ⟨"k1", "pilot", signed,
    ⟨entry, List.mem_cons_self, rfl, rfl, rfl, brackets⟩, by simp [entry]⟩
  obtain ⟨keyId, identity, -, found, -, -, text⟩ := checkSigner_ok.mp checked
  have same := List.mem_of_find?_eq_some found
  rw [List.mem_singleton] at same
  subst same
  exact absurd text.1 (by decide)

end DevGate.Attest
