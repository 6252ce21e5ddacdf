import DevGate.Coherence.VerificationLifecycle

set_option autoImplicit false

/- What a revalidated claim still says about the digests it was verified with. -/
namespace DevGate.Verification

open Py

/-- The call is an independent verification that ended in VERIFIED. -/
def confirms (c : Claim) (op : Op) : Bool :=
  match op with
  | .verifyIndependently _ _ _ => returned c op && (step c op).state = .verified
  | _ => false

/-- A claim with the digests bound at its latest successful verification. -/
structure History where
  claim : Claim
  verifiedDigests : Option (Dict Str Str)

def History.start (claim : Claim) : History := ⟨claim, none⟩

def History.step (h : History) (op : Op) : History where
  claim := Verification.step h.claim op
  verifiedDigests :=
    if confirms h.claim op then some (Verification.step h.claim op).boundDigests
    else h.verifiedDigests

theorem staleness_eq_nil_iff (claim : Claim) (observed : Dict Str Str) :
    staleness claim observed = [] ↔
      ∀ role digest, (role, digest) ∈ claim.boundDigests → Dict.get? observed role = some digest := by
  rw [staleness, Str.sorted_eq_nil_iff, List.map_eq_nil_iff, List.filter_eq_nil_iff]
  simp only [ne_eq, decide_not, Bool.not_eq_true', decide_eq_false_iff_not, not_not, Prod.forall]

/-- The claim's roles are distinct, and a verified claim has a verification to
look back to. -/
structure Anchored (h : History) : Prop where
  distinct : (h.claim.boundDigests.map Prod.fst).Nodup
  recorded : h.claim.state = .verified → h.verifiedDigests.isSome

/-- A VERIFIED answer certifies every digest bound at the latest verification. -/
def RevalidationSound (h : History) : Prop :=
  ∀ observed, revalidate h.claim observed = .verified →
    ∃ digests, h.verifiedDigests = some digests ∧
      ∀ role digest, Dict.get? digests role = some digest → Dict.get? observed role = some digest

/-- Nothing bound at the latest verification has been rebound since. -/
def AnchorsKept (h : History) : Prop :=
  h.claim.state = .verified → ∀ digests, h.verifiedDigests = some digests →
    ∀ role digest, Dict.get? digests role = some digest →
      Dict.get? h.claim.boundDigests role = some digest

/-- The bind calls that leave a verified claim's anchors in place. -/
def KeepsAnchors (h : History) (op : Op) : Prop :=
  ∀ role digest, op = .bind (.str role) (.str digest) → role ≠ [] → digest ≠ [] →
    h.claim.state = .verified → ∀ digests, h.verifiedDigests = some digests →
      ∀ anchor, Dict.get? digests role = some anchor → digest = anchor

theorem revalidate_eq_verified_iff (claim : Claim) (observed : Dict Str Str) :
    revalidate claim observed = .verified ↔
      staleness claim observed = [] ∧ claim.state = .verified := by
  unfold revalidate
  by_cases fresh : staleness claim observed = []
  · simp [fresh]
  · simp [fresh]

/-- What the claim now binds is itself an observation that finds nothing stale. -/
theorem staleness_self (claim : Claim) (distinct : (claim.boundDigests.map Prod.fst).Nodup) :
    staleness claim claim.boundDigests = [] := by
  rw [staleness_eq_nil_iff]
  intro role digest member
  exact Dict.get?_of_mem distinct member

theorem revalidationSound_iff (h : History) (anchored : Anchored h) :
    RevalidationSound h ↔ AnchorsKept h := by
  constructor
  · intro sound top digests recorded role digest was
    obtain ⟨digests', recorded', agree⟩ := sound h.claim.boundDigests
      ((revalidate_eq_verified_iff _ _).mpr ⟨staleness_self h.claim anchored.distinct, top⟩)
    rw [recorded, Option.some.injEq] at recorded'
    subst recorded'
    exact agree role digest was
  · intro kept observed answer
    obtain ⟨fresh, top⟩ := (revalidate_eq_verified_iff _ _).mp answer
    obtain ⟨digests, recorded⟩ := Option.isSome_iff_exists.mp (anchored.recorded top)
    refine ⟨digests, recorded, ?_⟩
    intro role digest was
    have still := kept top digests recorded role digest was
    exact (staleness_eq_nil_iff _ _).mp fresh role digest (Dict.mem_of_get? still)

theorem step_distinct (c : Claim) (op : Op) (distinct : (c.boundDigests.map Prod.fst).Nodup) :
    ((step c op).boundDigests.map Prod.fst).Nodup := by
  have effect := step_effect c op
  generalize step c op = next at effect ⊢
  generalize returned c op = went at effect
  cases effect with
  | bound => exact Dict.nodup_set distinct _ _
  | _ => exact distinct

/-- A verified claim was verified before the call or is confirmed by it. -/
theorem confirms_of_verified (c : Claim) (op : Op) (before : c.state ≠ .verified)
    (after : (step c op).state = .verified) : confirms c op = true := by
  have effect := step_effect c op
  generalize same : step c op = next at effect after
  generalize went : returned c op = ok at effect
  cases effect with
  | confirmed => simp [confirms, same, went, after]
  | moved _ earned => exact absurd (earned after) before
  | refuted => cases after
  | drifted => cases after
  | _ => exact absurd after before

theorem Anchored.step {h : History} (anchored : Anchored h) (op : Op) : Anchored (h.step op) where
  distinct := step_distinct h.claim op anchored.distinct
  recorded := by
    intro after
    unfold History.step at after ⊢
    split
    · rfl
    · rename_i unconfirmed
      by_cases before : h.claim.state = .verified
      · exact anchored.recorded before
      · exact absurd (confirms_of_verified h.claim op before after) unconfirmed

/-- A valid bind on a claim whose anchors stand keeps them exactly when it
gives an anchored role its anchored digest. -/
theorem bind_anchorsKept_iff (h : History) (kept : AnchorsKept h) (role digest : Str)
    (named : role ≠ []) (given : digest ≠ []) :
    AnchorsKept (h.step (.bind (.str role) (.str digest))) ↔
      KeepsAnchors h (.bind (.str role) (.str digest)) := by
  obtain ⟨r, role, rfl⟩ := List.exists_cons_of_ne_nil named
  obtain ⟨d, digest, rfl⟩ := List.exists_cons_of_ne_nil given
  constructor
  · rintro after role' digest' same - - top digests recorded anchor was
    cases same
    have now := after top digests recorded (r :: role) anchor was
    change Dict.get? (Dict.set h.claim.boundDigests _ _) _ = _ at now
    rw [Dict.get?_set_self, Option.some.injEq] at now
    exact now
  · intro keeps top digests recorded role' anchor was
    change Dict.get? (Dict.set h.claim.boundDigests _ _) _ = _
    rw [Dict.get?_set]
    split
    · rename_i same
      subst same
      rw [keeps _ _ rfl named given top digests recorded anchor was]
    · exact kept top digests recorded role' anchor was

/-- Every call that is not a bind leaves the anchors of a verified claim alone. -/
theorem other_anchorsKept (h : History) (op : Op) (kept : AnchorsKept h)
    (other : (step h.claim op).boundDigests = h.claim.boundDigests) : AnchorsKept (h.step op) := by
  intro top digests recorded role digest was
  change Dict.get? (step h.claim op).boundDigests role = some digest
  unfold History.step at recorded
  dsimp only at recorded
  split at recorded
  · rw [Option.some.injEq] at recorded
    rw [recorded]
    exact was
  · rename_i unconfirmed
    rw [other]
    by_cases before : h.claim.state = .verified
    · exact kept before digests recorded role digest was
    · exact absurd (confirms_of_verified h.claim op before top) unconfirmed

theorem step_boundDigests (c : Claim) (op : Op) :
    (step c op).boundDigests = c.boundDigests ∨
      ∃ role digest, op = .bind (.str role) (.str digest) ∧ role ≠ [] ∧ digest ≠ [] := by
  have effect := step_effect c op
  generalize step c op = next at effect ⊢
  generalize returned c op = went at effect
  cases effect with
  | bound named given => exact Or.inr ⟨_, _, rfl, named, given⟩
  | _ => exact Or.inl rfl

theorem step_anchorsKept_iff (h : History) (op : Op) (kept : AnchorsKept h) :
    AnchorsKept (h.step op) ↔ KeepsAnchors h op := by
  by_cases binds : ∃ role digest, op = .bind (.str role) (.str digest) ∧ role ≠ [] ∧ digest ≠ []
  · obtain ⟨role, digest, rfl, named, given⟩ := binds
    exact bind_anchorsKept_iff h kept role digest named given
  · constructor
    · intro _ role digest same named given
      exact absurd ⟨role, digest, same, named, given⟩ binds
    · intro _
      rcases step_boundDigests h.claim op with same | bound
      · exact other_anchorsKept h op kept same
      · exact absurd bound binds

/-- Revalidation is sound in every state of a history exactly when no bind on a
verified claim gives a role bound at its latest verification another digest. -/
theorem revalidation_sound_iff (claimId requirement : Str) (subjectDigest : Option Str)
    (actor : Str) (ops : List Op) :
    let start := History.start (newClaim claimId requirement subjectDigest actor)
    Machine.Always History.step RevalidationSound start ops ↔
      Machine.Allows History.step KeepsAnchors start ops := by
  have start : Anchored (History.start (newClaim claimId requirement subjectDigest actor)) :=
    ⟨List.nodup_nil, fun impossible => by cases impossible⟩
  refine Machine.always_iff_allows (I := Anchored) (fun _ op anchored => anchored.step op) ?_
    _ start ?_ ops
  · intro h op anchored sound
    rw [revalidationSound_iff _ (anchored.step op)]
    exact step_anchorsKept_iff h op ((revalidationSound_iff h anchored).mp sound)
  · rw [revalidationSound_iff _ start]
    intro impossible
    cases impossible

/-- A verifier that confirms whatever it is shown. -/
def agreeing : Verifier := ⟨"verifier", fun _ => .ok ⟨true, .null, []⟩⟩

/-- Rebinding a verified subject: the claim stays VERIFIED for the new bytes. -/
def rebound : List Op :=
  [.bind (.str "subject") (.str "A"), .verifyIndependently agreeing none [],
    .bind (.str "subject") (.str "B")]

theorem rebound_not_sound :
    ¬ RevalidationSound (Machine.run History.step
      (History.start (newClaim "claim" "requirement" none "actor")) rebound) := by
  intro sound
  obtain ⟨digests, recorded, agree⟩ := sound [("subject", "B")] (by decide)
  have verified : digests = [(("subject" : Str), ("A" : Str))] := by
    have known : (Machine.run History.step
        (History.start (newClaim "claim" "requirement" none "actor")) rebound).verifiedDigests =
        some [(("subject" : Str), ("A" : Str))] := by decide
    rw [known, Option.some.injEq] at recorded
    exact recorded.symm
  subst verified
  exact absurd (agree "subject" "A" (by decide)) (by decide)

end DevGate.Verification
