import DevGate.Coherence.VerificationLifecycle

set_option autoImplicit false

/- What a verification that raises leaves on the claim. The independent record is
written before the table is asked, so a verifier's yes stays on a claim that no
longer leads to VERIFIED. -/
namespace DevGate.Verification

open Py

/-- A verification that raises leaves the claim as it found it. -/
def RefusesCleanly (claim : Claim) (verifier : Verifier) (observed : Option (Dict Str Str))
    (reason : Str) : Prop :=
  ∀ e, (verifyIndependently claim verifier observed reason).2 = .error e →
    (verifyIndependently claim verifier observed reason).1 = claim

/-- A yes, from an unchanged world, for a claim in a terminal state. -/
structure LateYes (claim : Claim) (verifier : Verifier) (observed : Option (Dict Str Str))
    (answer : VerifierAnswer) : Prop where
  side : claim.state ∈ terminal
  fresh : stale claim observed = false
  answered : verifier.call claim = .ok answer
  yes : answer.ok = true
  unmoved : stale claim (observed.map (fun _ => answer.observed)) = false

/-- Writing a record changes the claim unless that record already stood. -/
theorem record_eq_iff (claim : Claim) (record : VerificationRecord) :
    claim.record record = claim ↔ claim.independentVerification = some record := by
  constructor
  · intro same
    exact (congrArg Claim.independentVerification same).symm
  · intro stood
    show { claim with independentVerification := some record } = claim
    rw [← stood]

/-- Staleness is judged by the bound digests, which the record leaves alone. -/
theorem stale_record (claim : Claim) (record : VerificationRecord)
    (observed : Option (Dict Str Str)) :
    stale (claim.record record) observed = stale claim observed := rfl

/-- A move into a terminal state never raises. -/
theorem transition_terminal_returns (claim : Claim) {target : State} (side : target ∈ terminal)
    (reason : Str) (e : Exc) : (transition claim target.name reason false).2 ≠ .error e := by
  rw [transition_open claim target reason false (open_terminal claim target false side)]
  intro raised
  cases raised

/-- A late yes raises, with the record already on the claim. -/
theorem LateYes.recorded {claim : Claim} {verifier : Verifier} {observed : Option (Dict Str Str)}
    {answer : VerifierAnswer} (late : LateYes claim verifier observed answer) (reason : Str) :
    ∃ e, verifyIndependently claim verifier observed reason =
      (claim.record (verifierRecord verifier answer), .error e) := by
  have stops : ¬ Open (claim.record (verifierRecord verifier answer)) .verified true := by
    intro passes
    have rung : claim.state ∈ ladder := (allowed_verified_iff _).mp passes.2
    exact terminal_not_ladder late.side rung
  have closed := transition_closed _ .verified
    (if reason = [] then "independent check confirmed" else reason) true stops
  unfold verifyIndependently
  rw [late.fresh, if_neg Bool.false_ne_true, late.answered]
  dsimp only
  rw [late.yes, if_neg (by decide), stale_record, late.unmoved, if_neg Bool.false_ne_true]
  exact closed

/-- A verifier's answer makes the call raise only as a late yes: every other outcome is a
move that the table admits. -/
theorem lateYes_of_raised {claim : Claim} {verifier : Verifier}
    {observed : Option (Dict Str Str)} {reason : Str} {answer : VerifierAnswer} {e : Exc}
    (fresh : stale claim observed = false) (answered : verifier.call claim = .ok answer)
    (raised : (verifyIndependently claim verifier observed reason).2 = .error e) :
    LateYes claim verifier observed answer := by
  unfold verifyIndependently at raised
  rw [fresh, if_neg Bool.false_ne_true, answered] at raised
  dsimp only at raised
  by_cases no : answer.ok = false
  · rw [if_pos no] at raised
    exact absurd raised (transition_terminal_returns _ (by decide) _ _)
  · rw [if_neg no, stale_record] at raised
    by_cases unmoved : stale claim (observed.map (fun _ => answer.observed)) = false
    · rw [unmoved, if_neg Bool.false_ne_true] at raised
      rcases ladder_or_terminal claim.state with rung | side
      · -- VERIFIED is open to every rung, so this call returned
        have passes : Open (claim.record (verifierRecord verifier answer)) .verified true :=
          ⟨fun _ => Or.inr rfl, (allowed_verified_iff _).mpr rung⟩
        rw [transition_open _ _ _ _ passes] at raised
        cases raised
      · exact ⟨side, fresh, answered, by simpa using no, unmoved⟩
    · rw [Bool.not_eq_false] at unmoved
      rw [if_pos unmoved] at raised
      exact absurd raised (transition_terminal_returns _ (by decide) _ _)

/-- A call that raises wrote nothing, or recorded a yes that came too late. -/
theorem raises_cases {claim : Claim} {verifier : Verifier} {observed : Option (Dict Str Str)}
    {reason : Str} {e : Exc}
    (raised : (verifyIndependently claim verifier observed reason).2 = .error e) :
    (verifyIndependently claim verifier observed reason).1 = claim ∨
      ∃ answer, LateYes claim verifier observed answer := by
  by_cases fresh : stale claim observed = false
  · cases answered : verifier.call claim with
    | error e' =>
        apply Or.inl
        unfold verifyIndependently
        rw [fresh, if_neg Bool.false_ne_true, answered]
    | ok answer => exact Or.inr ⟨answer, lateYes_of_raised fresh answered raised⟩
  · apply Or.inl
    unfold verifyIndependently
    rw [if_pos (by simpa using fresh)]

/-- A refused verification is without trace exactly when every yes that comes too late
repeats the record the claim already carries. -/
theorem refusesCleanly_iff (claim : Claim) (verifier : Verifier)
    (observed : Option (Dict Str Str)) (reason : Str) :
    RefusesCleanly claim verifier observed reason ↔
      ∀ answer, LateYes claim verifier observed answer →
        claim.independentVerification = some (verifierRecord verifier answer) := by
  constructor
  · intro clean answer late
    obtain ⟨e, ran⟩ := late.recorded reason
    have kept := clean e (by rw [ran])
    rw [ran] at kept
    exact (record_eq_iff _ _).mp kept
  · intro stands e raised
    rcases raises_cases raised with kept | ⟨answer, late⟩
    · exact kept
    · obtain ⟨e', ran⟩ := late.recorded reason
      rw [ran]
      exact (record_eq_iff _ _).mpr (stands answer late)

/-- A claim that failed, and a verifier that says yes to it. -/
theorem failed_claim_records_yes :
    ¬ ∀ (claim : Claim) (verifier : Verifier) (observed : Option (Dict Str Str)) (reason : Str),
      RefusesCleanly claim verifier observed reason := by
  intro clean
  let failed : Claim := (newClaim "c1" "r" none []).move .failed "tests failed"
  let verifier : Verifier := ⟨"check", fun _ => .ok ⟨true, .dict [], []⟩⟩
  have kept := clean failed verifier none []
    ⟨verificationError, ["illegal transition ", .repr (.str "FAILED"), " -> ",
      .repr (.str "VERIFIED")]⟩ (by rfl)
  have recorded := congrArg Claim.independentVerification kept
  exact absurd recorded (by decide)

end DevGate.Verification
