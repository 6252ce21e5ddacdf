import DevGate.Coherence.Verification

set_option autoImplicit false

namespace DevGate.Verification

open Py

theorem ofName?_name (state : State) : State.ofName? state.name = some state := by
  cases state <;> decide

theorem name_of_ofName? {target : Str} {state : State} (found : State.ofName? target = some state) :
    state.name = target := by
  simpa using List.find?_some found

theorem parse_name (state : State) : State.parse state.name = .ok state := by
  rw [State.parse, ofName?_name]

theorem parse_ok {target : Str} {state : State} (parsed : State.parse target = .ok state) :
    state.name = target := by
  unfold State.parse at parsed
  split at parsed
  · cases parsed
  · rename_i found
    cases parsed
    exact name_of_ofName? found

theorem State.name_injective : Function.Injective State.name := by
  intro a b same
  have found := ofName?_name a
  rw [same, ofName?_name] at found
  exact (Option.some.inj found).symm

theorem ladder_or_terminal (state : State) : state ∈ ladder ∨ state ∈ terminal := by
  cases state <;> decide

theorem terminal_not_ladder {state : State} (side : state ∈ terminal) : state ∉ ladder := by
  revert side
  cases state <;> decide

theorem allowed_terminal (current target : State) (side : target ∈ terminal) :
    allowed current target = true := by
  simp [allowed, side]

/-- A terminal state leads to terminal states only. -/
theorem allowed_from_terminal {current target : State} (side : current ∈ terminal)
    (step : allowed current target = true) : target ∈ terminal := by
  revert side step
  cases current <;> cases target <;> decide

theorem allowed_verified_iff (current : State) :
    allowed current .verified = true ↔ current ∈ ladder := by
  cases current <;> decide

/-- Everything an operation can do to a claim, and whether it returned. `refused`
covers the calls that raise before writing; `recorded` raises after writing. -/
inductive Effect (c : Claim) : Op → Claim → Bool → Prop where
  | refused (op : Op) : Effect c op c false
  | moved {target : State} {reason : Str} (legal : allowed c.state target = true)
      (earned : target = .verified → c.state = .verified) :
      Effect c (.transition target.name reason) (c.move target reason) true
  | bound {role digest : Str} (named : role ≠ []) (given : digest ≠ []) :
      Effect c (.bind (.str role) (.str digest))
        { c with boundDigests := Dict.set c.boundDigests role digest } true
  | attached {evidenceRef : Str} (given : evidenceRef ≠ []) :
      Effect c (.attachEvidence (.str evidenceRef))
        { c with evidenceRefs := c.evidenceRefs ++ [evidenceRef] } true
  | refuted {verifier : Verifier} {observed : Option (Dict Str Str)} {reason logged : Str}
      {answer : VerifierAnswer} (answered : verifier.call c = .ok answer)
      (no : answer.ok = false) :
      Effect c (.verifyIndependently verifier observed reason)
        ((c.record (verifierRecord verifier answer)).move .failed logged) true
  | drifted {verifier : Verifier} {observed : Option (Dict Str Str)} {reason logged : Str}
      {answer : VerifierAnswer} (answered : verifier.call c = .ok answer)
      (yes : answer.ok = true) :
      Effect c (.verifyIndependently verifier observed reason)
        ((c.record (verifierRecord verifier answer)).move .unknown logged) true
  | confirmed {verifier : Verifier} {observed : Option (Dict Str Str)} {reason logged : Str}
      {answer : VerifierAnswer} (answered : verifier.call c = .ok answer)
      (yes : answer.ok = true) (rung : c.state ∈ ladder) :
      Effect c (.verifyIndependently verifier observed reason)
        ((c.record (verifierRecord verifier answer)).move .verified logged) true
  | recorded {verifier : Verifier} {observed : Option (Dict Str Str)} {reason : Str}
      {answer : VerifierAnswer} (answered : verifier.call c = .ok answer)
      (yes : answer.ok = true) (side : c.state ∈ terminal) :
      Effect c (.verifyIndependently verifier observed reason)
        (c.record (verifierRecord verifier answer)) false

/-- The self-certification guard and the table, together. -/
def Open (c : Claim) (target : State) (independent : Bool) : Prop :=
  (target = .verified → c.state = .verified ∨ independent = true) ∧
    allowed c.state target = true

theorem transition_open (c : Claim) (target : State) (reason : Str) (independent : Bool)
    (passes : Open c target independent) :
    transition c target.name reason independent = (c.move target reason, .ok ()) := by
  unfold transition
  simp only [State.name_injective.eq_iff, parse_name]
  rw [if_neg, if_pos passes.2]
  rintro ⟨top, unearned, actor⟩
  rcases passes.1 top with earned | verifier
  · exact unearned earned
  · rw [actor] at verifier
    cases verifier

theorem transition_closed (c : Claim) (target : State) (reason : Str) (independent : Bool)
    (stops : ¬ Open c target independent) :
    ∃ e, transition c target.name reason independent = (c, .error e) := by
  unfold transition
  simp only [State.name_injective.eq_iff, parse_name]
  split
  · exact ⟨_, rfl⟩
  · rename_i guard
    have illegal : ¬ allowed c.state target = true := by
      intro legal
      refine stops ⟨?_, legal⟩
      intro top
      by_contra closed
      rw [not_or] at closed
      exact guard ⟨top, closed.1, by simpa using closed.2⟩
    rw [if_neg illegal]
    exact ⟨_, rfl⟩

theorem open_terminal (c : Claim) (target : State) (independent : Bool)
    (side : target ∈ terminal) : Open c target independent := by
  refine ⟨?_, allowed_terminal _ _ side⟩
  rintro rfl
  exact absurd side (by decide)

theorem transition_effect (c : Claim) (target reason : Str) :
    Effect c (.transition target reason) (transition c target reason false).1
      (transition c target reason false).2.isOk := by
  cases parsed : State.parse target with
  | error e =>
      have stuck : ∃ e', transition c target reason false = (c, .error e') := by
        unfold transition
        split
        · exact ⟨_, rfl⟩
        · simp only [parsed]
          exact ⟨_, rfl⟩
      obtain ⟨e', same⟩ := stuck
      rw [same]
      exact .refused _
  | ok state =>
      have name := parse_ok parsed
      subst name
      by_cases passes : Open c state false
      · rw [transition_open c state reason false passes]
        exact .moved passes.2 (fun top => by simpa using passes.1 top)
      · obtain ⟨e, same⟩ := transition_closed c state reason false passes
        rw [same]
        exact .refused _

theorem bind_effect (c : Claim) (role digest : Value) :
    Effect c (.bind role digest) (bind c role digest).1 (bind c role digest).2.isOk := by
  unfold bind
  split
  · exact .bound (List.cons_ne_nil _ _) (List.cons_ne_nil _ _)
  · exact .refused _
  · exact .refused _

theorem attachEvidence_effect (c : Claim) (evidenceRef : Value) :
    Effect c (.attachEvidence evidenceRef) (attachEvidence c evidenceRef).1
      (attachEvidence c evidenceRef).2.isOk := by
  unfold attachEvidence
  split
  · exact .attached (List.cons_ne_nil _ _)
  · exact .refused _

theorem verifyIndependently_effect (c : Claim) (verifier : Verifier)
    (observed : Option (Dict Str Str)) (reason : Str) :
    Effect c (.verifyIndependently verifier observed reason)
      (verifyIndependently c verifier observed reason).1
      (verifyIndependently c verifier observed reason).2.isOk := by
  unfold verifyIndependently
  split
  · exact .refused _
  · split
    · exact .refused _
    · rename_i answer answered
      dsimp only
      split
      · rename_i no
        rw [transition_open _ _ _ _ (open_terminal _ _ _ (by decide))]
        exact .refuted answered no
      · rename_i notNo
        have yes : answer.ok = true := by simpa using notNo
        split
        · rw [transition_open _ _ _ _ (open_terminal _ _ _ (by decide))]
          exact .drifted answered yes
        · rcases ladder_or_terminal c.state with rung | side
          · rw [transition_open (c.record (verifierRecord verifier answer)) .verified _ true
              ⟨fun _ => Or.inr rfl, (allowed_verified_iff _).mpr rung⟩]
            exact .confirmed answered yes rung
          · obtain ⟨e, same⟩ := transition_closed (c.record (verifierRecord verifier answer))
              .verified (if reason = [] then "independent check confirmed" else reason) true
              (fun passes => terminal_not_ladder side ((allowed_verified_iff _).mp passes.2))
            rw [same]
            exact .recorded answered yes side

/-- The call returned instead of raising. -/
def returned (c : Claim) (op : Op) : Bool := (call c op).2.isOk

theorem step_effect (c : Claim) (op : Op) : Effect c op (step c op) (returned c op) := by
  cases op with
  | transition target reason => exact transition_effect c target reason
  | bind role digest => exact bind_effect c role digest
  | attachEvidence evidenceRef => exact attachEvidence_effect c evidenceRef
  | verifyIndependently verifier observed reason =>
      exact verifyIndependently_effect c verifier observed reason

/-- The log is a path through the table that ends at the current state. -/
structure Logged (c : Claim) : Prop where
  path : c.transitions.IsChain (fun a b => allowed a.target b.target = true)
  last : c.transitions.getLast?.map LogEntry.target = some c.state

/-- A verified claim carries the record of a verifier that answered ok. -/
structure Sound (c : Claim) : Prop extends Logged c where
  verified : c.state = .verified →
    ∃ record, c.independentVerification = some record ∧ record.ok = true

theorem newClaim_sound (claimId requirement : Str) (subjectDigest : Option Str) (actor : Str) :
    Sound (newClaim claimId requirement subjectDigest actor) where
  path := List.isChain_singleton _
  last := rfl
  verified := fun impossible => by cases impossible

theorem Logged.move {c : Claim} (logged : Logged c) {target : State} (reason : Str)
    (legal : allowed c.state target = true) : Logged (c.move target reason) where
  path := by
    refine List.IsChain.append logged.path (List.isChain_singleton _) ?_
    intro entry isLast next isNext
    have named := logged.last
    rw [Option.mem_def.mp isLast, Option.map_some, Option.some.injEq] at named
    have onlyNext : next = ⟨target, orNone reason⟩ := by simpa using isNext.symm
    rw [onlyNext, named]
    exact legal
  last := by simp [Claim.move]

theorem Logged.record {c : Claim} (logged : Logged c) (record : VerificationRecord) :
    Logged (c.record record) := ⟨logged.path, logged.last⟩

theorem Effect.sound {c next : Claim} {op : Op} {ok : Bool} (effect : Effect c op next ok) (sound : Sound c) :
    Sound next := by
  have logged := sound.toLogged
  cases effect with
  | refused => exact sound
  | moved legal earned =>
      exact ⟨logged.move _ legal, fun top => sound.verified (earned top)⟩
  | bound => exact ⟨⟨logged.path, logged.last⟩, sound.verified⟩
  | attached => exact ⟨⟨logged.path, logged.last⟩, sound.verified⟩
  | refuted answered no =>
      exact ⟨(logged.record _).move _ (allowed_terminal _ _ (by decide)),
        fun impossible => by cases impossible⟩
  | drifted answered yes =>
      exact ⟨(logged.record _).move _ (allowed_terminal _ _ (by decide)),
        fun impossible => by cases impossible⟩
  | confirmed answered yes rung =>
      exact ⟨(logged.record _).move _ ((allowed_verified_iff _).mpr rung), fun _ => ⟨_, rfl, yes⟩⟩
  | recorded answered yes side => exact ⟨logged.record _, fun _ => ⟨_, rfl, yes⟩⟩

theorem run_sound (claimId requirement : Str) (subjectDigest : Option Str) (actor : Str)
    (ops : List Op) :
    Sound (Machine.run step (newClaim claimId requirement subjectDigest actor) ops) :=
  Machine.run_invariant (fun c op sound => (step_effect c op).sound sound) _
    (newClaim_sound claimId requirement subjectDigest actor) ops

/-- The log grows by at most one entry, at its end, naming the new state. -/
theorem Effect.appends {c next : Claim} {op : Op} {ok : Bool} (effect : Effect c op next ok) :
    (next.transitions = c.transitions ∧ next.state = c.state) ∨
      ∃ reason, next.transitions = c.transitions ++ [⟨next.state, reason⟩] := by
  cases effect with
  | refused => exact Or.inl ⟨rfl, rfl⟩
  | bound => exact Or.inl ⟨rfl, rfl⟩
  | attached => exact Or.inl ⟨rfl, rfl⟩
  | recorded => exact Or.inl ⟨rfl, rfl⟩
  | moved => exact Or.inr ⟨_, rfl⟩
  | refuted => exact Or.inr ⟨_, rfl⟩
  | drifted => exact Or.inr ⟨_, rfl⟩
  | confirmed => exact Or.inr ⟨_, rfl⟩

theorem run_log_prefix (c : Claim) (ops : List Op) :
    c.transitions <+: (Machine.run step c ops).transitions := by
  refine Machine.run_invariant (I := fun d => c.transitions <+: d.transitions) ?_ c
    (List.prefix_refl _) ops
  intro d op reached
  rcases (step_effect d op).appends with ⟨same, -⟩ | ⟨reason, grown⟩
  · rw [same]
    exact reached
  · rw [grown]
    exact reached.trans (List.prefix_append _ _)

theorem Effect.terminal {c next : Claim} {op : Op} {ok : Bool} (effect : Effect c op next ok)
    (side : c.state ∈ terminal) : next.state ∈ terminal := by
  cases effect with
  | refused => exact side
  | bound => exact side
  | attached => exact side
  | recorded => exact side
  | moved legal => exact allowed_from_terminal side legal
  | refuted => show State.failed ∈ Verification.terminal; decide
  | drifted => show State.unknown ∈ Verification.terminal; decide
  | confirmed _ _ rung => exact absurd rung (terminal_not_ladder side)

/-- Only a verifier that answered ok brings VERIFIED into a claim that lacked it. -/
theorem Effect.verified_by {c next : Claim} {op : Op} {ok : Bool} (effect : Effect c op next ok)
    (before : c.state ≠ .verified) (after : next.state = .verified) :
    ∃ verifier observed reason answer, op = .verifyIndependently verifier observed reason ∧
      verifier.call c = .ok answer ∧ answer.ok = true := by
  cases effect with
  | refused => exact absurd after before
  | bound => exact absurd after before
  | attached => exact absurd after before
  | recorded => exact absurd after before
  | moved _ earned => exact absurd (earned after) before
  | refuted => cases after
  | drifted => cases after
  | confirmed answered yes _ => exact ⟨_, _, _, _, rfl, answered, yes⟩

theorem run_terminal (c : Claim) (side : c.state ∈ terminal) (ops : List Op) :
    (Machine.run step c ops).state ∈ terminal :=
  Machine.run_invariant (I := fun d => d.state ∈ terminal)
    (fun d op reached => (step_effect d op).terminal reached) c side ops

/-- The operation that put a VERIFIED entry behind an entry of another state. -/
def EarnedAt (start : Claim) (ops : List Op) (front : List LogEntry) (earlier entry : LogEntry) :
    Prop :=
  ∃ before op after, ops = before ++ op :: after ∧
    (Machine.run step start before).transitions = front ++ [earlier] ∧
    (step (Machine.run step start before) op).transitions = front ++ [earlier, entry] ∧
    ∃ verifier observed reason answer, op = .verifyIndependently verifier observed reason ∧
      verifier.call (Machine.run step start before) = .ok answer ∧ answer.ok = true

theorem EarnedAt.later {start : Claim} {ops : List Op} {front : List LogEntry}
    {earlier entry : LogEntry} (earned : EarnedAt start ops front earlier entry) (op : Op) :
    EarnedAt start (ops ++ [op]) front earlier entry := by
  obtain ⟨before, first, after, split, rest⟩ := earned
  exact ⟨before, first, after ++ [op], by rw [split]; simp, rest⟩

/-- Splitting a list that ends in `last` either splits before it or at it. -/
theorem split_concat {α : Type} {front back list : List α} {a b last : α}
    (split : list ++ [last] = front ++ a :: b :: back) :
    (∃ shorter, list = front ++ a :: b :: shorter) ∨
      (back = [] ∧ b = last ∧ list = front ++ [a]) := by
  rcases List.eq_nil_or_concat back with rfl | ⟨shorter, final, rfl⟩
  · have regrouped : list ++ [last] = (front ++ [a]) ++ [b] := by simpa using split
    obtain ⟨same, tail⟩ := List.append_inj' regrouped rfl
    exact Or.inr ⟨rfl, (List.cons.inj tail).1.symm, same⟩
  · have regrouped : list ++ [last] = (front ++ a :: b :: shorter) ++ [final] := by
      simpa using split
    exact Or.inl ⟨shorter, (List.append_inj' regrouped rfl).1⟩

theorem earned_of_split (start : Claim) (sound : Sound start)
    (single : start.transitions.length = 1) (ops : List Op) :
    ∀ front earlier entry back,
      (Machine.run step start ops).transitions = front ++ earlier :: entry :: back →
      entry.target = .verified → earlier.target ≠ .verified →
      EarnedAt start ops front earlier entry := by
  induction ops using List.reverseRecOn with
  | nil =>
      intro front earlier entry back split
      have short := congrArg List.length split
      simp only [Machine.run_nil, single, List.length_append, List.length_cons] at short
      omega
  | append_singleton ops op ih =>
      intro front earlier entry back split top other
      rw [Machine.run_append, Machine.run_cons, Machine.run_nil] at split
      have effect := step_effect (Machine.run step start ops) op
      rcases effect.appends with ⟨same, -⟩ | ⟨reason, grown⟩
      · rw [same] at split
        exact (ih front earlier entry back split top other).later op
      · rw [grown] at split
        rcases split_concat split with ⟨shorter, inside⟩ | ⟨rfl, rfl, atEnd⟩
        · exact (ih front earlier entry shorter inside top other).later op
        · have here : Sound (Machine.run step start ops) :=
            Machine.run_invariant (fun c op sound => (step_effect c op).sound sound) _ sound ops
          have named := here.last
          rw [atEnd, List.getLast?_concat, Option.map_some, Option.some.injEq] at named
          refine ⟨ops, op, [], rfl, atEnd, ?_, effect.verified_by (named ▸ other) top⟩
          rw [grown, atEnd]
          simp

/-- The lifecycle over whole histories: VERIFIED rests on a positive record,
FAILED, BLOCKED and UNKNOWN are never left for the ladder, and the log is an
append-only path through the table on which VERIFIED is only ever earned. -/
theorem lifecycle_sound (claimId requirement : Str) (subjectDigest : Option Str) (actor : Str)
    (ops : List Op) :
    let start := newClaim claimId requirement subjectDigest actor
    let c := Machine.run step start ops
    (c.state = .verified →
      ∃ record, c.independentVerification = some record ∧ record.ok = true) ∧
    (c.state ∈ terminal → ∀ later, (Machine.run step c later).state ∉ ladder) ∧
    (∀ later, c.transitions <+: (Machine.run step c later).transitions) ∧
    (c.transitions.getLast?.map LogEntry.target = some c.state) ∧
    (c.transitions.IsChain (fun a b => canTransition a.target b.target.name = .ok true)) ∧
    (∀ front earlier entry back, c.transitions = front ++ earlier :: entry :: back →
      entry.target = .verified → earlier.target ≠ .verified →
      EarnedAt start ops front earlier entry) := by
  have sound := run_sound claimId requirement subjectDigest actor ops
  refine ⟨sound.verified, ?_, run_log_prefix _, sound.last, ?_, ?_⟩
  · intro side later
    exact terminal_not_ladder (run_terminal _ side later)
  · apply sound.path.imp
    intro a b legal
    rw [canTransition, parse_name, Except.map, legal]
  · exact earned_of_split _ (newClaim_sound claimId requirement subjectDigest actor) rfl ops

end DevGate.Verification
