import DevGate.Coherence.VerificationLifecycle

set_option autoImplicit false

/- Which claims the operations of verification.py can build, read off the claim alone. -/
namespace DevGate.Verification

open Py

/-- Built by some sequence of operations from a new claim. -/
def Produced (c : Claim) : Prop :=
  ∃ claimId requirement subjectDigest actor ops,
    c = Machine.run step (newClaim claimId requirement subjectDigest actor) ops

/-- A log entry and the next one. VERIFIED is entered with a reason. -/
def Follows (earlier entry : LogEntry) : Prop :=
  allowed earlier.target entry.target = true ∧
    (entry.target = .verified → earlier.target = .verified ∨ entry.reason ≠ none)

def created : LogEntry := ⟨.requested, some "created"⟩

/-- What the log says of the record of the last verifier. -/
def Recorded (log : List LogEntry) (state : State) : Option VerificationRecord → Prop
  | none => ∀ entry ∈ log, entry.target ≠ .verified
  | some record => (record.observation.truthy = true ∨ record.observation = .dict []) ∧
      if record.ok then (∃ entry ∈ log, entry.target = .verified) ∨ state ∈ terminal
      else ∃ entry ∈ log, entry.target = .failed ∧ entry.reason ≠ none

structure Lawful (c : Claim) : Prop where
  start : c.transitions.head? = some created
  path : c.transitions.IsChain Follows
  last : c.transitions.getLast?.map LogEntry.target = some c.state
  reasons : ∀ entry ∈ c.transitions, entry.reason ≠ some []
  recorded : Recorded c.transitions c.state c.independentVerification
  actor : c.actor ≠ some []
  roles : (c.boundDigests.map Prod.fst).Nodup
  bound : ∀ kv ∈ c.boundDigests, kv.1 ≠ [] ∧ kv.2 ≠ []
  refs : ∀ ref ∈ c.evidenceRefs, ref ≠ []

/-! Every operation keeps a claim lawful. -/

theorem orNone_ne (text : Str) : orNone text ≠ some [] := by
  unfold orNone
  split
  · exact nofun
  · rename_i filled
    exact fun same => filled (Option.some.inj same)

theorem orNone_getD {reason : Option Str} (stated : reason ≠ some []) :
    orNone (reason.getD []) = reason := by
  unfold orNone
  cases reason with
  | none => rfl
  | some text =>
      rw [Option.getD_some, if_neg]
      exact fun empty => stated (congrArg some empty)

theorem orNone_ne_none {text : Str} : orNone text ≠ none ↔ text ≠ [] := by
  unfold orNone
  split
  · rename_i empty
    simp [empty]
  · rename_i filled
    simp [filled]

theorem newClaim_lawful (claimId requirement : Str) (subjectDigest : Option Str) (actor : Str) :
    Lawful (newClaim claimId requirement subjectDigest actor) where
  start := rfl
  path := List.isChain_singleton _
  last := rfl
  reasons := by
    intro entry inside
    rw [List.mem_singleton.mp inside]
    decide
  recorded := by
    intro entry inside
    rw [List.mem_singleton.mp inside]
    decide
  actor := orNone_ne actor
  roles := List.nodup_nil
  bound := nofun
  refs := nofun

/-- A verifier's call logs its entry with a reason. -/
theorem verifyIndependently_logs (c : Claim) (verifier : Verifier)
    (observed : Option (Dict Str Str)) (reason : Str) :
    (verifyIndependently c verifier observed reason).1.transitions = c.transitions ∨
      ∃ entry, (verifyIndependently c verifier observed reason).1.transitions =
        c.transitions ++ [entry] ∧ entry.reason ≠ none := by
  have logs : ∀ (d : Claim) (target : State) (text : Str) (independent : Bool), text ≠ [] →
      (transition d target.name text independent).1.transitions = d.transitions ∨
        ∃ entry, (transition d target.name text independent).1.transitions =
          d.transitions ++ [entry] ∧ entry.reason ≠ none := by
    intro d target text independent stated
    by_cases passes : Open d target independent
    · rw [transition_open d target text independent passes]
      exact .inr ⟨_, rfl, orNone_ne_none.mpr stated⟩
    · obtain ⟨e, same⟩ := transition_closed d target text independent passes
      rw [same]
      exact .inl rfl
  have filled : ∀ default_ : Str, default_ ≠ [] → (if reason = [] then default_ else reason) ≠ [] := by
    intro default_ stated
    by_cases empty : reason = []
    · rw [if_pos empty]
      exact stated
    · rw [if_neg empty]
      exact empty
  unfold verifyIndependently
  split
  · exact .inl rfl
  · split
    · exact .inl rfl
    · dsimp only
      split
      · exact logs (c.record _) .failed _ false (filled _ (by decide))
      · split
        · exact logs (c.record _) .unknown _ false (by decide)
        · exact logs (c.record _) .verified _ true (filled _ (by decide))

theorem verified_logged {c : Claim} (last : c.transitions.getLast?.map LogEntry.target = some c.state)
    (top : c.state = .verified) : ∃ entry ∈ c.transitions, entry.target = .verified := by
  obtain ⟨entry, final, target⟩ := Option.map_eq_some_iff.mp last
  exact ⟨entry, List.mem_of_getLast? final, target.trans top⟩

/-- Moving on keeps what the log says of the record. -/
theorem Recorded.move {c : Claim} (lawful : Lawful c) {target : State} (reason : Str)
    (legal : allowed c.state target = true) (earned : target = .verified → c.state = .verified) :
    Recorded (c.move target reason).transitions target c.independentVerification := by
  have recorded := lawful.recorded
  show Recorded (c.transitions ++ [⟨target, orNone reason⟩]) target _
  cases record : c.independentVerification with
  | none =>
      rw [record] at recorded
      intro entry inside
      rcases List.mem_append.mp inside with before | here
      · exact recorded entry before
      · rw [List.mem_singleton.mp here]
        intro top
        obtain ⟨earlier, member, verified⟩ := verified_logged lawful.last (earned top)
        exact recorded earlier member verified
  | some r =>
      rw [record] at recorded
      refine ⟨recorded.1, ?_⟩
      have verdict := recorded.2
      by_cases ok : r.ok = true
      · rw [if_pos ok] at verdict ⊢
        rcases verdict with ⟨entry, member, top⟩ | side
        · exact .inl ⟨entry, List.mem_append_left _ member, top⟩
        · exact .inr (allowed_from_terminal side legal)
      · rw [if_neg ok] at verdict ⊢
        obtain ⟨entry, member, failed⟩ := verdict
        exact ⟨entry, List.mem_append_left _ member, failed⟩

theorem Lawful.extend {c next : Claim} (lawful : Lawful c) {entry : LogEntry}
    (grown : next.transitions = c.transitions ++ [entry]) (state : next.state = entry.target)
    (legal : allowed c.state entry.target = true)
    (earned : entry.target = .verified → c.state = .verified ∨ entry.reason ≠ none)
    (stated : entry.reason ≠ some [])
    (recorded : Recorded next.transitions next.state next.independentVerification)
    (rest : next.actor = c.actor ∧ next.boundDigests = c.boundDigests ∧
      next.evidenceRefs = c.evidenceRefs) : Lawful next where
  start := by
    rw [grown, List.head?_append, lawful.start]
    rfl
  path := by
    rw [grown]
    refine List.IsChain.append lawful.path (List.isChain_singleton _) ?_
    intro earlier isLast following isNext
    have named := lawful.last
    rw [Option.mem_def.mp isLast, Option.map_some, Option.some.injEq] at named
    have only : following = entry := by simpa using isNext.symm
    rw [only]
    unfold Follows
    rw [named]
    exact ⟨legal, earned⟩
  last := by
    rw [grown, List.getLast?_concat, state]
    rfl
  reasons := by
    intro other inside
    rw [grown] at inside
    rcases List.mem_append.mp inside with before | here
    · exact lawful.reasons other before
    · rw [List.mem_singleton.mp here]
      exact stated
  recorded := recorded
  actor := rest.1 ▸ lawful.actor
  roles := rest.2.1 ▸ lawful.roles
  bound := rest.2.1 ▸ lawful.bound
  refs := rest.2.2 ▸ lawful.refs

theorem verifierRecord_observation (verifier : Verifier) (answer : VerifierAnswer) :
    (verifierRecord verifier answer).observation.truthy = true ∨
      (verifierRecord verifier answer).observation = .dict [] := by
  unfold verifierRecord
  dsimp only
  split
  · rename_i truthy
    exact .inl truthy
  · exact .inr rfl

/-- The reason an entry that a verifier's call logged carries. -/
theorem logged_reason {c : Claim} {verifier : Verifier} {observed : Option (Dict Str Str)}
    {reason logged : Str} {target : State} {record : VerificationRecord}
    (called : step c (.verifyIndependently verifier observed reason) =
      (c.record record).move target logged) : orNone logged ≠ none := by
  have same : (verifyIndependently c verifier observed reason).1.transitions =
      c.transitions ++ [⟨target, orNone logged⟩] := congrArg Claim.transitions called
  rcases verifyIndependently_logs c verifier observed reason with still | ⟨entry, grown, stated⟩
  · rw [still, List.self_eq_append_right] at same
    cases same
  · rw [grown] at same
    have final := (List.append_inj' same rfl).2
    rw [List.singleton_inj] at final
    rw [final] at stated
    exact stated

theorem failed_terminal : State.failed ∈ terminal := by decide

theorem unknown_terminal : State.unknown ∈ terminal := by decide

theorem Effect.lawful {c : Claim} {op : Op} {ok : Bool} {next : Claim}
    (effect : Effect c op next ok) (called : step c op = next) (lawful : Lawful c) : Lawful next := by
  cases effect with
  | refused => exact lawful
  | moved legal earned =>
      exact lawful.extend rfl rfl legal (fun top => .inl (earned top)) (orNone_ne _)
        (Recorded.move lawful _ legal earned) ⟨rfl, rfl, rfl⟩
  | bound named given =>
      refine { lawful with roles := Dict.nodup_set lawful.roles _ _, bound := ?_ }
      intro kv inside
      rcases Dict.mem_set inside with same | before
      · rw [same]
        exact ⟨named, given⟩
      · exact lawful.bound kv before
  | attached given =>
      refine { lawful with refs := ?_ }
      intro ref inside
      rcases List.mem_append.mp inside with before | here
      · exact lawful.refs ref before
      · rw [List.mem_singleton.mp here]
        exact given
  | @refuted verifier observed reason logged answer answered no =>
      have stated := logged_reason called
      refine lawful.extend rfl rfl (allowed_terminal _ _ failed_terminal) nofun (orNone_ne _)
        ⟨verifierRecord_observation verifier answer, ?_⟩ ⟨rfl, rfl, rfl⟩
      have verdict : (verifierRecord verifier answer).ok = false := no
      rw [verdict]
      exact ⟨_, List.mem_append_right _ (List.mem_singleton.mpr rfl), rfl, stated⟩
  | @drifted verifier observed reason logged answer answered yes =>
      refine lawful.extend rfl rfl (allowed_terminal _ _ unknown_terminal) nofun (orNone_ne _)
        ⟨verifierRecord_observation verifier answer, ?_⟩ ⟨rfl, rfl, rfl⟩
      have verdict : (verifierRecord verifier answer).ok = true := yes
      rw [verdict]
      exact .inr unknown_terminal
  | @confirmed verifier observed reason logged answer answered yes rung =>
      have stated := logged_reason called
      refine lawful.extend rfl rfl ((allowed_verified_iff _).mpr rung) (fun _ => .inr stated)
        (orNone_ne _) ⟨verifierRecord_observation verifier answer, ?_⟩ ⟨rfl, rfl, rfl⟩
      have verdict : (verifierRecord verifier answer).ok = true := yes
      rw [verdict]
      exact .inl ⟨_, List.mem_append_right _ (List.mem_singleton.mpr rfl), rfl⟩
  | @recorded verifier observed reason answer answered yes side =>
      refine { lawful with recorded := ⟨verifierRecord_observation verifier answer, ?_⟩ }
      have verdict : (verifierRecord verifier answer).ok = true := yes
      rw [verdict]
      exact .inr side

theorem Produced.lawful {c : Claim} (produced : Produced c) : Lawful c := by
  obtain ⟨claimId, requirement, subjectDigest, actor, ops, rfl⟩ := produced
  exact Machine.run_invariant (fun d op lawful => (step_effect d op).lawful rfl lawful) _
    (newClaim_lawful claimId requirement subjectDigest actor) ops

/-! Every lawful claim is built: its anchors first, then its log entry by entry. -/

theorem Produced.step {c : Claim} (produced : Produced c) (op : Op) :
    Produced (Verification.step c op) := by
  obtain ⟨claimId, requirement, subjectDigest, actor, ops, rfl⟩ := produced
  refine ⟨claimId, requirement, subjectDigest, actor, ops ++ [op], ?_⟩
  rw [Machine.run_append, Machine.run_cons, Machine.run_nil]

theorem Produced.bind {c : Claim} (produced : Produced c) {role digest : Str} (named : role ≠ [])
    (given : digest ≠ []) :
    Produced { c with boundDigests := Dict.set c.boundDigests role digest } := by
  have next := produced.step (.bind (.str role) (.str digest))
  cases role with
  | nil => exact absurd rfl named
  | cons r role =>
      cases digest with
      | nil => exact absurd rfl given
      | cons d digest => exact next

theorem Produced.attach {c : Claim} (produced : Produced c) {ref : Str} (given : ref ≠ []) :
    Produced { c with evidenceRefs := c.evidenceRefs ++ [ref] } := by
  have next := produced.step (.attachEvidence (.str ref))
  cases ref with
  | nil => exact absurd rfl given
  | cons r ref => exact next

theorem Produced.binds {c : Claim} (produced : Produced c) (pairs : List (Str × Str))
    (filled : ∀ kv ∈ pairs, kv.1 ≠ [] ∧ kv.2 ≠ []) :
    Produced { c with
      boundDigests := pairs.foldl (fun d kv => Dict.set d kv.1 kv.2) c.boundDigests } := by
  induction pairs generalizing c with
  | nil => exact produced
  | cons kv rest ih =>
      have here := filled kv List.mem_cons_self
      exact ih (produced.bind here.1 here.2) (fun kv later => filled kv (List.mem_cons_of_mem _ later))

theorem Produced.attaches {c : Claim} (produced : Produced c) (refs : List Str)
    (filled : ∀ ref ∈ refs, ref ≠ []) :
    Produced { c with evidenceRefs := c.evidenceRefs ++ refs } := by
  induction refs generalizing c with
  | nil =>
      rw [List.append_nil]
      exact produced
  | cons ref rest ih =>
      have next := ih (produced.attach (filled ref List.mem_cons_self))
        (fun ref later => filled ref (List.mem_cons_of_mem _ later))
      rwa [List.append_assoc] at next

theorem Produced.move {c : Claim} (produced : Produced c) {target : State} {reason : Option Str}
    (legal : allowed c.state target = true) (earned : target = .verified → c.state = .verified)
    (stated : reason ≠ some []) :
    Produced { c with state := target, transitions := c.transitions ++ [⟨target, reason⟩] } := by
  have next : Produced (transition c target.name (reason.getD []) false).1 :=
    produced.step (.transition target.name (reason.getD []))
  rw [transition_open c target _ false ⟨fun top => .inl (earned top), legal⟩] at next
  unfold Claim.move at next
  rwa [orNone_getD stated] at next

/-- A verifier that gives the record's answer. -/
def witnessOf (record : VerificationRecord) : Verifier where
  name := record.verifier
  call := fun _ => .ok ⟨record.ok, record.observation, []⟩

theorem verifierRecord_witnessOf {record : VerificationRecord}
    (observed : record.observation.truthy = true ∨ record.observation = .dict []) :
    verifierRecord (witnessOf record) ⟨record.ok, record.observation, []⟩ = record := by
  unfold verifierRecord witnessOf
  cases record with
  | mk verifier ok observation =>
      rcases observed with truthy | empty
      · dsimp only at truthy ⊢
        rw [if_pos truthy]
      · dsimp only at empty ⊢
        rw [empty]
        rfl

theorem verifyIndependently_witnessOf (c : Claim) {record : VerificationRecord}
    (observed : record.observation.truthy = true ∨ record.observation = .dict []) {reason : Str}
    (stated : reason ≠ []) :
    verifyIndependently c (witnessOf record) none reason = transition (c.record record)
      (if record.ok then State.verified.name else State.failed.name) reason record.ok := by
  have fresh : ∀ d : Claim, stale d none = false := fun _ => rfl
  have answered : (witnessOf record).call c = .ok ⟨record.ok, record.observation, []⟩ := rfl
  unfold verifyIndependently
  rw [fresh, if_neg Bool.false_ne_true, answered]
  dsimp only
  rw [verifierRecord_witnessOf observed, Option.map_none, fresh, if_neg Bool.false_ne_true,
    if_neg stated, if_neg stated]
  by_cases ok : record.ok = true
  · rw [ok, if_neg (by decide), if_pos rfl]
  · rw [Bool.not_eq_true] at ok
    rw [ok, if_pos rfl, if_neg (by decide)]

/-- The record is taken, and its verdict moves the claim where the table lets it. -/
theorem Produced.verify {c : Claim} (produced : Produced c) {record : VerificationRecord}
    (observed : record.observation.truthy = true ∨ record.observation = .dict []) {reason : Str}
    (stated : reason ≠ []) :
    Produced (transition (c.record record)
      (if record.ok then State.verified.name else State.failed.name) reason record.ok).1 := by
  rw [← verifyIndependently_witnessOf c observed stated]
  exact produced.step (.verifyIndependently (witnessOf record) none reason)

theorem Produced.confirm {c : Claim} (produced : Produced c) {record : VerificationRecord}
    (observed : record.observation.truthy = true ∨ record.observation = .dict [])
    (ok : record.ok = true) (rung : c.state ∈ ladder) {reason : Option Str} (stated : reason ≠ some [])
    (given : reason ≠ none) :
    Produced { c with
      state := .verified
      independentVerification := some record
      transitions := c.transitions ++ [⟨.verified, reason⟩] } := by
  cases reason with
  | none => exact absurd rfl given
  | some text =>
      have filled : text ≠ [] := fun empty => stated (congrArg some empty)
      have next := produced.verify observed filled
      rw [ok, if_pos rfl, transition_open (c.record record) .verified text true
        ⟨fun _ => .inr rfl, (allowed_verified_iff _).mpr rung⟩] at next
      unfold Claim.move orNone at next
      rwa [if_neg filled] at next

theorem Produced.refute {c : Claim} (produced : Produced c) {record : VerificationRecord}
    (observed : record.observation.truthy = true ∨ record.observation = .dict [])
    (no : record.ok = false) {reason : Option Str} (stated : reason ≠ some [])
    (given : reason ≠ none) :
    Produced { c with
      state := .failed
      independentVerification := some record
      transitions := c.transitions ++ [⟨.failed, reason⟩] } := by
  cases reason with
  | none => exact absurd rfl given
  | some text =>
      have filled : text ≠ [] := fun empty => stated (congrArg some empty)
      have next := produced.verify observed filled
      rw [no, if_neg (by decide), transition_open (c.record record) .failed text false
        (open_terminal _ _ _ failed_terminal)] at next
      unfold Claim.move orNone at next
      rwa [if_neg filled] at next

/-- From a terminal state the record is taken and the move is refused. -/
theorem Produced.note {c : Claim} (produced : Produced c) {record : VerificationRecord}
    (observed : record.observation.truthy = true ∨ record.observation = .dict [])
    (ok : record.ok = true) (side : c.state ∈ terminal) :
    Produced { c with independentVerification := some record } := by
  have next := @Produced.verify c produced record observed "checked" (by decide)
  obtain ⟨e, refused⟩ := transition_closed (c.record record) .verified "checked" true
    (fun passes => terminal_not_ladder side ((allowed_verified_iff _).mp passes.2))
  rw [ok, if_pos rfl, refused] at next
  exact next

/-- The claim with this log and record. -/
def Claim.withLog (c : Claim) (log : List LogEntry) (record : Option VerificationRecord) : Claim :=
  { c with
    state := (log.getLast?.map LogEntry.target).getD .requested
    transitions := log
    independentVerification := record }

structure Written (log : List LogEntry) : Prop where
  start : log.head? = some created
  path : log.IsChain Follows
  reasons : ∀ entry ∈ log, entry.reason ≠ some []

/-- A log is the first entry alone, or a log and an entry that follows its last. -/
theorem Written.concat {front : List LogEntry} {entry : LogEntry} (written : Written (front ++ [entry])) :
    (front = [] ∧ entry = created) ∨ ∃ last, front.getLast? = some last ∧ Written front ∧
      Follows last entry ∧ entry.reason ≠ some [] := by
  obtain ⟨start, path, reasons⟩ := written
  cases front with
  | nil => exact .inl ⟨rfl, Option.some.inj start⟩
  | cons first rest =>
      obtain ⟨before, -, joined⟩ := List.isChain_append.mp path
      have final := List.getLast?_eq_some_getLast (List.cons_ne_nil first rest)
      refine .inr ⟨_, final, ⟨start, before, ?_⟩, joined _ final entry rfl, ?_⟩
      · intro other inside
        exact reasons other (List.mem_append_left _ inside)
      · exact reasons entry (List.mem_append_right _ List.mem_cons_self)

/-- Behind VERIFIED come VERIFIED and the terminal states only. -/
theorem Written.after_verified {log : List LogEntry} (written : Written log)
    (verified : ∃ entry ∈ log, entry.target = .verified) {last : LogEntry}
    (final : log.getLast? = some last) : last.target = .verified ∨ last.target ∈ terminal := by
  induction log using List.reverseRecOn generalizing last with
  | nil => cases final
  | append_singleton front entry ih =>
      rw [List.getLast?_concat, Option.some.injEq] at final
      subst final
      obtain ⟨other, member, top⟩ := verified
      rcases List.mem_append.mp member with before | here
      · rcases written.concat with ⟨empty, -⟩ | ⟨earlier, final, written', follows, -⟩
        · rw [empty] at before
          cases before
        · rcases ih written' ⟨other, before, top⟩ final with same | side
          · have legal := follows.1
            rw [same] at legal
            revert legal
            cases entry.target <;> decide
          · exact .inr (allowed_from_terminal side follows.1)
      · rw [List.mem_singleton.mp here] at top
        exact .inl top

theorem Written.after_terminal {log : List LogEntry} (written : Written log)
    (stopped : ∃ entry ∈ log, entry.target ∈ terminal) {last : LogEntry}
    (final : log.getLast? = some last) : last.target ∈ terminal := by
  induction log using List.reverseRecOn generalizing last with
  | nil => cases final
  | append_singleton front entry ih =>
      rw [List.getLast?_concat, Option.some.injEq] at final
      subst final
      obtain ⟨other, member, side⟩ := stopped
      rcases List.mem_append.mp member with before | here
      · rcases written.concat with ⟨empty, -⟩ | ⟨earlier, final, written', follows, -⟩
        · rw [empty] at before
          cases before
        · exact allowed_from_terminal (ih written' ⟨other, before, side⟩ final) follows.1
      · rwa [← List.mem_singleton.mp here]

theorem withLog_state (c : Claim) {log : List LogEntry} {last : LogEntry}
    (final : log.getLast? = some last) (record : Option VerificationRecord) :
    (c.withLog log record).state = last.target := by
  unfold Claim.withLog
  rw [final]
  rfl

theorem withLog_concat (c : Claim) (front : List LogEntry) (entry : LogEntry)
    (before record : Option VerificationRecord) :
    c.withLog (front ++ [entry]) record = { c.withLog front before with
      state := entry.target
      independentVerification := record
      transitions := (c.withLog front before).transitions ++ [⟨entry.target, entry.reason⟩] } := by
  unfold Claim.withLog
  rw [List.getLast?_concat]
  rfl

section

variable {c : Claim} (fresh : Produced (c.withLog [created] none))

include fresh

/-- No verifier has answered. -/
theorem Written.unanswered {log : List LogEntry} (written : Written log)
    (unverified : ∀ entry ∈ log, entry.target ≠ .verified) : Produced (c.withLog log none) := by
  induction log using List.reverseRecOn with
  | nil => cases written.start
  | append_singleton front entry ih =>
      rcases written.concat with ⟨rfl, rfl⟩ | ⟨last, final, written', follows, stated⟩
      · exact fresh
      · have before := ih written' (fun other inside =>
          unverified other (List.mem_append_left _ inside))
        rw [withLog_concat c front entry none none]
        refine before.move ?_ ?_ stated
        · rw [withLog_state c final]
          exact follows.1
        · intro top
          exact absurd top (unverified entry (List.mem_append_right _ List.mem_cons_self))

/-- The record's verifier answered ok where the log first names VERIFIED. -/
theorem Written.confirmed {log : List LogEntry} (written : Written log) {record : VerificationRecord}
    (observed : record.observation.truthy = true ∨ record.observation = .dict [])
    (ok : record.ok = true) (verified : ∃ entry ∈ log, entry.target = .verified) :
    Produced (c.withLog log (some record)) := by
  induction log using List.reverseRecOn with
  | nil => cases written.start
  | append_singleton front entry ih =>
      rcases written.concat with ⟨rfl, rfl⟩ | ⟨last, final, written', follows, stated⟩
      · obtain ⟨other, inside, top⟩ := verified
        rw [List.mem_singleton.mp inside] at top
        cases top
      · by_cases already : ∃ other ∈ front, other.target = .verified
        · rw [withLog_concat c front entry (some record) (some record)]
          refine (ih written' already).move ?_ ?_ stated
          · rw [withLog_state c final]
            exact follows.1
          · intro top
            rw [withLog_state c final]
            rcases written'.after_verified already final with same | side
            · exact same
            · have still := allowed_from_terminal side follows.1
              rw [top] at still
              exact absurd still (by decide)
        · have unverified : ∀ other ∈ front, other.target ≠ .verified :=
            fun other inside top => already ⟨other, inside, top⟩
          have top : entry.target = .verified := by
            obtain ⟨other, inside, top⟩ := verified
            rcases List.mem_append.mp inside with before | here
            · exact absurd top (unverified other before)
            · rwa [← List.mem_singleton.mp here]
          have legal := follows.1
          rw [top, allowed_verified_iff] at legal
          rw [withLog_concat c front entry none (some record), top]
          refine (written'.unanswered fresh unverified).confirm observed ok ?_ stated ?_
          · rw [withLog_state c final]
            exact legal
          · rcases follows.2 top with same | given
            · exact absurd same (unverified last (List.mem_of_getLast? final))
            · exact given

/-- The record's verifier answered no at a FAILED entry with a reason. -/
theorem Written.refuted {log : List LogEntry} (written : Written log) {record : VerificationRecord}
    (observed : record.observation.truthy = true ∨ record.observation = .dict [])
    (no : record.ok = false)
    (failed : ∃ entry ∈ log, entry.target = .failed ∧ entry.reason ≠ none) :
    Produced (c.withLog log (some record)) := by
  have behind : ∀ {front : List LogEntry}, Written front →
      ∃ before, Produced (c.withLog front before) := by
    intro front written'
    by_cases already : ∃ other ∈ front, other.target = .verified
    · exact ⟨some ⟨"verifier", true, .dict []⟩, written'.confirmed fresh (.inr rfl) rfl already⟩
    · exact ⟨none, written'.unanswered fresh (fun other inside top => already ⟨other, inside, top⟩)⟩
  induction log using List.reverseRecOn with
  | nil => cases written.start
  | append_singleton front entry ih =>
      rcases written.concat with ⟨rfl, rfl⟩ | ⟨last, final, written', follows, stated⟩
      · obtain ⟨other, inside, side, -⟩ := failed
        rw [List.mem_singleton.mp inside] at side
        cases side
      · by_cases already : ∃ other ∈ front, other.target = .failed ∧ other.reason ≠ none
        · have stopped : ∃ other ∈ front, other.target ∈ terminal := by
            obtain ⟨other, inside, side, -⟩ := already
            exact ⟨other, inside, side ▸ failed_terminal⟩
          have side := written'.after_terminal stopped final
          rw [withLog_concat c front entry (some record) (some record)]
          refine (ih written' already).move ?_ ?_ stated
          · rw [withLog_state c final]
            exact follows.1
          · intro top
            have still := allowed_from_terminal side follows.1
            rw [top] at still
            exact absurd still (by decide)
        · obtain ⟨other, inside, side, given⟩ := failed
          rcases List.mem_append.mp inside with before | here
          · exact absurd ⟨other, before, side, given⟩ already
          · rw [List.mem_singleton.mp here] at side given
            obtain ⟨before, produced⟩ := behind written'
            rw [withLog_concat c front entry before (some record), side]
            exact produced.refute observed no stated given

end

theorem Lawful.produced {c : Claim} (lawful : Lawful c) : Produced c := by
  have written : Written c.transitions := ⟨lawful.start, lawful.path, lawful.reasons⟩
  have same : c.withLog c.transitions c.independentVerification = c := by
    unfold Claim.withLog
    rw [lawful.last]
    rfl
  have fresh : Produced (c.withLog [created] none) := by
    have new : Produced (newClaim c.claimId c.requirement c.subjectDigest (c.actor.getD [])) :=
      ⟨_, _, _, _, [], rfl⟩
    have anchored := (new.binds c.boundDigests lawful.bound).attaches c.evidenceRefs lawful.refs
    unfold newClaim at anchored
    rw [orNone_getD lawful.actor] at anchored
    have rebuilt : c.boundDigests.foldl (fun d kv => Dict.set d kv.1 kv.2) [] = c.boundDigests :=
      Dict.ofPairs_of_nodup lawful.roles
    dsimp only at anchored
    rw [rebuilt, List.nil_append] at anchored
    exact anchored
  have recorded := lawful.recorded
  rw [← same]
  cases record : c.independentVerification with
  | none =>
      rw [record] at recorded
      exact written.unanswered fresh recorded
  | some r =>
      rw [record] at recorded
      obtain ⟨observed, verdict⟩ := recorded
      by_cases ok : r.ok = true
      · rw [if_pos ok] at verdict
        by_cases verified : ∃ entry ∈ c.transitions, entry.target = .verified
        · exact written.confirmed fresh observed ok verified
        · have bare := written.unanswered fresh
            (fun entry inside top => verified ⟨entry, inside, top⟩)
          obtain ⟨last, final, target⟩ := Option.map_eq_some_iff.mp lawful.last
          have side := verdict.resolve_left verified
          refine bare.note observed ok ?_
          rw [withLog_state c final, target]
          exact side
      · rw [if_neg ok] at verdict
        rw [Bool.not_eq_true] at ok
        exact written.refuted fresh observed ok verdict

/-- The claims that operations build are the lawful ones. -/
theorem produced_iff (c : Claim) : Produced c ↔ Lawful c :=
  ⟨Produced.lawful, Lawful.produced⟩

end DevGate.Verification
