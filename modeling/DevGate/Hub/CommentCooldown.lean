import DevGate.Hub.Alerts

set_option autoImplicit false

/- The cooldown of recurrence comments: whether a comment was delivered before one is left out. -/
namespace DevGate.Hub.Alerts

open Py

/-- One alert, with what its requests are answered and its times. -/
abbrev Occurrence := Raised × Replies

def Notifier.raised (n : Notifier) (o : Occurrence) : Notifier := (n.raiseAlert o.1 o.2).2

/-- The open issue that is known of an alert, or that the search finds. -/
def Notifier.known (n : Notifier) (a : Raised) (r : Replies) : Option Nat :=
  match n.cached a.repo a.title with
  | some number => some number
  | none =>
      match r.search with
      | .items first => first
      | _ => none

/-- The alert meets an open issue, and no comment is asked for. -/
def Suppresses (n : Notifier) (o : Occurrence) : Prop :=
  n.token ≠ [] ∧ (n.known o.1 o.2).isSome = true ∧
    ∀ repo number body reply, Call.comment repo number body reply ∉ (n.raiseAlert o.1 o.2).1

/-- One of the alerts of a run posted a comment for the key, less than the cooldown before `now`. -/
def Delivered (n : Notifier) (past : List Occurrence) (key : IssueKey) (now : Rat) : Prop :=
  ∃ before o after, past = before ++ o :: after ∧ o.1.key = key ∧
    (∃ number body, Call.comment o.1.repo number body .posted ∈
      ((Machine.run Notifier.raised n before).raiseAlert o.1 o.2).1) ∧
    (Json.double (now - o.2.monotonic)).lt n.cooldownSec = true

/-- A comment is suppressed only after one was delivered within the cooldown. -/
def Justified (n : Notifier) (run : List Occurrence) : Prop :=
  ∀ past o future, run = past ++ o :: future →
    Suppresses (Machine.run Notifier.raised n past) o →
      Delivered n past o.1.key o.2.monotonic

/-- An alert asks for a comment: it meets an open issue, outside the cooldown. -/
def Attempts (n : Notifier) (o : Occurrence) : Prop :=
  n.token ≠ [] ∧ (n.known o.1 o.2).isSome = true ∧ n.cooling o.1.key o.2.monotonic = false

/-- A comment that is asked for is not answered with an HTTP error. -/
def Answered (n : Notifier) (o : Occurrence) : Prop := Attempts n o → o.2.comment ≠ .httpError

section

variable {n : Notifier} {o : Occurrence}

/-- The search changes nothing but the table of issues. -/
theorem Notifier.remember_frame (n : Notifier) (key : Option IssueKey) (number : Nat) :
    (n.remember key number).lastComment = n.lastComment ∧
      (n.remember key number).cooldownSec = n.cooldownSec := by
  cases key <;> exact ⟨rfl, rfl⟩

/-- An alert that meets an open issue goes on to the recurrence branch. -/
theorem raiseAlert_known {number : Nat} (token : n.token ≠ [])
    (known : n.known o.1 o.2 = some number) :
    ∃ (calls : List Call) (n' : Notifier), n'.lastComment = n.lastComment ∧ n'.cooldownSec = n.cooldownSec ∧
      (∀ repo at_ body reply, Call.comment repo at_ body reply ∉ calls) ∧
      n.raiseAlert o.1 o.2 =
        (calls ++ (n'.recur o.1 number o.2).1, (n'.recur o.1 number o.2).2) := by
  unfold Notifier.known at known
  unfold Notifier.raiseAlert Notifier.findOpenIssue
  rw [if_neg token]
  cases cached : n.cached o.1.repo o.1.title with
  | some held =>
      rw [cached] at known
      cases known
      exact ⟨[], n, rfl, rfl, by simp, rfl⟩
  | none =>
      rw [cached] at known
      dsimp only at known ⊢
      cases search : o.2.search with
      | httpError =>
          rw [search] at known
          cases known
      | failed =>
          rw [search] at known
          cases known
      | items first =>
          rw [search] at known
          dsimp only at known
          subst known
          obtain ⟨comments, window⟩ := n.remember_frame (keyFromTitle o.1.repo o.1.title) number
          exact ⟨_, _, comments, window, by simp, rfl⟩

/-- An alert that knows of no issue comments on none. -/
theorem raiseAlert_unknown (unknown : n.token = [] ∨ n.known o.1 o.2 = none) :
    (n.raised o).lastComment = n.lastComment ∧ (n.raised o).cooldownSec = n.cooldownSec := by
  unfold Notifier.raised Notifier.raiseAlert
  by_cases token : n.token = []
  · rw [if_pos token]
    exact ⟨rfl, rfl⟩
  · rw [if_neg token]
    have unknown := unknown.resolve_left token
    unfold Notifier.known at unknown
    unfold Notifier.findOpenIssue
    cases cached : n.cached o.1.repo o.1.title with
    | some held =>
        rw [cached] at unknown
        cases unknown
    | none =>
        rw [cached] at unknown
        dsimp only at unknown ⊢
        have filed : (n.fileIssue o.1 o.2).2.lastComment = n.lastComment ∧
            (n.fileIssue o.1 o.2).2.cooldownSec = n.cooldownSec := by
          unfold Notifier.fileIssue
          cases o.2.file <;> exact ⟨rfl, rfl⟩
        cases search : o.2.search with
        | httpError => exact filed
        | failed => exact ⟨rfl, rfl⟩
        | items first =>
            rw [search] at unknown
            dsimp only at unknown
            subst unknown
            exact filed

/-- Inside the cooldown the recurrence branch does nothing. -/
theorem cooling_congr {n' : Notifier} (comments : n'.lastComment = n.lastComment)
    (window : n'.cooldownSec = n.cooldownSec) (key : IssueKey) (now : Rat) :
    n'.cooling key now = n.cooling key now := by
  unfold Notifier.cooling
  rw [comments, window]

theorem raiseAlert_suppressed (suppresses : Suppresses n o) :
    n.cooling o.1.key o.2.monotonic = true := by
  obtain ⟨token, known, silent⟩ := suppresses
  obtain ⟨number, known⟩ := Option.isSome_iff_exists.mp known
  obtain ⟨calls, n', comments, window, -, ran⟩ := raiseAlert_known token known
  rw [← cooling_congr comments window]
  by_contra outside
  rw [ran] at silent
  apply silent o.1.repo number (formatBody o.1 o.2.now) o.2.comment
  unfold Notifier.recur
  rw [if_neg outside]
  simp

/-- What an alert does to the times of the comments: it records its own where it asked for a comment
and got an answer. -/
theorem raised_lastComment :
    (n.raised o).cooldownSec = n.cooldownSec ∧
      ((n.raised o).lastComment = n.lastComment ∨
        Attempts n o ∧ (o.2.comment = .posted ∨ o.2.comment = .httpError) ∧
          (n.raised o).lastComment = Dict.set n.lastComment o.1.key o.2.monotonic ∧
          ∃ number body, Call.comment o.1.repo number body o.2.comment ∈
            (n.raiseAlert o.1 o.2).1) := by
  by_cases token : n.token = []
  · obtain ⟨comments, window⟩ := raiseAlert_unknown (Or.inl token)
    exact ⟨window, Or.inl comments⟩
  · cases known : n.known o.1 o.2 with
    | none =>
        obtain ⟨comments, window⟩ := raiseAlert_unknown (Or.inr known)
        exact ⟨window, Or.inl comments⟩
    | some number =>
        obtain ⟨calls, n', comments, window, -, ran⟩ := raiseAlert_known token known
        unfold Notifier.raised
        rw [ran]
        dsimp only
        unfold Notifier.recur
        split
        · exact ⟨window, Or.inl comments⟩
        · rename_i outside
          rw [cooling_congr comments window, Bool.not_eq_true] at outside
          have attempts : Attempts n o := ⟨token, by rw [known]; rfl, outside⟩
          cases reply : o.2.comment with
          | failed => exact ⟨window, Or.inl comments⟩
          | posted =>
              refine ⟨window, Or.inr ⟨attempts, Or.inl rfl, ?_, number, formatBody o.1 o.2.now, by simp⟩⟩
              exact congrArg (fun d => Dict.set d o.1.key o.2.monotonic) comments
          | httpError =>
              refine ⟨window, Or.inr ⟨attempts, Or.inr rfl, ?_, number, formatBody o.1 o.2.now, by simp⟩⟩
              exact congrArg (fun d => Dict.set d o.1.key o.2.monotonic) comments

end

/-- The recorded time of a key is that of an alert whose comment was posted. -/
structure Recorded (n : Notifier) (past : List Occurrence) : Prop where
  window : (Machine.run Notifier.raised n past).cooldownSec = n.cooldownSec
  posted : ∀ key last,
    Dict.get? (Machine.run Notifier.raised n past).lastComment key = some last →
      ∃ before o after, past = before ++ o :: after ∧ o.1.key = key ∧ o.2.monotonic = last ∧
        ∃ number body, Call.comment o.1.repo number body .posted ∈
          ((Machine.run Notifier.raised n before).raiseAlert o.1 o.2).1

theorem run_concat (n : Notifier) (past : List Occurrence) (o : Occurrence) :
    Machine.run Notifier.raised n (past ++ [o]) = (Machine.run Notifier.raised n past).raised o := by
  rw [Machine.run_append]
  rfl

theorem Recorded.extend {n : Notifier} {past : List Occurrence} {o : Occurrence}
    (recorded : Recorded n past) (answered : Answered (Machine.run Notifier.raised n past) o) :
    Recorded n (past ++ [o]) := by
  have older : ∀ key last,
      Dict.get? (Machine.run Notifier.raised n past).lastComment key = some last →
        ∃ before p after, past ++ [o] = before ++ p :: after ∧ p.1.key = key ∧
          p.2.monotonic = last ∧ ∃ number body, Call.comment p.1.repo number body .posted ∈
            ((Machine.run Notifier.raised n before).raiseAlert p.1 p.2).1 := by
    intro key last held
    obtain ⟨before, p, after, rfl, about, at_, call⟩ := recorded.posted key last held
    exact ⟨before, p, after ++ [o], by simp, about, at_, call⟩
  obtain ⟨window, same | ⟨attempts, replied, grown, number, body, call⟩⟩ :=
    @raised_lastComment (Machine.run Notifier.raised n past) o
  · refine ⟨by rw [run_concat, window, recorded.window], ?_⟩
    rw [run_concat, same]
    exact older
  · refine ⟨by rw [run_concat, window, recorded.window], ?_⟩
    rw [run_concat, grown]
    intro key last held
    by_cases own : key = o.1.key
    · subst own
      rw [Dict.get?_set_self, Option.some.injEq] at held
      have posted : o.2.comment = .posted := replied.resolve_right (answered attempts)
      rw [posted] at call
      exact ⟨past, o, [], rfl, rfl, held, number, body, call⟩
    · rw [Dict.get?_set_of_ne _ _ _ _ (Ne.symm own)] at held
      exact older key last held

/-- `GitHubIssueNotifier(…)`. -/
def Notifier.make (token : Str) (cooldownSec : Flt) : Notifier := ⟨token, cooldownSec, [], []⟩

theorem recorded_of_answered {token : Str} {cooldownSec : Flt} (past : List Occurrence)
    (answered : Machine.Allows Notifier.raised Answered (Notifier.make token cooldownSec) past) :
    Recorded (Notifier.make token cooldownSec) past := by
  induction past using List.reverseRecOn with
  | nil => exact ⟨rfl, fun key last held => by cases held⟩
  | append_singleton past o ih =>
      have earlier : Machine.Allows Notifier.raised Answered (Notifier.make token cooldownSec) past := by
        rintro before p after rfl
        exact answered before p (after ++ [o]) (by simp)
      exact (ih earlier).extend (answered past o [] rfl)

/-- Where no comment of a run is answered with an HTTP error, every comment left out follows one that
was posted within the cooldown. -/
theorem suppressed_after_delivery (token : Str) (cooldownSec : Flt) (run : List Occurrence)
    (answered : Machine.Allows Notifier.raised Answered (Notifier.make token cooldownSec) run) :
    Justified (Notifier.make token cooldownSec) run := by
  rintro past o future rfl suppresses
  have earlier : Machine.Allows Notifier.raised Answered (Notifier.make token cooldownSec) past := by
    rintro before p after rfl
    exact answered before p (after ++ o :: future) (by simp)
  have recorded := recorded_of_answered past earlier
  have cooling := raiseAlert_suppressed suppresses
  unfold Notifier.cooling at cooling
  split at cooling
  · rename_i last held
    obtain ⟨before, p, after, split, about, at_, call⟩ := recorded.posted _ _ held
    refine ⟨before, p, after, split, about, call, ?_⟩
    rw [at_, ← recorded.window]
    exact cooling
  · cases cooling

/-- A runner that went down, at a time of the monotonic clock. -/
def downAt (monotonic : Rat) (comment : Commented) : Occurrence :=
  (⟨"o/r", "runner", "r1", "offline"⟩,
    ⟨.items (some 7), .failed, comment, monotonic, ⟨2026, 1, 1, 0, 0, 0⟩⟩)

theorem suppressed_after_delivery_hourly :
    Justified (Notifier.make "t" (.fin 3600)) [downAt 0 .posted, downAt 60 .posted] := by
  apply suppressed_after_delivery
  intro before o after split attempts
  have member : o ∈ [downAt 0 .posted, downAt 60 .posted] := by simp [split]
  simp only [List.mem_cons, List.not_mem_nil, or_false] at member
  rcases member with rfl | rfl <;> nofun

/-- GitHub refuses the first comment, and the second is left out all the same. -/
theorem refused_comment_silences :
    ¬ Justified (Notifier.make "t" (.fin 3600)) [downAt 0 .httpError, downAt 60 .posted] := by
  intro justified
  have suppresses : Suppresses (Machine.run Notifier.raised (Notifier.make "t" (.fin 3600))
      [downAt 0 .httpError]) (downAt 60 .posted) := by
    have silent : ((Machine.run Notifier.raised (Notifier.make "t" (.fin 3600))
        [downAt 0 .httpError]).raiseAlert (downAt 60 .posted).1 (downAt 60 .posted).2).1 = [] := by
      decide +kernel
    refine ⟨by decide, by decide, ?_⟩
    rw [silent]
    simp
  obtain ⟨before, o, after, split, -, ⟨number, body, call⟩, -⟩ :=
    justified [downAt 0 .httpError] _ [] rfl suppresses
  cases before with
  | cons p before => simp at split
  | nil =>
      cases split
      have calls : ((Notifier.make "t" (.fin 3600)).raiseAlert (downAt 0 .httpError).1
          (downAt 0 .httpError).2).1 =
            [.search "o/r" (downAt 0 .httpError).1.title (.items (some 7)),
              .comment "o/r" 7 (formatBody (downAt 0 .httpError).1 ⟨2026, 1, 1, 0, 0, 0⟩)
                .httpError] := rfl
      rw [Machine.run_nil, calls] at call
      simp at call

end DevGate.Hub.Alerts
