import DevGate.Hub.Alerts

set_option autoImplicit false

/- One open issue per alert key: which alerts keep it, in any history of the issues. -/
namespace DevGate.Hub.Alerts

open Py

/-- The number is that of an open issue with exactly this title. -/
def IsOpen (issues : List Issue) (repo : Str) (number : Nat) (title : Str) : Prop :=
  ⟨repo, number, title, true⟩ ∈ issues

/-- Some open issue has exactly this title. -/
def HasOpen (issues : List Issue) (repo title : Str) : Prop := ∃ number, IsOpen issues repo number title

/-- The request was answered without an error. -/
def Call.Fine : Call → Prop
  | .search _ _ reply => ∃ first, reply = .items first
  | .file _ _ _ reply => ∃ number, reply = .created number
  | .comment _ _ _ reply => reply = .posted

/-- What an alert owes its key: no second issue, no comment on an issue that is
closed or another key's, and without errors an open issue at its end. -/
structure OneIssue (d : Desk) (a : Raised) (r : Replies) : Prop where
  second : ∀ repo title body number,
    Call.file repo title body (.created number) ∈ (d.notifier.raiseAlert a r).1 →
      ¬ HasOpen d.issues repo title
  comment : ∀ repo number body reply,
    Call.comment repo number body reply ∈ (d.notifier.raiseAlert a r).1 →
      repo = a.repo ∧ IsOpen d.issues repo number a.title
  delivered : (∀ call ∈ (d.notifier.raiseAlert a r).1, call.Fine) →
    HasOpen (d.step (.alert a r)).issues a.repo a.title

def Keeps (d : Desk) : Event → Prop
  | .alert a r => OneIssue d a r
  | _ => True

/-- A number to comment on is that of the key's own open issue; within the
cooldown some open issue has the title. -/
def Trusted (d : Desk) (a : Raised) (r : Replies) (number : Nat) : Prop :=
  if d.notifier.cooling a.key r.monotonic then HasOpen d.issues a.repo a.title
  else IsOpen d.issues a.repo number a.title

/-- What the notifier knows of the key, or the search tells it, is so: a cached
number or a first hit is the key's own open issue, and where a search finds
nothing or fails and the creation goes through there is none. -/
def Informed (d : Desk) (a : Raised) (r : Replies) : Prop :=
  if d.notifier.token = [] then HasOpen d.issues a.repo a.title
  else
    match d.notifier.cached a.repo a.title, r.search with
    | some number, _ => Trusted d a r number
    | none, .items (some number) => Trusted d a r number
    | none, .failed => True
    | none, _ => (∃ number, r.file = .created number) → ¬ HasOpen d.issues a.repo a.title

def Known (d : Desk) : Event → Prop
  | .alert a r => Informed d a r
  | _ => True

section

variable {d : Desk} {a : Raised} {r : Replies} {calls : List Call}

theorem step_alert_issues : (d.step (.alert a r)).issues =
    (d.notifier.raiseAlert a r).1.foldl applyCall d.issues := rfl

/-- Searches and comments change no issue. -/
theorem foldl_applyCall (issues : List Issue)
    (others : ∀ call ∈ calls, ∀ repo title body reply, call ≠ .file repo title body reply) :
    calls.foldl applyCall issues = issues := by
  induction calls generalizing issues with
  | nil => rfl
  | cons call rest ih =>
      have here : applyCall issues call = issues := by
        cases call with
        | file repo title body reply =>
            exact absurd rfl (others _ List.mem_cons_self repo title body reply)
        | search repo title reply => rfl
        | comment repo number body reply => rfl
      rw [List.foldl_cons, here]
      exact ih issues (fun c member => others c (List.mem_cons_of_mem _ member))

/-- An alert that asks nothing, or only the search. -/
theorem oneIssue_idle (made : (d.notifier.raiseAlert a r).1 = calls)
    (searches : ∀ call ∈ calls, ∃ reply, call = .search a.repo a.title reply) :
    OneIssue d a r ↔ ((∀ call ∈ calls, call.Fine) → HasOpen d.issues a.repo a.title) := by
  have kept : (d.step (.alert a r)).issues = d.issues := by
    rw [step_alert_issues, made]
    refine foldl_applyCall _ (fun call member repo title body reply => ?_)
    obtain ⟨answer, rfl⟩ := searches call member
    simp
  constructor
  · intro one fine
    rw [← made] at fine
    exact kept ▸ one.delivered fine
  · intro has
    refine ⟨?_, ?_, ?_⟩
    · intro repo title body number member
      rw [made] at member
      obtain ⟨reply, same⟩ := searches _ member
      cases same
    · intro repo number body reply member
      rw [made] at member
      obtain ⟨reply, same⟩ := searches _ member
      cases same
    · intro fine
      rw [made] at fine
      rw [kept]
      exact has fine

/-- An alert that comments. -/
theorem oneIssue_comment {front : List Call} {number : Nat} {body : Str}
    (made : (d.notifier.raiseAlert a r).1 = front ++ [.comment a.repo number body r.comment])
    (searches : ∀ call ∈ front, ∃ reply, call = .search a.repo a.title reply) :
    OneIssue d a r ↔ IsOpen d.issues a.repo number a.title := by
  have kept : (d.step (.alert a r)).issues = d.issues := by
    rw [step_alert_issues, made]
    refine foldl_applyCall _ (fun call member repo title body reply => ?_)
    rcases List.mem_append.mp member with early | last
    · obtain ⟨answer, rfl⟩ := searches call early
      simp
    · rw [List.mem_singleton.mp last]
      simp
  constructor
  · intro one
    exact (one.comment a.repo number body r.comment (by rw [made]; simp)).2
  · intro isOpen
    refine ⟨?_, ?_, fun _ => kept ▸ ⟨number, isOpen⟩⟩
    · intro repo title body number member
      rw [made] at member
      rcases List.mem_append.mp member with early | last
      · obtain ⟨reply, same⟩ := searches _ early
        cases same
      · cases List.mem_singleton.mp last
    · intro repo number body reply member
      rw [made] at member
      rcases List.mem_append.mp member with early | last
      · obtain ⟨reply, same⟩ := searches _ early
        cases same
      · cases List.mem_singleton.mp last
        exact ⟨rfl, isOpen⟩

/-- An alert that files an issue. -/
theorem oneIssue_file {search : Searched} {body : Str}
    (made : (d.notifier.raiseAlert a r).1 =
      [.search a.repo a.title search, .file a.repo a.title body r.file]) :
    OneIssue d a r ↔ ((∃ number, r.file = .created number) → ¬ HasOpen d.issues a.repo a.title) := by
  constructor
  · rintro one ⟨number, created⟩
    exact one.second a.repo a.title body number (by rw [made, created]; simp)
  · intro none
    refine ⟨?_, ?_, ?_⟩
    · intro repo title body' number member
      rw [made] at member
      simp only [List.mem_cons, reduceCtorEq, Call.file.injEq, List.not_mem_nil, or_false,
        false_or] at member
      obtain ⟨rfl, rfl, -, created⟩ := member
      exact none ⟨number, created.symm⟩
    · intro repo number body' reply member
      rw [made] at member
      simp at member
    · intro fine
      obtain ⟨number, created⟩ := fine (.file a.repo a.title body r.file) (by rw [made]; simp)
      refine ⟨number, ?_⟩
      rw [step_alert_issues, made, created]
      simp [applyCall, IsOpen]

/-- The recurrence branch, after a search or none. -/
theorem oneIssue_recur {front : List Call} {number : Nat} {n : Notifier}
    (same : n.cooling a.key r.monotonic = d.notifier.cooling a.key r.monotonic)
    (made : (d.notifier.raiseAlert a r).1 = front ++ (n.recur a number r).1)
    (searches : ∀ call ∈ front, ∃ first, call = .search a.repo a.title (.items first)) :
    OneIssue d a r ↔ Trusted d a r number := by
  have searches' : ∀ call ∈ front, ∃ reply, call = .search a.repo a.title reply := by
    intro call member
    obtain ⟨first, rfl⟩ := searches call member
    exact ⟨_, rfl⟩
  unfold Trusted
  by_cases cooling : d.notifier.cooling a.key r.monotonic = true
  · rw [if_pos cooling]
    have quiet : (d.notifier.raiseAlert a r).1 = front := by
      rw [made, Notifier.recur, if_pos (same ▸ cooling), List.append_nil]
    rw [oneIssue_idle quiet searches']
    constructor
    · intro has
      refine has (fun call member => ?_)
      obtain ⟨first, rfl⟩ := searches call member
      exact ⟨first, rfl⟩
    · exact fun has _ => has
  · rw [if_neg cooling]
    have posts : (d.notifier.raiseAlert a r).1 =
        front ++ [.comment a.repo number (formatBody a r.now) r.comment] := by
      rw [made, Notifier.recur, if_neg (same ▸ cooling)]
    exact oneIssue_comment posts searches'

/-- One alert keeps one issue per key exactly where what the notifier knows is so. -/
theorem oneIssue_iff : OneIssue d a r ↔ Informed d a r := by
  unfold Informed
  by_cases silent : d.notifier.token = []
  · have idle : (d.notifier.raiseAlert a r).1 = [] := by rw [Notifier.raiseAlert, if_pos silent]
    rw [if_pos silent, oneIssue_idle idle (by simp)]
    simp
  · rw [if_neg silent]
    cases known : d.notifier.cached a.repo a.title with
    | some number =>
        have made : (d.notifier.raiseAlert a r).1 = [] ++ (d.notifier.recur a number r).1 := by
          simp [Notifier.raiseAlert, silent, Notifier.findOpenIssue, known]
        exact oneIssue_recur rfl made (by simp)
    | none =>
        cases found : r.search with
        | items first =>
            cases first with
            | some number =>
                have made : (d.notifier.raiseAlert a r).1 =
                    [.search a.repo a.title (.items (some number))] ++
                      ((d.notifier.remember (keyFromTitle a.repo a.title) number).recur
                        a number r).1 := by
                  simp [Notifier.raiseAlert, silent, Notifier.findOpenIssue, known, found]
                refine oneIssue_recur ?_ made (by simp)
                unfold Notifier.remember
                split <;> rfl
            | none =>
                have made : (d.notifier.raiseAlert a r).1 =
                    [.search a.repo a.title (.items none),
                      .file a.repo a.title (formatBody a r.now) r.file] := by
                  simp [Notifier.raiseAlert, silent, Notifier.findOpenIssue, known, found,
                    Notifier.fileIssue]
                exact oneIssue_file made
        | httpError =>
            have made : (d.notifier.raiseAlert a r).1 =
                [.search a.repo a.title .httpError,
                  .file a.repo a.title (formatBody a r.now) r.file] := by
              simp [Notifier.raiseAlert, silent, Notifier.findOpenIssue, known, found,
                Notifier.fileIssue]
            exact oneIssue_file made
        | failed =>
            have made : (d.notifier.raiseAlert a r).1 = [.search a.repo a.title .failed] := by
              simp [Notifier.raiseAlert, silent, Notifier.findOpenIssue, known, found]
            rw [oneIssue_idle made (by simp)]
            simp [Call.Fine]

end

/-- In every history of alerts and issues each alert keeps one open issue for its
key exactly where each meets a notifier that is informed. -/
theorem one_issue_per_key_iff (d : Desk) (events : List Event) :
    Machine.Allows Desk.step Keeps d events ↔ Machine.Allows Desk.step Known d events := by
  refine @Machine.allows_congr Desk Event Desk.step (fun _ => True) Keeps Known ?_ (by simp)
    d trivial events
  intro d event _
  cases event with
  | alert a r => exact oneIssue_iff
  | opened repo number title => exact Iff.rfl
  | closed repo number => exact Iff.rfl
  | reopened repo number => exact Iff.rfl

/-- What the search and the creation say of the title is so. -/
def Honest (d : Desk) (a : Raised) (r : Replies) : Prop :=
  match r.search with
  | .items (some number) => IsOpen d.issues a.repo number a.title
  | .failed => True
  | _ => (∃ number, r.file = .created number) → ¬ HasOpen d.issues a.repo a.title

/-- A notifier with a token, keys that a title gives back, honest replies, and
nobody closing an issue the notifier remembers. -/
def Undisturbed (d : Desk) : Event → Prop
  | .alert a r => d.notifier.token ≠ [] ∧ keyFromTitle a.repo a.title = some a.key ∧ Honest d a r
  | .closed repo number => ∀ key : IssueKey,
      Dict.get? d.notifier.openIssues key = some number → key.1 ≠ repo
  | _ => True

/-- Every remembered number is that of its key's open issue. -/
def Accurate (d : Desk) : Prop :=
  ∀ repo checkClass runner number,
    Dict.get? d.notifier.openIssues (repo, checkClass, runner) = some number →
      IsOpen d.issues repo number (Raised.title ⟨repo, checkClass, runner, []⟩)

section

variable {d : Desk} {a : Raised} {r : Replies}

theorem Accurate.cached (accurate : Accurate d) (parsed : keyFromTitle a.repo a.title = some a.key)
    {number : Nat} (known : d.notifier.cached a.repo a.title = some number) :
    IsOpen d.issues a.repo number a.title := by
  rw [Notifier.cached, parsed] at known
  exact accurate a.repo a.checkClass a.runner number known

theorem informed_of_undisturbed (accurate : Accurate d) (undisturbed : Undisturbed d (.alert a r)) :
    Informed d a r := by
  obtain ⟨token, parsed, honest⟩ := undisturbed
  have trusted {number : Nat} (isOpen : IsOpen d.issues a.repo number a.title) :
      Trusted d a r number := by
    unfold Trusted
    split
    · exact ⟨number, isOpen⟩
    · exact isOpen
  unfold Informed
  rw [if_neg token]
  unfold Honest at honest
  cases known : d.notifier.cached a.repo a.title with
  | some number => exact trusted (accurate.cached parsed known)
  | none =>
      cases found : r.search with
      | items first =>
          rw [found] at honest
          cases first with
          | some number => exact trusted honest
          | none => exact honest
      | httpError =>
          rw [found] at honest
          exact honest
      | failed => trivial

/-- What an alert with a token and a key its title gives back does to the numbers
and the issues. -/
theorem step_alert_cases (token : d.notifier.token ≠ [])
    (parsed : keyFromTitle a.repo a.title = some a.key) :
    ((d.step (.alert a r)).notifier.openIssues = d.notifier.openIssues ∧
        (d.step (.alert a r)).issues = d.issues) ∨
      ∃ number,
        (d.step (.alert a r)).notifier.openIssues = Dict.set d.notifier.openIssues a.key number ∧
          (r.search = .items (some number) ∧ (d.step (.alert a r)).issues = d.issues ∨
            (d.step (.alert a r)).issues = d.issues ++ [⟨a.repo, number, a.title, true⟩]) := by
  have recurred (n : Notifier) (number : Nat) : (n.recur a number r).2.openIssues = n.openIssues := by
    unfold Notifier.recur
    split
    · rfl
    · cases r.comment <;> rfl
  have commented (n : Notifier) (number : Nat) :
      (n.recur a number r).1.foldl applyCall d.issues = d.issues := by
    unfold Notifier.recur
    split <;> rfl
  have stepped : d.step (.alert a r) =
      ⟨(d.notifier.raiseAlert a r).2, (d.notifier.raiseAlert a r).1.foldl applyCall d.issues⟩ := rfl
  rw [stepped]
  cases known : d.notifier.cached a.repo a.title with
  | some number =>
      refine Or.inl ?_
      simp [Notifier.raiseAlert, token, Notifier.findOpenIssue, known, recurred, commented]
  | none =>
      cases found : r.search with
      | items first =>
          cases first with
          | some number =>
              refine Or.inr ⟨number, ?_, Or.inl ⟨rfl, ?_⟩⟩
              · simp [Notifier.raiseAlert, token, Notifier.findOpenIssue, known, found, recurred,
                  Notifier.remember, parsed]
              · simp [Notifier.raiseAlert, token, Notifier.findOpenIssue, known, found, commented,
                  applyCall]
          | none =>
              cases created : r.file with
              | created number =>
                  refine Or.inr ⟨number, ?_, Or.inr ?_⟩ <;>
                    simp [Notifier.raiseAlert, token, Notifier.findOpenIssue, known, found,
                      Notifier.fileIssue, created, applyCall]
              | httpError =>
                  refine Or.inl ?_
                  simp [Notifier.raiseAlert, token, Notifier.findOpenIssue, known, found,
                    Notifier.fileIssue, created, applyCall]
              | failed =>
                  refine Or.inl ?_
                  simp [Notifier.raiseAlert, token, Notifier.findOpenIssue, known, found,
                    Notifier.fileIssue, created, applyCall]
      | httpError =>
          cases created : r.file with
          | created number =>
              refine Or.inr ⟨number, ?_, Or.inr ?_⟩ <;>
                simp [Notifier.raiseAlert, token, Notifier.findOpenIssue, known, found,
                  Notifier.fileIssue, created, applyCall]
          | httpError =>
              refine Or.inl ?_
              simp [Notifier.raiseAlert, token, Notifier.findOpenIssue, known, found,
                Notifier.fileIssue, created, applyCall]
          | failed =>
              refine Or.inl ?_
              simp [Notifier.raiseAlert, token, Notifier.findOpenIssue, known, found,
                Notifier.fileIssue, created, applyCall]
      | failed =>
          refine Or.inl ?_
          simp [Notifier.raiseAlert, token, Notifier.findOpenIssue, known, found, applyCall]

/-- A number that joins the table is accurate where the key's issue is open. -/
theorem Accurate.set (accurate : Accurate d) {number : Nat} {after : Desk}
    (table : after.notifier.openIssues = Dict.set d.notifier.openIssues a.key number)
    (kept : ∀ issue ∈ d.issues, issue ∈ after.issues)
    (isOpen : IsOpen after.issues a.repo number a.title) : Accurate after := by
  intro repo checkClass runner number' found
  rw [table, Dict.get?_set] at found
  by_cases same : a.key = (repo, checkClass, runner)
  · rw [if_pos same, Option.some.injEq] at found
    rw [Raised.key, Prod.mk.injEq, Prod.mk.injEq] at same
    obtain ⟨rfl, rfl, rfl⟩ := same
    rw [← found]
    exact isOpen
  · rw [if_neg same] at found
    exact kept _ (accurate repo checkClass runner number' found)

theorem accurate_step (accurate : Accurate d) (event : Event) (undisturbed : Undisturbed d event) :
    Accurate (d.step event) := by
  cases event with
  | alert a r =>
      obtain ⟨token, parsed, honest⟩ := undisturbed
      rcases step_alert_cases token parsed with ⟨table, issues⟩ | ⟨number, table, found⟩
      · unfold Accurate
        rw [table, issues]
        exact accurate
      · rcases found with ⟨search, issues⟩ | issues
        · refine accurate.set table (by rw [issues]; exact fun _ member => member) ?_
          rw [issues]
          unfold Honest at honest
          rw [search] at honest
          exact honest
        · refine accurate.set table ?_ ?_
          · rw [issues]
            exact fun _ member => List.mem_append_left _ member
          · rw [issues]
            exact List.mem_append_right _ List.mem_cons_self
  | opened repo number title =>
      intro repo' checkClass runner number' found
      exact List.mem_append_left _ (accurate repo' checkClass runner number' found)
  | closed repo number =>
      intro repo' checkClass runner number' found
      refine List.mem_map.mpr ⟨_, accurate repo' checkClass runner number' found, if_neg ?_⟩
      rintro ⟨rfl, rfl⟩
      exact undisturbed _ found rfl
  | reopened repo number =>
      intro repo' checkClass runner number' found
      refine List.mem_map.mpr ⟨_, accurate repo' checkClass runner number' found, ?_⟩
      split <;> rfl

/-- While nobody closes a remembered issue and the search is honest, the notifier
stays informed, and so keeps one issue per key. -/
theorem known_of_undisturbed (accurate : Accurate d) (events : List Event)
    (undisturbed : Machine.Allows Desk.step Undisturbed d events) :
    Machine.Allows Desk.step Known d events := by
  have both : Machine.Allows Desk.step (fun d event => Known d event ∧ Undisturbed d event) d events := by
    refine (@Machine.allows_congr Desk Event Desk.step Accurate _ Undisturbed ?_ ?_ d accurate
      events).mpr undisturbed
    · intro d event accurate
      refine ⟨fun both => both.2, fun undisturbed => ⟨?_, undisturbed⟩⟩
      cases event with
      | alert a r => exact informed_of_undisturbed accurate undisturbed
      | opened repo number title => trivial
      | closed repo number => trivial
      | reopened repo number => trivial
    · exact fun d event accurate undisturbed => accurate_step accurate event undisturbed
  exact (Machine.allows_and.mp both).1

end

namespace ClosedByOwner

def hub : Desk := ⟨⟨"t", .fin 3600, [], []⟩, []⟩

def stall : Raised := ⟨"o/n", "queue_stall", "?", "queued 40m"⟩

def replies (monotonic : Rat) : Replies :=
  ⟨.items none, .created 1, .posted, monotonic, ⟨2026, 9, 27, 12, 0, 0⟩⟩

/-- An alert files its issue, the owner closes it, and the alert comes again. -/
def history : List Event :=
  [.alert stall (replies 0), .closed "o/n" 1, .alert stall (replies 60)]

end ClosedByOwner

theorem closed_issue_commented :
    ¬ Machine.Allows Desk.step Keeps ClosedByOwner.hub ClosedByOwner.history := by
  intro keeps
  have again := keeps [.alert ClosedByOwner.stall (ClosedByOwner.replies 0), .closed "o/n" 1] _ [] rfl
  have posts : Call.comment "o/n" 1
      (formatBody ClosedByOwner.stall ⟨2026, 9, 27, 12, 0, 0⟩) .posted ∈
        ((Machine.run Desk.step ClosedByOwner.hub
          [.alert ClosedByOwner.stall (ClosedByOwner.replies 0), .closed "o/n" 1]).notifier.raiseAlert
            ClosedByOwner.stall (ClosedByOwner.replies 60)).1 := List.mem_cons_self
  have isOpen := (again.comment _ _ _ _ posts).2
  have closed : (⟨"o/n", 1, ClosedByOwner.stall.title, true⟩ : Issue) ∉
      (Machine.run Desk.step ClosedByOwner.hub
        [.alert ClosedByOwner.stall (ClosedByOwner.replies 0), .closed "o/n" 1]).issues := by
    decide +kernel
  exact closed isOpen

end DevGate.Hub.Alerts
