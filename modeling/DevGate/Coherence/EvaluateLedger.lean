import DevGate.Coherence.Evaluate

set_option autoImplicit false

/- The ledger and the findings of a run: one row per assertion, and findings of
violated rows only. -/
namespace DevGate.Evaluate

open Py Evaluators

/-- Every finding an evaluator reports is about the assertion it was given. -/
def Owns (table : Builtin → Behaviour) : Prop :=
  ∀ builtin a facts found, table builtin a facts = .ok found →
    ∀ f ∈ found, f.assertionId = a.id

/-- A verdict that completed has findings exactly when it is VIOLATED. -/
structure Verdict.Complete (v : Verdict) (a : Assertion) : Prop where
  violated : v.outcome = .violated → v.found ≠ []
  satisfied : v.outcome = .satisfied → v.found = []
  owned : ∀ f ∈ v.found, f.assertionId = a.id

theorem judge_complete (a : Assertion) (result : Except Exc (List Finding))
    (owned : ∀ found, result = .ok found → ∀ f ∈ found, f.assertionId = a.id) :
    (judge a result).Complete a := by
  cases result with
  | ok found =>
      by_cases empty : found = []
      · exact ⟨by simp [judge, empty], fun _ => empty, owned found rfl⟩
      · exact ⟨fun _ => empty, by simp [judge, empty], owned found rfl⟩
  | error e =>
      unfold judge
      dsimp only
      split <;> exact ⟨by simp, by simp, by simp⟩

theorem Verdict.Complete.remeasure {v : Verdict} {a : Assertion} (complete : v.Complete a)
    (drift : Option Text) : (Evaluate.remeasure drift v).Complete a := by
  cases drift with
  | none => exact complete
  | some path =>
      exact ⟨by simp [Evaluate.remeasure], by simp [Evaluate.remeasure], complete.owned⟩

theorem assess_complete {table : Builtin → Behaviour} (owns : Owns table)
    {captured : Dict Str Value} {drift : Assertion → Option Text} {done : Dict Str Outcome}
    {a : Assertion} {v : Verdict} (assessed : assess table captured drift done a = .ok v) :
    v.Complete a := by
  unfold assess at assessed
  split at assessed
  · cases assessed
    exact ⟨by simp, by simp, by simp⟩
  · rename_i builtin known
    split at assessed
    · cases assessed
      exact ⟨by simp, by simp, by simp⟩
    · obtain ⟨facts, -, assessed⟩ := bind_ok.mp assessed
      split at assessed
      · cases assessed
        exact ⟨by simp, by simp, by simp⟩
      · cases assessed
        exact (judge_complete a _ (fun found same => owns builtin a facts found same)).remeasure _

theorem step_ok {table : Builtin → Behaviour} {captured : Dict Str Value}
    {drift : Assertion → Option Text} {s next : Progress} {a : Assertion} :
    step table captured drift s a = .ok next ↔
      ∃ v, assess table captured drift s.done a = .ok v ∧ s.settle a v = next := by
  unfold step
  rw [bind_ok]
  simp only [Except.ok.injEq]

/-- The ledger accounts for the assertions `as` and for all findings. -/
structure Accounts (s : Progress) (as : List Assertion) : Prop where
  rows : s.ledger.map Row.assertionId = as.map Assertion.id
  explained : ∀ row ∈ s.ledger, row.outcome = .violated →
    ∃ f ∈ s.findings, f.assertionId = row.assertionId
  owned : ∀ f ∈ s.findings, ∃ row ∈ s.ledger,
    row.outcome = .violated ∧ row.assertionId = f.assertionId

theorem Accounts.start : Accounts .start [] := ⟨rfl, by simp [Progress.start], by simp [Progress.start]⟩

theorem Accounts.settle {s : Progress} {as : List Assertion} (accounts : Accounts s as)
    {a : Assertion} {v : Verdict} (complete : v.Complete a) :
    Accounts (s.settle a v) (as ++ [a]) where
  rows := by simp [Progress.settle, accounts.rows]
  explained := by
    intro row member violated
    unfold Progress.settle at member ⊢
    dsimp only at member ⊢
    rcases List.mem_append.mp member with before | here
    · obtain ⟨f, inside, same⟩ := accounts.explained row before violated
      refine ⟨f, ?_, same⟩
      split
      · exact List.mem_append_left _ inside
      · exact inside
    · rw [List.mem_singleton] at here
      subst here
      have decided : v.outcome ≠ .unresolved := by
        rw [show v.outcome = .violated from violated]
        decide
      obtain ⟨f, rest, found⟩ := List.exists_cons_of_ne_nil (complete.violated violated)
      have inside : f ∈ v.found := by simp [found]
      rw [if_pos decided]
      exact ⟨f, List.mem_append_right _ inside, complete.owned f inside⟩
  owned := by
    intro f member
    unfold Progress.settle at member ⊢
    dsimp only at member ⊢
    have earlier : f ∈ s.findings → ∃ row ∈ s.ledger ++ [(⟨a.id, a.version, v.outcome, v.reason,
        if v.outcome ≠ .satisfied then .block else .advisory⟩ : Row)],
        row.outcome = .violated ∧ row.assertionId = f.assertionId := by
      intro before
      obtain ⟨row, inside, violated⟩ := accounts.owned f before
      exact ⟨row, List.mem_append_left _ inside, violated⟩
    split at member
    · rename_i decided
      rcases List.mem_append.mp member with before | here
      · exact earlier before
      · refine ⟨_, List.mem_append_right _ List.mem_cons_self, ?_, (complete.owned f here).symm⟩
        cases outcome : v.outcome with
        | violated => rfl
        | satisfied =>
            rw [complete.satisfied outcome] at here
            cases here
        | unresolved => exact absurd outcome decided
    · exact earlier member

theorem foldlM_accounts {table : Builtin → Behaviour} (owns : Owns table)
    {captured : Dict Str Value} {drift : Assertion → Option Text} (planned : List Assertion)
    {s out : Progress} {as : List Assertion} (accounts : Accounts s as)
    (ran : planned.foldlM (step table captured drift) s = .ok out) :
    Accounts out (as ++ planned) := by
  induction planned generalizing s as with
  | nil =>
      cases ran
      simpa using accounts
  | cons a rest ih =>
      rw [List.foldlM_cons] at ran
      obtain ⟨next, here, ran⟩ := bind_ok.mp ran
      obtain ⟨v, assessed, rfl⟩ := step_ok.mp here
      have later := ih (accounts.settle (assess_complete owns assessed)) ran
      rwa [List.append_assoc, List.singleton_append] at later

theorem run_ok {table : Builtin → Behaviour} {captured : Dict Str Value}
    {drift : Assertion → Option Text} {maxEvaluators : Int} {planned : List Assertion}
    {out : Progress} :
    run table captured drift maxEvaluators planned = .ok out ↔
      planned.length ≤ maxEvaluators ∧
        planned.foldlM (step table captured drift) .start = .ok out := by
  unfold run
  rw [guard_ok, not_lt]

theorem run_accounts {table : Builtin → Behaviour} (owns : Owns table) {captured : Dict Str Value}
    {drift : Assertion → Option Text} {maxEvaluators : Int} {planned : List Assertion}
    {out : Progress} (ran : run table captured drift maxEvaluators planned = .ok out) :
    Accounts out planned := by
  simpa using foldlM_accounts owns planned Accounts.start (run_ok.mp ran).2

end DevGate.Evaluate
