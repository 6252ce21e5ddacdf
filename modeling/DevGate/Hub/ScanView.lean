import DevGate.Lib.Fold
import DevGate.Hub.Monitor

set_option autoImplicit false

/- `hub.scan_view` over the row as the registry stores it: any value may stand
where the scan state is, and every access that could raise is modelled as one. -/
namespace DevGate.Hub.ScanView

open Py Fold

/-- `v.get(key) if isinstance(v, dict) else None`. -/
def getIfDict (v : Value) (key : Str) : Except Exc (Option Value) :=
  if v.isDict then v.get key else .ok none

theorem getIfDict_eq (v : Value) (key : Str) : getIfDict v key = .ok (v.field? key) := by
  cases v <;> rfl

/-- `registry.scan_state_unknown`. -/
def scanStateUnknown (runner : Value) : Except Exc Bool := do
  let state := (← runner.get "scan_state").getD .null
  if !state.isDict then return true
  else
    let reason ← state.get "unreadable"
    if (reason.getD .null).truthy then return true
    else return !((← state.get "repos").getD .null).isList

/-- One repository of `_findings_detail`. -/
def findingsPart (record : Value) : Except Exc Text := do
  let uncovered := (← record.get "uncovered").getD (.int 0)
  let total := (← record.get "findings").getD (.int 0)
  return [.lit (nameOf record), " (", .str uncovered, " uncovered of ", .str total, " finding(s))"]

/-- The branch of `scan_alerts` without a usable reading. -/
def unreadAlert (runner : Value) : Except Exc (Str × Text) := do
  let state := (← runner.get "scan_state").getD .null
  let reason := (← getIfDict state "unreadable").getD .null
  if reason.truthy then
    return (("runner_scan_unknown" : Str), ["its scan report could not be read: ", .str reason])
  else if state.isDict then
    return (("runner_scan_unknown" : Str), ["its scan report could not be read: it names no repositories at all (no 'repos' list), which is not the same as a fleet with nothing in it"])
  else
    return (("runner_scan_unknown" : Str), ["this host has not reported a fleet scan report, so none of its repositories can be counted clean"])

/-- The walk over the records, each into at most one of `found` and `unknown`. -/
def bucket (s : List Value × List Value) (record : Value) :
    Except Exc (List Value × List Value) := do
  let state := (← getIfDict record "state").getD .null
  if state.eq (.str "findings") then return (s.1 ++ [record], s.2)
  else if !state.eq (.str "clean") then return (s.1, s.2 ++ [record])
  else return s

/-- `if found:`, with `_findings_detail`. -/
def findingsAlert (found : List Value) : Except Exc (List (Str × Text)) :=
  if found = [] then .ok [] else do
    let parts ← found.mapM findingsPart
    return [(("runner_scan_findings" : Str), Frag.lit "uncovered secret(s) in " :: joined ", " parts)]

/-- `scan_alerts`. -/
def scanAlertsOf (runner : Value) : Except Exc (List (Str × Text)) := do
  if ← scanStateUnknown runner then return [← unreadAlert runner]
  else
    let repos ← (← (← runner.item "scan_state").item "repos").iter
    let walked ← repos.foldlM bucket ([], [])
    return (← findingsAlert walked.1) ++
      (if walked.2 = [] then [] else [(("runner_scan_unknown" : Str), unknownDetail walked.2)])

/-- A stored state that can be read, and its records. -/
def Usable (row : Dict Str Value) (repos : List Value) : Prop :=
  ∃ state, Dict.get? row "scan_state" = some (.dict state) ∧
    ((Dict.get? state "unreadable").getD .null).truthy = false ∧
    Dict.get? state "repos" = some (.list repos)

/-- A record of a repository whose state is `state`. -/
def Reports (record : Value) (state : Str) : Prop :=
  ∃ fields, record = .dict fields ∧ Dict.get? fields "state" = some (.str state)

/-- What `_findings_detail` says of a repository. -/
def describeFindings (record : Value) : Text :=
  [.lit (nameOf record), " (", .str ((record.field? "uncovered").getD (.int 0)),
    " uncovered of ", .str ((record.field? "findings").getD (.int 0)), " finding(s))"]

/-- The two alerts over the records put into each, one description a record. -/
def report (found unknown : List Value) : List (Str × Text) :=
  (if found = [] then [] else
    [(("runner_scan_findings" : Str),
      Frag.lit "uncovered secret(s) in " :: joined ", " (found.map describeFindings))]) ++
  (if unknown = [] then [] else
    [(("runner_scan_unknown" : Str),
      Frag.lit "no verdict for " :: joined ", " (unknown.map unknownPart))])

theorem reports_iff {record : Value} {state : Str} :
    Reports record state ↔ ((record.field? "state").getD .null).eq (.str state) = true := by
  rw [Value.eq_text]
  cases record with
  | dict fields =>
      rw [Value.field?_dict]
      constructor
      · rintro ⟨_, ⟨⟩, found⟩
        rw [found]
        rfl
      · intro same
        refine ⟨fields, rfl, ?_⟩
        cases found : Dict.get? fields "state" with
        | none =>
            rw [found] at same
            cases same
        | some v =>
            rw [found] at same
            exact congrArg some same
  | _ =>
      constructor
      · rintro ⟨_, ⟨⟩, _⟩
      · intro same
        cases same

instance (record : Value) (state : Str) : Decidable (Reports record state) :=
  decidable_of_iff _ reports_iff.symm

theorem bucket_eq (s : List Value × List Value) (record : Value) :
    bucket s record = .ok
      (if Reports record "findings" then (s.1 ++ [record], s.2)
      else if ¬Reports record "clean" then (s.1, s.2 ++ [record]) else s) := by
  unfold bucket
  rw [getIfDict_eq, ok_bind]
  simp only [reports_iff]
  split
  · rfl
  · cases ((record.field? "state").getD .null).eq (.str "clean") <;> rfl

def IsUnknown (record : Value) : Prop := ¬Reports record "findings" ∧ ¬Reports record "clean"

instance (record : Value) : Decidable (IsUnknown record) :=
  inferInstanceAs (Decidable (_ ∧ _))

/-- The walk sorts the records without losing one. -/
theorem foldlM_bucket (repos : List Value) (s : List Value × List Value) :
    repos.foldlM bucket s = .ok
      (s.1 ++ repos.filter (fun r => Reports r "findings"),
        s.2 ++ repos.filter (fun r => IsUnknown r)) := by
  induction repos generalizing s with
  | nil => simp
  | cons record rest ih =>
      rw [List.foldlM_cons, bucket_eq, ok_bind, ih, List.filter_cons, List.filter_cons]
      unfold IsUnknown
      by_cases leaks : Reports record "findings"
      · simp [leaks]
      · by_cases clean : Reports record "clean"
        · simp [leaks, clean]
        · simp [leaks, clean]

theorem findingsPart_ok {record : Value} (leaks : Reports record "findings") :
    findingsPart record = .ok (describeFindings record) := by
  obtain ⟨fields, rfl, -⟩ := leaks
  rfl

theorem findingsAlert_ok {found : List Value} (leaks : ∀ r ∈ found, Reports r "findings") :
    findingsAlert found = .ok (if found = [] then [] else
      [(("runner_scan_findings" : Str),
        Frag.lit "uncovered secret(s) in " :: joined ", " (found.map describeFindings))]) := by
  have parts : found.mapM findingsPart = .ok (found.map describeFindings) := by
    rw [mapM_forall₂, List.forall₂_map_right_iff, List.forall₂_same]
    exact fun r member => findingsPart_ok (leaks r member)
  unfold findingsAlert
  split
  · rfl
  · rw [parts]
    rfl

/-- The state is unknown exactly where it cannot be used. -/
theorem scanStateUnknown_iff (row : Dict Str Value) :
    ∃ unknown, scanStateUnknown (.dict row) = .ok unknown ∧
      (unknown = false ↔ ∃ repos, Usable row repos) := by
  unfold scanStateUnknown
  rw [Value.get_dict, ok_bind]
  cases stored : Dict.get? row "scan_state" with
  | none => exact ⟨true, rfl, by simp [Usable, stored]⟩
  | some state =>
      cases state with
      | dict fields =>
          simp only [Option.getD_some, Value.isDict, Bool.not_true, Bool.false_eq_true, if_false,
            Value.get_dict, ok_bind]
          by_cases broken : ((Dict.get? fields "unreadable").getD .null).truthy = true
          · rw [if_pos broken]
            refine ⟨true, rfl, ?_⟩
            simp [Usable, stored, broken]
          · rw [if_neg broken]
            refine ⟨_, rfl, ?_⟩
            rw [Bool.not_eq_true] at broken
            cases listed : Dict.get? fields "repos" with
            | none => simp [Usable, stored, broken, listed, Value.isList]
            | some repos =>
                cases repos <;> simp [Usable, stored, broken, listed, Value.isList]
      | _ => exact ⟨true, rfl, by simp [Usable, stored]⟩

theorem unreadAlert_ends (row : Dict Str Value) : Ends (unreadAlert (.dict row)) := by
  unfold unreadAlert
  rw [Value.get_dict, ok_bind]
  dsimp only
  rw [getIfDict_eq, ok_bind]
  exact ends_ite (ends_ok _) (ends_ite (ends_ok _) (ends_ok _))

theorem scanAlertsOf_unknown {row : Dict Str Value}
    (unknown : scanStateUnknown (.dict row) = .ok true) :
    ∃ alert, scanAlertsOf (.dict row) = .ok [alert] := by
  obtain ⟨alert, ran⟩ := unreadAlert_ends row
  refine ⟨alert, ?_⟩
  unfold scanAlertsOf
  rw [unknown, ok_bind, if_pos rfl, ran]
  rfl

/-- A usable state is reported record by record. -/
theorem scanAlertsOf_usable {row : Dict Str Value} {repos : List Value} (usable : Usable row repos) :
    scanAlertsOf (.dict row) = .ok (report (repos.filter (fun r => Reports r "findings"))
      (repos.filter (fun r => IsUnknown r))) := by
  have known : scanStateUnknown (.dict row) = .ok false := by
    obtain ⟨unknown, ran, iff⟩ := scanStateUnknown_iff row
    rw [ran, iff.mpr ⟨repos, usable⟩]
  obtain ⟨fields, stored, -, listed⟩ := usable
  have state : (Value.dict row).item "scan_state" = .ok (.dict fields) :=
    Value.item_ok.mpr ⟨row, rfl, stored⟩
  have records : (Value.dict fields).item "repos" = .ok (.list repos) :=
    Value.item_ok.mpr ⟨fields, rfl, listed⟩
  have leaks : ∀ r ∈ repos.filter (fun r => Reports r "findings"), Reports r "findings" := by
    intro r member
    exact of_decide_eq_true (List.mem_filter.mp member).2
  unfold scanAlertsOf
  rw [known, ok_bind, if_neg (by decide), state, ok_bind, records, ok_bind]
  show (repos.foldlM bucket ([], []) >>= _) = _
  rw [foldlM_bucket, ok_bind, List.nil_append, List.nil_append]
  dsimp only
  rw [findingsAlert_ok leaks]
  rfl

theorem report_eq_nil {found unknown : List Value} :
    report found unknown = [] ↔ found = [] ∧ unknown = [] := by
  unfold report
  by_cases noneFound : found = [] <;> by_cases noneUnknown : unknown = [] <;>
    simp [noneFound, noneUnknown]

/-- The two buckets hold the records that are not clean. -/
theorem buckets_perm (repos : List Value) :
    List.Perm (repos.filter (fun r => ¬Reports r "clean"))
      (repos.filter (fun r => Reports r "findings") ++ repos.filter (fun r => IsUnknown r)) := by
  have apart : ∀ r, Reports r "findings" → ¬Reports r "clean" := by
    rintro r ⟨fields, rfl, found⟩ ⟨_, ⟨⟩, clean⟩
    rw [found] at clean
    exact absurd clean (by decide)
  have split := (List.filter_append_perm (fun r => decide (Reports r "findings"))
    (repos.filter (fun r => ¬Reports r "clean"))).symm
  rw [List.filter_filter, List.filter_filter] at split
  have first : repos.filter (fun r => decide (Reports r "findings") && decide (¬Reports r "clean")) =
      repos.filter (fun r => Reports r "findings") := by
    apply List.filter_congr
    intro r _
    by_cases leaks : Reports r "findings" <;> simp [leaks, apart r]
  have second : repos.filter (fun r => !decide (Reports r "findings") && decide (¬Reports r "clean")) =
      repos.filter (fun r => IsUnknown r) := by
    apply List.filter_congr
    intro r _
    unfold IsUnknown
    by_cases leaks : Reports r "findings" <;> simp [leaks]
  rwa [first, second] at split

/-- Nothing is raised; silence means a usable state of clean repositories only; and
every record of a usable state that is not clean is described once. -/
theorem scanAlertsOf_accounts (row : Dict Str Value) :
    ∃ alerts, scanAlertsOf (.dict row) = .ok alerts ∧
      (alerts = [] ↔ ∃ repos, Usable row repos ∧ ∀ record ∈ repos, Reports record "clean") ∧
      ∀ repos, Usable row repos → ∃ found unknown,
        List.Perm (repos.filter (fun r => ¬Reports r "clean")) (found ++ unknown) ∧
        (∀ record ∈ found, Reports record "findings") ∧
        (∀ record ∈ unknown, ¬Reports record "findings") ∧
        alerts = report found unknown := by
  obtain ⟨unknown, ran, usable⟩ := scanStateUnknown_iff row
  cases unknown with
  | true =>
      obtain ⟨alert, alerted⟩ := scanAlertsOf_unknown ran
      have useless : ∀ repos, ¬Usable row repos :=
        fun repos stored => absurd (usable.mpr ⟨repos, stored⟩) (by decide)
      refine ⟨[alert], alerted, ?_, fun repos stored => absurd stored (useless repos)⟩
      constructor
      · intro silent
        cases silent
      · rintro ⟨repos, stored, -⟩
        exact absurd stored (useless repos)
  | false =>
      obtain ⟨repos, stored⟩ := usable.mp rfl
      have same : ∀ others, Usable row others → others = repos := by
        rintro others ⟨fields, found, -, listed⟩
        obtain ⟨fields', found', -, listed'⟩ := stored
        rw [found, Option.some.injEq, Value.dict.injEq] at found'
        rw [found', listed', Option.some.injEq, Value.list.injEq] at listed
        exact listed.symm
      refine ⟨_, scanAlertsOf_usable stored, ?_, ?_⟩
      · have clean : report (repos.filter (fun r => Reports r "findings"))
              (repos.filter (fun r => IsUnknown r)) = [] ↔
            ∀ record ∈ repos, Reports record "clean" := by
          rw [report_eq_nil, ← List.append_eq_nil_iff, ← List.length_eq_zero_iff,
            ← (buckets_perm repos).length_eq, List.length_eq_zero_iff, List.filter_eq_nil_iff]
          simp
        rw [clean]
        constructor
        · intro all
          exact ⟨repos, stored, all⟩
        · rintro ⟨others, usable', all⟩
          rwa [same others usable'] at all
      · intro others usable'
        rw [same others usable']
        refine ⟨_, _, buckets_perm repos, ?_, ?_, rfl⟩
        · intro record member
          exact of_decide_eq_true (List.mem_filter.mp member).2
        · intro record member
          exact (of_decide_eq_true (List.mem_filter.mp member).2).1

theorem unreadAlert_eq {row : Dict Str Value} (runner : Runner)
    (stored : Dict.get? row "scan_state" = some runner.scanState) :
    unreadAlert (.dict row) = .ok (("runner_scan_unknown" : Str), unusableDetail runner) := by
  unfold unreadAlert unusableDetail
  rw [Value.get_dict, ok_bind, stored]
  dsimp only
  rw [getIfDict_eq, ok_bind, Option.getD_some]
  cases runner.scanState with
  | dict state =>
      simp only [Value.field?_dict, Value.isDict, if_true]
      split <;> rfl
  | _ => rfl

/-- On a stored row this is what the poll's checks raise. -/
theorem scanAlertsOf_scanAlerts {row : Dict Str Value} (runner : Runner)
    (stored : Dict.get? row "scan_state" = some runner.scanState) :
    scanAlertsOf (.dict row) = .ok (scanAlerts runner) := by
  have usable : ∀ repos, Usable row repos ↔ reposOf runner = some repos := by
    intro repos
    unfold Usable reposOf
    rw [stored]
    cases runner.scanState with
    | dict state =>
        by_cases broken : ((Dict.get? state "unreadable").getD .null).truthy = true
        · simp [broken]
        · cases listed : Dict.get? state "repos" with
          | none => simp [broken, listed]
          | some v => cases v <;> simp [broken, listed, Value.list?]
    | _ => simp
  have reports : ∀ (r : Value) (state : Str),
      (r.field? "state").getD .null = .str state ↔ Reports r state := by
    intro r state
    rw [reports_iff, Value.eq_text]
  obtain ⟨unknown, ran, known⟩ := scanStateUnknown_iff row
  unfold scanAlerts
  cases read : reposOf runner with
  | none =>
      have unread : unknown = true := by
        cases unknown with
        | true => rfl
        | false =>
            obtain ⟨repos, stored'⟩ := known.mp rfl
            rw [usable, read] at stored'
            cases stored'
      rw [unread] at ran
      unfold scanAlertsOf
      rw [ran, ok_bind, if_pos rfl, unreadAlert_eq runner stored]
      rfl
  | some repos =>
      rw [scanAlertsOf_usable ((usable repos).mpr read)]
      unfold IsUnknown
      simp only [ne_eq, reports]
      rfl

end DevGate.Hub.ScanView
