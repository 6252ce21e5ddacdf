import DevGate.Hub.Responses
import DevGate.Hub.Service

set_option autoImplicit false

/- Which registry rows let a poll run to its last check, whatever the server answers. -/
namespace DevGate.Hub

open Py Fold Monitor

/-- What iteration and hashing read: a string, an object, a list of scalars. -/
def labelsRead (labels : Value) : Bool :=
  match labels with
  | .str _ => true
  | .dict _ => true
  | .list vs => vs.all (fun v => !v.isList && !v.isDict)
  | _ => false

def commitPath (repo branch : Str) : Str := "/repos/" ++ (repo ++ ("/commits/" ++ (branch ++ "?per_page=1")))

/-- What a row needs for its repository's poll: labels that are read, and a
repository name that is sent, also in the commit paths of the watched branches. -/
structure Readable (config : Config) (repo : Str) (labels : Value) : Prop where
  read : labelsRead labels = true
  sent : Sendable repo = true
  branches : ∀ branch ∈ config.watchedBranches, Sendable (commitPath repo branch) = true

/-- `repos[repo]` of `poll_cycle`. -/
def Registry.groupOf (reg : Registry) (repo : Str) : List Runner :=
  reg.runners.filter (fun runner => runner.enrolled && runner.repo == repo)

/-- No poll of the cycle is cut short, whatever well-formed answers it gets. -/
def PollsThrough (config : Config) (reg : Registry) : Prop :=
  ∀ repo, reg.groupOf repo ≠ [] → ∀ net, WellFormed net → ∀ s,
    Ends (pollRepo config net repo (reg.groupOf repo) s)

theorem key_ends {v : Value} : Ends v.key ↔ (!v.isList && !v.isDict) = true := by
  cases v <;> simp [Value.key, Value.isList, Value.isDict]

theorem labelsRead_iff {labels : Value} :
    labelsRead labels = true ↔ Ends (do (← labels.iter).mapM Value.key) := by
  cases labels with
  | str s =>
      simp only [labelsRead, Value.iter, ok_bind, true_iff]
      refine mapM_ends.mpr (fun v member => ?_)
      obtain ⟨c, -, rfl⟩ := List.mem_map.mp member
      exact ends_ok _
  | dict kvs =>
      simp only [labelsRead, Value.iter, ok_bind, true_iff]
      refine mapM_ends.mpr (fun v member => ?_)
      obtain ⟨kv, -, rfl⟩ := List.mem_map.mp member
      exact ends_ok _
  | list vs =>
      simp only [labelsRead, Value.iter, ok_bind]
      rw [mapM_ends, List.all_eq_true]
      exact forall₂_congr (fun v _ => key_ends.symm)
  | _ => simp [labelsRead, Value.iter]

theorem registeredLabels_ends {runners : List Runner} :
    Ends (registeredLabels runners) ↔ ∀ runner ∈ runners, labelsRead runner.labels = true := by
  constructor
  · intro ran runner member
    obtain ⟨seen, here⟩ := ends_of_foldlM ran runner member
    obtain ⟨items, iterated, rest⟩ := ends_bind.mp here
    obtain ⟨keys, hashed, -⟩ := ends_bind.mp rest
    exact labelsRead_iff.mpr (ends_bind.mpr ⟨items, iterated, keys, hashed⟩)
  · intro each
    refine foldlM_ends (fun runner member seen => ?_) []
    obtain ⟨items, iterated, keys, hashed⟩ := ends_bind.mp (labelsRead_iff.mp (each runner member))
    exact ends_bind.mpr ⟨items, iterated, ends_bind.mpr ⟨keys, hashed, ends_ok _⟩⟩

theorem sub_ends {a b : Datetime} (left : a.offset.isSome = true) (right : b.offset.isSome = true) :
    Ends (a.sub b) := by
  rw [Datetime.sub, left, right, if_pos rfl]
  exact ends_ok _

theorem parseIso_ends {v : Value} (stamp : Stamp v) :
    ∃ read, parseIso v = .ok read ∧ ∀ t, read = some t → t.offset.isSome = true := by
  rcases stamp with rfl | ⟨clock, rfl⟩
  · exact ⟨none, rfl, by simp⟩
  · exact parseIso_nowIso clock

theorem stamp_lastHeartbeat (runner : Runner) : Stamp (lastHeartbeat runner) := by
  unfold lastHeartbeat
  cases runner.lastHeartbeat with
  | none => exact Or.inl rfl
  | some clock => exact Or.inr ⟨clock, rfl⟩

theorem isNonPassing_ends {v : Value} (word : Word v) : Ends (isNonPassing v) := by
  rcases word with rfl | ⟨s, rfl⟩
  · exact ⟨_, rfl⟩
  · exact ⟨_, rfl⟩

/-- The values of `byName` are objects of the list. -/
theorem byName_ends {items : List Value}
    (named : ∀ v ∈ items, ∃ inner, v = .dict inner ∧ ∃ name, Dict.get? inner "name" = some (.str name)) :
    ∃ d, byName items = .ok d ∧ ∀ kv ∈ d, kv.2.isDict = true := by
  have ends : Ends (byName items) := by
    refine foldlM_ends (fun v member d => ?_) []
    obtain ⟨inner, rfl, name, found⟩ := named v member
    simp [Value.item, found]
  obtain ⟨d, built⟩ := ends
  refine ⟨d, built, @foldlM_keeps _ _ _ _ (fun d => ∀ kv ∈ d, kv.2.isDict = true) items ?_ [] d ?_ built⟩
  · intro v member d d' kept step kv inside
    obtain ⟨inner, rfl, name, found⟩ := named v member
    simp only [Value.item, found, ok_bind, Value.key_str, pure_ok, Except.ok.injEq] at step
    subst step
    rcases Dict.mem_set inside with rfl | old
    · rfl
    · exact kept kv old
  · simp

theorem listing {key : Str} {item : List (Str × Value) → Prop} {body : Value}
    (listed : Listing key item body) :
    ∃ items, getDefault body key (.list []) = .ok (.list items) ∧
      ∀ v ∈ items, ∃ inner, v = .dict inner ∧ item inner := by
  obtain ⟨fields, items, rfl, found, each⟩ := listed
  exact ⟨items, by simp [getDefault, found], each⟩

theorem apiOnline_ends {apiRunners : Dict Key Value}
    (objects : ∀ kv ∈ apiRunners, kv.2.isDict = true) (name : Str) :
    Ends (apiOnline apiRunners name) := by
  unfold apiOnline
  cases found : Dict.get? apiRunners (.str name) with
  | none => exact ends_ok _
  | some r =>
      have object := objects _ (Dict.mem_of_get? found)
      cases r with
      | dict fields => exact ends_ok _
      | _ => cases object

theorem ageOf_ends {now : Datetime} (aware : now.offset.isSome = true) {read : Option Datetime}
    (offset : ∀ t, read = some t → t.offset.isSome = true) : Ends (ageOf now read) := by
  cases read with
  | none => exact ends_ok _
  | some t => exact (sub_ends aware (offset t rfl)).bind (fun _ _ => ends_ok _)

section

variable {config : Config} {net : Outside} {repo : Str} (wellFormed : WellFormed net)

include wellFormed

theorem checkRunnersOf_ends (runners : List Runner) {body : Value} (s : Polled)
    (shaped : Shaped (.runners repo) body) :
    Ends (checkRunnersOf config net repo runners body s) := by
  obtain ⟨items, found, each⟩ := listing shaped
  obtain ⟨apiRunners, built, objects⟩ := byName_ends each
  unfold checkRunnersOf
  rw [found, ok_bind, Value.iter, ok_bind, built, ok_bind]
  refine foldlM_ends (fun runner _ s' => ?_) s
  refine (apiOnline_ends objects runner.name).bind (fun online _ => ?_)
  obtain ⟨read, parsed, offset⟩ := parseIso_ends (stamp_lastHeartbeat runner)
  rw [parsed, ok_bind]
  exact (ageOf_ends (wellFormed.aware _) offset).bind
    (fun age _ => ends_ite (ends_ok _) (ends_ok _))

theorem checkQueued_ends {run : Value} (s s' : Polled)
    (shaped : ∃ inner, run = .dict inner ∧ Stamp ((Dict.get? inner "created_at").getD .null)) :
    Ends (checkQueued config repo (net.now s) s' run) := by
  obtain ⟨inner, rfl, stamp⟩ := shaped
  obtain ⟨read, parsed, offset⟩ := parseIso_ends stamp
  unfold checkQueued
  rw [Value.get_dict, ok_bind, parsed, ok_bind]
  cases read with
  | none => exact ends_ok _
  | some created =>
      exact (sub_ends (wellFormed.aware _) (offset created rfl)).bind
        (fun micros _ => ends_ite (ends_ok _) (ends_ok _))

theorem checkQueuedRuns_ends {runners : List Runner} {body : Value} (s : Polled)
    (shaped : Shaped (.queuedRuns repo) body)
    (read : ∀ runner ∈ runners, labelsRead runner.labels = true) :
    Ends (checkQueuedRuns config net repo runners body s) := by
  obtain ⟨items, found, each⟩ := listing shaped
  refine (registeredLabels_ends.mpr read).bind (fun _ _ => ?_)
  rw [found, ok_bind, Value.iter, ok_bind]
  exact foldlM_ends (fun run member s' => checkQueued_ends wellFormed s s' (each run member)) s

omit wellFormed in
theorem checkConclusions_ends {branch sha : Str} {sha' body : Value} (s : Polled)
    (shaped : Shaped (.checkRuns repo sha') body) :
    Ends (checkConclusions repo branch (.str sha) body s) := by
  obtain ⟨items, found, each⟩ := listing shaped
  unfold checkConclusions
  rw [found, ok_bind, Value.iter, ok_bind]
  refine foldlM_ends (fun check member s' => ?_) s
  obtain ⟨inner, rfl, word⟩ := each check member
  unfold checkConclusion
  rw [Value.get_dict, ok_bind]
  exact (isNonPassing_ends word).bind (fun listed _ => ends_ite (ends_ok _) (ends_ok _))

omit wellFormed in
theorem plain_of_isHex {sha : Str} (hex : isHex sha = true) : Plain sha = true := by
  have digits : ("0123456789abcdef" : Str).all (fun c => Sent c && c != Chr.ofChar '#') = true := by
    decide
  refine List.all_eq_true.mpr (fun c member => List.all_eq_true.mp digits c ?_)
  exact of_decide_eq_true (List.all_eq_true.mp hex c member)

omit wellFormed in
theorem commit_path_ends (branch : Str) :
    Ends (checkSelector (net.printer.render (Endpoint.commit repo branch).path)) ↔
      Sendable (commitPath repo branch) = true := by
  have path : net.printer.render (Endpoint.commit repo branch).path = commitPath repo branch := by
    simp [Printer.render, Endpoint.path, Printer.frag, commitPath]
  rw [path, checkSelector_ends, Sendable]

theorem checkCommit_ends (sendable : Sendable repo = true) {branch : Str} {body : Value} (s : Polled)
    (shaped : Shaped (.commit repo branch) body) :
    Ends (checkCommit config net repo branch body s) := by
  obtain ⟨fields, sha, rfl, found, hex⟩ := shaped
  have read : getDefault (.dict fields) "sha" (.str []) = .ok (.str sha) := by simp [getDefault, found]
  unfold checkCommit
  rw [read, ok_bind]
  refine ends_ite (ends_ok _) (onOk_ends wellFormed ?_ (fun body s shaped =>
    checkConclusions_ends s shaped) _ s)
  refine (repo_path_ends repo ("/commits/" ++ (sha ++ "/check-runs?per_page=100")) ?_ ?_).mpr sendable
  · simp [Printer.render, Endpoint.path, Printer.frag, Printer.str]
  · exact plain_append (by decide) (plain_append (plain_of_isHex hex) (by decide))

theorem checkGateResults_ends (sendable : Sendable repo = true)
    (branches : ∀ branch ∈ config.watchedBranches, Sendable (commitPath repo branch) = true)
    (s : Polled) : Ends (checkGateResults config net repo s) :=
  foldlM_ends (fun branch member s => onOk_ends wellFormed
    ((commit_path_ends branch).mpr (branches branch member))
    (fun _ s shaped => checkCommit_ends wellFormed sendable s shaped) _ s) s

omit wellFormed in
theorem findWorkflow_ends (wanted : Str) {workflows : List Value}
    (named : ∀ v ∈ workflows, ∃ inner, v = .dict inner ∧
      ∃ name id, Dict.get? inner "name" = some (.str name) ∧ Dict.get? inner "id" = some (.int id)) :
    ∃ found, findWorkflow net wanted workflows = .ok found ∧ ∀ wf, found = some wf → wf ∈ workflows := by
  induction workflows with
  | nil => exact ⟨none, rfl, by simp⟩
  | cons v rest ih =>
      obtain ⟨inner, rfl, name, id, called, -⟩ := named _ List.mem_cons_self
      obtain ⟨found, ran, member⟩ := ih (fun v later => named v (List.mem_cons_of_mem _ later))
      have matched : nameMatches net wanted (.dict inner) =
          .ok (decide (net.unicode.lower wanted <:+: net.unicode.lower name)) := by
        simp [nameMatches, getDefault, called]
      rw [findWorkflow, matched, ok_bind]
      split
      · refine ⟨_, rfl, ?_⟩
        rintro wf same
        cases same
        exact List.mem_cons_self
      · exact ⟨found, ran, fun wf same => List.mem_cons_of_mem _ (member wf same)⟩

theorem checkRecency_ends (overdue what untimed : Str) {inner : List (Str × Value)}
    (stamp : Stamp ((Dict.get? inner "completed_at").getD .null)) (s : Polled) :
    Ends (checkRecency config net repo overdue what untimed (.dict inner) s) := by
  obtain ⟨read, parsed, offset⟩ := parseIso_ends stamp
  unfold checkRecency
  rw [Value.get_dict, ok_bind, parsed, ok_bind]
  cases read with
  | none => exact ends_ok _
  | some completedAt =>
      exact (sub_ends (wellFormed.aware _) (offset completedAt rfl)).bind
        (fun micros _ => ends_ite (ends_ok _) (ends_ok _))

theorem checkDriftRun_ends {inner : List (Str × Value)}
    (word : Word ((Dict.get? inner "conclusion").getD .null))
    (stamp : Stamp ((Dict.get? inner "completed_at").getD .null)) (s : Polled) :
    Ends (checkDriftRun config net repo (.dict inner) s) := by
  unfold checkDriftRun
  rw [Value.get_dict, ok_bind]
  exact (isNonPassing_ends word).bind (fun listed _ => ends_ite (ends_ok _)
    (checkRecency_ends wellFormed _ _ _ stamp s))

theorem checkCoherenceRun_ends {inner : List (Str × Value)}
    (word : Word ((Dict.get? inner "conclusion").getD .null))
    (stamp : Stamp ((Dict.get? inner "completed_at").getD .null)) (s : Polled) :
    Ends (checkCoherenceRun config net repo (.dict inner) s) := by
  unfold checkCoherenceRun
  rw [Value.get_dict, ok_bind]
  exact (isNonPassing_ends word).bind (fun listed _ => ends_ite (ends_ok _)
    (ends_ite (ends_ok _) (checkRecency_ends wellFormed _ _ _ stamp s)))

omit wellFormed in
theorem runs_path_ends (sendable : Sendable repo = true) (id : Int) {tail : Str}
    (plain : Plain tail = true) :
    Ends (checkSelector (net.printer.render (Endpoint.workflowRuns repo (.int id) tail).path)) := by
  refine (repo_path_ends repo ("/actions/workflows/" ++ (Str.ofInt id ++ ("/runs" ++ tail)))
    ?_ ?_).mpr sendable
  · simp [Printer.render, Endpoint.path, Printer.frag, Printer.str, Printer.repr]
  · exact plain_append (by decide) (plain_append (plain_ofInt id) (plain_append (by decide) plain))

omit wellFormed in
theorem workflows_path_ends :
    Ends (checkSelector (net.printer.render (Endpoint.workflows repo).path)) ↔
      Sendable repo = true := by
  refine repo_path_ends repo "/actions/workflows?per_page=100" ?_ (by decide)
  simp [Printer.render, Endpoint.path, Printer.frag]

theorem checkDriftScan_ends (sendable : Sendable repo = true) (s : Polled) :
    Ends (checkDriftScan config net repo s) := by
  refine onOk_ends wellFormed (workflows_path_ends.mpr sendable) (fun body s shaped => ?_) _ s
  obtain ⟨workflows, listed, named⟩ := listing shaped
  obtain ⟨found, ran, member⟩ := @findWorkflow_ends net config.driftWorkflowMatch _ named
  unfold checkDriftWorkflows
  rw [listed, ok_bind, Value.iter, ok_bind, ran, ok_bind]
  cases found with
  | none => exact ends_ok _
  | some wf =>
      obtain ⟨inner, rfl, name, id, called, identified⟩ := named wf (member wf rfl)
      have itemId : Value.item (.dict inner) "id" = .ok (.int id) := by simp [Value.item, identified]
      have itemName : Value.item (.dict inner) "name" = .ok (.str name) := by
        simp [Value.item, called]
      dsimp only
      rw [itemId, ok_bind]
      refine onOk_ends wellFormed (runs_path_ends sendable id (by decide)) (fun body s shaped => ?_) _ s
      obtain ⟨runs, ofBody, each⟩ := listing shaped
      unfold checkDriftRuns
      rw [ofBody, ok_bind, itemName]
      cases runs with
      | nil => exact ends_ok _
      | cons run rest =>
          obtain ⟨fields, rfl, word, stamp⟩ := each run List.mem_cons_self
          exact checkDriftRun_ends wellFormed word stamp s

omit wellFormed in
theorem firstRunOn_ends (branches : List Str) {runs : List Value} {item : List (Str × Value) → Prop}
    (each : ∀ v ∈ runs, ∃ inner, v = .dict inner ∧ item inner) :
    ∃ found, firstRunOn branches runs = .ok found ∧ ∀ run, found = some run → run ∈ runs := by
  induction runs with
  | nil => exact ⟨none, rfl, by simp⟩
  | cons v rest ih =>
      obtain ⟨inner, rfl, -⟩ := each _ List.mem_cons_self
      obtain ⟨found, ran, member⟩ := ih (fun v later => each v (List.mem_cons_of_mem _ later))
      rw [firstRunOn, Value.get_dict, ok_bind]
      dsimp only
      split
      · refine ⟨_, rfl, ?_⟩
        rintro run same
        cases same
        exact List.mem_cons_self
      · exact ⟨found, ran, fun run same => List.mem_cons_of_mem _ (member run same)⟩

theorem checkSpecCoherence_ends (sendable : Sendable repo = true) (s : Polled) :
    Ends (checkSpecCoherence config net repo s) := by
  refine ends_ite (ends_ok _) (onOk_ends wellFormed (workflows_path_ends.mpr sendable)
    (fun body s shaped => ?_) _ s)
  obtain ⟨workflows, listed, named⟩ := listing shaped
  obtain ⟨found, ran, member⟩ := @findWorkflow_ends net config.coherenceWorkflowMatch _ named
  unfold checkCoherenceWorkflows
  rw [listed, ok_bind, Value.iter, ok_bind, ran, ok_bind]
  cases found with
  | none => exact ends_ok _
  | some wf =>
      obtain ⟨inner, rfl, name, id, called, identified⟩ := named wf (member wf rfl)
      have itemId : Value.item (.dict inner) "id" = .ok (.int id) := by simp [Value.item, identified]
      have itemName : Value.item (.dict inner) "name" = .ok (.str name) := by
        simp [Value.item, called]
      dsimp only
      rw [itemId, ok_bind]
      refine onOk_ends wellFormed (runs_path_ends sendable id (by decide)) (fun body s shaped => ?_) _ s
      obtain ⟨runs, ofBody, each⟩ := listing shaped
      obtain ⟨latest, first, inside⟩ := firstRunOn_ends (namedBranches config) each
      unfold checkCoherenceRuns
      rw [ofBody, ok_bind, Value.iter, ok_bind, first, ok_bind, itemName]
      cases latest with
      | none => exact ends_ok _
      | some run =>
          obtain ⟨fields, rfl, word, stamp⟩ := each run (inside run rfl)
          exact checkCoherenceRun_ends wellFormed word stamp s

end

theorem runners_path_ends {net : Outside} {repo : Str} :
    Ends (checkSelector (net.printer.render (Endpoint.runners repo).path)) ↔
      Sendable repo = true := by
  refine repo_path_ends repo "/actions/runners" ?_ (by decide)
  simp [Printer.render, Endpoint.path, Printer.frag]

theorem queue_path_ends {net : Outside} {repo : Str} :
    Ends (checkSelector (net.printer.render (Endpoint.queuedRuns repo).path)) ↔
      Sendable repo = true := by
  refine repo_path_ends repo "/actions/runs?per_page=50&status=queued" ?_ (by decide)
  simp [Printer.render, Endpoint.path, Printer.frag]

/-- With rows that are readable a poll runs to its end. -/
theorem pollRepo_ends {config : Config} {net : Outside} (wellFormed : WellFormed net) {repo : Str}
    {runners : List Runner} (some : runners ≠ [])
    (readable : ∀ runner ∈ runners, Readable config repo runner.labels) (s : Polled) :
    Ends (pollRepo config net repo runners s) := by
  obtain ⟨runner, member⟩ := List.exists_mem_of_ne_nil runners some
  have sendable := (readable runner member).sent
  unfold pollRepo
  refine (onOk_ends wellFormed (runners_path_ends.mpr sendable)
    (fun _ s shaped => checkRunnersOf_ends wellFormed runners s shaped) _ _).bind (fun s _ => ?_)
  refine (onOk_ends wellFormed (queue_path_ends.mpr sendable) (fun _ s shaped =>
    checkQueuedRuns_ends wellFormed s shaped (fun runner member => (readable runner member).read))
      _ _).bind (fun s _ => ?_)
  refine (checkGateResults_ends wellFormed sendable (readable runner member).branches s).bind
    (fun s _ => ?_)
  refine (checkDriftScan_ends wellFormed sendable s).bind (fun s _ => ?_)
  exact checkSpecCoherence_ends wellFormed sendable s

/-- A server with nothing on it. -/
def emptyBody : Endpoint → Value
  | .runners _ => .dict [("runners", .list [])]
  | .queuedRuns _ => .dict [("workflow_runs", .list [])]
  | .commit _ _ => .dict [("sha", .str [])]
  | .checkRuns _ _ => .dict [("check_runs", .list [])]
  | .workflows _ => .dict [("workflows", .list [])]
  | .workflowRuns _ _ _ => .dict [("workflow_runs", .list [])]

def emptyServer : Outside where
  unicode := ⟨Chr.digit?, fun _ => false, fun s => s⟩
  printer := ⟨fun _ => false, fun _ => []⟩
  answer := fun _ request => .ok (200, emptyBody request)
  clock := fun _ => ⟨0, some 0⟩

theorem emptyServer_wellFormed : WellFormed emptyServer := by
  refine ⟨fun n request => ⟨200, emptyBody request, rfl, fun _ => ?_, fun limited => ?_⟩, fun _ => rfl⟩
  · cases request <;> simp [Shaped, emptyBody, Listing, Dict.get?, isHex]
  · omega

/-- A poll of such a server that ran to its end read every row. -/
theorem readable_of_pollRepo {config : Config} {repo : Str} {runners : List Runner} {s : Polled}
    (ran : Ends (pollRepo config emptyServer repo runners s)) :
    ∀ runner ∈ runners, Readable config repo runner.labels := by
  obtain ⟨s₁, status, rest⟩ := ends_bind.mp ran
  obtain ⟨s₂, queue, rest⟩ := ends_bind.mp rest
  obtain ⟨s₃, gates, -⟩ := ends_bind.mp rest
  have sendable := runners_path_ends.mp (sent_of_onOk ⟨s₁, status⟩)
  have labels : Ends (registeredLabels runners) := by
    have answered : emptyServer.okBody s₁.statuses.length (.queuedRuns repo) =
        some (emptyBody (.queuedRuns repo)) := by
      obtain ⟨u, sending⟩ := (@queue_path_ends emptyServer repo).mpr sendable
      exact Outside.okBody_eq_some.mpr ⟨sending, rfl⟩
    rw [checkQueueDrain, Outside.onOk_of_okBody answered] at queue
    obtain ⟨seen, read, -⟩ := ends_bind.mp ⟨s₂, queue⟩
    exact ⟨seen, read⟩
  intro runner member
  refine ⟨registeredLabels_ends.mp labels runner member, sendable, fun branch watched => ?_⟩
  obtain ⟨s', here⟩ := ends_of_foldlM ⟨s₃, gates⟩ branch watched
  exact (commit_path_ends branch).mp (sent_of_onOk here)

/-- A registry is polled through exactly when every enrolled row is readable. -/
theorem pollsThrough_iff {config : Config} {reg : Registry} :
    PollsThrough config reg ↔
      ∀ runner ∈ reg.runners, runner.enrolled = true → Readable config runner.repo runner.labels := by
  have grouped (runner : Runner) (repo : Str) : runner ∈ reg.groupOf repo ↔
      runner ∈ reg.runners ∧ runner.enrolled = true ∧ runner.repo = repo := by
    rw [Registry.groupOf, List.mem_filter, Bool.and_eq_true, beq_iff_eq]
  constructor
  · intro through runner member enrolled
    have inside := (grouped runner runner.repo).mpr ⟨member, enrolled, rfl⟩
    exact readable_of_pollRepo (through runner.repo (List.ne_nil_of_mem inside) emptyServer
      emptyServer_wellFormed ⟨[], []⟩) runner inside
  · intro readable repo some net wellFormed s
    refine pollRepo_ends wellFormed some (fun runner member => ?_) s
    obtain ⟨inside, enrolled, rfl⟩ := (grouped runner repo).mp member
    exact readable runner inside enrolled

end DevGate.Hub
