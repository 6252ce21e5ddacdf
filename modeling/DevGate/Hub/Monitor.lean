import Mathlib.Data.List.Infix
import DevGate.Hub.GithubClient

set_option autoImplicit false

/- `hub.monitor` and `hub.scan_view`: the seven checks of one repository's poll. -/
namespace DevGate.Hub

open Py

structure Config where
  heartbeatIntervalSec : Int
  queueThresholdMin : Flt
  driftGraceMin : Flt
  driftWorkflowMatch : Str
  coherenceWorkflowMatch : Str
  watchedBranches : List Str
  apiBackoffMaxSec : Nat

def nonPassingConclusions : List Str :=
  ["failure", "timed_out", "cancelled", "action_required", "neutral", "stale"]

/-- `conclusion in NON_PASSING_CONCLUSIONS`: the set hashes what it is asked for. -/
def isNonPassing (conclusion : Value) : Except Exc Bool := do
  let key ← conclusion.key
  return nonPassingConclusions.any (fun c => Key.str c == key)

namespace ScanView

/-- `_name_of`. -/
def nameOf (record : Value) : Str :=
  match record.field? "name" with
  | some (.str name) => if name = [] then "<unnamed repository>" else name
  | _ => "<unnamed repository>"

/-- `separator.join(parts)`. -/
def joined (separator : Str) : List Text → Text
  | [] => []
  | [part] => part
  | part :: rest => part ++ (.lit separator :: joined separator rest)

/-- `_findings_detail`. -/
def findingsDetail (bad : List Value) : Text :=
  "uncovered secret(s) in " :: joined ", " (bad.map (fun record =>
    [.lit (nameOf record), " (", .str ((record.field? "uncovered").getD (.int 0)),
      " uncovered of ", .str ((record.field? "findings").getD (.int 0)), " finding(s))"]))

/-- One repository of `_unknown_detail`. -/
def unknownPart (record : Value) : Text :=
  match record with
  | .dict fields =>
      let state := (Dict.get? fields "state").getD .null
      let reason := (Dict.get? fields "reason").getD .null
      if state = .str "unfetchable" ∨ state = .str "unscannable" then
        [.lit (nameOf record), " (", .str state, ": ",
          .str (if reason.truthy then reason else .str "no reason recorded"), ")"]
      else
        [.lit (nameOf record), " (reports state ", .repr state,
          ", which this view has no verdict for)"]
  | _ => [.lit (nameOf record), " (the record is not a repository entry at all)"]

/-- `_unknown_detail`. -/
def unknownDetail (bad : List Value) : Text := "no verdict for " :: joined ", " (bad.map unknownPart)

/-- `scan_state_unknown`, and the list of repositories where it is false. -/
def reposOf (runner : Runner) : Option (List Value) :=
  match runner.scanState with
  | .dict state =>
      if ((Dict.get? state "unreadable").getD .null).truthy then none
      else (Dict.get? state "repos").bind Value.list?
  | _ => none

/-- Why there is no usable reading. -/
def unusableDetail (runner : Runner) : Text :=
  match runner.scanState with
  | .dict state =>
      let reason := (Dict.get? state "unreadable").getD .null
      if reason.truthy then ["its scan report could not be read: ", .str reason]
      else ["its scan report could not be read: it names no repositories at all (no 'repos' list), which is not the same as a fleet with nothing in it"]
  | _ => ["this host has not reported a fleet scan report, so none of its repositories can be counted clean"]

/-- `scan_alerts`. -/
def scanAlerts (runner : Runner) : List (Str × Text) :=
  match reposOf runner with
  | none => [(("runner_scan_unknown" : Str), unusableDetail runner)]
  | some repos =>
      let state (record : Value) := (record.field? "state").getD .null
      let found := repos.filter (fun record => state record = .str "findings")
      let unknown := repos.filter (fun record =>
        state record ≠ .str "findings" ∧ state record ≠ .str "clean")
      (if found = [] then [] else [(("runner_scan_findings" : Str), findingsDetail found)]) ++
        (if unknown = [] then [] else [(("runner_scan_unknown" : Str), unknownDetail unknown)])

end ScanView

namespace Monitor

variable (config : Config) (net : Outside) (repo : Str)

/-- `_check_image_readiness`. -/
def checkImageReadiness (runners : List Runner) (s : Polled) : Polled :=
  runners.foldl
    (fun s runner =>
      if runner.imageDigest.truthy then s
      else s.raiseAlert
        { repo := repo
          checkClass := "runner_image_missing"
          runner := .str runner.name
          detail :=
            if runner.imageReason.truthy then
              ["cannot serve the pinned evaluator image: ", .str runner.imageReason]
            else ["cannot serve the pinned evaluator image: this host has not reported an image state at all, so it cannot be counted ready to gate"] })
    s

/-- `_check_scan_state`. -/
def checkScanState (runners : List Runner) (s : Polled) : Polled :=
  runners.foldl
    (fun s runner => (ScanView.scanAlerts runner).foldl
      (fun s alert => s.raiseAlert ⟨repo, alert.1, .str runner.name, alert.2⟩) s)
    s

/-- `{r["name"]: r for r in items}`. -/
def byName (items : List Value) : Except Exc (Dict Key Value) :=
  items.foldlM
    (fun d r => do
      let name ← r.item "name"
      let key ← name.key
      return Dict.set d key r) []

/-- `last_heartbeat` as stored. -/
def lastHeartbeat (runner : Runner) : Value :=
  match runner.lastHeartbeat with
  | some t => .str (nowIso t)
  | none => .null

/-- `api_runner is not None and api_runner.get("status") == "online"`. -/
def apiOnline (apiRunners : Dict Key Value) (name : Str) : Except Exc Bool :=
  match Dict.get? apiRunners (.str name) with
  | none => .ok false
  | some r => do return (← r.get "status").getD .null == .str "online"

/-- How long ago a time was; nothing for no time. -/
def ageOf (now : Datetime) : Option Datetime → Except Exc (Option Flt)
  | none => .ok none
  | some t => do return some (totalSeconds (← now.sub t))

/-- The reasons of a `runner_offline`. -/
def offlineDetail (online fresh : Bool) (age : Option Flt) : Text :=
  let ageStr : Str := match age with
    | some age => (age.div 60).fixed 1 ++ "m"
    | none => "never"
  ScanView.joined "; "
    ((if online then [] else [(["API status not online"] : Text)]) ++
      (if fresh then [] else [(["heartbeat stale (", .lit ageStr, ")"] : Text)]))

/-- One runner of `_check_runner_status`. -/
def checkRunner (apiRunners : Dict Key Value) (now : Datetime) (s : Polled) (runner : Runner) :
    Except Exc Polled := do
  let online ← apiOnline apiRunners runner.name
  let age ← ageOf now (← parseIso (lastHeartbeat runner))
  let fresh : Bool := match age with
    | some age => age.lt (.fin (config.heartbeatIntervalSec * 2))
    | none => false
  if online ∧ fresh then return s
  else
    return s.raiseAlert ⟨repo, "runner_offline", .str runner.name, offlineDetail online fresh age⟩

/-- `_check_runner_status`, from the answer on. -/
def checkRunnersOf (runners : List Runner) (body : Value) (s : Polled) : Except Exc Polled := do
  let items ← (← getDefault body "runners" (.list [])).iter
  let apiRunners ← byName items
  runners.foldlM (checkRunner config repo apiRunners (net.now s)) s

/-- `_check_runner_status`. -/
def checkRunnerStatus (runners : List Runner) (s : Polled) : Except Exc Polled :=
  net.onOk config.apiBackoffMaxSec (.runners repo) (checkRunnersOf config net repo runners) s

/-- `{lbl for r in runners for lbl in r.get("labels", [])}`: every label is hashed. -/
def registeredLabels (runners : List Runner) : Except Exc (List Key) :=
  runners.foldlM
    (fun seen runner => do
      let labels ← runner.labels.iter
      let keys ← labels.mapM Value.key
      return seen ++ keys) []

/-- One queued run. -/
def checkQueued (now : Datetime) (s : Polled) (run : Value) : Except Exc Polled := do
  let created ← parseIso ((← run.get "created_at").getD .null)
  match created with
  | none => return s
  | some created =>
      let age := totalSeconds (← now.sub created)
      if age.lt (config.queueThresholdMin.mul 60) then return s
      else
        let runId ← getDefault run "run_id" (.str "?")
        let name ← getDefault run "name" (.str "?")
        return s.raiseAlert
          { repo := repo
            checkClass := "queue_stall"
            runner := runId
            detail := ["queued ", .lit ((age.div 60).fixed 0), "m (threshold ",
              .lit (config.queueThresholdMin.fixed 0), "m), run: ", .str name] }

/-- `_check_queue_drain`, from the answer on. -/
def checkQueuedRuns (runners : List Runner) (body : Value) (s : Polled) : Except Exc Polled := do
  let _ ← registeredLabels runners
  let runs ← (← getDefault body "workflow_runs" (.list [])).iter
  runs.foldlM (checkQueued config repo (net.now s)) s

/-- `_check_queue_drain`. -/
def checkQueueDrain (runners : List Runner) (s : Polled) : Except Exc Polled :=
  net.onOk config.apiBackoffMaxSec (.queuedRuns repo) (checkQueuedRuns config net repo runners) s

/-- `v[:8]`. -/
def first8 (v : Value) : Except Exc Value :=
  match v with
  | .str s => .ok (.str (s.take 8))
  | .list vs => .ok (.list (vs.take 8))
  | other => .error ⟨.typeError, ["'", other.typeName, "' object is not subscriptable"]⟩

/-- One check run of a watched branch. -/
def checkConclusion (branch : Str) (sha : Value) (s : Polled) (check : Value) :
    Except Exc Polled := do
  let conclusion := (← check.get "conclusion").getD .null
  if ← isNonPassing conclusion then
    let name ← getDefault check "name" (.str "?")
    let short ← first8 sha
    return s.raiseAlert
      { repo := repo
        checkClass := "gate_failure"
        runner := name
        detail := ["conclusion=", .str conclusion, ", branch=", .lit branch, ", sha=", .str short] }
  else return s

/-- The check runs of a branch's commit. -/
def checkConclusions (branch : Str) (sha body : Value) (s : Polled) : Except Exc Polled := do
  let checks ← (← getDefault body "check_runs" (.list [])).iter
  checks.foldlM (checkConclusion repo branch sha) s

/-- The latest commit of a branch. -/
def checkCommit (branch : Str) (body : Value) (s : Polled) : Except Exc Polled := do
  let sha ← getDefault body "sha" (.str [])
  if sha.truthy = false then return s
  else
    net.onOk config.apiBackoffMaxSec (.checkRuns repo sha) (checkConclusions repo branch sha) s

/-- One watched branch of `_check_gate_results`. -/
def checkGateBranch (s : Polled) (branch : Str) : Except Exc Polled :=
  net.onOk config.apiBackoffMaxSec (.commit repo branch) (checkCommit config net repo branch) s

/-- `_check_gate_results`. -/
def checkGateResults (s : Polled) : Except Exc Polled :=
  config.watchedBranches.foldlM (checkGateBranch config net repo) s

/-- `match.lower() in wf.get("name", "").lower()`. -/
def nameMatches (wanted : Str) (wf : Value) : Except Exc Bool := do
  match ← getDefault wf "name" (.str []) with
  | .str name => return net.unicode.lower wanted <:+: net.unicode.lower name
  | other => .error ⟨.attributeError, ["'", other.typeName, "' object has no attribute 'lower'"]⟩

/-- The first workflow whose name matches. -/
def findWorkflow (wanted : Str) : List Value → Except Exc (Option Value)
  | [] => .ok none
  | wf :: rest => do
      if ← nameMatches net wanted wf then return some wf else findWorkflow wanted rest

/-- `v[0]` of something that is not empty. -/
def first (v : Value) : Except Exc Value :=
  match v with
  | .list (v :: _) => .ok v
  | .str (c :: _) => .ok (.str [c])
  | .dict _ => .error ⟨.keyError, ["0"]⟩
  | other => .error ⟨.typeError, ["'", other.typeName, "' object is not subscriptable"]⟩

/-- 24 hours and the grace. -/
def maxAgeSec : Flt := (config.driftGraceMin.mul 60).plus 86400

/-- `f"{age_sec / 3600:.1f}h"`. -/
def hours (x : Flt) : Str := (x.div 3600).fixed 1 ++ "h"

/-- The recency of the latest run of a scheduled workflow. -/
def checkRecency (overdue what untimed : Str) (latest : Value) (s : Polled) : Except Exc Polled := do
  match ← parseIso ((← latest.get "completed_at").getD .null) with
  | none => return s.raiseAlert ⟨repo, overdue, .str "?", [.lit untimed]⟩
  | some completedAt =>
      let age := totalSeconds (← (net.now s).sub completedAt)
      if (maxAgeSec config).lt age then
        return s.raiseAlert ⟨repo, overdue, .str "?", [.lit what, .lit (hours age), " ago (max ",
          .lit (hours (maxAgeSec config)), ")"]⟩
      else return s

/-- `_check_drift_scan`, from the latest run on. -/
def checkDriftRun (latest : Value) (s : Polled) : Except Exc Polled := do
  let conclusion := (← latest.get "conclusion").getD .null
  if ← isNonPassing conclusion then
    let url ← getDefault latest "html_url" (.str [])
    return s.raiseAlert ⟨repo, "drift_failed", .str "?",
      ["latest drift scan did not pass (conclusion=", .str conclusion, "): ", .str url]⟩
  else
    checkRecency config net repo "drift_overdue" "last drift scan "
      "latest drift scan has no completion timestamp" latest s

/-- `_check_drift_scan`, from the list of runs on. -/
def checkDriftRuns (wf body : Value) (s : Polled) : Except Exc Polled := do
  let runs ← getDefault body "workflow_runs" (.list [])
  if runs.truthy = false then
    let name ← wf.item "name"
    return s.raiseAlert ⟨repo, "drift_overdue", .str "?",
      ["no completed runs for workflow '", .str name, "'"]⟩
  else checkDriftRun config net repo (← first runs) s

/-- `_check_drift_scan`, from the list of workflows on. -/
def checkDriftWorkflows (body : Value) (s : Polled) : Except Exc Polled := do
  let workflows ← (← getDefault body "workflows" (.list [])).iter
  match ← findWorkflow net config.driftWorkflowMatch workflows with
  | none => return s.raiseAlert ⟨repo, "drift_overdue", .str "?",
      ["no workflow matching '", .lit config.driftWorkflowMatch, "' found"]⟩
  | some wf =>
      let id ← wf.item "id"
      net.onOk config.apiBackoffMaxSec (.workflowRuns repo id "?per_page=1")
        (checkDriftRuns config net repo wf) s

/-- `_check_drift_scan`. -/
def checkDriftScan (s : Polled) : Except Exc Polled :=
  net.onOk config.apiBackoffMaxSec (.workflows repo) (checkDriftWorkflows config net repo) s

/-- The watched branches that are named. -/
def namedBranches : List Str := config.watchedBranches.filter (fun b => b ≠ "default")

/-- The first listed run on any of the branches. -/
def firstRunOn (branches : List Str) : List Value → Except Exc (Option Value)
  | [] => .ok none
  | run :: rest => do
      let branch := (← run.get "head_branch").getD .null
      if branches.any (fun b => branch == .str b) then return some run else firstRunOn branches rest

/-- `_check_spec_coherence`, from the latest run on. -/
def checkCoherenceRun (latest : Value) (s : Polled) : Except Exc Polled := do
  let conclusion := (← latest.get "conclusion").getD .null
  if ← isNonPassing conclusion then
    let url ← getDefault latest "html_url" (.str [])
    return s.raiseAlert ⟨repo, "coherence_failure", .str "?",
      ["latest coherence run did not pass (conclusion=", .str conclusion, "): ", .str url]⟩
  else if conclusion = .str "skipped" then
    let branch := (← latest.get "head_branch").getD .null
    let url ← getDefault latest "html_url" (.str [])
    return s.raiseAlert ⟨repo, "coherence_skipped", .str "?",
      ["latest coherence run on branch ", .str branch, " reported SKIPPED: ", .str url]⟩
  else
    checkRecency config net repo "coherence_overdue" "last coherence run "
      "latest coherence run has no completion timestamp" latest s

/-- `_check_spec_coherence`, from the list of runs on. -/
def checkCoherenceRuns (wf body : Value) (s : Polled) : Except Exc Polled := do
  let runs ← (← getDefault body "workflow_runs" (.list [])).iter
  match ← firstRunOn (namedBranches config) runs with
  | none =>
      let name ← wf.item "name"
      return s.raiseAlert ⟨repo, "coherence_missing", .str "?",
        ["no run of workflow '", .str name, "' on any watched branch (",
          .lit (Str.join ", " (namedBranches config)), ")"]⟩
  | some latest => checkCoherenceRun config net repo latest s

/-- `_check_spec_coherence`, from the list of workflows on. -/
def checkCoherenceWorkflows (body : Value) (s : Polled) : Except Exc Polled := do
  let workflows ← (← getDefault body "workflows" (.list [])).iter
  match ← findWorkflow net config.coherenceWorkflowMatch workflows with
  | none => return s.raiseAlert ⟨repo, "coherence_missing", .str "?",
      ["no workflow matching '", .lit config.coherenceWorkflowMatch,
        "' found — the coherence gate has been removed or renamed"]⟩
  | some wf =>
      let id ← wf.item "id"
      net.onOk config.apiBackoffMaxSec (.workflowRuns repo id "?per_page=100")
        (checkCoherenceRuns config net repo wf) s

/-- `_check_spec_coherence`. -/
def checkSpecCoherence (s : Polled) : Except Exc Polled :=
  if namedBranches config = [] then
    .ok (s.raiseAlert ⟨repo, "coherence_unconfigured", .str "?",
      ["no watched branches configured — the coherence check is an explicit no-op, not a pass; set HUB_WATCHED_BRANCHES to enable it"]⟩)
  else net.onOk config.apiBackoffMaxSec (.workflows repo) (checkCoherenceWorkflows config net repo) s

/-- `_poll_repo`: the checks in order; where one raises, those after it do not run. -/
def pollRepo (runners : List Runner) (s : Polled) : Except Exc Polled := do
  let s := checkImageReadiness repo runners s
  let s := checkScanState repo runners s
  let s ← checkRunnerStatus config net repo runners s
  let s ← checkQueueDrain config net repo runners s
  let s ← checkGateResults config net repo s
  let s ← checkDriftScan config net repo s
  checkSpecCoherence config net repo s

end Monitor

end DevGate.Hub
