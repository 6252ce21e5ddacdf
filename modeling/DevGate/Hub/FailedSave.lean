import DevGate.Hub.Server

set_option autoImplicit false

/- What a request leaves in memory when `save` raises. -/
namespace DevGate.Hub

open Py Server

inductive Request where
  | enroll (data : Value)
  | heartbeat (data : Value)
  | revoke (data : Value)

def handle (env : Env) (s : HubState) (request : Request) : Answer × HubState :=
  match request with
  | .enroll data => handleEnroll env s data
  | .heartbeat data => handleHeartbeat env s data
  | .revoke data => handleRevoke env s data

/-- A report that tells a row nothing it does not hold. -/
structure Repeats (now : Clock) (report : Report) (runner : Runner) : Prop where
  lastHeartbeat : runner.lastHeartbeat = some now
  lastJobSeen : report.lastJobSeen = .null ∨ report.lastJobSeen = runner.lastJobSeen
  diskOk : report.diskOk = .null ∨ report.diskOk = runner.diskOk
  podmanOk : report.podmanOk = .null ∨ report.podmanOk = runner.podmanOk
  imageDigest : ∀ v, report.imageDigest = some v → v = runner.imageDigest
  imageReason : ∀ v, report.imageReason = some v → v = runner.imageReason
  scanState : ∀ v, report.scanState = some v → v = runner.scanState

/-- The request gives the registry nothing to change: an enroll that its probe
or its token stops, a heartbeat that is not authenticated or repeats its row, a
revoke that is not authenticated. -/
def Still (now : Clock) (reg : Registry) : Request → Prop
  | .enroll data => ∀ request, probeEnroll reg data = .inr request →
      ∀ token, Registry.firstVerified request.presented reg.enrollmentTokens ≠ .ok (some token)
  | .heartbeat (.dict fields) =>
      reg.verifyHeartbeatToken (getOr fields "runner_name" (.str []))
          (getOr fields "heartbeat_token" (.str [])) = .ok true →
        ∀ runner, reg.findRunner (getOr fields "runner_name" (.str [])) = some runner →
          Repeats now (reportOf fields) runner
  | .revoke (.dict fields) =>
      reg.verifyHeartbeatToken (getOr fields "runner_name" (.str []))
          (getOr fields "heartbeat_token" (.str [])) ≠ .ok true
  | _ => True

theorem kept_iff {v old : Value} : (if v = .null then old else v) = old ↔ v = .null ∨ v = old := by
  by_cases absent : v = .null
  · simp [absent]
  · simp [absent]

theorem getD_iff {v : Option Value} {old : Value} : v.getD old = old ↔ ∀ w, v = some w → w = old := by
  cases v <;> simp

theorem reported_eq_iff {now : Clock} {report : Report} {runner : Runner} :
    Registry.reported now report runner = runner ↔ Repeats now report runner := by
  constructor
  · intro same
    have fields := congrArg (fun r : Runner => (r.lastHeartbeat, r.lastJobSeen, r.diskOk, r.podmanOk,
      r.imageDigest, r.imageReason, r.scanState)) same
    simp only [Registry.reported, Prod.mk.injEq] at fields
    obtain ⟨beat, job, disk, podman, digest, reason, scan⟩ := fields
    exact ⟨beat.symm, kept_iff.mp job, kept_iff.mp disk, kept_iff.mp podman, getD_iff.mp digest,
      getD_iff.mp reason, getD_iff.mp scan⟩
  · rintro ⟨beat, job, disk, podman, digest, reason, scan⟩
    simp only [Registry.reported, kept_iff.mpr job, kept_iff.mpr disk, kept_iff.mpr podman,
      getD_iff.mpr digest, getD_iff.mpr reason, getD_iff.mpr scan, ← beat]

theorem updateFirst_eq_iff {α : Type} {fits : α → Bool} {f : α → α} (items : List α) :
    updateFirst fits f items = items ↔ ∀ a, items.find? fits = some a → f a = a := by
  induction items with
  | nil => simp [updateFirst]
  | cons a rest ih =>
      by_cases here : fits a = true
      · simp [updateFirst, here]
      · simpa [updateFirst, here] using ih

theorem updateRunner_eq_iff {reg : Registry} {name : Value} {f : Runner → Runner} :
    reg.updateRunner name f = reg ↔ ∀ runner, reg.findRunner name = some runner → f runner = runner := by
  unfold Registry.updateRunner Registry.findRunner
  rw [← updateFirst_eq_iff]
  constructor
  · intro same
    exact congrArg Registry.runners same
  · intro same
    rw [same]

variable {now : Clock} {minted : Str} {e : Exc} {s : HubState}

theorem enroll_unchanged_iff (data : Value) :
    (handleEnroll ⟨now, minted, some e⟩ s data).2 = s ↔ Still now s.memory (.enroll data) := by
  unfold handleEnroll Still
  cases probed : probeEnroll s.memory data with
  | inl answer =>
      refine ⟨?_, fun _ => rfl⟩
      intro _ request passed
      rw [probed] at passed
      cases passed
  | inr request =>
      have unsaved := @withRegistry_unsaved _ s (doEnroll ⟨now, minted, some e⟩ request) e
        (fun reg ran => doEnroll_none ran)
      refine unsaved.trans ⟨?_, ?_⟩
      · intro unchanged request' same token verified
        rw [probed] at same
        cases same
        -- a changed registry has one more row
        have grown := unchanged _ _ (doEnroll_some.mpr ⟨token, verified, rfl, rfl⟩)
        have rows := congrArg (fun reg : Registry => reg.runners.length) grown
        simp at rows
      · intro still payload reg ran
        obtain ⟨token, verified, -⟩ := doEnroll_some.mp ran
        exact absurd verified (still request probed token)

theorem heartbeat_unchanged_iff (data : Value) :
    (handleHeartbeat ⟨now, minted, some e⟩ s data).2 = s ↔ Still now s.memory (.heartbeat data) := by
  cases data with
  | dict fields =>
      have unsaved := @withRegistry_unsaved _ s (doHeartbeat now (getOr fields "runner_name" (.str []))
        (getOr fields "heartbeat_token" (.str [])) (reportOf fields)) e
        (fun reg ran => doHeartbeat_none ran)
      refine unsaved.trans ⟨?_, ?_⟩
      · intro unchanged verified runner found
        have same := unchanged _ _ (doHeartbeat_some.mpr ⟨verified, rfl, rfl⟩)
        exact reported_eq_iff.mp (updateRunner_eq_iff.mp same runner found)
      · intro still payload reg ran
        obtain ⟨verified, -, rfl⟩ := doHeartbeat_some.mp ran
        rw [updateRunner_eq_iff]
        exact fun runner found => reported_eq_iff.mpr (still verified runner found)
  | _ => simp [handleHeartbeat, Still]

theorem revoke_unchanged_iff (data : Value) :
    (handleRevoke ⟨now, minted, some e⟩ s data).2 = s ↔ Still now s.memory (.revoke data) := by
  cases data with
  | dict fields =>
      have unsaved := @withRegistry_unsaved _ s (doRevoke (getOr fields "runner_name" (.str []))
        (getOr fields "heartbeat_token" (.str []))) e (fun reg ran => doRevoke_none ran)
      refine unsaved.trans ⟨?_, ?_⟩
      · intro unchanged verified
        obtain ⟨runner, found, live, -⟩ := Registry.verifyHeartbeatToken_true.mp verified
        have same := unchanged _ _ (doRevoke_some.mpr ⟨verified, rfl, rfl⟩)
        have dead := congrArg Runner.enrolled (updateRunner_eq_iff.mp same runner found)
        rw [live] at dead
        cases dead
      · intro still payload reg ran
        obtain ⟨verified, -⟩ := doRevoke_some.mp ran
        exact absurd verified still
  | _ => simp [handleRevoke, Still]

/-- Where `save` raises, memory and disk are as before exactly when the request
had nothing to change. -/
theorem failed_save_unchanged_iff (now : Clock) (minted : Str) (e : Exc) (s : HubState)
    (request : Request) :
    (handle ⟨now, minted, some e⟩ s request).2 = s ↔ Still now s.memory request := by
  cases request with
  | enroll data => exact enroll_unchanged_iff data
  | heartbeat data => exact heartbeat_unchanged_iff data
  | revoke data => exact @revoke_unchanged_iff now minted e s data

namespace Full

def noon : Clock := ⟨2026, 9, 27, 12, 0, 0⟩

def disk : Exc := ⟨.osError, ["[Errno 28] No space left on device"]⟩

def hub : HubState :=
  let registry : Registry :=
    ⟨[], [Registry.newRunner noon "t" "r" "o/n" (.list []) (.str [])]⟩
  ⟨registry, some registry⟩

def request : Request :=
  .revoke (.dict [("runner_name", .str "r"), ("heartbeat_token", .str "t")])

end Full

/-- A revoke on a full disk: memory has the runner revoked, the file has it enrolled. -/
theorem full_disk_revokes :
    (handle ⟨Full.noon, [], some Full.disk⟩ Full.hub Full.request).2.memory ≠ Full.hub.memory := by
  decide

end DevGate.Hub
