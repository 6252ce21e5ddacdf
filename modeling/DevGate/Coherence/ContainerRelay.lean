import DevGate.Coherence.ContainerIsolation

set_option autoImplicit false

/- Whose result a relayed exit code belongs to. -/
namespace DevGate.Container

open Py Launcher

/-- The result of a launch, under the host's name for it. -/
def resultPath (l : Launched) : Path := (Path.ofStr l.hostOut).join "result.json"

/-- The container's answer to a launch. -/
def answerOf (p : Printer) (environ : Str → Option Str) (container : Behaviour) (l : Launched) :
    Except Exc LaunchRun := (container (arguments p environ l)).1

/-- What the container did to the result last. -/
def resultTouch (p : Printer) (host : Host) (environ : Str → Option Str) (container : Behaviour)
    (l : Launched) (staged : World) : Option Touch :=
  lastTouch (host.toDisk.after staged.log) (container (arguments p environ l)).2 (resultPath l)

/-- A success that is relayed was written by the container. -/
def Owned (p : Printer) (u : Unicode) (host : Host) (environ : Str → Option Str)
    (container : Behaviour) (requestPath launchPath registryPath : Str) (world staged : World)
    (l : Launched) : Prop :=
  ∀ code last, runContainerized p u host environ container requestPath launchPath registryPath world =
      (.ok code, last) → code ∈ successCodes →
    ∃ path bytes, resultTouch p host environ container l staged = some (.wrote path bytes)

/-- The document that stood in the output directory before the container started. -/
def standing (host : Host) (l : Launched) (staged : World) : Except Exc (Option Value) :=
  readResult ((host.toDisk.after staged.log).read (resultPath l))

/-- The container ends with a success code, leaves the result alone, and an earlier result agrees
with that code. -/
def Stale (p : Printer) (host : Host) (environ : Str → Option Str) (container : Behaviour)
    (l : Launched) (staged : World) : Prop :=
  ∃ rr parsed, answerOf p environ container l = .ok rr ∧ rr.status = .completed ∧
    rr.returncode ∈ successCodes ∧ resultTouch p host environ container l staged = none ∧
    standing host l staged = .ok parsed ∧ agrees rr.returncode parsed = true ∧ errorOf parsed = .null

theorem execution_code {p : Printer} {outDir stage : Str} {reason : Text} {ids : Result.Identities}
    {world last : World} {code : Int}
    (ran : Result.fail p outDir "execution" reason stage ids none world = (.ok code, last)) :
    code ∉ successCodes := by
  rw [Result.fail_code ran]
  decide

/-- What a relayed success was relayed from. -/
theorem relay_success {p : Printer} {l : Launched} {rr : LaunchRun} {bytes : Except Exc Bytes}
    {world last : World} {code : Int} (ran : relay p l rr bytes world = (.ok code, last))
    (success : code ∈ successCodes) :
    rr.returncode = code ∧ ∃ parsed, readResult bytes = .ok parsed ∧
      agrees rr.returncode parsed = true ∧ errorOf parsed = .null := by
  obtain ⟨parsed, w, read, ran⟩ := Act.bind_ok.mp ran
  rw [Act.ofExcept_run, Prod.mk.injEq] at read
  split at ran
  · exact absurd success (execution_code ran)
  · rename_i agreeing
    split at ran
    · exact absurd success (execution_code ran)
    · rename_i clean
      cases ran
      refine ⟨rfl, parsed, read.1, by simpa using agreeing, ?_⟩
      by_contra other
      exact clean ⟨success, other⟩

/-- A run that reached the launcher answers what the launch answers. -/
theorem runContainerized_reached {p : Printer} {u : Unicode} {host : Host}
    {environ : Str → Option Str} {container : Behaviour}
    {requestPath launchPath registryPath : Str} {world staged : World} {l : Launched}
    (reached : prepare p u host requestPath launchPath registryPath world =
      (.ok (.reached l), staged)) :
    runContainerized p u host environ container requestPath launchPath registryPath world =
      launch p host environ container l staged := by
  unfold runContainerized
  rw [Act.bind_run, reached]

theorem launch_success {p : Printer} {host : Host} {environ : Str → Option Str}
    {container : Behaviour} {l : Launched} {staged last : World} {code : Int}
    (ran : launch p host environ container l staged = (.ok code, last))
    (success : code ∈ successCodes) :
    ∃ rr parsed, answerOf p environ container l = .ok rr ∧ rr.status = .completed ∧
      rr.returncode = code ∧
      readResult (readTouched (host.toDisk.after staged.log)
        (container (arguments p environ l)).2 (resultPath l)) = .ok parsed ∧
      agrees rr.returncode parsed = true ∧ errorOf parsed = .null := by
  unfold launch at ran
  unfold answerOf
  cases answer : (container (arguments p environ l)).1 with
  | error e =>
      simp only [answer] at ran
      split at ran
      · exact absurd success (execution_code ran)
      · cases ran
  | ok rr =>
      simp only [answer] at ran
      cases ended : rr.status with
      | timeout =>
          simp only [ended] at ran
          exact absurd success (execution_code ran)
      | outputOverflow =>
          simp only [ended] at ran
          exact absurd success (execution_code ran)
      | completed =>
          simp only [ended] at ran
          obtain ⟨same, parsed, read, agreeing, clean⟩ := relay_success ran success
          exact ⟨rr, parsed, rfl, ended, same, read, agreeing, clean⟩

/-- An earlier result is relayed as it stands. -/
theorem launch_stale {p : Printer} {host : Host} {environ : Str → Option Str}
    {container : Behaviour} {l : Launched} {staged : World}
    (stale : Stale p host environ container l staged) :
    ∃ code ∈ successCodes, launch p host environ container l staged = (.ok code, staged) := by
  obtain ⟨rr, parsed, answer, ended, success, untouched, read, agreeing, clean⟩ := stale
  refine ⟨rr.returncode, success, ?_⟩
  unfold answerOf at answer
  unfold resultTouch at untouched
  unfold standing at read
  have bytes : readTouched (host.toDisk.after staged.log) (container (arguments p environ l)).2
      (resultPath l) = (host.toDisk.after staged.log).read (resultPath l) := by
    unfold readTouched
    rw [untouched]
  unfold launch
  simp only [answer, ended]
  unfold relay
  rw [Act.bind_run, Act.ofExcept_run]
  unfold resultPath at bytes read
  simp only [bytes, read, agreeing, clean, Bool.true_eq_false, ↓reduceIte, ne_eq, not_true_eq_false,
    and_false, Act.pure_run]

/-- A file the container removed has no document. -/
theorem readResult_removed {disk : Disk} {touches : List Touch} {path place : Path}
    (gone : lastTouch disk touches path = some (.removed place)) :
    readResult (readTouched disk touches path) = .ok none := by
  unfold readTouched
  rw [gone]
  rfl

/-- A relayed success belongs to its run exactly where no earlier result agrees with a container
that left it alone. -/
theorem owned_iff {p : Printer} {u : Unicode} {host : Host} {environ : Str → Option Str}
    {container : Behaviour} {requestPath launchPath registryPath : Str} {world staged : World}
    {l : Launched}
    (reached : prepare p u host requestPath launchPath registryPath world =
      (.ok (.reached l), staged)) :
    Owned p u host environ container requestPath launchPath registryPath world staged l ↔
      ¬ Stale p host environ container l staged := by
  unfold Owned
  rw [runContainerized_reached reached]
  constructor
  · intro owned stale
    obtain ⟨code, success, ran⟩ := launch_stale stale
    obtain ⟨path, bytes, wrote⟩ := owned code staged ran success
    obtain ⟨rr, parsed, -, -, -, untouched, -⟩ := stale
    rw [wrote] at untouched
    cases untouched
  · intro fresh code last ran success
    obtain ⟨rr, parsed, answer, ended, rfl, read, agreeing, clean⟩ := launch_success ran success
    cases touched : resultTouch p host environ container l staged with
    | none =>
        have unread : readTouched (host.toDisk.after staged.log)
            (container (arguments p environ l)).2 (resultPath l) =
              (host.toDisk.after staged.log).read (resultPath l) := by
          unfold readTouched
          unfold resultTouch at touched
          rw [touched]
        rw [unread] at read
        exact absurd ⟨rr, parsed, answer, ended, success, touched, read, agreeing, clean⟩ fresh
    | some touch =>
        cases touch with
        | wrote path bytes => exact ⟨path, bytes, rfl⟩
        | removed path =>
            rw [readResult_removed touched, Except.ok.injEq] at read
            subst read
            unfold agrees decisionOf at agreeing
            split at agreeing
            · rename_i expected _
              rw [Value.eq] at agreeing
              simp [Value.same, Value.num?] at agreeing
            · cases agreeing

/-- The container answers `code`, and does this to the files. -/
def answering (code : Int) (touches : List Touch) : Behaviour :=
  fun _ => (.ok ⟨code, [], .completed⟩, touches)

/-- A result of an earlier run. -/
def earlierFiles : List (Path × Bytes) :=
  document "/work/out/result.json" (.dict [("decision", .str "PASS"), ("error", .null)]) ::
    pilotFiles "/work/out"

def earlierPrepare : Except Exc Prepared × World :=
  prepare hexPrinter asciiDigits (pilotHost earlierFiles) "/work/request.json" "/work/launch.json"
    "/registry.json" blankWorld

/-- Does what stands before the launch agree with exit code 0? -/
def standsAgreeing (host : Host) (r : Except Exc Prepared × World) : Bool :=
  match r with
  | (.ok (.reached l), staged) =>
      match standing host l staged with
      | .ok parsed => agrees 0 parsed && errorOf parsed = .null
      | .error _ => false
  | _ => false

theorem stale_of_standing {host : Host} {r : Except Exc Prepared × World}
    (stands : standsAgreeing host r = true) :
    ∃ l staged, r = (.ok (.reached l), staged) ∧
      Stale hexPrinter host (fun _ => none) (answering 0 []) l staged := by
  unfold standsAgreeing at stands
  split at stands
  · rename_i l staged
    refine ⟨l, staged, rfl, ?_⟩
    cases found : standing host l staged with
    | error e =>
        simp only [found] at stands
        cases stands
    | ok parsed =>
        simp only [found, Bool.and_eq_true, decide_eq_true_eq] at stands
        exact ⟨⟨0, [], .completed⟩, parsed, rfl, rfl, by decide, rfl, found, stands.1, stands.2⟩
  · cases stands

/-- The container wrote the result that is relayed. -/
theorem written_owned :
    ∃ l staged, earlierPrepare = (.ok (.reached l), staged) ∧
      Owned hexPrinter asciiDigits (pilotHost earlierFiles) (fun _ => none)
        (answering 0 [.wrote (Path.ofStr "/work/out/result.json") []]) "/work/request.json"
        "/work/launch.json" "/registry.json" blankWorld staged l := by
  have ran : reaches earlierPrepare "/work/out" [⟨"/work/in", "/input"⟩] = true := by
    decide +kernel
  obtain ⟨l, staged, reached, out, -⟩ := reached_of_reaches ran
  refine ⟨l, staged, reached, (owned_iff reached).mpr ?_⟩
  rintro ⟨rr, parsed, -, -, -, untouched, -⟩
  unfold resultTouch resultPath at untouched
  rw [out] at untouched
  cases untouched

/-- The container wrote nothing, and the PASS of an earlier run is relayed. -/
theorem earlier_not_owned :
    ∃ l staged, earlierPrepare = (.ok (.reached l), staged) ∧
      launch hexPrinter (pilotHost earlierFiles) (fun _ => none) (answering 0 []) l staged =
        (.ok 0, staged) ∧
      ¬ Owned hexPrinter asciiDigits (pilotHost earlierFiles) (fun _ => none) (answering 0 [])
        "/work/request.json" "/work/launch.json" "/registry.json" blankWorld staged l := by
  have stands : standsAgreeing (pilotHost earlierFiles) earlierPrepare = true := by decide +kernel
  obtain ⟨l, staged, reached, stale⟩ := stale_of_standing stands
  obtain ⟨code, success, ran⟩ := launch_stale stale
  refine ⟨l, staged, reached, ?_, fun owned => ?_⟩
  · obtain ⟨rr, parsed, answer, -, same, -⟩ := launch_success ran success
    cases answer
    cases same
    exact ran
  · have run := @runContainerized_reached _ _ _ (fun _ => none) (answering 0 []) _ _ _ _ _ _ reached
    obtain ⟨path, bytes, wrote⟩ := owned code staged (by rw [run]; exact ran) success
    cases wrote

end DevGate.Container
