import DevGate.Coherence.Issuance
import DevGate.Py.Raises

set_option autoImplicit false

/- What a refused issuance leaves of the adoption sets and of the context that stood before. -/
namespace DevGate.Issue

open Py Canon
open Staged (Stage Settled)

/-- What the file system answers about a path. -/
def standing (disk : Disk) (p : Path) : Bool × Bool × Except Exc Bytes :=
  (disk.exists_ p, disk.isFile p, disk.read p)

/-- The files are what they were, whichever path they are read by. -/
def Unchanged (disk : Disk) (files : List Path) (before after : List (Path × Bytes)) : Prop :=
  ∀ file ∈ files, ∀ p, disk.locate p = disk.locate file →
    standing (disk.after after) p = standing (disk.after before) p

/-- The two sets, and the context that binds them. -/
def Call.files (c : Call) : List Path := [c.baselineFile, c.exceptionsFile, c.contextFile]

/-- Does the context that stands verify the sets that stand? -/
def boundSetsHold (env : Env) (disk : Disk) (c : Call) : Except Exc Unit := do
  let ctx ← Context.load env disk c.ctxDir
  let sets ← Policy.loadAdoptionSets disk c.policyDir
  Context.verifyBoundSets ctx (.list sets.1) (.list sets.2)

/-- A call that raises leaves the sets and the context as they were, and what they verify. -/
def RefusalHarmless (faults : Faults) (env : Env) (disk : Disk) (world : World) (c : Call) : Prop :=
  ∀ e last, issueContext faults env disk c world = (.error e, last) →
    Unchanged disk c.files world.log last.log ∧
      ∀ env', boundSetsHold env' (disk.after last.log) c = boundSetsHold env' (disk.after world.log) c

/-- A stage that writes what its checks find due, if anything. -/
def comesOut (due : Except Exc (Option (Path × Bytes))) (fate : WriteEnd) : Stage (Path × Bytes) :=
  match due with
  | .error _ => { left := [], passed := false }
  | .ok none => { left := [], passed := true }
  | .ok (some write) =>
      match fate with
      | .done => { left := [write], passed := true }
      | .refused _ => { left := [], passed := false }
      | .cut kept _ => { left := [(write.1, write.2.take kept)], passed := false }

/-- A set that is given is due where it is valid. -/
def setDue (file : Path) (label : Str) (entries : Value) : Except Exc (Option (Path × Bytes)) :=
  if entries = .null then .ok none
  else do
    let _ ← setDigest entries label
    return some (file, ← canon entries)

def givenDigest (label : Str) (entries : Value) : Option Str :=
  if entries = .null then none else (setDigest entries label).toOption

def baselineDue (faults : Faults) (disk : Disk) (c : Call) : Except Exc (Option (Path × Bytes)) := do
  let _ ← prepare faults disk c
  setDue c.baselineFile "baseline" c.baselineSet

def exceptionsDue (c : Call) : Except Exc (Option (Path × Bytes)) :=
  setDue c.exceptionsFile "exception" c.exceptionSet

/-- The context is due where the signer set can be loaded, the key is none or in hex, and the
context has canonical bytes. -/
def contextDue (env : Env) (disk : Disk) (c : Call) (prepared : Value × Value) :
    Except Exc (Option (Path × Bytes)) := do
  let signers ← signerDigest disk c
  let bound : Bound := { baseline := givenDigest "baseline" c.baselineSet,
                         exceptions := givenDigest "exception" c.exceptionSet, signers }
  let issued ← issuance env c prepared.1 prepared.2 bound
  return some (c.contextFile, ← canon (.dict (contextDoc c prepared.1 prepared.2 bound issued)))

/-- The stages of a call: the baseline set, the exception set, the context. -/
def stages (faults : Faults) (env : Env) (disk : Disk) (log : List (Path × Bytes)) (c : Call) :
    List (Stage (Path × Bytes)) :=
  let baseline := comesOut (baselineDue faults (disk.after log) c) faults.baseline
  let exceptions := comesOut (exceptionsDue c) faults.exceptions
  let now := disk.after (log ++ baseline.left ++ exceptions.left)
  [baseline, exceptions,
    comesOut (do contextDue env now c (← prepare faults (disk.after log) c)) faults.context]

section

variable {α β : Type} {disk : Disk} {world : World}

/-- An action comes out as a stage does: it writes what the stage leaves, and raises where the
stage does not pass. -/
structure ComesOut (stage : Stage (Path × Bytes)) (answers : α → Prop) (act : Act α)
    (world : World) : Prop where
  passed : stage.passed = true → ∃ a, answers a ∧
    act world = (.ok a, { world with log := world.log ++ stage.left })
  stopped : stage.passed = false → ∃ e,
    act world = (.error e, { world with log := world.log ++ stage.left })

theorem ComesOut.nothing {answers : α → Prop} {a : α} (answered : answers a) (fate : WriteEnd) :
    ComesOut (comesOut (.ok none) fate) answers (pure a) world where
  passed _ := ⟨a, answered, by simp [comesOut]⟩
  stopped h := by cases h

/-- The write of a stage, and what follows it without a failure. -/
theorem ComesOut.write {answers : β → Prop} {fate : WriteEnd} {path : Path} {payload : Bytes}
    {next : Unit → Act β}
    (follows : ∃ b, answers b ∧ ∀ after, next () after = (.ok b, after)) :
    ComesOut (comesOut (.ok (some (path, payload))) fate) answers
      (writeBytes fate path payload >>= next) world := by
  obtain ⟨b, answered, follows⟩ := follows
  cases fate with
  | done =>
      refine ⟨fun _ => ⟨b, answered, ?_⟩, fun h => (by cases h)⟩
      rw [Act.bind_run, writeBytes]
      exact follows _
  | refused e =>
      refine ⟨fun h => (by cases h), fun _ => ⟨e, ?_⟩⟩
      rw [Act.bind_run, writeBytes]
      simp [comesOut]
  | cut kept e => exact ⟨fun h => (by cases h), fun _ => ⟨e, rfl⟩⟩

theorem ComesOut.congr {stage : Stage (Path × Bytes)} {answers : α → Prop} {act other : Act α}
    (same : act world = other world) (out : ComesOut stage answers other world) :
    ComesOut stage answers act world :=
  ⟨fun h => same ▸ out.passed h, fun h => same ▸ out.stopped h⟩

/-- One stage, and the stages after it. -/
theorem ComesOut.andThen {stage : Stage (Path × Bytes)} {rest : List (Stage (Path × Bytes))}
    {answers : α → Prop} {answers' : β → Prop} {act : Act α} {next : α → Act β}
    (first : ComesOut stage answers act world)
    (later : ∀ a, answers a → ComesOut (Staged.run rest) answers' (next a)
      { world with log := world.log ++ stage.left }) :
    ComesOut (Staged.run (stage :: rest)) answers' (act >>= next) world := by
  cases verdict : stage.passed with
  | false =>
      obtain ⟨e, ran⟩ := first.stopped verdict
      rw [Staged.run_stopped verdict]
      refine ⟨fun h => (by rw [verdict] at h; cases h), fun _ => ⟨e, ?_⟩⟩
      rw [Act.bind_run, ran]
  | true =>
      obtain ⟨a, answered, ran⟩ := first.passed verdict
      obtain ⟨passed, stopped⟩ := later a answered
      rw [Staged.run_passed verdict]
      rw [List.append_assoc] at passed stopped
      have runs : (act >>= next) world = next a { world with log := world.log ++ stage.left } := by
        rw [Act.bind_run, ran]
      exact ⟨fun h => runs ▸ passed h, fun h => runs ▸ stopped h⟩

/-- A check of a stage, on what the file system holds by now. -/
theorem ComesOut.read {answers : β → Prop} {body : Disk → Except Exc α} {x : Except Exc α}
    {next : α → Act β} {due : α → Except Exc (Option (Path × Bytes))} {fate : WriteEnd}
    (checks : body (disk.after world.log) = x)
    (later : ∀ a, x = .ok a → ComesOut (comesOut (due a) fate) answers (next a) world) :
    ComesOut (comesOut (x >>= due) fate) answers (reading disk body >>= next) world := by
  cases x with
  | error e =>
      have runs : (reading disk body >>= next) world = (.error e, world) := by
        rw [Act.bind_run, reading, checks]
      exact ⟨fun h => (by cases h), fun _ => ⟨e, by rw [runs]; simp [comesOut]⟩⟩
  | ok a =>
      have runs : (reading disk body >>= next) world = next a world := by
        rw [Act.bind_run, reading, checks]
      obtain ⟨passed, stopped⟩ := later a rfl
      exact ⟨fun h => runs ▸ passed h, fun h => runs ▸ stopped h⟩

theorem ComesOut.check (disk : Disk) {answers : β → Prop} {x : Except Exc α} {next : α → Act β}
    {due : α → Except Exc (Option (Path × Bytes))} {fate : WriteEnd}
    (later : ∀ a, x = .ok a → ComesOut (comesOut (due a) fate) answers (next a) world) :
    ComesOut (comesOut (x >>= due) fate) answers (Act.ofExcept x >>= next) world :=
  @ComesOut.read _ _ disk world _ (fun _ => x) x _ _ _ rfl later

end

section

variable {faults : Faults} {env : Env} {disk : Disk} {world : World} {c : Call}

/-- A set is written where it is valid, and its digest is the one the context binds. -/
theorem storeSet_comesOut (disk : Disk) {fate : WriteEnd} {file : Path} {label : Str} {entries : Value} :
    ComesOut (comesOut (setDue file label entries) fate) (fun a => a = givenDigest label entries)
      (storeSet fate file label entries) world := by
  unfold storeSet setDue
  by_cases given : entries = .null
  · rw [if_pos given, if_pos given]
    exact ComesOut.nothing (by rw [givenDigest, if_pos given]) fate
  · rw [if_neg given, if_neg given]
    refine ComesOut.check disk (fun digest digested => ?_)
    refine ComesOut.check disk (fun payload encoded => ?_)
    refine ComesOut.write ⟨some digest, ?_, fun after => rfl⟩
    rw [givenDigest, if_neg given, digested]
    rfl

/-- The context is written where it is due. -/
theorem writeContext_comesOut {prepared : Value × Value} {now : Disk}
    (current : now = disk.after world.log) :
    ComesOut (comesOut (contextDue env now c prepared) faults.context)
      (fun _ => True)
      (writeContext faults env disk c prepared (givenDigest "baseline" c.baselineSet)
        (givenDigest "exception" c.exceptionSet)) world := by
  subst current
  unfold writeContext contextDue
  refine ComesOut.read rfl (fun signers loaded => ?_)
  refine ComesOut.check disk (fun issued signed => ?_)
  refine ComesOut.check disk (fun payload encoded => ?_)
  simp only [digestObj, encoded, ok_bind]
  exact ComesOut.write ⟨_, trivial, fun after => rfl⟩

/-- The call comes out as its stages do. -/
theorem issueContext_comesOut :
    ComesOut (Staged.run (stages faults env disk world.log c)) (fun _ => True)
      (issueContext faults env disk c) world := by
  unfold issueContext stages baselineDue exceptionsDue
  dsimp only
  cases prepared : prepare faults (disk.after world.log) c with
  | error e =>
      rw [error_bind, Staged.run_stopped rfl]
      refine ⟨fun h => (by cases h), fun _ => ⟨e, ?_⟩⟩
      rw [Act.bind_run, reading, prepared]
      simp [comesOut]
  | ok found =>
      rw [ok_bind, ok_bind]
      have runs : ∀ next : Value × Value → Act Issued,
          (reading disk (fun now => prepare faults now c) >>= next) world = next found world := by
        intro next
        rw [Act.bind_run, reading, prepared]
      refine ComesOut.congr (runs _) ?_
      refine ComesOut.andThen (storeSet_comesOut disk) ?_
      rintro baseline rfl
      refine ComesOut.andThen (storeSet_comesOut disk) ?_
      rintro exceptions rfl
      rw [Staged.run_one]
      exact writeContext_comesOut rfl

theorem canon_ends {v : Value} : Fold.Ends (canon v) ↔ check v = .ok () := by
  constructor
  · rintro ⟨bytes, encoded⟩
    exact (canon_ok.mp encoded).1
  · intro passes
    exact ⟨_, canon_ok.mpr ⟨passes, rfl⟩⟩

theorem check_digestValue (digest : Option Str) : check (digestValue digest) = .ok () := by
  cases digest <;> rfl

/-- A context is canonical where the arguments that it carries as they are given are. -/
theorem check_contextDoc {stage binding : Value} {bound : Bound} {issued : Dict Str Value}
    (texts : ∀ kv ∈ issued, check kv.2 = .ok ()) :
    check (.dict (contextDoc c stage binding bound issued)) = .ok () ↔
      ∀ v ∈ [stage, binding, Value.orElse (some c.capabilityGrants) (.list []),
        Value.orElse (some c.capturedFacts) (.list [])], check v = .ok () := by
  have text : ∀ s, check (.str s) = .ok () := fun _ => rfl
  have signed : check (.dict issued) = .ok () := by
    rw [check, checkPairs_ok]
    exact texts
  have runners : check (.list [.str c.executionProfile]) = .ok () := rfl
  rw [check, checkPairs_ok]
  simp only [contextDoc, List.forall_mem_cons, List.not_mem_nil, false_imp_iff, implies_true,
    text, signed, runners, check_digestValue, true_and, and_true]

/-- The countersignature is over a context that is canonical where the signed one is. -/
theorem issuance_ends {stage binding : Value} {bound : Bound} :
    Fold.Ends (issuance env c stage binding bound) ↔
      Fold.Ends (key env) ∧ ((∃ k, key env = .ok (some k)) →
        ∀ v ∈ [stage, binding, Value.orElse (some c.capabilityGrants) (.list []),
          Value.orElse (some c.capturedFacts) (.list [])], check v = .ok ()) := by
  have same : ∀ fields : Dict Str Value, Dict.erase fields "countersignature" = fields →
      fields ≠ [] → unsigned (contextDoc c stage binding bound fields) =
        .ok (contextDoc c stage binding bound fields) := by
    intro fields plain some_
    have truthy : (Value.dict fields).truthy = true := by
      cases fields with
      | nil => exact absurd rfl some_
      | cons first rest => rfl
    have own : issuanceOf (contextDoc c stage binding bound fields) = .dict fields := by
      unfold issuanceOf
      have held : Dict.get? (contextDoc c stage binding bound fields) "issuance" =
          some (.dict fields) := rfl
      rw [held]
      dsimp only
      rw [if_pos truthy]
    unfold unsigned
    rw [own]
    dsimp only
    rw [plain]
    rfl
  unfold issuance
  cases found : key env with
  | error e => simp
  | ok k =>
      cases k with
      | none => simp
      | some k =>
          rw [ok_bind]
          dsimp only
          unfold signContext countersign
          rw [found, ok_bind]
          dsimp only
          rw [same _ rfl (by simp), ok_bind]
          have texts : ∀ kv ∈ ([("issued_at", .str c.evaluationTime),
              ("issuer", .str (issuerName env c))] : Dict Str Value), check kv.2 = .ok () := by
            simp only [List.forall_mem_cons, List.not_mem_nil, false_imp_iff, implies_true, and_true]
            exact ⟨rfl, rfl⟩
          rw [← check_contextDoc texts, ← canon_ends]
          simp only [pure_ok, ends_map_iff, Fold.ends_ok, true_and]
          exact ⟨fun ends _ => ends, fun ends => ends ⟨k, rfl⟩⟩

/-- Past the sets, the call is refused for its signer set, its key, or an argument that has no
canonical form. -/
theorem contextDue_ends {now : Disk} {prepared : Value × Value} :
    Fold.Ends (contextDue env now c prepared) ↔
      Fold.Ends (signerDigest now c) ∧ Fold.Ends (key env) ∧
        ∀ v ∈ [prepared.1, prepared.2, Value.orElse (some c.capabilityGrants) (.list []),
          Value.orElse (some c.capturedFacts) (.list [])], check v = .ok () := by
  have texts : ∀ stage binding bound issued, issuance env c stage binding bound = .ok issued →
      ∀ kv ∈ issued, check kv.2 = .ok () := by
    intro stage binding bound issued made
    unfold issuance at made
    obtain ⟨found, -, made⟩ := bind_ok.mp made
    cases found with
    | none =>
        cases made
        simp only [List.forall_mem_cons, List.not_mem_nil, false_imp_iff, implies_true, and_true]
        exact ⟨rfl, rfl⟩
    | some k =>
        obtain ⟨sig, -, made⟩ := bind_ok.mp made
        cases made
        show ∀ kv ∈ ([("issued_at", .str c.evaluationTime), ("issuer", .str (issuerName env c)),
          ("countersignature", .str sig)] : Dict Str Value), check kv.2 = .ok ()
        simp only [List.forall_mem_cons, List.not_mem_nil, false_imp_iff, implies_true, and_true]
        exact ⟨rfl, rfl, rfl⟩
  simp only [contextDue, pure_ok, Fold.ends_bind, Fold.ends_ok, and_true]
  constructor
  · rintro ⟨signers, loaded, issued, signed, passes⟩
    have keyed := (issuance_ends.mp ⟨issued, signed⟩).1
    exact ⟨⟨signers, loaded⟩, keyed,
      (check_contextDoc (texts _ _ _ _ signed)).mp (canon_ends.mp passes)⟩
  · rintro ⟨⟨signers, loaded⟩, keyed, passes⟩
    obtain ⟨issued, signed⟩ := issuance_ends.mpr ⟨keyed, fun _ => passes⟩
    exact ⟨signers, loaded, issued, signed,
      canon_ends.mpr ((check_contextDoc (texts _ _ _ _ signed)).mpr passes)⟩

/-- Writes to files that are what they were before leave the file system as it was. -/
theorem after_unchanged {files : List Path} {before writes : List (Path × Bytes)}
    (among : ∀ write ∈ writes, write.1 ∈ files)
    (same : Unchanged disk files before (before ++ writes)) :
    disk.after (before ++ writes) = disk.after before := by
  have each : ∀ p, standing (disk.after (before ++ writes)) p = standing (disk.after before) p := by
    intro p
    by_cases named : ∃ file ∈ files, disk.locate p = disk.locate file
    · obtain ⟨file, inside, located⟩ := named
      exact same file inside p located
    · have missed : disk.written writes (disk.locate p) = none := by
        unfold Disk.written
        rw [Option.map_eq_none_iff, List.find?_eq_none]
        intro write inside
        rw [decide_eq_true_eq]
        exact fun located => named
          ⟨write.1, among write (List.mem_reverse.mp inside), located.symm⟩
      have kept : disk.written (before ++ writes) (disk.locate p) =
          disk.written before (disk.locate p) := by
        rw [Disk.written_append, missed, Option.none_or]
      unfold standing Disk.after
      simp only [kept]
  have split : ∀ p, (disk.after (before ++ writes)).exists_ p = (disk.after before).exists_ p ∧
      (disk.after (before ++ writes)).isFile p = (disk.after before).isFile p ∧
      (disk.after (before ++ writes)).read p = (disk.after before).read p := by
    intro p
    have here := each p
    unfold standing at here
    rw [Prod.mk.injEq, Prod.mk.injEq] at here
    exact here
  have existing := funext (fun p => (split p).1)
  have filed := funext (fun p => (split p).2.1)
  have reads := funext (fun p => (split p).2.2)
  unfold Disk.after at existing filed reads ⊢
  rw [Disk.mk.injEq]
  exact ⟨rfl, existing, filed, rfl, reads⟩

/-- A stage writes to the file that is due. -/
theorem comesOut_left {due : Except Exc (Option (Path × Bytes))} {fate : WriteEnd} {file : Path}
    (ends : ∀ write, due = .ok (some write) → write.1 = file) :
    ∀ write ∈ (comesOut due fate).left, write.1 = file := by
  intro write inside
  unfold comesOut at inside
  split at inside
  · cases inside
  · cases inside
  · rename_i found
    have named := ends found rfl
    split at inside
    · rw [List.mem_singleton] at inside
      rw [inside, named]
    · cases inside
    · rw [List.mem_singleton] at inside
      rw [inside, named]

theorem setDue_file {file : Path} {label : Str} {entries : Value} {write : Path × Bytes}
    (due : setDue file label entries = .ok (some write)) : write.1 = file := by
  unfold setDue at due
  by_cases given : entries = .null
  · rw [if_pos given] at due
    cases due
  · rw [if_neg given] at due
    obtain ⟨_, -, due⟩ := bind_ok.mp due
    obtain ⟨_, -, due⟩ := bind_ok.mp due
    cases due
    rfl

theorem contextDue_file {now : Disk} {prepared : Value × Value} {write : Path × Bytes}
    (due : contextDue env now c prepared = .ok (some write)) : write.1 = c.contextFile := by
  unfold contextDue at due
  obtain ⟨_, -, due⟩ := bind_ok.mp due
  obtain ⟨_, -, due⟩ := bind_ok.mp due
  obtain ⟨_, -, due⟩ := bind_ok.mp due
  cases due
  rfl

/-- The call writes to the three files only. -/
theorem stages_files {log : List (Path × Bytes)} :
    ∀ write ∈ (Staged.run (stages faults env disk log c)).left, write.1 ∈ c.files := by
  intro write inside
  obtain ⟨stage, member, wrote⟩ := Staged.mem_run inside
  unfold stages at member
  simp only [List.mem_cons, List.not_mem_nil, or_false] at member
  unfold Call.files
  simp only [List.mem_cons, List.not_mem_nil, or_false]
  rcases member with rfl | rfl | rfl
  · refine Or.inl (comesOut_left (fun found due => ?_) write wrote)
    obtain ⟨_, -, due⟩ := bind_ok.mp due
    exact setDue_file due
  · exact Or.inr (Or.inl (comesOut_left (fun found due => setDue_file due) write wrote))
  · refine Or.inr (Or.inr (comesOut_left (fun found due => ?_) write wrote))
    obtain ⟨_, -, due⟩ := bind_ok.mp due
    exact contextDue_file due

/-- A refused issuance changes nothing exactly where each of its stages that is reached passes,
or the files that are written by then hold those bytes already. -/
theorem refused_issuance_iff (faults : Faults) (env : Env) (disk : Disk) (world : World) (c : Call) :
    RefusalHarmless faults env disk world c ↔
      Settled (fun writes => Unchanged disk c.files world.log (world.log ++ writes))
        (stages faults env disk world.log c) := by
  have out := @issueContext_comesOut faults env disk world c
  rw [← Staged.harmless_iff]
  constructor
  · intro harmless failed
    obtain ⟨e, ran⟩ := out.stopped failed
    exact (harmless e _ ran).1
  · intro settled e last ran
    cases verdict : (Staged.run (stages faults env disk world.log c)).passed with
    | true =>
        obtain ⟨answer, -, answered⟩ := out.passed verdict
        rw [ran] at answered
        cases answered
    | false =>
        obtain ⟨e', stopped⟩ := out.stopped verdict
        rw [ran] at stopped
        cases stopped
        have same := settled verdict
        refine ⟨same, fun env' => ?_⟩
        rw [after_unchanged stages_files same]

end

def pilotRegistry : Value :=
  .dict [("pilot", .dict [("owner", .str "team"), ("stage", .int 1)])]

/-- A file system with a stage registry, a policy and a baseline set. -/
def issuerDisk (baseline : Value) : Disk where
  resolve p := .ok p
  exists_ _ := true
  isFile _ := true
  isDir _ := true
  read p :=
    if p.name = "stages.json" then .ok (Utf8.ascii (Json.dumps pilotRegistry))
    else if p.name = "baseline.json" then .ok (Utf8.ascii (Json.dumps baseline))
    else .ok (Utf8.ascii (Json.dumps (.dict [])))

/-- A call in which nothing fails on the file system. -/
def noFaults : Faults :=
  { contextDir := none, policyDir := none, baseline := .done, exceptions := .done, context := .done }

def noKey : Env := { key := none, identity := none }

/-- A valid set of baseline entries, and an exception that states nothing. -/
def pilotCall : Call where
  ctxDir := "context"
  policyDir := "policy"
  repo := "pilot"
  registryPath := "stages.json"
  evaluationTime := "2026-01-02T00:00:00Z"
  baselineSet := .list []
  exceptionSet := .list [.dict []]

def pilotDebt : Value :=
  .list [Adoption.debtDoc { assertionId := "a", assertionVersion := 1, subjectLocation := "s",
                            violationKey := "k" }]

def calm : World := { log := [], fates := [], temps := [] }

theorem pilot_registry : Json.Exact pilotRegistry := exact_of_check rfl

theorem pilot_prepares (baseline : Value) :
    ∃ found, prepare noFaults ((issuerDisk baseline).after calm.log) pilotCall = .ok found := by
  have registry : loadStageRegistry ((issuerDisk baseline).after calm.log) "stages.json" =
      .ok [("pilot", .dict [("owner", .str "team"), ("stage", .int 1)])] := by
    have opened : ((issuerDisk baseline).after calm.log).read (Path.ofStr "stages.json") =
        .ok (Utf8.ascii (Json.dumps pilotRegistry)) := rfl
    rw [loadStageRegistry, opened, ok_bind, Json.loadText_dumps pilot_registry]
    rfl
  have policy : readPolicy ((issuerDisk baseline).after calm.log)
      ((Path.ofStr "policy").join "policy.json") = .ok (.dict []) := by
    have opened : ((issuerDisk baseline).after calm.log).read
        ((Path.ofStr "policy").join "policy.json") = .ok (Utf8.ascii (Json.dumps (.dict []))) := rfl
    have loaded := Json.loadText_dumps (exact_of_check (v := .dict []) rfl)
    rw [readPolicy, opened, ok_bind, loaded]
    rfl
  have bound : ∃ binding, policyBinding ((issuerDisk baseline).after calm.log) pilotCall =
      .ok binding := by
    unfold policyBinding
    dsimp only
    rw [show pilotCall.policyDir = "policy" from rfl, policy]
    exact ⟨_, rfl⟩
  obtain ⟨binding, bound⟩ := bound
  refine ⟨(.int 1, binding), ?_⟩
  unfold prepare
  rw [show pilotCall.registryPath = "stages.json" from rfl, registry, bound]
  rfl

/-- The baseline set is replaced before the exception set is refused. -/
theorem replaced_before_refused :
    ¬ RefusalHarmless noFaults noKey (issuerDisk pilotDebt) calm pilotCall := by
  intro harmless
  obtain ⟨found, prepared⟩ := pilot_prepares pilotDebt
  have due : baselineDue noFaults ((issuerDisk pilotDebt).after calm.log) pilotCall =
      .ok (some (pilotCall.baselineFile, Utf8.ascii (Json.dumps (.list [])))) := by
    rw [baselineDue, prepared]
    rfl
  have refused : comesOut (exceptionsDue pilotCall) noFaults.exceptions =
      { left := [], passed := false } := rfl
  have left : Staged.run (stages noFaults noKey (issuerDisk pilotDebt) calm.log pilotCall) =
      { left := [(pilotCall.baselineFile, Utf8.ascii (Json.dumps (.list [])))], passed := false } := by
    unfold stages
    dsimp only
    rw [due, Staged.run_passed rfl, refused, Staged.run_stopped rfl]
    rfl
  have out := @issueContext_comesOut noFaults noKey (issuerDisk pilotDebt) calm pilotCall
  rw [left] at out
  obtain ⟨e, ran⟩ := out.stopped rfl
  have same := (harmless e _ ran).1 pilotCall.baselineFile (by simp [Call.files])
    pilotCall.baselineFile rfl
  have bytes : Utf8.ascii (Json.dumps (.list [])) = Utf8.ascii (Json.dumps pilotDebt) :=
    Except.ok.inj (congrArg (fun answer => answer.2.2) same)
  have decoded := decoded_injective (canon_ok.mpr ⟨rfl, rfl⟩) (canon_ok.mpr ⟨rfl, bytes⟩)
  cases decoded

end DevGate.Issue
