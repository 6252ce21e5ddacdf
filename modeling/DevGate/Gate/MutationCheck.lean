import Mathlib.Data.List.Infix
import DevGate.Py.Sha256

set_option autoImplicit false

/- scripts/mutation_check.py: the two files a run writes, state by state, and what the
next run makes of them when the process is killed in between. -/
namespace DevGate.Gate.Mutation

open Py

/-- The target and its `.mutation-backup`. -/
structure Disk where
  target : Bytes
  backup : Option Bytes
  deriving DecidableEq

/-- The states a piece of the program takes the disk through. -/
abbrev Script : Type := Disk → List Disk

/-- Where a script leaves the disk. -/
def Script.ending (script : Script) (d : Disk) : Disk := (script d).getLastD d

def Script.andThen (first second : Script) : Script := fun d => first d ++ second (first.ending d)

/-- `path.write_bytes(bytes)`: the file is emptied, then the bytes arrive in order. -/
def writeTarget (bytes : Bytes) : Script :=
  fun d => bytes.inits.map (fun written => { d with target := written })

def writeBackup (bytes : Bytes) : Script :=
  fun d => bytes.inits.map (fun written => { d with backup := some written })

def unlinkBackup : Script := fun d => [{ d with backup := none }]

/-- `_Restore.recover`. -/
def recover : Script := fun d =>
  match d.backup with
  | none => []
  | some original => (writeTarget original).andThen unlinkBackup d

/-- The loop over the mutants. -/
def writeAll : List Bytes → Script
  | [] => fun _ => []
  | mutated :: rest => (writeTarget mutated).andThen (writeAll rest)

/-- `with _Restore(target) as restore`. -/
def restoring (original : Bytes) (mutants : List Bytes) : Script :=
  (writeBackup original).andThen
    ((writeAll mutants).andThen ((writeTarget original).andThen unlinkBackup))

/-- `mutations_for`, as files: nothing where the source does not decode or parse. -/
abbrev Mutator : Type := Bytes → Option (List Bytes)

/-- `run_mutations`. -/
def runMutations (mutationsFor : Mutator) : Script :=
  recover.andThen (fun d =>
    match mutationsFor d.target with
    | none => []
    | some mutants => restoring d.target mutants d)

/-- `_git_clean`, inside a work tree that has `committed` for the target. -/
def gitClean (committed : Bytes) (d : Disk) : Bool := d.target = committed

/-- `main`, up to the report. -/
def main (committed : Bytes) (mutationsFor : Mutator) : Script := fun d =>
  if gitClean committed d then runMutations mutationsFor d else []

/-- The file as committed, and no run under way. -/
def atRest (committed : Bytes) : Disk := ⟨committed, none⟩

/-- The next run first brings back the committed bytes: until they are there it
changes nothing but the target, and writes nothing else to it. -/
def Repairs (committed : Bytes) (mutationsFor : Mutator) (killed : Disk) : Prop :=
  ∃ before after, killed :: main committed mutationsFor killed =
      before ++ atRest committed :: after ∧
    ∀ d ∈ before, d.backup = killed.backup ∧ (d.target = killed.target ∨ d.target <+: committed)

/-- Where a run from rest can be killed: `n` bytes of a file have been written. -/
inductive Point where
  | start
  | backup (n : Nat)
  | mutant (mutated : Bytes) (n : Nat)
  | restore (n : Nat)
  | finished

/-- What the kill leaves. -/
def Point.disk (committed : Bytes) : Point → Disk
  | .start => atRest committed
  | .backup n => ⟨committed, some (committed.take n)⟩
  | .mutant mutated n => ⟨mutated.take n, some committed⟩
  | .restore n => ⟨committed.take n, some committed⟩
  | .finished => atRest committed

/-- The points a run over these mutants passes. -/
def Point.Passed (mutants : Option (List Bytes)) : Point → Prop
  | .start => True
  | .mutant mutated _ => ∃ ms, mutants = some ms ∧ mutated ∈ ms
  | _ => mutants.isSome = true

/-- Neither file is being written, or what is there is complete. -/
def Point.Safe (committed : Bytes) : Point → Prop
  | .start => True
  | .backup n => committed.length ≤ n
  | .mutant mutated n => mutated.take n = committed
  | .restore n => committed.length ≤ n
  | .finished => True

theorem Script.ending_andThen (first second : Script) (d : Disk) :
    (first.andThen second).ending d = second.ending (first.ending d) := by
  unfold Script.ending Script.andThen
  cases last : second (first.ending d) with
  | nil =>
      unfold Script.ending at last
      rw [last, List.append_nil]
      rfl
  | cons e rest =>
      unfold Script.ending at last
      rw [last]
      simp [List.getLastD_eq_getLast?, List.getLast?_append]

theorem Script.mem_andThen {first second : Script} {d e : Disk} :
    e ∈ (first.andThen second) d ↔ e ∈ first d ∨ e ∈ second (first.ending d) :=
  List.mem_append

theorem inits_ending (bytes : Bytes) : bytes.inits.getLast? = some bytes := by
  induction bytes with
  | nil => rfl
  | cons b rest ih =>
      rw [List.inits_cons, List.getLast?_cons, List.getLast?_map, ih]
      rfl

@[simp] theorem ending_writeTarget (bytes : Bytes) (d : Disk) :
    (writeTarget bytes).ending d = { d with target := bytes } := by
  unfold Script.ending writeTarget
  rw [List.getLastD_eq_getLast?, List.getLast?_map, inits_ending]
  rfl

@[simp] theorem ending_writeBackup (bytes : Bytes) (d : Disk) :
    (writeBackup bytes).ending d = { d with backup := some bytes } := by
  unfold Script.ending writeBackup
  rw [List.getLastD_eq_getLast?, List.getLast?_map, inits_ending]
  rfl

theorem mem_inits_iff {written bytes : Bytes} : written ∈ bytes.inits ↔ ∃ n, written = bytes.take n := by
  rw [List.mem_inits]
  constructor
  · intro first
    exact ⟨_, List.prefix_iff_eq_take.mp first⟩
  · rintro ⟨n, rfl⟩
    exact List.take_prefix n bytes

theorem mem_writeTarget {bytes : Bytes} {d e : Disk} :
    e ∈ writeTarget bytes d ↔ ∃ n, e = { d with target := bytes.take n } := by
  unfold writeTarget
  simp only [List.mem_map, mem_inits_iff]
  constructor
  · rintro ⟨_, ⟨n, rfl⟩, rfl⟩
    exact ⟨n, rfl⟩
  · rintro ⟨n, rfl⟩
    exact ⟨_, ⟨n, rfl⟩, rfl⟩

theorem mem_writeBackup {bytes : Bytes} {d e : Disk} :
    e ∈ writeBackup bytes d ↔ ∃ n, e = { d with backup := some (bytes.take n) } := by
  unfold writeBackup
  simp only [List.mem_map, mem_inits_iff]
  constructor
  · rintro ⟨_, ⟨n, rfl⟩, rfl⟩
    exact ⟨n, rfl⟩
  · rintro ⟨n, rfl⟩
    exact ⟨_, ⟨n, rfl⟩, rfl⟩

theorem writeAll_backup (mutants : List Bytes) (d : Disk) :
    ((writeAll mutants).ending d).backup = d.backup := by
  induction mutants generalizing d with
  | nil => rfl
  | cons mutated rest ih =>
      unfold writeAll
      rw [Script.ending_andThen, ih, ending_writeTarget]

theorem mem_writeAll {mutants : List Bytes} {d e : Disk} :
    e ∈ writeAll mutants d ↔ ∃ mutated ∈ mutants, ∃ n, e = ⟨mutated.take n, d.backup⟩ := by
  induction mutants generalizing d with
  | nil => simp [writeAll]
  | cons mutated rest ih =>
      unfold writeAll
      rw [Script.mem_andThen, mem_writeTarget, ih, ending_writeTarget]
      simp only [List.exists_mem_cons_iff]

/-- The states of a run from the backup on. -/
theorem mem_restoring {original : Bytes} {mutants : List Bytes} {d e : Disk} :
    e ∈ restoring original mutants d ↔
      (∃ n, e = ⟨d.target, some (original.take n)⟩) ∨
      (∃ mutated ∈ mutants, ∃ n, e = ⟨mutated.take n, some original⟩) ∨
      (∃ n, e = ⟨original.take n, some original⟩) ∨ e = ⟨original, none⟩ := by
  unfold restoring
  rw [Script.mem_andThen, Script.mem_andThen, Script.mem_andThen, mem_writeBackup, mem_writeAll,
    mem_writeTarget, ending_writeTarget, ending_writeBackup, writeAll_backup]
  unfold unlinkBackup
  rw [List.mem_singleton]

/-- A stale backup is written over the target and removed. -/
theorem recover_eq {d : Disk} {original : Bytes} (stale : d.backup = some original) :
    recover d = writeTarget original d ++ [⟨original, none⟩] := by
  unfold recover
  rw [stale]
  dsimp only
  unfold Script.andThen
  rw [ending_writeTarget]
  rfl

theorem recover_ending {d : Disk} {original : Bytes} (stale : d.backup = some original) :
    recover.ending d = ⟨original, none⟩ := by
  unfold Script.ending
  rw [recover_eq stale, List.getLastD_concat]

theorem main_clean {committed : Bytes} {mutationsFor : Mutator} {d : Disk}
    (clean : d.target = committed) : main committed mutationsFor d = runMutations mutationsFor d := by
  unfold main gitClean
  rw [clean, decide_eq_true rfl, if_pos rfl]

theorem main_dirty {committed : Bytes} {mutationsFor : Mutator} {d : Disk}
    (dirty : d.target ≠ committed) : main committed mutationsFor d = [] := by
  unfold main gitClean
  rw [decide_eq_false dirty, if_neg (by decide)]

/-- With a stale backup, a state without one has the backup's bytes for a target. -/
theorem mem_runMutations_stale {mutationsFor : Mutator} {d e : Disk} {original : Bytes}
    (stale : d.backup = some original) (member : e ∈ runMutations mutationsFor d)
    (gone : e.backup = none) : e.target = original := by
  unfold runMutations at member
  rw [Script.mem_andThen, recover_eq stale, recover_ending stale] at member
  rcases member with recovering | running
  · rcases List.mem_append.mp recovering with written | removed
    · obtain ⟨n, rfl⟩ := mem_writeTarget.mp written
      rw [show ({ d with target := original.take n } : Disk).backup = d.backup from rfl, stale] at gone
      cases gone
    · rw [List.mem_singleton.mp removed]
  · dsimp only at running
    split at running
    · cases running
    · rcases mem_restoring.mp running with ⟨n, rfl⟩ | ⟨mutated, -, n, rfl⟩ | ⟨n, rfl⟩ | rfl
      · cases gone
      · cases gone
      · cases gone
      · rfl

/-- The next run repairs exactly a clean target without a backup, or with a complete one. -/
theorem repairs_disk_iff (committed : Bytes) (mutationsFor : Mutator) (killed : Disk) :
    Repairs committed mutationsFor killed ↔
      killed.target = committed ∧ ∀ original, killed.backup = some original → original = committed := by
  constructor
  · rintro ⟨before, after, trace, -⟩
    have rest : atRest committed ∈ killed :: main committed mutationsFor killed := by
      rw [trace]
      exact List.mem_append_right _ List.mem_cons_self
    have clean : killed.target = committed := by
      by_contra dirty
      rw [main_dirty dirty, List.mem_singleton] at rest
      rw [← rest] at dirty
      exact dirty rfl
    refine ⟨clean, fun original stale => ?_⟩
    rcases List.mem_cons.mp rest with same | later
    · rw [← same] at stale
      cases stale
    · rw [main_clean clean] at later
      exact (mem_runMutations_stale stale later rfl).symm
  · rintro ⟨clean, complete⟩
    cases stale : killed.backup with
    | none =>
        have same : killed = atRest committed := by
          cases killed
          cases clean
          cases stale
          rfl
        exact ⟨[], main committed mutationsFor killed, by rw [same]; rfl, by simp⟩
    | some original =>
        have whole := complete original stale
        subst whole
        have trace : main original mutationsFor killed =
            writeTarget original killed ++ atRest original ::
              (match mutationsFor original with
                | none => []
                | some mutants => restoring original mutants (atRest original)) := by
          rw [main_clean clean]
          show recover killed ++ _ = _
          rw [recover_eq stale, recover_ending stale, List.append_assoc]
          rfl
        refine ⟨killed :: writeTarget original killed, _, by rw [trace]; rfl, ?_⟩
        intro d member
        rcases List.mem_cons.mp member with rfl | written
        · exact ⟨rfl, .inl rfl⟩
        · obtain ⟨n, rfl⟩ := mem_writeTarget.mp written
          exact ⟨rfl, .inr (List.take_prefix n original)⟩

/-- The states of a run from rest are those of its points. -/
theorem killed_iff (committed : Bytes) (mutationsFor : Mutator) (killed : Disk) :
    killed ∈ atRest committed :: main committed mutationsFor (atRest committed) ↔
      ∃ point : Point, point.Passed (mutationsFor committed) ∧ point.disk committed = killed := by
  have steps : main committed mutationsFor (atRest committed) =
      (match mutationsFor committed with
        | none => []
        | some mutants => restoring committed mutants (atRest committed)) := main_clean rfl
  rw [List.mem_cons, steps]
  cases generated : mutationsFor committed with
  | none =>
      constructor
      · rintro (rfl | impossible)
        · exact ⟨.start, trivial, rfl⟩
        · cases impossible
      · rintro ⟨point, passed, rfl⟩
        cases point with
        | start => exact .inl rfl
        | mutant mutated n =>
            obtain ⟨_, ⟨⟩, -⟩ := passed
        | backup n => cases passed
        | restore n => cases passed
        | finished => cases passed
  | some mutants =>
      dsimp only
      rw [mem_restoring]
      constructor
      · rintro (rfl | ⟨n, rfl⟩ | ⟨mutated, member, n, rfl⟩ | ⟨n, rfl⟩ | rfl)
        · exact ⟨.start, trivial, rfl⟩
        · exact ⟨.backup n, rfl, rfl⟩
        · exact ⟨.mutant mutated n, ⟨mutants, rfl, member⟩, rfl⟩
        · exact ⟨.restore n, rfl, rfl⟩
        · exact ⟨.finished, rfl, rfl⟩
      · rintro ⟨point, passed, rfl⟩
        cases point with
        | start => exact .inl rfl
        | backup n => exact .inr (.inl ⟨n, rfl⟩)
        | mutant mutated n =>
            obtain ⟨_, ⟨⟩, member⟩ := passed
            exact .inr (.inr (.inl ⟨mutated, member, n, rfl⟩))
        | restore n => exact .inr (.inr (.inr (.inl ⟨n, rfl⟩)))
        | finished => exact .inl rfl

/-- One mutant of a one-byte file. -/
def oneMutant : Mutator := fun _ => some [[1]]

end DevGate.Gate.Mutation
