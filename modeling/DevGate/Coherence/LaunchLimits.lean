import DevGate.Coherence.ContainerIsolation
import DevGate.Py.Raises

set_option autoImplicit false

/- Which launch configurations are held to limits that bound, or refused as such. -/
namespace DevGate.Launcher

open Py Fold
open Profiles (filled?)

/-- A `LaunchError`. -/
def Refused (e : Exc) : Prop := e.isA [launchError] = true

theorem refused_fail (text : Text) : Refused ⟨launchError, text⟩ := by
  exact @Exc.isA_of_cls _ launchError _ _ rfl (by decide)

theorem fail_refused {α : Type} (text : Text) : Fails Refused (fail text : Except Exc α) :=
  Fails.error (refused_fail text)

/-- `validate_launch` of a decoded document. -/
def validateDocument (u : Unicode) (host : Host) (cfg : Value) (supported : List Str) :
    Except Exc Launch :=
  match cfg with
  | .dict kvs => validateLaunch u host kvs supported
  | _ => fail ["bad-config"]

/-- Every limit is a finite number above zero. -/
structure Bounded (ctx : Launch) : Prop where
  scratch : 0 < ctx.scratchBytes
  memory : 0 < ctx.limits.memory
  cpus : ∃ q : Rat, ctx.limits.cpus = .fin q ∧ 0 < q
  timeS : 0 < ctx.limits.timeS
  pids : 0 < ctx.limits.pids
  nofile : 0 < ctx.limits.nofile
  outputBytes : 0 < ctx.limits.outputBytes

/-- What is accepted is bounded, and what is not is refused with a `LaunchError`. -/
structure Bounds (answer : Except Exc Launch) : Prop where
  bounded : ∀ ctx, answer = .ok ctx → Bounded ctx
  refused : Fails Refused answer

/-! What goes wrong. -/

/-- A count of no bytes with a suffix. -/
def NoBytes (u : Unicode) (size : Value) : Prop :=
  ∃ text front c scale n, size = .str text ∧ u.lower (Str.strip text) = front ++ [c] ∧
    (front ++ [c]).all u.isDigit = false ∧ Dict.get? sizeSuffix c = some scale ∧ front ≠ [] ∧
      front.all (fun d => (u.decimal d).isSome) = true ∧ u.int (.str front) = .ok n ∧ n ≤ 0

/-- A mount, new and of both its names, whose source the host cannot look up: `lstat` raises
something else than an OSError, or `realpath` raises on a read-only source. -/
def SourceTrips (host : Host) (seen : List Str) (mt : Value) : Prop :=
  ∃ kvs src tgt, mt = .dict kvs ∧ filled? (Dict.get? kvs "source") = some src ∧
    filled? (Dict.get? kvs "target") = some tgt ∧ tgt ∉ seen ∧
      ((∃ e, host.isSocket (Path.ofStr src) = .error e ∧ e.isA [.osError] = false ∧ ¬ Refused e) ∨
        (isSocket host src = .ok false ∧ Dict.get? kvs "readonly" = some (.bool true) ∧
          ∃ e, realpath host.toDisk src = .error e ∧ ¬ Refused e))

/-- The targets that mounts name. -/
def targets (mounts : List Value) : List Str :=
  mounts.filterMap (fun mt => mt.dict?.bind (fun kvs => filled? (Dict.get? kvs "target")))

/-- The first mounts are accepted, and the next one trips. -/
def MountsTrip (host : Host) (mounts : Value) : Prop :=
  ∃ front mt back, mounts = .list (front ++ mt :: back) ∧ Ends (validateMountList host [] front) ∧
    SourceTrips host (targets front) mt

/-- `_LIMIT_KEYS`. -/
def limitKeys : List Str := ["memory", "cpus", "time_s", "pids", "nofile", "output_bytes"]

/-- One limit is there, readable and not below one. -/
def LimitPasses (u : Unicode) (limits : Dict Str Value) (key : Str) : Prop :=
  if key = "memory" then Ends (limit limits key (parseSize u) (fun n => n ≤ 0))
  else if key = "cpus" then Ends (limit limits key u.float notPositive)
  else Ends (limit limits key u.int (fun n => n ≤ 0))

/-- A number too large for `float()`, or one that is infinite for `int()`. -/
def Overflows (key : Str) (v : Value) : Prop :=
  if key = "memory" then False
  else if key = "cpus" then ∃ n negative, v = .int n ∧ Json.double n = .inf negative
  else ∃ negative, v = .float (.inf negative)

/-- A limit overflows. -/
def LimitTrips (limits : Dict Str Value) (key : Str) : Prop :=
  ∃ v, Dict.get? limits key = some v ∧ Overflows key v

/-- The first limits pass, and the next one overflows. -/
def LimitsTrip (u : Unicode) (limits : Value) : Prop :=
  ∃ kvs front key back, limits = .dict kvs ∧ limitKeys = front ++ key :: back ∧
    (∀ k ∈ front, LimitPasses u kvs k) ∧ LimitTrips kvs key

/-- A self-report without a disagreement whose dropped capabilities are in no container. -/
def DeclaredTrips (cfg : Dict Str Value) (user profile : Str) : Prop :=
  ∃ declared dropped, Dict.get? cfg "declared" = some (.dict declared) ∧
    mismatch declared [("user", .str user), ("read_only_rootfs", .bool true),
      ("network", .str "none"), ("profile", .str profile)] = none ∧
    Dict.get? declared "cap_drop" = some dropped ∧
      dropped.isList = false ∧ dropped.isDict = false ∧ dropped.isStr = false

/-! The pieces of the validation. -/

theorem badSize_fails {text : Text} {P : Exc → Prop} (known : P ⟨.valueError, text⟩) :
    Fails P (badSize text) := Fails.error known

theorem int_text_fails (u : Unicode) (s : Str) :
    Fails (fun e => e.cls = .valueError) (u.int (.str s)) := by
  unfold Unicode.int
  dsimp only
  split
  · exact Fails.ok
  · exact Fails.error rfl

theorem positive_fails (n : Int) : Fails (fun e => e.cls = .valueError) (positive n) := by
  unfold positive
  split
  · exact badSize_fails rfl
  · exact Fails.ok

/-- A size that cannot be read raises a ValueError. -/
theorem parseSize_fails (u : Unicode) (v : Value) :
    Fails (fun e => e.cls = .valueError) (parseSize u v) := by
  unfold parseSize
  split
  · exact positive_fails _
  · dsimp only
    split
    · exact (int_text_fails u _).bind (fun n _ => positive_fails n)
    · split
      · split
        · exact (int_text_fails u _).bind (fun _ _ => Fails.ok)
        · exact badSize_fails rfl
      · exact badSize_fails rfl
  · exact badSize_fails rfl

theorem positive_ok {n m : Int} : positive n = .ok m ↔ 0 < n ∧ n = m := by
  unfold positive badSize
  rw [guard_ok, not_le, Except.ok.injEq]

theorem sizeSuffix_pos {c : Chr} {scale : Int} (known : Dict.get? sizeSuffix c = some scale) :
    0 < scale := by
  have member := Dict.mem_of_get? known
  simp only [sizeSuffix, List.mem_cons, Prod.mk.injEq, List.not_mem_nil, or_false] at member
  rcases member with ⟨-, rfl⟩ | ⟨-, rfl⟩ | ⟨-, rfl⟩ <;> decide

/-- A size that is read is above zero, but for no bytes with a suffix. -/
theorem parseSize_pos {u : Unicode} {v : Value} {n : Int} (read : parseSize u v = .ok n) :
    0 < n ↔ ¬ NoBytes u v := by
  unfold parseSize at read
  split at read
  · obtain ⟨above, rfl⟩ := positive_ok.mp read
    refine iff_of_true above ?_
    rintro ⟨text, front, c, scale, k, same, -⟩
    cases same
  · rename_i text
    dsimp only at read
    split at read
    · rename_i plain
      obtain ⟨m, -, read⟩ := bind_ok.mp read
      obtain ⟨above, rfl⟩ := positive_ok.mp read
      refine iff_of_true above ?_
      rintro ⟨_, front, c, scale, k, same, spelled, mixed, -⟩
      cases same
      rw [spelled, mixed] at plain
      exact Bool.false_ne_true plain.2
    · rename_i suffixed
      split at read
      · rename_i scale known
        split at read
        · rename_i digits
          obtain ⟨m, counted, read⟩ := bind_ok.mp read
          cases read
          obtain ⟨c, ends, known⟩ := Option.bind_eq_some_iff.mp known
          have spelled := (List.dropLast_append_getLast? c ends).symm
          have above : 0 < m * scale ↔ 0 < m := mul_pos_iff_of_pos_right (sizeSuffix_pos known)
          rw [above]
          constructor
          · rintro more ⟨_, front, d, scale', k, same, again, -, -, -, -, counted', low⟩
            cases same
            rw [again, List.dropLast_concat, counted'] at counted
            cases counted
            omega
          · intro bytes
            by_contra low
            refine bytes ⟨text, _, c, scale, m, rfl, spelled, ?_, known, digits.1, digits.2, counted,
              not_lt.mp low⟩
            rw [← spelled]
            rw [Bool.eq_false_iff]
            intro all
            refine suffixed ⟨?_, all⟩
            rw [spelled]
            simp
        · cases read
      · cases read
  · cases read

/-- One limit raises a LaunchError, but for what its reading raises beside ValueError and
TypeError. -/
theorem limit_refused {α : Type} {limits : Dict Str Value} {key : Str}
    {read : Value → Except Exc α} {low : α → Bool} :
    Fails Refused (limit limits key read low) ↔ ∀ v, Dict.get? limits key = some v →
      Fails (fun e => e.isA [.valueError, .typeError] = true ∨ Refused e) (read v) := by
  unfold limit
  cases Dict.get? limits key with
  | none => simp [fail_refused]
  | some v =>
      simp only [Option.some.injEq, forall_eq']
      cases read v with
      | ok n =>
          simp only [fails_ok_iff, iff_true]
          split
          · exact fail_refused _
          · exact Fails.ok
      | error e =>
          dsimp only
          rw [fails_error_iff]
          split
          · rename_i known
            simp [known, fail_refused]
          · rename_i loose
            simp [loose, fails_error_iff]

/-- `int()` of a value raises beside these only on an infinity. -/
theorem int_refused {u : Unicode} {v : Value} :
    Fails (fun e => e.isA [.valueError, .typeError] = true ∨ Refused e) (u.int v) ↔
      ¬ ∃ negative, v = .float (.inf negative) := by
  have value : ∀ text, (⟨.valueError, text⟩ : Exc).isA [.valueError, .typeError] = true := fun _ => rfl
  have type : ∀ text, (⟨.typeError, text⟩ : Exc).isA [.valueError, .typeError] = true := fun _ => rfl
  unfold Unicode.int
  split
  · simp [fails_ok_iff]
  · simp [fails_ok_iff]
  · simp [fails_ok_iff]
  · rename_i negative
    rw [fails_error_iff]
    refine iff_of_false ?_ (fun clear => clear ⟨negative, rfl⟩)
    rintro (known | refused)
    · cases known
    · cases refused
  · simp [fails_error_iff, value]
  · rename_i text
    split
    · simp [fails_ok_iff]
    · simp [fails_error_iff, value]
  · rename_i other _ _ _ _ _ _
    rw [fails_error_iff]
    refine iff_of_true (Or.inl (type _)) ?_
    rintro ⟨negative, same⟩
    simp_all

theorem float_refused {u : Unicode} {v : Value} :
    Fails (fun e => e.isA [.valueError, .typeError] = true ∨ Refused e) (u.float v) ↔
      ¬ ∃ n negative, v = .int n ∧ Json.double n = .inf negative := by
  have value : ∀ text, (⟨.valueError, text⟩ : Exc).isA [.valueError, .typeError] = true := fun _ => rfl
  have type : ∀ text, (⟨.typeError, text⟩ : Exc).isA [.valueError, .typeError] = true := fun _ => rfl
  unfold Unicode.float
  split
  · simp [fails_ok_iff]
  · rename_i n
    split
    · rename_i negative infinite
      rw [fails_error_iff]
      refine iff_of_false ?_ (fun clear => clear ⟨n, negative, rfl, infinite⟩)
      rintro (known | refused)
      · cases known
      · cases refused
    · rename_i finite
      refine iff_of_true Fails.ok ?_
      rintro ⟨m, negative, same, infinite⟩
      cases same
      exact finite negative infinite
  · simp [fails_ok_iff]
  · rename_i text
    split
    · simp [fails_ok_iff]
    · simp [fails_error_iff, value]
  · rename_i other _ _ _ _
    rw [fails_error_iff]
    refine iff_of_true (Or.inl (type _)) ?_
    rintro ⟨m, negative, same, -⟩
    simp_all

theorem isSocket_refused {host : Host} {src : Str} :
    Fails Refused (isSocket host src) ↔
      ¬ ∃ e, host.isSocket (Path.ofStr src) = .error e ∧ e.isA [.osError] = false ∧ ¬ Refused e := by
  unfold isSocket
  cases host.isSocket (Path.ofStr src) with
  | ok answer => simp [fails_ok_iff]
  | error e =>
      dsimp only
      split
      · rename_i absent
        simp [fails_ok_iff, absent]
      · rename_i loud
        simp [fails_error_iff, loud]

/-- A mount is accepted or refused, but for a source that trips. -/
theorem validateMount_refused {host : Host} {seen : List Str} {mt : Value} :
    Fails Refused (validateMount host seen mt) ↔ ¬ SourceTrips host seen mt := by
  unfold validateMount
  split
  · rename_i kvs
    split
    · rename_i src tgt source target
      have named : SourceTrips host seen (.dict kvs) ↔ tgt ∉ seen ∧
          ((∃ e, host.isSocket (Path.ofStr src) = .error e ∧ e.isA [.osError] = false ∧ ¬ Refused e) ∨
            (isSocket host src = .ok false ∧ Dict.get? kvs "readonly" = some (.bool true) ∧
              ∃ e, realpath host.toDisk src = .error e ∧ ¬ Refused e)) := by
        constructor
        · rintro ⟨_, _, _, same, source', target', trips⟩
          cases same
          cases source.symm.trans source'
          cases target.symm.trans target'
          exact trips
        · intro trips
          exact ⟨kvs, src, tgt, rfl, source, target, trips⟩
      rw [named]
      split
      · rename_i twice
        exact iff_of_true (fail_refused _) (fun trips => trips.1 twice)
      · rename_i fresh
        rw [fails_bind_iff, isSocket_refused, not_and, not_or]
        refine Iff.trans (and_congr_right (fun _ => ?_)) (imp_iff_right fresh).symm
        constructor
        · rintro reads ⟨plain, readonly, e, raised, foreign⟩
          have later := reads false plain
          rw [if_neg Bool.false_ne_true, if_neg (not_not.mpr readonly), raised] at later
          exact foreign (later e rfl)
        · intro clear socket told
          split
          · exact fail_refused _
          · split
            · exact fail_refused _
            · rename_i plain readonly
              rw [Bool.not_eq_true] at plain
              subst plain
              refine Fails.bind ?_ (fun _ _ => Fails.ok)
              intro e raised
              by_contra foreign
              exact clear ⟨told, not_not.mp readonly, e, raised, foreign⟩
    · rename_i unnamed
      refine iff_of_true (fail_refused _) ?_
      rintro ⟨_, src, tgt, same, source, target, -⟩
      cases same
      exact unnamed src tgt source target
  · rename_i other
    refine iff_of_true (fail_refused _) ?_
    rintro ⟨kvs, _, _, same, -⟩
    exact other kvs same

/-- An accepted mount has the target it names, which is new. -/
theorem validateMount_named {host : Host} {seen : List Str} {mt : Value} {mount : Mount}
    (accepted : validateMount host seen mt = .ok mount) :
    mount.target ∉ seen ∧ targets [mt] = [mount.target] := by
  unfold validateMount at accepted
  split at accepted
  · split at accepted
    · rename_i kvs _ _ src tgt source target
      split at accepted
      · cases accepted
      · rename_i fresh
        obtain ⟨socket, -, accepted⟩ := bind_ok.mp accepted
        split at accepted
        · cases accepted
        · split at accepted
          · cases accepted
          · obtain ⟨resolved, -, accepted⟩ := bind_ok.mp accepted
            cases accepted
            refine ⟨fresh, ?_⟩
            simp [targets, Value.dict?, target]
    · cases accepted
  · cases accepted

theorem sourceTrips_congr {host : Host} {seen seen' : List Str} {mt : Value}
    (same : ∀ tgt, tgt ∈ seen ↔ tgt ∈ seen') :
    SourceTrips host seen mt ↔ SourceTrips host seen' mt := by
  unfold SourceTrips
  simp only [same]

theorem validateMountList_cons {host : Host} {seen : List Str} {mt : Value} {rest : List Value} :
    validateMountList host seen (mt :: rest) = (validateMount host seen mt >>= fun mount =>
      validateMountList host (mount.target :: seen) rest >>= fun found => .ok (mount :: found)) := rfl

theorem validateMountList_refused {host : Host} {mounts : List Value} {seen : List Str} :
    Fails Refused (validateMountList host seen mounts) ↔
      ∀ front mt back, mounts = front ++ mt :: back → Ends (validateMountList host seen front) →
        ¬ SourceTrips host (targets front ++ seen) mt := by
  induction mounts generalizing seen with
  | nil => simp [validateMountList, fails_ok_iff]
  | cons mt rest ih =>
      rw [validateMountList_cons, fails_bind_iff, validateMount_refused,
        @forall_split_cons _ (fun front y => Ends (validateMountList host seen front) →
          ¬ SourceTrips host (targets front ++ seen) y)]
      refine and_congr ?_ ?_
      · simp [targets, validateMountList]
      · have after : ∀ mount, validateMount host seen mt = .ok mount →
            (Fails Refused (validateMountList host (mount.target :: seen) rest >>=
              fun found => .ok (mount :: found)) ↔ ∀ front y back, rest = front ++ y :: back →
                Ends (validateMountList host seen (mt :: front)) →
                  ¬ SourceTrips host (targets (mt :: front) ++ seen) y) := by
          intro mount accepted
          rw [fails_map_iff, ih]
          refine forall_congr' (fun front => forall_congr' (fun y => forall_congr' (fun back =>
            imp_congr_right (fun _ => imp_congr ?_ (not_congr (sourceTrips_congr ?_))))))
          · rw [validateMountList_cons, accepted]
            exact ends_map_iff.symm
          · intro tgt
            have front' : targets (mt :: front) = mount.target :: targets front := by
              rw [← List.singleton_append, targets, List.filterMap_append]
              exact congrArg (· ++ targets front) (validateMount_named accepted).2
            rw [front']
            simp only [List.mem_append, List.mem_cons, List.cons_append]
            tauto
        cases first : validateMount host seen mt with
        | error e =>
            refine iff_of_true (fun _ ran => by cases ran) ?_
            rintro front y back - reached
            rw [validateMountList_cons, first] at reached
            obtain ⟨found, reached⟩ := reached
            cases reached
        | ok mount =>
            simp only [Except.ok.injEq, forall_eq']
            exact after mount first

theorem validateMounts_refused {host : Host} {mounts : Value} :
    Fails Refused (validateMounts host mounts) ↔ ¬ MountsTrip host mounts := by
  unfold validateMounts
  split
  · rename_i vs
    refine fails_map_iff.trans (validateMountList_refused.trans ?_)
    constructor
    · rintro clear ⟨front, mt, back, same, reached, trips⟩
      cases same
      refine clear front mt back rfl reached ?_
      rwa [List.append_nil]
    · intro clear front mt back split reached trips
      rw [List.append_nil] at trips
      exact clear ⟨front, mt, back, by rw [split], reached, trips⟩
  · rename_i other
    refine iff_of_true (fail_refused _) ?_
    rintro ⟨front, mt, back, same, -⟩
    exact other _ same

theorem memory_refused {u : Unicode} {kvs : Dict Str Value} {low : Int → Bool} :
    Fails Refused (limit kvs "memory" (parseSize u) low) ↔ ¬ LimitTrips kvs "memory" := by
  rw [limit_refused]
  refine iff_of_true ?_ ?_
  · intro v _ e raised
    exact Or.inl (Exc.isA_of_cls (parseSize_fails u v e raised) (by decide))
  · rintro ⟨v, -, overflow⟩
    exact overflow

theorem cpus_refused {u : Unicode} {kvs : Dict Str Value} {low : Flt → Bool} :
    Fails Refused (limit kvs "cpus" u.float low) ↔ ¬ LimitTrips kvs "cpus" := by
  rw [limit_refused, LimitTrips, not_exists]
  refine forall_congr' (fun v => ?_)
  rw [not_and, float_refused]
  exact Iff.rfl

theorem count_refused {u : Unicode} {kvs : Dict Str Value} {low : Int → Bool} {key : Str}
    (size : key ≠ "memory") (share : key ≠ "cpus") :
    Fails Refused (limit kvs key u.int low) ↔ ¬ LimitTrips kvs key := by
  rw [limit_refused, LimitTrips, not_exists]
  refine forall_congr' (fun v => ?_)
  rw [not_and, int_refused, Overflows, if_neg size, if_neg share]

/-- The limits are accepted or refused, but for one that overflows. -/
theorem validateLimits_refused {u : Unicode} {limits : Value} :
    Fails Refused (validateLimits u limits) ↔ ¬ LimitsTrip u limits := by
  unfold validateLimits
  split
  · rename_i kvs
    have split : ¬ LimitsTrip u (.dict kvs) ↔ ∀ front key back, limitKeys = front ++ key :: back →
        ((∀ k ∈ front, LimitPasses u kvs k) → ¬ LimitTrips kvs key) := by
      constructor
      · intro clear front key back split passed trips
        exact clear ⟨kvs, front, key, back, rfl, split, passed, trips⟩
      · rintro clear ⟨_, front, key, back, same, split, passed, trips⟩
        cases same
        exact clear front key back split passed trips
    rw [split]
    unfold limitKeys
    rw [forall_until_cons, forall_until_cons, forall_until_cons, forall_until_cons,
      forall_until_cons, forall_until_cons]
    refine (fails_step_iff (fun _ => ?_)).trans (and_congr memory_refused Iff.rfl)
    refine (fails_step_iff (fun _ => ?_)).trans (and_congr cpus_refused Iff.rfl)
    refine (fails_step_iff (fun _ => ?_)).trans (and_congr (count_refused (by decide) (by decide)) Iff.rfl)
    refine (fails_step_iff (fun _ => ?_)).trans (and_congr (count_refused (by decide) (by decide)) Iff.rfl)
    refine (fails_step_iff (fun _ => ?_)).trans (and_congr (count_refused (by decide) (by decide)) Iff.rfl)
    refine (fails_step_iff (fun _ => ?_)).trans (and_congr (count_refused (by decide) (by decide)) Iff.rfl)
    refine iff_of_true Fails.ok ?_
    simp
  · rename_i other
    refine iff_of_true (fail_refused _) ?_
    rintro ⟨kvs, front, key, back, same, -⟩
    exact other kvs same

theorem within_refused {item : Str} {v : Value} :
    Fails Refused (within item v) ↔ ¬ (v.isList = false ∧ v.isDict = false ∧ v.isStr = false) := by
  cases v <;> simp [within, fails_ok_iff, fails_error_iff, Value.isList, Value.isDict, Value.isStr] <;>
    exact Bool.false_ne_true

/-- The self-report is accepted or refused, but for dropped capabilities that trip. -/
theorem checkDeclared_refused {cfg : Dict Str Value} {user profile : Str} :
    Fails Refused (checkDeclared cfg user profile) ↔ ¬ DeclaredTrips cfg user profile := by
  have unnamed (other : Value) (stated : (Dict.get? cfg "declared").getD .null = other)
      (loose : other.isDict = false) : ¬ DeclaredTrips cfg user profile := by
    rintro ⟨declared, dropped, named, -⟩
    rw [named, Option.getD_some] at stated
    rw [← stated] at loose
    cases loose
  unfold checkDeclared
  split
  · rename_i stated
    exact iff_of_true Fails.ok (unnamed _ stated rfl)
  · rename_i declared stated
    have named : Dict.get? cfg "declared" = some (.dict declared) := by
      cases held : Dict.get? cfg "declared" with
      | none =>
          rw [held] at stated
          cases stated
      | some v =>
          rw [held] at stated
          exact congrArg some stated
    split
    · rename_i field found
      refine iff_of_true (fail_refused _) ?_
      rintro ⟨declared', dropped, named', agrees, -⟩
      rw [named] at named'
      cases named'
      cases found.symm.trans agrees
    · rename_i agrees
      split
      · rename_i missing
        refine iff_of_true Fails.ok ?_
        rintro ⟨declared', dropped, named', -, held, -⟩
        rw [named] at named'
        cases named'
        cases missing.symm.trans held
      · rename_i dropped held
        rw [fails_bind_iff, within_refused, and_iff_left]
        · refine not_congr ⟨fun loose => ⟨declared, dropped, named, agrees, held, loose⟩, ?_⟩
          rintro ⟨declared', dropped', named', -, held', loose⟩
          rw [named] at named'
          cases named'
          cases held.symm.trans held'
          exact loose
        · intro inside _
          split
          · exact Fails.ok
          · exact fail_refused _
  · rename_i other absent plain
    refine iff_of_true (fail_refused _) (unnamed _ rfl ?_)
    cases stated : (Dict.get? cfg "declared").getD .null with
    | dict kvs => exact absurd stated (plain kvs)
    | _ => rfl

/-! The checks that raise nothing else. -/

theorem validateImage_fails (ref : Value) : Fails Refused (validateImage ref) := by
  unfold validateImage
  split
  · split
    · exact fail_refused _
    · split
      · exact Fails.ok
      · exact fail_refused _
  · exact fail_refused _

theorem validateUser_fails (u : Unicode) (v : Option Value) : Fails Refused (validateUser u v) := by
  unfold validateUser
  split
  · dsimp only
    split
    · exact fail_refused _
    · split
      · exact fail_refused _
      · split
        · exact fail_refused _
        · exact Fails.ok
  · exact fail_refused _

theorem checkIsolation_fails (cfg : Dict Str Value) : Fails Refused (checkIsolation cfg) := by
  unfold checkIsolation
  split
  · exact fail_refused _
  · split
    · exact fail_refused _
    · split
      · exact fail_refused _
      · dsimp only
        split
        · exact fail_refused _
        · exact Fails.ok

theorem validateScratch_fails (u : Unicode) (scratch : Option Value) :
    Fails Refused (validateScratch u scratch) := by
  unfold validateScratch
  split
  · exact fail_refused _
  · rename_i size _
    have unread := parseSize_fails u size
    split
    · exact Fails.ok
    · rename_i e raised
      have known : e.isA [.valueError] = true := Exc.isA_of_cls (unread e raised) (by decide)
      rw [if_pos known]
      exact fail_refused _

theorem validateProfileLabel_fails (supported : List Str) (profile : Option Value) :
    Fails Refused (validateProfileLabel supported profile) := by
  unfold validateProfileLabel
  split
  · exact fail_refused _
  · split
    · exact Fails.ok
    · exact fail_refused _

theorem validateDigests_fails (cfg : Dict Str Value) : Fails Refused (validateDigests cfg) := by
  unfold validateDigests
  split
  · exact fail_refused _
  · split
    · exact fail_refused _
    · split
      · exact Fails.ok
      · split
        · exact fail_refused _
        · exact Fails.ok

/-! The whole validation. -/

/-- The size of the scratch space is not no bytes with a suffix. -/
def ScratchHolds (u : Unicode) (cfg : Dict Str Value) : Prop :=
  ∀ scratch size, Dict.get? cfg "scratch" = some (.dict scratch) →
    Dict.get? scratch "size" = some size → ¬ NoBytes u size

/-- The share of processors is a finite number. -/
def CpusFinite (u : Unicode) (cfg : Dict Str Value) : Prop :=
  ∀ limits v, Dict.get? cfg "limits" = some (.dict limits) → Dict.get? limits "cpus" = some v →
    ∃ q, u.float v = .ok (.fin q)

/-- A configuration none of whose reached steps trips, and which, where it passes every check,
has a scratch space of some bytes and a finite share of processors. -/
def Sound (u : Unicode) (host : Host) (cfg : Dict Str Value) (supported : List Str) : Prop :=
  let mounts := (Dict.get? cfg "mounts").getD (.list [])
  let limits := (Dict.get? cfg "limits").getD .null
  Ends (validateImage ((Dict.get? cfg "image").getD .null)) →
  ((Dict.get? cfg "plugins").getD .null).truthy = false →
  ∀ user, validateUser u (Dict.get? cfg "user") = .ok user →
  Ends (checkIsolation cfg) →
    ¬ MountsTrip host mounts ∧ (Ends (validateMounts host mounts) →
  Ends (validateScratch u (Dict.get? cfg "scratch")) →
    ¬ LimitsTrip u limits ∧ (Ends (validateLimits u limits) →
  ∀ profile, validateProfileLabel supported (Dict.get? cfg "profile") = .ok profile →
  Ends (validateDigests cfg) →
    ¬ DeclaredTrips cfg user profile ∧ (Ends (checkDeclared cfg user profile) →
    ScratchHolds u cfg ∧ CpusFinite u cfg)))

theorem bounds_fail (text : Text) : Bounds (fail text) :=
  ⟨fun _ accepted => (by cases accepted), fail_refused text⟩

theorem bounds_bind_iff {α : Type} {x : Except Exc α} {f : α → Except Exc Launch} :
    Bounds (x >>= f) ↔ Fails Refused x ∧ ∀ a, x = .ok a → Bounds (f a) := by
  constructor
  · rintro ⟨bounded, refused⟩
    rw [fails_bind_iff] at refused
    refine ⟨refused.1, fun a ran => ⟨fun ctx accepted => bounded ctx ?_, refused.2 a ran⟩⟩
    rw [ran]
    exact accepted
  · rintro ⟨first, next⟩
    refine ⟨?_, first.bind (fun a ran => (next a ran).refused)⟩
    intro ctx accepted
    obtain ⟨a, ran, accepted⟩ := bind_ok.mp accepted
    exact (next a ran).bounded ctx accepted

theorem limit_ok {α : Type} {limits : Dict Str Value} {key : Str} {read : Value → Except Exc α}
    {low : α → Bool} {n : α} (accepted : limit limits key read low = .ok n) :
    ∃ v, Dict.get? limits key = some v ∧ read v = .ok n ∧ low n = false := by
  unfold limit at accepted
  split at accepted
  · cases accepted
  · rename_i v held
    split at accepted
    · rename_i m ran
      split at accepted
      · cases accepted
      · rename_i above
        cases accepted
        exact ⟨v, held, ran, Bool.eq_false_iff.mpr above⟩
    · split at accepted
      · cases accepted
      · cases accepted

theorem limit_pos {limits : Dict Str Value} {key : Str} {read : Value → Except Exc Int} {n : Int}
    (accepted : limit limits key read (fun n => n ≤ 0) = .ok n) : 0 < n := by
  obtain ⟨_, -, -, above⟩ := limit_ok accepted
  exact not_le.mp (of_decide_eq_false above)

theorem notPositive_false {x : Flt} (above : notPositive x = false) :
    (∃ q : Rat, x = .fin q ∧ 0 < q) ↔ ∃ q, x = .fin q := by
  constructor
  · rintro ⟨q, same, -⟩
    exact ⟨q, same⟩
  · rintro ⟨q, rfl⟩
    exact ⟨q, rfl, not_le.mp (of_decide_eq_false above)⟩

/-- Accepted limits are above zero, and the share of processors is finite where it is read so. -/
theorem validateLimits_bounded {u : Unicode} {cfg : Dict Str Value} {limits : Limits}
    (accepted : validateLimits u ((Dict.get? cfg "limits").getD .null) = .ok limits) :
    0 < limits.memory ∧ 0 < limits.timeS ∧ 0 < limits.pids ∧ 0 < limits.nofile ∧
      0 < limits.outputBytes ∧
      ((∃ q : Rat, limits.cpus = .fin q ∧ 0 < q) ↔ CpusFinite u cfg) := by
  unfold validateLimits at accepted
  split at accepted
  · rename_i kvs stated
    have named : Dict.get? cfg "limits" = some (.dict kvs) := by
      cases held : Dict.get? cfg "limits" with
      | none =>
          rw [held] at stated
          cases stated
      | some v =>
          rw [held] at stated
          exact congrArg some stated
    obtain ⟨memory, memory_ok, accepted⟩ := bind_ok.mp accepted
    obtain ⟨cpus, cpus_ok, accepted⟩ := bind_ok.mp accepted
    obtain ⟨timeS, timeS_ok, accepted⟩ := bind_ok.mp accepted
    obtain ⟨pids, pids_ok, accepted⟩ := bind_ok.mp accepted
    obtain ⟨nofile, nofile_ok, accepted⟩ := bind_ok.mp accepted
    obtain ⟨outputBytes, outputBytes_ok, accepted⟩ := bind_ok.mp accepted
    cases accepted
    refine ⟨limit_pos memory_ok, limit_pos timeS_ok, limit_pos pids_ok, limit_pos nofile_ok,
      limit_pos outputBytes_ok, ?_⟩
    obtain ⟨v, held, read, above⟩ := limit_ok cpus_ok
    rw [notPositive_false above]
    constructor
    · rintro ⟨q, finite⟩ kvs' v' named' held'
      cases named.symm.trans named'
      cases held.symm.trans held'
      exact ⟨q, by rw [read, finite]⟩
    · intro finite
      obtain ⟨q, read'⟩ := finite kvs v named held
      exact ⟨q, Except.ok.inj (read.symm.trans read')⟩
  · cases accepted

/-- An accepted scratch space has some bytes, but for no bytes with a suffix. -/
theorem validateScratch_bounded {u : Unicode} {cfg : Dict Str Value} {n : Int}
    (accepted : validateScratch u (Dict.get? cfg "scratch") = .ok n) :
    0 < n ↔ ScratchHolds u cfg := by
  unfold validateScratch at accepted
  split at accepted
  · cases accepted
  · rename_i size held
    obtain ⟨kvs, named, held⟩ := Option.bind_eq_some_iff.mp held
    obtain ⟨v, looked, dict⟩ := Option.bind_eq_some_iff.mp named
    have same : v = .dict kvs := by
      cases v with
      | dict own => exact congrArg Value.dict (Option.some.inj dict)
      | _ => cases dict
    subst same
    split at accepted
    · rename_i m read
      cases accepted
      rw [parseSize_pos read]
      constructor
      · rintro bytes kvs' size' named' held'
        cases looked.symm.trans named'
        cases held.symm.trans held'
        exact bytes
      · intro holds
        exact holds kvs size looked held
    · split at accepted
      · cases accepted
      · cases accepted

/-- A check whose answer does not matter to the bounds. -/
theorem bounds_step_iff {α : Type} {x : Except Exc α} {f : α → Except Exc Launch} {T Q : Prop}
    (first : Fails Refused x ↔ T) (next : ∀ a, x = .ok a → (Bounds (f a) ↔ Q)) :
    Bounds (x >>= f) ↔ T ∧ (Ends x → Q) := by
  rw [bounds_bind_iff, first]
  refine and_congr_right (fun _ => ?_)
  constructor
  · rintro bounds ⟨a, ran⟩
    exact (next a ran).mp (bounds a ran)
  · intro holds a ran
    exact (next a ran).mpr (holds ⟨a, ran⟩)

theorem bounds_step {α : Type} {x : Except Exc α} {f : α → Except Exc Launch} {Q : Prop}
    (first : Fails Refused x) (next : ∀ a, x = .ok a → (Bounds (f a) ↔ Q)) :
    Bounds (x >>= f) ↔ (Ends x → Q) :=
  (bounds_step_iff (iff_true_intro first) next).trans (Iff.of_eq (true_and _))

theorem bounds_ok {ctx : Launch} : Bounds (.ok ctx) ↔ Bounded ctx := by
  constructor
  · intro bounds
    exact bounds.bounded ctx rfl
  · intro bounded
    refine ⟨?_, Fails.ok⟩
    rintro _ ⟨⟩
    exact bounded

/-- Exactly the sound configurations are held to limits that bound, or refused as such. -/
theorem validateLaunch_bounds_iff {u : Unicode} {host : Host} {cfg : Dict Str Value}
    {supported : List Str} :
    Bounds (validateLaunch u host cfg supported) ↔ Sound u host cfg supported := by
  unfold validateLaunch Sound
  dsimp only
  refine bounds_step (validateImage_fails _) (fun image _ => ?_)
  split
  · rename_i plugged
    refine iff_of_true (bounds_fail _) ?_
    intro none
    exact absurd (plugged.symm.trans none) Bool.noConfusion
  · rename_i plain
    rw [Bool.not_eq_true] at plain
    rw [imp_iff_right plain, bounds_bind_iff, and_iff_right (validateUser_fails _ _)]
    refine forall_congr' (fun user => imp_congr_right (fun _ => ?_))
    refine bounds_step (checkIsolation_fails cfg) (fun _ _ => ?_)
    refine bounds_step_iff validateMounts_refused (fun mounts _ => ?_)
    refine bounds_step (validateScratch_fails _ _) (fun scratchBytes scratch_ok => ?_)
    refine bounds_step_iff validateLimits_refused (fun limits limits_ok => ?_)
    rw [bounds_bind_iff, and_iff_right (validateProfileLabel_fails _ _)]
    refine forall_congr' (fun profile => imp_congr_right (fun _ => ?_))
    refine bounds_step (validateDigests_fails cfg) (fun digests _ => ?_)
    refine bounds_step_iff checkDeclared_refused (fun _ _ => ?_)
    obtain ⟨memory, timeS, pids, nofile, outputBytes, cpus⟩ := validateLimits_bounded limits_ok
    refine bounds_ok.trans ?_
    rw [← validateScratch_bounded scratch_ok, ← cpus]
    constructor
    · intro bounded
      exact ⟨bounded.scratch, bounded.cpus⟩
    · rintro ⟨scratch, cpus⟩
      exact ⟨scratch, memory, cpus, timeS, pids, nofile, outputBytes⟩

/-- Every document but an unsound configuration is held to limits that bound, or refused. -/
theorem launch_bounds_iff (u : Unicode) (host : Host) (doc : Value) (supported : List Str) :
    Bounds (validateDocument u host doc supported) ↔
      ∀ cfg, doc = .dict cfg → Sound u host cfg supported := by
  cases doc with
  | dict cfg =>
      simp only [Value.dict.injEq, forall_eq']
      exact validateLaunch_bounds_iff
  | _ =>
      refine iff_of_true (bounds_fail _) ?_
      rintro cfg ⟨⟩

/-- A launch over one input, with this much scratch space. -/
def scratchConfig (size : Str) : Value :=
  match Container.pilotConfig with
  | .dict cfg => .dict (Dict.set cfg "scratch" (.dict [("size", .str size)]))
  | other => other

/-- A scratch space of no bytes is accepted: zero times a thousand is not checked again. -/
theorem zero_scratch_accepted :
    ¬ Bounds (validateDocument Container.asciiDigits (Container.pilotHost []) (scratchConfig "0k")
      ["linux-amd64-v1"]) := by
  intro bounds
  have scratch : (validateDocument Container.asciiDigits (Container.pilotHost [])
      (scratchConfig "0k") ["linux-amd64-v1"]).toOption.map Launch.scratchBytes = some 0 := by
    decide +kernel
  cases accepted : validateDocument Container.asciiDigits (Container.pilotHost [])
      (scratchConfig "0k") ["linux-amd64-v1"] with
  | error e =>
      rw [accepted] at scratch
      cases scratch
  | ok ctx =>
      rw [accepted] at scratch
      have none : ctx.scratchBytes = 0 := Option.some.inj scratch
      have some := (bounds.bounded ctx accepted).scratch
      omega

end DevGate.Launcher
