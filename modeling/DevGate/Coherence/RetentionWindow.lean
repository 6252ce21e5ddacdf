import DevGate.Coherence.Retention
import DevGate.Py.DatetimeText
import DevGate.Py.JsonFaults
import DevGate.Py.Raises

set_option autoImplicit false

/- When a retained bundle is revealed, and what a read raises instead. -/
namespace DevGate.Retention

open Py Fold
open Profiles (isSha)
open Attest (compareDigest)

/-- A `RetentionError`. -/
def Refused (e : Exc) : Prop := e.isA [retentionError] = true

theorem refused_fail (text : Text) : Refused ⟨retentionError, text⟩ := by
  exact @Exc.isA_of_cls _ retentionError _ _ rfl (by decide)

theorem fail_refused {α : Type} (text : Text) : Fails Refused (fail text : Except Exc α) :=
  Fails.error (refused_fail text)

/-! The window. -/

/-- The two times have an order, and `now` is not after `retained` and a time span. -/
def InWindow (retained now : Datetime) (delta : Int) : Prop :=
  retained.offset.isSome = now.offset.isSome ∧ now.instant ≤ retained.instant + delta

/-- The record of a ref states a window that holds this time. -/
def Within (s : Store) (ref asOf : Str) : Prop :=
  ∃ bytes fields retainedAt days retained now delta, s.records ref = some bytes ∧
    Json.loadText bytes = .ok (.dict fields) ∧ Dict.get? fields "retained_at" = some retainedAt ∧
    Dict.get? fields "retention_days" = some days ∧ parse retainedAt = .ok retained ∧
    parse (.str asOf) = .ok now ∧ timedeltaDays days = .ok delta ∧ InWindow retained now delta

/-- What a bundle must be to be revealed. -/
structure Revealable (key : Option Str) (s : Store) (ref : Value) (asOf : Str) (authorization : Value)
    (payload : Bytes) (r : Str) : Prop where
  named : ref = .str r
  wellFormed : isSha r = true
  held : s.bundles r = some payload
  hashes : contentRef payload = r
  authorized : ∃ capability, issue key r = .ok capability ∧ authorization = .str capability
  within : Within s r asOf

/-- A bundle is revealed only to its capability, inside its window; else the read is refused. -/
structure Guarded (key : Option Str) (s : Store) (ref : Value) (asOf : Str)
    (authorization : Value) : Prop where
  revealed : ∀ payload, read key s ref asOf authorization = .ok payload →
    ∃ r, Revealable key s ref asOf authorization payload r
  refused : Fails Refused (read key s ref asOf authorization)

/-- The record can be read, or is no JSON; its time, where it has one, is a text, and where both
times are times it states a number of days that makes a window, whose end has an order with the
time of the read. -/
def Dated (bytes : Bytes) (asOf : Str) : Prop :=
  (∀ e, Json.loadText bytes = .error e → e.cls = .jsonDecodeError) ∧
    ∀ fields retainedAt, Json.loadText bytes = .ok (.dict fields) →
      Dict.get? fields "retained_at" = some retainedAt →
        (∃ s, retainedAt = .str s) ∧ ∀ retained now, parse retainedAt = .ok retained →
          parse (.str asOf) = .ok now → ∃ days delta expiry,
            Dict.get? fields "retention_days" = some days ∧ timedeltaDays days = .ok delta ∧
              retained.add delta = .ok expiry ∧ retained.offset.isSome = now.offset.isSome

/-- Past the checks of the ref and the key, the authorization is no text beyond ASCII, and where it
is the capability the record is dated. -/
def Orderly (key : Option Str) (s : Store) (ref : Value) (asOf : Str) (authorization : Value) : Prop :=
  ∀ r payload capability, ref = .str r → isSha r = true → s.bundles r = some payload →
    issue key r = .ok capability → (∀ text, authorization = .str text → Utf8.IsAscii text) ∧
      (authorization = .str capability → ∀ bytes, s.records r = some bytes → Dated bytes asOf)

/-! The steps of a read. -/

theorem checkRef_ok {ref : Value} {r : Str} :
    checkRef ref = .ok r ↔ ref = .str r ∧ isSha r = true := by
  unfold checkRef
  cases found : ref.str?.filter isSha with
  | none =>
      refine iff_of_false (fun same => by cases same) ?_
      rintro ⟨rfl, sha⟩
      simp [Value.str?, sha] at found
  | some r' =>
      rw [Option.filter_eq_some_iff] at found
      obtain ⟨text, sha⟩ := found
      have named : ref = .str r' := by
        cases ref with
        | str s => exact congrArg Value.str (Option.some.inj text)
        | _ => cases text
      subst named
      simp only [Except.ok.injEq, Value.str.injEq]
      constructor
      · rintro rfl
        exact ⟨rfl, sha⟩
      · rintro ⟨rfl, -⟩
        rfl

theorem checkRef_fails (ref : Value) : Fails Refused (checkRef ref) := by
  unfold checkRef
  split
  · exact Fails.ok
  · exact fail_refused _

theorem retentionKey_fails (key : Option Str) : Fails Refused (retentionKey key) := by
  unfold retentionKey
  dsimp only
  split
  · exact fail_refused _
  · split
    · exact Fails.ok
    · exact fail_refused _

theorem issue_fails (key : Option Str) (ref : Str) : Fails Refused (issue key ref) :=
  (retentionKey_fails key).bind (fun _ _ => Fails.ok)

/-- An authorization is compared, unless it is a text beyond ASCII. -/
theorem authorize_refused {key : Option Str} {ref : Str} {authorization : Value} :
    Fails Refused (authorize key ref authorization) ↔ ∀ capability, issue key ref = .ok capability →
      ∀ text, authorization = .str text → Utf8.IsAscii text := by
  unfold authorize
  have known := issue_fails key ref
  cases issued : issue key ref with
  | error e =>
      have caught : e.isA [retentionError] = true := known e issued
      simp only [caught, ↓reduceIte]
      exact iff_of_true (fail_refused _) (by simp)
  | ok expected =>
      simp only [Except.ok.injEq, forall_eq']
      cases authorization with
      | str text =>
          simp only [Value.isStr, Bool.true_eq_false, ↓reduceIte, compareDigest, Value.str.injEq,
            forall_eq']
          split
          · rename_i plain
            refine iff_of_true ?_ ?_
            · refine Fails.bind Fails.ok (fun same _ => ?_)
              split
              · exact Fails.ok
              · exact fail_refused _
            · intro c inside
              exact of_decide_eq_true (List.all_eq_true.mp plain c inside)
          · rename_i wide
            refine iff_of_false ?_ ?_
            · intro refused
              cases refused _ rfl
            · intro plain
              exact wide (List.all_eq_true.mpr (fun c inside => decide_eq_true (plain c inside)))
      | _ => exact iff_of_true (fail_refused _) (by simp)

theorem authorize_ok {key : Option Str} {ref : Str} {authorization : Value} {u : Unit} :
    authorize key ref authorization = .ok u → ∃ capability, issue key ref = .ok capability ∧
      authorization = .str capability := by
  unfold authorize
  cases issued : issue key ref with
  | error e =>
      dsimp only
      split
      · intro same
        cases same
      · intro same
        cases same
  | ok expected =>
      cases authorization with
      | str text =>
          simp only [Value.isStr, Bool.true_eq_false, ↓reduceIte, compareDigest]
          split
          · intro same
            obtain ⟨matches_, first, same⟩ := bind_ok.mp same
            rw [Except.ok.injEq] at first
            split at same
            · rename_i equal
              rw [← first, decide_eq_true_eq] at equal
              exact ⟨expected, rfl, by rw [equal]⟩
            · cases same
          · intro same
            cases same
      | _ =>
          intro same
          cases same

theorem loadRecord_refused {s : Store} {ref : Str} :
    Fails Refused (loadRecord s ref) ↔ ∀ bytes, s.records ref = some bytes →
      ∀ e, Json.loadText bytes = .error e → e.cls = .jsonDecodeError := by
  unfold loadRecord
  cases held : s.records ref with
  | none => exact iff_of_true (fail_refused _) (by simp)
  | some bytes =>
      simp only [Option.some.injEq, forall_eq']
      have known := Json.loadText_fails bytes
      cases loaded : Json.loadText bytes with
      | ok v => exact iff_of_true Fails.ok (by simp)
      | error e =>
          simp only [Except.error.injEq, forall_eq']
          have caught : e.isA [.osError, .jsonDecodeError] = true ↔ e.cls = .jsonDecodeError := by
            unfold Exc.isA
            have cls := known e loaded
            simp only [Json.Unreadable, List.mem_cons, List.not_mem_nil, or_false] at cls
            rcases cls with cls | cls | cls | cls <;> rw [cls] <;> decide
          rw [← caught]
          split
          · rename_i decode
            exact iff_of_true (fail_refused _) decode
          · rename_i other
            refine iff_of_false ?_ other
            intro refused
            have cls := known e loaded
            have raised : e.isA [retentionError] = true := refused e rfl
            unfold Exc.isA at raised
            simp only [Json.Unreadable, List.mem_cons, List.not_mem_nil, or_false] at cls
            rcases cls with cls | cls | cls | cls <;> rw [cls] at raised <;> cases raised

theorem loadRecord_ok {s : Store} {ref : Str} {v : Value} :
    loadRecord s ref = .ok v ↔ ∃ bytes, s.records ref = some bytes ∧ Json.loadText bytes = .ok v := by
  unfold loadRecord
  cases s.records ref with
  | none => exact iff_of_false (fun same => by cases same) (by simp)
  | some bytes =>
      simp only [Option.some.injEq, exists_eq_left']
      cases Json.loadText bytes with
      | ok v' => exact Iff.rfl
      | error e =>
          dsimp only
          split
          · exact iff_of_false (fun same => by cases same) (fun same => by cases same)
          · exact iff_of_false (fun same => by cases same) (fun same => by cases same)

/-! Times. -/

theorem parse_text_fails (s : Str) : Fails (fun e => e.cls = .valueError) (parse (.str s)) := by
  unfold parse Datetime.fromisoformat
  dsimp only
  split
  · exact Fails.ok
  · exact Fails.error rfl

abbrev Caught (e : Exc) : Prop := e.isA [.valueError, .keyError, .typeError] = true

theorem item_fails (v : Value) (key : Str) : Fails Caught (v.item key) := by
  unfold Value.item
  split
  · split
    · exact Fails.ok
    · exact Fails.error (@Exc.isA_of_cls _ .keyError _ _ rfl (by decide))
  all_goals exact Fails.error (@Exc.isA_of_cls _ .typeError _ _ rfl (by decide))

/-- A time that is no text raises beside these. -/
theorem parse_caught {v : Value} :
    Fails (fun e => Caught e ∨ Refused e) (parse v) ↔ ∃ s, v = .str s := by
  cases v with
  | str s =>
      refine iff_of_true (fun e raised => Or.inl ?_) ⟨s, rfl⟩
      exact Exc.isA_of_cls (parse_text_fails s e raised) (by decide)
  | _ =>
      refine iff_of_false ?_ (by simp)
      intro fails
      rcases fails _ rfl with caught | refused
      · cases caught
      · cases refused

theorem times_refused {record : Value} {asOf : Str} :
    Fails Refused (times record asOf) ↔ ∀ retainedAt, record.item "retained_at" = .ok retainedAt →
      ∃ s, retainedAt = .str s := by
  have steps : Fails (fun e => Caught e ∨ Refused e) (do
      let retained ← parse (← record.item "retained_at")
      return (retained, ← parse (.str asOf))) ↔
        ∀ retainedAt, record.item "retained_at" = .ok retainedAt → ∃ s, retainedAt = .str s := by
    rw [fails_bind_iff]
    constructor
    · rintro ⟨-, later⟩ retainedAt held
      exact parse_caught.mp (fails_bind_iff.mp (later retainedAt held)).1
    · intro texts
      refine ⟨fun e raised => Or.inl (item_fails record _ e raised), fun retainedAt held => ?_⟩
      refine (parse_caught.mpr (texts retainedAt held)).bind (fun retained _ => ?_)
      exact (parse_caught.mpr ⟨asOf, rfl⟩).bind (fun _ _ => Fails.ok)
  rw [← steps]
  unfold times
  split
  · rename_i both ran
    rw [ran]
    exact iff_of_true Fails.ok Fails.ok
  · rename_i e raised
    rw [raised, fails_error_iff]
    split
    · rename_i caught
      exact iff_of_true (fail_refused _) (Or.inl caught)
    · rename_i loud
      rw [fails_error_iff]
      exact ⟨Or.inr, fun known => known.resolve_left loud⟩

theorem times_ok {record : Value} {asOf : Str} {both : Datetime × Datetime} :
    times record asOf = .ok both ↔ ∃ retainedAt, record.item "retained_at" = .ok retainedAt ∧
      parse retainedAt = .ok both.1 ∧ parse (.str asOf) = .ok both.2 := by
  have steps : (do
      let retained ← parse (← record.item "retained_at")
      return (retained, ← parse (.str asOf))) = .ok both ↔
        ∃ retainedAt, record.item "retained_at" = .ok retainedAt ∧
          parse retainedAt = .ok both.1 ∧ parse (.str asOf) = .ok both.2 := by
    constructor
    · intro ran
      obtain ⟨retainedAt, held, ran⟩ := bind_ok.mp ran
      obtain ⟨retained, first, ran⟩ := bind_ok.mp ran
      obtain ⟨now, second, ran⟩ := bind_ok.mp ran
      cases ran
      exact ⟨retainedAt, held, first, second⟩
    · rintro ⟨retainedAt, held, first, second⟩
      exact bind_ok.mpr ⟨_, held, bind_ok.mpr ⟨_, first, bind_ok.mpr ⟨_, second, rfl⟩⟩⟩
  rw [← steps]
  unfold times
  split
  · rename_i both' ran
    rw [ran]
  · rename_i e raised
    rw [raised]
    split
    · exact iff_of_false (fun same => by cases same) (fun same => by cases same)
    · exact iff_of_false (fun same => by cases same) (fun same => by cases same)

/-- Whether the window has closed is known where the record states a span of days, whose end has an
order with the time of the read. -/
theorem expired_ok {record : Value} {retained now : Datetime} {closed : Bool} :
    expired record retained now = .ok closed ↔ ∃ days delta expiry,
      record.item "retention_days" = .ok days ∧ timedeltaDays days = .ok delta ∧
        retained.add delta = .ok expiry ∧ retained.offset.isSome = now.offset.isSome ∧
          (closed = true ↔ retained.instant + delta < now.instant) := by
  have kept {delta : Int} {expiry : Datetime} (added : retained.add delta = .ok expiry) :
      expiry.offset = retained.offset ∧ expiry.instant = retained.instant + delta := by
    obtain ⟨-, rfl⟩ := Datetime.add_ok.mp added
    refine ⟨rfl, ?_⟩
    unfold Datetime.instant
    ring
  constructor
  · intro ran
    obtain ⟨days, held, ran⟩ := bind_ok.mp ran
    obtain ⟨delta, span, ran⟩ := bind_ok.mp ran
    obtain ⟨expiry, added, ran⟩ := bind_ok.mp ran
    obtain ⟨before, compared, ran⟩ := bind_ok.mp ran
    cases ran
    obtain ⟨offset, instant⟩ := kept added
    obtain ⟨ordered, same⟩ := Datetime.le_ok.mp compared
    rw [offset] at ordered
    refine ⟨days, delta, expiry, held, span, added, ordered.symm, ?_⟩
    rw [← same, instant, Bool.not_eq_true', decide_eq_false_iff_not, not_le]
  · rintro ⟨days, delta, expiry, held, span, added, ordered, meaning⟩
    obtain ⟨offset, instant⟩ := kept added
    have compared : now.le expiry = .ok (!closed) := by
      rw [Datetime.le_ok, offset]
      refine ⟨ordered.symm, ?_⟩
      rw [instant]
      cases closed with
      | true =>
          rw [Bool.not_true, decide_eq_false_iff_not, not_le]
          exact meaning.mp rfl
      | false =>
          rw [Bool.not_false, decide_eq_true_eq, ← not_lt]
          intro late
          cases meaning.mpr late
    refine bind_ok.mpr ⟨days, held, bind_ok.mpr ⟨delta, span, bind_ok.mpr ⟨expiry, added,
      bind_ok.mpr ⟨!closed, compared, ?_⟩⟩⟩⟩
    rw [Bool.not_not]
    rfl

/-- Nothing that is raised here is a refusal. -/
theorem loud {e : Exc} (cls : e.cls = .keyError ∨ e.cls = .typeError ∨ e.cls = .valueError ∨
    e.cls = overflowError) : ¬ Refused e := by
  intro refused
  unfold Refused Exc.isA at refused
  rcases cls with cls | cls | cls | cls <;> rw [cls] at refused <;> cases refused

theorem timedeltaDays_loud (days : Value) : Fails (fun e => ¬ Refused e) (timedeltaDays days) := by
  have checked (micros : Int) : Fails (fun e => ¬ Refused e) (checkedDelta micros) := by
    unfold checkedDelta
    dsimp only
    split
    · exact Fails.ok
    · exact Fails.error (loud (Or.inr (Or.inr (Or.inr rfl))))
  unfold timedeltaDays
  split
  · exact checked _
  · exact checked _
  · split
    · exact checked _
    · exact checked _
  · exact Fails.error (loud (Or.inr (Or.inr (Or.inr rfl))))
  · exact Fails.error (loud (Or.inr (Or.inr (Or.inl rfl))))
  · exact Fails.error (loud (Or.inr (Or.inl rfl)))

theorem expired_loud (record : Value) (retained now : Datetime) :
    Fails (fun e => ¬ Refused e) (expired record retained now) := by
  unfold expired
  refine Fails.bind ?_ (fun days _ => (timedeltaDays_loud days).bind (fun delta _ => ?_))
  · unfold Value.item
    split
    · split
      · exact Fails.ok
      · exact Fails.error (loud (Or.inl rfl))
    all_goals exact Fails.error (loud (Or.inr (Or.inl rfl)))
  · refine Fails.bind ?_ (fun expiry _ => Fails.bind ?_ (fun _ _ => Fails.ok))
    · unfold Datetime.add
      dsimp only
      split
      · exact Fails.ok
      · exact Fails.error (loud (Or.inr (Or.inr (Or.inr rfl))))
    · unfold Datetime.le
      split
      · exact Fails.ok
      · exact Fails.error (loud (Or.inr (Or.inl rfl)))

theorem refused_iff_ends {α : Type} {x : Except Exc α} (raises : Fails (fun e => ¬ Refused e) x) :
    Fails Refused x ↔ Ends x := by
  cases x with
  | ok a => exact iff_of_true Fails.ok (ends_ok a)
  | error e =>
      refine iff_of_false (fun refused => ?_) (ends_error e)
      exact raises e rfl (refused e rfl)

/-! A whole read. -/

/-- The end of a read that is authorized. -/
def reveal (s : Store) (r : Str) (payload : Bytes) (asOf : Str) : Except Exc Bytes := do
  let record ← loadRecord s r
  let both ← times record asOf
  if ← expired record both.1 both.2 then fail ["retention-expired"]
  else if contentRef payload ≠ r then fail ["retention-tampered"]
  else return payload

/-- The times of an object that was read. -/
theorem dates_refused {record : Value} {r asOf : Str} {payload : Bytes} :
    Fails Refused (times record asOf >>= fun both => expired record both.1 both.2 >>= fun closed =>
      if closed then fail ["retention-expired"]
      else if contentRef payload ≠ r then fail ["retention-tampered"] else .ok payload) ↔
      ∀ fields retainedAt, record = .dict fields → Dict.get? fields "retained_at" = some retainedAt →
        (∃ s, retainedAt = .str s) ∧ ∀ retained now, parse retainedAt = .ok retained →
          parse (.str asOf) = .ok now → ∃ days delta expiry,
            Dict.get? fields "retention_days" = some days ∧ timedeltaDays days = .ok delta ∧
              retained.add delta = .ok expiry ∧ retained.offset.isSome = now.offset.isSome := by
  have last (both : Datetime × Datetime) : Fails Refused (expired record both.1 both.2 >>= fun closed =>
      if closed then fail ["retention-expired"]
      else if contentRef payload ≠ r then fail ["retention-tampered"] else .ok payload) ↔
        ∃ days delta expiry, record.item "retention_days" = .ok days ∧ timedeltaDays days = .ok delta ∧
          both.1.add delta = .ok expiry ∧ both.1.offset.isSome = both.2.offset.isSome := by
    rw [fails_bind_iff, and_iff_left, refused_iff_ends (expired_loud _ _ _)]
    · constructor
      · rintro ⟨closed, ran⟩
        obtain ⟨days, delta, expiry, held, span, added, ordered, -⟩ := expired_ok.mp ran
        exact ⟨days, delta, expiry, held, span, added, ordered⟩
      · rintro ⟨days, delta, expiry, held, span, added, ordered⟩
        refine ⟨decide (both.1.instant + delta < both.2.instant), expired_ok.mpr
          ⟨days, delta, expiry, held, span, added, ordered, decide_eq_true_iff⟩⟩
    · intro closed _
      split
      · exact fail_refused _
      · split
        · exact fail_refused _
        · exact Fails.ok
  rw [fails_bind_iff, times_refused]
  simp only [last, times_ok, Value.item_ok]
  constructor
  · rintro ⟨texts, dates⟩ fields retainedAt rfl held
    refine ⟨texts retainedAt ⟨fields, rfl, held⟩, ?_⟩
    intro retained now first second
    obtain ⟨days, delta, expiry, ⟨fields', same, days_held⟩, span, added, ordered⟩ :=
      dates (retained, now) ⟨retainedAt, ⟨fields, rfl, held⟩, first, second⟩
    cases same
    exact ⟨days, delta, expiry, days_held, span, added, ordered⟩
  · intro dated
    constructor
    · rintro retainedAt ⟨fields, rfl, held⟩
      exact (dated fields retainedAt rfl held).1
    · rintro ⟨retained, now⟩ ⟨retainedAt, ⟨fields, rfl, held⟩, first, second⟩
      obtain ⟨days, delta, expiry, days_held, span, added, ordered⟩ :=
        (dated fields retainedAt rfl held).2 retained now first second
      exact ⟨days, delta, expiry, ⟨fields, rfl, days_held⟩, span, added, ordered⟩

theorem reveal_refused {s : Store} {r asOf : Str} {payload : Bytes} :
    Fails Refused (reveal s r payload asOf) ↔
      ∀ bytes, s.records r = some bytes → Dated bytes asOf := by
  unfold reveal
  rw [fails_bind_iff, loadRecord_refused]
  constructor
  · rintro ⟨reads, dates⟩ bytes held
    refine ⟨reads bytes held, ?_⟩
    intro fields retainedAt loaded stated
    exact dates_refused.mp (dates _ (loadRecord_ok.mpr ⟨bytes, held, loaded⟩)) fields retainedAt rfl
      stated
  · intro dated
    refine ⟨fun bytes held => (dated bytes held).1, ?_⟩
    intro record loaded
    obtain ⟨bytes, held, loaded⟩ := loadRecord_ok.mp loaded
    refine dates_refused.mpr ?_
    rintro fields retainedAt rfl stated
    exact (dated bytes held).2 fields retainedAt loaded stated

theorem authorize_holder {key : Option Str} {r capability : Str} (issued : issue key r = .ok capability)
    (plain : Utf8.IsAscii capability) : authorize key r (.str capability) = .ok () := by
  have all : capability.all (fun c => c.val < 0x80) = true :=
    List.all_eq_true.mpr (fun c inside => decide_eq_true (plain c inside))
  unfold authorize
  simp [issued, Value.isStr, compareDigest, all]

/-- The orderly reads are the ones that nothing but a RetentionError leaves. -/
theorem read_refused {key : Option Str} {s : Store} {ref : Value} {asOf : Str} {authorization : Value} :
    Fails Refused (read key s ref asOf authorization) ↔ Orderly key s ref asOf authorization := by
  unfold read
  rw [fails_bind_iff, and_iff_right (checkRef_fails ref)]
  constructor
  · intro fails r payload capability named sha held issued
    have later := fails r (checkRef_ok.mpr ⟨named, sha⟩)
    simp only [held] at later
    obtain ⟨authorizes, reveals⟩ := fails_bind_iff.mp later
    have plain := authorize_refused.mp authorizes capability issued
    refine ⟨plain, ?_⟩
    rintro rfl
    exact reveal_refused.mp (reveals () (authorize_holder issued (plain capability rfl)))
  · intro orderly r checked
    obtain ⟨named, sha⟩ := checkRef_ok.mp checked
    cases held : s.bundles r with
    | none => exact fail_refused _
    | some payload =>
        have authorizes : Fails Refused (authorize key r authorization) :=
          authorize_refused.mpr (fun capability issued =>
            (orderly r payload capability named sha held issued).1)
        refine authorizes.bind (fun _ ran => ?_)
        obtain ⟨capability, issued, same⟩ := authorize_ok ran
        exact reveal_refused.mpr ((orderly r payload capability named sha held issued).2 same)

/-- A read that returns a payload took every step. -/
theorem read_ok {key : Option Str} {s : Store} {ref : Value} {asOf : Str} {authorization : Value}
    {payload : Bytes} :
    read key s ref asOf authorization = .ok payload ↔ ∃ r record both, checkRef ref = .ok r ∧
      s.bundles r = some payload ∧ authorize key r authorization = .ok () ∧
        loadRecord s r = .ok record ∧ times record asOf = .ok both ∧
          expired record both.1 both.2 = .ok false ∧ contentRef payload = r := by
  unfold read
  constructor
  · intro ran
    obtain ⟨r, checked, ran⟩ := bind_ok.mp ran
    cases held : s.bundles r with
    | none =>
        rw [held] at ran
        cases ran
    | some own =>
        simp only [held] at ran
        obtain ⟨u, authorized, ran⟩ := bind_ok.mp ran
        obtain ⟨record, loaded, ran⟩ := bind_ok.mp ran
        obtain ⟨both, timed, ran⟩ := bind_ok.mp ran
        obtain ⟨closed, ended, ran⟩ := bind_ok.mp ran
        cases closed with
        | true => cases ran
        | false =>
            rw [if_neg Bool.false_ne_true] at ran
            split at ran
            · cases ran
            · rename_i hashes
              cases ran
              exact ⟨r, record, both, checked, held, authorized, loaded, timed, ended, not_not.mp hashes⟩
  · rintro ⟨r, record, both, checked, held, authorized, loaded, timed, ended, hashes⟩
    rw [checked, ok_bind]
    simp only [held, authorized, loaded, timed, ended, hashes, ok_bind, ne_eq, not_true_eq_false,
      ↓reduceIte, Bool.false_eq_true, pure_ok]

/-- What a read reveals is to be revealed. -/
theorem read_revealable {key : Option Str} {s : Store} {ref : Value} {asOf : Str}
    {authorization : Value} {payload : Bytes} (ran : read key s ref asOf authorization = .ok payload) :
    ∃ r, Revealable key s ref asOf authorization payload r := by
  obtain ⟨r, record, both, checked, held, authorized, loaded, timed, ended, hashes⟩ := read_ok.mp ran
  obtain ⟨named, sha⟩ := checkRef_ok.mp checked
  obtain ⟨bytes, stated, loaded⟩ := loadRecord_ok.mp loaded
  obtain ⟨retainedAt, first, retained, now⟩ := times_ok.mp timed
  obtain ⟨fields, rfl, at_⟩ := Value.item_ok.mp first
  obtain ⟨days, delta, expiry, second, span, -, ordered, meaning⟩ := expired_ok.mp ended
  obtain ⟨fields', same, for_⟩ := Value.item_ok.mp second
  cases same
  have early : ¬ both.1.instant + delta < both.2.instant := fun late => by cases meaning.mpr late
  exact ⟨r, named, sha, held, hashes, authorize_ok authorized, bytes, fields, retainedAt, days, both.1,
    both.2, delta, stated, loaded, at_, for_, retained, now, span, ordered, not_lt.mp early⟩

theorem guarded_iff {key : Option Str} {s : Store} {ref : Value} {asOf : Str} {authorization : Value} :
    Guarded key s ref asOf authorization ↔ Orderly key s ref asOf authorization := by
  rw [← read_refused]
  constructor
  · intro guarded
    exact guarded.refused
  · intro refused
    exact ⟨fun payload ran => read_revealable ran, refused⟩

/-! After `retain`. -/

theorem recordFields_flat {subject ref retainedAt : Str} {days : Int} (low : 0 ≤ days)
    (high : days < 10 ^ Json.maxDigits) :
    ∀ kv ∈ recordFields subject ref retainedAt days, Json.Flat kv.2 := by
  simp only [recordFields, List.forall_mem_cons, List.not_mem_nil, false_implies, implies_true, and_true]
  refine ⟨Or.inl ⟨_, rfl⟩, Or.inl ⟨_, rfl⟩, Or.inl ⟨_, rfl⟩, Or.inr ?_⟩
  obtain ⟨n, rfl⟩ := Int.eq_ofNat_of_zero_le low
  exact ⟨n, rfl, by exact_mod_cast high⟩

/-- What `retain` leaves in the store. -/
theorem retain_ok {p : Printer} {s s' : Store} {subject ref retainedAt : Str} {payload : Bytes}
    {days : Int} (ran : retain p s subject payload retainedAt days = (.ok ref, s')) :
    ref = contentRef payload ∧ 0 ≤ days ∧ days < 10 ^ Json.maxDigits ∧
      (∃ retained, parse (.str retainedAt) = .ok retained) ∧ s'.bundles ref = some payload ∧
      s'.records ref = some (Utf8.ascii (Json.write p id
        (.dict (recordFields subject ref retainedAt days)))) := by
  have written {s₁ : Store} {r : Str} (low : ¬ days < 0) (held : s₁.bundles r = some payload)
      (hash : r = contentRef payload) (timed : ∃ retained, parse (.str retainedAt) = .ok retained)
      (ran : writeRecord p s₁ subject r retainedAt days = (.ok ref, s')) :
      ref = contentRef payload ∧ 0 ≤ days ∧ days < 10 ^ Json.maxDigits ∧
        (∃ retained, parse (.str retainedAt) = .ok retained) ∧ s'.bundles ref = some payload ∧
        s'.records ref = some (Utf8.ascii (Json.write p id
          (.dict (recordFields subject ref retainedAt days)))) := by
    unfold writeRecord at ran
    split at ran
    · cases ran
    · rename_i printable
      cases ran
      exact ⟨hash, not_lt.mp low, not_le.mp printable, timed, held, if_pos rfl⟩
  unfold retain at ran
  split at ran
  · cases ran
  · rename_i low
    split at ran
    · split at ran
      · cases ran
      · cases ran
    · rename_i retained timed
      dsimp only at ran
      split at ran
      · rename_i own held
        split at ran
        · cases ran
        · rename_i same
          rw [not_not] at same
          subst same
          exact written low held rfl ⟨retained, timed⟩ ran
      · exact written low (if_pos rfl) rfl ⟨retained, timed⟩ ran

/-- The record reads back with the time and the days that were given. -/
theorem record_read {p : Printer} {subject ref retainedAt : Str} {days : Int} {retained : Datetime}
    (low : 0 ≤ days) (high : days < 10 ^ Json.maxDigits)
    (timed : parse (.str retainedAt) = .ok retained) :
    Json.loadText (Utf8.ascii (Json.write p id (.dict (recordFields subject ref retainedAt days)))) =
      .ok (.dict (recordFields (Json.merge subject) (Json.merge ref) retainedAt days)) := by
  have some_ : recordFields subject ref retainedAt days ≠ [] := List.cons_ne_nil _ _
  rw [Json.loadText_flat p some_ (recordFields_flat low high)]
  have tidy : Json.Tidy retainedAt := by
    unfold parse Datetime.fromisoformat at timed
    dsimp only at timed
    split at timed
    · rename_i t read
      exact Datetime.tidy_of_replace (by decide) (Datetime.parse?_tidy read)
    · cases timed
  have keys : Json.merge "subject_digest" = "subject_digest" ∧
      Json.merge "content_digest" = "content_digest" ∧ Json.merge "retained_at" = "retained_at" ∧
      Json.merge "retention_days" = "retention_days" := by decide +kernel
  have pairs : (recordFields subject ref retainedAt days).map
      (fun kv => (Json.merge kv.1, Json.decoded kv.2)) =
        recordFields (Json.merge subject) (Json.merge ref) retainedAt days := by
    simp only [recordFields, List.map_cons, List.map_nil, Json.decoded, keys, Json.merge_tidy tidy]
  have distinct : ((recordFields (Json.merge subject) (Json.merge ref) retainedAt days).map
      Prod.fst).Nodup := by
    have names : (recordFields (Json.merge subject) (Json.merge ref) retainedAt days).map Prod.fst =
        (["subject_digest", "content_digest", "retained_at", "retention_days"] : List Str) := rfl
    rw [names]
    decide
  rw [pairs, Dict.ofPairs_of_nodup distinct]

theorem contentRef_isSha (payload : Bytes) : isSha (contentRef payload) = true := by
  have each : ∀ c ∈ sha256 payload, c ∈ hexDigits.map Chr.ofChar := fun _ inside => mem_sha256 inside
  have whole := Re.fullmatch_word_times "sha256:".toList each
  rwa [length_sha256] at whole

theorem capability_ascii {key : Option Str} {ref capability : Str}
    (issued : issue key ref = .ok capability) : Utf8.IsAscii capability := by
  obtain ⟨k, -, shown⟩ := bind_ok.mp issued
  cases shown
  have digits : ((hexDigits.map Chr.ofChar).all (fun c => c.val < 0x80)) = true := by decide +kernel
  have mark : (("hmac-sha256:" : Str).all (fun c => c.val < 0x80)) = true := by decide +kernel
  intro c inside
  rcases List.mem_append.mp inside with front | hex
  · exact of_decide_eq_true (List.all_eq_true.mp mark c front)
  · exact of_decide_eq_true (List.all_eq_true.mp digits c (mem_sha256 hex))

/-- A time span of whole days. -/
theorem timedeltaDays_int {days delta : Int} (span : timedeltaDays (.int days) = .ok delta) :
    delta = days * Datetime.dayMicros := by
  unfold timedeltaDays checkedDelta at span
  dsimp only at span
  split at span
  · cases span
    rfl
  · cases span

/-- The end of the window is a time. -/
def Ending (retained : Datetime) (days : Int) : Prop :=
  ∃ delta expiry, timedeltaDays (.int days) = .ok delta ∧ retained.add delta = .ok expiry

/-- A read with the capability returns the payload at every time inside the window. -/
def Returned (key : Option Str) (s : Store) (ref capability : Str) (retained : Datetime) (days : Int)
    (payload : Bytes) : Prop :=
  ∀ asOf now, parse (.str asOf) = .ok now → InWindow retained now (days * Datetime.dayMicros) →
    read key s (.str ref) asOf (.str capability) = .ok payload

theorem returned_iff {key : Option Str} {p : Printer} {s s' : Store}
    {subject ref retainedAt capability : Str} {payload : Bytes} {days : Int} {retained : Datetime}
    (accepted : retain p s subject payload retainedAt days = (.ok ref, s'))
    (issued : issue key ref = .ok capability) (timed : parse (.str retainedAt) = .ok retained) :
    Returned key s' ref capability retained days payload ↔ Ending retained days := by
  obtain ⟨rfl, low, high, -, held, stated⟩ := retain_ok accepted
  have loaded := @record_read p subject (contentRef payload) retainedAt days retained low high timed
  have sha := contentRef_isSha payload
  constructor
  · intro reveals
    have nonneg : 0 ≤ days * Datetime.dayMicros := Int.mul_nonneg low (by decide)
    have ran := reveals retainedAt retained timed ⟨rfl, by omega⟩
    have refused : Fails Refused (read key s' (.str (contentRef payload)) retainedAt
        (.str capability)) := by
      rw [ran]
      exact Fails.ok
    obtain ⟨-, dated⟩ := read_refused.mp refused _ payload capability rfl sha held issued
    obtain ⟨-, dates⟩ := dated rfl _ stated
    obtain ⟨-, ends⟩ := dates _ (.str retainedAt) loaded rfl
    obtain ⟨days', delta, expiry, named, span, added, -⟩ := ends retained retained timed timed
    cases named
    exact ⟨delta, expiry, span, added⟩
  · rintro ⟨delta, expiry, span, added⟩ asOf now timed' ⟨ordered, inside⟩
    have both := @times_ok (.dict (recordFields (Json.merge subject) (Json.merge (contentRef payload))
      retainedAt days)) asOf (retained, now) |>.mpr
        ⟨.str retainedAt, Value.item_ok.mpr ⟨_, rfl, rfl⟩, timed, timed'⟩
    have opened := @expired_ok (.dict (recordFields (Json.merge subject)
      (Json.merge (contentRef payload)) retainedAt days)) retained now false |>.mpr
        ⟨.int days, delta, expiry, Value.item_ok.mpr ⟨_, rfl, rfl⟩, span, added, ordered, by
          rw [timedeltaDays_int span]
          simpa using inside⟩
    exact read_ok.mpr ⟨_, _, (retained, now), checkRef_ok.mpr ⟨rfl, sha⟩, held,
      authorize_holder issued (capability_ascii issued), loadRecord_ok.mpr ⟨_, stated, loaded⟩, both,
      opened, rfl⟩

def noFloats : Printer where
  isPrintable _ := false
  float _ := []

def emptyStore : Store := ⟨fun _ => none, fun _ => none⟩

theorem retain_empty (p : Printer) {subject retainedAt : Str} {payload : Bytes} {days : Int}
    {retained : Datetime} (low : 0 ≤ days) (high : days < 10 ^ Json.maxDigits)
    (timed : parse (.str retainedAt) = .ok retained) :
    ∃ s', retain p emptyStore subject payload retainedAt days = (.ok (contentRef payload), s') := by
  unfold retain
  rw [if_neg (not_lt.mpr low)]
  simp only [timed, emptyStore, writeRecord, not_le.mpr high, ↓reduceIte, Prod.mk.injEq, true_and,
    exists_eq']

theorem small_days : (30 : Int) < 10 ^ Json.maxDigits :=
  calc (30 : Int) < 10 ^ 2 := by decide
    _ ≤ 10 ^ Json.maxDigits := pow_le_pow_right₀ (by decide) (by decide)

/-- The first of January 2026. -/
def newYear : Int := 739617 * Datetime.dayMicros

end DevGate.Retention
