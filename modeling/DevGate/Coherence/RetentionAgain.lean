import DevGate.Coherence.RetentionWindow
import DevGate.Lib.Machine

set_option autoImplicit false

/- Sequences of `retain`: which of them leave every record as it is, and every subject one bundle. -/
namespace DevGate.Retention

open Py Fold
open Profiles (isSha)

structure Call where
  subject : Str
  payload : Bytes
  retainedAt : Str
  days : Int

namespace Call

variable (c : Call)

def ref : Str := contentRef c.payload

def run (p : Printer) (s : Store) : Except Exc Str × Store :=
  retain p s c.subject c.payload c.retainedAt c.days

/-- The record the call writes, as it reads back. -/
def stated : Dict Str Value := recordFields (Json.merge c.subject) (Json.merge c.ref) c.retainedAt c.days

end Call

def step (p : Printer) (s : Store) (c : Call) : Store := (c.run p s).2

/-- A field of a stored record. -/
def field (s : Store) (ref key : Str) : Option Value :=
  ((s.records ref).bind (fun bytes => (Json.loadText bytes).toOption)).bind
    (fun v => v.dict?.bind (fun fields => Dict.get? fields key))

def recordKeys : List Str := ["subject_digest", "retained_at", "retention_days"]

/-- The bytes of the call are retained already. -/
def Retained (s : Store) (c : Call) : Prop :=
  s.bundles c.ref = some c.payload ∧ (s.records c.ref).isSome = true

/-- A subject is bound to the bundle of a ref. -/
def Bound (s : Store) (subject ref : Str) : Prop :=
  (s.bundles ref).isSome = true ∧ field s ref "subject_digest" = some (.str subject)

/-- Retaining again changes nothing, and a second payload under a subject is refused. -/
structure Steady (p : Printer) (s : Store) (c : Call) : Prop where
  again : Retained s c → ∀ key ∈ recordKeys, field (step p s c) c.ref key = field s c.ref key
  reads : ∀ k ref asOf authorization payload, read k s ref asOf authorization = .ok payload →
    read k (step p s c) ref asOf authorization = .ok payload
  one : ∀ other, other ≠ c.ref → Bound s c.subject other →
    (∃ e, (c.run p s).1 = .error e) ∧ step p s c = s

/-- The call is declined before it writes anything. -/
def Declined (s : Store) (c : Call) : Prop :=
  c.days < 0 ∨ (∃ e, parse (.str c.retainedAt) = .error e) ∨
    (∃ held, s.bundles c.ref = some held ∧ held ≠ c.payload) ∨
      (10 ^ Json.maxDigits ≤ c.days ∧ s.bundles c.ref = some c.payload)

/-- No other bundle is bound to the subject, and what is retained already has the record that the
call would write. -/
def Repeats (s : Store) (c : Call) : Prop :=
  (∀ other, other ≠ c.ref → ¬ Bound s c.subject other) ∧
    (c.days < 10 ^ Json.maxDigits → Retained s c →
      ∀ key ∈ recordKeys, field s c.ref key = Dict.get? c.stated key)

/-! What a read needs of the store. -/

/-- The window that two fields of a record state holds this time. -/
def Opened (retainedAt days : Option Value) (asOf : Str) : Prop :=
  ∃ v w retained now delta expiry, retainedAt = some v ∧ days = some w ∧ parse v = .ok retained ∧
    parse (.str asOf) = .ok now ∧ timedeltaDays w = .ok delta ∧ retained.add delta = .ok expiry ∧
      InWindow retained now delta

theorem field_eq {s : Store} {ref : Str} {bytes : Bytes} {fields : Dict Str Value}
    (held : s.records ref = some bytes) (loaded : Json.loadText bytes = .ok (.dict fields)) (key : Str) :
    field s ref key = Dict.get? fields key := by
  unfold field
  rw [held, Option.bind_some, loaded]
  rfl

theorem field_some {s : Store} {ref key : Str} {v : Value} (stated : field s ref key = some v) :
    ∃ bytes fields, s.records ref = some bytes ∧ Json.loadText bytes = .ok (.dict fields) ∧
      Dict.get? fields key = some v := by
  unfold field at stated
  obtain ⟨doc, read, looked⟩ := Option.bind_eq_some_iff.mp stated
  obtain ⟨bytes, held, loaded⟩ := Option.bind_eq_some_iff.mp read
  obtain ⟨fields, dict, looked⟩ := Option.bind_eq_some_iff.mp looked
  cases ran : Json.loadText bytes with
  | error e =>
      rw [ran] at loaded
      cases loaded
  | ok own =>
      rw [ran] at loaded
      cases loaded
      cases doc with
      | dict own =>
          cases dict
          exact ⟨bytes, fields, held, ran, looked⟩
      | _ => cases dict

theorem read_iff {k : Option Str} {s : Store} {ref : Value} {asOf : Str} {authorization : Value}
    {payload : Bytes} :
    read k s ref asOf authorization = .ok payload ↔ ∃ r, checkRef ref = .ok r ∧
      s.bundles r = some payload ∧ authorize k r authorization = .ok () ∧ contentRef payload = r ∧
        Opened (field s r "retained_at") (field s r "retention_days") asOf := by
  rw [read_ok]
  constructor
  · rintro ⟨r, record, both, checked, held, authorized, loaded, timed, ended, hashes⟩
    obtain ⟨bytes, stated, loaded⟩ := loadRecord_ok.mp loaded
    obtain ⟨v, first, retained, now⟩ := times_ok.mp timed
    obtain ⟨fields, rfl, at_⟩ := Value.item_ok.mp first
    obtain ⟨w, delta, expiry, second, span, added, ordered, meaning⟩ := expired_ok.mp ended
    obtain ⟨fields', same, for_⟩ := Value.item_ok.mp second
    cases same
    have early : ¬ both.1.instant + delta < both.2.instant := fun late => by cases meaning.mpr late
    refine ⟨r, checked, held, authorized, hashes, v, w, both.1, both.2, delta, expiry, ?_, ?_, retained,
      now, span, added, ordered, not_lt.mp early⟩
    · rw [field_eq stated loaded, at_]
    · rw [field_eq stated loaded, for_]
  · rintro ⟨r, checked, held, authorized, hashes, v, w, retained, now, delta, expiry, at_, for_, first,
      second, span, added, ordered, early⟩
    obtain ⟨bytes, fields, stated, loaded, at_⟩ := field_some at_
    rw [field_eq stated loaded] at for_
    refine ⟨r, .dict fields, (retained, now), checked, held, authorized,
      loadRecord_ok.mpr ⟨bytes, stated, loaded⟩,
      times_ok.mpr ⟨v, Value.item_ok.mpr ⟨fields, rfl, at_⟩, first, second⟩,
      expired_ok.mpr ⟨w, delta, expiry, Value.item_ok.mpr ⟨fields, rfl, for_⟩, span, added, ordered, ?_⟩,
      hashes⟩
    exact iff_of_false Bool.false_ne_true (not_lt.mpr early)

/-! One call. -/

section

variable {p : Printer} {s : Store} {c : Call}

theorem declined_run (declined : Declined s c) : ∃ e, c.run p s = (.error e, s) := by
  unfold Call.run retain
  split
  · exact ⟨_, rfl⟩
  · rename_i low
    cases timed : parse (.str c.retainedAt) with
    | error e =>
        dsimp only
        split
        · exact ⟨_, rfl⟩
        · exact ⟨_, rfl⟩
    | ok retained =>
        dsimp only
        rcases declined with negative | ⟨e, raised⟩ | ⟨held, found, other⟩ | ⟨long, found⟩
        · exact absurd negative low
        · cases timed.symm.trans raised
        · have stands : s.bundles (contentRef c.payload) = some held := found
          simp only [stands, ne_eq, other, not_false_eq_true, ↓reduceIte]
          exact ⟨_, rfl⟩
        · have stands : s.bundles (contentRef c.payload) = some c.payload := found
          simp only [stands, ne_eq, not_true_eq_false, ↓reduceIte, writeRecord, long]
          exact ⟨_, rfl⟩

/-- A bundle is written, and the record with it unless the days are too long to print. -/
structure Wrote (p : Printer) (s : Store) (c : Call) : Prop where
  retained : ∃ t, parse (.str c.retainedAt) = .ok t
  low : 0 ≤ c.days
  free : ∀ held, s.bundles c.ref = some held → held = c.payload
  bundles : ∀ r, (step p s c).bundles r = if r = c.ref then some c.payload else s.bundles r

theorem undeclined_run (going : ¬ Declined s c) : Wrote p s c ∧
    ((10 ^ Json.maxDigits ≤ c.days ∧ s.bundles c.ref = none ∧ (step p s c).records = s.records ∧
        ∃ e, (c.run p s).1 = .error e) ∨
      (c.days < 10 ^ Json.maxDigits ∧ (c.run p s).1 = .ok c.ref ∧
        ∀ r, (step p s c).records r = if r = c.ref then some (Utf8.ascii (Json.write p id
          (.dict (recordFields c.subject c.ref c.retainedAt c.days)))) else s.records r)) := by
  unfold Declined at going
  simp only [not_or, not_lt, not_exists, not_and, not_not] at going
  obtain ⟨low, timed, free, printable⟩ := going
  obtain ⟨t, timed⟩ : ∃ t, parse (.str c.retainedAt) = .ok t := by
    cases ran : parse (.str c.retainedAt) with
    | error e => exact absurd ran (timed e)
    | ok t => exact ⟨t, rfl⟩
  have started : ∃ s₁ : Store, c.run p s = writeRecord p s₁ c.subject c.ref c.retainedAt c.days ∧
      s₁.records = s.records ∧
      (∀ r, s₁.bundles r = if r = c.ref then some c.payload else s.bundles r) := by
    unfold Call.run retain
    rw [if_neg (not_lt.mpr low)]
    simp only [timed]
    cases held : s.bundles (contentRef c.payload) with
    | none => exact ⟨{ s with bundles := Store.set s.bundles c.ref c.payload }, rfl, rfl, fun _ => rfl⟩
    | some own =>
        have same := free own held
        refine ⟨s, if_neg (not_not.mpr same), rfl, fun r => ?_⟩
        split
        · rename_i here
          rw [here, ← same]
          exact held
        · rfl
  obtain ⟨s₁, ran, records, bundles⟩ := started
  unfold writeRecord at ran
  split at ran
  · rename_i long
    have stepped : step p s c = s₁ := congrArg Prod.snd ran
    refine ⟨⟨⟨t, timed⟩, low, free, ?_⟩, Or.inl ⟨long, ?_, ?_, _, congrArg Prod.fst ran⟩⟩
    · rw [stepped]
      exact bundles
    · cases held : s.bundles c.ref with
      | none => rfl
      | some own =>
          rw [free own held] at held
          exact absurd held (printable long)
    · rw [stepped]
      exact records
  · rename_i short
    refine ⟨⟨⟨t, timed⟩, low, free, ?_⟩, Or.inr ⟨not_le.mp short, congrArg Prod.fst ran, ?_⟩⟩
    · rw [step, ran]
      exact bundles
    · rw [step, ran]
      intro r
      show Store.set s₁.records c.ref _ r = _
      rw [Store.set, records]

/-- What a written record states. -/
theorem wrote_field (wrote : Wrote p s c) (short : c.days < 10 ^ Json.maxDigits)
    (records : (step p s c).records c.ref = some (Utf8.ascii (Json.write p id
      (.dict (recordFields c.subject c.ref c.retainedAt c.days))))) (key : Str) :
    field (step p s c) c.ref key = Dict.get? c.stated key := by
  obtain ⟨t, timed⟩ := wrote.retained
  exact field_eq records (record_read wrote.low short timed) key

theorem field_congr {s s' : Store} {ref : Str} (same : s'.records ref = s.records ref) (key : Str) :
    field s' ref key = field s ref key := by
  unfold field
  rw [same]

/-- A read is the same where what it needs is. -/
theorem read_kept {s s' : Store} {r : Str} {k : Option Str} {ref : Value} {asOf : Str}
    {authorization : Value} {payload : Bytes} (checked : checkRef ref = .ok r)
    (ran : read k s ref asOf authorization = .ok payload)
    (bundles : s'.bundles r = s.bundles r)
    (fields : ∀ key ∈ recordKeys, field s' r key = field s r key) :
    read k s' ref asOf authorization = .ok payload := by
  obtain ⟨r', checked', held, authorized, hashes, opened⟩ := read_iff.mp ran
  cases checked.symm.trans checked'
  refine read_iff.mpr ⟨r, checked, bundles.trans held, authorized, hashes, ?_⟩
  rwa [fields "retained_at" (by decide), fields "retention_days" (by decide)]

/-- A call is steady exactly if it is declined or repeats what is there. -/
theorem steady_iff : Steady p s c ↔ Declined s c ∨ Repeats s c := by
  by_cases declined : Declined s c
  · refine iff_of_true ?_ (Or.inl declined)
    obtain ⟨e, ran⟩ := @declined_run p s c declined
    have same : step p s c = s := congrArg Prod.snd ran
    refine ⟨fun _ _ _ => by rw [same], fun _ _ _ _ _ read => by rw [same]; exact read, ?_⟩
    intro _ _ _
    exact ⟨⟨e, congrArg Prod.fst ran⟩, same⟩
  · rw [or_iff_right declined]
    obtain ⟨wrote, ⟨long, absent, records, e, raised⟩ | ⟨short, answered, records⟩⟩ :=
      @undeclined_run p s c declined
    · constructor
      · intro steady
        refine ⟨fun other apart bound => ?_, fun short => absurd long (not_le.mpr short)⟩
        have same := (steady.one other apart bound).2
        have held := wrote.bundles c.ref
        rw [same, absent, if_pos rfl] at held
        cases held
      · intro repeats
        refine ⟨fun retained => ?_, fun k ref asOf authorization payload ran => ?_,
          fun other apart bound => absurd bound (repeats.1 other apart)⟩
        · cases absent.symm.trans retained.1
        · obtain ⟨r, checked, held, -⟩ := read_iff.mp ran
          have apart : r ≠ c.ref := by
            rintro rfl
            cases absent.symm.trans held
          exact read_kept checked ran ((wrote.bundles r).trans (if_neg apart))
            (fun key _ => field_congr (congrFun records r) key)
    · have written := records c.ref
      rw [if_pos rfl] at written
      constructor
      · intro steady
        refine ⟨fun other apart bound => ?_, fun _ retained key member => ?_⟩
        · obtain ⟨⟨e, raised⟩, -⟩ := steady.one other apart bound
          cases answered.symm.trans raised
        · rw [← steady.again retained key member]
          exact wrote_field wrote short written key
      · intro repeats
        have again : Retained s c → ∀ key ∈ recordKeys, field (step p s c) c.ref key = field s c.ref key := by
          intro retained key member
          rw [repeats.2 short retained key member]
          exact wrote_field wrote short written key
        refine ⟨again, fun k ref asOf authorization payload ran => ?_,
          fun other apart bound => absurd bound (repeats.1 other apart)⟩
        obtain ⟨r, checked, held, -, -, v, w, -, -, -, -, at_, -⟩ := read_iff.mp ran
        by_cases here : r = c.ref
        · subst here
          have payloads := wrote.free payload held
          subst payloads
          obtain ⟨bytes, -, stands, -⟩ := field_some at_
          refine read_kept checked ran ?_ (again ⟨held, by rw [stands]; rfl⟩)
          rw [wrote.bundles, if_pos rfl, held]
        · exact read_kept checked ran ((wrote.bundles r).trans (if_neg here))
            (fun key _ => field_congr ((records r).trans (if_neg here)) key)

end

/-- A run is steady exactly if each of its calls is declined or repeats what is there. -/
theorem steady_runs_iff (p : Printer) (s : Store) (calls : List Call) :
    Machine.Allows (step p) (Steady p) s calls ↔
      Machine.Allows (step p) (fun s c => Declined s c ∨ Repeats s c) s calls := by
  constructor
  · intro steady before c after split
    exact steady_iff.mp (steady before c after split)
  · intro repeats before c after split
    exact steady_iff.mpr (repeats before c after split)

/-- A call that goes through leaves its bytes, and a record of what it states. -/
theorem going_retains {p : Printer} {s : Store} {c : Call} (going : ¬ Declined s c)
    (short : c.days < 10 ^ Json.maxDigits) :
    (step p s c).bundles c.ref = some c.payload ∧ ((step p s c).records c.ref).isSome = true ∧
      ∀ key, field (step p s c) c.ref key = Dict.get? c.stated key := by
  obtain ⟨wrote, ⟨long, -⟩ | ⟨-, -, records⟩⟩ := @undeclined_run p s c going
  · exact absurd short (not_lt.mpr long)
  · have written := records c.ref
    rw [if_pos rfl] at written
    refine ⟨(wrote.bundles c.ref).trans (if_pos rfl), ?_, wrote_field wrote short written⟩
    rw [written]
    rfl

theorem going_of {s : Store} {c : Call} {t : Datetime} (low : 0 ≤ c.days)
    (short : c.days < 10 ^ Json.maxDigits) (timed : parse (.str c.retainedAt) = .ok t)
    (free : ∀ held, s.bundles c.ref = some held → held = c.payload) : ¬ Declined s c := by
  rintro (negative | ⟨e, raised⟩ | ⟨held, found, other⟩ | ⟨long, -⟩)
  · exact absurd negative (not_lt.mpr low)
  · cases timed.symm.trans raised
  · exact other (free held found)
  · exact absurd short (not_lt.mpr long)

/-- One byte, retained for this many days. -/
def pilotCall (days : Int) : Call := ⟨"subject", [1], "2026-01-01T00:00:00Z", days⟩

theorem pilotCall_retains {s : Store} {days : Int} (low : 0 ≤ days) (short : days < 10 ^ Json.maxDigits)
    (free : ∀ held, s.bundles (contentRef [1]) = some held → held = [1]) :
    (step noFloats s (pilotCall days)).bundles (contentRef [1]) = some [1] ∧
      ((step noFloats s (pilotCall days)).records (contentRef [1])).isSome = true ∧
      field (step noFloats s (pilotCall days)) (contentRef [1]) "retention_days" = some (.int days) := by
  have timed : parse (.str "2026-01-01T00:00:00Z") = .ok ⟨newYear, some 0⟩ := by decide +kernel
  have going : ¬ Declined s (pilotCall days) := going_of low short timed free
  obtain ⟨bundle, record, fields⟩ := @going_retains noFloats s (pilotCall days) going short
  exact ⟨bundle, record, fields "retention_days"⟩

theorem pilotCall_again {s : Store} {days : Int} (steady : Steady noFloats s (pilotCall days))
    (bundle : s.bundles (contentRef [1]) = some [1])
    (record : (s.records (contentRef [1])).isSome = true) :
    field (step noFloats s (pilotCall days)) (contentRef [1]) "retention_days" =
      field s (contentRef [1]) "retention_days" :=
  steady.again ⟨bundle, record⟩ _ (by decide)

/-- The bytes are retained again, with a shorter window. -/
theorem window_shortened :
    ¬ Machine.Allows (step noFloats) (Steady noFloats) emptyStore [pilotCall 30, pilotCall 0] := by
  intro steady
  rw [Machine.allows_cons, Machine.allows_cons] at steady
  have zero : (0 : Int) < 10 ^ Json.maxDigits := pow_pos (by decide) _
  obtain ⟨bundle, record, before⟩ := @pilotCall_retains emptyStore 30 (by decide) small_days
    (fun held found => by cases found)
  obtain ⟨-, -, after⟩ := @pilotCall_retains (step noFloats emptyStore (pilotCall 30)) 0 le_rfl zero
    (fun held found => Option.some.inj (found.symm.trans bundle))
  have days := (after.symm.trans (pilotCall_again steady.2.1 bundle record)).trans before
  cases days

end DevGate.Retention
