import DevGate.Coherence.Cache
import DevGate.Py.JsonFaults
import DevGate.Py.JsonRoundTrip

set_option autoImplicit false

/- When a lookup answers, and on which records it raises instead. -/
namespace DevGate.Cache

open Py Canon

theorem fails_mapM {α β : Type} {P : Exc → Prop} {f : α → Except Exc β} (xs : List α)
    (each : ∀ x ∈ xs, Fails P (f x)) : Fails P (xs.mapM f) := by
  induction xs with
  | nil => exact Fails.ok
  | cons x xs ih =>
      rw [List.mapM_cons]
      refine (each x List.mem_cons_self).bind (fun _ _ => ?_)
      exact (ih (fun y inside => each y (List.mem_cons_of_mem _ inside))).bind (fun _ _ => Fails.ok)

/-! The key. -/

def Refuses (e : Exc) : Prop := e.isA [cacheError] = true

theorem refuses_own (msg : Text) : Refuses ⟨cacheError, msg⟩ := by
  exact @Exc.isA_of_cls _ cacheError _ _ rfl (by decide)

theorem normList_fails (val : Value) (name : Str) (allowEmpty : Bool) :
    Fails Refuses (normList val name allowEmpty) := by
  unfold normList
  split
  · split
    · exact Fails.error (refuses_own _)
    · refine (fails_mapM _ (fun v _ => ?_)).bind (fun _ _ => Fails.ok)
      unfold memberText
      split
      · exact Fails.ok
      · exact Fails.error (refuses_own _)
  · exact Fails.error (refuses_own _)

theorem boundComponent_fails (material : Dict Str Value) (comp : Str) :
    Fails Refuses (boundComponent material comp) := by
  unfold boundComponent
  split
  · exact Fails.error (refuses_own _)
  · split
    · exact (normList_fails _ _ _).bind (fun _ _ => Fails.ok)
    · split
      · exact Fails.ok
      · exact Fails.error (refuses_own _)

/-- What a component holds is a text, or a list of texts. -/
theorem boundComponent_ok {material : Dict Str Value} {comp : Str} {bound : Str × Value}
    (ran : boundComponent material comp = .ok bound) : check bound.2 = .ok () := by
  unfold boundComponent at ran
  split at ran
  · cases ran
  · split at ran
    · obtain ⟨texts, -, ran⟩ := bind_ok.mp ran
      cases ran
      rw [check, checkList_ok]
      intro v inside
      obtain ⟨t, -, rfl⟩ := List.mem_map.mp inside
      rfl
    · split at ran
      · rename_i held
        cases ran
        show check ((Dict.get? material comp).getD .null) = .ok ()
        rw [held]
        rfl
      · cases ran

/-- A key that cannot be formed is a CacheError. -/
theorem key_fails (material : Value) : Fails Refuses (key material) := by
  unfold key
  split
  · refine (fails_mapM _ (fun comp _ => boundComponent_fails _ comp)).bind ?_
    intro bound ran
    have fits : check (.dict (("kind", .str "cache-key/v1") :: bound)) = .ok () := by
      rw [check, checkPairs_ok, List.forall_mem_cons]
      refine ⟨rfl, ?_⟩
      intro kv inside
      obtain ⟨comp, -, formed⟩ := (mapM_members ran).2 kv inside
      exact boundComponent_ok formed
    unfold digestObj canon
    rw [fits, ok_bind, pure_ok, ok_bind]
    exact Fails.ok
  · exact Fails.error (refuses_own _)

/-! The record. -/

/-- The file operations fail with an OSError. -/
def Reads (disk : Disk) : Prop := ∀ p, Fails (fun e => e.cls = .osError) (disk.read p)

/-- The text of an entry is nested deeper than the interpreter's stack. -/
def Overdeep (disk : Disk) (fp : Path) : Prop :=
  ∃ bytes e, disk.read fp = .ok bytes ∧ Json.loadText bytes = .error e ∧ e.cls = .runtimeError

abbrev Caught (e : Exc) : Prop := e.isA [.osError, .valueError, .keyError, .typeError] = true

/-- What a record without a payload raises is caught. -/
theorem payload_fails (record : Value) :
    Fails Caught (do
      let payload ← Base64.decode (← record.item "payload")
      return (record, payload)) := by
  refine Fails.bind ?_ ?_
  · unfold Value.item
    split
    · split
      · exact Fails.ok
      · exact Fails.error (@Exc.isA_of_cls _ .keyError _ _ rfl (by decide))
    all_goals exact Fails.error (@Exc.isA_of_cls _ .typeError _ _ rfl (by decide))
  · intro payload _
    refine Fails.bind (fun e raised => ?_) (fun _ _ => Fails.ok)
    exact Exc.isA_mono (Base64.decode_fails payload e raised) (by decide)

/-- An unreadable document is caught, unless the reader ran out of stack. -/
theorem unreadable_cases {e : Exc} (unreadable : Json.Unreadable e) :
    (e.cls = .runtimeError ∧ ¬ Caught e) ∨ (e.cls ≠ .runtimeError ∧ Caught e) := by
  unfold Json.Unreadable at unreadable
  simp only [List.mem_cons, List.not_mem_nil, or_false] at unreadable
  rcases unreadable with is | is | is | is
  · exact Or.inr ⟨by rw [is]; decide, Exc.isA_of_cls is (by decide)⟩
  · exact Or.inr ⟨by rw [is]; decide, Exc.isA_of_cls is (by decide)⟩
  · exact Or.inr ⟨by rw [is]; decide, Exc.isA_of_cls is (by decide)⟩
  · refine Or.inl ⟨is, ?_⟩
    rw [Caught, @Exc.isA_of_cls _ _ _ false is (by decide)]
    exact Bool.false_ne_true

theorem readEntry_some {disk : Disk} {fp : Path} {found : Value × Bytes} :
    readEntry disk fp = .ok (some found) ↔ parseEntry disk fp = .ok found := by
  unfold readEntry
  cases parseEntry disk fp with
  | ok other => simp
  | error e =>
      dsimp only
      split
      · simp
      · simp

/-- Every unreadable record is a miss, unless the reader ran out of stack. -/
theorem readEntry_answers {disk : Disk} (reads : Reads disk) (fp : Path) :
    (∃ found, readEntry disk fp = .ok found) ↔ ¬ Overdeep disk fp := by
  have caught_iff : (∃ found, readEntry disk fp = .ok found) ↔
      Fails Caught (parseEntry disk fp) := by
    unfold readEntry Fails
    cases parseEntry disk fp with
    | ok found => simp
    | error e =>
        dsimp only
        split
        · rename_i caught
          simpa using caught
        · rename_i loose
          simpa using loose
  rw [caught_iff]
  unfold parseEntry
  constructor
  · rintro fails ⟨bytes, e, opened, loaded, deep⟩
    have caught := fails e (by rw [opened, ok_bind, loaded, error_bind])
    rcases unreadable_cases (Json.loadText_fails bytes e loaded) with ⟨-, loose⟩ | ⟨other, -⟩
    · exact loose caught
    · exact other deep
  · intro shallow
    refine Fails.bind (fun e raised => Exc.isA_of_cls (reads fp e raised) (by decide)) ?_
    intro bytes opened
    refine Fails.bind (fun e loaded => ?_) (fun record _ => payload_fails record)
    rcases unreadable_cases (Json.loadText_fails bytes e loaded) with ⟨deep, -⟩ | ⟨-, caught⟩
    · exact absurd ⟨bytes, e, opened, loaded, deep⟩ shallow
    · exact caught

/-! The components. -/

theorem texts_of_each {vs : List Value} (each : ∀ v ∈ vs, ∃ t, v = .str t) :
    ∃ ts : List Str, vs = ts.map .str := by
  induction vs with
  | nil => exact ⟨[], rfl⟩
  | cons v vs ih =>
      rw [List.forall_mem_cons] at each
      obtain ⟨t, rfl⟩ := each.1
      obtain ⟨ts, rfl⟩ := ih each.2
      exact ⟨t :: ts, rfl⟩

/-- A component of a complete key sorts. -/
theorem sortedOr_bound {material : Dict Str Value} {comp : Str} {bound : Str × Value}
    (listed : comp ∈ listComponents) (ran : boundComponent material comp = .ok bound) :
    ∃ vs, sortedOr (Dict.get? material comp) = .ok vs := by
  unfold boundComponent at ran
  split at ran
  · cases ran
  · rw [if_pos listed] at ran
    obtain ⟨texts, normal, -⟩ := bind_ok.mp ran
    unfold normList at normal
    split at normal
    · rename_i vs held
      rw [if_neg (by simp)] at normal
      obtain ⟨members, read, -⟩ := bind_ok.mp normal
      have each : ∀ v ∈ vs, ∃ t, v = .str t := by
        intro v inside
        obtain ⟨t, -, got⟩ := (mapM_members read).1 v inside
        unfold memberText at got
        split at got
        · exact ⟨_, rfl⟩
        · cases got
      obtain ⟨ts, rfl⟩ := texts_of_each each
      obtain ⟨us, sorts⟩ := sortValues_texts ts
      cases found : Dict.get? material comp with
      | none =>
          rw [found] at held
          cases held
      | some v =>
          rw [found, Option.getD_some] at held
          subst held
          unfold sortedOr Value.orElse
          dsimp only
          split
          · exact ⟨us.map .str, sorts⟩
          · exact ⟨[], rfl⟩
    · cases normal

/-- A stored component can be compared: it is no list, or it sorts. -/
def Comparable (stored : Dict Str Value) (comp : Str) : Prop :=
  comp ∈ listComponents → ∃ vs, sortedOr (Dict.get? stored comp) = .ok vs

theorem drift_answers {stored material : Dict Str Value} {comp : Str} {bound : Str × Value}
    (ran : boundComponent material comp = .ok bound) :
    (∃ answer, drift (.dict stored) material comp = .ok answer) ↔ Comparable stored comp := by
  unfold drift Comparable
  rw [Value.get_dict, ok_bind]
  by_cases listed : comp ∈ listComponents
  · obtain ⟨vs, sorts⟩ := sortedOr_bound listed ran
    rw [if_pos listed, answers_bind]
    simp [listed, sorts]
  · rw [if_neg listed]
    simp [listed]

/-- The comparison reaches a component when all before it match. -/
theorem firstDrift_answers {stored : Value} {material : Dict Str Value} (comps : List Str) :
    (∃ answer, firstDrift stored material comps = .ok answer) ↔
      ∀ before comp after, comps = before ++ comp :: after →
        (∀ c ∈ before, drift stored material c = .ok false) →
        ∃ answer, drift stored material comp = .ok answer := by
  induction comps with
  | nil => simp [firstDrift]
  | cons comp rest ih =>
      rw [firstDrift, answers_bind]
      constructor
      · rintro ⟨drifted, here, later⟩ before comp' after split matched
        cases before with
        | nil =>
            rw [List.nil_append, List.cons.injEq] at split
            exact ⟨drifted, split.1 ▸ here⟩
        | cons first before =>
            rw [List.cons_append, List.cons.injEq] at split
            rw [List.forall_mem_cons] at matched
            rw [← split.1, here, Except.ok.injEq] at matched
            rw [matched.1, if_neg Bool.false_ne_true] at later
            exact ih.mp later before comp' after split.2 matched.2
      · intro reached
        obtain ⟨drifted, here⟩ := reached [] comp rest rfl (by simp)
        refine ⟨drifted, here, ?_⟩
        cases drifted with
        | true => exact ⟨some comp, rfl⟩
        | false =>
            rw [if_neg Bool.false_ne_true]
            refine ih.mpr (fun before comp' after split matched => ?_)
            refine reached (comp :: before) comp' after (by rw [split]; rfl) ?_
            rw [List.forall_mem_cons]
            exact ⟨here, matched⟩

theorem firstDrift_none {stored : Value} {material : Dict Str Value} (comps : List Str) :
    firstDrift stored material comps = .ok none ↔
      ∀ comp ∈ comps, drift stored material comp = .ok false := by
  induction comps with
  | nil => simp [firstDrift]
  | cons comp rest ih =>
      rw [firstDrift, bind_ok, List.forall_mem_cons, ← ih]
      constructor
      · rintro ⟨drifted, here, later⟩
        cases drifted with
        | true => cases later
        | false => exact ⟨here, later⟩
      · rintro ⟨here, later⟩
        exact ⟨false, here, later⟩

/-! The window. -/

theorem nowTs_fails (ts : Value) : Fails (fun e => e.isA [.valueError, .typeError, .keyError] = true)
    (nowTs ts) := by
  unfold nowTs
  split
  · unfold Datetime.fromisoformat
    split
    · exact Fails.ok
    · exact Fails.error (by rfl)
  · exact Fails.error (by rfl)

theorem age_fails (asOf record : Value) :
    Fails (fun e => e.isA [.valueError, .typeError, .keyError] = true) (age asOf record) := by
  unfold age
  refine (nowTs_fails asOf).bind (fun now _ => ?_)
  refine Fails.bind ?_ (fun cachedAt _ => (nowTs_fails cachedAt).bind (fun cached _ => ?_))
  · unfold Value.item
    split
    · split
      · exact Fails.ok
      · exact Fails.error (by rfl)
    all_goals exact Fails.error (by rfl)
  · unfold Datetime.sub
    split
    · exact Fails.ok
    · exact Fails.error (by rfl)

/-- The TTL is out of the range of a duration, and the record is old enough to compare it. -/
def Overlong (record asOf ttlSeconds : Value) : Prop :=
  ∃ ttl elapsed, integer? ttlSeconds = some ttl ∧ 0 ≤ ttl ∧ age asOf record = .ok elapsed ∧
    0 ≤ elapsed ∧ maxDays < ttl / 86400

theorem timedelta_answers {ttl : Int} (declared : 0 ≤ ttl) :
    (∃ micros, timedelta ttl = .ok micros) ↔ ttl / 86400 ≤ maxDays := by
  have low : -maxDays ≤ ttl / 86400 := by
    unfold maxDays
    omega
  unfold timedelta
  by_cases fits : ttl / 86400 ≤ maxDays
  · simp [low, fits]
  · simp [fits]

theorem checkAge_answers (record asOf ttlSeconds : Value) :
    (∃ answer, checkAge record asOf ttlSeconds = .ok answer) ↔
      ¬ Overlong record asOf ttlSeconds := by
  unfold checkAge Overlong
  cases declared : (integer? ttlSeconds).filter (fun n => 0 ≤ n) with
  | none =>
      simp only [Except.ok.injEq, exists_eq', true_iff, not_exists]
      rintro ttl elapsed ⟨stated, valid, -⟩
      rw [stated] at declared
      simp [Option.filter, valid] at declared
  | some ttl =>
      rw [Option.filter_eq_some_iff, decide_eq_true_iff] at declared
      obtain ⟨stated, valid⟩ := declared
      dsimp only
      cases aged : age asOf record with
      | error e =>
          dsimp only
          rw [if_pos (age_fails asOf record e aged)]
          simp
      | ok elapsed =>
          dsimp only
          by_cases young : elapsed < 0
          · rw [if_pos young]
            simp [stated, young]
          · have old : 0 ≤ elapsed := by omega
            rw [if_neg young, answers_bind]
            have compares : ∀ micros : Int, ∃ answer : Option Text,
                (if micros < elapsed then pure (some ["ttl-expired"]) else pure none :
                  Except Exc (Option Text)) = .ok answer := by
              intro micros
              split
              · exact ⟨_, rfl⟩
              · exact ⟨_, rfl⟩
            simp only [compares, and_true, timedelta_answers valid, stated,
              Option.some.injEq, Except.ok.injEq, exists_and_left, exists_eq_left']
            omega

/-! The lookup. -/

/-- The stored components of a record. -/
def storedOf (record : Dict Str Value) : Value :=
  Value.orElse (Dict.get? record "key_material") (.dict [])

/-- The fields of a readable record on which the lookup stops with an exception. -/
inductive Trips (material record : Dict Str Value) (asOf ttlSeconds : Value) : Prop where
  | shape (other : (storedOf record).isDict = false)
  | order {stored : Dict Str Value} {before after : List Str} {comp : Str}
      (object : storedOf record = .dict stored) (split : components = before ++ comp :: after)
      (matched : ∀ c ∈ before, drift (.dict stored) material c = .ok false)
      (unsorted : ¬ Comparable stored comp)
  | range {stored : Dict Str Value} (object : storedOf record = .dict stored)
      (matched : ∀ c ∈ components, drift (.dict stored) material c = .ok false)
      (overlong : Overlong (.dict record) asOf ttlSeconds)

theorem reuse_answers (record : Dict Str Value) (payload : Bytes) (asOf ttlSeconds : Value)
    (signerOk retentionOk : Option Predicate) :
    (∃ answer, reuse (.dict record) payload asOf ttlSeconds signerOk retentionOk = .ok answer) ↔
      ¬ Overlong (.dict record) asOf ttlSeconds := by
  rw [← checkAge_answers]
  unfold reuse
  rw [answers_bind]
  apply exists_congr
  intro checked
  apply and_iff_left
  cases checked with
  | some reason => exact ⟨_, rfl⟩
  | none =>
      dsimp only
      rw [Value.get_dict, ok_bind]
      split
      · exact ⟨_, rfl⟩
      · rw [Value.get_dict, ok_bind]
        split
        · exact ⟨_, rfl⟩
        · exact ⟨_, rfl⟩

theorem inspect_answers {material record : Dict Str Value} (payload : Bytes)
    (asOf ttlSeconds : Value) (signerOk retentionOk : Option Predicate)
    (bound : ∀ comp ∈ components, ∃ b, boundComponent material comp = .ok b) :
    (∃ answer, inspect material (.dict record) payload asOf ttlSeconds signerOk retentionOk =
      .ok answer) ↔ ¬ Trips material record asOf ttlSeconds := by
  have compared : ∀ stored before comp after, components = before ++ comp :: after →
      ((∃ answer, drift (.dict stored) material comp = .ok answer) ↔ Comparable stored comp) := by
    intro stored before comp after split
    obtain ⟨b, ran⟩ := bound comp (by rw [split]; simp)
    exact drift_answers ran
  unfold inspect
  rw [Value.get_dict, ok_bind]
  change (∃ answer, (firstDrift (storedOf record) material components >>= _) = .ok answer) ↔ _
  rw [answers_bind]
  constructor
  · rintro ⟨answer, found, rest⟩ trips
    cases trips with
    | shape other =>
        obtain ⟨drifted, got⟩ := (firstDrift_answers components).mp ⟨answer, found⟩
          [] "subject_digest" components.tail rfl (by simp)
        unfold drift at got
        obtain ⟨looked, get, -⟩ := bind_ok.mp got
        obtain ⟨kvs, object, -⟩ := Value.get_ok.mp get
        rw [object] at other
        cases other
    | @order stored before after comp object split matched unsorted =>
        rw [object] at found
        have reached := (firstDrift_answers components).mp ⟨answer, found⟩ before comp after split matched
        exact unsorted ((compared stored before comp after split).mp reached)
    | @range stored object matched overlong =>
        rw [object, (firstDrift_none components).mpr matched] at found
        cases found
        exact (reuse_answers record payload asOf ttlSeconds signerOk retentionOk).mp rest overlong
  · intro smooth
    cases object : storedOf record with
    | dict stored =>
        have reached : ∃ answer, firstDrift (.dict stored) material components = .ok answer := by
          refine (firstDrift_answers components).mpr ?_
          intro before comp after split matched
          rw [compared stored before comp after split]
          by_contra unsorted
          exact smooth (.order object split matched unsorted)
        obtain ⟨answer, found⟩ := reached
        refine ⟨answer, found, ?_⟩
        cases answer with
        | some comp => exact ⟨_, rfl⟩
        | none =>
            refine (reuse_answers record payload asOf ttlSeconds signerOk retentionOk).mpr ?_
            intro overlong
            exact smooth (.range object ((firstDrift_none components).mp found) overlong)
    | _ => exact absurd (.shape (by rw [object]; rfl)) smooth

theorem components_bound {kvs : Dict Str Value} {k : Str} (formed : key (.dict kvs) = .ok k) :
    ∀ comp ∈ components, ∃ b, boundComponent kvs comp = .ok b := by
  unfold key at formed
  obtain ⟨bound, ran, -⟩ := bind_ok.mp formed
  intro comp listed
  obtain ⟨b, -, got⟩ := (mapM_members ran).1 comp listed
  exact ⟨b, got⟩

/-- A record with a payload is an object. -/
theorem parseEntry_object {disk : Disk} {fp : Path} {record : Value} {payload : Bytes}
    (parsed : parseEntry disk fp = .ok (record, payload)) : ∃ kvs, record = .dict kvs := by
  unfold parseEntry at parsed
  obtain ⟨bytes, -, parsed⟩ := bind_ok.mp parsed
  obtain ⟨read, -, parsed⟩ := bind_ok.mp parsed
  obtain ⟨text, held, parsed⟩ := bind_ok.mp parsed
  obtain ⟨decoded, -, parsed⟩ := bind_ok.mp parsed
  cases parsed
  obtain ⟨kvs, object, -⟩ := Value.item_ok.mp held
  exact ⟨kvs, object⟩

/-- The entry of a key is neither nested too deep nor a record that trips the lookup. -/
structure Smooth (disk : Disk) (fp : Path) (material : Dict Str Value) (asOf ttlSeconds : Value) :
    Prop where
  shallow : ¬ Overdeep disk fp
  fields : ∀ record payload, parseEntry disk fp = .ok (.dict record, payload) →
    ¬ Trips material record asOf ttlSeconds

theorem get_answers_keyed {disk : Disk} (reads : Reads disk) (storeRoot : Str)
    (kvs : Dict Str Value) (asOf ttlSeconds : Value) (signerOk retentionOk : Option Predicate)
    {k : Str} (formed : key (.dict kvs) = .ok k)
    (present : disk.isFile (entryPath storeRoot k) = true) :
    (∃ answer, get disk storeRoot (.dict kvs) asOf ttlSeconds signerOk retentionOk = .ok answer) ↔
      Smooth disk (entryPath storeRoot k) kvs asOf ttlSeconds := by
  have bound := components_bound formed
  unfold get
  rw [formed]
  dsimp only
  rw [if_pos present, answers_bind]
  constructor
  · rintro ⟨found, read, rest⟩
    refine ⟨(readEntry_answers reads _).mp ⟨found, read⟩, ?_⟩
    intro record payload parsed
    have same := readEntry_some.mpr parsed
    rw [read, Except.ok.injEq] at same
    subst same
    exact (inspect_answers payload asOf ttlSeconds signerOk retentionOk bound).mp rest
  · intro smooth
    obtain ⟨found, read⟩ := (readEntry_answers reads _).mpr smooth.shallow
    refine ⟨found, read, ?_⟩
    cases found with
    | none => exact ⟨_, rfl⟩
    | some entry =>
        obtain ⟨record, payload⟩ := entry
        have parsed := readEntry_some.mp read
        obtain ⟨record, rfl⟩ := parseEntry_object parsed
        exact (inspect_answers payload asOf ttlSeconds signerOk retentionOk bound).mpr
          (smooth.fields record payload parsed)

/-- A complete identity without plugins and facts. -/
def sampleMaterial : Dict Str Value :=
  [("subject_digest", .str "s"), ("package_digest", .str "p"), ("policy_digest", .str "q"),
    ("context_digest", .str "c"), ("evaluator_image_digest", .str "e"),
    ("plugin_digests", .list []), ("captured_fact_digests", .list [])]

theorem sampleMaterial_keyed : ∃ k, key (.dict sampleMaterial) = .ok k := ⟨_, rfl⟩

/-- A file system that holds one record everywhere. -/
def entryDisk (record : Value) : Disk where
  resolve p := .ok p
  exists_ _ := true
  isFile _ := true
  isDir _ := true
  read _ := .ok (Utf8.ascii (Json.dumps record))

theorem entryDisk_reads (record : Value) : Reads (entryDisk record) := fun _ => Fails.ok

theorem entryDisk_parses {record : Value} (exact_ : Json.Exact record) (fp : Path) :
    parseEntry (entryDisk record) fp =
      (do return (Json.decoded record, ← Base64.decode (← (Json.decoded record).item "payload"))) := by
  have opened : (entryDisk record).read fp = .ok (Utf8.ascii (Json.dumps record)) := rfl
  rw [parseEntry, opened, ok_bind, Json.loadText_dumps exact_, ok_bind]

def bareRecord : Dict Str Value := [("payload", .str [])]

theorem bareRecord_exact : Json.Exact (.dict bareRecord) := by
  refine .dict fun kv member => ?_
  cases List.mem_singleton.mp member
  exact .str _

theorem bareRecord_parses (fp : Path) :
    parseEntry (entryDisk (.dict bareRecord)) fp = .ok (.dict bareRecord, []) := by
  rw [entryDisk_parses bareRecord_exact]
  rfl

theorem bareRecord_smooth (fp : Path) (asOf ttlSeconds : Value) :
    Smooth (entryDisk (.dict bareRecord)) fp sampleMaterial asOf ttlSeconds where
  shallow := by
    rintro ⟨bytes, e, opened, loaded, -⟩
    cases opened
    rw [Json.loadText_dumps bareRecord_exact] at loaded
    cases loaded
  fields := by
    intro record payload parsed trips
    rw [bareRecord_parses] at parsed
    cases parsed
    cases trips with
    | shape other => cases other
    | @order stored before after comp object _ _ unsorted =>
        cases object
        exact unsorted (fun _ => ⟨[], rfl⟩)
    | @range stored object matched _ =>
        cases object
        have drifted := matched "subject_digest" List.mem_cons_self
        cases drifted

def numberRecord : Dict Str Value := [("key_material", .int 1), ("payload", .str [])]

theorem numberRecord_parses (fp : Path) :
    parseEntry (entryDisk (.dict numberRecord)) fp = .ok (.dict numberRecord, []) := by
  have exact_ : Json.Exact (.dict numberRecord) := by
    refine .dict fun kv member => ?_
    rcases List.mem_cons.mp member with rfl | member
    · exact .int (by simp [Json.Int64])
    · cases List.mem_singleton.mp member
      exact .str _
  rw [entryDisk_parses exact_]
  rfl

end DevGate.Cache
