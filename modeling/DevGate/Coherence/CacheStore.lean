import DevGate.Coherence.CacheKey
import DevGate.Py.Base64Encode
import DevGate.Py.DatetimeText
import DevGate.Py.JsonPrint
import DevGate.Py.Writes

set_option autoImplicit false

/- What is put into the store, and what a lookup finds there. -/
namespace DevGate.Cache

open Py Canon

/-! The record. -/

/-- What is put: the arguments of `put`. -/
structure Deposit where
  material : Value
  payload : Bytes
  cachedAt : Value
  signer : Value
  retainedRefs : Value

namespace Deposit

/-- `retained_refs or []`. -/
def refs (d : Deposit) : Value := Value.orElse (some d.retainedRefs) (.list [])

/-- `{c: material[c] for c in _COMPONENTS}`. -/
def keyMaterial (d : Deposit) : Dict Str Value :=
  components.map (fun comp => (comp, (Dict.get? (d.material.dict?.getD []) comp).getD .null))

def record (d : Deposit) (k : Str) : Dict Str Value :=
  [("api_version", .str "devgate.spec-coherence.cache/v1"), ("key", .str k),
    ("key_material", .dict d.keyMaterial), ("cached_at", d.cachedAt), ("signer", d.signer),
    ("retained_refs", d.refs), ("payload", .str (Base64.encode d.payload))]

def checkTime (cachedAt : Value) : Except Exc Unit :=
  match nowTs cachedAt with
  | .ok _ => .ok ()
  | .error e =>
      if e.isA [.valueError, .typeError] then .error ⟨cacheError, ["cache-bad-time"]⟩ else .error e

def checkRefs : Value → Except Exc Unit
  | .null => .ok ()
  | refs => do
      let _ ← normList refs "retained_refs" false
      return ()

def checkSigner : Value → Except Exc Unit
  | .null => .ok ()
  | signer => do
      let named ← signer.get "signer_set_digest"
      ensure ((named.getD .null).truthy = true) ⟨cacheError, ["cache-signer-record-incomplete"]⟩

/-- The checks of `put` after the key. -/
def admits (d : Deposit) : Except Exc Unit := do
  checkTime d.cachedAt
  checkRefs d.retainedRefs
  checkSigner d.signer

end Deposit

/-- Record a sealed result under its complete key. -/
def put (p : Printer) (storeRoot : Str) (d : Deposit) : Act Str := do
  let k ← Act.ofExcept (key d.material)
  Act.ofExcept d.admits
  Act.mkdir
  Act.replace (entryPath storeRoot k) (Utf8.ascii (Json.write p id (.dict (d.record k))))
  return k

/-- Deposits, one after another. -/
def putAll (p : Printer) (storeRoot : Str) : List Deposit → Act Unit
  | [] => pure ()
  | d :: ds => do
      let _ ← put p storeRoot d
      putAll p storeRoot ds

/-- The key of a deposit. -/
def Deposit.key (d : Deposit) : Str := (Cache.key d.material).toOption.getD []

/-- The write of a deposit. -/
def Deposit.entry (p : Printer) (storeRoot : Str) (d : Deposit) : Path × Bytes :=
  (entryPath storeRoot d.key, Utf8.ascii (Json.write p id (.dict (d.record d.key))))

/-- A deposit that was accepted. -/
structure Deposit.Kept (d : Deposit) : Prop where
  keyed : Cache.key d.material = .ok d.key
  admitted : d.admits = .ok ()

/-- One deposit is one write. -/
theorem put_ok {p : Printer} {storeRoot k : Str} {d : Deposit} {world last : World}
    (ran : put p storeRoot d world = (.ok k, last)) :
    d.Kept ∧ last.log = world.log ++ [d.entry p storeRoot] := by
  obtain ⟨k', middle, formed, ran⟩ := Act.bind_ok.mp ran
  obtain ⟨_, middle₁, admitted, ran⟩ := Act.bind_ok.mp ran
  obtain ⟨_, middle₂, made, ran⟩ := Act.bind_ok.mp ran
  obtain ⟨_, middle₃, wrote, ran⟩ := Act.bind_ok.mp ran
  rw [Act.ofExcept_run, Prod.mk.injEq] at formed admitted
  have named : d.key = k' := by
    unfold Deposit.key
    rw [formed.1]
    rfl
  refine ⟨⟨by rw [named]; exact formed.1, admitted.1⟩, ?_⟩
  rw [Act.pure_run, Prod.mk.injEq] at ran
  rw [← ran.2, Act.replace_ok wrote, Act.mkdir_ok made, ← admitted.2, ← formed.2, Deposit.entry, named]

/-- A run of deposits is their writes, in order. -/
theorem putAll_ok {p : Printer} {storeRoot : Str} {ds : List Deposit} {world last : World}
    (ran : putAll p storeRoot ds world = (.ok (), last)) :
    (∀ d ∈ ds, d.Kept) ∧ last.log = world.log ++ ds.map (Deposit.entry p storeRoot) := by
  induction ds generalizing world with
  | nil =>
      rw [putAll, Act.pure_run, Prod.mk.injEq] at ran
      rw [← ran.2]
      exact ⟨nofun, (List.append_nil _).symm⟩
  | cons d ds ih =>
      rw [putAll] at ran
      obtain ⟨k, middle, stored, ran⟩ := Act.bind_ok.mp ran
      obtain ⟨kept, log⟩ := put_ok stored
      obtain ⟨each, later⟩ := ih ran
      refine ⟨List.forall_mem_cons.mpr ⟨kept, each⟩, ?_⟩
      rw [later, log, List.append_assoc, List.map_cons]
      rfl

/-! Where the entries stand. -/

/-- The file of a key. -/
def fileName (k : Str) : Str := k ++ ".json"

theorem length_fileName (k : Str) : 5 ≤ (fileName k).length := by
  unfold fileName
  rw [List.length_append]
  exact Nat.le_add_left _ _

theorem isName_fileName (tag : RoleTag) (payload : Bytes) :
    Path.IsName (fileName (digest tag payload)) := by
  refine ⟨?_, ?_, ?_⟩
  · intro same
    have long := length_fileName (digest tag payload)
    rw [same] at long
    exact absurd long (by decide)
  · intro same
    have long := length_fileName (digest tag payload)
    rw [same] at long
    exact absurd long (by decide)
  · intro inside
    rcases List.mem_append.mp inside with early | late
    · exact slash_digest tag payload early
    · exact absurd late (by decide)

/-- The directory of the entries. -/
def entries (storeRoot : Str) : Path := (Path.ofStr storeRoot).join entryDir

theorem locate_entry {disk : Disk} {storeRoot k : Str} {root : Path}
    (linkless : disk.Linkless (entries storeRoot) root) {m : Value} (formed : key m = .ok k) :
    disk.locate (entryPath storeRoot k) = root.sub [fileName k] := by
  obtain ⟨payload, rfl⟩ := key_digest formed
  have named := isName_fileName .context payload
  have joined : entryPath storeRoot (digest .context payload) =
      (entries storeRoot).sub [fileName (digest .context payload)] := by
    rw [← Path.join_name _ named]
    rfl
  rw [joined]
  apply linkless.locate
  intro inside
  have same := List.mem_singleton.mp inside
  have long := length_fileName (digest .context payload)
  rw [← same] at long
  exact absurd long (by decide)

/-- Keys have distinct files. -/
theorem locate_inj {disk : Disk} {storeRoot k k' : Str} {root : Path}
    (linkless : disk.Linkless (entries storeRoot) root) {m m' : Value} (formed : key m = .ok k)
    (formed' : key m' = .ok k')
    (same : disk.locate (entryPath storeRoot k) = disk.locate (entryPath storeRoot k')) : k = k' := by
  rw [locate_entry linkless formed, locate_entry linkless formed'] at same
  have names := Path.sub_injective same
  rw [List.cons.injEq] at names
  exact List.append_cancel_right names.1

/-- The latest item with a property, if there is one. -/
theorem latest_or_none {α : Type} (P : α → Prop) (xs : List α) :
    (∃ before x later, xs = before ++ x :: later ∧ P x ∧ ∀ y ∈ later, ¬ P y) ∨ ∀ x ∈ xs, ¬ P x := by
  induction xs with
  | nil => exact Or.inr nofun
  | cons x xs ih =>
      rcases ih with ⟨before, y, later, rfl, holds, last⟩ | none_
      · exact Or.inl ⟨x :: before, y, later, rfl, holds, last⟩
      · by_cases here : P x
        · exact Or.inl ⟨[], x, xs, rfl, here, none_⟩
        · exact Or.inr (List.forall_mem_cons.mpr ⟨here, none_⟩)

section

variable {p : Printer} {disk : Disk} {storeRoot k : Str} {root : Path} {m : Value}
variable (linkless : disk.Linkless (entries storeRoot) root) (formed : key m = .ok k)

include linkless formed

/-- A deposit under another key leaves the entry alone. -/
theorem write_aside {ds : List Deposit} (kept : ∀ d ∈ ds, d.Kept) (aside : ∀ d ∈ ds, d.key ≠ k) :
    ∀ write ∈ ds.map (Deposit.entry p storeRoot),
      disk.locate write.1 ≠ disk.locate (entryPath storeRoot k) := by
  intro write inside same
  obtain ⟨d, listed, rfl⟩ := List.mem_map.mp inside
  exact aside d listed (locate_inj linkless (kept d listed).keyed formed same)

theorem written_aside {ds : List Deposit} (kept : ∀ d ∈ ds, d.Kept) (aside : ∀ d ∈ ds, d.key ≠ k) :
    disk.written (ds.map (Deposit.entry p storeRoot)) (disk.locate (entryPath storeRoot k)) = none := by
  unfold Disk.written
  rw [Option.map_eq_none_iff, List.find?_eq_none]
  intro write inside
  rw [decide_eq_true_eq]
  exact write_aside linkless formed kept aside write (List.mem_reverse.mp inside)

/-- The latest deposit under a key is its entry. -/
theorem written_latest {before later : List Deposit} {d : Deposit} (kept : ∀ d ∈ later, d.Kept)
    (own : d.key = k) (aside : ∀ d ∈ later, d.key ≠ k) :
    disk.written ((before ++ d :: later).map (Deposit.entry p storeRoot))
      (disk.locate (entryPath storeRoot k)) =
        some (Utf8.ascii (Json.write p id (.dict (d.record k)))) := by
  have here : disk.written [d.entry p storeRoot] (disk.locate (entryPath storeRoot k)) =
      some (Utf8.ascii (Json.write p id (.dict (d.record k)))) := by
    apply Disk.written_of_forall
    · exact ⟨_, List.mem_singleton_self _, by rw [Deposit.entry, own]⟩
    · intro write inside _
      rw [List.mem_singleton.mp inside, Deposit.entry, own]
  have parts : (before ++ d :: later).map (Deposit.entry p storeRoot) =
      before.map (Deposit.entry p storeRoot) ++ [d.entry p storeRoot] ++
        later.map (Deposit.entry p storeRoot) := by
    simp
  rw [parts]
  exact Disk.written_between (write_aside linkless formed kept aside) here

end

/-! What is read back. -/

/-- A deposit whose texts and numbers JSON carries as they are. -/
structure Deposit.Plain (d : Deposit) : Prop where
  material : Json.Clean d.material
  signer : Json.Sound Json.Tidy d.signer
  retainedRefs : Json.Sound Json.Tidy d.retainedRefs

theorem nowTs_tidy {ts : Value} {t : Datetime} (read : nowTs ts = .ok t) :
    Json.Sound Json.Tidy ts := by
  unfold nowTs Datetime.fromisoformat at read
  split at read
  · split at read
    · rename_i parsed
      exact .str (Datetime.tidy_of_replace (by decide) (Datetime.parse?_tidy parsed))
    · cases read
  · cases read

theorem Deposit.Kept.timed {d : Deposit} (kept : d.Kept) : ∃ t, nowTs d.cachedAt = .ok t := by
  obtain ⟨_, timed, -⟩ := bind_ok.mp kept.admitted
  unfold checkTime at timed
  split at timed
  · rename_i t read
    exact ⟨t, read⟩
  · split at timed
    · cases timed
    · cases timed

/-- A component of a clean identity is written as it is. -/
theorem Component.sound {kvs : Dict Str Value} {comp : Str} {v : Value} (clean : Json.Clean (.dict kvs))
    (bound : Component kvs comp v) :
    Json.Sound Json.Tidy ((Dict.get? kvs comp).getD .null) := by
  have plain := bound.clean clean
  cases bound with
  | @texts ts listed held each =>
      rw [held, Option.getD_some]
      cases plain with
      | list members =>
          apply Json.Sound.list
          intro v inside
          obtain ⟨t, known, rfl⟩ := List.mem_map.mp inside
          cases members _ (List.mem_map_of_mem ((Str.perm_sorted ts).mem_iff.mpr known)) with
          | str tidy => exact .str tidy
  | @text t other held some_ =>
      rw [held, Option.getD_some]
      cases plain with
      | str tidy => exact .str tidy

theorem Deposit.keyMaterial_distinct (d : Deposit) : (d.keyMaterial.map Prod.fst).Nodup := by
  have names : d.keyMaterial.map Prod.fst = components := by
    unfold keyMaterial
    rw [List.map_map]
    exact List.map_id' components
  rw [names]
  decide

theorem Deposit.record_sound {d : Deposit} (kept : d.Kept) (plain : d.Plain) :
    Json.Sound Json.Tidy (.dict (d.record d.key)) := by
  have tidy : ∀ s : Str, s.all (fun c => 0x20 ≤ c.val && c.val ≤ 0x7e) = true → Json.Tidy s :=
    fun s all => (Json.printable_of_all all).tidy
  have keyed : Json.Tidy d.key := by
    obtain ⟨payload, same⟩ := key_digest kept.keyed
    rw [same]
    exact (Evidence.printable_digest _ _).tidy
  have encoded : Json.Tidy (Base64.encode d.payload) :=
    Json.Printable.tidy (Base64.printable_encode d.payload)
  have material : Json.Sound Json.Tidy (.dict d.keyMaterial) := by
    obtain ⟨kvs, same, bound⟩ := key_dict kept.keyed
    have clean := plain.material
    rw [same] at clean
    have distinct := d.keyMaterial_distinct
    unfold keyMaterial at distinct ⊢
    rw [same] at distinct ⊢
    apply Json.Sound.dict distinct
    · intro kv inside
      obtain ⟨comp, listed, rfl⟩ := List.mem_map.mp inside
      have named : ∀ comp ∈ components,
          comp.all (fun c => 0x20 ≤ c.val && c.val ≤ 0x7e) = true := by decide
      exact tidy comp (named comp listed)
    · intro kv inside
      obtain ⟨comp, listed, rfl⟩ := List.mem_map.mp inside
      obtain ⟨v, held⟩ := bound comp listed
      exact held.sound clean
  have refs : Json.Sound Json.Tidy d.refs := by
    unfold refs Value.orElse
    dsimp only
    split
    · exact plain.retainedRefs
    · exact .list nofun
  obtain ⟨t, timed⟩ := kept.timed
  unfold record
  apply Json.Sound.dict
  · simp only [List.map_cons, List.map_nil]
    decide
  · simp only [List.forall_mem_cons]
    exact ⟨tidy _ (by decide), tidy _ (by decide), tidy _ (by decide), tidy _ (by decide),
      tidy _ (by decide), tidy _ (by decide), tidy _ (by decide), nofun⟩
  · simp only [List.forall_mem_cons]
    exact ⟨.str (tidy _ (by decide)), .str keyed, material, nowTs_tidy timed, plain.signer, refs,
      .str encoded, nofun⟩

/-- The entry of a deposit reads as its record and payload. -/
theorem parseEntry_record {p : Printer} {d : Deposit} (kept : d.Kept) (plain : d.Plain) {disk : Disk}
    {fp : Path} (opened : disk.read fp = .ok (Utf8.ascii (Json.write p id (.dict (d.record d.key))))) :
    parseEntry disk fp = .ok (.dict (d.record d.key), d.payload) := by
  have held : (Value.dict (d.record d.key)).item "payload" = .ok (.str (Base64.encode d.payload)) :=
    rfl
  have decoded : Base64.decode (.str (Base64.encode d.payload)) = .ok d.payload := by
    unfold Base64.decode
    dsimp only
    rw [Base64.decode_encode]
  unfold parseEntry
  rw [opened, ok_bind, Json.loadText_write (d.record_sound kept plain), ok_bind, held, ok_bind,
    decoded]
  rfl

/-! What a lookup makes of it. -/

theorem sortedOr_texts (ts : List Str) :
    sortedOr (some (.list (ts.map .str))) = .ok ((Str.sorted ts).map .str) := by
  unfold sortedOr
  cases ts with
  | nil => rfl
  | cons t ts => exact sortValues_eq_sorted (t :: ts)

theorem keyMaterial_get {d : Deposit} {kvs : Dict Str Value} (same : d.material = .dict kvs)
    {comp : Str} (listed : comp ∈ components) :
    Dict.get? d.keyMaterial comp = some ((Dict.get? kvs comp).getD .null) := by
  apply Dict.get?_of_mem d.keyMaterial_distinct
  unfold Deposit.keyMaterial
  rw [same]
  exact List.mem_map_of_mem listed

/-- A component drifts exactly when it is not the same. -/
theorem drift_iff {d : Deposit} {kvs looked : Dict Str Value} (same : d.material = .dict kvs)
    {comp : Str} (listed : comp ∈ components) {v w : Value} (bound : Component kvs comp v)
    (bound' : Component looked comp w) :
    drift (.dict d.keyMaterial) looked comp = .ok false ↔ SameComponent kvs looked comp := by
  unfold drift SameComponent
  rw [Value.get_dict, ok_bind, keyMaterial_get same listed]
  cases bound with
  | @texts ts within held each =>
      cases bound' with
      | @texts us within' held' each' =>
          rw [if_pos within, if_pos within, held, held', Option.getD_some, sortedOr_texts, ok_bind,
            sortedOr_texts, ok_bind, pure_ok, Except.ok.injEq, Bool.not_eq_false', sameList_texts,
            Str.sorted_eq_iff]
          constructor
          · intro perm
            exact ⟨ts, us, rfl, rfl, perm⟩
          · rintro ⟨ts', us', first, second, perm⟩
            rw [Option.some.injEq, Value.list.injEq] at first second
            rw [map_str_injective first, map_str_injective second]
            exact perm
      | text other held' some_ => exact absurd within other
  | @text t other held some_ =>
      cases bound' with
      | texts within held' each => exact absurd within other
      | @text u other' held' some' =>
          rw [if_neg other, if_neg other, held, held', Option.getD_some, Option.getD_some,
            Option.getD_some, pure_ok, Except.ok.injEq, Bool.not_eq_false', Value.eq_str,
            Option.some.injEq]
          exact eq_comm

theorem firstDrift_iff {d : Deposit} {m : Value} {looked : Dict Str Value} {k : Str} (kept : d.Kept)
    (object : m = .dict looked) (formed : key m = .ok k) :
    firstDrift (.dict d.keyMaterial) looked components = .ok none ↔ SameIdentity d.material m := by
  obtain ⟨kvs, same, bound⟩ := key_dict kept.keyed
  obtain ⟨looked', object', bound'⟩ := key_dict formed
  rw [object, Value.dict.injEq] at object'
  subst object'
  rw [firstDrift_none]
  constructor
  · intro matched
    refine ⟨kvs, looked, same, object, fun comp listed => ?_⟩
    obtain ⟨v, here⟩ := bound comp listed
    obtain ⟨w, there⟩ := bound' comp listed
    exact (drift_iff same listed here there).mp (matched comp listed)
  · rintro ⟨a, b, first, second, each⟩ comp listed
    rw [same, Value.dict.injEq] at first
    rw [object, Value.dict.injEq] at second
    subst first second
    obtain ⟨v, here⟩ := bound comp listed
    obtain ⟨w, there⟩ := bound' comp listed
    exact (drift_iff same listed here there).mpr (each comp listed)

/-- The age of a deposit is within the declared TTL. -/
def Deposit.InForce (d : Deposit) (asOf ttlSeconds : Value) : Prop :=
  ∃ ttl now cached elapsed, integer? ttlSeconds = some ttl ∧ 0 ≤ ttl ∧ ttl / 86400 ≤ maxDays ∧
    nowTs asOf = .ok now ∧ nowTs d.cachedAt = .ok cached ∧ now.sub cached = .ok elapsed ∧
    0 ≤ elapsed ∧ elapsed ≤ ttl * 1000000

/-- A predicate vouches for what needs one. -/
def Vouched (needs : Bool) (predicate : Option Predicate) (given : Value) : Prop :=
  needs = true → ∃ ask reason, predicate = some ask ∧ ask given = (true, reason)

theorem consult_none {needs : Bool} {predicate : Option Predicate} {given : Value}
    {unchecked invalid : Str} :
    consult needs predicate given unchecked invalid = none ↔ Vouched needs predicate given := by
  unfold consult Vouched
  cases needs with
  | false => simp
  | true =>
      rw [if_pos rfl]
      cases predicate with
      | none => simp
      | some ask =>
          dsimp only
          cases answered : ask given with
          | mk ok reason => cases ok <;> simp [answered]

theorem timedelta_ok {ttl micros : Int} (declared : 0 ≤ ttl) :
    timedelta ttl = .ok micros ↔ ttl / 86400 ≤ maxDays ∧ micros = ttl * 1000000 := by
  have low : -maxDays ≤ ttl / 86400 := by
    unfold maxDays
    omega
  unfold timedelta
  by_cases fits : ttl / 86400 ≤ maxDays
  · rw [if_pos ⟨low, fits⟩, Except.ok.injEq]
    simp [fits, eq_comm]
  · simp [fits]

theorem checkAge_iff {d : Deposit} {k : Str} {asOf ttlSeconds : Value} :
    checkAge (.dict (d.record k)) asOf ttlSeconds = .ok none ↔ d.InForce asOf ttlSeconds := by
  have held : (Value.dict (d.record k)).item "cached_at" = .ok d.cachedAt := rfl
  unfold checkAge Deposit.InForce
  cases declared : (integer? ttlSeconds).filter (fun n => 0 ≤ n) with
  | none =>
      constructor
      · intro ran
        cases ran
      · rintro ⟨ttl, -, -, -, stated, valid, -⟩
        rw [stated] at declared
        simp [Option.filter, valid] at declared
  | some ttl =>
      rw [Option.filter_eq_some_iff, decide_eq_true_iff] at declared
      obtain ⟨stated, valid⟩ := declared
      dsimp only
      constructor
      · intro ran
        split at ran
        · split at ran
          · cases ran
          · cases ran
        · rename_i elapsed aged
          unfold age at aged
          obtain ⟨now, read, aged⟩ := bind_ok.mp aged
          rw [held, ok_bind] at aged
          obtain ⟨cached, read', aged⟩ := bind_ok.mp aged
          split at ran
          · cases ran
          · rename_i old
            obtain ⟨micros, spans, ran⟩ := bind_ok.mp ran
            obtain ⟨fits, rfl⟩ := (timedelta_ok valid).mp spans
            split at ran
            · cases ran
            · rename_i young
              exact ⟨ttl, now, cached, elapsed, stated, valid, fits, read, read', aged, by omega,
                by omega⟩
      · rintro ⟨ttl', now, cached, elapsed, stated', valid', fits, read, read', aged, old, young⟩
        rw [stated, Option.some.injEq] at stated'
        subst stated'
        unfold age
        rw [read, ok_bind, held, ok_bind, read', ok_bind, aged]
        dsimp only
        rw [if_neg (by omega), (timedelta_ok valid).mpr ⟨fits, rfl⟩, ok_bind, if_neg (by omega)]
        rfl

/-- What the store knows of a deposit allows its reuse. -/
structure Deposit.Reusable (d : Deposit) (asOf ttlSeconds : Value)
    (signerOk retentionOk : Option Predicate) : Prop where
  inForce : d.InForce asOf ttlSeconds
  signed : Vouched d.signer.truthy signerOk d.signer
  retained : Vouched d.refs.truthy retentionOk (.dict [("retained_refs", d.refs)])

theorem orElse_list (v : Value) :
    Value.orElse (some (Value.orElse (some v) (.list []))) (.list []) =
      Value.orElse (some v) (.list []) := by
  unfold Value.orElse
  dsimp only
  by_cases held : v.truthy = true
  · rw [if_pos held, if_pos held]
  · rw [if_neg held]
    rfl

theorem reuse_hit {d : Deposit} {k : Str} {payload out : Bytes} {asOf ttlSeconds : Value}
    {signerOk retentionOk : Option Predicate} :
    reuse (.dict (d.record k)) payload asOf ttlSeconds signerOk retentionOk = .ok (.hit out) ↔
      payload = out ∧ d.Reusable asOf ttlSeconds signerOk retentionOk := by
  have signer : (Value.dict (d.record k)).get "signer" = .ok (some d.signer) := rfl
  have refs : (Value.dict (d.record k)).get "retained_refs" = .ok (some d.refs) := rfl
  have same : Value.orElse (some d.refs) (.list []) = d.refs := orElse_list d.retainedRefs
  unfold reuse
  constructor
  · intro ran
    obtain ⟨checked, aged, ran⟩ := bind_ok.mp ran
    cases checked with
    | some reason => cases ran
    | none =>
        dsimp only at ran
        rw [signer, ok_bind, Option.getD_some] at ran
        split at ran
        · cases ran
        · rename_i vouched
          rw [refs, ok_bind, same] at ran
          split at ran
          · cases ran
          · rename_i vouched'
            cases ran
            exact ⟨rfl, checkAge_iff.mp aged, consult_none.mp vouched, consult_none.mp vouched'⟩
  · rintro ⟨rfl, reusable⟩
    rw [checkAge_iff.mpr reusable.inForce, ok_bind]
    dsimp only
    rw [signer, ok_bind, Option.getD_some, consult_none.mpr reusable.signed]
    dsimp only
    rw [refs, ok_bind, same, consult_none.mpr reusable.retained]
    rfl

theorem inspect_hit {d : Deposit} {k : Str} {m : Value} {looked : Dict Str Value}
    {asOf ttlSeconds : Value} {signerOk retentionOk : Option Predicate} {out : Bytes} (kept : d.Kept)
    (object : m = .dict looked) (formed : key m = .ok k) :
    inspect looked (.dict (d.record d.key)) d.payload asOf ttlSeconds signerOk retentionOk =
        .ok (.hit out) ↔
      SameIdentity d.material m ∧ d.payload = out ∧
        d.Reusable asOf ttlSeconds signerOk retentionOk := by
  have material : (Value.dict (d.record d.key)).get "key_material" = .ok (some (.dict d.keyMaterial)) :=
    rfl
  have stored : Value.orElse (some (.dict d.keyMaterial)) (.dict []) = .dict d.keyMaterial := rfl
  unfold inspect
  rw [material, ok_bind, stored, ← firstDrift_iff kept object formed, ← reuse_hit (k := d.key)]
  dsimp only
  constructor
  · intro ran
    obtain ⟨found, matched, ran⟩ := bind_ok.mp ran
    cases found with
    | some comp => cases ran
    | none => exact ⟨matched, ran⟩
  · rintro ⟨matched, ran⟩
    rw [matched, ok_bind]
    exact ran

/-- Nothing stands in the store yet. -/
def Fresh (disk : Disk) (storeRoot : Str) : Prop := ∀ k, disk.isFile (entryPath storeRoot k) = false

/-- The entry of the key is that of the deposit. -/
structure Latest (ds : List Deposit) (m : Value) (d : Deposit) : Prop where
  stands : ∃ before later, ds = before ++ d :: later ∧ ∀ d' ∈ later, Cache.key d'.material ≠ Cache.key m
  same : SameIdentity d.material m

section

variable {p : Printer} {disk : Disk} {storeRoot k : Str} {root : Path} {m : Value}
variable {asOf ttlSeconds : Value} {signerOk retentionOk : Option Predicate}

theorem get_absent {ds : List Deposit} (linkless : disk.Linkless (entries storeRoot) root)
    (fresh : Fresh disk storeRoot) (formed : key m = .ok k) (kept : ∀ d ∈ ds, d.Kept)
    (aside : ∀ d ∈ ds, d.key ≠ k) :
    get (disk.after (ds.map (Deposit.entry p storeRoot))) storeRoot m asOf ttlSeconds signerOk
      retentionOk = .ok (.miss ["no-entry"]) := by
  have absent : (disk.after (ds.map (Deposit.entry p storeRoot))).isFile (entryPath storeRoot k) =
      false := by
    unfold Disk.after
    dsimp only
    rw [written_aside linkless formed kept aside, fresh k]
    rfl
  unfold get
  rw [formed]
  dsimp only
  rw [absent, if_neg Bool.false_ne_true]

/-- A lookup inspects the record of the latest deposit under its key. -/
theorem get_latest {before later : List Deposit} {d : Deposit} {looked : Dict Str Value}
    (linkless : disk.Linkless (entries storeRoot) root) (object : m = .dict looked)
    (formed : key m = .ok d.key) (kept : ∀ d' ∈ before ++ d :: later, d'.Kept) (plain : d.Plain)
    (aside : ∀ d' ∈ later, d'.key ≠ d.key) :
    get (disk.after ((before ++ d :: later).map (Deposit.entry p storeRoot))) storeRoot m asOf
        ttlSeconds signerOk retentionOk =
      inspect looked (.dict (d.record d.key)) d.payload asOf ttlSeconds signerOk retentionOk := by
  have written : disk.written ((before ++ d :: later).map (Deposit.entry p storeRoot))
      (disk.locate (entryPath storeRoot d.key)) =
        some (Utf8.ascii (Json.write p id (.dict (d.record d.key)))) :=
    written_latest linkless formed (fun d' inside => kept d' (by simp [inside])) rfl aside
  have present : (disk.after ((before ++ d :: later).map (Deposit.entry p storeRoot))).isFile
      (entryPath storeRoot d.key) = true := by
    unfold Disk.after
    dsimp only
    rw [written]
    rfl
  have opened : (disk.after ((before ++ d :: later).map (Deposit.entry p storeRoot))).read
      (entryPath storeRoot d.key) = .ok (Utf8.ascii (Json.write p id (.dict (d.record d.key)))) := by
    unfold Disk.after
    dsimp only
    rw [written]
  have parsed := readEntry_some.mpr (parseEntry_record (kept d (by simp)) plain opened)
  unfold get
  rw [formed]
  dsimp only
  rw [present, if_pos rfl, parsed, ok_bind, object]
  rfl

end

/-- After any run of deposits in a fresh store, a lookup reuses exactly the payload of the latest
deposit under its key, when that is of the same identity and still holds. -/
theorem get_hit_iff {p : Printer} {disk : Disk} {storeRoot : Str} {root : Path} {ds : List Deposit}
    {world last : World} (ran : putAll p storeRoot ds world = (.ok (), last))
    (started : world.log = []) (fresh : Fresh disk storeRoot)
    (linkless : disk.Linkless (entries storeRoot) root) (plain : ∀ d ∈ ds, d.Plain)
    (m asOf ttlSeconds : Value) (signerOk retentionOk : Option Predicate) (out : Bytes) :
    get (disk.after last.log) storeRoot m asOf ttlSeconds signerOk retentionOk = .ok (.hit out) ↔
      ∃ d, Latest ds m d ∧ d.payload = out ∧ d.Reusable asOf ttlSeconds signerOk retentionOk := by
  obtain ⟨kept, log⟩ := putAll_ok ran
  rw [started, List.nil_append] at log
  rw [log]
  constructor
  · intro hit
    obtain ⟨k, formed⟩ : ∃ k, key m = .ok k := by
      cases formed : key m with
      | ok k => exact ⟨k, rfl⟩
      | error e =>
          unfold get at hit
          rw [formed] at hit
          dsimp only at hit
          split at hit <;> cases hit
    obtain ⟨looked, object, -⟩ := key_dict formed
    rcases latest_or_none (fun d : Deposit => d.key = k) ds with
      ⟨before, d, later, split, own, aside⟩ | none_
    · subst own split
      rw [get_latest linkless object formed kept (plain d (by simp)) aside] at hit
      obtain ⟨same, payload, reusable⟩ := (inspect_hit (kept d (by simp)) object formed).mp hit
      refine ⟨d, ⟨⟨before, later, rfl, fun d' inside equal => aside d' inside ?_⟩, same⟩, payload,
        reusable⟩
      rw [formed, (kept d' (by simp [inside])).keyed, Except.ok.injEq] at equal
      exact equal
    · rw [get_absent linkless fresh formed kept none_] at hit
      cases hit
  · rintro ⟨d, ⟨⟨before, later, rfl, aside⟩, same⟩, payload, reusable⟩
    have formed := same.key (kept d (by simp)).keyed
    obtain ⟨looked, object, -⟩ := key_dict formed
    rw [get_latest linkless object formed kept (plain d (by simp))]
    · exact (inspect_hit (kept d (by simp)) object formed).mpr ⟨same, payload, reusable⟩
    · intro d' inside equal
      apply aside d' inside
      rw [formed, ← equal]
      exact (kept d' (by simp [inside])).keyed

/-- A file system without files and links. -/
def bareDisk : Disk where
  resolve p := .ok p
  exists_ _ := false
  isFile _ := false
  isDir _ := false
  read p := .error ⟨.osError, ["No such file or directory: ", .repr (.str p.str)]⟩

def printer : Printer := ⟨fun _ => false, fun _ => []⟩

def factDeposit (payload : Bytes) : Deposit where
  material := .dict (factMaterial "b" "a")
  payload := payload
  cachedAt := .str "2026-01-01T00:00:00Z"
  signer := .null
  retainedRefs := .null

theorem factDeposit_plain (payload : Bytes) : (factDeposit payload).Plain where
  material := factMaterial_clean ⟨by decide, by decide⟩
  signer := .null
  retainedRefs := .null

theorem factDeposit_inForce (payload : Bytes) :
    (factDeposit payload).InForce (.str "2026-01-01T00:00:30Z") (.int 60) := by
  have aged : (do
      let now ← nowTs (.str "2026-01-01T00:00:30Z")
      let cached ← nowTs (.str "2026-01-01T00:00:00Z")
      now.sub cached) = .ok 30000000 := by decide +kernel
  obtain ⟨now, read, aged⟩ := bind_ok.mp aged
  obtain ⟨cached, read', aged⟩ := bind_ok.mp aged
  exact ⟨60, now, cached, 30000000, rfl, by decide, by decide, read, read', aged, by decide,
    by decide⟩

theorem put_factDeposit (payload : Bytes) (log : List (Path × Bytes)) :
    ∃ k last, put printer "/cache" (factDeposit payload) ⟨log, [], []⟩ =
      (.ok k, ⟨last, [], []⟩) :=
  ⟨_, _, rfl⟩

/-- The second of two deposits is found, through facts that are listed the other way round. -/
theorem get_hit_iff_facts : ∃ last,
    putAll printer "/cache" [factDeposit [1], factDeposit [2]] ⟨[], [], []⟩ =
        (.ok (), last) ∧
      get (bareDisk.after last.log) "/cache" (.dict (factMaterial "a" "b"))
        (.str "2026-01-01T00:00:30Z") (.int 60) none none = .ok (.hit [2]) := by
  obtain ⟨k, log, first⟩ := put_factDeposit [1] []
  obtain ⟨k', log', second⟩ := put_factDeposit [2] log
  have ran : putAll printer "/cache" [factDeposit [1], factDeposit [2]] ⟨[], [], []⟩ =
      (.ok (), ⟨log', [], []⟩) := by
    rw [putAll, Act.bind_run, first]
    dsimp only
    rw [putAll, Act.bind_run, second]
    rfl
  have linkless : bareDisk.Linkless (entries "/cache") (entries "/cache") :=
    ⟨rfl, fun _ _ => rfl, fun _ _ => rfl⟩
  have plain : ∀ d ∈ [factDeposit [1], factDeposit [2]], d.Plain := by
    rw [List.forall_mem_cons, List.forall_mem_cons]
    exact ⟨factDeposit_plain _, factDeposit_plain _, nofun⟩
  refine ⟨_, ran, (get_hit_iff ran rfl (fun _ => rfl) linkless plain _ _ _ none none [2]).mpr ?_⟩
  refine ⟨factDeposit [2], ⟨⟨[factDeposit [1]], [], rfl, nofun⟩, ?_⟩, rfl, factDeposit_inForce _,
    nofun, nofun⟩
  refine ⟨_, _, rfl, rfl, ?_⟩
  simp only [components, List.forall_mem_cons]
  exact ⟨rfl, rfl, rfl, rfl, rfl, ⟨[], [], rfl, rfl, .refl _⟩,
    ⟨["b", "a"], ["a", "b"], rfl, rfl, .swap _ _ _⟩, nofun⟩

end DevGate.Cache
