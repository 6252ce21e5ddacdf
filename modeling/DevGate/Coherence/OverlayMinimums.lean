import DevGate.Coherence.Overlay

set_option autoImplicit false

/- What an applied overlay leaves of the central minimums: the severity floors,
the approved evaluators and the required assertions. -/
namespace DevGate.Policy

open Py Evaluators

/-- Floors of known severities. -/
def ValidFloors (floors : Value) : Prop :=
  ∃ kvs, floors = .dict kvs ∧ ∀ aid floor, Dict.get? kvs aid = some floor →
    ∃ n, rank floor = .ok n

/-- Where `aid` has a central floor, `severity` is at least that floor. -/
def AtLeastFloor (central : Central) (aid : Str) (severity : Value) : Prop :=
  ∀ floor, central.floors.field? aid = some floor →
    ∃ n m, rank severity = .ok n ∧ rank floor = .ok m ∧ m ≤ n

def ApprovedEvaluator (central : Central) (evaluator : Value) : Prop :=
  ∃ eid, entryId evaluator = some eid ∧ Key.str eid ∈ central.approved

theorem idKey_ok {v : Value} {key : Key} :
    idKey v = .ok key ↔ ∃ kvs id, v = .dict kvs ∧ Dict.get? kvs "id" = some id ∧ id.key = .ok key := by
  unfold idKey
  rw [bind_ok]
  constructor
  · intro read
    obtain ⟨id, item, hashed⟩ := read
    obtain ⟨kvs, shape, found⟩ := Value.item_ok.mp item
    exact ⟨kvs, id, shape, found, hashed⟩
  · intro read
    obtain ⟨kvs, id, shape, found, hashed⟩ := read
    exact ⟨id, Value.item_ok.mpr ⟨kvs, shape, found⟩, hashed⟩

theorem field?_setField {target : Value} {key : Key} (named : idKey target = .ok key)
    (field other : Str) (value : Value) :
    (setField target field value).field? other =
      if field = other then some value else target.field? other := by
  obtain ⟨kvs, id, shape, -, -⟩ := idKey_ok.mp named
  rw [shape]
  exact Dict.get?_set kvs field other value

theorem idKey_setField {target : Value} {key : Key} (named : idKey target = .ok key)
    {field : Str} (value : Value) (other : field ≠ "id") :
    idKey (setField target field value) = .ok key := by
  obtain ⟨kvs, id, shape, found, hashed⟩ := idKey_ok.mp named
  rw [shape]
  apply idKey_ok.mpr
  refine ⟨Dict.set kvs field value, id, rfl, ?_, hashed⟩
  rw [Dict.get?_set_of_ne kvs field "id" value other]
  exact found

theorem rank?_ok {v : Value} {n : Nat} :
    rank? v = .ok (some n) ↔ ∃ name, v = .str name ∧ Dict.get? severityRank name = some n := by
  unfold rank?
  cases v <;> simp [Value.key]

theorem rank_ok {v : Value} {n : Nat} :
    rank v = .ok n ↔ ∃ name, v = .str name ∧ Dict.get? severityRank name = some n := by
  rw [← rank?_ok]
  unfold rank
  constructor
  · intro ranked
    obtain ⟨known, found, ranked⟩ := bind_ok.mp ranked
    cases known with
    | none => cases ranked
    | some m =>
        cases ranked
        exact found
  · intro found
    rw [found]
    rfl

/-- The name of a severity is not empty. -/
theorem truthy_of_rank {v : Value} {n : Nat} (ranked : rank v = .ok n) : v.truthy = true := by
  obtain ⟨name, same, known⟩ := rank_ok.mp ranked
  rw [same]
  cases name with
  | nil => cases known
  | cons c rest => rfl

theorem setSeverity_ok {central : Central} {aid : Str} {target new next : Value}
    (floors : ValidFloors central.floors) (set : setSeverity central aid target new = .ok next) :
    next = setField target "severity" new ∧ AtLeastFloor central aid new := by
  obtain ⟨kvs, shape, valid⟩ := floors
  unfold setSeverity at set
  rw [shape, Value.get_dict, ok_bind] at set
  obtain ⟨known, ranked, set⟩ := bind_ok.mp set
  cases known with
  | none => cases set
  | some n =>
      dsimp only at set
      split at set
      · rename_i truthy
        obtain ⟨m, floorRank, set⟩ := bind_ok.mp set
        rw [ok_bind, guard_ok, decide_eq_true_eq] at set
        obtain ⟨kept, set⟩ := set
        cases set
        refine ⟨rfl, ?_⟩
        intro floor found
        rw [shape, Value.field?_dict] at found
        rw [found, Option.getD_some] at floorRank
        refine ⟨n, m, rank_ok.mpr (rank?_ok.mp ranked), floorRank, ?_⟩
        omega
      · rename_i falsy
        rw [ok_bind, guard_ok] at set
        cases set.2
        refine ⟨rfl, ?_⟩
        intro floor found
        rw [shape, Value.field?_dict] at found
        obtain ⟨m, floorRank⟩ := valid aid floor found
        have truthy := truthy_of_rank floorRank
        rw [found, Option.getD_some] at falsy
        exact absurd truthy falsy

theorem setEvaluator_ok {central : Central} {aid : Str} {target ev next : Value}
    (some : central.approved ≠ []) (set : setEvaluator central aid target ev = .ok next) :
    next = setField target "evaluator" ev ∧ ApprovedEvaluator central ev := by
  unfold setEvaluator at set
  split at set
  · rename_i c rest named
    rw [guard_ok] at set
    obtain ⟨listed, set⟩ := set
    cases set
    refine ⟨rfl, c :: rest, named, ?_⟩
    by_contra unlisted
    exact listed ⟨some, unlisted⟩
  · cases set

theorem override_ok {changed : Value} {key : Str} {change : Value → Value → Except Exc Value}
    {target next : Value} (ran : override changed key change target = .ok next) :
    (changed.field? key = none ∧ next = target) ∨
      ∃ value, changed.field? key = some value ∧ change target value = .ok next := by
  unfold override at ran
  split at ran
  · rename_i value stated
    exact Or.inr ⟨value, stated, ran⟩
  · rename_i unstated
    cases ran
    exact Or.inl ⟨unstated, rfl⟩

/-- An entry disables its id, or rewrites the assertion of that id. -/
theorem applyChange_ok {central : Central} {byId next : Dict Key Value} {changed : Value}
    (ran : applyChange central byId changed = .ok next) :
    ∃ aid, entryId changed = some aid ∧
      ((Key.str aid ∉ central.required ∧ next = Dict.erase byId (.str aid)) ∨
        ∃ target middle final, Dict.get? byId (.str aid) = some target ∧
          override changed "severity" (setSeverity central aid) target = .ok middle ∧
          override changed "evaluator" (setEvaluator central aid) middle = .ok final ∧
          next = Dict.set byId (.str aid) final) := by
  unfold applyChange at ran
  split at ran
  · cases ran
  · rename_i aid named
    refine ⟨aid, named, ?_⟩
    split at ran
    · rw [guard_ok] at ran
      obtain ⟨optional, ran⟩ := ran
      cases ran
      exact Or.inl ⟨optional, rfl⟩
    · split at ran
      · cases ran
      · rename_i target found
        obtain ⟨middle, severity, ran⟩ := bind_ok.mp ran
        obtain ⟨final, evaluator, ran⟩ := bind_ok.mp ran
        cases ran
        exact Or.inr ⟨target, middle, final, found, severity, evaluator, rfl⟩

/-- One of the entries states `field` for the id `key`. -/
def StatedIn (changes : List Value) (field : Str) (key : Key) : Prop :=
  ∃ changed ∈ changes, ∃ aid, entryId changed = some aid ∧ key = .str aid ∧
    (changed.field? field).isSome = true

theorem statedIn_append (changes : List Value) (changed : Value) {aid : Str}
    (named : entryId changed = some aid) (field : Str) (key : Key) :
    StatedIn (changes ++ [changed]) field key ↔
      StatedIn changes field key ∨ (key = .str aid ∧ (changed.field? field).isSome = true) := by
  constructor
  · intro stated
    obtain ⟨entry, member, id, idNamed, same, some⟩ := stated
    rcases List.mem_append.mp member with before | here
    · exact Or.inl ⟨entry, before, id, idNamed, same, some⟩
    · rw [List.mem_singleton.mp here] at idNamed some
      rw [named, Option.some.injEq] at idNamed
      rw [idNamed]
      exact Or.inr ⟨same, some⟩
  · intro stated
    rcases stated with before | here
    · obtain ⟨entry, member, rest⟩ := before
      exact ⟨entry, List.mem_append_left _ member, rest⟩
    · exact ⟨changed, List.mem_append_right _ List.mem_cons_self, aid, named, here.1, here.2⟩

/-- A field is the original's, which no entry states, or a checked one. -/
def Settled (field : Str) (fine : Str → Value → Prop) (changes : List Value) (key : Key)
    (original doc : Value) : Prop :=
  (doc.field? field = original.field? field ∧ ¬ StatedIn changes field key) ∨
    ∃ aid value, key = .str aid ∧ doc.field? field = some value ∧ fine aid value

theorem Settled.other {field : Str} {fine : Str → Value → Prop} {changes : List Value} {key : Key}
    {original doc : Value} (settled : Settled field fine changes key original doc)
    {changed : Value} {aid : Str} (named : entryId changed = some aid) (apart : key ≠ .str aid) :
    Settled field fine (changes ++ [changed]) key original doc := by
  rcases settled with untouched | checked
  · refine Or.inl ⟨untouched.1, ?_⟩
    rw [statedIn_append changes changed named]
    intro stated
    rcases stated with before | here
    · exact untouched.2 before
    · exact apart here.1
  · exact Or.inr checked

theorem Settled.override {field : Str} {fine : Str → Value → Prop} {changes : List Value}
    {original target next : Value} {changed : Value} {aid : Str}
    (settled : Settled field fine changes (.str aid) original target)
    (named : entryId changed = some aid)
    (restated : (changed.field? field = none ∧ next.field? field = target.field? field) ∨
      ∃ value, next.field? field = some value ∧ fine aid value) :
    Settled field fine (changes ++ [changed]) (.str aid) original next := by
  rcases restated with same | checked
  · rcases settled with untouched | checked
    · refine Or.inl ⟨same.2.trans untouched.1, ?_⟩
      rw [statedIn_append changes changed named, same.1]
      intro stated
      rcases stated with before | here
      · exact untouched.2 before
      · exact absurd here.2 (by simp)
    · obtain ⟨id, value, key, found, valid⟩ := checked
      exact Or.inr ⟨id, value, key, same.2.trans found, valid⟩
  · obtain ⟨value, found, valid⟩ := checked
    exact Or.inr ⟨aid, value, rfl, found, valid⟩

structure Kept (central : Central) (changes : List Value) (key : Key) (original doc : Value) :
    Prop where
  id : idKey doc = .ok key
  severity : Settled "severity" (AtLeastFloor central) changes key original doc
  evaluator : Settled "evaluator" (fun _ => ApprovedEvaluator central) changes key original doc

/-- The dictionary holds what the changes left of the originals. -/
structure Tracks (central : Central) (originals : Dict Key Value) (changes : List Value)
    (byId : Dict Key Value) : Prop where
  kept : ∀ key doc, Dict.get? byId key = some doc →
    ∃ original, Dict.get? originals key = some original ∧ Kept central changes key original doc
  required : ∀ key ∈ central.required, ∀ original, Dict.get? originals key = some original →
    ∃ doc, Dict.get? byId key = some doc

theorem Kept.override {central : Central} (floors : ValidFloors central.floors)
    (approved : central.approved ≠ []) {changes : List Value} {changed : Value} {aid : Str}
    (named : entryId changed = some aid) {original target middle final : Value}
    (kept : Kept central changes (.str aid) original target)
    (severity : Policy.override changed "severity" (setSeverity central aid) target = .ok middle)
    (evaluator : Policy.override changed "evaluator" (setEvaluator central aid) middle = .ok final) :
    Kept central (changes ++ [changed]) (.str aid) original final := by
  have first : idKey middle = .ok (.str aid) ∧
      middle.field? "evaluator" = target.field? "evaluator" ∧
      ((changed.field? "severity" = none ∧ middle.field? "severity" = target.field? "severity") ∨
        ∃ value, middle.field? "severity" = some value ∧ AtLeastFloor central aid value) := by
    rcases override_ok severity with same | set
    · rw [same.2]
      exact ⟨kept.id, rfl, Or.inl ⟨same.1, rfl⟩⟩
    · obtain ⟨value, -, set⟩ := set
      obtain ⟨same, valid⟩ := setSeverity_ok floors set
      rw [same]
      refine ⟨idKey_setField kept.id value (by decide), ?_, Or.inr ⟨value, ?_, valid⟩⟩
      · rw [field?_setField kept.id, if_neg (by decide)]
      · rw [field?_setField kept.id, if_pos rfl]
  obtain ⟨middleId, middleEvaluator, middleSeverity⟩ := first
  rcases override_ok evaluator with same | set
  · rw [same.2]
    exact ⟨middleId, kept.severity.override named middleSeverity,
      kept.evaluator.override named (Or.inl ⟨same.1, middleEvaluator⟩)⟩
  · obtain ⟨value, -, set⟩ := set
    obtain ⟨same, valid⟩ := setEvaluator_ok approved set
    rw [same]
    refine ⟨idKey_setField middleId value (by decide), kept.severity.override named ?_,
      kept.evaluator.override named (Or.inr ⟨value, ?_, valid⟩)⟩
    · rw [field?_setField middleId, if_neg (by decide)]
      exact middleSeverity
    · rw [field?_setField middleId, if_pos rfl]

theorem Tracks.step {central : Central} (floors : ValidFloors central.floors)
    (approved : central.approved ≠ []) {originals byId next : Dict Key Value}
    {changes : List Value} {changed : Value} (tracks : Tracks central originals changes byId)
    (ran : applyChange central byId changed = .ok next) :
    Tracks central originals (changes ++ [changed]) next := by
  obtain ⟨aid, named, effect⟩ := applyChange_ok ran
  have apart : ∀ key doc, key ≠ Key.str aid → Dict.get? byId key = some doc →
      ∃ original, Dict.get? originals key = some original ∧
        Kept central (changes ++ [changed]) key original doc := by
    intro key doc other found
    obtain ⟨original, from_, kept⟩ := tracks.kept key doc found
    exact ⟨original, from_, kept.id, kept.severity.other named other,
      kept.evaluator.other named other⟩
  rcases effect with disabled | rewritten
  · obtain ⟨optional, rfl⟩ := disabled
    refine ⟨?_, ?_⟩
    · intro key doc found
      rw [Dict.get?_erase] at found
      split at found
      · cases found
      · rename_i other
        exact apart key doc (Ne.symm other) found
    · intro key needed original from_
      have other : Key.str aid ≠ key := by
        intro same
        rw [same] at optional
        exact optional needed
      rw [Dict.get?_erase, if_neg other]
      exact tracks.required key needed original from_
  · obtain ⟨target, middle, final, found, severity, evaluator, rfl⟩ := rewritten
    refine ⟨?_, ?_⟩
    · intro key doc shown
      rw [Dict.get?_set] at shown
      split at shown
      · rename_i same
        cases shown
        subst same
        obtain ⟨original, from_, kept⟩ := tracks.kept _ target found
        exact ⟨original, from_, kept.override floors approved named severity evaluator⟩
      · rename_i other
        exact apart key doc (Ne.symm other) shown
    · intro key needed original from_
      rw [Dict.get?_set]
      split
      · exact ⟨final, rfl⟩
      · exact tracks.required key needed original from_

theorem foldlM_applyChange {central : Central} (floors : ValidFloors central.floors)
    (approved : central.approved ≠ []) {originals : Dict Key Value} (changes : List Value)
    {before : List Value} {byId next : Dict Key Value}
    (tracks : Tracks central originals before byId)
    (ran : changes.foldlM (applyChange central) byId = .ok next) :
    Tracks central originals (before ++ changes) next := by
  induction changes generalizing before byId with
  | nil =>
      cases ran
      rw [List.append_nil]
      exact tracks
  | cons changed rest ih =>
      rw [List.foldlM_cons] at ran
      obtain ⟨middle, here, ran⟩ := bind_ok.mp ran
      have later := ih (tracks.step floors approved here) ran
      rw [List.append_assoc, List.singleton_append] at later
      exact later

/-- One of the entries has the id `key`. -/
def NamedIn (additions : List Value) (key : Key) : Prop :=
  ∃ added ∈ additions, ∃ aid, entryId added = some aid ∧ key = .str aid

theorem applyAddition_ok {byId next : Dict Key Value} {added : Value}
    (ran : applyAddition byId added = .ok next) :
    ∃ aid, entryId added = some aid ∧ Dict.get? byId (.str aid) = none ∧
      next = Dict.set byId (.str aid) added := by
  unfold applyAddition at ran
  split at ran
  · cases ran
  · rename_i aid named
    rw [guard_ok] at ran
    obtain ⟨fresh, ran⟩ := ran
    cases ran
    refine ⟨aid, named, ?_, rfl⟩
    rw [Dict.contains, Bool.not_eq_true, Option.isSome_eq_false_iff, Option.isNone_iff_eq_none]
      at fresh
    exact fresh

/-- The additions stand beside what was there. -/
structure Extends (byId : Dict Key Value) (additions : List Value) (next : Dict Key Value) :
    Prop where
  named : ∀ added ∈ additions, ∃ aid, entryId added = some aid
  old : ∀ key doc, Dict.get? byId key = some doc → Dict.get? next key = some doc
  new : ∀ key doc, Dict.get? next key = some doc → doc ∈ additions ∨
    (Dict.get? byId key = some doc ∧ ¬ NamedIn additions key)

theorem foldlM_applyAddition (additions : List Value) {byId next : Dict Key Value}
    (ran : additions.foldlM applyAddition byId = .ok next) : Extends byId additions next := by
  induction additions generalizing byId with
  | nil =>
      cases ran
      refine ⟨by simp, fun _ _ found => found, ?_⟩
      intro key doc found
      refine Or.inr ⟨found, ?_⟩
      intro member
      obtain ⟨_, member, -⟩ := member
      cases member
  | cons added rest ih =>
      rw [List.foldlM_cons] at ran
      obtain ⟨middle, here, ran⟩ := bind_ok.mp ran
      obtain ⟨aid, named, fresh, rfl⟩ := applyAddition_ok here
      have later := ih ran
      refine ⟨?_, ?_, ?_⟩
      · rw [List.forall_mem_cons]
        exact ⟨⟨aid, named⟩, later.named⟩
      · intro key doc found
        apply later.old
        rw [Dict.get?_set, if_neg]
        · exact found
        · intro same
          rw [same, found] at fresh
          cases fresh
      · intro key doc found
        rcases later.new key doc found with member | before
        · exact Or.inl (List.mem_cons_of_mem _ member)
        · obtain ⟨shown, unnamed⟩ := before
          rw [Dict.get?_set] at shown
          split at shown
          · cases shown
            exact Or.inl List.mem_cons_self
          · rename_i other
            refine Or.inr ⟨shown, ?_⟩
            intro member
            obtain ⟨entry, member, id, idNamed, same⟩ := member
            rcases List.mem_cons.mp member with rfl | member
            · rw [named, Option.some.injEq] at idNamed
              rw [same, idNamed] at other
              exact other rfl
            · exact unnamed ⟨entry, member, id, idNamed, same⟩

theorem mem_zip_of_mapM {assertions : List Value} {ids : List Key}
    (read : assertions.mapM idKey = .ok ids) :
    ids.length = assertions.length ∧
      ∀ key a, (key, a) ∈ ids.zip assertions ↔ a ∈ assertions ∧ idKey a = .ok key := by
  induction assertions generalizing ids with
  | nil =>
      cases read
      simp
  | cons a rest ih =>
      rw [List.mapM_cons] at read
      obtain ⟨key, here, read⟩ := bind_ok.mp read
      obtain ⟨keys, later, read⟩ := bind_ok.mp read
      cases read
      obtain ⟨length, members⟩ := ih later
      refine ⟨by simp [length], ?_⟩
      intro k b
      rw [List.zip_cons_cons, List.mem_cons, members, List.mem_cons, Prod.mk.injEq]
      constructor
      · intro member
        rcases member with same | member
        · rw [same.1, same.2]
          exact ⟨Or.inl rfl, here⟩
        · exact ⟨Or.inr member.1, member.2⟩
      · intro member
        obtain ⟨same | member, named⟩ := member
        · rw [same, here, Except.ok.injEq] at named
          exact Or.inl ⟨named.symm, same⟩
        · exact Or.inr ⟨member, named⟩

theorem get?_indexById {assertions : List Value} {ids : List Key}
    (read : assertions.mapM idKey = .ok ids) (distinct : ids.Nodup) (key : Key) (a : Value) :
    Dict.get? (indexById ids assertions) key = some a ↔ a ∈ assertions ∧ idKey a = .ok key := by
  obtain ⟨length, members⟩ := mem_zip_of_mapM read
  rw [← members]
  constructor
  · intro found
    unfold indexById at found
    rw [Dict.get?_ofPairs] at found
    exact List.mem_reverse.mp (Dict.mem_of_get? found)
  · intro member
    apply Dict.get?_ofPairs_of_mem ?_ member
    rw [List.map_fst_zip (Nat.le_of_eq length)]
    exact distinct

theorem tracks_indexById {central : Central} {assertions : List Value} {ids : List Key}
    (read : assertions.mapM idKey = .ok ids) (distinct : ids.Nodup) :
    Tracks central (indexById ids assertions) [] (indexById ids assertions) := by
  refine ⟨?_, ?_⟩
  · intro key doc found
    have unstated : ∀ field, ¬ StatedIn [] field key := by
      intro field stated
      obtain ⟨_, member, -⟩ := stated
      cases member
    exact ⟨doc, found, ((get?_indexById read distinct key doc).mp found).2,
      Or.inl ⟨rfl, unstated _⟩, Or.inl ⟨rfl, unstated _⟩⟩
  · intro key _ original found
    exact ⟨original, found⟩

/-- The entries of the overlay under `key`. -/
def listed (overlay : Value) (key : Str) : List Value :=
  (((overlay.field? key).getD (.list [])).list?).getD []

theorem entries_ok {kvs : Dict Str Value} {key : Str} {vs : List Value}
    (read : entries kvs key = .ok vs) : vs = listed (.dict kvs) key := by
  unfold entries at read
  unfold listed
  rw [Value.field?_dict]
  split at read
  · rename_i found
    cases read
    rw [found]
    rfl
  · cases read

theorem applyOverlay_ok {assertions : List Value} {overlay : Value} {bundle : Dict Str Value}
    {central : Central} {result : List Value} (read : readCentral bundle = .ok central)
    (ran : applyOverlay assertions overlay bundle = .ok result) :
    ∃ ids middle byId, assertions.mapM idKey = .ok ids ∧
      (listed overlay "assertions").foldlM (applyChange central) (indexById ids assertions) =
        .ok middle ∧
      (listed overlay "add_assertions").foldlM applyAddition middle = .ok byId ∧
      result = ids.filterMap (Dict.get? byId) ++ listed overlay "add_assertions" := by
  unfold applyOverlay at ran
  rw [read, ok_bind] at ran
  obtain ⟨ids, named, ran⟩ := bind_ok.mp ran
  split at ran
  · obtain ⟨changes, readChanges, ran⟩ := bind_ok.mp ran
    obtain ⟨additions, readAdditions, ran⟩ := bind_ok.mp ran
    obtain ⟨middle, changed, ran⟩ := bind_ok.mp ran
    obtain ⟨byId, extended, ran⟩ := bind_ok.mp ran
    rw [guard_ok] at ran
    obtain ⟨-, ran⟩ := ran
    cases ran
    rw [← entries_ok readChanges, ← entries_ok readAdditions]
    exact ⟨ids, middle, byId, named, changed, extended, rfl⟩
  · cases ran

/-- `field` of a returned assertion is that of the input assertion of its id, and
the overlay neither states it nor adds the id. -/
def Inherited (assertions : List Value) (overlay : Value) (field : Str) (out : Value) : Prop :=
  ∃ original ∈ assertions, ∃ key, idKey original = .ok key ∧ idKey out = .ok key ∧
    out.field? field = original.field? field ∧
    ¬ StatedIn (listed overlay "assertions") field key ∧
    ¬ NamedIn (listed overlay "add_assertions") key

/-- What came from the overlay respects the central policy. -/
structure Governed (central : Central) (assertions : List Value) (overlay : Value)
    (result : List Value) : Prop where
  severities : ∀ out ∈ result, ∀ aid severity, entryId out = some aid →
    out.field? "severity" = some severity →
    Inherited assertions overlay "severity" out ∨ AtLeastFloor central aid severity
  evaluators : ∀ out ∈ result, ∀ evaluator, out.field? "evaluator" = some evaluator →
    Inherited assertions overlay "evaluator" out ∨ ApprovedEvaluator central evaluator
  required : ∀ original ∈ assertions, ∀ key ∈ central.required, idKey original = .ok key →
    ∃ out ∈ result, idKey out = .ok key ∧
      (out.field? "evaluator" = original.field? "evaluator" ∨
        ∃ evaluator, out.field? "evaluator" = some evaluator ∧ ApprovedEvaluator central evaluator)

/-- The added assertions respect the central policy. -/
def AdditionsGoverned (central : Central) (overlay : Value) : Prop :=
  ∀ added ∈ listed overlay "add_assertions",
    (∀ aid severity, entryId added = some aid → added.field? "severity" = some severity →
      AtLeastFloor central aid severity) ∧
    ∀ evaluator, added.field? "evaluator" = some evaluator → ApprovedEvaluator central evaluator

def DistinctIds (assertions : List Value) : Prop :=
  ∀ ids, assertions.mapM idKey = .ok ids → ids.Nodup

theorem idKey_of_entryId {v : Value} {aid : Str} (named : entryId v = some aid) :
    idKey v = .ok (.str aid) := by
  unfold entryId at named
  obtain ⟨id, found, text⟩ := Option.bind_eq_some_iff.mp named
  cases v with
  | dict kvs =>
      cases id with
      | str s =>
          cases text
          exact idKey_ok.mpr ⟨kvs, .str aid, rfl, found, rfl⟩
      | _ => cases text
  | _ => cases found

/-- Where the overlay was accepted, what it brought in respects the central policy
exactly when its additions do. -/
theorem governed_iff (assertions : List Value) (overlay : Value) (bundle : Dict Str Value)
    (central : Central) (result : List Value) (read : readCentral bundle = .ok central)
    (distinct : DistinctIds assertions) (approved : central.approved ≠ [])
    (floors : ValidFloors central.floors)
    (ran : applyOverlay assertions overlay bundle = .ok result) :
    Governed central assertions overlay result ↔ AdditionsGoverned central overlay := by
  obtain ⟨ids, middle, byId, named, changed, extended, rfl⟩ := applyOverlay_ok read ran
  have tracks := foldlM_applyChange floors approved (listed overlay "assertions")
    (tracks_indexById named (distinct ids named)) changed
  rw [List.nil_append] at tracks
  have extension := foldlM_applyAddition (listed overlay "add_assertions") extended
  -- a returned assertion is an addition, or what the changes left of an input assertion
  have origin : ∀ out ∈ ids.filterMap (Dict.get? byId) ++ listed overlay "add_assertions",
      out ∈ listed overlay "add_assertions" ∨ ∃ original ∈ assertions, ∃ key,
        idKey original = .ok key ∧ ¬ NamedIn (listed overlay "add_assertions") key ∧
        Kept central (listed overlay "assertions") key original out := by
    intro out member
    rcases List.mem_append.mp member with kept | added
    · obtain ⟨key, -, found⟩ := List.mem_filterMap.mp kept
      rcases extension.new key out found with added | before
      · exact Or.inl added
      · obtain ⟨original, from_, rest⟩ := tracks.kept key out before.1
        obtain ⟨inside, id⟩ := (get?_indexById named (distinct ids named) key original).mp from_
        exact Or.inr ⟨original, inside, key, id, before.2, rest⟩
    · exact Or.inl added
  constructor
  · intro governed added member
    have inside := List.mem_append_right (ids.filterMap (Dict.get? byId)) member
    obtain ⟨aid, id⟩ := extension.named added member
    have foreign : ∀ field, ¬ Inherited assertions overlay field added := by
      intro field inherited
      obtain ⟨_, -, key, -, same, -, -, unnamed⟩ := inherited
      rw [idKey_of_entryId id, Except.ok.injEq] at same
      exact unnamed ⟨added, member, aid, id, same.symm⟩
    refine ⟨?_, ?_⟩
    · intro other severity otherId stated
      exact (governed.severities added inside other severity otherId stated).resolve_left
        (foreign _)
    · intro evaluator stated
      exact (governed.evaluators added inside evaluator stated).resolve_left (foreign _)
  · intro additions
    refine ⟨?_, ?_, ?_⟩
    · intro out member aid severity id stated
      rcases origin out member with added | kept
      · exact Or.inr ((additions out added).1 aid severity id stated)
      · obtain ⟨original, inside, key, originalId, unnamed, kept⟩ := kept
        rcases kept.severity with untouched | checked
        · exact Or.inl ⟨original, inside, key, originalId, kept.id, untouched.1, untouched.2,
            unnamed⟩
        · obtain ⟨other, value, same, found, valid⟩ := checked
          rw [found, Option.some.injEq] at stated
          have sameId := kept.id
          rw [idKey_of_entryId id, Except.ok.injEq, same, Key.str.injEq] at sameId
          rw [sameId, ← stated]
          exact Or.inr valid
    · intro out member evaluator stated
      rcases origin out member with added | kept
      · exact Or.inr ((additions out added).2 evaluator stated)
      · obtain ⟨original, inside, key, originalId, unnamed, kept⟩ := kept
        rcases kept.evaluator with untouched | checked
        · exact Or.inl ⟨original, inside, key, originalId, kept.id, untouched.1, untouched.2,
            unnamed⟩
        · obtain ⟨_, value, -, found, valid⟩ := checked
          rw [found, Option.some.injEq] at stated
          rw [← stated]
          exact Or.inr valid
    · intro original inside key needed id
      have from_ := (get?_indexById named (distinct ids named) key original).mpr ⟨inside, id⟩
      obtain ⟨doc, found⟩ := tracks.required key needed original from_
      obtain ⟨original', from', kept⟩ := tracks.kept key doc found
      rw [from_, Option.some.injEq] at from'
      have listedKey : key ∈ ids := by
        have pair := ((mem_zip_of_mapM named).2 key original).mpr ⟨inside, id⟩
        exact (List.of_mem_zip pair).1
      refine ⟨doc, ?_, kept.id, ?_⟩
      · apply List.mem_append_left
        exact List.mem_filterMap.mpr ⟨key, listedKey, extension.old key doc found⟩
      · rcases kept.evaluator with untouched | checked
        · rw [from']
          exact Or.inl untouched.1
        · obtain ⟨_, value, -, stated, valid⟩ := checked
          exact Or.inr ⟨value, stated, valid⟩

def identityEvaluator : Value := .dict [("id", .str "devgate.builtin.identity-consistency")]

/-- A bundle that approves one evaluator and requires high severity of `a1`. -/
def floorBundle : Dict Str Value := [
  ("approved_evaluators", .list [identityEvaluator]),
  ("assertion_severity_floor", .dict [("a1", .str "high")])]

def floorCentral : Central where
  approved := [.str "devgate.builtin.identity-consistency"]
  floors := .dict [("a1", .str "high")]
  required := []

theorem readCentral_floorBundle : readCentral floorBundle = .ok floorCentral := rfl

theorem floorCentral_validFloors : ValidFloors floorCentral.floors := by
  refine ⟨[("a1", .str "high")], rfl, ?_⟩
  intro aid floor found
  have member := Dict.mem_of_get? found
  rw [List.mem_singleton, Prod.mk.injEq] at member
  rw [member.2]
  exact ⟨2, rfl⟩

def highAssertion : Value :=
  .dict [("id", .str "a1"), ("severity", .str "high"), ("evaluator", identityEvaluator)]

theorem highAssertion_distinctIds : DistinctIds [highAssertion] := by
  intro ids read
  cases read
  exact List.nodup_singleton _

/-- An overlay that raises `a1` and adds `a2`, which has no floor. -/
def raising : Value := .dict [
  ("assertions", .list [.dict [("id", .str "a1"), ("severity", .str "critical")]]),
  ("add_assertions", .list [.dict [("id", .str "a2"), ("severity", .str "low"),
    ("evaluator", identityEvaluator)]])]

theorem raising_governed : ∃ result, applyOverlay [highAssertion] raising floorBundle = .ok result ∧
    Governed floorCentral [highAssertion] raising result := by
  obtain ⟨result, ran⟩ : ∃ result, applyOverlay [highAssertion] raising floorBundle = .ok result :=
    ⟨_, rfl⟩
  refine ⟨result, ran, (governed_iff _ _ _ _ _ readCentral_floorBundle highAssertion_distinctIds
    (by decide) floorCentral_validFloors ran).mpr ?_⟩
  intro added member
  rw [List.mem_singleton.mp member]
  refine ⟨?_, ?_⟩
  · intro aid severity named _ floor found
    cases named
    cases found
  · intro evaluator stated
    cases stated
    exact ⟨"devgate.builtin.identity-consistency", rfl, by decide⟩

def lowAddition : Value :=
  .dict [("id", .str "a1"), ("severity", .str "low"), ("evaluator", .dict [("id", .str "e")])]

/-- An overlay that disables `a1` and adds it back below its floor. -/
def readding : Value := .dict [
  ("assertions", .list [.dict [("id", .str "a1"), ("disabled", .bool true)]]),
  ("add_assertions", .list [lowAddition])]

theorem readding_not_governed :
    ∃ result, applyOverlay [highAssertion] readding floorBundle = .ok result ∧
      ¬ Governed floorCentral [highAssertion] readding result := by
  refine ⟨_, rfl, ?_⟩
  intro governed
  rcases governed.severities lowAddition (by decide) "a1" (.str "low") rfl rfl with own | above
  · obtain ⟨_, -, key, -, same, -, -, unnamed⟩ := own
    cases same
    exact unnamed ⟨lowAddition, List.mem_cons_self, "a1", rfl, rfl⟩
  · obtain ⟨n, m, low, high, order⟩ := above (.str "high") rfl
    cases low
    cases high
    omega

end DevGate.Policy
