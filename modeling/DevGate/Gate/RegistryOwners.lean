import DevGate.Gate.RegistryMerge

set_option autoImplicit false

/- Which file an entry of the merged registry is from, and which repository
`resolve_registry` holds for its owner. -/
namespace DevGate.Gate.Hygiene

open Py Keyed

/-- The entries of the project's file. -/
def overlayEntries (r : Registries) : Except Exc (List Value) :=
  match r.overlay with
  | .absent => .ok []
  | .bundled => readFile r.bundled
  | .own bytes => readFile (some bytes)

/-- Two owners have one root: a project whose file is the bundled one is DevGate itself. -/
def SameRoot (r : Registries) (a b : Owner) : Prop := r.overlay = .bundled ∨ a = b

def originKey (p : Value × Owner) : Option Key := entryKey p.1

/-- The merged entries, each with the file it is from. -/
def origins (base extra : List Value) : List (Value × Owner) :=
  (extra.map (fun e => (e, Owner.project))).foldl (place originKey)
    (base.map (fun e => (e, Owner.devgate)))

def keeps (statuses : Option (List Str)) (entry : Value) : Bool :=
  statuses.all (fun kept => hasStatus kept entry)

/-- An entry of the result is tagged with the file it is from, and its id is owned by the
root of that file. -/
structure Attributed (r : Registries) (owners : Dict Key Owner) (entry : Value)
    (origin : Value × Owner) : Prop where
  same : untag entry = untag origin.1
  tagged : ∃ o, SameRoot r o origin.2 ∧ entry.field? "_source" = some (.str o.label)
  owned : ∀ key, Named entry key → ∃ o, SameRoot r o origin.2 ∧ Dict.get? owners key = some o

/-- The entry of a file that the merge leaves standing. -/
def Survives (base extra : List Value) (entry : Value) (origin : Owner) : Prop :=
  match origin with
  | .devgate => ∃ front rest, base = front ++ entry :: rest ∧
      ∀ k, entryKey entry = some k → k ∈ keys entryKey extra → k ∈ keys entryKey rest
  | .project => (entry ∈ extra ∧ entryKey entry = none) ∨ ∃ k, last entryKey k extra = some entry

/-- The files say themselves, of every entry that survives, which of them it is from. -/
def Truthful (r : Registries) (statuses : Option (List Str)) (base extra : List Value) : Prop :=
  r.overlay = .absent ∨
    ∀ entry origin, Survives base extra entry origin → keeps statuses entry = true →
      (∃ o, SameRoot r o origin ∧ entry.field? "_source" = some (.str o.label)) ∧
      ∀ key final, Named entry key → last entryKey key (base ++ extra) = some final →
        SameRoot r (sourceOwner final) origin

/-! The origins. -/

theorem origins_fst (base extra : List Value) :
    (origins base extra).map Prod.fst = extra.foldl (place entryKey) base := by
  have carries : Carries originKey entryKey Prod.fst id
      (base.map (fun e => (e, Owner.devgate)) ++ extra.map (fun e => (e, Owner.project))) := by
    intro p _
    cases named : originKey p <;> exact named
  have image := carries.foldl_place Function.injective_id
  have back : ∀ (o : Owner) (entries : List Value),
      (entries.map (fun e => (e, o))).map Prod.fst = entries := by
    intro o entries
    rw [List.map_map]
    exact List.map_id entries
  rw [back, back] at image
  exact image.symm

theorem mem_origins {base extra : List Value} {entry : Value} {origin : Owner} :
    (entry, origin) ∈ origins base extra ↔ Survives base extra entry origin := by
  have keys_eq : ∀ (o : Owner) (entries : List Value),
      keys originKey (entries.map (fun e => (e, o))) = keys entryKey entries :=
    fun o entries => @keys_map _ _ entryKey _ (fun e => (e, o)) originKey (fun _ => rfl) entries
  have last_eq : ∀ (k : Key) (o : Owner) (entries : List Value),
      last originKey k (entries.map (fun e => (e, o))) = (last entryKey k entries).map (fun e => (e, o)) :=
    fun k o entries =>
      @last_map _ _ entryKey _ _ (fun e => (e, o)) originKey (fun _ => rfl) k entries
  unfold origins
  rw [mem_foldl_place_iff]
  simp only [keys_eq, last_eq]
  cases origin with
  | devgate =>
      constructor
      · rintro (⟨front, rest, shape, stays⟩ | ⟨member, -⟩ | ⟨k, found⟩)
        · obtain ⟨front', rest', shape', -, second⟩ := List.map_eq_append_iff.mp shape
          obtain ⟨e, back, rfl, here, rfl⟩ := List.map_eq_cons_iff.mp second
          cases here
          refine ⟨front', back, shape', fun k named inside => ?_⟩
          have later := stays k named inside
          rwa [keys_eq] at later
        · obtain ⟨e, -, same⟩ := List.mem_map.mp member
          cases same
        · obtain ⟨e, -, same⟩ := Option.map_eq_some_iff.mp found
          cases same
      · rintro ⟨front, rest, rfl, stays⟩
        refine Or.inl ⟨front.map (fun e => (e, .devgate)), rest.map (fun e => (e, .devgate)), ?_, ?_⟩
        · rw [List.map_append, List.map_cons]
        · intro k named inside
          rw [keys_eq]
          exact stays k named inside
  | project =>
      constructor
      · rintro (⟨front, rest, shape, -⟩ | ⟨member, none⟩ | ⟨k, found⟩)
        · obtain ⟨front', rest', -, -, second⟩ := List.map_eq_append_iff.mp shape
          obtain ⟨e, back, -, here, -⟩ := List.map_eq_cons_iff.mp second
          cases here
        · obtain ⟨e, inside, same⟩ := List.mem_map.mp member
          cases same
          exact Or.inl ⟨inside, none⟩
        · obtain ⟨e, found', same⟩ := Option.map_eq_some_iff.mp found
          cases same
          exact Or.inr ⟨k, found'⟩
      · rintro (⟨inside, none⟩ | ⟨k, found⟩)
        · exact Or.inr (Or.inl ⟨List.mem_map.mpr ⟨entry, inside, rfl⟩, none⟩)
        · exact Or.inr (Or.inr ⟨k, by rw [found]; rfl⟩)

/-! The owners. -/

/-- Whether a value of this key is true. -/
def keyTruthy : Key → Bool
  | .null => false
  | .num x => x != .fin 0
  | .str s => s != []

theorem truthy_of_key {v : Value} {key : Key} (hashed : v.key = .ok key) :
    v.truthy = keyTruthy key := by
  cases v with
  | bool b => cases hashed; cases b <;> decide
  | int n =>
      cases hashed
      unfold Value.truthy keyTruthy
      have same : Flt.fin (n : Rat) = .fin 0 ↔ n = 0 := by
        rw [Flt.fin.injEq]
        exact_mod_cast Iff.rfl
      rw [Bool.eq_iff_iff, bne_iff_ne, bne_iff_ne, Ne, Ne, same]
  | list vs => cases hashed
  | dict kvs => cases hashed
  | _ => cases hashed; rfl

/-- An id is truthy for every entry that has it. -/
theorem named_iff_entryKey {entry other : Value} {key : Key} (named : Named entry key) :
    entryKey other = some key ↔ Named other key := by
  refine ⟨fun keyed => ?_, Named.entryKey⟩
  obtain ⟨eid, -, truthy, hashed⟩ := named
  unfold entryKey ById.id? at keyed
  cases read : ById.entryId "failure_id" other with
  | error e =>
      rw [read] at keyed
      cases keyed
  | ok found =>
      rw [read] at keyed
      cases keyed
      obtain ⟨eid', held, rest⟩ := bind_ok.mp read
      cases eid' with
      | none => cases rest
      | some v =>
          have hashed' : v.key = .ok key := by
            cases v with
            | null => cases rest
            | _ =>
                obtain ⟨key', hashed', same⟩ := bind_ok.mp rest
                cases same
                exact hashed'
          refine ⟨v, held, ?_, hashed'⟩
          rw [truthy_of_key hashed', ← truthy_of_key hashed]
          exact truthy

/-- The last entry of a truthy id owns it. -/
theorem owners_get? {entries : List Value} {owners : Dict Key Owner}
    (counted : entries.foldlM addOwner [] = .ok owners) {entry : Value} {key : Key}
    (named : Named entry key) :
    Dict.get? owners key = (last entryKey key entries).map sourceOwner := by
  induction entries using List.reverseRecOn generalizing owners with
  | nil =>
      cases counted
      rfl
  | append_singleton front e ih =>
      rw [List.foldlM_append] at counted
      obtain ⟨before, ran, counted⟩ := bind_ok.mp counted
      rw [List.foldlM_cons] at counted
      obtain ⟨after, step, counted⟩ := bind_ok.mp counted
      cases counted
      rw [last_append, last, last, Option.none_or]
      obtain ⟨found, held, step⟩ := bind_ok.mp step
      dsimp only at step
      by_cases truthy : (found.getD .null).truthy = true
      · rw [if_pos truthy] at step
        obtain ⟨key', hashed, same⟩ := bind_ok.mp step
        cases same
        have here : Named e key' := by
          cases found with
          | none => cases truthy
          | some eid => exact ⟨eid, held, truthy, hashed⟩
        rw [Dict.get?_set, here.entryKey, ih ran]
        by_cases same : key' = key
        · simp [same]
        · simp [same]
      · rw [if_neg truthy] at step
        cases step
        have other : entryKey e ≠ some key := by
          intro keyed
          obtain ⟨eid, held', truthy', -⟩ := (named_iff_entryKey named).mp keyed
          rw [held, Except.ok.injEq] at held'
          rw [held', Option.getD_some] at truthy
          exact truthy truthy'
        rw [ih ran, if_neg other, Option.none_or]

theorem filter_get? {owners : Dict Key Owner} {inside : Key → Bool} {key : Key}
    (kept : inside key = true) :
    Dict.get? (owners.filter (fun kv => inside kv.1)) key = Dict.get? owners key := by
  induction owners with
  | nil => rfl
  | cons kv rest ih =>
      obtain ⟨k, o⟩ := kv
      by_cases here : k = key
      · subst here
        rw [List.filter_cons, if_pos kept]
        simp [Dict.get?]
      · by_cases stays : inside k = true
        · rw [List.filter_cons, if_pos stays]
          simp only [Dict.get?, here, ↓reduceIte, ih]
        · rw [List.filter_cons, if_neg stays, ih]
          simp only [Dict.get?, here, ↓reduceIte]

/-- What `resolve_registry` returns: the kept entries, and their owners in the whole list. -/
theorem resolveRegistry_parts {r : Registries} {statuses : Option (List Str)} {entries : List Value}
    {owners : Dict Key Owner} (resolved : resolveRegistry r statuses = .ok (entries, owners)) :
    ∃ all, mergedEntries r = .ok all ∧ entries = all.filter (keeps statuses) ∧
      ∀ e ∈ entries, ∀ key, Named e key →
        Dict.get? owners key = (last entryKey key all).map sourceOwner := by
  obtain ⟨all, merged, resolved⟩ := bind_ok.mp resolved
  obtain ⟨counted, ran, resolved⟩ := bind_ok.mp resolved
  refine ⟨all, merged, ?_⟩
  cases statuses with
  | none =>
      cases resolved
      refine ⟨?_, fun e _ key named => owners_get? ran named⟩
      exact (List.filter_eq_self.mpr (fun _ _ => rfl)).symm
  | some kept =>
      dsimp only at resolved
      split at resolved
      · rename_i none
        cases resolved
        refine ⟨rfl, fun e _ key named => ?_⟩
        rw [← owners_get? ran named, none]
      · obtain ⟨ids, hashes, same⟩ := bind_ok.mp resolved
        cases same
        refine ⟨rfl, fun e inside key named => ?_⟩
        have listed : ids.contains key = true := by
          obtain ⟨id', member, hash⟩ := (mapM_members hashes).1 e inside
          obtain ⟨eid, held, -, hashed⟩ := named
          rw [held, ok_bind, Option.getD_some, hashed, Except.ok.injEq] at hash
          rw [List.contains_iff_mem, hash]
          exact member
        rw [@filter_get? _ (fun k => ids.contains k) key listed]
        exact owners_get? ran named

/-! The three kinds of a project's file. -/

section

variable {r : Registries} {base extra all : List Value}

/-- Without a file of the project's every bundled entry is tagged. -/
theorem mergedEntries_absent (absent : r.overlay = .absent) (read : readFile r.bundled = .ok base)
    (merged : mergedEntries r = .ok all) :
    List.Forall₂ (fun e e' => tag "devgate" e = .ok e') base all := by
  unfold mergedEntries at merged
  rw [read, ok_bind, absent] at merged
  exact Fold.mapM_forall₂.mp merged

/-- With one, nothing is tagged: the entries are those of the files. -/
theorem mergedEntries_present (present : r.overlay ≠ .absent) (read : readFile r.bundled = .ok base)
    (read' : overlayEntries r = .ok extra) (merged : mergedEntries r = .ok all) :
    all = (origins base extra).map Prod.fst := by
  have placed : ById.mergeById base extra "failure_id" = .ok all := by
    unfold mergedEntries at merged
    unfold overlayEntries at read'
    rw [read, ok_bind] at merged
    cases overlay : r.overlay with
    | absent => exact absurd overlay present
    | bundled =>
        rw [overlay] at merged read'
        dsimp only at merged read'
        rw [read] at read'
        cases read'
        rwa [ok_bind] at merged
    | own bytes =>
        rw [overlay] at merged read'
        dsimp only at merged read'
        rwa [read', ok_bind] at merged
  rw [origins_fst]
  exact (ById.mergeById_ok.mp placed).2

theorem tag_ok {source : Str} {e e' : Value} (tagged : tag source e = .ok e') :
    e'.field? "_source" = some (.str source) ∧ untag e' = untag e ∧
      ∀ key : Str, key ≠ "_source" → e'.field? key = e.field? key := by
  cases e with
  | dict kvs =>
      cases tagged
      refine ⟨Dict.get?_set_self _ _ _, ?_, fun key other => ?_⟩
      · unfold untag
        dsimp only
        rw [Dict.erase_set_self]
      · rw [Value.field?_dict, Value.field?_dict, Dict.get?_set_of_ne _ _ _ _ (Ne.symm other)]
  | _ => cases tagged

/-- Where every entry of a list is tagged as bundled, every truthy id is DevGate's. -/
theorem owners_devgate {entry : Value} (inside : entry ∈ all) {key : Key} (named : Named entry key)
    (tagged : ∀ e ∈ all, e.field? "_source" = some (.str "devgate")) :
    (last entryKey key all).map sourceOwner = some .devgate := by
  have known : key ∈ keys entryKey all := (mem_keys entryKey).mpr ⟨entry, inside, named.entryKey⟩
  obtain ⟨final, found⟩ := Option.isSome_iff_exists.mp ((last_isSome entryKey).mpr known)
  rw [found, Option.map_some]
  unfold sourceOwner
  rw [if_pos (tagged final (last_mem entryKey found).1)]

theorem attributed_absent {owners : Dict Key Owner} {statuses : Option (List Str)}
    (tagged : List.Forall₂ (fun e e' => tag "devgate" e = .ok e') base all)
    (owned : ∀ e ∈ all.filter (keeps statuses), ∀ key, Named e key →
      Dict.get? owners key = (last entryKey key all).map sourceOwner) :
    List.Forall₂ (Attributed r owners) (all.filter (keeps statuses))
      ((origins base []).filter (fun p => keeps statuses p.1)) := by
  have each : ∀ e ∈ all, e.field? "_source" = some (.str "devgate") := by
    intro e member
    obtain ⟨e₀, -, tags⟩ := (mapM_members (Fold.mapM_forall₂.mpr tagged)).2 e member
    exact (tag_ok tags).1
  have named : ∀ e ∈ all.filter (keeps statuses), ∀ key, Named e key →
      Dict.get? owners key = some .devgate := by
    intro e member key named
    rw [owned e member key named]
    exact owners_devgate (List.mem_filter.mp member).1 named each
  clear owned each
  unfold origins
  rw [List.map_nil, List.foldl_nil]
  induction tagged with
  | nil => exact List.Forall₂.nil
  | @cons e e' rest rest' tags _ ih =>
      obtain ⟨source, same, others⟩ := tag_ok tags
      have alike : keeps statuses e' = keeps statuses e := by
        unfold keeps hasStatus
        rw [others "status" (by decide)]
      have later := ih (fun x member => named x (by
        rw [List.filter_cons]
        split
        · exact List.mem_cons_of_mem _ member
        · exact member))
      rw [List.map_cons, List.filter_cons, List.filter_cons]
      by_cases kept : keeps statuses e' = true
      · rw [if_pos kept, if_pos (alike ▸ kept)]
        refine List.Forall₂.cons ⟨same, ⟨.devgate, Or.inr rfl, source⟩, fun key here => ?_⟩ later
        refine ⟨.devgate, Or.inr rfl, named e' ?_ key here⟩
        rw [List.filter_cons, if_pos kept]
        exact List.mem_cons_self
      · rw [if_neg kept, if_neg (fun kept' => kept (alike.trans kept'))]
        exact later

/-- An untagged entry is attributed to its file where the files say so. -/
theorem attributed_iff {owners : Dict Key Owner} {p : Value × Owner} (inside : p ∈ origins base extra)
    (owned : ∀ key, Named p.1 key →
      Dict.get? owners key = (last entryKey key ((origins base extra).map Prod.fst)).map sourceOwner) :
    Attributed r owners p.1 p ↔
      (∃ o, SameRoot r o p.2 ∧ p.1.field? "_source" = some (.str o.label)) ∧
      ∀ key final, Named p.1 key → last entryKey key (base ++ extra) = some final →
        SameRoot r (sourceOwner final) p.2 := by
  have lasts : ∀ key, last entryKey key ((origins base extra).map Prod.fst) =
      last entryKey key (base ++ extra) := by
    intro key
    rw [origins_fst, last_foldl_place, last_append]
  constructor
  · intro attributed
    refine ⟨attributed.tagged, fun key final named found => ?_⟩
    obtain ⟨o, root, held⟩ := attributed.owned key named
    rw [owned key named, lasts, found, Option.map_some, Option.some.injEq] at held
    exact held ▸ root
  · rintro ⟨tagged, rooted⟩
    refine ⟨rfl, tagged, fun key named => ?_⟩
    have known : key ∈ keys entryKey ((origins base extra).map Prod.fst) :=
      (mem_keys entryKey).mpr ⟨p.1, List.mem_map.mpr ⟨p, inside, rfl⟩, named.entryKey⟩
    obtain ⟨final, found⟩ := Option.isSome_iff_exists.mp ((last_isSome entryKey).mpr known)
    refine ⟨sourceOwner final, rooted key final named (lasts key ▸ found), ?_⟩
    rw [owned key named, found, Option.map_some]

end

/-- Two entries as the files hold them. -/
def bundledEntry : Value := .dict [("failure_id", .str "F1"), ("status", .str "active")]

def ownEntry : Value := .dict [("failure_id", .str "F2"), ("status", .str "active")]

/-- A bundled registry of one entry, under this file of the project's. -/
def holding (overlay : Overlay) : Registries where
  bundled := some (Utf8.ascii (Json.dumps bundledEntry))
  overlay := overlay
  hasCommit := fun _ _ => true
  hasPath := fun _ _ => true
  printer := ⟨fun _ => true, fun _ => []⟩

end DevGate.Gate.Hygiene
