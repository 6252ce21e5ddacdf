import DevGate.Gate.RegistryHygiene
import DevGate.Gate.RuleAgreement

set_option autoImplicit false

/- A clean registry is read and merged alike by both programs. -/
namespace DevGate.Gate.Hygiene

open Py Keyed

/-- The id an entry is merged by. -/
abbrev entryKey : Value → Option Key := ById.id? "failure_id"

/-- An entry with a truthy id, and the key it comes to. -/
def Named (entry : Value) (key : Key) : Prop :=
  ∃ eid, entry.get "failure_id" = .ok (some eid) ∧ eid.truthy = true ∧ eid.key = .ok key

theorem Named.entryId {entry : Value} {key : Key} (named : Named entry key) :
    ById.entryId "failure_id" entry = .ok (some key) := by
  obtain ⟨eid, held, truthy, key'⟩ := named
  unfold ById.entryId
  rw [held, ok_bind]
  cases eid with
  | null => cases truthy
  | _ =>
      dsimp only
      rw [key']
      rfl

theorem Named.keyable {entry : Value} {key : Key} (named : Named entry key) :
    ById.Keyable "failure_id" entry := ⟨some key, named.entryId⟩

theorem Named.entryKey {entry : Value} {key : Key} (named : Named entry key) :
    entryKey entry = some key := by
  unfold Hygiene.entryKey ById.id?
  rw [named.entryId]
  rfl

/-! Reading. -/

theorem readJsonl_of_loadEntries {lines : List Str} : ∀ {lineno : Nat} {entries : List Value},
    loadEntries lineno lines = .ok (entries, []) → readJsonl lines = .ok entries := by
  induction lines with
  | nil =>
      intro lineno entries read
      cases read
      rfl
  | cons line rest ih =>
      intro lineno entries read
      rw [loadEntries] at read
      rw [readJsonl]
      by_cases kept : isEntry line = true
      · rw [if_pos kept] at read ⊢
        cases parsed : Json.loads line with
        | ok entry =>
            rw [parsed] at read
            obtain ⟨⟨later, errors⟩, next, same⟩ := bind_ok.mp read
            cases same
            exact bind_ok.mpr ⟨later, ih next, rfl⟩
        | error e =>
            rw [parsed] at read
            dsimp only at read
            split at read
            · obtain ⟨later, next, same⟩ := bind_ok.mp read
              cases same
            · cases read
      · rw [if_neg kept] at read ⊢
        exact ih read

/-! The merging loop of `check`. -/

/-- The merged list so far is `out`, and the index is exact. -/
structure Tracks (m : Merge) (out : List Value) : Prop where
  entries : m.merged.map Checked.entry = out
  indexed : ById.Exact "failure_id" out m.index

theorem mergeEntry_grows {owner : Owner} {m m' : Merge} {numbered : Value × Nat}
    (step : mergeEntry owner m numbered = .ok m') : m.errors <+: m'.errors := by
  obtain ⟨found, -, step⟩ := bind_ok.mp step
  dsimp only at step
  split at step
  · obtain ⟨key, -, step⟩ := bind_ok.mp step
    have grown : m.errors <+: (if m.seen.contains key = true then
        m.errors ++ [Checked.noted ⟨numbered.1, owner, numbered.2⟩
          [": duplicate failure_id '", .str (found.getD (.str [])), "'"]]
        else m.errors) := by
      by_cases repeated : m.seen.contains key = true
      · rw [if_pos repeated]
        exact List.prefix_append _ _
      · rw [if_neg repeated]
    split at step
    · cases step
      exact grown
    · cases step
      exact grown
  · cases step
    exact List.prefix_append _ _

/-- A merge that ends without a report had none on the way. -/
theorem mergeEntries_quiet {owner : Owner} {numbered : List (Value × Nat)} {m m' : Merge}
    (ran : numbered.foldlM (mergeEntry owner) m = .ok m') (clean : m'.errors = []) :
    m.errors = [] := by
  have grown : m.errors <+: m'.errors := by
    refine @Fold.foldlM_keeps _ _ _ _ (fun s => m.errors <+: s.errors) _ ?_ _ _
      (List.prefix_refl _) ran
    intro _ _ s s' before step
    exact before.trans (mergeEntry_grows step)
  rw [clean] at grown
  exact List.prefix_nil.mp grown

/-- What one entry does that is reported for nothing. -/
theorem mergeEntry_clean {owner : Owner} {m m' : Merge} {numbered : Value × Nat}
    (step : mergeEntry owner m numbered = .ok m') (clean : m'.errors = []) {out : List Value}
    (tracks : Tracks m out) :
    Tracks m' (place entryKey out numbered.1) ∧
      ∃ key, Named numbered.1 key ∧ key ∉ m.seen ∧ m'.seen = key :: m.seen := by
  obtain ⟨found, got, step⟩ := bind_ok.mp step
  dsimp only at step
  split at step
  · rename_i truthy
    obtain ⟨key, key', step⟩ := bind_ok.mp step
    have named : Named numbered.1 key := by
      cases found with
      | none => cases truthy
      | some eid => exact ⟨eid, got, truthy, key'⟩
    have keyed := named.entryKey
    have looked := tracks.indexed key
    have errors : m'.errors = (if m.seen.contains key = true then
          m.errors ++ [Checked.noted ⟨numbered.1, owner, numbered.2⟩
            [": duplicate failure_id '", .str (found.getD (.str [])), "'"]]
        else m.errors) ∧
        m'.seen = (if m.seen.contains key = true then m.seen else key :: m.seen) ∧
          Tracks m' (place entryKey out numbered.1) := by
      cases hit : lastIndex entryKey key out with
      | some i =>
          rw [looked, hit] at step
          cases step
          rw [place_of_found entryKey numbered.1 keyed hit]
          refine ⟨rfl, rfl, ?_, fun k => ?_⟩
          · rw [← tracks.entries, List.map_set]
          · rw [lastIndex_place_of_found entryKey keyed hit]
            exact tracks.indexed k
      | none =>
          rw [looked, hit] at step
          cases step
          have added : place entryKey out numbered.1 = out ++ [numbered.1] :=
            place_of_absent entryKey (fun k same => by
              rw [keyed, Option.some.injEq] at same
              exact same ▸ hit)
          have same : m.merged.length = out.length := by
            rw [← tracks.entries, List.length_map]
          rw [added]
          refine ⟨rfl, rfl, ?_, ?_⟩
          · rw [← tracks.entries, List.map_append]
            rfl
          · rw [same]
            exact tracks.indexed.keyed keyed
    by_cases repeated : m.seen.contains key = true
    · rw [if_pos repeated, clean] at errors
      simp at errors
    · rw [if_neg repeated, if_neg repeated, clean] at errors
      refine ⟨errors.2.2, key, named, fun inside => ?_, errors.2.1⟩
      exact repeated (List.contains_iff_mem.mpr inside)
  · cases step
    simp at clean

/-- The entries of one file, read without a report. -/
structure Orderly (entries : List Value) : Prop where
  named : ∀ e ∈ entries, ∃ key, Named e key
  distinct : (keys entryKey entries).Nodup

theorem mergeEntries_clean {owner : Owner} {entries : List Value} : ∀ {lineno : Nat} {m m' : Merge}
    {out : List Value}, (entries.zipIdx lineno).foldlM (mergeEntry owner) m = .ok m' →
    m'.errors = [] → Tracks m out →
    Tracks m' (entries.foldl (place entryKey) out) ∧ Orderly entries ∧
      ∀ k ∈ keys entryKey entries, k ∉ m.seen := by
  induction entries with
  | nil =>
      intro lineno m m' out ran clean tracks
      cases ran
      exact ⟨tracks, ⟨nofun, List.nodup_nil⟩, nofun⟩
  | cons entry rest ih =>
      intro lineno m m' out ran clean tracks
      rw [List.zipIdx_cons, List.foldlM_cons] at ran
      obtain ⟨next, step, ran⟩ := bind_ok.mp ran
      have quiet := mergeEntries_quiet ran clean
      obtain ⟨tracks', key, named, fresh, seen⟩ := mergeEntry_clean step quiet tracks
      obtain ⟨tracked, orderly, apart⟩ := ih ran clean tracks'
      refine ⟨tracked, ⟨?_, ?_⟩, ?_⟩
      · intro e inside
        rcases List.mem_cons.mp inside with rfl | later
        · exact ⟨key, named⟩
        · exact orderly.named e later
      · rw [keys_cons, named.entryKey]
        refine List.nodup_cons.mpr ⟨fun inside => ?_, orderly.distinct⟩
        apply apart key inside
        rw [seen]
        exact List.mem_cons_self
      · intro k inside
        rw [mem_keys_cons, named.entryKey, Option.some.injEq] at inside
        rcases inside with rfl | later
        · exact fresh
        · intro old
          apply apart k later
          rw [seen]
          exact List.mem_cons_of_mem _ old

/-- The entries a source holds, where it is read without a report. -/
def Holds (bytes : Bytes) (entries : List Value) : Prop :=
  readJsonl (registryLines bytes) = .ok entries ∧ Orderly entries

/-- A source merged without a report: the file parses, and its entries are merged. -/
theorem mergeSource_parsed {before m : Merge} {bad : Bool} {source : Owner × Bytes}
    (ran : mergeSource (before, bad) source = .ok (m, false)) (clean : m.errors = []) :
    bad = false ∧ before.errors = [] ∧ ∃ entries,
      loadEntries 1 (registryLines source.2) = .ok (entries, []) ∧
      (entries.zipIdx 1).foldlM (mergeEntry source.1) { before with seen := [] } = .ok m := by
  obtain ⟨⟨entries, reports⟩, read, ran⟩ := bind_ok.mp ran
  dsimp only at ran
  split at ran
  · cases ran
  · rename_i parsed
    rw [not_not] at parsed
    subst parsed
    obtain ⟨last, merged, same⟩ := bind_ok.mp ran
    rw [List.map_nil, List.append_nil] at merged
    cases same
    have quiet := mergeEntries_quiet merged clean
    exact ⟨rfl, quiet, entries, read, merged⟩

theorem mergeSource_clean {before m : Merge} {bad : Bool} {source : Owner × Bytes}
    (ran : mergeSource (before, bad) source = .ok (m, false)) (clean : m.errors = [])
    {out : List Value} (tracks : Tracks before out) :
    ∃ entries, Holds source.2 entries ∧ Tracks m (entries.foldl (place entryKey) out) := by
  obtain ⟨-, -, entries, read, merged⟩ := mergeSource_parsed ran clean
  obtain ⟨tracked, orderly, -⟩ :=
    mergeEntries_clean merged clean ⟨tracks.entries, tracks.indexed⟩
  exact ⟨entries, ⟨readJsonl_of_loadEntries read, orderly⟩, tracked⟩

/-- The entries of the project's own file. -/
def Extra (overlay : Overlay) (entries : List Value) : Prop :=
  match overlay with
  | .own bytes => Holds bytes entries
  | _ => entries = []

theorem mergeSources_clean {r : Registries} {bundled : Bytes} {m : Merge}
    (ran : mergeSources r bundled = .ok (m, false)) (clean : m.errors = []) :
    ∃ base extra, Holds bundled base ∧ Extra r.overlay extra ∧
      m.merged.map Checked.entry = extra.foldl (place entryKey) base := by
  have start : Tracks ⟨[], [], [], []⟩ [] := ⟨rfl, fun _ => rfl⟩
  have kept : ∀ {base : List Value}, Orderly base → base.foldl (place entryKey) [] = base := by
    intro base orderly
    rw [foldl_place_of_nodup entryKey orderly.distinct [] (fun _ _ => nofun), List.nil_append]
  unfold mergeSources sources at ran
  cases overlay : r.overlay with
  | own bytes =>
      rw [overlay] at ran
      dsimp only at ran
      rw [List.foldlM_cons] at ran
      obtain ⟨⟨mid, bad⟩, first, ran⟩ := bind_ok.mp ran
      rw [List.foldlM_cons] at ran
      obtain ⟨last, second, ran⟩ := bind_ok.mp ran
      cases ran
      obtain ⟨rfl, quiet, -⟩ := mergeSource_parsed second clean
      obtain ⟨base, holds, tracks⟩ := mergeSource_clean first quiet start
      obtain ⟨extra, holds', tracks'⟩ := mergeSource_clean second clean tracks
      refine ⟨base, extra, holds, holds', ?_⟩
      rw [tracks'.entries, kept holds.2]
  | absent =>
      rw [overlay] at ran
      dsimp only at ran
      rw [List.foldlM_cons] at ran
      obtain ⟨last, first, ran⟩ := bind_ok.mp ran
      cases ran
      obtain ⟨base, holds, tracks⟩ := mergeSource_clean first clean start
      refine ⟨base, [], holds, rfl, ?_⟩
      rw [tracks.entries, kept holds.2]
      rfl
  | bundled =>
      rw [overlay] at ran
      dsimp only at ran
      rw [List.foldlM_cons] at ran
      obtain ⟨last, first, ran⟩ := bind_ok.mp ran
      cases ran
      obtain ⟨base, holds, tracks⟩ := mergeSource_clean first clean start
      refine ⟨base, [], holds, rfl, ?_⟩
      rw [tracks.entries, kept holds.2]
      rfl

/-! `resolve_registry` over the same files. -/

theorem Orderly.keyable {entries : List Value} (orderly : Orderly entries) :
    ∀ e ∈ entries, ById.Keyable "failure_id" e := by
  intro e inside
  obtain ⟨key, named⟩ := orderly.named e inside
  exact named.keyable

/-- The entry without the tag of the file it is from. -/
def untag (entry : Value) : Value :=
  match entry with
  | .dict kvs => .dict (Dict.erase kvs "_source")
  | other => other

theorem tag_named {entry : Value} {key : Key} (named : Named entry key) (source : Str) :
    ∃ tagged, tag source entry = .ok tagged ∧ untag tagged = untag entry ∧ Named tagged key := by
  obtain ⟨eid, held, truthy, key'⟩ := named
  obtain ⟨kvs, rfl, looked⟩ := Value.get_ok.mp held
  refine ⟨_, rfl, ?_, eid, ?_, truthy, key'⟩
  · unfold untag
    dsimp only
    rw [Dict.erase_set_self]
  · rw [Value.get_dict, Dict.get?_set_of_ne _ _ _ _ (by decide), looked]

theorem tags_named {entries : List Value} (named : ∀ e ∈ entries, ∃ key, Named e key) (source : Str) :
    ∃ tagged, entries.mapM (tag source) = .ok tagged ∧ tagged.map untag = entries.map untag ∧
      ∀ e ∈ tagged, ∃ key, Named e key := by
  induction entries with
  | nil => exact ⟨[], rfl, rfl, nofun⟩
  | cons entry rest ih =>
      obtain ⟨key, here⟩ := named entry List.mem_cons_self
      obtain ⟨tagged, ran, same, named'⟩ := tag_named here source
      obtain ⟨later, ran', same', each⟩ := ih (fun e inside => named e (List.mem_cons_of_mem _ inside))
      refine ⟨tagged :: later, ?_, ?_, ?_⟩
      · rw [List.mapM_cons, ran, ok_bind, ran', ok_bind]
        rfl
      · rw [List.map_cons, List.map_cons, same, same']
      · intro e inside
        rcases List.mem_cons.mp inside with rfl | back
        · exact ⟨key, named'⟩
        · exact each e back

theorem owners_named {entries : List Value} (named : ∀ e ∈ entries, ∃ key, Named e key) :
    ∃ owners, entries.foldlM addOwner [] = .ok owners := by
  apply Fold.foldlM_ends
  intro entry inside owners
  obtain ⟨key, eid, held, truthy, key'⟩ := named entry inside
  unfold addOwner
  rw [held, ok_bind]
  dsimp only
  rw [Option.getD_some, if_pos truthy, key', ok_bind]
  exact ⟨_, rfl⟩

theorem ids_named {entries : List Value} (named : ∀ e ∈ entries, ∃ key, Named e key) :
    ∃ ids, entries.mapM (fun e => do ((← e.get "failure_id").getD .null).key) = .ok ids := by
  apply Fold.mapM_ends.mpr
  intro entry inside
  obtain ⟨key, eid, held, -, key'⟩ := named entry inside
  rw [held, ok_bind, Option.getD_some, key']
  exact ⟨key, rfl⟩

theorem resolveRegistry_named {r : Registries} {entries : List Value}
    (merged : mergedEntries r = .ok entries) (named : ∀ e ∈ entries, ∃ key, Named e key) :
    (∃ owners, resolveRegistry r none = .ok (entries, owners)) ∧
      ∀ kept, ∃ owners, resolveRegistry r (some kept) = .ok (entries.filter (hasStatus kept), owners) := by
  obtain ⟨owners, counted⟩ := owners_named named
  constructor
  · refine ⟨owners, ?_⟩
    unfold resolveRegistry
    rw [merged, ok_bind, counted, ok_bind]
    rfl
  · intro kept
    obtain ⟨ids, hashes⟩ := ids_named (fun e (inside : e ∈ entries.filter (hasStatus kept)) =>
      named e (List.mem_filter.mp inside).1)
    unfold resolveRegistry
    rw [merged, ok_bind, counted, ok_bind]
    dsimp only
    by_cases none : owners = []
    · exact ⟨[], by rw [if_pos none]; rfl⟩
    · refine ⟨owners.filter (fun kv => ids.contains kv.1), ?_⟩
      rw [if_neg none, hashes, ok_bind]
      rfl

/-! A clean registry. -/

theorem check_clean {r : Registries} {findings : List Text} (clean : check r = .ok (0, findings)) :
    ∃ bundled m, r.bundled = some bundled ∧ mergeSources r bundled = .ok (m, false) ∧
      m.errors = [] := by
  unfold check at clean
  cases bundled : r.bundled with
  | none =>
      rw [bundled] at clean
      cases clean
  | some bytes =>
      rw [bundled] at clean
      obtain ⟨⟨m, bad⟩, merged, clean⟩ := bind_ok.mp clean
      cases bad with
      | true => cases clean
      | false =>
          obtain ⟨fields, -, clean⟩ := bind_ok.mp clean
          obtain ⟨statuses, -, clean⟩ := bind_ok.mp clean
          obtain ⟨commits, -, clean⟩ := bind_ok.mp clean
          obtain ⟨warnings, -, clean⟩ := bind_ok.mp clean
          have code := (Prod.mk.inj (Except.ok.inj clean)).1
          dsimp only at code
          split at code
          · rename_i quiet
            refine ⟨bytes, m, rfl, merged, ?_⟩
            simp only [List.append_eq_nil_iff] at quiet
            exact quiet.1.1.1
          · cases code

/-- The list that is enforced is the list that was checked. -/
theorem resolve_clean {r : Registries} {findings : List Text} (clean : check r = .ok (0, findings)) :
    ∃ bundled m entries, r.bundled = some bundled ∧ mergeSources r bundled = .ok (m, false) ∧
      mergedEntries r = .ok entries ∧ (∀ e ∈ entries, ∃ key, Named e key) ∧
      entries.map untag = (m.merged.map Checked.entry).map untag := by
  obtain ⟨bundled, m, held, merged, quiet⟩ := check_clean clean
  obtain ⟨base, extra, ⟨read, orderly⟩, own, same⟩ := mergeSources_clean merged quiet
  refine ⟨bundled, m, ?_⟩
  have first : readFile r.bundled = .ok base := by
    rw [held]
    exact read
  unfold mergedEntries
  rw [first, ok_bind, same]
  unfold Extra at own
  cases overlay : r.overlay with
  | absent =>
      rw [overlay] at own
      dsimp only at own ⊢
      subst own
      obtain ⟨tagged, ran, same', named⟩ := tags_named orderly.named "devgate"
      exact ⟨tagged, held, merged, ran, named, same'⟩
  | bundled =>
      rw [overlay] at own
      dsimp only at own ⊢
      subst own
      rw [ok_bind, ById.mergeById_keyable orderly.keyable orderly.keyable]
      refine ⟨_, held, merged, rfl, ?_, ?_⟩
      · intro e inside
        rcases mem_foldl_place entryKey inside with old | new
        · exact orderly.named e old
        · exact orderly.named e new
      · rw [foldl_place_self entryKey]
        · rfl
        · intro e inside
          obtain ⟨key, named⟩ := orderly.named e inside
          rw [named.entryKey]
          exact nofun
  | own bytes =>
      rw [overlay] at own
      dsimp only at own ⊢
      rw [show readFile (some bytes) = .ok extra from own.1, ok_bind, ById.mergeById_keyable orderly.keyable own.2.keyable]
      refine ⟨_, held, merged, rfl, ?_, rfl⟩
      intro e inside
      rcases mem_foldl_place entryKey inside with old | new
      · exact orderly.named e old
      · exact own.2.named e new

end DevGate.Gate.Hygiene
