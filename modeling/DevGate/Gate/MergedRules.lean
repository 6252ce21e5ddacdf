import DevGate.Lib.KeyedMerge

set_option autoImplicit false

/- The rule files of the two pattern gates: a project's overlay merged over the
bundled rules, once in `gate_overlay.py` and once in `guardrails-scan.mjs`. -/
namespace DevGate.Gate

open Py

/-- A rule as decoded. -/
abbrev Entry := Dict Str Value

/-- `entry.get(id_key)`, nothing where the id is missing or null. -/
def Entry.id? (idKey : Str) (entry : Entry) : Option Str := (Dict.get? entry idKey).bind Value.str?

/-- A rule of a rules file: its id, where it has one, is a string. -/
structure Rule where
  entry : Entry
  named : ∀ v, Dict.get? entry "rule_id" = some v → v = .null ∨ ∃ s, v = .str s

/-- A rules file: absent, unreadable or invalid, or an object whose `rules` is
a list or is not. -/
inductive RulesFile where
  | absent
  | invalid
  | object (rules : Option (List Rule))

/-- One `prevention-rules/` directory. -/
structure RulesDir where
  pattern : RulesFile
  semantic : RulesFile

namespace Overlay

/-- `_read_json_rules`. -/
def readJsonRules (file : RulesFile) (kind : Str) : List Entry :=
  match file with
  | .absent => []
  | .invalid => []
  | .object none => []
  | .object (some rules) => rules.map (fun r => Dict.set r.entry "_kind" (.str kind))

/-- `_collect_rule_files`, over `RULE_FILES`. -/
def collectRuleFiles (dir : RulesDir) (source : Str) : List Entry :=
  (readJsonRules dir.pattern "pattern" ++ readJsonRules dir.semantic "semantic").map
    (fun r => Dict.set r "_source" (.str source))

/-- One bundled entry: kept, and indexed by its id. -/
def indexEntry (idKey : Str) (state : List Entry × Dict Str Nat) (entry : Entry) :
    List Entry × Dict Str Nat :=
  match entry.id? idKey with
  | none => (state.1 ++ [entry], state.2)
  | some eid => (state.1 ++ [entry], Dict.set state.2 eid state.1.length)

/-- One overlay entry: in the place its id is indexed at, or at the end. -/
def mergeEntry (idKey : Str) (state : List Entry × Dict Str Nat) (entry : Entry) :
    List Entry × Dict Str Nat :=
  match entry.id? idKey with
  | none => (state.1 ++ [entry], state.2)
  | some eid =>
      match Dict.get? state.2 eid with
      | some i => (state.1.set i entry, state.2)
      | none => (state.1 ++ [entry], Dict.set state.2 eid state.1.length)

/-- `merge_by_id`. -/
def mergeById (bundled overlay : List Entry) (idKey : Str) : List Entry :=
  (overlay.foldl (mergeEntry idKey) (bundled.foldl (indexEntry idKey) ([], []))).1

/-- `resolve_rules` without an explicit path; `over` is nothing where the
project has no `prevention-rules/` directory. -/
def resolveRules (base : RulesDir) (over' : Option RulesDir) : List Entry :=
  match over' with
  | none => collectRuleFiles base "devgate"
  | some dir =>
      mergeById (collectRuleFiles base "devgate") (collectRuleFiles dir "project") "rule_id"

/-- The entries that come from a `pattern-rules.json`. -/
def isPattern (entry : Entry) : Bool := Dict.get? entry "_kind" == some (.str "pattern")

/-- A rule without the resolver's tags. -/
def untag (entry : Entry) : Entry := Dict.erase (Dict.erase entry "_kind") "_source"

end Overlay

namespace Scan

/-- `readRulesFile`. -/
def readRulesFile (file : RulesFile) : List Entry :=
  match file with
  | .absent => []
  | .invalid => []
  | .object none => []
  | .object (some rules) => rules.map Rule.entry

/-- `rules.forEach(...)`: the position of every bundled id. -/
def indexRules (rules : List Entry) : Dict Str Nat :=
  rules.zipIdx.foldl
    (fun index r => match r.1.id? "rule_id" with
      | some ruleId => Dict.set index ruleId r.2
      | none => index) []

def mergeRule (index : Dict Str Nat) (rules : List Entry) (r : Entry) : List Entry :=
  match r.id? "rule_id" with
  | none => rules ++ [r]
  | some ruleId =>
      match Dict.get? index ruleId with
      | some i => rules.set i r
      | none => rules ++ [r]

/-- `loadRules` up to its filter, with `GUARDRAILS_RULES` unset. -/
def loadRules (bundledRules overlayRules : RulesFile) : List Entry :=
  let rules := readRulesFile bundledRules
  let overlay := readRulesFile overlayRules
  if overlay.length = 0 then rules else overlay.foldl (mergeRule (indexRules rules)) rules

end Scan

section

open Keyed

variable {idKey : Str}

/-- The index holds where the last entry of each id stands. -/
def Indexes (idKey : Str) (out : List Entry) (index : Dict Str Nat) : Prop :=
  ∀ k, Dict.get? index k = lastIndex (Entry.id? idKey) k out

theorem Indexes.append {out : List Entry} {index : Dict Str Nat} (indexed : Indexes idKey out index)
    (entry : Entry) :
    Indexes idKey (out ++ [entry]) (match entry.id? idKey with
      | none => index
      | some eid => Dict.set index eid out.length) := by
  intro k
  rw [lastIndex_concat]
  cases named : entry.id? idKey with
  | none => exact indexed k
  | some eid =>
      rw [Dict.get?_set, indexed k]
      simp only [Option.some.injEq]

theorem indexEntry_eq (state : List Entry × Dict Str Nat) (entry : Entry) :
    Overlay.indexEntry idKey state entry =
      (state.1 ++ [entry], match entry.id? idKey with
        | none => state.2
        | some eid => Dict.set state.2 eid state.1.length) := by
  unfold Overlay.indexEntry
  cases entry.id? idKey <;> rfl

theorem foldl_indexEntry (bundled : List Entry) :
    (bundled.foldl (Overlay.indexEntry idKey) ([], [])).1 = bundled ∧
      Indexes idKey bundled (bundled.foldl (Overlay.indexEntry idKey) ([], [])).2 := by
  induction bundled using List.reverseRecOn with
  | nil => exact ⟨rfl, fun _ => rfl⟩
  | append_singleton front entry ih =>
      have grown := ih.2.append entry
      rw [List.foldl_append, List.foldl_cons, List.foldl_nil, indexEntry_eq, ih.1]
      exact ⟨rfl, grown⟩

/-- One overlay entry is placed, and the index stays exact. -/
theorem mergeEntry_place {out : List Entry} {index : Dict Str Nat} (indexed : Indexes idKey out index)
    (entry : Entry) :
    (Overlay.mergeEntry idKey (out, index) entry).1 = place (Entry.id? idKey) out entry ∧
      Indexes idKey (place (Entry.id? idKey) out entry)
        (Overlay.mergeEntry idKey (out, index) entry).2 := by
  have grown := indexed.append entry
  unfold Overlay.mergeEntry
  cases named : entry.id? idKey with
  | none =>
      rw [named] at grown
      have added : place (Entry.id? idKey) out entry = out ++ [entry] :=
        place_of_absent _ (fun k same => by
          rw [named] at same
          cases same)
      rw [added]
      exact ⟨rfl, grown⟩
  | some eid =>
      rw [named] at grown
      dsimp only
      have looked := indexed eid
      cases found : lastIndex (Entry.id? idKey) eid out with
      | none =>
          rw [found] at looked
          have added : place (Entry.id? idKey) out entry = out ++ [entry] :=
            place_of_absent _ (fun k same => by
              rw [named, Option.some.injEq] at same
              rw [← same]
              exact found)
          rw [looked, added]
          exact ⟨rfl, grown⟩
      | some i =>
          rw [found] at looked
          rw [looked, place_of_found (Entry.id? idKey) entry named found]
          refine ⟨rfl, fun k => ?_⟩
          rw [lastIndex_place_of_found (Entry.id? idKey) named found]
          exact indexed k

/-- `merge_by_id` places the overlay's entries one after the other. -/
theorem mergeById_eq (bundled overlay : List Entry) :
    Overlay.mergeById bundled overlay idKey = overlay.foldl (place (Entry.id? idKey)) bundled := by
  have start := @foldl_indexEntry idKey bundled
  unfold Overlay.mergeById
  generalize bundled.foldl (Overlay.indexEntry idKey) ([], []) = state at start
  obtain ⟨out, index⟩ := state
  obtain ⟨rfl, indexed⟩ := start
  dsimp only at indexed ⊢
  induction overlay generalizing out index with
  | nil => rfl
  | cons entry rest ih =>
      have placed := mergeEntry_place indexed entry
      rw [List.foldl_cons, List.foldl_cons, ← ih _ _ placed.2, ← placed.1]

theorem indexRules_indexes (rules : List Entry) :
    Indexes "rule_id" rules (Scan.indexRules rules) := by
  unfold Scan.indexRules
  induction rules using List.reverseRecOn with
  | nil => exact fun _ => rfl
  | append_singleton front r ih =>
      have grown := ih.append r
      rw [List.zipIdx_append, List.foldl_append]
      simp only [List.zipIdx_cons, List.zipIdx_nil, List.foldl_cons, List.foldl_nil, Nat.zero_add]
      cases named : r.id? "rule_id" with
      | none =>
          rw [named] at grown
          exact grown
      | some ruleId =>
          rw [named] at grown
          exact grown

/-- The scanner overrides the bundled rules in place and pushes the others. -/
theorem foldl_mergeRule (rules overlay : List Entry) :
    overlay.foldl (Scan.mergeRule (Scan.indexRules rules)) rules =
      override (Entry.id? "rule_id") (fun k => last (Entry.id? "rule_id") k overlay) rules ++
        outside (Entry.id? "rule_id") (keys (Entry.id? "rule_id") rules) overlay := by
  have indexed := indexRules_indexes rules
  generalize ident : Entry.id? "rule_id" = key
  induction overlay using List.reverseRecOn with
  | nil =>
      have none : (fun k => last key k ([] : List Entry)) = fun _ => .none := rfl
      rw [none, override_none]
      simp [outside]
  | append_singleton overlay r ih =>
      have keeps := keeps_last key overlay
      rw [List.foldl_append, ih, List.foldl_cons, List.foldl_nil, outside_append]
      have lasts : ∀ k, last key k (overlay ++ [r]) =
          if key r = some k then some r else last key k overlay := by
        intro k
        rw [last_append]
        by_cases named : key r = some k <;> simp [last, named]
      unfold Scan.mergeRule
      rw [ident]
      cases named : key r with
      | none =>
          have same : (fun k => last key k (overlay ++ [r])) = fun k => last key k overlay := by
            funext k
            simp [lasts, named]
          simp [outside, named, same]
      | some k =>
          dsimp only
          have looked : Dict.get? (Scan.indexRules rules) k = lastIndex key k rules := by
            rw [indexed k, ident]
          cases found : lastIndex key k rules with
          | none =>
              have fresh := (lastIndex_eq_none key).mp found
              have same : override key (fun k' => last key k' (overlay ++ [r])) rules =
                  override key (fun k' => last key k' overlay) rules := by
                apply override_congr
                intro k' member
                have other : k ≠ k' := fun equal => fresh (equal ▸ member)
                simp [lasts, named, other]
              simp [looked, found, same, outside, named, fresh]
          | some i =>
              have known : k ∈ keys key rules := by
                by_contra absent
                rw [(lastIndex_eq_none key).mpr absent] at found
                cases found
              have same : (fun k' => last key k' (overlay ++ [r])) =
                  fun k' => if k' = k then some r else last key k' overlay := by
                funext k'
                simp [lasts, named, eq_comm]
              have stands : lastIndex key k (override key (fun k' => last key k' overlay) rules) =
                  some i := by
                rw [lastIndex_override key keeps, found]
              have dropped : outside key (keys key rules) [r] = [] := by
                simp [outside, named, known]
              rw [looked, found, dropped, List.append_nil, same, ← replaceLast_override key keeps,
                ← set_lastIndex key r stands]
              exact List.set_append_left i r (lastIndex_lt key stands)

theorem loadRules_eq (bundledRules overlayRules : RulesFile) :
    Scan.loadRules bundledRules overlayRules =
      override (Entry.id? "rule_id")
          (fun k => last (Entry.id? "rule_id") k (Scan.readRulesFile overlayRules))
          (Scan.readRulesFile bundledRules) ++
        outside (Entry.id? "rule_id") (keys (Entry.id? "rule_id") (Scan.readRulesFile bundledRules))
          (Scan.readRulesFile overlayRules) := by
  unfold Scan.loadRules
  rw [← foldl_mergeRule]
  dsimp only
  split
  · rename_i empty
    rw [List.length_eq_zero_iff.mp empty, List.foldl_nil]
  · rfl

end

end DevGate.Gate
