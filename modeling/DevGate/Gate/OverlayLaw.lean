import DevGate.Gate.IdMerge
import DevGate.Gate.MergedRules

set_option autoImplicit false

/- What an overlay does to the bundled entries. -/
namespace DevGate.Gate.ById

open Py Keyed

/-- `out` is the overlay merged over the bundled entries, by the ids of `idKey`. -/
structure Merged (idKey : Str) (bundled overlay out : List Value) : Prop where
  /-- The overlay's last entry of an id has the last word. -/
  wins : ∀ k ∈ keys (id? idKey) overlay, last (id? idKey) k out = last (id? idKey) k overlay
  /-- An id the bundled entries do not repeat has that entry alone. -/
  once : ∀ k ∈ keys (id? idKey) overlay, (keys (id? idKey) bundled).count k ≤ 1 →
    out.filter (fun e => id? idKey e = some k) = (last (id? idKey) k overlay).toList
  /-- The other entries stay as they are, and those of the overlay without an id join them. -/
  others : outside (id? idKey) (keys (id? idKey) overlay) out =
    outside (id? idKey) (keys (id? idKey) overlay) bundled ++ nameless (id? idKey) overlay
  /-- An override keeps the bundled place. -/
  places : (out.take bundled.length).map (id? idKey) = bundled.map (id? idKey)
  /-- The new ids follow, in the order in which the overlay brings them. -/
  fresh : keys (id? idKey) (out.drop bundled.length) =
    (keys (id? idKey) (outside (id? idKey) (keys (id? idKey) bundled) overlay)).eraseDups
  /-- Merging the overlay again adds what has no id, and nothing else. -/
  again : mergeById out overlay idKey = .ok (out ++ nameless (id? idKey) overlay)

section

variable {ε κ : Type} [DecidableEq κ] (key : ε → Option κ)

theorem count_keys_foldl_place {entries out : List ε} {k : κ} (inside : k ∈ keys key entries)
    (once : (keys key out).count k ≤ 1) :
    (keys key (entries.foldl (place key) out)).count k = 1 := by
  rw [foldl_place, keys_append, keys_override key (keeps_last key entries), List.count_append]
  have distinct : (keys key ((outside key (keys key out) entries).foldl (place key) [])).Nodup :=
    nodup_keys_foldl_place key List.nodup_nil
  by_cases old : k ∈ keys key out
  · have absent : k ∉ keys key ((outside key (keys key out) entries).foldl (place key) []) := by
      intro member
      rcases (mem_keys_foldl_place key _ _).mp member with none | new
      · cases none
      · exact ((mem_keys_outside key).mp new).2 old
    have some_ := List.one_le_count_iff.mpr old
    rw [List.count_eq_zero.mpr absent]
    omega
  · have new : k ∈ keys key ((outside key (keys key out) entries).foldl (place key) []) :=
      (mem_keys_foldl_place key _ _).mpr (Or.inr ((mem_keys_outside key).mpr ⟨inside, old⟩))
    rw [List.count_eq_zero.mpr old, List.count_eq_one_of_mem distinct new]

theorem map_override {fresh : κ → Option ε} (keeps : Keeps key fresh) (entries : List ε) :
    (override key fresh entries).map key = entries.map key := by
  induction entries with
  | nil => rfl
  | cons e rest ih => rw [override, List.map_cons, List.map_cons, override_key key keeps, ih]

end

theorem mergeById_merged {idKey : Str} {bundled overlay out : List Value}
    (merged : mergeById bundled overlay idKey = .ok out) : Merged idKey bundled overlay out := by
  obtain ⟨⟨left, right⟩, rfl⟩ := mergeById_ok.mp merged
  have parts := foldl_place (id? idKey) overlay bundled
  have length : (override (id? idKey) (fun k => last (id? idKey) k overlay) bundled).length =
      bundled.length := length_override _ _
  constructor
  case wins =>
    intro k inside
    obtain ⟨e, found⟩ := Option.isSome_iff_exists.mp ((last_isSome (id? idKey)).mpr inside)
    rw [last_foldl_place, found, Option.some_or]
  case once =>
    intro k inside unrepeated
    rw [filter_of_count _ (count_keys_foldl_place _ inside unrepeated), last_foldl_place]
    obtain ⟨e, found⟩ := Option.isSome_iff_exists.mp ((last_isSome (id? idKey)).mpr inside)
    rw [found, Option.some_or]
  case others => exact outside_foldl_place _ (fun _ member => member) bundled
  case places =>
    rw [parts, List.take_left' length]
    exact map_override _ (keeps_last _ overlay) bundled
  case fresh =>
    rw [parts, List.drop_left' length]
    exact keys_foldl_place _ _
  case again =>
    have keyable : ∀ e ∈ overlay.foldl (place (id? idKey)) bundled, Keyable idKey e := by
      intro e member
      rcases mem_foldl_place (id? idKey) member with old | new
      · exact left e old
      · exact right e new
    rw [mergeById_keyable keyable right, foldl_place_again]

/-! The rules that `resolve_rules` merges. -/

/-- An entry as decoded whose id, where it has one, is a string. -/
def Textual (idKey : Str) (entry : Entry) : Prop :=
  ∀ v, Dict.get? entry idKey = some v → v = .null ∨ ∃ s, v = .str s

section

variable {idKey : Str}

theorem entryId_textual {entry : Entry} (textual : Textual idKey entry) :
    entryId idKey (.dict entry) = .ok ((entry.id? idKey).map Key.str) := by
  unfold entryId Entry.id?
  rw [Value.get_dict, ok_bind]
  cases held : Dict.get? entry idKey with
  | none => rfl
  | some v => rcases textual v held with rfl | ⟨s, rfl⟩ <;> rfl

theorem id?_textual {entry : Entry} (textual : Textual idKey entry) :
    id? idKey (.dict entry) = (entry.id? idKey).map Key.str := by
  unfold id?
  rw [entryId_textual textual]
  rfl

/-- On entries with textual ids the two models of the merge agree. -/
theorem mergeById_textual {bundled overlay : List Entry}
    (textual : ∀ e ∈ bundled ++ overlay, Textual idKey e) :
    mergeById (bundled.map .dict) (overlay.map .dict) idKey =
      .ok ((Overlay.mergeById bundled overlay idKey).map .dict) := by
  have keyable : ∀ entries : List Entry, (∀ e ∈ entries, Textual idKey e) →
      ∀ v ∈ entries.map Value.dict, Keyable idKey v := by
    intro entries each v member
    obtain ⟨e, inside, rfl⟩ := List.mem_map.mp member
    exact ⟨_, entryId_textual (each e inside)⟩
  have injective : Function.Injective Key.str := fun _ _ same => Key.str.inj same
  have carries : Carries (Entry.id? idKey) (id? idKey) Value.dict Key.str (bundled ++ overlay) :=
    fun e member => id?_textual (textual e member)
  rw [mergeById_keyable (keyable bundled fun e inside => textual e (List.mem_append_left _ inside))
    (keyable overlay fun e inside => textual e (List.mem_append_right _ inside)),
    carries.foldl_place injective, mergeById_eq]

end

theorem collectRuleFiles_textual (dir : RulesDir) (source : Str) :
    ∀ e ∈ Overlay.collectRuleFiles dir source, Textual "rule_id" e := by
  have read : ∀ (file : RulesFile) (kind : Str), ∀ e ∈ Overlay.readJsonRules file kind,
      Textual "rule_id" e := by
    intro file kind e member v held
    unfold Overlay.readJsonRules at member
    split at member
    · cases member
    · cases member
    · cases member
    · rename_i rules
      obtain ⟨r, -, rfl⟩ := List.mem_map.mp member
      rw [Dict.get?_set_of_ne _ _ _ _ (by decide)] at held
      exact r.named v held
  intro e member v held
  obtain ⟨r, inside, rfl⟩ := List.mem_map.mp member
  rw [Dict.get?_set_of_ne _ _ _ _ (by decide)] at held
  rcases List.mem_append.mp inside with first | second
  · exact read _ _ r first v held
  · exact read _ _ r second v held

/-- The rules a project resolves obey the law. -/
theorem resolveRules_merged (base dir : RulesDir) :
    Merged "rule_id" ((Overlay.collectRuleFiles base "devgate").map .dict)
      ((Overlay.collectRuleFiles dir "project").map .dict)
      ((Overlay.resolveRules base (some dir)).map .dict) := by
  apply mergeById_merged
  apply mergeById_textual
  intro e member
  rcases List.mem_append.mp member with old | new
  · exact collectRuleFiles_textual base "devgate" e old
  · exact collectRuleFiles_textual dir "project" e new

/-- The overlay merge law, of every merge that returns and of the rules a project resolves. -/
theorem overlay_merge_law :
    (∀ (idKey : Str) (bundled overlay out : List Value),
      mergeById bundled overlay idKey = .ok out → Merged idKey bundled overlay out) ∧
    ∀ base dir : RulesDir, Merged "rule_id" ((Overlay.collectRuleFiles base "devgate").map .dict)
      ((Overlay.collectRuleFiles dir "project").map .dict)
      ((Overlay.resolveRules base (some dir)).map .dict) :=
  ⟨fun _ _ _ _ merged => mergeById_merged merged, resolveRules_merged⟩

/-- An entry of this id, where it has one. -/
def rule (idOf : Option Str) (severity : Str) : Value :=
  match idOf with
  | some s => .dict [("rule_id", .str s), ("severity", .str severity)]
  | none => .dict [("severity", .str severity)]

theorem overlay_merge_law_retuned :
    Merged "rule_id" [rule (some "A") "error", rule (some "B") "error"] [rule (some "A") "warning"]
      [rule (some "A") "warning", rule (some "B") "error"] :=
  overlay_merge_law.1 "rule_id" _ _ _ (by rfl)

/-- The first bundled entry of a repeated id outlives its override, and an overlay entry
without an id is added by every merge. -/
theorem merge_not_exact :
    mergeById [rule (some "A") "error", rule (some "A") "fatal"] [rule (some "A") "warning"] "rule_id" =
        .ok [rule (some "A") "error", rule (some "A") "warning"] ∧
      mergeById [] [rule none "warning"] "rule_id" = .ok [rule none "warning"] ∧
      mergeById [rule none "warning"] [rule none "warning"] "rule_id" =
        .ok [rule none "warning", rule none "warning"] :=
  ⟨rfl, rfl, rfl⟩

end DevGate.Gate.ById
