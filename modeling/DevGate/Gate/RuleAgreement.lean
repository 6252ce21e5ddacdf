import DevGate.Gate.MergedRules

set_option autoImplicit false

/- When the two gates enforce the same pattern rules: which ids the overlay and
the semantic files may share with them. -/
namespace Py.Dict

variable {κ α : Type} [DecidableEq κ]

theorem erase_cons (k : κ) (v : α) (rest : Dict κ α) (key : κ) :
    erase ((k, v) :: rest) key = if k = key then erase rest key else (k, v) :: erase rest key := by
  unfold erase
  by_cases same : k = key <;> simp [same]

theorem erase_set_self (d : Dict κ α) (key : κ) (value : α) :
    erase (set d key value) key = erase d key := by
  induction d with
  | nil => simp [set, erase]
  | cons kv rest ih =>
      obtain ⟨k, v⟩ := kv
      by_cases same : k = key
      · simp only [set, same, ↓reduceIte, erase_cons]
      · simp only [set, same, ↓reduceIte, erase_cons, ih]

theorem erase_set_of_ne (d : Dict κ α) {key other : κ} (apart : other ≠ key) (value : α) :
    erase (set d key value) other = set (erase d other) key value := by
  induction d with
  | nil => simp [set, erase, Ne.symm apart]
  | cons kv rest ih =>
      obtain ⟨k, v⟩ := kv
      by_cases same : k = key
      · subst same
        simp only [set, ↓reduceIte, erase_cons, Ne.symm apart]
      · by_cases dropped : k = other
        · subst dropped
          simp only [set, same, ↓reduceIte, erase_cons, ih]
        · simp only [set, same, dropped, ↓reduceIte, erase_cons, ih]

end Py.Dict

namespace DevGate.Gate

open Py Keyed

section

variable {ε κ β : Type} [DecidableEq κ]

/-- What keeps a merge of two kinds of entries in one id space, seen from the
first kind, equal to the merge of that kind alone. -/
structure Aligned (key : ε → Option κ) (view : ε → β) (pattern semantic over₁ over₂ : List ε) :
    Prop where
  /-- A new id occurs once in the overlay, and in one of its files only. -/
  once : ∀ k ∈ keys key over₁, k ∉ keys key pattern →
    (keys key over₁).count k = 1 ∧ k ∉ keys key over₂
  /-- An overridden id is a semantic id on both sides or on neither. -/
  sided : ∀ k ∈ keys key pattern, k ∈ keys key over₁ ∨ k ∈ keys key over₂ →
    (k ∈ keys key semantic ↔ k ∈ keys key over₂)
  /-- Where it is one on both, the pattern overlay restates the bundled rule. -/
  restated : ∀ k ∈ keys key pattern, k ∈ keys key semantic → k ∈ keys key over₁ →
    (last key k over₁).map view = (last key k pattern).map view
  /-- New rules that take over a semantic id come first, in the order of the slots. -/
  ordered : (outside key (keys key pattern) over₁).map view =
    ((slots key semantic).filterMap
        (fun k => if k ∈ keys key pattern then none else last key k over₁)).map view ++
      (outside key (keys key (pattern ++ semantic)) over₁).map view

variable {key : ε → Option κ} {view : ε → β} {keyOf : β → Option κ}

omit [DecidableEq κ] in
theorem keys_of_view (viewed : ∀ e, keyOf (view e) = key e) {xs ys : List ε}
    (same : xs.map view = ys.map view) : keys key xs = keys key ys := by
  have through : ∀ zs : List ε, keys key zs = (zs.map view).filterMap keyOf := by
    intro zs
    rw [List.filterMap_map]
    exact List.filterMap_congr (fun e _ => (viewed e).symm)
  rw [through, through, same]

/-- Two overrides of one list look alike when each key's last entry does. -/
theorem override_view {f g : κ → Option ε} (entries : List ε) :
    (override key f entries).map view = (override key g entries).map view ↔
      ∀ k e, last key k entries = some e → view ((f k).getD e) = view ((g k).getD e) := by
  induction entries with
  | nil => simp [override, last]
  | cons e rest ih =>
      rw [override, override, List.map_cons, List.map_cons, List.cons.injEq, ih]
      cases named : key e with
      | none => simp [last, named]
      | some k =>
          by_cases inside : k ∈ keys key rest
          · simp only [inside, ↓reduceIte, true_and]
            apply forall_congr'
            intro k'
            apply forall_congr'
            intro e'
            rw [last, named]
            by_cases same : k = k'
            · subst same
              obtain ⟨e'', found⟩ := Option.isSome_iff_exists.mp ((last_isSome key).mpr inside)
              rw [found, Option.some_or]
            · simp [same]
          · have absent := (last_eq_none key).mpr inside
            simp only [inside, ↓reduceIte]
            constructor
            · rintro ⟨here, later⟩ k' e' found
              rw [last, named] at found
              by_cases same : k = k'
              · subst same
                simp only [absent, ↓reduceIte, Option.none_or, Option.some.injEq] at found
                subst found
                exact here
              · have other : ¬ some k = some k' := fun equal => same (Option.some.inj equal)
                rw [if_neg other, Option.or_none] at found
                exact later k' e' found
            · intro all
              refine ⟨all k e (by simp [last, absent, named]), ?_⟩
              intro k' e' found
              exact all k' e' (by rw [last, found, Option.some_or])

variable {shown : ε → Bool} {pattern semantic over₁ over₂ : List ε}

/-- Members of the pattern files are shown, those of the semantic files hidden. -/
structure Sorted (shown : ε → Bool) (pattern semantic over₁ over₂ : List ε) : Prop where
  pattern : ∀ e ∈ pattern, shown e = true
  semantic : ∀ e ∈ semantic, shown e = false
  over₁ : ∀ e ∈ over₁, shown e = true
  over₂ : ∀ e ∈ over₂, shown e = false

theorem last_shown (sorted : Sorted shown pattern semantic over₁ over₂) {k : κ} {e : ε}
    (found : last key k (over₁ ++ over₂) = some e) :
    (if shown e then 1 else 0 : Nat) = if k ∈ keys key over₂ then 0 else 1 := by
  rw [last_append] at found
  cases second : last key k over₂ with
  | some e' =>
      rw [second, Option.some_or, Option.some.injEq] at found
      subst found
      have member := last_mem key second
      have inside : k ∈ keys key over₂ := (mem_keys key).mpr ⟨e', member⟩
      simp [sorted.over₂ e' member.1, inside]
  | none =>
      rw [second, Option.none_or] at found
      have absent := (last_eq_none key).mp second
      simp [sorted.over₁ e (last_mem key found).1, absent]

theorem Sorted.flip (sorted : Sorted shown pattern semantic over₁ over₂) :
    Sorted shown over₁ over₂ pattern semantic :=
  ⟨sorted.over₁, sorted.over₂, sorted.pattern, sorted.semantic⟩

theorem Sorted.filter_bundled (sorted : Sorted shown pattern semantic over₁ over₂) :
    (pattern ++ semantic).filter shown = pattern := by
  rw [List.filter_append, List.filter_eq_self.mpr sorted.pattern,
    List.filter_eq_nil_iff.mpr (fun e member => by simp [sorted.semantic e member]), List.append_nil]

/-- How many shown entries of a key the overridden bundled lists have. -/
theorem count_bundled (sorted : Sorted shown pattern semantic over₁ over₂) (k : κ)
    (met : k ∈ keys key (pattern ++ semantic)) (given : k ∈ keys key (over₁ ++ over₂)) :
    (keys key ((override key (fun k' => last key k' (over₁ ++ over₂)) (pattern ++ semantic)).filter
        shown)).count k + (if k ∈ keys key semantic then 0 else 1) =
      (keys key pattern).count k + (if k ∈ keys key over₂ then 0 else 1) := by
  obtain ⟨old, stood⟩ := Option.isSome_iff_exists.mp ((last_isSome key).mpr met)
  obtain ⟨new, placed⟩ := Option.isSome_iff_exists.mp ((last_isSome key).mpr given)
  have counts := count_override_some key shown (keeps_last key (over₁ ++ over₂)) stood placed
  rw [last_shown sorted.flip stood, last_shown sorted placed, sorted.filter_bundled] at counts
  exact counts

theorem count_untouched (sorted : Sorted shown pattern semantic over₁ over₂) (k : κ)
    (apart : k ∈ keys key (pattern ++ semantic) → k ∉ keys key (over₁ ++ over₂)) :
    (keys key ((override key (fun k' => last key k' (over₁ ++ over₂)) (pattern ++ semantic)).filter
        shown)).count k = (keys key pattern).count k := by
  have missing : k ∈ keys key (pattern ++ semantic) → last key k (over₁ ++ over₂) = none :=
    fun met => (last_eq_none key).mpr (apart met)
  rw [count_override_none key shown (keeps_last key (over₁ ++ over₂)) missing, sorted.filter_bundled]

/-- The shown entries behind the bundled lists: new overlay entries, at most one a key. -/
theorem count_behind (sorted : Sorted shown pattern semantic over₁ over₂) (k : κ) :
    (keys key (((outside key (keys key (pattern ++ semantic)) (over₁ ++ over₂)).foldl (place key)
        []).filter shown)).count k =
      if k ∈ keys key over₁ ∧ k ∉ keys key over₂ ∧ k ∉ keys key (pattern ++ semantic) then 1 else 0 := by
  generalize known : keys key (pattern ++ semantic) = bundled
  rw [outside_append, List.foldl_append, foldl_place, List.filter_append, keys_append, List.count_append]
  have hidden : ∀ e ∈ outside key bundled over₂, shown e = false :=
    fun e member => sorted.over₂ e ((mem_outside key).mp member).1
  have tail : (List.foldl (place key) [] (outside key (keys key (List.foldl (place key) []
      (outside key bundled over₁))) (outside key bundled over₂))).filter shown = [] := by
    rw [List.filter_eq_nil_iff]
    intro e member
    rcases mem_foldl_place key member with none | inside
    · cases none
    · simp [hidden e ((mem_outside key).mp inside).1]
  have front : (List.foldl (place key) [] (outside key bundled over₁)).filter shown =
      List.foldl (place key) [] (outside key bundled over₁) := by
    rw [List.filter_eq_self]
    intro e member
    rcases mem_foldl_place key member with none | inside
    · cases none
    · exact sorted.over₁ e ((mem_outside key).mp inside).1
  have distinct : (keys key (List.foldl (place key) [] (outside key bundled over₁))).Nodup :=
    nodup_keys_foldl_place key List.nodup_nil
  have inFront : k ∈ keys key (List.foldl (place key) [] (outside key bundled over₁)) ↔
      k ∈ keys key over₁ ∧ k ∉ bundled := by
    rw [mem_keys_foldl_place, mem_keys_outside]
    simp [keys]
  have inBack : k ∈ keys key (outside key bundled over₂) ↔ k ∈ keys key over₂ ∧ k ∉ bundled :=
    mem_keys_outside key
  have keeps := keeps_last key (outside key bundled over₂)
  have empty : (keys key ([] : List ε)).count k = 0 := rfl
  rw [tail, empty, Nat.add_zero]
  cases later : last key k (outside key bundled over₂) with
  | none =>
      have absent := (last_eq_none key).mp later
      rw [inBack] at absent
      rw [count_override_none key shown keeps (fun _ => later), front]
      by_cases inside : k ∈ keys key over₁ ∧ k ∉ bundled
      · rw [List.count_eq_one_of_mem distinct (inFront.mpr inside)]
        have fresh : k ∉ keys key over₂ := fun member => absent ⟨member, inside.2⟩
        simp [inside, fresh]
      · rw [List.count_eq_zero_of_not_mem (fun member => inside (inFront.mp member))]
        have none : ¬ (k ∈ keys key over₁ ∧ k ∉ keys key over₂ ∧ k ∉ bundled) :=
          fun all => inside ⟨all.1, all.2.2⟩
        rw [if_neg none]
  | some e =>
      have found := last_mem key later
      have behind : k ∈ keys key over₂ ∧ k ∉ bundled := inBack.mp ((mem_keys key).mpr ⟨e, found⟩)
      have none : ¬ (k ∈ keys key over₁ ∧ k ∉ keys key over₂ ∧ k ∉ bundled) :=
        fun all => all.2.1 behind.1
      rw [if_neg none]
      by_cases inside : k ∈ keys key over₁
      · obtain ⟨old, stood⟩ := Option.isSome_iff_exists.mp
          ((last_isSome key).mpr (inFront.mpr ⟨inside, behind.2⟩))
        have counts := count_override_some key shown keeps stood later
        have seen : shown old = true := by
          have member := (last_mem key stood).1
          rw [← front, List.mem_filter] at member
          exact member.2
        rw [front, List.count_eq_one_of_mem distinct (inFront.mpr ⟨inside, behind.2⟩), seen,
          hidden e found.1] at counts
        simpa using counts
      · have missing : k ∈ keys key (List.foldl (place key) [] (outside key bundled over₁)) →
            last key k (outside key bundled over₂) = .none :=
          fun member => absurd (inFront.mp member).1 inside
        rw [count_override_none key shown keeps missing, front]
        exact List.count_eq_zero_of_not_mem (fun member => inside (inFront.mp member).1)

/-- The shown entries of the merge, and of the merge of the pattern lists alone. -/
def shownMerge (key : ε → Option κ) (shown : ε → Bool) (pattern semantic over₁ over₂ : List ε) :
    List ε :=
  ((over₁ ++ over₂).foldl (place key) (pattern ++ semantic)).filter shown

def patternMerge (key : ε → Option κ) (pattern over₁ : List ε) : List ε :=
  override key (fun k => last key k over₁) pattern ++ outside key (keys key pattern) over₁

theorem count_shownMerge (sorted : Sorted shown pattern semantic over₁ over₂) (k : κ) :
    (keys key (shownMerge key shown pattern semantic over₁ over₂)).count k =
      (keys key ((override key (fun k' => last key k' (over₁ ++ over₂)) (pattern ++ semantic)).filter
        shown)).count k +
      if k ∈ keys key over₁ ∧ k ∉ keys key over₂ ∧ k ∉ keys key (pattern ++ semantic) then 1 else 0 := by
  rw [shownMerge, foldl_place, List.filter_append, keys_append, List.count_append,
    count_behind sorted]

theorem count_patternMerge (k : κ) :
    (keys key (patternMerge key pattern over₁)).count k =
      if k ∈ keys key pattern then (keys key pattern).count k else (keys key over₁).count k := by
  rw [patternMerge, keys_append, keys_override key (keeps_last key over₁), List.count_append]
  by_cases known : k ∈ keys key pattern
  · have absent : k ∉ keys key (outside key (keys key pattern) over₁) :=
      fun member => ((mem_keys_outside key).mp member).2 known
    rw [if_pos known, List.count_eq_zero_of_not_mem absent, Nat.add_zero]
  · rw [if_neg known, List.count_eq_zero_of_not_mem known, Nat.zero_add]
    exact count_outside key known over₁

/-- Equal merges count every id equally often. -/
theorem once_of_count (sorted : Sorted shown pattern semantic over₁ over₂)
    (same : ∀ k, (keys key (shownMerge key shown pattern semantic over₁ over₂)).count k =
      (keys key (patternMerge key pattern over₁)).count k)
    {k : κ} (given : k ∈ keys key over₁) (fresh : k ∉ keys key pattern) :
    (keys key over₁).count k = 1 ∧ k ∉ keys key over₂ := by
  have counts := same k
  have some : 0 < (keys key over₁).count k := List.count_pos_iff.mpr given
  rw [count_shownMerge sorted, count_patternMerge, if_neg fresh] at counts
  by_cases slot : k ∈ keys key semantic
  · have met : k ∈ keys key (pattern ++ semantic) := by simp [keys_append, slot]
    have bundled := count_bundled sorted k met (by simp [keys_append, given])
    rw [if_pos slot, List.count_eq_zero_of_not_mem fresh] at bundled
    have none : ¬ (k ∈ keys key over₁ ∧ k ∉ keys key over₂ ∧ k ∉ keys key (pattern ++ semantic)) :=
      fun all => all.2.2 met
    rw [if_neg none] at counts
    by_cases taken : k ∈ keys key over₂
    · rw [if_pos taken] at bundled
      omega
    · rw [if_neg taken] at bundled
      exact ⟨by omega, taken⟩
  · have unmet : k ∉ keys key (pattern ++ semantic) := by simp [keys_append, slot, fresh]
    have bundled := count_untouched sorted k (fun met => absurd met unmet)
    rw [List.count_eq_zero_of_not_mem fresh] at bundled
    by_cases taken : k ∈ keys key over₂
    · have none : ¬ (k ∈ keys key over₁ ∧ k ∉ keys key over₂ ∧ k ∉ keys key (pattern ++ semantic)) :=
        fun all => all.2.1 taken
      rw [if_neg none] at counts
      omega
    · rw [if_pos ⟨given, taken, unmet⟩] at counts
      exact ⟨by omega, taken⟩

theorem sided_of_count (sorted : Sorted shown pattern semantic over₁ over₂)
    (same : ∀ k, (keys key (shownMerge key shown pattern semantic over₁ over₂)).count k =
      (keys key (patternMerge key pattern over₁)).count k)
    {k : κ} (known : k ∈ keys key pattern) (given : k ∈ keys key over₁ ∨ k ∈ keys key over₂) :
    k ∈ keys key semantic ↔ k ∈ keys key over₂ := by
  have counts := same k
  have met : k ∈ keys key (pattern ++ semantic) := by simp [keys_append, known]
  have none : ¬ (k ∈ keys key over₁ ∧ k ∉ keys key over₂ ∧ k ∉ keys key (pattern ++ semantic)) :=
    fun all => all.2.2 met
  rw [count_shownMerge sorted, count_patternMerge, if_pos known, if_neg none] at counts
  have bundled := count_bundled sorted k met (by simpa [keys_append] using given)
  by_cases slot : k ∈ keys key semantic <;> by_cases taken : k ∈ keys key over₂
  · exact ⟨fun _ => taken, fun _ => slot⟩
  · rw [if_pos slot, if_neg taken] at bundled
    omega
  · rw [if_neg slot, if_pos taken] at bundled
    omega
  · exact ⟨fun inside => absurd inside slot, fun inside => absurd inside taken⟩

section

variable (sorted : Sorted shown pattern semantic over₁ over₂)
  (once : ∀ k ∈ keys key over₁, k ∉ keys key pattern →
    (keys key over₁).count k = 1 ∧ k ∉ keys key over₂)
  (sided : ∀ k ∈ keys key pattern, k ∈ keys key over₁ ∨ k ∈ keys key over₂ →
    (k ∈ keys key semantic ↔ k ∈ keys key over₂))

include sorted sided

theorem shown_pattern :
    (override key (fun k => if k ∈ keys key semantic then none else last key k (over₁ ++ over₂))
        pattern).filter shown =
      override key (fun k => if k ∈ keys key semantic then none else last key k over₁) pattern := by
  have same : override key
        (fun k => if k ∈ keys key semantic then none else last key k (over₁ ++ over₂)) pattern =
      override key (fun k => if k ∈ keys key semantic then none else last key k over₁) pattern := by
    apply override_congr
    intro k known
    by_cases slot : k ∈ keys key semantic
    · rw [if_pos slot, if_pos slot]
    · have untaken : k ∉ keys key over₂ :=
        fun taken => slot ((sided k known (Or.inr taken)).mpr taken)
      rw [if_neg slot, if_neg slot, last_append, (last_eq_none key).mpr untaken, Option.none_or]
  rw [same, List.filter_eq_self]
  intro e member
  rcases mem_override key member with bundled | ⟨k, _, found⟩
  · exact sorted.pattern e bundled
  · split at found
    · cases found
    · exact sorted.over₁ e (last_mem key found).1

include once

theorem shown_slots :
    (override key (fun k => last key k (over₁ ++ over₂)) semantic).filter shown =
      (slots key semantic).filterMap
        (fun k => if k ∈ keys key pattern then none else last key k over₁) := by
  rw [filter_override key shown sorted.semantic]
  apply List.filterMap_congr
  intro k slotted
  have slot := mem_slots key slotted
  rw [last_append]
  have hidden : ∀ e, last key k over₂ = some e → shown e = false :=
    fun e found => sorted.over₂ e (last_mem key found).1
  by_cases given : k ∈ keys key over₁
  · by_cases known : k ∈ keys key pattern
    · have taken := (sided k known (Or.inl given)).mp slot
      obtain ⟨e, found⟩ := Option.isSome_iff_exists.mp ((last_isSome key).mpr taken)
      simp [known, found, Option.filter, hidden e found]
    · have untaken := (once k given known).2
      obtain ⟨e, found⟩ := Option.isSome_iff_exists.mp ((last_isSome key).mpr given)
      simp [known, (last_eq_none key).mpr untaken, found, Option.filter,
        sorted.over₁ e (last_mem key found).1]
  · rw [(last_eq_none key).mpr given]
    cases found : last key k over₂ with
    | none => simp
    | some e => simp [Option.filter, hidden e found]

omit sided in
theorem shown_behind :
    ((outside key (keys key (pattern ++ semantic)) (over₁ ++ over₂)).foldl (place key) []).filter
        shown = outside key (keys key (pattern ++ semantic)) over₁ := by
  generalize bundledKeys : keys key (pattern ++ semantic) = bundled
  have inPattern : ∀ k, k ∉ bundled → k ∉ keys key pattern := by
    intro k unmet known
    apply unmet
    rw [← bundledKeys, keys_append]
    exact List.mem_append_left _ known
  have distinct : (keys key (outside key bundled over₁)).Nodup := by
    rw [List.nodup_iff_count_le_one]
    intro k
    by_cases inside : k ∈ keys key (outside key bundled over₁)
    · have found := (mem_keys_outside key).mp inside
      rw [count_outside key found.2]
      exact le_of_eq (once k found.1 (inPattern k found.2)).1
    · rw [List.count_eq_zero_of_not_mem inside]
      exact Nat.zero_le 1
  have front : (outside key bundled over₁).foldl (place key) [] = outside key bundled over₁ := by
    rw [foldl_place_of_nodup key distinct [] (by simp [keys]), List.nil_append]
  have untouched : override key (fun k => last key k (outside key bundled over₂))
      (outside key bundled over₁) = outside key bundled over₁ := by
    have none : override key (fun k => last key k (outside key bundled over₂))
        (outside key bundled over₁) = override key (fun _ => .none) (outside key bundled over₁) := by
      apply override_congr
      intro k inside
      have found := (mem_keys_outside key).mp inside
      rw [last_eq_none, mem_keys_outside]
      exact fun behind => (once k found.1 (inPattern k found.2)).2 behind.1
    rw [none, override_none]
  rw [outside_append, List.foldl_append, front, foldl_place, untouched, List.filter_append]
  have kept : (outside key bundled over₁).filter shown = outside key bundled over₁ :=
    List.filter_eq_self.mpr (fun e member => sorted.over₁ e ((mem_outside key).mp member).1)
  have dropped : (List.foldl (place key) [] (outside key (keys key (outside key bundled over₁))
      (outside key bundled over₂))).filter shown = [] := by
    rw [List.filter_eq_nil_iff]
    intro e member
    rcases mem_foldl_place key member with none | inside
    · cases none
    · have hidden := sorted.over₂ e ((mem_outside key).mp ((mem_outside key).mp inside).1).1
      simp [hidden]
  rw [kept, dropped, List.append_nil]

theorem shownMerge_eq :
    shownMerge key shown pattern semantic over₁ over₂ =
      override key (fun k => if k ∈ keys key semantic then none else last key k over₁) pattern ++
        ((slots key semantic).filterMap
            (fun k => if k ∈ keys key pattern then none else last key k over₁) ++
          outside key (keys key (pattern ++ semantic)) over₁) := by
  rw [shownMerge, foldl_place, List.filter_append, override_append, List.filter_append,
    shown_pattern sorted sided, shown_slots sorted once sided, shown_behind sorted once,
    List.append_assoc]

end

/-- Whether the bundled pattern rules come out alike. -/
theorem restated_iff :
    (override key (fun k => if k ∈ keys key semantic then none else last key k over₁) pattern).map
        view = (override key (fun k => last key k over₁) pattern).map view ↔
      ∀ k ∈ keys key pattern, k ∈ keys key semantic → k ∈ keys key over₁ →
        (last key k over₁).map view = (last key k pattern).map view := by
  rw [override_view]
  constructor
  · intro all k known slot given
    obtain ⟨e, stood⟩ := Option.isSome_iff_exists.mp ((last_isSome key).mpr known)
    obtain ⟨e', found⟩ := Option.isSome_iff_exists.mp ((last_isSome key).mpr given)
    have same := all k e stood
    rw [if_pos slot, found, Option.getD_none, Option.getD_some] at same
    rw [stood, found, Option.map_some, Option.map_some, same]
  · intro restated k e stood
    have known : k ∈ keys key pattern := (mem_keys key).mpr ⟨e, last_mem key stood⟩
    by_cases slot : k ∈ keys key semantic
    · rw [if_pos slot]
      cases found : last key k over₁ with
      | none => rfl
      | some e' =>
          have given : k ∈ keys key over₁ := (mem_keys key).mpr ⟨e', last_mem key found⟩
          have same := restated k known slot given
          rw [stood, found, Option.map_some, Option.map_some, Option.some.injEq] at same
          exact same.symm
    · rw [if_neg slot]

theorem agree_iff_aligned (sorted : Sorted shown pattern semantic over₁ over₂)
    (viewed : ∀ e, keyOf (view e) = key e) :
    (shownMerge key shown pattern semantic over₁ over₂).map view =
        (patternMerge key pattern over₁).map view ↔
      Aligned key view pattern semantic over₁ over₂ := by
  constructor
  · intro same
    have counts : ∀ k, (keys key (shownMerge key shown pattern semantic over₁ over₂)).count k =
        (keys key (patternMerge key pattern over₁)).count k := by
      intro k
      rw [keys_of_view viewed same]
    have once : ∀ k ∈ keys key over₁, k ∉ keys key pattern →
        (keys key over₁).count k = 1 ∧ k ∉ keys key over₂ :=
      fun _ given fresh => once_of_count sorted counts given fresh
    have sided : ∀ k ∈ keys key pattern, k ∈ keys key over₁ ∨ k ∈ keys key over₂ →
        (k ∈ keys key semantic ↔ k ∈ keys key over₂) :=
      fun _ known given => sided_of_count sorted counts known given
    rw [shownMerge_eq sorted once sided, patternMerge, List.map_append, List.map_append,
      List.map_append] at same
    have parts := List.append_inj same (by simp)
    exact ⟨once, sided, restated_iff.mp parts.1, parts.2.symm⟩
  · rintro ⟨once, sided, restated, ordered⟩
    rw [shownMerge_eq sorted once sided, patternMerge, List.map_append, List.map_append,
      List.map_append, restated_iff.mpr restated, ordered]

end

/-- Tags that leave the keys and what is seen of the entries leave the alignment. -/
theorem aligned_map {ε κ β : Type} [DecidableEq κ] {key : ε → Option κ} {view : ε → β}
    {pattern semantic over₁ over₂ : List ε} {f g h i : ε → ε}
    (kept : ∀ t ∈ [f, g, h, i], ∀ e, key (t e) = key e)
    (seen : ∀ t ∈ [f, g, h, i], ∀ e, view (t e) = view e) :
    Aligned key view (pattern.map f) (semantic.map g) (over₁.map h) (over₂.map i) ↔
      Aligned key view pattern semantic over₁ over₂ := by
  simp only [List.forall_mem_cons, List.not_mem_nil, false_implies, implies_true, and_true] at kept seen
  obtain ⟨keptF, keptG, keptH, keptI⟩ := kept
  obtain ⟨seenF, seenG, seenH, seenI⟩ := seen
  have mapView : ∀ {t : ε → ε}, (∀ e, view (t e) = view e) → view ∘ t = view :=
    fun same => funext same
  have slotView : ((slots key semantic).filterMap (fun k => if k ∈ keys key pattern then none
        else last key k (over₁.map h))).map view =
      ((slots key semantic).filterMap (fun k => if k ∈ keys key pattern then none
        else last key k over₁)).map view := by
    rw [List.map_filterMap, List.map_filterMap]
    apply List.filterMap_congr
    intro k _
    split
    · rfl
    · rw [last_map key keptH, Option.map_map, mapView seenH]
  have lasts : ∀ k, (last key k (over₁.map h)).map view = (last key k over₁).map view := by
    intro k
    rw [last_map key keptH, Option.map_map, mapView seenH]
  have bundledLasts : ∀ k, (last key k (pattern.map f)).map view = (last key k pattern).map view := by
    intro k
    rw [last_map key keptF, Option.map_map, mapView seenF]
  constructor
  · rintro ⟨once, sided, restated, ordered⟩
    rw [keys_map key keptH, keys_map key keptF, keys_map key keptI] at once
    rw [keys_map key keptF, keys_map key keptG, keys_map key keptH, keys_map key keptI] at sided
    rw [keys_map key keptF, keys_map key keptG, keys_map key keptH] at restated
    rw [keys_append, keys_map key keptF, keys_map key keptG, slots_map key keptG, slotView,
      outside_map key keptH, outside_map key keptH, List.map_map, List.map_map, mapView seenH,
      ← keys_append] at ordered
    refine ⟨once, sided, ?_, ordered⟩
    intro k known slot given
    rw [← lasts, ← bundledLasts, restated k known slot given]
  · rintro ⟨once, sided, restated, ordered⟩
    refine ⟨?_, ?_, ?_, ?_⟩
    · rw [keys_map key keptH, keys_map key keptF, keys_map key keptI]
      exact once
    · rw [keys_map key keptF, keys_map key keptG, keys_map key keptH, keys_map key keptI]
      exact sided
    · rw [keys_map key keptF, keys_map key keptG, keys_map key keptH]
      intro k known slot given
      rw [lasts, bundledLasts, restated k known slot given]
    · rw [keys_append, keys_map key keptF, keys_map key keptG, slots_map key keptG, slotView,
        outside_map key keptH, outside_map key keptH, List.map_map, List.map_map, mapView seenH,
        ← keys_append]
      exact ordered

theorem patternMerge_map {ε κ β : Type} [DecidableEq κ] {key : ε → Option κ} {view : ε → β}
    {pattern over₁ : List ε} {f h : ε → ε} (keptF : ∀ e, key (f e) = key e)
    (seenF : ∀ e, view (f e) = view e) (keptH : ∀ e, key (h e) = key e)
    (seenH : ∀ e, view (h e) = view e) :
    (patternMerge key (pattern.map f) (over₁.map h)).map view =
      (patternMerge key pattern over₁).map view := by
  have mapView : view ∘ h = view := funext seenH
  have alike : ∀ k, (last key k (over₁.map h)).map view = (last key k over₁).map view := by
    intro k
    rw [last_map key keptH, Option.map_map, mapView]
  rw [patternMerge, patternMerge, List.map_append, List.map_append,
    override_map key keptF seenF alike, keys_map key keptF, outside_map key keptH, List.map_map,
    mapView]

/-- A rule with the resolver's tags. -/
def tag (kind source : Str) (entry : Entry) : Entry :=
  Dict.set (Dict.set entry "_kind" (.str kind)) "_source" (.str source)

theorem untag_tag (kind source : Str) (entry : Entry) :
    Overlay.untag (tag kind source entry) = Overlay.untag entry := by
  have apart : (("_kind" : String) : Str) ≠ (("_source" : String) : Str) := by decide
  rw [Overlay.untag, tag, Dict.erase_set_of_ne _ apart, Dict.erase_set_self, Dict.erase_set_self]
  rfl

theorem id?_tag (kind source : Str) (entry : Entry) :
    (tag kind source entry).id? "rule_id" = entry.id? "rule_id" := by
  rw [Entry.id?, tag, Dict.get?_set_of_ne _ _ _ _ (by decide), Dict.get?_set_of_ne _ _ _ _ (by decide)]
  rfl

theorem id?_untag (entry : Entry) : (Overlay.untag entry).id? "rule_id" = entry.id? "rule_id" := by
  rw [Entry.id?, Overlay.untag, Dict.get?_erase, if_neg (by decide), Dict.get?_erase,
    if_neg (by decide)]
  rfl

theorem isPattern_tag (kind source : Str) (entry : Entry) :
    Overlay.isPattern (tag kind source entry) = (kind == "pattern") := by
  rw [Overlay.isPattern, tag, Dict.get?_set_of_ne _ _ _ _ (by decide), Dict.get?_set_self]
  by_cases same : kind = "pattern"
  · simp [same]
  · simp [same]

theorem collectRuleFiles_eq (dir : RulesDir) (source : Str) :
    Overlay.collectRuleFiles dir source =
      (Scan.readRulesFile dir.pattern).map (tag "pattern" source) ++
        (Scan.readRulesFile dir.semantic).map (tag "semantic" source) := by
  have read : ∀ (file : RulesFile) (kind : Str), (Overlay.readJsonRules file kind).map
      (fun r : Entry => Dict.set r "_source" (.str source)) =
        (Scan.readRulesFile file).map (tag kind source) := by
    intro file kind
    cases file with
    | absent => rfl
    | invalid => rfl
    | object rules =>
        cases rules with
        | none => rfl
        | some rules =>
            simp only [Overlay.readJsonRules, Scan.readRulesFile, List.map_map]
            rfl
  rw [Overlay.collectRuleFiles, List.map_append, read, read]

/-- The overlay directory of a project; one without it overlays nothing. -/
def overlayDir (over' : Option RulesDir) : RulesDir := over'.getD ⟨.absent, .absent⟩

theorem resolveRules_overlayDir (base : RulesDir) (over' : Option RulesDir) :
    Overlay.resolveRules base over' = Overlay.resolveRules base (some (overlayDir over')) := by
  cases over' with
  | none =>
      have nothing : Overlay.collectRuleFiles ⟨.absent, .absent⟩ "project" = [] := rfl
      simp only [Overlay.resolveRules, overlayDir, Option.getD_none, nothing, mergeById_eq,
        List.foldl_nil]
  | some dir => rfl

/-- The rules the two gates obtain, the resolver's tags aside, are the same
exactly when the ids of the four rule files are aligned. -/
theorem loadRules_agrees_iff (base : RulesDir) (over' : Option RulesDir) :
    ((Overlay.resolveRules base over').filter Overlay.isPattern).map Overlay.untag =
        (Scan.loadRules base.pattern (overlayDir over').pattern).map Overlay.untag ↔
      Aligned (Entry.id? "rule_id") Overlay.untag (Scan.readRulesFile base.pattern)
        (Scan.readRulesFile base.semantic) (Scan.readRulesFile (overlayDir over').pattern)
        (Scan.readRulesFile (overlayDir over').semantic) := by
  rw [resolveRules_overlayDir]
  generalize overlayDir over' = dir
  rw [Overlay.resolveRules, mergeById_eq, collectRuleFiles_eq, collectRuleFiles_eq, loadRules_eq]
  generalize Scan.readRulesFile base.pattern = pattern
  generalize Scan.readRulesFile base.semantic = semantic
  generalize Scan.readRulesFile dir.pattern = over₁
  generalize Scan.readRulesFile dir.semantic = over₂
  have sorted : Sorted Overlay.isPattern (pattern.map (tag "pattern" "devgate"))
      (semantic.map (tag "semantic" "devgate")) (over₁.map (tag "pattern" "project"))
      (over₂.map (tag "semantic" "project")) := by
    refine ⟨?_, ?_, ?_, ?_⟩ <;> intro e member <;> obtain ⟨entry, _, rfl⟩ := List.mem_map.mp member <;>
      rw [isPattern_tag] <;> decide
  have agreed := agree_iff_aligned sorted id?_untag
  rw [patternMerge_map (id?_tag "pattern" "devgate") (untag_tag "pattern" "devgate")
    (id?_tag "pattern" "project") (untag_tag "pattern" "project")] at agreed
  have plain : Aligned (Entry.id? "rule_id") Overlay.untag (pattern.map (tag "pattern" "devgate"))
      (semantic.map (tag "semantic" "devgate")) (over₁.map (tag "pattern" "project"))
      (over₂.map (tag "semantic" "project")) ↔
        Aligned (Entry.id? "rule_id") Overlay.untag pattern semantic over₁ over₂ := by
    apply aligned_map
    · simp [id?_tag]
    · simp [untag_tag]
  exact agreed.trans plain

namespace Repeated

def rule (severity : Str) : Rule where
  entry := [("rule_id", .str "G-1"), ("severity", .str severity)]
  named := fun _ found => Or.inr ⟨"G-1", (Option.some.inj found).symm⟩

def bundled : RulesDir := ⟨.object (some []), .absent⟩

def project : RulesDir := ⟨.object (some [rule "error", rule "info"]), .absent⟩

end Repeated

/-- An overlay that lists one new id twice: the scanner keeps both rules, the
resolver only the last. -/
theorem repeated_id_differs :
    ¬ ((Overlay.resolveRules Repeated.bundled (some Repeated.project)).filter
        Overlay.isPattern).map Overlay.untag =
      (Scan.loadRules Repeated.bundled.pattern Repeated.project.pattern).map Overlay.untag := by
  intro same
  have lengths := congrArg List.length same
  revert lengths
  decide

end DevGate.Gate
