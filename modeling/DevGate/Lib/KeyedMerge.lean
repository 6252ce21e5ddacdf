import DevGate.Py.Value

set_option autoImplicit false

/- Lists of entries with optional keys, where a later entry takes the place of
the last earlier one of its key. -/
namespace Keyed

open Py

variable {ε κ : Type} (key : ε → Option κ)

def keys (entries : List ε) : List κ := entries.filterMap key

theorem keys_append (front back : List ε) :
    keys key (front ++ back) = keys key front ++ keys key back :=
  List.filterMap_append

theorem mem_keys {k : κ} {entries : List ε} :
    k ∈ keys key entries ↔ ∃ e ∈ entries, key e = some k :=
  List.mem_filterMap

theorem keys_cons (e : ε) (rest : List ε) :
    keys key (e :: rest) = (key e).toList ++ keys key rest := by
  unfold keys
  cases named : key e <;> simp [named]

theorem mem_keys_cons {k : κ} {e : ε} {rest : List ε} :
    k ∈ keys key (e :: rest) ↔ key e = some k ∨ k ∈ keys key rest := by
  rw [keys_cons, List.mem_append, Option.mem_toList]

variable [DecidableEq κ]

/-- The last entry of a key. -/
def last (k : κ) : List ε → Option ε
  | [] => none
  | e :: rest => (last k rest).or (if key e = some k then some e else none)

/-- Where the last entry of a key stands. -/
def lastIndex (k : κ) : List ε → Option Nat
  | [] => none
  | e :: rest =>
      match lastIndex k rest with
      | some i => some (i + 1)
      | none => if key e = some k then some 0 else none

def replaceLast (k : κ) (entry : ε) : List ε → List ε
  | [] => []
  | e :: rest =>
      if key e = some k ∧ k ∉ keys key rest then entry :: rest
      else e :: replaceLast k entry rest

/-- An entry replaces the last one of its key, or joins at the end. -/
def place (out : List ε) (entry : ε) : List ε :=
  match key entry with
  | none => out ++ [entry]
  | some k => if k ∈ keys key out then replaceLast key k entry out else out ++ [entry]

/-- The last entry of every key gives way to what `fresh` holds for it. -/
def override (fresh : κ → Option ε) : List ε → List ε
  | [] => []
  | e :: rest =>
      (match key e with
        | some k => if k ∈ keys key rest then e else (fresh k).getD e
        | none => e) :: override fresh rest

/-- Entries without a key, or with one outside `known`. -/
def outside (known : List κ) (entries : List ε) : List ε :=
  entries.filter (fun e => match key e with
    | some k => decide (k ∉ known)
    | none => true)

/-- The keys in the order in which their last entries stand. -/
def slots : List ε → List κ
  | [] => []
  | e :: rest =>
      match key e with
      | some k => if k ∈ keys key rest then slots rest else k :: slots rest
      | none => slots rest

theorem last_isSome {k : κ} {entries : List ε} :
    (last key k entries).isSome = true ↔ k ∈ keys key entries := by
  induction entries with
  | nil => simp [last, keys]
  | cons e rest ih =>
      rw [mem_keys_cons, last, Option.isSome_or, Bool.or_eq_true, ih]
      by_cases here : key e = some k <;> simp [here, or_comm]

theorem last_eq_none {k : κ} {entries : List ε} :
    last key k entries = none ↔ k ∉ keys key entries := by
  rw [← last_isSome key, Bool.not_eq_true, Option.isSome_eq_false_iff, Option.isNone_iff_eq_none]

theorem last_append (k : κ) (front back : List ε) :
    last key k (front ++ back) = (last key k back).or (last key k front) := by
  induction front with
  | nil => simp [last]
  | cons e rest ih => rw [List.cons_append, last, ih, last, Option.or_assoc]

theorem last_mem {k : κ} {entries : List ε} {e : ε} (found : last key k entries = some e) :
    e ∈ entries ∧ key e = some k := by
  induction entries with
  | nil => cases found
  | cons first rest ih =>
      rw [last] at found
      cases later : last key k rest with
      | some e' =>
          rw [later, Option.some_or] at found
          cases found
          exact ⟨List.mem_cons_of_mem _ (ih later).1, (ih later).2⟩
      | none =>
          rw [later, Option.none_or] at found
          split at found
          · rename_i here
            cases found
            exact ⟨List.mem_cons_self, here⟩
          · cases found

theorem lastIndex_eq_none {k : κ} {entries : List ε} :
    lastIndex key k entries = none ↔ k ∉ keys key entries := by
  induction entries with
  | nil => simp [lastIndex, keys]
  | cons e rest ih =>
      rw [mem_keys_cons, lastIndex]
      cases later : lastIndex key k rest with
      | some i =>
          have inside : k ∈ keys key rest := by
            by_contra absent
            rw [ih.mpr absent] at later
            cases later
          simp [inside]
      | none => simp [ih.mp later]

theorem lastIndex_append (k : κ) (front back : List ε) :
    lastIndex key k (front ++ back) =
      match lastIndex key k back with
      | some i => some (front.length + i)
      | none => lastIndex key k front := by
  induction front with
  | nil => cases found : lastIndex key k back <;> simp [lastIndex, found]
  | cons e rest ih =>
      rw [List.cons_append, lastIndex, ih]
      cases lastIndex key k back with
      | some i => simp only [List.length_cons, Option.some.injEq]; omega
      | none => rfl

theorem lastIndex_lt {k : κ} {entries : List ε} {i : Nat} (found : lastIndex key k entries = some i) :
    i < entries.length := by
  induction entries generalizing i with
  | nil => cases found
  | cons e rest ih =>
      rw [lastIndex] at found
      rw [List.length_cons]
      cases later : lastIndex key k rest with
      | some j =>
          rw [later] at found
          cases found
          have bound := ih later
          omega
      | none =>
          rw [later] at found
          by_cases here : key e = some k
          · simp only [here, ↓reduceIte, Option.some.injEq] at found
            omega
          · simp [here] at found

/-- Assigning at the index of a key's last entry replaces that entry. -/
theorem set_lastIndex {k : κ} {entries : List ε} {i : Nat} (entry : ε)
    (found : lastIndex key k entries = some i) :
    entries.set i entry = replaceLast key k entry entries := by
  induction entries generalizing i with
  | nil => cases found
  | cons e rest ih =>
      rw [lastIndex] at found
      cases later : lastIndex key k rest with
      | some j =>
          rw [later] at found
          cases found
          have inside : k ∈ keys key rest := by
            by_contra absent
            rw [(lastIndex_eq_none key).mpr absent] at later
            cases later
          simp only [List.set_cons_succ, replaceLast, inside, not_true_eq_false, and_false, ↓reduceIte,
            ih later]
      | none =>
          rw [later] at found
          have absent := (lastIndex_eq_none key).mp later
          by_cases here : key e = some k
          · simp only [here, ↓reduceIte, Option.some.injEq] at found
            subst found
            simp only [List.set_cons_zero, replaceLast, here, absent, not_false_eq_true, and_self,
              ↓reduceIte]
          · simp [here] at found

theorem keys_replaceLast {k : κ} {entry : ε} (same : key entry = some k) (entries : List ε) :
    keys key (replaceLast key k entry entries) = keys key entries := by
  induction entries with
  | nil => rfl
  | cons e rest ih =>
      unfold replaceLast
      split
      · rename_i here
        rw [keys_cons, keys_cons, same, here.1]
      · rw [keys_cons, keys_cons, ih]

theorem lastIndex_replaceLast {k : κ} {entry : ε} (same : key entry = some k) (k' : κ)
    (entries : List ε) :
    lastIndex key k' (replaceLast key k entry entries) = lastIndex key k' entries := by
  induction entries with
  | nil => rfl
  | cons e rest ih =>
      unfold replaceLast
      split
      · rename_i here
        rw [lastIndex, lastIndex, same, here.1]
      · rw [lastIndex, lastIndex, ih]

theorem lastIndex_concat (out : List ε) (entry : ε) (k : κ) :
    lastIndex key k (out ++ [entry]) =
      if key entry = some k then some out.length else lastIndex key k out := by
  rw [lastIndex_append]
  by_cases named : key entry = some k
  · simp [lastIndex, named]
  · simp [lastIndex, named]

/-- A place in an exact index of the last entries is where the entry replaces one. -/
theorem place_of_found {out : List ε} {k : κ} {i : Nat} (entry : ε) (named : key entry = some k)
    (found : lastIndex key k out = some i) : place key out entry = out.set i entry := by
  have inside : k ∈ keys key out := by
    by_contra absent
    rw [(lastIndex_eq_none key).mpr absent] at found
    cases found
  unfold place
  rw [named]
  dsimp only
  rw [if_pos inside, set_lastIndex key entry found]

theorem place_of_absent {out : List ε} {entry : ε}
    (absent : ∀ k, key entry = some k → lastIndex key k out = none) :
    place key out entry = out ++ [entry] := by
  unfold place
  cases named : key entry with
  | none => rfl
  | some k =>
      dsimp only
      rw [if_neg ((lastIndex_eq_none key).mp (absent k named))]

theorem lastIndex_place_of_found {out : List ε} {k : κ} {i : Nat} {entry : ε}
    (named : key entry = some k) (found : lastIndex key k out = some i) (k' : κ) :
    lastIndex key k' (out.set i entry) = lastIndex key k' out := by
  rw [set_lastIndex key entry found, lastIndex_replaceLast key named]

theorem keys_place (out : List ε) (entry : ε) :
    keys key (place key out entry) =
      match key entry with
      | none => keys key out
      | some k => if k ∈ keys key out then keys key out else keys key out ++ [k] := by
  unfold place
  cases named : key entry with
  | none => simp [keys, named]
  | some k =>
      by_cases inside : k ∈ keys key out
      · simp only [inside, ↓reduceIte, keys_replaceLast key named]
      · simp only [inside, ↓reduceIte, keys_append, keys_cons, named]
        rfl

theorem mem_keys_foldl_place {k : κ} (entries out : List ε) :
    k ∈ keys key (entries.foldl (place key) out) ↔ k ∈ keys key out ∨ k ∈ keys key entries := by
  induction entries generalizing out with
  | nil => simp [keys]
  | cons e rest ih =>
      rw [List.foldl_cons, ih, keys_place, mem_keys_cons]
      cases named : key e with
      | none => simp
      | some k' =>
          by_cases inside : k' ∈ keys key out
          · by_cases same : k' = k
            · subst same
              simp [inside]
            · simp [inside, same]
          · by_cases same : k' = k
            · subst same
              simp [inside]
            · simp [inside, same, Ne.symm same]

theorem mem_outside {known : List κ} {entries : List ε} {e : ε} :
    e ∈ outside key known entries ↔ e ∈ entries ∧ ∀ k, key e = some k → k ∉ known := by
  unfold outside
  rw [List.mem_filter]
  cases key e <;> simp

theorem outside_append (known : List κ) (front back : List ε) :
    outside key known (front ++ back) = outside key known front ++ outside key known back :=
  List.filter_append ..

theorem mem_keys_outside {known : List κ} {entries : List ε} {k : κ} :
    k ∈ keys key (outside key known entries) ↔ k ∈ keys key entries ∧ k ∉ known := by
  rw [mem_keys, mem_keys]
  constructor
  · rintro ⟨e, member, named⟩
    have found := (mem_outside key).mp member
    exact ⟨⟨e, found.1, named⟩, found.2 k named⟩
  · rintro ⟨⟨e, member, named⟩, absent⟩
    refine ⟨e, (mem_outside key).mpr ⟨member, ?_⟩, named⟩
    intro k' named'
    rw [named, Option.some.injEq] at named'
    exact named' ▸ absent

/-- Dropping known keys leaves the entries of the others as many. -/
theorem count_outside {known : List κ} {k : κ} (absent : k ∉ known) (entries : List ε) :
    (keys key (outside key known entries)).count k = (keys key entries).count k := by
  induction entries with
  | nil => rfl
  | cons e rest ih =>
      rw [keys_cons, List.count_append, ← ih, outside, List.filter_cons]
      cases named : key e with
      | none => simp [keys_cons, named, outside]
      | some k' =>
          by_cases dropped : k' ∈ known
          · have other : k' ≠ k := fun same => absent (same ▸ dropped)
            simp [dropped, other, outside]
          · simp [keys_cons, named, dropped, outside, List.count_cons, Nat.add_comm]

theorem replaceLast_of_not_mem {k : κ} (entry : ε) {entries : List ε}
    (absent : k ∉ keys key entries) : replaceLast key k entry entries = entries := by
  induction entries with
  | nil => rfl
  | cons e rest ih =>
      rw [mem_keys_cons, not_or] at absent
      simp only [replaceLast, absent.1, false_and, ↓reduceIte, ih absent.2]

theorem replaceLast_append (k : κ) (entry : ε) (front back : List ε) :
    replaceLast key k entry (front ++ back) =
      if k ∈ keys key back then front ++ replaceLast key k entry back
      else replaceLast key k entry front ++ back := by
  induction front with
  | nil =>
      by_cases inside : k ∈ keys key back
      · simp [inside]
      · simp [inside, replaceLast_of_not_mem key entry inside, replaceLast]
  | cons e rest ih =>
      by_cases inside : k ∈ keys key back
      · simp [replaceLast, keys_append, inside, ih]
      · by_cases last : key e = some k ∧ k ∉ keys key rest
        · simp [replaceLast, keys_append, inside, last.1, last.2]
        · simp only [List.cons_append, replaceLast, keys_append, List.mem_append, inside, or_false,
            last, ↓reduceIte, ih]

/-- What `fresh` holds for a key has that key. -/
def Keeps (fresh : κ → Option ε) : Prop := ∀ k e, fresh k = some e → key e = some k

theorem keeps_last (entries : List ε) : Keeps key (fun k => last key k entries) :=
  fun _ _ found => (last_mem key found).2

section

variable {fresh : κ → Option ε}

theorem override_key (keeps : Keeps key fresh) (e : ε) (rest : List ε) :
    key (match key e with
      | some k => if k ∈ keys key rest then e else (fresh k).getD e
      | none => e) = key e := by
  cases named : key e with
  | none => exact named
  | some k =>
      dsimp only
      split
      · exact named
      · cases found : fresh k with
        | none => exact named
        | some e' => exact keeps k e' found

theorem keys_override (keeps : Keeps key fresh) (entries : List ε) :
    keys key (override key fresh entries) = keys key entries := by
  induction entries with
  | nil => rfl
  | cons e rest ih => rw [override, keys_cons, override_key key keeps, ih, keys_cons]

theorem lastIndex_override (keeps : Keeps key fresh) (k : κ) (entries : List ε) :
    lastIndex key k (override key fresh entries) = lastIndex key k entries := by
  induction entries with
  | nil => rfl
  | cons e rest ih => rw [override, lastIndex, lastIndex, ih, override_key key keeps]

@[simp] theorem length_override (entries : List ε) :
    (override key fresh entries).length = entries.length := by
  induction entries with
  | nil => rfl
  | cons e rest ih => rw [override, List.length_cons, List.length_cons, ih]

theorem override_congr {other : κ → Option ε} {entries : List ε}
    (same : ∀ k ∈ keys key entries, fresh k = other k) :
    override key fresh entries = override key other entries := by
  induction entries with
  | nil => rfl
  | cons e rest ih =>
      have later : ∀ k ∈ keys key rest, fresh k = other k :=
        fun k member => same k ((mem_keys_cons key).mpr (Or.inr member))
      rw [override, override, ih later]
      cases named : key e with
      | none => rfl
      | some k => simp only [same k ((mem_keys_cons key).mpr (Or.inl named))]

theorem override_none (entries : List ε) : override key (fun _ => none) entries = entries := by
  induction entries with
  | nil => rfl
  | cons e rest ih =>
      rw [override, ih]
      cases key e <;> simp

/-- Replacing the last entry of a key is overriding that key once more. -/
theorem replaceLast_override (keeps : Keeps key fresh) {k : κ} (entry : ε) (entries : List ε) :
    replaceLast key k entry (override key fresh entries) =
      override key (fun k' => if k' = k then some entry else fresh k') entries := by
  induction entries with
  | nil => rfl
  | cons e rest ih =>
      rw [override, override, replaceLast, override_key key keeps, keys_override key keeps, ih]
      cases named : key e with
      | none => simp
      | some k' =>
          by_cases same : k' = k
          · subst same
            by_cases inside : k' ∈ keys key rest
            · simp [inside]
            · have rest_same : override key (fun k => if k = k' then some entry else fresh k) rest =
                  override key fresh rest := by
                apply override_congr
                intro k member
                have other : k ≠ k' := fun equal => inside (equal ▸ member)
                simp only [other, ↓reduceIte]
              simp [inside, rest_same]
          · simp [same]

end

/-- Placing entries one after the other: every key of the list gives way to its
last new entry, and the entries of other keys are placed behind. -/
theorem foldl_place (entries start : List ε) :
    entries.foldl (place key) start =
      override key (fun k => last key k entries) start ++
        (outside key (keys key start) entries).foldl (place key) [] := by
  induction entries using List.reverseRecOn with
  | nil =>
      have none : (fun k => last key k ([] : List ε)) = fun _ => .none := rfl
      rw [none, override_none]
      simp [outside]
  | append_singleton entries e ih =>
      have keeps := keeps_last key entries
      rw [List.foldl_append, List.foldl_cons, List.foldl_nil, ih, outside_append, List.foldl_append]
      generalize placed : (outside key (keys key start) entries).foldl (place key) [] = behind
      have inBehind : ∀ k, k ∈ keys key behind ↔ k ∈ keys key entries ∧ k ∉ keys key start := by
        intro k
        rw [← placed, mem_keys_foldl_place, mem_keys_outside]
        simp [keys]
      have lasts : ∀ k, last key k (entries ++ [e]) =
          if key e = some k then some e else last key k entries := by
        intro k
        rw [last_append]
        by_cases named : key e = some k <;> simp [last, named]
      cases named : key e with
      | none =>
          have same : (fun k => last key k (entries ++ [e])) = fun k => last key k entries := by
            funext k
            simp [lasts, named]
          simp [place, outside, named, same]
      | some k =>
          by_cases known : k ∈ keys key start
          · have absent : k ∉ keys key behind := fun member => ((inBehind k).mp member).2 known
            have same : (fun k' => last key k' (entries ++ [e])) =
                fun k' => if k' = k then some e else last key k' entries := by
              funext k'
              simp [lasts, named, eq_comm]
            have dropped : outside key (keys key start) [e] = [] := by simp [outside, named, known]
            rw [dropped, same, List.foldl_nil, ← replaceLast_override key keeps]
            simp only [place, named, keys_append, keys_override key keeps, List.mem_append, known,
              true_or, ↓reduceIte, replaceLast_append, absent]
          · have same : override key (fun k' => last key k' (entries ++ [e])) start =
                override key (fun k' => last key k' entries) start := by
              apply override_congr
              intro k' member
              have other : k ≠ k' := fun equal => known (equal ▸ member)
              simp [lasts, named, other]
            have kept : outside key (keys key start) [e] = [e] := by simp [outside, named, known]
            rw [kept, same, List.foldl_cons, List.foldl_nil]
            by_cases inside : k ∈ keys key behind
            · simp only [place, named, keys_append, keys_override key keeps, List.mem_append, inside,
                or_true, ↓reduceIte, replaceLast_append]
            · simp only [place, named, keys_append, keys_override key keeps, List.mem_append, known,
                inside, or_self, ↓reduceIte, List.append_assoc]

theorem mem_replaceLast {k : κ} {entry e : ε} {entries : List ε}
    (member : e ∈ replaceLast key k entry entries) : e = entry ∨ e ∈ entries := by
  induction entries with
  | nil => cases member
  | cons first rest ih =>
      unfold replaceLast at member
      split at member
      · rcases List.mem_cons.mp member with here | later
        · exact Or.inl here
        · exact Or.inr (List.mem_cons_of_mem _ later)
      · rcases List.mem_cons.mp member with here | later
        · exact Or.inr (here ▸ List.mem_cons_self)
        · exact (ih later).imp id (List.mem_cons_of_mem _)

theorem mem_foldl_place {e : ε} {entries out : List ε} (member : e ∈ entries.foldl (place key) out) :
    e ∈ out ∨ e ∈ entries := by
  induction entries generalizing out with
  | nil => exact Or.inl member
  | cons first rest ih =>
      rcases ih member with placed | later
      · have known : e ∈ out ∨ e = first := by
          unfold place at placed
          split at placed
          · exact (List.mem_append.mp placed).imp id List.mem_singleton.mp
          · split at placed
            · exact (mem_replaceLast key placed).symm
            · exact (List.mem_append.mp placed).imp id List.mem_singleton.mp
        rcases known with old | here
        · exact Or.inl old
        · exact Or.inr (here ▸ List.mem_cons_self)
      · exact Or.inr (List.mem_cons_of_mem _ later)

theorem nodup_keys_foldl_place {entries out : List ε} (distinct : (keys key out).Nodup) :
    (keys key (entries.foldl (place key) out)).Nodup := by
  induction entries generalizing out with
  | nil => exact distinct
  | cons e rest ih =>
      apply ih
      rw [keys_place]
      cases key e with
      | none => exact distinct
      | some k =>
          by_cases inside : k ∈ keys key out
          · simp only [inside, ↓reduceIte]
            exact distinct
          · simp only [inside, ↓reduceIte]
            exact List.Nodup.append distinct (List.nodup_singleton k) (by simpa using inside)

/-- Entries with distinct new keys are placed as they come. -/
theorem foldl_place_of_nodup {entries : List ε} (distinct : (keys key entries).Nodup) :
    ∀ out : List ε, (∀ k ∈ keys key entries, k ∉ keys key out) →
      entries.foldl (place key) out = out ++ entries := by
  induction entries with
  | nil => exact fun out _ => (List.append_nil out).symm
  | cons e rest ih =>
      intro out fresh
      have here : place key out e = out ++ [e] := by
        unfold place
        cases named : key e with
        | none => rfl
        | some k =>
            have absent := fresh k ((mem_keys_cons key).mpr (Or.inl named))
            simp only [absent, ↓reduceIte]
      rw [keys_cons] at distinct
      have later : ∀ k ∈ keys key rest, k ∉ keys key (out ++ [e]) := by
        intro k member
        rw [keys_append, List.mem_append, not_or]
        refine ⟨fresh k ((mem_keys_cons key).mpr (Or.inr member)), ?_⟩
        intro same
        rw [mem_keys_cons] at same
        rcases same with named | none
        · exact List.disjoint_of_nodup_append distinct (Option.mem_toList.mpr named) member
        · cases none
      rw [List.foldl_cons, here, ih (List.Nodup.of_append_right distinct) _ later, List.append_assoc,
        List.singleton_append]

theorem override_last (entries : List ε) :
    override key (fun k => last key k entries) entries = entries := by
  induction entries with
  | nil => rfl
  | cons e rest ih =>
      have same : override key (fun k => last key k (e :: rest)) rest =
          override key (fun k => last key k rest) rest := by
        apply override_congr
        intro k inside
        obtain ⟨e', found⟩ := Option.isSome_iff_exists.mp ((last_isSome key).mpr inside)
        rw [last, found, Option.some_or]
      rw [override, same, ih]
      cases named : key e with
      | none => rfl
      | some k =>
          dsimp only
          by_cases inside : k ∈ keys key rest
          · rw [if_pos inside]
          · rw [if_neg inside, last, (last_eq_none key).mpr inside, Option.none_or, if_pos named]
            rfl

/-- Placing entries over themselves changes nothing, where each has a key. -/
theorem foldl_place_self {entries : List ε} (named : ∀ e ∈ entries, key e ≠ none) :
    entries.foldl (place key) entries = entries := by
  have nothing : outside key (keys key entries) entries = [] := by
    apply List.eq_nil_iff_forall_not_mem.mpr
    intro e member
    obtain ⟨inside, away⟩ := (mem_outside key).mp member
    cases keyed : key e with
    | none => exact named e inside keyed
    | some k => exact away k keyed ((mem_keys key).mpr ⟨e, inside, keyed⟩)
  rw [foldl_place, nothing, List.foldl_nil, List.append_nil, override_last]

/-- The entries without a key. -/
def nameless (entries : List ε) : List ε := entries.filter (fun e => (key e).isNone)

omit [DecidableEq κ] in
theorem nameless_cons (e : ε) (rest : List ε) :
    nameless key (e :: rest) = (if key e = none then [e] else []) ++ nameless key rest := by
  unfold nameless
  rw [List.filter_cons]
  cases key e <;> simp

theorem last_replaceLast {k k' : κ} {entry : ε} (named : key entry = some k) {entries : List ε}
    (inside : k ∈ keys key entries) :
    last key k' (replaceLast key k entry entries) =
      if k = k' then some entry else last key k' entries := by
  induction entries with
  | nil => cases inside
  | cons e rest ih =>
      unfold replaceLast
      by_cases stands : key e = some k ∧ k ∉ keys key rest
      · rw [if_pos stands, last, last, named, stands.1]
        by_cases same : k = k'
        · subst same
          rw [(last_eq_none key).mpr stands.2]
          simp
        · simp [same]
      · rw [if_neg stands, last, last]
        have later : k ∈ keys key rest := by
          rw [mem_keys_cons] at inside
          by_contra absent
          exact stands ⟨inside.resolve_right absent, absent⟩
        rw [ih later]
        by_cases same : k = k'
        · simp [same]
        · simp [same]

theorem last_place (k : κ) (out : List ε) (entry : ε) :
    last key k (place key out entry) = if key entry = some k then some entry else last key k out := by
  unfold place
  cases named : key entry with
  | none => simp [last_append, last, named]
  | some k' =>
      dsimp only
      by_cases inside : k' ∈ keys key out
      · rw [if_pos inside, last_replaceLast key named inside]
        simp
      · rw [if_neg inside, last_append, last, named]
        by_cases same : k' = k <;> simp [same, last]

/-- The last of the placed entries stands for its key. -/
theorem last_foldl_place (k : κ) (entries out : List ε) :
    last key k (entries.foldl (place key) out) = (last key k entries).or (last key k out) := by
  induction entries generalizing out with
  | nil => rfl
  | cons e rest ih =>
      rw [List.foldl_cons, ih, last_place, last, Option.or_assoc]
      by_cases here : key e = some k <;> simp [here]

theorem outside_replaceLast {known : List κ} {k : κ} (inside : k ∈ known) {entry : ε}
    (named : key entry = some k) (entries : List ε) :
    outside key known (replaceLast key k entry entries) = outside key known entries := by
  unfold outside
  induction entries with
  | nil => rfl
  | cons e rest ih =>
      unfold replaceLast
      split
      · rename_i here
        simp [named, here.1, inside]
      · rw [List.filter_cons, List.filter_cons, ih]

/-- Placing entries of known keys leaves the entries of the others, with those of no key behind. -/
theorem outside_foldl_place {known : List κ} {entries : List ε}
    (inside : ∀ k ∈ keys key entries, k ∈ known) (out : List ε) :
    outside key known (entries.foldl (place key) out) = outside key known out ++ nameless key entries := by
  induction entries generalizing out with
  | nil => exact (List.append_nil _).symm
  | cons e rest ih =>
      have later : ∀ k ∈ keys key rest, k ∈ known :=
        fun k member => inside k ((mem_keys_cons key).mpr (Or.inr member))
      rw [List.foldl_cons, ih later, nameless_cons]
      cases named : key e with
      | none =>
          rw [place_of_absent key (fun k same => by rw [named] at same; cases same), outside_append,
            if_pos rfl, List.append_assoc]
          simp [outside, named]
      | some k =>
          have here := inside k ((mem_keys_cons key).mpr (Or.inl named))
          rw [if_neg nofun, List.nil_append]
          congr 1
          unfold place
          rw [named]
          dsimp only
          split
          · exact outside_replaceLast key here named out
          · rw [outside_append]
            simp [outside, named, here]

/-- An override by what stands there already changes nothing. -/
theorem override_self {fresh : κ → Option ε} {entries : List ε}
    (stands : ∀ k e, fresh k = some e → k ∈ keys key entries → last key k entries = some e) :
    override key fresh entries = entries := by
  induction entries with
  | nil => rfl
  | cons e rest ih =>
      have later : ∀ k e', fresh k = some e' → k ∈ keys key rest → last key k rest = some e' := by
        intro k e' given member
        have whole := stands k e' given ((mem_keys_cons key).mpr (Or.inr member))
        obtain ⟨e'', found⟩ := Option.isSome_iff_exists.mp ((last_isSome key).mpr member)
        rw [last, found, Option.some_or] at whole
        rw [found, whole]
      rw [override, ih later]
      cases named : key e with
      | none => rfl
      | some k =>
          dsimp only
          by_cases inside : k ∈ keys key rest
          · rw [if_pos inside]
          · rw [if_neg inside]
            cases given : fresh k with
            | none => rfl
            | some e' =>
                have whole := stands k e' given ((mem_keys_cons key).mpr (Or.inl named))
                rw [last, (last_eq_none key).mpr inside, Option.none_or, if_pos named] at whole
                rw [Option.getD_some, Option.some.inj whole]

/-- Placing the same entries once more adds those without a key, and nothing else. -/
theorem foldl_place_again (entries out : List ε) :
    entries.foldl (place key) (entries.foldl (place key) out) =
      entries.foldl (place key) out ++ nameless key entries := by
  have known : ∀ k ∈ keys key entries, k ∈ keys key (entries.foldl (place key) out) :=
    fun k member => (mem_keys_foldl_place key entries out).mpr (Or.inr member)
  have fresh : outside key (keys key (entries.foldl (place key) out)) entries =
      nameless key entries := by
    unfold outside nameless
    apply List.filter_congr
    intro e member
    cases named : key e with
    | none => rfl
    | some k => simp [known k ((mem_keys key).mpr ⟨e, member, named⟩)]
  have unkeyed : keys key (nameless key entries) = [] := by
    apply List.eq_nil_iff_forall_not_mem.mpr
    intro k member
    obtain ⟨e, inside, named⟩ := (mem_keys key).mp member
    have none := (List.mem_filter.mp inside).2
    rw [named] at none
    cases none
  have behind : (nameless key entries).foldl (place key) [] = nameless key entries := by
    apply foldl_place_of_nodup key
    · rw [unkeyed]
      exact List.nodup_nil
    · rw [unkeyed]
      exact fun k member => nomatch member
  have settled : override key (fun k => last key k entries) (entries.foldl (place key) out) =
      entries.foldl (place key) out := by
    apply override_self key
    intro k e given _
    rw [last_foldl_place, given, Option.some_or]
  rw [foldl_place key entries (entries.foldl (place key) out), fresh, behind, settled]

/-- New keys join in the order in which they first come. -/
theorem keys_foldl_place (entries : List ε) :
    keys key (entries.foldl (place key) []) = (keys key entries).eraseDups := by
  induction entries using List.reverseRecOn with
  | nil => rfl
  | append_singleton front e ih =>
      rw [List.foldl_append, List.foldl_cons, List.foldl_nil, keys_place, keys_append,
        List.eraseDups_append, ih]
      cases named : key e with
      | none => simp [keys, named]
      | some k =>
          have own : keys key [e] = [k] := by rw [keys_cons, named]; rfl
          by_cases inside : k ∈ keys key front
          · simp [own, inside, List.removeAll]
          · simp [own, inside, List.removeAll, List.eraseDups_cons]

theorem filter_of_count {k : κ} {entries : List ε} (once : (keys key entries).count k = 1) :
    entries.filter (fun e => key e = some k) = (last key k entries).toList := by
  induction entries with
  | nil => cases once
  | cons e rest ih =>
      rw [keys_cons, List.count_append] at once
      by_cases here : key e = some k
      · have absent : k ∉ keys key rest := by
          rw [here, Option.toList_some, List.count_cons_self] at once
          exact List.count_eq_zero.mp (by omega)
        have rest_nil : rest.filter (fun e => key e = some k) = [] := by
          apply List.filter_eq_nil_iff.mpr
          intro e' member named
          exact absent ((mem_keys key).mpr ⟨e', member, of_decide_eq_true named⟩)
        rw [last, (last_eq_none key).mpr absent]
        simp [here, rest_nil]
      · have none : (key e).toList.count k = 0 := by
          cases named : key e with
          | none => rfl
          | some k' =>
              have other : k' ≠ k := fun same => here (by rw [named, same])
              simp [other]
        rw [none, Nat.zero_add] at once
        rw [last]
        simp [here, ih once]

theorem mem_slots {k : κ} {entries : List ε} (member : k ∈ slots key entries) :
    k ∈ keys key entries := by
  induction entries with
  | nil => cases member
  | cons e rest ih =>
      rw [mem_keys_cons]
      unfold slots at member
      cases named : key e with
      | none =>
          rw [named] at member
          exact Or.inr (ih member)
      | some k' =>
          rw [named] at member
          dsimp only at member
          split at member
          · exact Or.inr (ih member)
          · rcases List.mem_cons.mp member with here | later
            · exact Or.inl (by rw [here])
            · exact Or.inr (ih later)

section

variable {fresh : κ → Option ε}

theorem mem_override_iff {e : ε} {entries : List ε} :
    e ∈ override key fresh entries ↔
      (∃ front rest, entries = front ++ e :: rest ∧
        ∀ k, key e = some k → k ∉ keys key rest → fresh k = none) ∨
      ∃ k ∈ keys key entries, fresh k = some e := by
  induction entries with
  | nil => simp [override, keys]
  | cons first rest ih =>
      have split_ : (∃ front back, first :: rest = front ++ e :: back ∧
            ∀ k, key e = some k → k ∉ keys key back → fresh k = none) ↔
          (e = first ∧ ∀ k, key e = some k → k ∉ keys key rest → fresh k = none) ∨
            ∃ front back, rest = front ++ e :: back ∧
              ∀ k, key e = some k → k ∉ keys key back → fresh k = none := by
        constructor
        · rintro ⟨front, back, same, stays⟩
          cases front with
          | nil =>
              cases same
              exact Or.inl ⟨rfl, stays⟩
          | cons x xs =>
              cases same
              exact Or.inr ⟨xs, back, rfl, stays⟩
        · rintro (⟨rfl, stays⟩ | ⟨front, back, rfl, stays⟩)
          · exact ⟨[], rest, rfl, stays⟩
          · exact ⟨first :: front, back, rfl, stays⟩
      have keyed : (∃ k ∈ keys key (first :: rest), fresh k = some e) ↔
          (∃ k, key first = some k ∧ fresh k = some e) ∨ ∃ k ∈ keys key rest, fresh k = some e := by
        constructor
        · rintro ⟨k, inside, given⟩
          exact ((mem_keys_cons key).mp inside).imp (fun here => ⟨k, here, given⟩)
            (fun later => ⟨k, later, given⟩)
        · rintro (⟨k, here, given⟩ | ⟨k, later, given⟩)
          · exact ⟨k, (mem_keys_cons key).mpr (Or.inl here), given⟩
          · exact ⟨k, (mem_keys_cons key).mpr (Or.inr later), given⟩
      rw [override, List.mem_cons, ih, split_, keyed]
      cases named : key first with
      | none =>
          have free : e = first → ∀ k, key e = some k → k ∉ keys key rest → fresh k = none := by
            rintro rfl k same
            rw [named] at same
            cases same
          constructor
          · rintro (here | later | later)
            · exact Or.inl (Or.inl ⟨here, free here⟩)
            · exact Or.inl (Or.inr later)
            · exact Or.inr (Or.inr later)
          · rintro ((⟨here, -⟩ | later) | (⟨k, same, -⟩ | later))
            · exact Or.inl here
            · exact Or.inr (Or.inl later)
            · cases same
            · exact Or.inr (Or.inr later)
      | some k =>
          dsimp only
          by_cases inside : k ∈ keys key rest
          · rw [if_pos inside]
            constructor
            · rintro (here | later | later)
              · refine Or.inl (Or.inl ⟨here, fun k' same absent => ?_⟩)
                rw [here, named, Option.some.injEq] at same
                exact absurd inside (same ▸ absent)
              · exact Or.inl (Or.inr later)
              · exact Or.inr (Or.inr later)
            · rintro ((⟨here, -⟩ | later) | (⟨k', same, given⟩ | later))
              · exact Or.inl here
              · exact Or.inr (Or.inl later)
              · rw [Option.some.injEq] at same
                exact Or.inr (Or.inr ⟨k', same ▸ inside, given⟩)
              · exact Or.inr (Or.inr later)
          · rw [if_neg inside]
            constructor
            · rintro (here | later | later)
              · cases given : fresh k with
                | none =>
                    rw [given] at here
                    refine Or.inl (Or.inl ⟨here, fun k' same _ => ?_⟩)
                    rw [here, Option.getD_none, named, Option.some.injEq] at same
                    exact same ▸ given
                | some e' =>
                    rw [given] at here
                    exact Or.inr (Or.inl ⟨k, rfl, here ▸ given⟩)
              · exact Or.inl (Or.inr later)
              · exact Or.inr (Or.inr later)
            · rintro ((⟨here, stays⟩ | later) | (⟨k', same, given⟩ | later))
              · refine Or.inl ?_
                rw [stays k (here ▸ named) inside]
                exact here
              · exact Or.inr (Or.inl later)
              · rw [Option.some.injEq] at same
                refine Or.inl ?_
                rw [same, given]
                rfl
              · exact Or.inr (Or.inr later)

theorem mem_override {e : ε} {entries : List ε} (member : e ∈ override key fresh entries) :
    e ∈ entries ∨ ∃ k ∈ keys key entries, fresh k = some e := by
  refine ((mem_override_iff key).mp member).imp_left ?_
  rintro ⟨front, rest, rfl, -⟩
  exact List.mem_append_right _ List.mem_cons_self

theorem last_outside (known : List κ) (k : κ) (entries : List ε) :
    last key k (outside key known entries) = if k ∈ known then none else last key k entries := by
  induction entries with
  | nil => simp [outside, last]
  | cons e rest ih =>
      have dropped : outside key known (e :: rest) =
          if (∃ k' ∈ known, key e = some k') then outside key known rest
          else e :: outside key known rest := by
        unfold outside
        rw [List.filter_cons]
        cases named : key e <;> simp
      rw [dropped, last]
      by_cases away : ∃ k' ∈ known, key e = some k'
      · obtain ⟨k', inside, named⟩ := away
        rw [if_pos ⟨k', inside, named⟩, ih, named]
        by_cases same : k' = k
        · simp [same ▸ inside]
        · simp [same]
      · rw [if_neg away, last, ih]
        by_cases inside : k ∈ known
        · have other : key e ≠ some k := fun same => away ⟨k, inside, same⟩
          simp [inside, other]
        · simp [inside]

/-- The entries of a list of distinct keys are those without one and the last of each. -/
theorem mem_of_nodup {e : ε} {entries : List ε} (distinct : (keys key entries).Nodup) :
    e ∈ entries ↔ (e ∈ entries ∧ key e = none) ∨ ∃ k, last key k entries = some e := by
  constructor
  · intro member
    cases named : key e with
    | none => exact Or.inl ⟨member, rfl⟩
    | some k =>
        have once : (keys key entries).count k = 1 :=
          List.count_eq_one_of_mem distinct ((mem_keys key).mpr ⟨e, member, named⟩)
        have alone := filter_of_count key once
        have inside : e ∈ entries.filter (fun e => key e = some k) := by
          simp [member, named]
        rw [alone, Option.mem_toList] at inside
        exact Or.inr ⟨k, inside⟩
  · rintro (⟨member, -⟩ | ⟨k, found⟩)
    · exact member
    · exact (last_mem key found).1

/-- What a merge leaves standing: of the old entries those that no new one replaces, of the
new ones the last of each key, and all without a key. -/
theorem mem_foldl_place_iff {e : ε} {entries out : List ε} :
    e ∈ entries.foldl (place key) out ↔
      (∃ front rest, out = front ++ e :: rest ∧
        ∀ k, key e = some k → k ∈ keys key entries → k ∈ keys key rest) ∨
      (e ∈ entries ∧ key e = none) ∨ ∃ k, last key k entries = some e := by
  have distinct : (keys key ((outside key (keys key out) entries).foldl (place key) [])).Nodup :=
    nodup_keys_foldl_place key List.nodup_nil
  have lasts : ∀ k, last key k ((outside key (keys key out) entries).foldl (place key) []) =
      if k ∈ keys key out then none else last key k entries := by
    intro k
    rw [last_foldl_place, last_outside, last, Option.or_none]
  have unnamed : (e ∈ (outside key (keys key out) entries).foldl (place key) [] ∧ key e = none) ↔
      e ∈ entries ∧ key e = none := by
    constructor
    · rintro ⟨member, none⟩
      rcases mem_foldl_place key member with old | new
      · cases old
      · exact ⟨((mem_outside key).mp new).1, none⟩
    · rintro ⟨member, none⟩
      refine ⟨?_, none⟩
      have stays : e ∈ outside key (keys key out) entries :=
        (mem_outside key).mpr ⟨member, fun k named => by rw [none] at named; cases named⟩
      have kept := outside_foldl_place key
        (fun k (inside : k ∈ keys key (outside key (keys key out) entries)) => inside) ([] : List ε)
      have last_ : e ∈ nameless key (outside key (keys key out) entries) := by
        simp [nameless, stays, none]
      have inside := List.mem_append_right (outside key
        (keys key (outside key (keys key out) entries)) []) last_
      rw [← kept] at inside
      exact ((mem_outside key).mp inside).1
  rw [foldl_place, List.mem_append, mem_override_iff, mem_of_nodup key distinct, unnamed]
  constructor
  · rintro ((⟨front, rest, shape, stays⟩ | ⟨k, -, found⟩) | unkeyed | ⟨k, found⟩)
    · refine Or.inl ⟨front, rest, shape, fun k named new => ?_⟩
      by_contra absent
      exact (last_eq_none key).mp (stays k named absent) new
    · exact Or.inr (Or.inr ⟨k, found⟩)
    · exact Or.inr (Or.inl unkeyed)
    · rw [lasts] at found
      split at found
      · cases found
      · exact Or.inr (Or.inr ⟨k, found⟩)
  · rintro (⟨front, rest, shape, stays⟩ | unkeyed | ⟨k, found⟩)
    · refine Or.inl (Or.inl ⟨front, rest, shape, fun k named absent => ?_⟩)
      exact (last_eq_none key).mpr (fun new => absent (stays k named new))
    · exact Or.inr (Or.inl unkeyed)
    · by_cases old : k ∈ keys key out
      · exact Or.inl (Or.inr ⟨k, old, found⟩)
      · refine Or.inr (Or.inr ⟨k, ?_⟩)
        rw [lasts, if_neg old]
        exact found

/-- A key that stands in the back keeps its entries in the front. -/
theorem override_append (front back : List ε) :
    override key fresh (front ++ back) =
      override key (fun k => if k ∈ keys key back then none else fresh k) front ++
        override key fresh back := by
  induction front with
  | nil => rfl
  | cons e rest ih =>
      rw [List.cons_append, override, ih, override, List.cons_append, keys_append]
      congr 1
      cases key e with
      | none => rfl
      | some k =>
          by_cases behind : k ∈ keys key back
          · simp [behind]
          · simp [behind]

section

variable (shown : ε → Bool)

/-- Of a list of hidden entries an override shows the replacements, slot by slot. -/
theorem filter_override {entries : List ε} (hidden : ∀ e ∈ entries, shown e = false) :
    (override key fresh entries).filter shown =
      (slots key entries).filterMap (fun k => (fresh k).filter shown) := by
  induction entries with
  | nil => rfl
  | cons e rest ih =>
      have later := ih (fun e' member => hidden e' (List.mem_cons_of_mem _ member))
      have here := hidden e List.mem_cons_self
      rw [override, slots]
      cases named : key e with
      | none => simp [here, later]
      | some k =>
          by_cases inside : k ∈ keys key rest
          · simp [inside, here, later]
          · cases found : fresh k with
            | none => simp [inside, found, here, later]
            | some e' => by_cases seen : shown e' <;> simp [inside, found, Option.filter, seen, later]

theorem count_cons_ne {k : κ} {e : ε} {rest : List ε} (other : key e ≠ some k) :
    (keys key ((e :: rest).filter shown)).count k = (keys key (rest.filter shown)).count k := by
  by_cases seen : shown e
  · rw [List.filter_cons_of_pos seen, keys_cons, List.count_append]
    cases named : key e with
    | none => simp
    | some k' =>
        have apart : k' ≠ k := fun equal => other (by rw [named, equal])
        simp [apart]
  · rw [List.filter_cons_of_neg seen]

theorem count_override_none {k : κ} (keeps : Keeps key fresh) {entries : List ε}
    (none : k ∈ keys key entries → fresh k = none) :
    (keys key ((override key fresh entries).filter shown)).count k =
      (keys key (entries.filter shown)).count k := by
  induction entries with
  | nil => rfl
  | cons e rest ih =>
      have later := ih (fun inside => none ((mem_keys_cons key).mpr (Or.inr inside)))
      by_cases here : key e = some k
      · have missing := none ((mem_keys_cons key).mpr (Or.inl here))
        rw [override]
        by_cases inside : k ∈ keys key rest
        · by_cases seen : shown e <;> simp [here, inside, seen, keys_cons, later]
        · by_cases seen : shown e <;> simp [here, inside, missing, seen, keys_cons, later]
      · have other : key _ ≠ some k := (override_key key keeps e rest).trans_ne here
        rw [override, count_cons_ne key shown other, later, count_cons_ne key shown here]

/-- Overriding a key once more hides its last entry and shows the new one. -/
theorem count_override_some {k : κ} (keeps : Keeps key fresh) {entries : List ε} {old new : ε}
    (stood : last key k entries = some old) (given : fresh k = some new) :
    (keys key ((override key fresh entries).filter shown)).count k + (if shown old then 1 else 0) =
      (keys key (entries.filter shown)).count k + (if shown new then 1 else 0) := by
  induction entries with
  | nil => cases stood
  | cons e rest ih =>
      rw [last] at stood
      have named := keeps k new given
      cases later : last key k rest with
      | some behind =>
          rw [later, Option.some_or, Option.some.injEq] at stood
          subst stood
          have inside : k ∈ keys key rest := (last_isSome key).mp (by rw [later]; rfl)
          have rest_counts := ih later
          by_cases here : key e = some k
          · rw [override]
            by_cases seen : shown e
            · simp only [here, inside, ↓reduceIte, List.filter_cons_of_pos seen, keys_cons,
                Option.toList_some, List.count_append, List.count_singleton_self]
              omega
            · simp only [here, inside, ↓reduceIte, List.filter_cons_of_neg seen]
              exact rest_counts
          · have other : key _ ≠ some k := (override_key key keeps e rest).trans_ne here
            rw [override, count_cons_ne key shown other, count_cons_ne key shown here]
            exact rest_counts
      | none =>
          rw [later, Option.none_or] at stood
          by_cases here : key e = some k
          · simp only [here, ↓reduceIte, Option.some.injEq] at stood
            subst stood
            have absent := (last_eq_none key).mp later
            have untouched := count_override_none key shown keeps (k := k)
              (fun inside : k ∈ keys key rest => absurd inside absent)
            rw [override]
            simp only [here, absent, ↓reduceIte, given, Option.getD_some]
            by_cases seen : shown e <;> by_cases seen' : shown new <;>
              simp [seen, seen', keys_cons, here, named, untouched]
          · simp [here] at stood

end

end

section

variable {f : ε → ε}

omit [DecidableEq κ] in
theorem keys_map {δ : Type} {f : ε → δ} {key' : δ → Option κ} (kept : ∀ e, key' (f e) = key e)
    (entries : List ε) : keys key' (entries.map f) = keys key entries := by
  unfold keys
  rw [List.filterMap_map]
  exact List.filterMap_congr (fun e _ => kept e)

theorem last_map {δ : Type} {f : ε → δ} {key' : δ → Option κ} (kept : ∀ e, key' (f e) = key e)
    (k : κ) (entries : List ε) : last key' k (entries.map f) = (last key k entries).map f := by
  induction entries with
  | nil => rfl
  | cons e rest ih =>
      rw [List.map_cons, last, last, ih, kept]
      cases last key k rest with
      | some e' => rfl
      | none => by_cases here : key e = some k <;> simp [here]

theorem outside_map (kept : ∀ e, key (f e) = key e) (known : List κ) (entries : List ε) :
    outside key known (entries.map f) = (outside key known entries).map f := by
  unfold outside
  rw [List.filter_map]
  congr 1
  apply List.filter_congr
  intro e _
  rw [Function.comp_apply, kept]

theorem slots_map (kept : ∀ e, key (f e) = key e) (entries : List ε) :
    slots key (entries.map f) = slots key entries := by
  induction entries with
  | nil => rfl
  | cons e rest ih => rw [List.map_cons, slots, slots, ih, kept, keys_map key kept]

/-- Entries and replacements that look alike leave lists that look alike. -/
theorem override_map {β : Type} {view : ε → β} (kept : ∀ e, key (f e) = key e)
    (seen : ∀ e, view (f e) = view e) {g h : κ → Option ε}
    (alike : ∀ k, (g k).map view = (h k).map view) (entries : List ε) :
    (override key g (entries.map f)).map view = (override key h entries).map view := by
  induction entries with
  | nil => rfl
  | cons e rest ih =>
      rw [List.map_cons, override, override, List.map_cons, List.map_cons, ih, kept,
        keys_map key kept]
      congr 1
      cases key e with
      | none => exact seen e
      | some k =>
          by_cases inside : k ∈ keys key rest
          · simp [inside, seen]
          · have same := alike k
            simp only [inside, ↓reduceIte]
            cases left : g k with
            | none =>
                cases right : h k with
                | none => exact seen e
                | some e' => simp [left, right] at same
            | some e' =>
                cases right : h k with
                | none => simp [left, right] at same
                | some e'' => simpa [left, right] using same

end

section

variable {δ μ : Type} [DecidableEq μ] {key} {key' : δ → Option μ} {f : ε → δ} {g : κ → μ}

/-- The image of an entry has the image of its key. -/
def Carries (key : ε → Option κ) (key' : δ → Option μ) (f : ε → δ) (g : κ → μ) (entries : List ε) :
    Prop := ∀ e ∈ entries, key' (f e) = (key e).map g

omit [DecidableEq κ] [DecidableEq μ] in
theorem Carries.keys {entries : List ε} (carries : Carries key key' f g entries) :
    keys key' (entries.map f) = (keys key entries).map g := by
  unfold Keyed.keys
  rw [List.filterMap_map, List.map_filterMap]
  exact List.filterMap_congr carries

theorem Carries.replaceLast (injective : Function.Injective g) (k : κ) (entry : ε) {entries : List ε}
    (carries : Carries key key' f g entries) :
    Keyed.replaceLast key' (g k) (f entry) (entries.map f) =
      (Keyed.replaceLast key k entry entries).map f := by
  induction entries with
  | nil => rfl
  | cons e rest ih =>
      have later : Carries key key' f g rest := fun e' member => carries e' (List.mem_cons_of_mem _ member)
      have here : (key' (f e) = some (g k) ∧ g k ∉ Keyed.keys key' (rest.map f)) ↔
          (key e = some k ∧ k ∉ Keyed.keys key rest) := by
        rw [later.keys, List.mem_map_of_injective injective, carries e List.mem_cons_self]
        simp [injective.eq_iff]
      rw [List.map_cons, Keyed.replaceLast, Keyed.replaceLast]
      by_cases stands : key e = some k ∧ k ∉ Keyed.keys key rest
      · rw [if_pos stands, if_pos (here.mpr stands), List.map_cons]
      · rw [if_neg stands, if_neg (fun same => stands (here.mp same)), List.map_cons, ih later]

theorem Carries.place (injective : Function.Injective g) {out : List ε} {entry : ε}
    (carries : Carries key key' f g (entry :: out)) :
    place key' (out.map f) (f entry) = (place key out entry).map f := by
  have later : Carries key key' f g out := fun e member => carries e (List.mem_cons_of_mem _ member)
  unfold Keyed.place
  rw [carries entry List.mem_cons_self]
  cases named : key entry with
  | none => simp
  | some k =>
      have same : g k ∈ Keyed.keys key' (out.map f) ↔ k ∈ Keyed.keys key out := by
        rw [later.keys, List.mem_map_of_injective injective]
      dsimp only [Option.map_some]
      by_cases inside : k ∈ Keyed.keys key out
      · rw [if_pos inside, if_pos (same.mpr inside), later.replaceLast injective]
      · rw [if_neg inside, if_neg (fun member => inside (same.mp member)), List.map_append,
          List.map_singleton]

/-- A merge of images is the image of the merge. -/
theorem Carries.foldl_place (injective : Function.Injective g) {entries : List ε} :
    ∀ {out : List ε}, Carries key key' f g (out ++ entries) →
      (entries.map f).foldl (Keyed.place key') (out.map f) = (entries.foldl (Keyed.place key) out).map f := by
  induction entries with
  | nil => exact fun _ => rfl
  | cons e rest ih =>
      intro out carries
      have here : Carries key key' f g (e :: out) := by
        intro e' member
        apply carries e'
        rcases List.mem_cons.mp member with rfl | old
        · exact List.mem_append_right _ List.mem_cons_self
        · exact List.mem_append_left _ old
      rw [List.map_cons, List.foldl_cons, List.foldl_cons, here.place injective]
      apply ih
      intro e' member
      rcases List.mem_append.mp member with placed | later
      · have known := @mem_foldl_place _ _ key _ e' [e] out placed
        apply carries e'
        rcases known with old | new
        · exact List.mem_append_left _ old
        · exact List.mem_append_right _ (List.mem_singleton.mp new ▸ List.mem_cons_self)
      · exact carries e' (List.mem_append_right _ (List.mem_cons_of_mem _ later))

end

end Keyed
