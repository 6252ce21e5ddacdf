import DevGate.Coherence.CacheErrors
import DevGate.Coherence.CanonFaithful
import DevGate.Coherence.EvidenceSeal

set_option autoImplicit false

/- Which identities have one key. -/
namespace DevGate.Cache

open Py Canon

/-! The key. -/

theorem memberText_ok {name t : Str} {v : Value} :
    memberText name v = .ok t ↔ v = .str t ∧ t ≠ [] := by
  constructor
  · intro ran
    unfold memberText at ran
    split at ran
    · cases ran
      exact ⟨rfl, List.cons_ne_nil _ _⟩
    · cases ran
  · rintro ⟨rfl, some_⟩
    cases t with
    | nil => exact absurd rfl some_
    | cons c rest => rfl

theorem memberTexts_ok {name : Str} {vs : List Value} {ts : List Str} :
    vs.mapM (memberText name) = .ok ts ↔ vs = ts.map .str ∧ ∀ t ∈ ts, t ≠ [] := by
  induction vs generalizing ts with
  | nil => cases ts <;> simp [pure, Except.pure]
  | cons v vs ih =>
      rw [List.mapM_cons]
      constructor
      · intro ran
        obtain ⟨t, first, ran⟩ := bind_ok.mp ran
        obtain ⟨rest, later, ran⟩ := bind_ok.mp ran
        cases ran
        obtain ⟨rfl, some_⟩ := memberText_ok.mp first
        obtain ⟨rfl, each⟩ := ih.mp later
        exact ⟨rfl, List.forall_mem_cons.mpr ⟨some_, each⟩⟩
      · rintro ⟨same, each⟩
        cases ts with
        | nil => cases same
        | cons t ts =>
            rw [List.map_cons, List.cons.injEq] at same
            rw [List.forall_mem_cons] at each
            rw [memberText_ok.mpr ⟨same.1, each.1⟩, ok_bind, ih.mpr ⟨same.2, each.2⟩]
            rfl

/-- A component of a complete key: a list of texts, or a text. -/
inductive Component (material : Dict Str Value) (comp : Str) : Value → Prop where
  | texts {ts : List Str} (listed : comp ∈ listComponents)
      (held : Dict.get? material comp = some (.list (ts.map .str))) (each : ∀ t ∈ ts, t ≠ []) :
      Component material comp (.list ((Str.sorted ts).map .str))
  | text {t : Str} (other : comp ∉ listComponents)
      (held : Dict.get? material comp = some (.str t)) (some_ : t ≠ []) :
      Component material comp (.str t)

theorem boundComponent_iff {material : Dict Str Value} {comp name : Str} {v : Value} :
    boundComponent material comp = .ok (name, v) ↔ name = comp ∧ Component material comp v := by
  constructor
  · intro ran
    unfold boundComponent at ran
    cases found : Dict.get? material comp with
    | none =>
        rw [found] at ran
        cases ran
    | some held =>
        rw [found, Option.getD_some] at ran
        by_cases listed : comp ∈ listComponents
        · split at ran
          · cases ran
          · rw [if_pos listed] at ran
            obtain ⟨texts, normal, ran⟩ := bind_ok.mp ran
            cases ran
            unfold normList at normal
            split at normal
            · rw [if_neg (by simp)] at normal
              obtain ⟨ts, read, normal⟩ := bind_ok.mp normal
              cases normal
              obtain ⟨rfl, each⟩ := memberTexts_ok.mp read
              exact ⟨rfl, .texts listed found each⟩
            · cases normal
        · split at ran
          · cases ran
          · rw [if_neg listed] at ran
            split at ran
            · cases ran
              exact ⟨rfl, .text listed found (List.cons_ne_nil _ _)⟩
            · cases ran
  · rintro ⟨rfl, bound⟩
    unfold boundComponent
    cases bound with
    | @texts ts listed held each =>
        rw [held, Option.getD_some]
        dsimp only
        rw [if_pos listed, normList, if_neg (by simp), memberTexts_ok.mpr ⟨rfl, each⟩]
        rfl
    | @text t other held some_ =>
        rw [held, Option.getD_some]
        dsimp only
        rw [if_neg other]
        cases t with
        | nil => exact absurd rfl some_
        | cons c rest => rfl

/-- Two identities agree in a component, lists up to their order. -/
def SameComponent (a b : Dict Str Value) (comp : Str) : Prop :=
  if comp ∈ listComponents then
    ∃ ts us : List Str, Dict.get? a comp = some (.list (ts.map .str)) ∧
      Dict.get? b comp = some (.list (us.map .str)) ∧ ts.Perm us
  else Dict.get? a comp = Dict.get? b comp

/-- Every bound component of the two identities is the same. -/
def SameIdentity (v w : Value) : Prop :=
  ∃ a b, v = .dict a ∧ w = .dict b ∧ ∀ comp ∈ components, SameComponent a b comp

theorem mapM_mono {α β : Type} {f g : α → Except Exc β} {xs : List α} {ys : List β}
    (agree : ∀ x ∈ xs, ∀ y, f x = .ok y → g x = .ok y) (ran : xs.mapM f = .ok ys) :
    xs.mapM g = .ok ys := by
  induction xs generalizing ys with
  | nil => exact ran
  | cons x xs ih =>
      rw [List.forall_mem_cons] at agree
      rw [List.mapM_cons] at ran ⊢
      obtain ⟨y, first, ran⟩ := bind_ok.mp ran
      obtain ⟨rest, later, ran⟩ := bind_ok.mp ran
      rw [agree.1 y first, ok_bind, ih agree.2 later, ok_bind]
      exact ran

theorem map_str_injective : Function.Injective (List.map Value.str) :=
  List.map_injective_iff.mpr (fun _ _ same => Value.str.inj same)

theorem SameComponent.bound {a b : Dict Str Value} {comp : Str} {v : Value}
    (same : SameComponent a b comp) (bound : Component a comp v) : Component b comp v := by
  unfold SameComponent at same
  cases bound with
  | @texts ts listed held each =>
      rw [if_pos listed] at same
      obtain ⟨ts', us, first, second, perm⟩ := same
      rw [held, Option.some.injEq, Value.list.injEq] at first
      cases map_str_injective first
      rw [Str.sorted_eq_iff.mpr perm]
      exact .texts listed second (fun t inside => each t (perm.mem_iff.mpr inside))
  | @text t other held some_ =>
      rw [if_neg other, held] at same
      exact .text other same.symm some_

/-- The key does not depend on the order of the lists, nor on other members. -/
theorem SameIdentity.key {v w : Value} {k : Str} (same : SameIdentity v w)
    (formed : Cache.key v = .ok k) : Cache.key w = .ok k := by
  obtain ⟨a, b, rfl, rfl, each⟩ := same
  unfold Cache.key at formed ⊢
  obtain ⟨bound, ran, digested⟩ := bind_ok.mp formed
  refine bind_ok.mpr ⟨bound, mapM_mono ?_ ran, digested⟩
  rintro comp listed ⟨name, v⟩ here
  obtain ⟨rfl, held⟩ := boundComponent_iff.mp here
  exact boundComponent_iff.mpr ⟨rfl, (each _ listed).bound held⟩

theorem key_dict {v : Value} {k : Str} (formed : key v = .ok k) :
    ∃ kvs, v = .dict kvs ∧ ∀ comp ∈ components, ∃ bound, Component kvs comp bound := by
  unfold key at formed
  split at formed
  · rename_i kvs
    refine ⟨kvs, rfl, fun comp listed => ?_⟩
    obtain ⟨⟨name, bound⟩, ran⟩ := components_bound (k := k) formed comp listed
    exact ⟨bound, (boundComponent_iff.mp ran).2⟩
  · cases formed

theorem key_digest {v : Value} {k : Str} (formed : key v = .ok k) :
    ∃ payload, k = digest .context payload := by
  unfold key at formed
  split at formed
  · obtain ⟨bound, -, formed⟩ := bind_ok.mp formed
    obtain ⟨payload, -, formed⟩ := bind_ok.mp formed
    cases formed
    exact ⟨payload, rfl⟩
  · cases formed

theorem slash_digest (tag : RoleTag) (payload : Bytes) : Chr.ofChar '/' ∉ digest tag payload := by
  intro inside
  rcases List.mem_append.mp inside with early | late
  · exact absurd early (by decide)
  · exact (Evidence.mem_hexDigits (mem_sha256 late)).2 rfl

/-- The object that is hashed. -/
def keyObject (bound : List (Str × Value)) : Dict Str Value := ("kind", .str "cache-key/v1") :: bound

/-- What the key of an identity hashes. -/
def keyPayload (material : Value) : Except Exc Bytes :=
  match material with
  | .dict kvs => do
      let bound ← components.mapM (boundComponent kvs)
      canon (.dict (keyObject bound))
  | _ => .error ⟨cacheError, ["cache-material-must-be-an-object"]⟩

theorem key_payload {m : Value} {k : Str} :
    key m = .ok k ↔ ∃ payload, keyPayload m = .ok payload ∧ k = digest .context payload := by
  unfold key keyPayload
  split
  · constructor
    · intro formed
      obtain ⟨bound, ran, formed⟩ := bind_ok.mp formed
      obtain ⟨payload, encoded, formed⟩ := bind_ok.mp formed
      cases formed
      exact ⟨payload, bind_ok.mpr ⟨bound, ran, encoded⟩, rfl⟩
    · rintro ⟨payload, formed, rfl⟩
      obtain ⟨bound, ran, encoded⟩ := bind_ok.mp formed
      exact bind_ok.mpr ⟨bound, ran, bind_ok.mpr ⟨payload, encoded, rfl⟩⟩
  · simp

theorem bound_names {kvs : Dict Str Value} {comps : List Str} {bound : List (Str × Value)}
    (ran : comps.mapM (boundComponent kvs) = .ok bound) : bound.map Prod.fst = comps := by
  induction comps generalizing bound with
  | nil =>
      cases ran
      rfl
  | cons comp comps ih =>
      rw [List.mapM_cons] at ran
      obtain ⟨⟨name, v⟩, here, ran⟩ := bind_ok.mp ran
      obtain ⟨rest, later, ran⟩ := bind_ok.mp ran
      cases ran
      rw [List.map_cons, ih later, (boundComponent_iff.mp here).1]

/-- What the key hashes names every component, and is clean. -/
structure Bound (kvs : Dict Str Value) (bound : List (Str × Value)) : Prop where
  names : bound.map Prod.fst = components
  each : ∀ kv ∈ bound, Component kvs kv.1 kv.2

theorem bound_of_mapM {kvs : Dict Str Value} {bound : List (Str × Value)}
    (ran : components.mapM (boundComponent kvs) = .ok bound) : Bound kvs bound := by
  refine ⟨bound_names ran, fun kv inside => ?_⟩
  obtain ⟨comp, -, here⟩ := (mapM_members ran).2 kv inside
  obtain ⟨named, held⟩ := boundComponent_iff.mp here
  rw [named]
  exact held

theorem Component.clean {kvs : Dict Str Value} {comp : Str} {v : Value} (clean : Json.Clean (.dict kvs))
    (bound : Component kvs comp v) : Json.Clean v := by
  have inner : ∀ w, Dict.get? kvs comp = some w → Json.Clean w := by
    intro w held
    cases clean with
    | dict distinct keys each => exact each (comp, w) (Dict.mem_of_get? held)
  cases bound with
  | @texts ts listed held each =>
      cases inner _ held with
      | list members =>
          apply Json.Clean.list
          intro v inside
          obtain ⟨t, sorted, rfl⟩ := List.mem_map.mp inside
          exact members _ (List.mem_map_of_mem ((Str.perm_sorted ts).mem_iff.mp sorted))
  | @text t other held some_ => exact inner _ held

theorem Component.canonical {kvs : Dict Str Value} {comp : Str} {v : Value}
    (bound : Component kvs comp v) : Json.canonical v = v := by
  cases bound with
  | texts listed held each =>
      rw [Json.canonical, Json.canonicalList_eq_map, List.map_map]
      rfl
  | text other held some_ => rfl

/-- Where a component comes out the same, the identities agree in it. -/
theorem Component.same {a b : Dict Str Value} {comp : Str} {v : Value} (first : Component a comp v)
    (second : Component b comp v) : SameComponent a b comp := by
  unfold SameComponent
  generalize shared : v = w at second
  cases first with
  | @texts ts listed held each =>
      rw [if_pos listed]
      cases second with
      | @texts us listed' held' each' =>
          rw [Value.list.injEq] at shared
          exact ⟨ts, us, held, held', Str.sorted_eq_iff.mp (map_str_injective shared)⟩
      | text other held' some_ => exact absurd listed other
  | @text t other held some_ =>
      rw [if_neg other]
      cases second with
      | texts listed' held' each' => exact absurd listed' other
      | text other' held' some' => rw [held, held', shared]

theorem Bound.distinct {kvs : Dict Str Value} {bound : List (Str × Value)} (members : Bound kvs bound) :
    ((keyObject bound).map Prod.fst).Nodup := by
  rw [keyObject, List.map_cons, members.names]
  decide

theorem Bound.clean {kvs : Dict Str Value} {bound : List (Str × Value)} (members : Bound kvs bound)
    (clean : Json.Clean (.dict kvs)) :
    Json.Clean (.dict (keyObject bound)) := by
  have tidy : ∀ s : Str, s.all (fun c => 0x20 ≤ c.val && c.val ≤ 0x7e) = true → Json.Tidy s :=
    fun s all => (Json.printable_of_all all).tidy
  have named : ∀ comp ∈ components,
      comp.all (fun c => 0x20 ≤ c.val && c.val ≤ 0x7e) = true := by decide
  apply Json.Clean.dict members.distinct
  · rw [keyObject, List.forall_mem_cons]
    refine ⟨tidy _ (by decide), fun kv inside => tidy _ (named _ ?_)⟩
    rw [← members.names]
    exact List.mem_map_of_mem inside
  · rw [keyObject, List.forall_mem_cons]
    exact ⟨.str (tidy _ (by decide)), fun kv inside => (members.each kv inside).clean clean⟩

theorem Bound.get {kvs : Dict Str Value} {bound : List (Str × Value)} (members : Bound kvs bound)
    {comp : Str} (listed : comp ∈ components) :
    ∃ v, Dict.get? (keyObject bound) comp = some v ∧ Component kvs comp v := by
  have other : ∀ comp ∈ components, ("kind" : Str) ≠ comp := by decide
  have distinct : (bound.map Prod.fst).Nodup := by
    rw [members.names]
    decide
  rw [← members.names] at listed
  obtain ⟨⟨name, v⟩, inside, rfl⟩ := List.mem_map.mp listed
  rw [members.names] at listed
  refine ⟨v, ?_, members.each _ inside⟩
  rw [keyObject, Dict.get?_cons, if_neg (other _ listed)]
  exact Dict.get?_of_mem distinct inside

/-- Two complete identities have one key exactly when every component is the same, lists up to
their order. -/
theorem key_eq_iff {v w : Value} {k k' : Str} (formed : key v = .ok k) (formed' : key w = .ok k')
    (clean : Json.Clean v) (clean' : Json.Clean w)
    (separates : ∀ a b, keyPayload v = .ok a → keyPayload w = .ok b →
      Separates (preimage .context a) (preimage .context b)) : k = k' ↔ SameIdentity v w := by
  constructor
  · rintro rfl
    obtain ⟨a, hashed, same⟩ := key_payload.mp formed
    obtain ⟨b, hashed', same'⟩ := key_payload.mp formed'
    have equal : a = b := digest_injective (separates a b hashed hashed') (same.symm.trans same')
    obtain ⟨kvs, rfl, -⟩ := key_dict formed
    obtain ⟨kvs', rfl, -⟩ := key_dict formed'
    obtain ⟨bound, ran, encoded⟩ := bind_ok.mp hashed
    obtain ⟨bound', ran', encoded'⟩ := bind_ok.mp hashed'
    have members := bound_of_mapM ran
    have members' := bound_of_mapM ran'
    have one := (canon_injective encoded encoded' (members.clean clean) (members'.clean clean')).mp equal
    refine ⟨kvs, kvs', rfl, rfl, fun comp listed => ?_⟩
    obtain ⟨x, held, here⟩ := members.get listed
    obtain ⟨y, held', there⟩ := members'.get listed
    have agree : x = y := by
      have distinct : ((keyObject bound').map Prod.fst).Nodup := members'.distinct
      obtain ⟨found, looked, reads, -⟩ := (members.clean clean).get distinct one comp
      rw [Value.get_dict, held, Except.ok.injEq] at looked
      rw [← looked, held', Option.map_some, Option.map_some, Option.some.injEq, here.canonical,
        there.canonical] at reads
      exact reads
    rw [← agree] at there
    exact here.same there
  · intro same
    have again := same.key formed
    rw [formed', Except.ok.injEq] at again
    exact again.symm

/-- An identity with two facts. -/
def factMaterial (first second : Str) : Dict Str Value :=
  [("subject_digest", .str "s"), ("package_digest", .str "p"), ("policy_digest", .str "q"),
    ("context_digest", .str "c"), ("evaluator_image_digest", .str "e"), ("plugin_digests", .list []),
    ("captured_fact_digests", .list [.str first, .str second])]

theorem factMaterial_clean {first second : Str}
    (plain : first.all (fun c => 0x20 ≤ c.val && c.val ≤ 0x7e) = true ∧
      second.all (fun c => 0x20 ≤ c.val && c.val ≤ 0x7e) = true) :
    Json.Clean (.dict (factMaterial first second)) := by
  have tidy : ∀ s : Str, s.all (fun c => 0x20 ≤ c.val && c.val ≤ 0x7e) = true → Json.Tidy s :=
    fun s all => (Json.printable_of_all all).tidy
  unfold factMaterial
  apply Json.Clean.dict (by simp only [List.map_cons, List.map_nil]; decide)
  · simp only [List.forall_mem_cons]
    exact ⟨tidy _ (by decide), tidy _ (by decide), tidy _ (by decide), tidy _ (by decide),
      tidy _ (by decide), tidy _ (by decide), tidy _ (by decide), nofun⟩
  · simp only [List.forall_mem_cons]
    refine ⟨.str (tidy _ (by decide)), .str (tidy _ (by decide)), .str (tidy _ (by decide)),
      .str (tidy _ (by decide)), .str (tidy _ (by decide)), .list nofun, .list ?_, nofun⟩
    simp only [List.forall_mem_cons]
    exact ⟨.str (tidy _ plain.1), .str (tidy _ plain.2), nofun⟩

/-- Facts that are listed the other way round have the same key. -/
theorem key_eq_iff_facts : ∃ k k', key (.dict (factMaterial "b" "a")) = .ok k ∧
    key (.dict (factMaterial "a" "b")) = .ok k' ∧
    (k = k' ↔ SameIdentity (.dict (factMaterial "b" "a")) (.dict (factMaterial "a" "b"))) := by
  have same : keyPayload (.dict (factMaterial "b" "a")) = keyPayload (.dict (factMaterial "a" "b")) :=
    rfl
  have formed : ∃ k, key (.dict (factMaterial "b" "a")) = .ok k := ⟨_, rfl⟩
  have formed' : ∃ k, key (.dict (factMaterial "a" "b")) = .ok k := ⟨_, rfl⟩
  obtain ⟨k, formed⟩ := formed
  obtain ⟨k', formed'⟩ := formed'
  refine ⟨k, k', formed, formed', key_eq_iff formed formed'
    (factMaterial_clean ⟨by decide, by decide⟩) (factMaterial_clean ⟨by decide, by decide⟩) ?_⟩
  intro a b hashed hashed' _
  rw [same, hashed', Except.ok.injEq] at hashed
  rw [hashed]

end DevGate.Cache
