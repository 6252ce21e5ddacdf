import DevGate.Coherence.AdoptionExplained
import DevGate.Coherence.AdoptionSets

set_option autoImplicit false

/- When a fingerprint string determines its four components, and what the ladder
shelters where it does not. -/
namespace DevGate.Adoption

open Py Evaluate

def pipe : Chr := Chr.ofChar '|'

def versionTag (version : Int) : Str := Chr.ofChar 'v' :: Str.ofInt version

theorem versionTag_injective : Function.Injective versionTag := by
  intro m n same
  exact Str.ofInt_injective (List.cons.inj same).2

theorem pipe_not_mem_versionTag (version : Int) : pipe ∉ versionTag version := by
  unfold versionTag
  rw [List.mem_cons, not_or]
  exact ⟨by decide, Str.not_mem_ofInt version '|' (by decide) (by decide)⟩

theorem fingerprint_eq (fp : Fingerprint) :
    fingerprint fp = fp.assertionId ++ [pipe] ++ versionTag fp.assertionVersion ++ [pipe] ++
      fp.subjectLocation ++ [pipe] ++ fp.violationKey := by
  simp only [fingerprint, Str.join, versionTag, pipe, List.append_assoc]

/-- A fingerprint string from segments of the id and of the location. -/
theorem fingerprint_join (ids locations : List Str) (someIds : ids ≠ [])
    (someLocations : locations ≠ []) (version : Int) (key : Str) :
    fingerprint ⟨Str.join [pipe] ids, version, Str.join [pipe] locations, key⟩ =
      Str.join [pipe] (ids ++ versionTag version :: (locations ++ [key])) := by
  rw [fingerprint_eq, Str.join_append _ _ _ someIds (by simp), Str.join_cons _ _ _ (by simp),
    Str.join_append _ _ _ someLocations (by simp)]
  simp only [Str.join, List.append_assoc]

theorem split_fingerprint (fp : Fingerprint) :
    Str.split pipe (fingerprint fp) = Str.split pipe fp.assertionId ++
      versionTag fp.assertionVersion ::
        (Str.split pipe fp.subjectLocation ++ Str.split pipe fp.violationKey) := by
  have tag := Str.split_of_not_mem pipe _ (pipe_not_mem_versionTag fp.assertionVersion)
  have joined := Str.split_join pipe [fp.assertionId, versionTag fp.assertionVersion,
    fp.subjectLocation, fp.violationKey] (by simp)
  simp only [List.flatMap_cons, List.flatMap_nil, tag, List.append_nil, List.singleton_append]
    at joined
  exact joined

/-- The components cannot be read any other way: no separator in the location or
the class, and no later segment of the id that looks like a version. -/
structure Unambiguous (fp : Fingerprint) : Prop where
  location : pipe ∉ fp.subjectLocation
  key : pipe ∉ fp.violationKey
  id : ∀ version, 1 ≤ version → versionTag version ∉ (Str.split pipe fp.assertionId).tail

/-- An unambiguous fingerprint string is that of one fingerprint. -/
theorem Unambiguous.eq {fp fp' : Fingerprint} (clear : Unambiguous fp)
    (numbered : 1 ≤ fp'.assertionVersion) (same : fingerprint fp' = fingerprint fp) : fp' = fp := by
  have segments := congrArg (Str.split pipe) same
  rw [split_fingerprint, split_fingerprint, Str.split_of_not_mem _ _ clear.location,
    Str.split_of_not_mem _ _ clear.key] at segments
  have someId := List.length_pos_iff.mpr (Str.split_ne_nil pipe fp'.assertionId)
  have someLocation := List.length_pos_iff.mpr (Str.split_ne_nil pipe fp'.subjectLocation)
  have someKey := List.length_pos_iff.mpr (Str.split_ne_nil pipe fp'.violationKey)
  have total := congrArg List.length segments
  simp only [List.length_append, List.length_cons, List.length_nil] at total
  have longId : (Str.split pipe fp.assertionId).length ≤
      (Str.split pipe fp'.assertionId).length := by
    by_contra shorter
    -- the version of `fp'` would stand inside the id of `fp`
    have inside : (Str.split pipe fp'.assertionId).length <
        (Str.split pipe fp.assertionId).length := by omega
    have there := congrArg (fun l => l[(Str.split pipe fp'.assertionId).length]?) segments
    simp only [List.getElem?_append_right (Nat.le_refl _), Nat.sub_self, List.getElem?_cons_zero,
      List.getElem?_append_left inside] at there
    apply clear.id fp'.assertionVersion numbered
    obtain ⟨head, tail, pieces⟩ := List.exists_cons_of_ne_nil (Str.split_ne_nil pipe fp.assertionId)
    obtain ⟨n, position⟩ := Nat.exists_eq_add_of_lt someId
    rw [pieces, position, Nat.zero_add, List.getElem?_cons_succ] at there
    rw [pieces, List.tail_cons]
    exact List.mem_of_getElem? there.symm
  have sameId : (Str.split pipe fp'.assertionId).length =
      (Str.split pipe fp.assertionId).length := by omega
  obtain ⟨ids, rest⟩ := List.append_inj segments sameId
  obtain ⟨tags, rest⟩ := List.cons.inj rest
  have oneLocation : (Str.split pipe fp'.subjectLocation).length =
      [fp.subjectLocation].length := by
    rw [List.length_singleton]
    omega
  obtain ⟨locations, keys⟩ := List.append_inj rest oneLocation
  rw [← Str.split_of_not_mem _ _ clear.location] at locations
  rw [← Str.split_of_not_mem _ _ clear.key] at keys
  have sameIdText := Str.split_injective pipe ids
  have sameVersion := versionTag_injective tags
  have sameLocation := Str.split_injective pipe locations
  have sameKey := Str.split_injective pipe keys
  cases fp
  cases fp'
  simp_all

/-- An ambiguous fingerprint string is also that of another fingerprint. -/
theorem exists_other (fp : Fingerprint) (numbered : 1 ≤ fp.assertionVersion)
    (ambiguous : ¬ Unambiguous fp) :
    ∃ fp', fp' ≠ fp ∧ 1 ≤ fp'.assertionVersion ∧ fingerprint fp' = fingerprint fp := by
  by_cases location : pipe ∈ fp.subjectLocation
  · obtain ⟨front, back, cut⟩ := List.append_of_mem location
    refine ⟨{ fp with subjectLocation := front, violationKey := back ++ pipe :: fp.violationKey },
      ?_, numbered, ?_⟩
    · intro same
      have lengths := congrArg (fun x => x.subjectLocation.length) same
      simp only [cut, List.length_append, List.length_cons] at lengths
      omega
    · rw [fingerprint_eq, fingerprint_eq, cut]
      simp
  · by_cases key : pipe ∈ fp.violationKey
    · obtain ⟨front, back, cut⟩ := List.append_of_mem key
      refine ⟨{ fp with
          subjectLocation := fp.subjectLocation ++ pipe :: front, violationKey := back },
        ?_, numbered, ?_⟩
      · intro same
        have lengths := congrArg (fun x => x.subjectLocation.length) same
        simp only [List.length_append, List.length_cons] at lengths
        omega
      · rw [fingerprint_eq, fingerprint_eq, cut]
        simp
    · have tagged : ∃ version, 1 ≤ version ∧
          versionTag version ∈ (Str.split pipe fp.assertionId).tail := by
        by_contra none'
        refine ambiguous ⟨location, key, ?_⟩
        intro version positive member
        exact none' ⟨version, positive, member⟩
      obtain ⟨version, positive, member⟩ := tagged
      obtain ⟨head, tail, pieces⟩ := List.exists_cons_of_ne_nil
        (Str.split_ne_nil pipe fp.assertionId)
      rw [pieces, List.tail_cons] at member
      obtain ⟨middle, back, rfl⟩ := List.append_of_mem member
      have free : ∀ piece ∈ head :: middle, pipe ∉ piece := by
        intro piece inside
        apply Str.not_mem_of_mem_split pipe fp.assertionId
        rw [pieces, ← List.cons_append]
        exact List.mem_append_left _ inside
      refine ⟨⟨Str.join [pipe] (head :: middle), version,
        Str.join [pipe] (back ++ [versionTag fp.assertionVersion, fp.subjectLocation]),
        fp.violationKey⟩, ?_, positive, ?_⟩
      · intro same
        have ids := congrArg (fun x => (Str.split pipe x.assertionId).length) same
        simp only [Str.split_join_of_not_mem pipe _ (List.cons_ne_nil _ _) free, pieces,
          List.length_cons, List.length_append] at ids
        omega
      · have whole : fp = ⟨Str.join [pipe] ((head :: middle) ++ versionTag version :: back),
            fp.assertionVersion, Str.join [pipe] [fp.subjectLocation], fp.violationKey⟩ := by
          rw [List.cons_append, ← pieces, Str.join_split]
          rfl
        conv_rhs => rw [whole]
        rw [fingerprint_join _ _ (by simp) (by simp), fingerprint_join _ _ (by simp) (by simp)]
        simp only [List.append_assoc, List.cons_append, List.nil_append]

/-- Whatever the ladder shelters as named debt or under an exception, an open
baseline entry or an active exception names in all four components. -/
def ShelterNamed (planned : List Planned) (findings : List Finding) (baseline : List BaselineEntry)
    (exceptions : List ExceptionRecord) (now : Datetime) (out : Report) : Prop :=
  ∀ (i : Nat) (f g : Finding), findings[i]? = some f → out.findings[i]? = some g →
    (g.enforcement = .advisory → ∃ b ∈ baseline, b.isOpen = true ∧
      b.fingerprint = components (versions planned) f) ∧
    (g.enforcement = .exceptionAdvisory → ∃ ex ∈ exceptions, past now ex = .ok false ∧
      ex.findingFingerprint = components (versions planned) f)

/-- At the enforced stages a sheltered finding has its fingerprint string on a list. -/
theorem verdict_sheltered (ctx : Context) (f : Finding) (enforced : 2 ≤ ctx.stage) :
    (verdict ctx f = .advisory → fingerprint (components ctx.versions f) ∈ ctx.baseline) ∧
      (verdict ctx f = .exceptionAdvisory →
        (Dict.get? ctx.exceptions.active
          (fingerprint (components ctx.versions f))).isSome = true) := by
  have late : ¬ ctx.stage < 2 := by omega
  unfold verdict
  simp only [late, ↓reduceIte]
  split
  · simp
  · split
    · rename_i active
      simp [active]
    · split
      · rename_i sheltered
        simp [sheltered]
      · simp

theorem components_numbered (planned : List Planned)
    (numbered : ∀ a ∈ planned, 1 ≤ a.version.getD 1) (f : Finding) :
    1 ≤ (components (versions planned) f).assertionVersion := by
  unfold components
  dsimp only
  cases found : Dict.get? (versions planned) f.assertionId with
  | none => simp
  | some version =>
      unfold versions at found
      rw [Dict.get?_ofPairs] at found
      have member := List.mem_reverse.mp (Dict.mem_of_get? found)
      obtain ⟨a, inside, same⟩ := List.mem_map.mp member
      have one := numbered a inside
      rw [Prod.mk.injEq] at same
      rw [Option.getD_some, ← same.2]
      exact one

def openDebt (fp : Fingerprint) : BaselineEntry := ⟨fp, some "low", some "open"⟩

/-- The ratchet with no severity floors. -/
def floorless : Ladder := { ratchet with severityFloor := [] }

/-- A debt entry for another fingerprint shelters an ambiguous finding. -/
theorem ambiguous_sheltered (planned : List Planned) (findings : List Finding) (i : Nat)
    (f : Finding) (found : findings[i]? = some f) (fp : Fingerprint)
    (same : fingerprint fp = fingerprint (components (versions planned) f)) :
    ∃ out g, evaluate [] findings planned [openDebt fp] [] floorless = .ok out ∧
      out.findings[i]? = some g ∧ g.enforcement = .advisory := by
  obtain ⟨now, parsed⟩ : ∃ now, parse floorless.evaluationTime = .ok now := ⟨_, rfl⟩
  have ran : evaluate [] findings planned [openDebt fp] [] floorless =
      .ok (climb (contextOf planned [openDebt fp] floorless ⟨[], []⟩) [] findings) :=
    evaluate_ok.mpr ⟨rfl, now, ⟨[], []⟩, parsed, rfl, rfl⟩
  have reported : (climb (contextOf planned [openDebt fp] floorless ⟨[], []⟩) []
      findings).findings[i]? =
      some (annotate (contextOf planned [openDebt fp] floorless ⟨[], []⟩) f).1 := by
    rw [climb_findings, List.getElem?_map, found, Option.map_some]
  refine ⟨_, _, ran, reported, ?_⟩
  rw [annotate_verdict]
  unfold verdict
  have listed : fingerprint (components (versions planned) f) ∈ baselineFps [openDebt fp] := by
    rw [← same]
    exact List.mem_cons_self
  simp [contextOf, floorless, ratchet, listed, escalatedFps, isEscalated, shelterEnds]

/-- For all entries the frozen schemas accept, at every enforced stage, the ladder
shelters only findings that an entry names. -/
def SheltersOnlyNamed (planned : List Planned) (findings : List Finding) : Prop :=
  ∀ ledger baseline exceptions ladder now out, (∀ b ∈ baseline, BaselineEntry.Valid b) →
    (∀ ex ∈ exceptions, ExceptionRecord.Valid ex) → 2 ≤ ladder.stage →
    parse ladder.evaluationTime = .ok now →
    evaluate ledger findings planned baseline exceptions ladder = .ok out →
    ShelterNamed planned findings baseline exceptions now out

theorem not_sheltersOnlyNamed (planned : List Planned) (findings : List Finding) (f : Finding)
    (member : f ∈ findings) (fp : Fingerprint) (positive : 1 ≤ fp.assertionVersion)
    (other : fp ≠ components (versions planned) f)
    (same : fingerprint fp = fingerprint (components (versions planned) f)) :
    ¬ SheltersOnlyNamed planned findings := by
  intro named
  obtain ⟨i, found⟩ := List.mem_iff_getElem?.mp member
  obtain ⟨out, g, ran, reported, advisory⟩ :=
    ambiguous_sheltered planned findings i f found fp same
  obtain ⟨now, parsed⟩ : ∃ now, parse floorless.evaluationTime = .ok now := ⟨_, rfl⟩
  have valid : ∀ b ∈ [openDebt fp], BaselineEntry.Valid b := by
    intro b inside
    rw [List.mem_singleton.mp inside]
    exact debtDoc_valid fp positive
  have shelter := named [] [openDebt fp] [] floorless now out valid (by simp) (by decide) parsed ran
  obtain ⟨b, inside, -, agrees⟩ := (shelter i f g found reported).1 advisory
  rw [List.mem_singleton.mp inside] at agrees
  exact other agrees

/-- The ladder shelters only what the entries name exactly when no finding has an
ambiguous fingerprint. -/
theorem sheltersOnlyNamed_iff (planned : List Planned) (findings : List Finding)
    (numbered : ∀ a ∈ planned, 1 ≤ a.version.getD 1) :
    SheltersOnlyNamed planned findings ↔
      ∀ f ∈ findings, Unambiguous (components (versions planned) f) := by
  constructor
  · intro named f member
    by_contra ambiguous
    obtain ⟨fp, other, positive, same⟩ :=
      exists_other _ (components_numbered planned numbered f) ambiguous
    exact not_sheltersOnlyNamed planned findings f member fp positive other same named
  · intro clear ledger baseline exceptions ladder now out validBaseline validExceptions enforced
      parsed ran i f g found reported
    obtain ⟨-, now', sorted, parsed', split, rfl⟩ := evaluate_ok.mp ran
    rw [parsed, Except.ok.injEq] at parsed'
    subst parsed'
    rw [climb_findings, List.getElem?_map, found, Option.map_some, Option.some.injEq] at reported
    subst reported
    have unambiguous := clear f (List.mem_of_getElem? found)
    rw [annotate_verdict]
    obtain ⟨debt, excepted⟩ := verdict_sheltered
      (contextOf planned baseline ladder sorted) f enforced
    refine ⟨fun advisory => ?_, fun advisory => ?_⟩
    · obtain ⟨b, kept, same⟩ := List.mem_map.mp (debt advisory)
      obtain ⟨inside, isOpen⟩ := List.mem_filter.mp kept
      exact ⟨b, inside, isOpen, unambiguous.eq (validBaseline b inside).numbered same⟩
    · rcases ((foldlM_sorts exceptions split).active _).mp (excepted advisory) with none' | some'
      · simp at none'
      · obtain ⟨ex, inside, active, same⟩ := some'
        exact ⟨ex, inside, active, unambiguous.eq (validExceptions ex inside).numbered same⟩

theorem sheltersOnlyNamed_debt : SheltersOnlyNamed [⟨"a1", some 1, none⟩] [debt] := by
  rw [sheltersOnlyNamed_iff _ _ (by decide)]
  intro f member
  rw [List.mem_singleton.mp member]
  refine ⟨by decide, by decide, ?_⟩
  intro version _
  have pieces : (Str.split pipe (components (versions [⟨"a1", some 1, none⟩]) debt).assertionId).tail
      = [] := by decide
  rw [pieces]
  exact List.not_mem_nil

/-- A finding in a file whose name has a separator. -/
def piped : Finding := { debt with subjectLocations := ["src/a|b"] }

theorem piped_not_sheltersOnlyNamed : ¬ SheltersOnlyNamed [⟨"a1", some 1, none⟩] [piped] :=
  not_sheltersOnlyNamed _ _ piped (List.mem_singleton_self _)
    ⟨"a1", 1, "src/a", "b|identity-mismatch"⟩ (by decide) (by decide) (by decide)

end DevGate.Adoption
