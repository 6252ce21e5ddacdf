import DevGate.Gate.ScaffoldBlocks
import DevGate.Lib.Fold

set_option autoImplicit false

/- What a run of findings_to_spec.py leaves in the spec files, and what the next one finds. -/
namespace DevGate.Gate.Scaffold

open Py
open Traceability (idRe reqId)

/-- A file as it was, or with a heading and more behind it. -/
def Grown (spec spec' : Option Str) : Prop :=
  spec' = spec ∨ ∃ t, spec' = some (spec.getD [] ++ hash :: t)

theorem Grown.trans {a b c : Option Str} (first : Grown a b) (second : Grown b c) : Grown a c := by
  rcases first with rfl | ⟨t, rfl⟩
  · exact second
  · rcases second with rfl | ⟨t', rfl⟩
    · exact .inr ⟨t, rfl⟩
    · refine .inr ⟨t ++ hash :: t', ?_⟩
      rw [Option.getD_some, List.append_assoc, List.cons_append]

section

variable (u : Chars)

/-- A file that grows keeps its ids and its provenances. -/
theorem Grown.keeps {a b : Option Str} (grown : Grown a b) :
    (∀ rid ∈ (existingState u a).1, rid ∈ (existingState u b).1) ∧
      ∀ key ∈ (existingState u a).2, key ∈ (existingState u b).2 := by
  rcases grown with rfl | ⟨t, rfl⟩
  · exact ⟨fun _ inside => inside, fun _ inside => inside⟩
  · cases a with
    | none => exact ⟨(fun _ inside => by cases inside), fun _ inside => by cases inside⟩
    | some raw =>
        have read : textOf (some (raw ++ hash :: t)) =
            textOf (some raw) ++ hash :: Utf8.newlines false t := newlines_hash raw t
        have stops : Re.Stops hash (hash :: Utf8.newlines false t) := by
          intro d here
          exact (Option.some.inj here).symm
        constructor
        · intro rid inside
          show rid ∈ reqId.findall (textOf (some (raw ++ hash :: t)))
          rw [read]
          exact mem_ids_append inside stops
        · intro key inside
          show key ∈ origins u (textOf (some (raw ++ hash :: t)))
          rw [read]
          exact mem_origins_append inside _

variable {κ : Type} (dirs : Dirs κ)

/-- The ids and the provenances of a spec file. -/
def idsAt (files : κ → Option Str) (p : κ) : List Str := (existingState u (files p)).1

def coveredAt (files : κ → Option Str) (p : κ) : List (Str × Str) := (existingState u (files p)).2

theorem fresh_mem {files : κ → Option Str} {cap : Str} {fs : List Finding} {b : Finding × Str}
    (inside : b ∈ fresh u dirs files cap fs) :
    b.1 ∈ fs ∧ b.1.key ∉ coveredAt u files (dirs.place cap) ∧
      b.2 ∉ idsAt u files (dirs.place cap) ∧ IsId b.2 := by
  obtain ⟨member, free⟩ := (newBlocks_keys u cap _ _ _).2.1 b inside
  obtain ⟨unused, grammar⟩ := (newBlocks_ids u cap _ _ _).2 b inside
  exact ⟨distinct_subset _ ((List.mem_insertionSort _).mp member), free, unused, grammar⟩

/-- Every finding of the capability has its provenance there, or a new block. -/
theorem fresh_complete {files : κ → Option Str} {cap : Str} {fs : List Finding} {f : Finding}
    (inside : f ∈ fs) (free : f.key ∉ coveredAt u files (dirs.place cap)) :
    f.key ∈ (fresh u dirs files cap fs).map keyOf := by
  obtain ⟨g, listed, same⟩ := distinct_complete inside
  rw [← same] at free ⊢
  exact (newBlocks_keys u cap _ _ _).2.2 g ((List.mem_insertionSort _).mpr listed) free

theorem idsAt_some {files : κ → Option Str} {p : κ} {raw : Str} (held : files p = some raw) :
    idsAt u files p = reqId.findall (textOf (files p)) := by
  unfold idsAt existingState
  rw [held]
  rfl

theorem coveredAt_some {files : κ → Option Str} {p : κ} {raw : Str} (held : files p = some raw) :
    coveredAt u files p = origins u (textOf (files p)) := by
  unfold coveredAt existingState
  rw [held]
  rfl

theorem appended_mem (cap : Str) (spec : Option Str) {blocks : List (Finding × Str)} {b : Finding × Str}
    (inside : b ∈ blocks) :
    ∃ front back, appended u cap spec blocks = front ++ renderRequirement u b.1 b.2 ++ back := by
  obtain ⟨front, back, whole⟩ := join_mem "\n"
    (List.mem_map_of_mem (f := fun b => renderRequirement u b.1 b.2) inside)
  refine ⟨(if spec.isSome then [] else header u cap) ++ front, back, ?_⟩
  unfold appended
  rw [whole]
  simp only [List.append_assoc]

/-- What a run keeps, turn by turn. -/
structure Built (capability : Option Str) (findings : List Finding) (before : κ → Option Str)
    (s : State κ) : Prop where
  grown : ∀ p, Grown (before p) (s.files p)
  stands : ∀ b ∈ s.log, ∃ front back, s.files b.place =
    some ((before b.place).getD [] ++ front ++ renderRequirement u b.finding b.reqId ++ back)
  owed : ∀ b ∈ s.log, b.finding ∈ findings ∧ b.place = dirs.place (capOf capability b.finding) ∧
    b.finding.key ∉ coveredAt u before b.place
  grammar : ∀ b ∈ s.log, IsId b.reqId
  read : ∀ b ∈ s.log, b.reqId ∈ idsAt u s.files b.place
  unused : ∀ b ∈ s.log, b.reqId ∉ idsAt u before b.place
  nodup : (s.log.map (fun b => (b.place, b.reqId))).Nodup

variable {capability : Option Str} {findings : List Finding} {before : κ → Option Str}

theorem built_start : Built u dirs capability findings before ⟨before, []⟩ where
  grown _ := .inl rfl
  stands b inside := by cases inside
  owed b inside := by cases inside
  grammar b inside := by cases inside
  read b inside := by cases inside
  unused b inside := by cases inside
  nodup := List.nodup_nil

variable [DecidableEq κ]

/-- The state behind a turn that appends. -/
def wrote (s : State κ) (g : Str × List Finding) : State κ where
  files := Function.update s.files (dirs.place g.1) (some ((s.files (dirs.place g.1)).getD [] ++
    appended u g.1 (s.files (dirs.place g.1)) (fresh u dirs s.files g.1 g.2)))
  log := s.log ++ (fresh u dirs s.files g.1 g.2).map (fun b => ⟨dirs.place g.1, b.1, b.2⟩)

/-- A turn changes nothing, or appends its blocks. -/
theorem turn_cases {s s' : State κ} {g : Str × List Finding} (ran : turn u dirs s g = .ok s') :
    fresh u dirs s.files g.1 g.2 = [] ∧ s' = s ∨
      fresh u dirs s.files g.1 g.2 ≠ [] ∧ s' = wrote u dirs s g := by
  unfold turn at ran
  dsimp only at ran
  split at ran
  · next none_ =>
      cases ran
      exact .inl ⟨List.isEmpty_iff.mp none_, rfl⟩
  · next some_ =>
      obtain ⟨_, _, ran⟩ := bind_ok.mp ran
      split at ran
      · cases ran
      · cases ran
        refine .inr ⟨fun none_ => some_ ?_, rfl⟩
        rw [none_]
        rfl

@[simp] theorem wrote_files_self (s : State κ) (g : Str × List Finding) :
    (wrote u dirs s g).files (dirs.place g.1) = some ((s.files (dirs.place g.1)).getD [] ++
      appended u g.1 (s.files (dirs.place g.1)) (fresh u dirs s.files g.1 g.2)) :=
  Function.update_self _ _ _

theorem wrote_files_of_ne (s : State κ) (g : Str × List Finding) {p : κ} (other : p ≠ dirs.place g.1) :
    (wrote u dirs s g).files p = s.files p :=
  Function.update_of_ne other _ _

theorem wrote_grown {s : State κ} {g : Str × List Finding}
    (some_ : fresh u dirs s.files g.1 g.2 ≠ []) (p : κ) :
    Grown (s.files p) ((wrote u dirs s g).files p) := by
  by_cases here : p = dirs.place g.1
  · obtain ⟨t, head⟩ := appended_hash u g.1 (s.files (dirs.place g.1)) some_
    rw [here, wrote_files_self, head]
    exact .inr ⟨t, rfl⟩
  · rw [wrote_files_of_ne u dirs s g here]
    exact .inl rfl

theorem textOf_wrote {s : State κ} {g : Str × List Finding}
    (some_ : fresh u dirs s.files g.1 g.2 ≠ []) :
    textOf ((wrote u dirs s g).files (dirs.place g.1)) =
      base u g.1 (s.files (dirs.place g.1)) ++
        Utf8.newlines false (blocksText u (fresh u dirs s.files g.1 g.2)) := by
  rw [wrote_files_self]
  exact textOf_appended u g.1 _ some_

theorem Grown.getD {a b : Option Str} (grown : Grown a b) : ∃ t, b.getD [] = a.getD [] ++ t := by
  rcases grown with rfl | ⟨t, rfl⟩
  · exact ⟨[], (List.append_nil _).symm⟩
  · exact ⟨hash :: t, rfl⟩

variable {u dirs}

/-- The blocks that a turn adds to the log. -/
theorem mem_wrote_log {s : State κ} {g : Str × List Finding} {b : Block κ} :
    b ∈ (wrote u dirs s g).log ↔ b ∈ s.log ∨ b.place = dirs.place g.1 ∧
      (b.finding, b.reqId) ∈ fresh u dirs s.files g.1 g.2 := by
  unfold wrote
  rw [List.mem_append, List.mem_map]
  refine or_congr Iff.rfl ⟨?_, ?_⟩
  · rintro ⟨pair, inside, rfl⟩
    exact ⟨rfl, inside⟩
  · rintro ⟨here, inside⟩
    refine ⟨_, inside, ?_⟩
    rw [← here]

theorem Built.turn {s s' : State κ} {g : Str × List Finding}
    (built : Built u dirs capability findings before s)
    (sound : ∀ f ∈ g.2, f ∈ findings ∧ capOf capability f = g.1) (ran : turn u dirs s g = .ok s') :
    Built u dirs capability findings before s' := by
  rcases turn_cases u dirs ran with ⟨-, rfl⟩ | ⟨some_, rfl⟩
  · exact built
  · have step := wrote_grown u dirs some_
    refine
      { grown := fun p => (built.grown p).trans (step p), stands := ?_, owed := ?_, grammar := ?_
        read := ?_, unused := ?_, nodup := ?_ }
    · intro b inside
      rcases mem_wrote_log.mp inside with old | ⟨here, new⟩
      · obtain ⟨front, back, whole⟩ := built.stands b old
        rcases step b.place with same | ⟨t, grown⟩
        · exact ⟨front, back, same.trans whole⟩
        · refine ⟨front, back ++ hash :: t, ?_⟩
          rw [grown, whole, Option.getD_some, List.append_assoc]
      · obtain ⟨front, back, whole⟩ := appended_mem u g.1 (s.files (dirs.place g.1)) new
        obtain ⟨t, more⟩ := (built.grown (dirs.place g.1)).getD
        refine ⟨t ++ front, back, ?_⟩
        rw [here, wrote_files_self, whole, more]
        simp only [List.append_assoc]
    · intro b inside
      rcases mem_wrote_log.mp inside with old | ⟨here, new⟩
      · exact built.owed b old
      · obtain ⟨member, free, -, -⟩ := fresh_mem u dirs new
        obtain ⟨listed, same⟩ := sound _ member
        refine ⟨listed, by rw [here, same], fun known => free ?_⟩
        rw [here] at known
        exact ((built.grown _).keeps u).2 _ known
    · intro b inside
      rcases mem_wrote_log.mp inside with old | ⟨here, new⟩
      · exact built.grammar b old
      · exact (fresh_mem u dirs new).2.2.2
    · intro b inside
      rcases mem_wrote_log.mp inside with old | ⟨here, new⟩
      · exact ((step b.place).keeps u).1 _ (built.read b old)
      · rw [here, idsAt_some u (wrote_files_self u dirs s g), textOf_wrote u dirs some_]
        exact mem_ids_blocks _ new (fresh_mem u dirs new).2.2.2
    · intro b inside
      rcases mem_wrote_log.mp inside with old | ⟨here, new⟩
      · exact built.unused b old
      · rw [here]
        exact fun known => (fresh_mem u dirs new).2.2.1 (((built.grown _).keeps u).1 _ known)
    · have later := (newBlocks_ids u g.1 (idsAt u s.files (dirs.place g.1))
        (coveredAt u s.files (dirs.place g.1)) ((distinct g.2).insertionSort
          (fun a b => findingLe a b = true))).1
      unfold wrote
      rw [List.map_append, List.nodup_append]
      refine ⟨built.nodup, ?_, ?_⟩
      · rw [List.map_map]
        refine List.Nodup.of_map Prod.snd ?_
        rw [List.map_map]
        exact later
      · intro old known new fresh_ same
        obtain ⟨b, logged, rfl⟩ := List.mem_map.mp known
        obtain ⟨b', listed, rfl⟩ := List.mem_map.mp fresh_
        obtain ⟨pair, inside, rfl⟩ := List.mem_map.mp listed
        obtain ⟨here, id⟩ := Prod.mk.inj same
        have used := built.read b logged
        rw [here, id] at used
        exact (fresh_mem u dirs inside).2.2.1 used

/-- The next run reads this id in full: where it starts with a comma, no provenance is open in the
text that its block comes behind. -/
structure ReadsBack (u : Chars) (dirs : Dirs κ) (capability : Option Str) (before : κ → Option Str)
    (f : Finding) : Prop where
  readable : Readable u f
  shut : f.sourceId.head? = some comma →
    ¬ Open u (base u (capOf capability f) (before (dirs.place (capOf capability f))))

/-- The findings behind a turn have their provenances; a file is as it was, or leaves none open. -/
structure Read (u : Chars) (dirs : Dirs κ) (before : κ → Option Str)
    (done : List (Str × List Finding)) (s : State κ) : Prop where
  shut : ∀ p, s.files p = before p ∨ (s.files p).isSome = true ∧ ¬ Open u (textOf (s.files p))
  covered : ∀ g ∈ done, ∀ f ∈ g.2, f.key ∈ coveredAt u s.files (dirs.place g.1)

theorem Read.turn {s s' : State κ} {done : List (Str × List Finding)} {g : Str × List Finding}
    (read : Read u dirs before done s)
    (readsBack : ∀ f ∈ g.2, ReadsBack u dirs capability before f ∧ capOf capability f = g.1)
    (ran : turn u dirs s g = .ok s') : Read u dirs before (done ++ [g]) s' := by
  have still {s' : State κ} (grown : ∀ p, Grown (s.files p) (s'.files p))
      (own : ∀ f ∈ g.2, f.key ∈ coveredAt u s'.files (dirs.place g.1)) :
      ∀ g' ∈ done ++ [g], ∀ f ∈ g'.2, f.key ∈ coveredAt u s'.files (dirs.place g'.1) := by
    intro g' inside f member
    rcases List.mem_append.mp inside with old | here
    · exact ((grown _).keeps u).2 _ (read.covered g' old f member)
    · rw [List.mem_singleton.mp here] at member ⊢
      exact own f member
  rcases turn_cases u dirs ran with ⟨none_, rfl⟩ | ⟨some_, rfl⟩
  · refine ⟨read.shut, still (fun p => .inl rfl) (fun f member => ?_)⟩
    by_contra free
    have new := fresh_complete u dirs member free
    rw [none_] at new
    cases new
  · have step := wrote_grown u dirs some_
    have whole := textOf_wrote u dirs some_
    refine ⟨fun p => ?_, still step (fun f member => ?_)⟩
    · by_cases here : p = dirs.place g.1
      · rw [here]
        refine .inr ⟨by rw [wrote_files_self]; rfl, ?_⟩
        rw [whole]
        exact not_open_blocks some_ (fun b inside => (fresh_mem u dirs inside).2.2.2) _
      · rw [wrote_files_of_ne u dirs s g here]
        exact read.shut p
    · by_cases known : f.key ∈ coveredAt u s.files (dirs.place g.1)
      · exact ((step _).keeps u).2 _ known
      · obtain ⟨b, inside, same⟩ := List.mem_map.mp (fresh_complete u dirs member known)
        have own : b.1.key = f.key := same
        rw [coveredAt_some u (wrote_files_self u dirs s g), whole, ← own]
        refine mem_origins_blocks (fun b' inside' => ?_) b inside
        obtain ⟨listed, -, -, grammar⟩ := fresh_mem u dirs inside'
        obtain ⟨back, cap⟩ := readsBack b'.1 listed
        refine ⟨back.readable, grammar, fun first => ?_⟩
        rcases read.shut (dirs.place g.1) with same' | ⟨held, shut⟩
        · rw [same']
          have before_ := back.shut first
          rwa [cap] at before_
        · obtain ⟨raw, held⟩ := Option.isSome_iff_exists.mp held
          rw [held] at shut ⊢
          exact shut

/-- The blocks at a spec file for a finding. -/
def blocksFor (log : List (Block κ)) (p : κ) (key : Str × Str) : Nat :=
  (log.filter (fun b => b.place = p ∧ b.finding.key = key)).length

/-- A file of no capability with findings is as it was; each finding behind a turn has one block,
where it had no provenance. -/
structure Once (u : Chars) (dirs : Dirs κ) (before : κ → Option Str)
    (done : List (Str × List Finding)) (s : State κ) : Prop where
  untouched : ∀ p, (∀ g ∈ done, g.2 ≠ [] → dirs.place g.1 ≠ p) →
    s.files p = before p ∧ ∀ b ∈ s.log, b.place ≠ p
  counted : ∀ g ∈ done, ∀ f ∈ g.2, blocksFor s.log (dirs.place g.1) f.key =
    if f.key ∈ coveredAt u before (dirs.place g.1) then 0 else 1

theorem blocksFor_append (log log' : List (Block κ)) (p : κ) (key : Str × Str) :
    blocksFor (log ++ log') p key = blocksFor log p key + blocksFor log' p key := by
  unfold blocksFor
  rw [List.filter_append, List.length_append]

theorem blocksFor_elsewhere {log : List (Block κ)} {p : κ} (elsewhere : ∀ b ∈ log, b.place ≠ p)
    (key : Str × Str) : blocksFor log p key = 0 := by
  unfold blocksFor
  rw [List.length_eq_zero_iff, List.filter_eq_nil_iff]
  intro b inside both
  rw [decide_eq_true_eq] at both
  exact elsewhere b inside both.1

/-- The blocks of a turn for one of its findings. -/
theorem blocksFor_fresh (p : κ) {blocks : List (Finding × Str)} (nodup : (blocks.map keyOf).Nodup)
    (key : Str × Str) :
    blocksFor (blocks.map (fun b => (⟨p, b.1, b.2⟩ : Block κ))) p key =
      if key ∈ blocks.map keyOf then 1 else 0 := by
  have counted : blocksFor (blocks.map (fun b => (⟨p, b.1, b.2⟩ : Block κ))) p key =
      (blocks.map keyOf).count key := by
    unfold blocksFor
    rw [List.filter_map, List.length_map, List.count, List.countP_map, List.countP_eq_length_filter]
    refine congrArg List.length (List.filter_congr (fun b _ => ?_))
    rw [Bool.eq_iff_iff]
    simp [keyOf]
  rw [counted]
  split
  · next inside => exact List.count_eq_one_of_mem nodup inside
  · next outside => exact List.count_eq_zero_of_not_mem outside

/-- No two capabilities of the findings have one spec file. -/
def Apart (dirs : Dirs κ) (capability : Option Str) (findings : List Finding) : Prop :=
  ∀ f ∈ findings, ∀ f' ∈ findings,
    dirs.place (capOf capability f) = dirs.place (capOf capability f') →
      capOf capability f = capOf capability f'

theorem Once.turn {groups front back : List (Str × List Finding)} {s s' : State κ}
    {g : Str × List Finding} (grouped : Grouped capability findings groups)
    (apart : Apart dirs capability findings) (split : groups = front ++ g :: back)
    (once : Once u dirs before front s) (ran : turn u dirs s g = .ok s') :
    Once u dirs before (front ++ [g]) s' := by
  have inside : g ∈ groups := by
    rw [split]
    exact List.mem_append_right _ List.mem_cons_self
  -- an earlier group with findings has another file
  have other : g.2 ≠ [] → ∀ g' ∈ front, g'.2 ≠ [] → dirs.place g'.1 ≠ dirs.place g.1 := by
    intro some_ g' known some_' same
    have listed : g' ∈ groups := by
      rw [split]
      exact List.mem_append_left _ known
    obtain ⟨f, rest, cut⟩ := List.exists_cons_of_ne_nil some_
    obtain ⟨f', rest', cut'⟩ := List.exists_cons_of_ne_nil some_'
    obtain ⟨member, cap⟩ := grouped.sound g inside f (by rw [cut]; exact List.mem_cons_self)
    obtain ⟨member', cap'⟩ := grouped.sound g' listed f' (by rw [cut']; exact List.mem_cons_self)
    have caps := apart f' member' f member (by rw [cap, cap', same])
    rw [cap, cap'] at caps
    have nodup := grouped.nodup
    rw [split, List.map_append, List.map_cons, List.nodup_append] at nodup
    exact nodup.2.2 g'.1 (List.mem_map_of_mem known) g.1 List.mem_cons_self caps
  rcases turn_cases u dirs ran with ⟨none_, rfl⟩ | ⟨some_, rfl⟩
  · refine ⟨fun p clear => once.untouched p (fun g' known => clear g' (List.mem_append_left _ known)), ?_⟩
    intro g' known f member
    rcases List.mem_append.mp known with old | here
    · exact once.counted g' old f member
    · rw [List.mem_singleton.mp here] at member ⊢
      obtain ⟨same, elsewhere⟩ := once.untouched (dirs.place g.1)
        (other (List.ne_nil_of_mem member))
      rw [blocksFor_elsewhere elsewhere]
      by_contra wrong
      split at wrong
      · exact wrong rfl
      · next free =>
          have still : f.key ∉ coveredAt u s'.files (dirs.place g.1) := by
            unfold coveredAt at free ⊢
            rwa [same]
          have new := fresh_complete u dirs member still
          rw [none_] at new
          cases new
  · have filled : g.2 ≠ [] := by
      obtain ⟨b, new⟩ := List.exists_mem_of_ne_nil _ some_
      exact List.ne_nil_of_mem (fresh_mem u dirs new).1
    obtain ⟨same, elsewhere⟩ := once.untouched (dirs.place g.1) (other filled)
    refine ⟨fun p clear => ?_, fun g' known f member => ?_⟩
    · have apart' : p ≠ dirs.place g.1 :=
        fun here => clear g (List.mem_append_right _ (List.mem_singleton_self g)) filled here.symm
      obtain ⟨unchanged, none_⟩ := once.untouched p
        (fun g' known => clear g' (List.mem_append_left _ known))
      refine ⟨(wrote_files_of_ne u dirs s g apart').trans unchanged, fun b logged here => ?_⟩
      rcases mem_wrote_log.mp logged with old | ⟨placed, -⟩
      · exact none_ b old here
      · exact apart' (here.symm.trans placed)
    · have nodup := (newBlocks_keys u g.1 (idsAt u s.files (dirs.place g.1))
        (coveredAt u s.files (dirs.place g.1)) ((distinct g.2).insertionSort
          (fun a b => findingLe a b = true))).1
      have log : (wrote u dirs s g).log = s.log ++ (fresh u dirs s.files g.1 g.2).map
        (fun b => ⟨dirs.place g.1, b.1, b.2⟩) := rfl
      rw [log, blocksFor_append]
      rcases List.mem_append.mp known with old | here
      · have elsewhere' : ∀ b ∈ (fresh u dirs s.files g.1 g.2).map
            (fun b => (⟨dirs.place g.1, b.1, b.2⟩ : Block κ)), b.place ≠ dirs.place g'.1 := by
          intro b new
          obtain ⟨pair, -, rfl⟩ := List.mem_map.mp new
          exact fun here => other filled g' old (List.ne_nil_of_mem member) here.symm
        rw [blocksFor_elsewhere elsewhere', Nat.add_zero]
        exact once.counted g' old f member
      · rw [List.mem_singleton.mp here] at member ⊢
        have covered : coveredAt u s.files (dirs.place g.1) = coveredAt u before (dirs.place g.1) := by
          unfold coveredAt
          rw [same]
        rw [blocksFor_elsewhere elsewhere, Nat.zero_add]
        refine (blocksFor_fresh (dirs.place g.1) nodup f.key).trans ?_
        rw [← covered]
        by_cases known : f.key ∈ coveredAt u s.files (dirs.place g.1)
        · rw [if_pos known, if_neg]
          intro new
          obtain ⟨b, new, key⟩ := List.mem_map.mp new
          have free := (fresh_mem u dirs new).2.1
          have own : b.1.key = f.key := key
          rw [own] at free
          exact free known
        · rw [if_neg known, if_pos]
          exact fresh_complete u dirs member known

/-- The ended lines of a text stay in front of what is appended. -/
theorem lines_append {text : Str} {ls : List Str} (whole : Str.split feed text = ls ++ [[]])
    (added : Str) : ∃ more, Str.split feed (text ++ added) = ls ++ more := by
  by_cases none_ : ls = []
  · subst none_
    exact ⟨_, rfl⟩
  · have shape : text = Str.join [feed] ls ++ feed :: [] := by
      rw [← Str.join_split feed text, whole, Str.join_append [feed] ls [[]] none_ (List.cons_ne_nil _ _)]
      simp [Str.join]
    have ended : Str.split feed (Str.join [feed] ls) = ls := by
      rw [shape, Str.split_append_sep] at whole
      exact List.append_cancel_right whole
    rw [shape, List.append_assoc, List.cons_append, Str.split_append_sep, ended]
    exact ⟨_, rfl⟩

/-- What a run leaves in the spec files. -/
structure Scaffolded (u : Chars) (dirs : Dirs κ) (capability : Option Str) (findings : List Finding)
    (before : κ → Option Str) (after : State κ) : Prop where
  appends : ∀ p, after.files p = before p ∨
    ∃ added, after.files p = some ((before p).getD [] ++ added)
  /-- A file that ends its last line keeps every line. -/
  lines : ∀ p text ls, before p = some text → Str.split feed text = ls ++ [[]] →
    ∃ text' more, after.files p = some text' ∧ Str.split feed text' = ls ++ more
  /-- Every block is for a finding, and stands in the file of its capability. -/
  stands : ∀ b ∈ after.log, b.finding ∈ findings ∧
    b.place = dirs.place (capOf capability b.finding) ∧ ∃ front back, after.files b.place =
      some ((before b.place).getD [] ++ front ++ renderRequirement u b.finding b.reqId ++ back)
  /-- A finding has its provenance in that file already, or one new block. -/
  once : Apart dirs capability findings → ∀ f ∈ findings,
    blocksFor after.log (dirs.place (capOf capability f)) f.key =
      if f.key ∈ coveredAt u before (dirs.place (capOf capability f)) then 0 else 1
  /-- A new id is in the grammar, and the traceability gate reads it in the file. -/
  grammar : ∀ b ∈ after.log,
    Re.fullmatch idRe b.reqId = true ∧ b.reqId ∈ idsAt u after.files b.place
  /-- In its file it is no other block's, and none that was there. -/
  ids : (after.log.map (fun b => (b.place, b.reqId))).Nodup ∧
    ∀ b ∈ after.log, b.reqId ∉ idsAt u before b.place
  /-- The next run finds every finding, and appends nothing. -/
  again : (∀ f ∈ findings, ReadsBack u dirs capability before f) →
    (∀ f ∈ findings, f.key ∈ coveredAt u after.files (dirs.place (capOf capability f))) ∧
      run u dirs capability findings after.files = .ok ⟨after.files, []⟩

theorem built_run {after : State κ} (ran : run u dirs capability findings before = .ok after) :
    Built u dirs capability findings before after := by
  have grouped := grouped_sorted capability findings
  unfold run at ran
  exact Fold.foldlM_keeps (fun g inside s s' built step => built.turn (grouped.sound g inside) step)
    (built_start u dirs) ran

theorem once_run {after : State κ} (ran : run u dirs capability findings before = .ok after)
    (apart : Apart dirs capability findings) :
    Once u dirs before (Json.sortKeys (byCap capability findings)) after := by
  have grouped := grouped_sorted capability findings
  have start : Once u dirs before [] ⟨before, []⟩ :=
    ⟨fun p _ => ⟨rfl, fun b inside => by cases inside⟩, fun g inside => by cases inside⟩
  unfold run at ran
  exact Fold.foldlM_builds (fun front g back s s' split once step =>
    once.turn grouped apart split step) start ran

theorem read_run {after : State κ} (ran : run u dirs capability findings before = .ok after)
    (readsBack : ∀ f ∈ findings, ReadsBack u dirs capability before f) :
    Read u dirs before (Json.sortKeys (byCap capability findings)) after := by
  have grouped := grouped_sorted capability findings
  have start : Read u dirs before [] ⟨before, []⟩ :=
    ⟨fun p => .inl rfl, fun g inside => by cases inside⟩
  unfold run at ran
  refine Fold.foldlM_builds (fun front g back s s' split read step => ?_) start ran
  have inside : g ∈ Json.sortKeys (byCap capability findings) := by
    rw [split]
    exact List.mem_append_right _ List.mem_cons_self
  have own : ∀ f ∈ g.2, ReadsBack u dirs capability before f ∧ capOf capability f = g.1 := by
    intro f member
    obtain ⟨listed, cap⟩ := grouped.sound g inside f member
    exact ⟨readsBack f listed, cap⟩
  exact read.turn own step

/-- Where every finding has its provenance, a run appends nothing. -/
theorem run_covered {files : κ → Option Str} (covered : ∀ f ∈ findings,
    f.key ∈ coveredAt u files (dirs.place (capOf capability f))) :
    run u dirs capability findings files = .ok ⟨files, []⟩ := by
  have grouped := grouped_sorted capability findings
  refine Fold.foldlM_stays (fun g inside => ?_)
  have none_ : fresh u dirs files g.1 g.2 = [] := by
    rw [List.eq_nil_iff_forall_not_mem]
    intro b new
    obtain ⟨member, free, -, -⟩ := fresh_mem u dirs new
    obtain ⟨listed, cap⟩ := grouped.sound g inside b.1 member
    refine free ?_
    rw [← cap]
    exact covered b.1 listed
  unfold turn
  dsimp only
  rw [none_]
  rfl

/-- A finding whose id holds a backtick is never found again: every run appends its block. -/
theorem blocksFor_tick {after : State κ} (ran : run u dirs capability findings before = .ok after)
    (apart : Apart dirs capability findings) {f : Finding} (listed : f ∈ findings)
    (quoted : tick ∈ f.sourceId) :
    blocksFor after.log (dirs.place (capOf capability f)) f.key = 1 := by
  obtain ⟨g, inside, cap, member⟩ := (grouped_sorted capability findings).complete f listed
  have counted := (once_run ran apart).counted g inside f member
  rw [cap, if_neg] at counted
  · exact counted
  · intro known
    unfold coveredAt existingState at known
    split at known
    · cases known
    · exact tick_not_mem_origins known quoted

/-- A run only appends: to the spec file of each capability, one block for each of its findings
that has none there, under an id of its own. -/
theorem run_scaffolds {after : State κ} (ran : run u dirs capability findings before = .ok after) :
    Scaffolded u dirs capability findings before after := by
  have built := built_run ran
  have grouped := grouped_sorted capability findings
  refine
    { appends := ?_, lines := ?_, stands := ?_, once := ?_, grammar := ?_
      ids := ⟨built.nodup, built.unused⟩, again := ?_ }
  · intro p
    exact (built.grown p).imp_right (Exists.imp' (fun t => hash :: t) (fun _ whole => whole))
  · intro p text ls held ended
    rcases built.grown p with same | ⟨t, whole⟩
    · exact ⟨text, [[]], same.trans held, ended⟩
    · rw [held, Option.getD_some] at whole
      obtain ⟨more, kept⟩ := lines_append ended (hash :: t)
      exact ⟨_, more, whole, kept⟩
  · intro b logged
    obtain ⟨listed, placed, -⟩ := built.owed b logged
    exact ⟨listed, placed, built.stands b logged⟩
  · intro apart f listed
    obtain ⟨g, inside, cap, member⟩ := grouped.complete f listed
    have counted := (once_run ran apart).counted g inside f member
    rwa [cap] at counted
  · intro b logged
    exact ⟨fullmatch_id (built.grammar b logged), built.read b logged⟩
  · intro readsBack
    have read := read_run ran readsBack
    have covered : ∀ f ∈ findings, f.key ∈ coveredAt u after.files (dirs.place (capOf capability f)) := by
      intro f listed
      obtain ⟨g, inside, cap, member⟩ := grouped.complete f listed
      have known := read.covered g inside f member
      rwa [cap] at known
    exact ⟨covered, run_covered covered⟩

end

/-- `str.lower` and `str.title` of ASCII letters. -/
def asciiLower (s : Str) : Str :=
  s.map (fun c => if 65 ≤ c.val ∧ c.val ≤ 90 then Fin.ofNat 0x110000 (c.val + 32) else c)

def asciiTitle : Bool → Str → Str
  | _, [] => []
  | inWord, c :: s =>
      let letter := (65 ≤ c.val && c.val ≤ 90) || (97 ≤ c.val && c.val ≤ 122)
      let shown : Chr :=
        if inWord && 65 ≤ c.val && c.val ≤ 90 then Fin.ofNat 0x110000 (c.val + 32)
        else if !inWord && 97 ≤ c.val && c.val ≤ 122 then Fin.ofNat 0x110000 (c.val - 32) else c
      shown :: asciiTitle letter s

def asciiChars : Chars where
  lower := asciiLower
  title := asciiTitle false
  isWord := asciiWord
  ascii _ _ := rfl

def capDirs : Dirs Str where
  place cap := cap
  made _ := .ok ()

theorem lost_named : ("FAIL-001" : Str) ≠ [] := by decide

def lost : Finding where
  origin := .registry
  sourceId := "FAIL-001"
  category := "save-system"
  severity := "high"
  title := "Save file lost."
  rootCause := []
  prevention := []
  status := "active"
  files := []
  lines := []
  named := lost_named

theorem run_scaffolds_lost : ∃ after, run asciiChars capDirs none [lost] (fun _ => none) = .ok after ∧
    Scaffolded asciiChars capDirs none [lost] (fun _ => none) after := by
  have ends : (run asciiChars capDirs none [lost] (fun _ => none)).toOption.isSome = true := by
    decide +kernel
  cases ran : run asciiChars capDirs none [lost] (fun _ => none) with
  | error e =>
      rw [ran] at ends
      cases ends
  | ok after => exact ⟨after, rfl, run_scaffolds ran⟩

/-- A spec file that holds a finding twice. -/
def copied : Str :=
  "_(origin: registry `FAIL-001`, severity high, status active)_\n" ++
    "_(origin: registry `FAIL-001`, severity high, status active)_\n"

def loss (category sourceId : Str) (named : sourceId ≠ []) : Finding :=
  { lost with category := category, sourceId := sourceId, named := named }

theorem ids_named : ("C" : Str) ≠ [] ∧ ("B-C" : Str) ≠ [] := by decide

def shared : List Finding := [loss "a-b" "C" ids_named.1, loss "a" "B-C" ids_named.2]

/-- A run leaves a finding with the two blocks that its file had, and gives one id in two files. -/
theorem copies_stay :
    (∃ after, run asciiChars capDirs none [lost] (fun _ => some copied) = .ok after ∧
      (coveredAt asciiChars after.files lost.category).count lost.key = 2) ∧
    ∃ after, run asciiChars capDirs none shared (fun _ => none) = .ok after ∧
      after.log.map (fun b => (b.place, b.reqId)) =
        ([("a", "a-b-c"), ("a-b", "a-b-c")] : List (Str × Str)) := by
  have counted : (run asciiChars capDirs none [lost] (fun _ => some copied)).toOption.map
      (fun after : State Str => (coveredAt asciiChars after.files lost.category).count lost.key) =
        some 2 := by
    decide +kernel
  have given : (run asciiChars capDirs none shared (fun _ => none)).toOption.map
      (fun after : State Str => after.log.map (fun b => (b.place, b.reqId))) =
        some ([("a", "a-b-c"), ("a-b", "a-b-c")] : List (Str × Str)) := by
    decide +kernel
  constructor
  · cases ran : run asciiChars capDirs none [lost] (fun _ => some copied) with
    | error e =>
        rw [ran] at counted
        cases counted
    | ok after =>
        rw [ran] at counted
        exact ⟨after, rfl, Option.some.inj counted⟩
  · cases ran : run asciiChars capDirs none shared (fun _ => none) with
    | error e =>
        rw [ran] at given
        cases given
    | ok after =>
        rw [ran] at given
        exact ⟨after, rfl, Option.some.inj given⟩

end DevGate.Gate.Scaffold
