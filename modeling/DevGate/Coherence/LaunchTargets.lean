import DevGate.Coherence.LaunchLimits

set_option autoImplicit false

/- Which launches bind one container path twice. -/
namespace DevGate.Launcher

open Py Fold
open Profiles (filled?)

/-! Container paths. -/

/-- One name of a path, after the names before it, last first. -/
def cleanName (rooted : Bool) (front : List Str) (name : Str) : List Str :=
  if name = [] ∨ name = "." then front
  else if name = ".." then
    match front with
    | [] => if rooted then [] else [".."]
    | last :: rest => if last = ".." then ".." :: last :: rest else rest
  else name :: front

/-- A path without empty names and dots, its names last first. -/
def cleanPath (s : Str) : Bool × List Str :=
  let rooted := s.head? = some (Chr.ofChar '/')
  (rooted, (Str.split (Chr.ofChar '/') s).foldl (cleanName rooted) [])

example : cleanPath "/data//in/." = cleanPath "/data/x/../in" := by decide

/-- The targets of the launcher's own. -/
def reserved : List Str := tmpfsTargets ++ [("/output" : Str)]

/-- The container paths that a launch binds. -/
def boundTargets (ctx : Launch) : List Str := reserved ++ ctx.mounts.map Mount.target

/-- No container path is bound twice. -/
def Distinct (ctx : Launch) : Prop := ((boundTargets ctx).map cleanPath).Nodup

/-! The bound targets are those of the invocation. -/

/-- The container paths in an argument list: up to the colon of a `--tmpfs`, between those of a
`-v`. -/
def boundPaths : List Str → List Str
  | flag :: value :: rest =>
      let parts := Str.split (Chr.ofChar ':') value
      if flag = "--tmpfs" then parts.headD [] :: boundPaths rest
      else if flag = "-v" then parts.getD 1 [] :: boundPaths rest
      else boundPaths (value :: rest)
  | _ => []

theorem boundPaths_skip {flag : Str} {rest : List Str} (space : flag ≠ "--tmpfs") (bind : flag ≠ "-v") :
    boundPaths (flag :: rest) = boundPaths rest := by
  cases rest with
  | nil => rfl
  | cons value rest =>
      conv_lhs => unfold boundPaths
      rw [if_neg space, if_neg bind]

theorem boundPaths_skips {front rest : List Str}
    (others : ∀ flag ∈ front, flag ≠ "--tmpfs" ∧ flag ≠ "-v") :
    boundPaths (front ++ rest) = boundPaths rest := by
  induction front with
  | nil => rfl
  | cons flag front ih =>
      rw [List.cons_append, boundPaths_skip (others flag List.mem_cons_self).1
        (others flag List.mem_cons_self).2]
      exact ih (fun other member => others other (List.mem_cons_of_mem _ member))

theorem boundPaths_tmpfs {target options : Str} {rest : List Str} (plain : Chr.ofChar ':' ∉ target) :
    boundPaths ("--tmpfs" :: (target ++ Chr.ofChar ':' :: options) :: rest) =
      target :: boundPaths rest := by
  conv_lhs => unfold boundPaths
  rw [if_pos rfl, Str.split_append_sep, Str.split_of_not_mem _ _ plain]
  rfl

theorem boundPaths_bind {source target options : Str} {rest : List Str}
    (plain : Chr.ofChar ':' ∉ source) (plain' : Chr.ofChar ':' ∉ target) :
    boundPaths ("-v" :: (source ++ Chr.ofChar ':' :: (target ++ Chr.ofChar ':' :: options)) :: rest) =
      target :: boundPaths rest := by
  conv_lhs => unfold boundPaths
  rw [if_neg (by decide), if_pos rfl, Str.split_append_sep, Str.split_append_sep,
    Str.split_of_not_mem _ _ plain, Str.split_of_not_mem _ _ plain']
  rfl

theorem boundPaths_output {source target : Str} {rest : List Str}
    (plain : Chr.ofChar ':' ∉ source) (plain' : Chr.ofChar ':' ∉ target) :
    boundPaths ("-v" :: (source ++ Chr.ofChar ':' :: target) :: rest) = target :: boundPaths rest := by
  conv_lhs => unfold boundPaths
  rw [if_neg (by decide), if_pos rfl, Str.split_append_sep, Str.split_of_not_mem _ _ plain,
    Str.split_of_not_mem _ _ plain']
  rfl

theorem labelled_flag {flag : Str} (labelled : Chr.ofChar '=' ∈ flag) :
    flag ≠ "--tmpfs" ∧ flag ≠ "-v" := by
  constructor
  · rintro rfl
    revert labelled
    decide
  · rintro rfl
    revert labelled
    decide

theorem boundPaths_env {env : List (Str × Str)} {image : Str} :
    boundPaths (env.flatMap (fun kv => [("-e" : Str), kv.1 ++ "=" ++ kv.2]) ++ [image]) = [] := by
  have others : ∀ flag ∈ env.flatMap (fun kv => [("-e" : Str), kv.1 ++ "=" ++ kv.2]),
      flag ≠ "--tmpfs" ∧ flag ≠ "-v" := by
    intro flag member
    obtain ⟨kv, -, member⟩ := List.mem_flatMap.mp member
    rcases List.mem_cons.mp member with rfl | member
    · decide
    · rw [List.mem_singleton.mp member]
      refine labelled_flag (List.mem_append_left _ (List.mem_append_right _ ?_))
      decide
  rw [boundPaths_skips others]
  rfl

theorem boundPaths_mounts {mounts : List Mount} {rest : List Str}
    (plain : ∀ mt ∈ mounts, Chr.ofChar ':' ∉ mt.source ∧ Chr.ofChar ':' ∉ mt.target) :
    boundPaths (mounts.flatMap (fun mt => [("-v" : Str), mt.source ++ ":" ++ mt.target ++ ":ro"]) ++
      rest) = mounts.map Mount.target ++ boundPaths rest := by
  induction mounts with
  | nil => rfl
  | cons mt mounts ih =>
      have spelled : mt.source ++ (":" : Str) ++ mt.target ++ (":ro" : Str) =
          mt.source ++ Chr.ofChar ':' :: (mt.target ++ Chr.ofChar ':' :: ("ro" : Str)) := by
        rw [List.append_assoc, List.append_assoc]
        rfl
      rw [List.flatMap_cons, List.append_assoc, spelled, List.cons_append, List.singleton_append,
        boundPaths_bind (plain mt List.mem_cons_self).1 (plain mt List.mem_cons_self).2,
        ih (fun other member => plain other (List.mem_cons_of_mem _ member))]
      rfl

theorem boundPaths_spaces {targets rest : List Str} {size : Str}
    (plain : ∀ target ∈ targets, Chr.ofChar ':' ∉ target) :
    boundPaths (targets.flatMap (fun target =>
      [("--tmpfs" : Str), target ++ ":size=" ++ size ++ ",noexec,nodev"]) ++ rest) =
      targets ++ boundPaths rest := by
  induction targets with
  | nil => rfl
  | cons target targets ih =>
      have spelled : target ++ (":size=" : Str) ++ size ++ (",noexec,nodev" : Str) =
          target ++ Chr.ofChar ':' :: (("size=" : Str) ++ (size ++ (",noexec,nodev" : Str))) := by
        rw [List.append_assoc, List.append_assoc]
        rfl
      rw [List.flatMap_cons, List.append_assoc, spelled, List.cons_append, List.singleton_append,
        boundPaths_tmpfs (plain target List.mem_cons_self),
        ih (fun other member => plain other (List.mem_cons_of_mem _ member))]
      rfl

/-- Where no path holds a colon, the invocation binds the bound targets. -/
theorem podmanArgs_bound {p : Printer} {ctx : Launch} {env : List (Str × Str)} {outputDir : Path}
    (plain : Chr.ofChar ':' ∉ outputDir.str)
    (plains : ∀ mt ∈ ctx.mounts, Chr.ofChar ':' ∉ mt.source ∧ Chr.ofChar ':' ∉ mt.target) :
    boundPaths (podmanArgs p ctx env outputDir) = boundTargets ctx := by
  unfold podmanArgs
  dsimp only
  rw [List.append_assoc, List.append_assoc, List.append_assoc, List.append_assoc, boundPaths_skips,
    boundPaths_spaces (by decide), binds, List.append_assoc]
  · have output : outputDir.str ++ (":/output" : Str) =
        outputDir.str ++ Chr.ofChar ':' :: ("/output" : Str) := rfl
    rw [output, List.cons_append, List.singleton_append,
      boundPaths_output plain (by decide), boundPaths_mounts plains, boundPaths_env, List.append_nil]
    rfl
  · have named (front back : Str) (labelled : Chr.ofChar '=' ∈ front) :
        front ++ back ≠ "--tmpfs" ∧ front ++ back ≠ "-v" :=
      labelled_flag (List.mem_append_left _ labelled)
    simp only [List.forall_mem_cons, List.not_mem_nil, false_implies, implies_true, and_true]
    refine ⟨by decide, by decide, by decide, by decide, by decide, named _ _ (by decide), by decide,
      by decide, by decide, named _ _ (by decide), named _ _ (by decide), named _ _ (by decide),
      by decide, ?_, by decide⟩
    refine labelled_flag (List.mem_append_left _ (List.mem_append_left _ ?_))
    decide

/-! What is validated. -/

theorem validateMountList_targets {host : Host} {vs : List Value} {seen : List Str}
    {mounts : List Mount} (valid : validateMountList host seen vs = .ok mounts) :
    targets vs = mounts.map Mount.target ∧ (mounts.map Mount.target).Nodup ∧
      ∀ tgt ∈ mounts.map Mount.target, tgt ∉ seen := by
  induction vs generalizing seen mounts with
  | nil =>
      cases valid
      exact ⟨rfl, List.nodup_nil, by simp⟩
  | cons v rest ih =>
      obtain ⟨first, here, valid⟩ := bind_ok.mp valid
      obtain ⟨later, listed, valid⟩ := bind_ok.mp valid
      cases valid
      obtain ⟨fresh, named⟩ := validateMount_named here
      obtain ⟨same, apart, new⟩ := ih listed
      refine ⟨?_, ?_, ?_⟩
      · rw [← List.singleton_append, targets, List.filterMap_append]
        exact (congrArg (· ++ targets rest) named).trans (congrArg (first.target :: ·) same)
      · rw [List.map_cons, List.nodup_cons]
        exact ⟨fun again => new first.target again List.mem_cons_self, apart⟩
      · rw [List.map_cons, List.forall_mem_cons]
        exact ⟨fresh, fun tgt member old => new tgt member (List.mem_cons_of_mem _ old)⟩

/-- The targets that a configuration names. -/
def namedTargets (cfg : Dict Str Value) : List Str :=
  match Dict.get? cfg "mounts" with
  | some (.list vs) => targets vs
  | _ => []

theorem validateLaunch_targets {u : Unicode} {host : Host} {cfg : Dict Str Value}
    {supported : List Str} {ctx : Launch} (valid : validateLaunch u host cfg supported = .ok ctx) :
    (namedTargets cfg).Nodup ∧ (ctx.mounts.map Mount.target).Perm (namedTargets cfg) := by
  have found := (Container.validateLaunch_ok valid).1
  unfold validateMounts at found
  split at found
  · rename_i vs stated
    obtain ⟨listed, here, found⟩ := bind_ok.mp found
    have sorted := Except.ok.inj found
    obtain ⟨same, apart, -⟩ := validateMountList_targets here
    have named : namedTargets cfg = targets vs := by
      unfold namedTargets
      cases held : Dict.get? cfg "mounts" with
      | none =>
          rw [held] at stated
          cases stated
          rfl
      | some v =>
          rw [held] at stated
          cases stated
          rfl
    rw [named, same, ← sorted]
    exact ⟨apart, (List.perm_insertionSort _ listed).map _⟩
  · cases found

/-- No mount is at a spelling of one of the launcher's own targets, and no two are at two spellings
of one path. -/
def Apart (named : List Str) : Prop :=
  (∀ tgt ∈ named, ∀ own ∈ reserved, cleanPath tgt ≠ cleanPath own) ∧
    ∀ tgt ∈ named, ∀ other ∈ named, tgt ≠ other → cleanPath tgt ≠ cleanPath other

/-- An accepted launch binds every path once exactly where its mounts are apart. -/
theorem launch_targets_distinct_iff {u : Unicode} {host : Host} {cfg : Dict Str Value}
    {supported : List Str} {ctx : Launch} (valid : validateLaunch u host cfg supported = .ok ctx) :
    Distinct ctx ↔ Apart (namedTargets cfg) := by
  obtain ⟨apart, same⟩ := validateLaunch_targets valid
  have own : (reserved.map cleanPath).Nodup := by decide
  have spellings : ((namedTargets cfg).map cleanPath).Nodup ↔ ∀ tgt ∈ namedTargets cfg,
      ∀ other ∈ namedTargets cfg, tgt ≠ other → cleanPath tgt ≠ cleanPath other := by
    rw [List.nodup_map_iff_inj_on apart]
    constructor
    · intro inj tgt member other member' differ alike
      exact differ (inj tgt member other member' alike)
    · intro clear tgt member other member' alike
      by_contra differ
      exact clear tgt member other member' differ alike
  unfold Distinct boundTargets Apart
  rw [List.map_append, List.nodup_append, and_iff_right own, (same.map cleanPath).nodup_iff, spellings,
    and_comm]
  refine and_congr_left (fun _ => ?_)
  constructor
  · intro clear tgt member path member' alike
    exact clear (cleanPath path) (List.mem_map_of_mem member') (cleanPath tgt)
      ((same.map cleanPath).mem_iff.mpr (List.mem_map_of_mem member)) alike.symm
  · rintro clear a member b member' rfl
    obtain ⟨path, inside, spelled⟩ := List.mem_map.mp member
    obtain ⟨tgt, inside', spelled'⟩ := List.mem_map.mp ((same.map cleanPath).mem_iff.mp member')
    exact clear tgt inside' path inside (spelled'.trans spelled.symm)

/-- A launch over one input, mounted here. -/
def mountConfig (target : Str) : Dict Str Value :=
  match Container.pilotConfig with
  | .dict cfg => Dict.set cfg "mounts" (.list [.dict [("readonly", .bool true),
      ("source", .str "/work/in"), ("target", .str target)]])
  | _ => []

theorem mounted {target : Str} (accepted : (validateLaunch Container.asciiDigits
      (Container.pilotHost []) (mountConfig target) ["linux-amd64-v1"]).toOption.isSome = true) :
    ∃ ctx, validateLaunch Container.asciiDigits (Container.pilotHost []) (mountConfig target)
      ["linux-amd64-v1"] = .ok ctx := by
  cases valid : validateLaunch Container.asciiDigits (Container.pilotHost []) (mountConfig target)
      ["linux-amd64-v1"] with
  | ok ctx => exact ⟨ctx, rfl⟩
  | error e =>
      rw [valid] at accepted
      cases accepted

theorem input_distinct :
    ∃ ctx, validateLaunch Container.asciiDigits (Container.pilotHost []) (mountConfig "/input")
      ["linux-amd64-v1"] = .ok ctx ∧ Distinct ctx := by
  obtain ⟨ctx, valid⟩ := @mounted "/input" (by decide +kernel)
  refine ⟨ctx, valid, (launch_targets_distinct_iff valid).mpr ?_⟩
  unfold Apart
  decide +kernel

/-- A read-only input is accepted over the output directory. -/
theorem output_shadowed :
    ∃ ctx, validateLaunch Container.asciiDigits (Container.pilotHost []) (mountConfig "/output/")
      ["linux-amd64-v1"] = .ok ctx ∧ ¬ Distinct ctx := by
  obtain ⟨ctx, valid⟩ := @mounted "/output/" (by decide +kernel)
  refine ⟨ctx, valid, fun distinct => ?_⟩
  have same := (validateLaunch_targets valid).2.map cleanPath
  have shadow : cleanPath "/output/" ∈ (ctx.mounts.map Mount.target).map cleanPath :=
    same.mem_iff.mpr (by decide +kernel)
  unfold Distinct boundTargets at distinct
  rw [List.map_append, List.nodup_append] at distinct
  exact distinct.2.2 (cleanPath "/output") (by decide) _ shadow (by decide)

end DevGate.Launcher
