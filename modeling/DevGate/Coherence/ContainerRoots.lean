import DevGate.Lib.Fold
import DevGate.Lib.PrefixTable
import DevGate.Coherence.ContainerIsolation

set_option autoImplicit false

/- Where the rewritten roots of a request lead inside the container. -/
namespace DevGate.Container

open Py Launcher

/-! The mounts of the container. -/

/-- One more part of a path, `..` taken lexically. -/
def descend (done : List Str) (part : Str) : List Str :=
  if part = ".." then done.dropLast else done ++ [part]

/-- The parts of an absolute container path; nothing for a relative one. -/
def containerParts (s : Str) : Option (List Str) :=
  if (Path.ofStr s).absolute then some ((Path.ofStr s).parts.foldl descend []) else none

/-- What a mount shows. -/
inductive Origin where
  | host (tree : Path)
  | tmpfs
  deriving DecidableEq

def entry (target : Str) (origin : Origin) : Option (List Str × Origin) :=
  (containerParts target).map (fun key => (key, origin))

/-- The tmpfs targets and the output bind of `podmanArgs`. -/
def fixedTable (out : Path) : List (List Str × Origin) :=
  tmpfsTargets.filterMap (fun target => entry target .tmpfs) ++ (entry outputTarget (.host out)).toList

/-- The read-only binds of `podmanArgs`. -/
def mountTable (mounts : List Mount) : List (List Str × Origin) :=
  mounts.filterMap (fun mt => entry mt.target (.host (Path.ofStr mt.source)))

/-- The host directory a container path leads to: the longest target above it wins. -/
def leadsTo (mounts : List Mount) (out : Path) (path : Str) : Option Path :=
  match (containerParts path).bind (PrefixTable.lookup (fixedTable out ++ mountTable mounts)) with
  | some (.host tree, rest) => some (tree.sub rest)
  | _ => none

/-- The root of a section that `rewriteRoots` rewrites. -/
def rootOf (req : Dict Str Value) (section_ : Str) : Option Str :=
  match Dict.get? req section_ with
  | some (.dict node) =>
      match Dict.get? node "root" with
      | some (.str (c :: root)) => some (c :: root)
      | _ => none
  | _ => none

/-- The mount a root is rewritten through: its source covers the root, no other
covering source is longer, and none before it is as long. -/
structure Chosen (before : List Mount) (m : Mount) (after : List Mount) (real : Path) : Prop where
  covered : covers m.source real.str = true
  first : ∀ b ∈ before, covers b.source real.str = true → b.source.length < m.source.length
  longest : ∀ a ∈ after, covers a.source real.str = true → a.source.length ≤ m.source.length

/-- The chosen target is absolute, and on the way from it to the root no other
target comes, nor the same one again. -/
def Unshadowed (mounts : List Mount) (out real : Path) : Prop :=
  ∀ before m after, mounts = before ++ m :: after → Chosen before m after real →
    ∃ key, containerParts m.target = some key ∧
      ∀ e ∈ fixedTable out ++ mountTable (before ++ after),
        e.1 <+: key ++ real.parts.drop (Path.ofStr m.source).parts.length →
          e.1.length < key.length

/-! Rewritten texts. -/

/-- Names after a slash are more parts. -/
theorem ofStr_append_names {s : Str} (some_ : s ≠ []) {names : List Str} (filled : names ≠ [])
    (plain : ∀ name ∈ names, name ≠ [] ∧ name ≠ "." ∧ Chr.ofChar '/' ∉ name) :
    Path.ofStr (s ++ Chr.ofChar '/' :: Str.join "/" names) = (Path.ofStr s).sub names := by
  obtain ⟨c, rest, rfl⟩ := List.exists_cons_of_ne_nil some_
  have cut : Str.split (Chr.ofChar '/') (Str.join "/" names) = names :=
    Str.split_join_of_not_mem _ names filled (fun name inside => (plain name inside).2.2)
  have kept : names.filter (fun part => decide (part ≠ [] ∧ part ≠ ".")) = names := by
    rw [List.filter_eq_self]
    intro name inside
    simpa using ⟨(plain name inside).1, (plain name inside).2.1⟩
  unfold Path.ofStr Path.sub
  rw [Str.split_append_sep, cut, List.filter_append, kept]
  rfl

theorem containerParts_append {s : Str} (some_ : s ≠ []) {names : List Str} (filled : names ≠ [])
    (plain : ∀ name ∈ names, name ≠ [] ∧ name ≠ "." ∧ name ≠ ".." ∧ Chr.ofChar '/' ∉ name) :
    containerParts (s ++ Chr.ofChar '/' :: Str.join "/" names) =
      (containerParts s).map (fun key => key ++ names) := by
  have below := ofStr_append_names some_ filled
    (fun name inside => ⟨(plain name inside).1, (plain name inside).2.1, (plain name inside).2.2.2⟩)
  have pushed (done : List Str) : names.foldl descend done = done ++ names := by
    clear below filled
    induction names generalizing done with
    | nil => simp
    | cons name rest ih =>
        have up := (plain name List.mem_cons_self).2.2.1
        rw [List.foldl_cons, descend, if_neg up, ih (fun n inside => plain n (List.mem_cons_of_mem _ inside))]
        simp
  unfold containerParts
  rw [below]
  unfold Path.sub
  dsimp only
  split
  · rw [List.foldl_append, pushed, Option.map_some]
  · rfl

/-- The rest of a real path below a source that covers it. -/
theorem covered_rest {src real : Path} (sourceReal : src.Real) (rootReal : real.Real)
    (covered : covers src.str real.str = true) :
    ∃ names, real = src.sub names ∧
      real.str.drop src.str.length =
        if names = [] then [] else Chr.ofChar '/' :: Str.join "/" names := by
  obtain ⟨⟨names, parts⟩, top⟩ := (covers_str sourceReal rootReal).mp covered
  have same : real = src.sub names := by
    obtain ⟨absolute, names'⟩ := real
    have rooted : absolute = true := rootReal.absolute
    unfold Path.sub
    rw [sourceReal.absolute, parts, rooted]
  refine ⟨names, same, ?_⟩
  by_cases ends : names = []
  · rw [if_pos ends, same, ends]
    simp [Path.sub]
  · rw [if_neg ends]
    have below : src.parts ≠ [] := by
      intro none
      have empty := top none
      rw [← parts, none, List.nil_append] at empty
      exact ends empty
    rw [rootReal.str_eq, ← parts, Str.join_append "/" src.parts names below ends, sourceReal.str_eq]
    rw [List.length_cons, List.drop_succ_cons, List.append_assoc, List.drop_left]
    rfl

/-- The text a root is rewritten to, as parts of the container. -/
theorem containerParts_rewritten {src real : Path} (sourceReal : src.Real) (rootReal : real.Real)
    (covered : covers src.str real.str = true) {target : Str} (some_ : target ≠ []) :
    ∃ names, real = src.sub names ∧
      containerParts (target ++ real.str.drop src.str.length) =
        (containerParts target).map (fun key => key ++ names) := by
  obtain ⟨names, same, rest⟩ := covered_rest sourceReal rootReal covered
  refine ⟨names, same, ?_⟩
  rw [rest]
  by_cases ends : names = []
  · rw [if_pos ends, ends, List.append_nil]
    cases containerParts target <;> simp
  · rw [if_neg ends]
    refine containerParts_append some_ ends (fun name inside => ?_)
    refine rootReal.names name ?_
    rw [same]
    exact List.mem_append_right _ inside

/-! The chosen mount. -/

/-- What the search has found among the mounts it went through. -/
def Best (done : List Mount) (real : Path) (best : Option (Nat × Str)) : Prop :=
  match best with
  | none => ∀ mt ∈ done, covers mt.source real.str = false
  | some found => ∃ before m after, done = before ++ m :: after ∧ Chosen before m after real ∧
      found = (m.source.length, m.target ++ real.str.drop m.source.length)

/-- One mount of the search. -/
def better (real : Path) (best : Option (Nat × Str)) (mt : Mount) : Option (Nat × Str) :=
  if covers mt.source real.str && best.all (fun found => found.1 < mt.source.length) then
    some (mt.source.length, mt.target ++ real.str.drop mt.source.length)
  else best

theorem Best.step {done : List Mount} {real : Path} {best : Option (Nat × Str)}
    (sofar : Best done real best) (mt : Mount) : Best (done ++ [mt]) real (better real best mt) := by
  unfold better
  cases covered : covers mt.source real.str with
  | false =>
      simp only [Bool.false_and, Bool.false_eq_true, ↓reduceIte]
      cases best with
      | none =>
          intro other inside
          rcases List.mem_append.mp inside with old | new
          · exact sofar other old
          · rw [List.mem_singleton.mp new]
            exact covered
      | some found =>
          obtain ⟨before, m, after, rfl, chosen, same⟩ := sofar
          refine ⟨before, m, after ++ [mt], by simp, ⟨chosen.covered, chosen.first, ?_⟩, same⟩
          intro a inside above
          rcases List.mem_append.mp inside with old | new
          · exact chosen.longest a old above
          · rw [List.mem_singleton.mp new, covered] at above
            cases above
  | true =>
      cases best with
      | none =>
          simp only [Option.all_none, Bool.and_self, ↓reduceIte]
          refine ⟨done, mt, [], rfl, ⟨covered, fun b inside above => ?_, by simp⟩, rfl⟩
          rw [sofar b inside] at above
          cases above
      | some found =>
          obtain ⟨before, m, after, rfl, chosen, rfl⟩ := sofar
          simp only [Option.all_some, Bool.true_and]
          by_cases longer : m.source.length < mt.source.length
          · rw [if_pos (by simpa using longer)]
            refine ⟨before ++ m :: after, mt, [], rfl, ⟨covered, fun b inside above => ?_, by simp⟩, rfl⟩
            rcases List.mem_append.mp inside with old | new
            · exact (chosen.first b old above).trans longer
            · rcases List.mem_cons.mp new with rfl | later
              · exact longer
              · exact (chosen.longest b later above).trans_lt longer
          · rw [if_neg (by simpa using longer)]
            refine ⟨before, m, after ++ [mt], by simp, ⟨chosen.covered, chosen.first, ?_⟩, rfl⟩
            intro a inside above
            rcases List.mem_append.mp inside with old | new
            · exact chosen.longest a old above
            · rw [List.mem_singleton.mp new]
              omega

theorem Best.foldl {done : List Mount} {real : Path} {best : Option (Nat × Str)}
    (sofar : Best done real best) (mounts : List Mount) :
    Best (done ++ mounts) real (mounts.foldl (better real) best) := by
  induction mounts generalizing done best with
  | nil => simpa using sofar
  | cons mt rest ih =>
      have next := ih (sofar.step mt)
      rwa [List.append_assoc, List.singleton_append] at next

/-- A root is rewritten through the chosen mount. -/
theorem containerPath_chosen {disk : Disk} {mounts : List Mount} {root target : Str}
    (resolved : ∀ mt ∈ mounts, realpath disk mt.source = .ok mt.source)
    (ran : containerPath disk root mounts = .ok (some target)) :
    ∃ real, disk.resolve (Path.ofStr root) = .ok real ∧
      ∃ before m after, mounts = before ++ m :: after ∧ Chosen before m after real ∧
        target = m.target ++ real.str.drop m.source.length := by
  obtain ⟨text, named, rest⟩ := bind_ok.mp ran
  obtain ⟨real, found, shown⟩ := bind_ok.mp named
  cases shown
  obtain ⟨best, searched, made⟩ := bind_ok.mp rest
  have folded : mounts.foldl (better real) none = best := by
    rw [Fold.foldlM_eq_foldl (g := better real)] at searched
    · exact Except.ok.inj searched
    · intro mt inside sofar
      rw [resolved mt inside, ok_bind]
      unfold better
      split <;> rfl
  have final : Best mounts real best := by
    have start : Best [] real none := by simp [Best]
    rw [← folded]
    exact start.foldl mounts
  cases best with
  | none => cases made
  | some found' =>
      obtain ⟨before, m, after, split, chosen, same⟩ := final
      cases made
      exact ⟨real, found, before, m, after, split, chosen, by rw [same]⟩

/-! The sections of a request. -/

theorem rootOf_congr {a b : Dict Str Value} {section_ : Str}
    (same : Dict.get? a section_ = Dict.get? b section_) : rootOf a section_ = rootOf b section_ := by
  unfold rootOf
  rw [same]

theorem rootOf_eq_some {req : Dict Str Value} {section_ root : Str} :
    rootOf req section_ = some root ↔ ∃ node, Dict.get? req section_ = some (.dict node) ∧
      Dict.get? node "root" = some (.str root) ∧ root ≠ [] := by
  unfold rootOf
  constructor
  · intro rooted
    split at rooted
    · rename_i node held
      split at rooted
      · rename_i c rest inner
        cases rooted
        exact ⟨node, held, inner, List.cons_ne_nil c rest⟩
      · cases rooted
    · cases rooted
  · rintro ⟨node, held, inner, filled⟩
    obtain ⟨c, rest, rfl⟩ := List.exists_cons_of_ne_nil filled
    rw [held]
    dsimp only
    rw [inner]

theorem rewriteSection_ok {disk : Disk} {mounts : List Mount} {req staged : Dict Str Value}
    {section_ : Str} (ran : rewriteSection disk mounts req section_ = .ok staged) :
    (∀ other, other ≠ section_ → Dict.get? staged other = Dict.get? req other) ∧
      ∀ root, rootOf req section_ = some root →
        ∃ target, containerPath disk root mounts = .ok (some target) ∧
          (target ≠ [] → rootOf staged section_ = some target) := by
  unfold rewriteSection at ran
  split at ran
  · rename_i node held
    split at ran
    · rename_i c rest inner
      obtain ⟨found, looked, rewritten⟩ := bind_ok.mp ran
      cases found with
      | none => cases rewritten
      | some target =>
          cases rewritten
          refine ⟨fun other apart => Dict.get?_set_of_ne _ _ _ _ (Ne.symm apart), ?_⟩
          intro root rooted
          obtain ⟨node', held', inner', -⟩ := rootOf_eq_some.mp rooted
          rw [held] at held'
          cases held'
          rw [inner] at inner'
          cases inner'
          refine ⟨target, looked, fun filled => rootOf_eq_some.mpr
            ⟨Dict.set node "root" (.str target), ?_, ?_, filled⟩⟩
          · exact Dict.get?_set_self _ _ _
          · exact Dict.get?_set_self _ _ _
    · rename_i malformed
      cases ran
      refine ⟨fun _ _ => rfl, fun root rooted => ?_⟩
      obtain ⟨node', held', inner', filled⟩ := rootOf_eq_some.mp rooted
      rw [held] at held'
      cases held'
      obtain ⟨c, rest, rfl⟩ := List.exists_cons_of_ne_nil filled
      exact absurd inner' (malformed c rest)
  · rename_i flat
    cases ran
    refine ⟨fun _ _ => rfl, fun root rooted => ?_⟩
    obtain ⟨node', held', -, -⟩ := rootOf_eq_some.mp rooted
    exact absurd held' (flat node')

theorem foldlM_rewriteSection {disk : Disk} {mounts : List Mount} {names : List Str}
    (distinct : names.Nodup) {req staged : Dict Str Value}
    (ran : names.foldlM (rewriteSection disk mounts) req = .ok staged) :
    (∀ other ∉ names, Dict.get? staged other = Dict.get? req other) ∧
      ∀ section_ ∈ names, ∀ root, rootOf req section_ = some root →
        ∃ target, containerPath disk root mounts = .ok (some target) ∧
          (target ≠ [] → rootOf staged section_ = some target) := by
  induction names generalizing req with
  | nil =>
      cases ran
      simp
  | cons first rest ih =>
      rw [List.foldlM_cons] at ran
      obtain ⟨mid, here, later⟩ := bind_ok.mp ran
      obtain ⟨fresh, distinct⟩ := List.nodup_cons.mp distinct
      obtain ⟨kept, rewritten⟩ := rewriteSection_ok here
      obtain ⟨keptLater, rewrittenLater⟩ := ih distinct later
      constructor
      · intro other outside
        rw [List.mem_cons, not_or] at outside
        rw [keptLater other outside.2, kept other outside.1]
      · intro section_ member root rooted
        rcases List.mem_cons.mp member with rfl | inside
        · obtain ⟨target, looked, placed⟩ := rewritten root rooted
          refine ⟨target, looked, fun some_ => ?_⟩
          rw [rootOf_congr (keptLater section_ fresh)]
          exact placed some_
        · have apart : section_ ≠ first := by
            rintro rfl
            exact fresh inside
          rw [← rootOf_congr (kept section_ apart)] at rooted
          exact rewrittenLater section_ inside root rooted

theorem rewriteRoots_root {disk : Disk} {mounts : List Mount} {req staged : Dict Str Value}
    (ran : rewriteRoots disk req mounts = .ok staged) {section_ root : Str}
    (member : section_ ∈ sections) (rooted : rootOf req section_ = some root) :
    ∃ target, containerPath disk root mounts = .ok (some target) ∧
      (target ≠ [] → rootOf staged section_ = some target) := by
  obtain ⟨out, folded, made⟩ := bind_ok.mp ran
  cases made
  obtain ⟨target, looked, placed⟩ :=
    (foldlM_rewriteSection (by decide) folded).2 section_ member root rooted
  refine ⟨target, looked, fun some_ => ?_⟩
  have apart : ("outputs" : Str) ≠ section_ := by
    rintro rfl
    exact absurd member (by decide)
  rw [rootOf_congr (Dict.get?_set_of_ne _ _ _ _ apart)]
  exact placed some_

theorem validateMount_target {host : Host} {seen : List Str} {mt : Value} {mount : Mount}
    (valid : validateMount host seen mt = .ok mount) : mount.target ≠ [] := by
  unfold validateMount at valid
  split at valid
  · rename_i kvs
    split at valid
    · rename_i src tgt _ targeted
      split at valid
      · cases valid
      · obtain ⟨socket, -, valid⟩ := bind_ok.mp valid
        split at valid
        · cases valid
        · split at valid
          · cases valid
          · obtain ⟨real, -, valid⟩ := bind_ok.mp valid
            cases valid
            unfold Profiles.filled? at targeted
            split at targeted
            · cases targeted
              exact List.cons_ne_nil _ _
            · cases targeted
    · cases valid
  · cases valid

theorem validateMounts_target {host : Host} {v : Value} {mounts : List Mount}
    (valid : validateMounts host v = .ok mounts) : ∀ mount ∈ mounts, mount.target ≠ [] := by
  have listed (vs : List Value) : ∀ seen found, validateMountList host seen vs = .ok found →
      ∀ mount ∈ found, mount.target ≠ [] := by
    induction vs with
    | nil =>
        intro seen found valid
        cases valid
        simp
    | cons v rest ih =>
        intro seen found valid
        obtain ⟨first, here, valid⟩ := bind_ok.mp valid
        obtain ⟨later, after, valid⟩ := bind_ok.mp valid
        cases valid
        rw [List.forall_mem_cons]
        exact ⟨validateMount_target here, ih _ _ after⟩
  unfold validateMounts at valid
  split at valid
  · obtain ⟨found, here, valid⟩ := bind_ok.mp valid
    cases valid
    intro mount inside
    exact listed _ _ _ here mount ((List.perm_insertionSort _ found).mem_iff.mp inside)
  · cases valid

/-! Where a root leads. -/

section

variable {mounts : List Mount} {out : Path}

/-- What the accepted mounts and the output directory are known to be. -/
structure Accepted (mounts : List Mount) (out : Path) : Prop where
  sources : ∀ mt ∈ mounts, ∃ src : Path, src.Real ∧ mt.source = src.str
  targets : ∀ mt ∈ mounts, mt.target ≠ []
  outReal : out.Real
  outside : ∀ mt ∈ mounts, covers mt.source out.str = false

theorem leadsTo_eq_some {path : Str} {real : Path} :
    leadsTo mounts out path = some real ↔ ∃ parts tree rest, containerParts path = some parts ∧
      PrefixTable.lookup (fixedTable out ++ mountTable mounts) parts = some (.host tree, rest) ∧
      tree.sub rest = real := by
  unfold leadsTo
  cases containerParts path with
  | none => simp
  | some parts =>
      rw [Option.bind_some]
      cases found : PrefixTable.lookup (fixedTable out ++ mountTable mounts) parts with
      | none => simp [found]
      | some answer =>
          obtain ⟨origin, rest⟩ := answer
          cases origin with
          | tmpfs => simp [found]
          | host tree => simp [found]

theorem mountTable_split (before after : List Mount) {m : Mount} {key : List Str}
    (absolute : containerParts m.target = some key) :
    mountTable (before ++ m :: after) =
      mountTable before ++ (key, .host (Path.ofStr m.source)) :: mountTable after := by
  unfold mountTable
  rw [List.filterMap_append, List.filterMap_cons_some (b := (key, .host (Path.ofStr m.source)))]
  rw [entry, absolute]
  rfl

theorem mem_mountTable_append {before after : List Mount} {e : List Str × Origin} :
    e ∈ mountTable (before ++ after) ↔ e ∈ mountTable before ∨ e ∈ mountTable after := by
  unfold mountTable
  rw [List.filterMap_append, List.mem_append]

/-- With no other target on its way a rewritten root leads back. -/
theorem leadsTo_of_unshadowed {before after : List Mount} {m : Mount} {src real : Path}
    {key : List Str} {names : List Str} (sourceReal : src.Real) (source : m.source = src.str)
    (below : real = src.sub names) (absolute : containerParts m.target = some key) {path : Str}
    (rewritten : containerParts path = some (key ++ names))
    (clear : ∀ e ∈ fixedTable out ++ mountTable (before ++ after),
      e.1 <+: key ++ names → e.1.length < key.length) :
    leadsTo (before ++ m :: after) out path = some real := by
  have tree : Path.ofStr m.source = src := by rw [source, sourceReal.ofStr_str]
  refine leadsTo_eq_some.mpr ⟨_, src, names, rewritten, ?_, below.symm⟩
  refine PrefixTable.lookup_eq_some.mpr ⟨fixedTable out ++ mountTable before, key, mountTable after,
    ?_, rfl, fun e member above => clear e ?_ above⟩
  · rw [mountTable_split before after absolute, tree, List.append_assoc]
  · rw [List.mem_append, mem_mountTable_append]
    rcases List.mem_append.mp member with first | last
    · rcases List.mem_append.mp first with fixed | early
      · exact Or.inl fixed
      · exact Or.inr (Or.inl early)
    · exact Or.inr (Or.inr last)

/-- A source strictly below another one has the longer text. -/
theorem longer_below {src below : Path} (sourceReal : src.Real) (belowReal : below.Real)
    {names : List Str} (parts : below.parts = src.parts ++ names) (some_ : names ≠ [])
    (top : src.parts ≠ []) :
    covers src.str below.str = true ∧ src.str.length < below.str.length := by
  have covered := (covers_str sourceReal belowReal).mpr
    ⟨⟨names, parts.symm⟩, fun none => absurd none top⟩
  refine ⟨covered, ?_⟩
  unfold covers at covered
  rw [Bool.or_eq_true, decide_eq_true_eq, List.isPrefixOf_iff_prefix] at covered
  rcases covered with same | starts
  · have equal : below.parts = src.parts := by
      rw [← belowReal.ofStr_str, same, sourceReal.ofStr_str]
    rw [parts] at equal
    exact absurd (List.append_right_eq_self.mp equal) some_
  · have le := starts.length_le
    rw [List.length_append, List.length_singleton] at le
    omega

/-- A rewritten root that leads back met no other target on its way. -/
theorem unshadowed_of_leadsTo {before after : List Mount} {m : Mount} {src real : Path}
    {key : List Str} {names : List Str} (accepted : Accepted (before ++ m :: after) out)
    (rootReal : real.Real) (chosen : Chosen before m after real) (sourceReal : src.Real)
    (source : m.source = src.str) (below : real = src.sub names)
    (absolute : containerParts m.target = some key) {path : Str}
    (rewritten : containerParts path = some (key ++ names))
    (leads : leadsTo (before ++ m :: after) out path = some real) :
    ∀ e ∈ fixedTable out ++ mountTable (before ++ after),
      e.1 <+: key ++ names → e.1.length < key.length := by
  obtain ⟨parts, tree, rest, cut, found, back⟩ := leadsTo_eq_some.mp leads
  rw [rewritten, Option.some.injEq] at cut
  subst cut
  obtain ⟨front, key', later, split, whole, shorter⟩ := PrefixTable.lookup_eq_some.mp found
  have rooted : tree.parts ++ rest = src.parts ++ names := by
    have first := congrArg Path.parts back
    rw [below] at first
    exact first
  have mountOf : ∀ mt ∈ before ++ m :: after, covers mt.source real.str = true →
      mt.source.length ≤ m.source.length := by
    intro mt member above
    rcases List.mem_append.mp member with early | late
    · exact (chosen.first mt early above).le
    · rcases List.mem_cons.mp late with rfl | late
      · exact le_refl _
      · exact chosen.longest mt late above
  -- a longer target would belong to a deeper source, or to the output directory
  have notLonger : key'.length ≤ key.length := by
    by_contra long
    obtain ⟨k, rfl⟩ : key <+: key' :=
      List.prefix_of_prefix_length_le ⟨names, rfl⟩ ⟨rest, whole.symm⟩ (by omega)
    have some_ : k ≠ [] := by
      rintro rfl
      simp at long
    rw [List.append_assoc, List.append_cancel_left_eq] at whole
    subst whole
    rw [← List.append_assoc, List.append_cancel_right_eq] at rooted
    have top : src.parts ≠ [] := by
      intro none
      have covered := chosen.covered
      rw [source, covers_str sourceReal rootReal] at covered
      have empty := covered.2 none
      rw [below] at empty
      simp [Path.sub, some_] at empty
    have winner : (key ++ k, Origin.host tree) ∈
        fixedTable out ++ mountTable (before ++ m :: after) := by
      rw [split]
      exact List.mem_append_right _ List.mem_cons_self
    rcases List.mem_append.mp winner with fixed | bound
    · have same : tree = out := by
        rcases List.mem_append.mp fixed with scratch | output
        · obtain ⟨target, -, made⟩ := List.mem_filterMap.mp scratch
          obtain ⟨key, -, wrong⟩ := Option.map_eq_some_iff.mp made
          cases wrong
        · obtain ⟨key, -, right⟩ := Option.map_eq_some_iff.mp (Option.mem_toList.mp output)
          cases right
          rfl
      rw [same] at rooted
      have inside := (longer_below sourceReal accepted.outReal rooted some_ top).1
      have free := accepted.outside m (by simp)
      rw [source, inside] at free
      cases free
    · obtain ⟨mt, member, made⟩ := List.mem_filterMap.mp bound
      obtain ⟨key'', -, same⟩ := Option.map_eq_some_iff.mp made
      obtain ⟨src', sourceReal', source'⟩ := accepted.sources mt member
      rw [Prod.mk.injEq, Origin.host.injEq, source', sourceReal'.ofStr_str] at same
      obtain ⟨-, rfl⟩ := same
      obtain ⟨-, longer⟩ := longer_below sourceReal sourceReal' rooted some_ top
      have above : covers mt.source real.str = true := by
        rw [source', covers_str sourceReal' rootReal, below]
        refine ⟨⟨rest, ?_⟩, fun none => ?_⟩
        · rw [rooted]
          simp [Path.sub]
        · rw [rooted] at none
          exact absurd (List.append_eq_nil_iff.mp none).1 top
      have le := mountOf mt member above
      rw [source, source'] at le
      omega
  have own : (key, Origin.host (Path.ofStr m.source)) ∉ front ++ later := by
    intro member
    have less := shorter _ member ⟨names, rfl⟩
    exact absurd less (not_lt.mpr notLonger)
  rw [List.mem_append, not_or] at own
  rw [mountTable_split before after absolute, ← List.append_assoc] at split
  obtain ⟨first, same, last⟩ := (List.append_cons_inj_of_notMem own.1 own.2).mp split.symm
  intro e member above
  rw [List.mem_append, mem_mountTable_append] at member
  have there : e ∈ front ++ later := by
    rw [first, last]
    rcases member with fixed | early | late
    · exact List.mem_append_left _ (List.mem_append_left _ fixed)
    · exact List.mem_append_left _ (List.mem_append_right _ early)
    · exact List.mem_append_right _ late
  have less := shorter e there above
  rw [Prod.mk.injEq] at same
  rwa [same.1] at less

theorem Chosen.unique {before before' after after' : List Mount} {m m' : Mount} {real : Path}
    (chosen : Chosen before m after real) (chosen' : Chosen before' m' after' real)
    (split : before ++ m :: after = before' ++ m' :: after') :
    before = before' ∧ m = m' ∧ after = after' := by
  have apart {b c : List Mount} {n n' : Mount} {b' c' : List Mount} (pick : Chosen b n c real)
      (pick' : Chosen b' n' c' real) (early : n ∈ b') (late : n' ∈ c) : False := by
    have less := pick'.first n early pick.covered
    have le := pick.longest n' late pick'.covered
    omega
  rcases List.append_eq_append_iff.mp split with ⟨between, front, back⟩ | ⟨between, front, back⟩
  · cases between with
    | nil =>
        obtain ⟨rfl, rfl⟩ := List.cons.inj back
        exact ⟨by simpa using front.symm, rfl, rfl⟩
    | cons x rest =>
        obtain ⟨rfl, tail⟩ := List.cons.inj back
        exact (apart chosen chosen' (by rw [front]; simp) (by rw [tail]; simp)).elim
  · cases between with
    | nil =>
        obtain ⟨rfl, rfl⟩ := List.cons.inj back
        exact ⟨by simpa using front, rfl, rfl⟩
    | cons x rest =>
        obtain ⟨rfl, tail⟩ := List.cons.inj back
        exact (apart chosen' chosen (by rw [front]; simp) (by rw [tail]; simp)).elim

theorem accepted_of_validate {host : Host} (realpath : host.Realpath) {v : Value}
    (valid : validateMounts host v = .ok mounts) {hostOut : Str}
    (resolved : host.resolve (Path.ofStr hostOut) = .ok out)
    (outside : ∀ mt ∈ mounts, covers mt.source out.str = false) : Accepted mounts out := by
  refine ⟨fun mt member => ?_, validateMounts_target valid, realpath.real resolved, outside⟩
  obtain ⟨s, q, found, source⟩ := validateMounts_ok valid mt member
  exact ⟨q, realpath.real found, source⟩

end

/-- A rewritten root leads back to the host directory the request named exactly
where the target it was rewritten to is absolute and unshadowed. -/
theorem rewritten_root_iff {host : Host} (realpath : host.Realpath) {v : Value} {mounts : List Mount}
    (valid : validateMounts host v = .ok mounts) {hostOut : Str} {out : Path}
    (resolved : host.resolve (Path.ofStr hostOut) = .ok out)
    (outside : ∀ mt ∈ mounts, covers mt.source out.str = false) {req staged : Dict Str Value}
    (rewritten : rewriteRoots host.toDisk req mounts = .ok staged) {section_ root : Str}
    (member : section_ ∈ sections) (rooted : rootOf req section_ = some root) {real : Path}
    (named : host.resolve (Path.ofStr root) = .ok real) :
    (rootOf staged section_).bind (leadsTo mounts out) = some real ↔ Unshadowed mounts out real := by
  have accepted := accepted_of_validate realpath valid resolved outside
  have fixed : ∀ mt ∈ mounts, Launcher.realpath host.toDisk mt.source = .ok mt.source := by
    intro mt inside
    obtain ⟨s, q, found, source⟩ := validateMounts_ok valid mt inside
    rw [source, Launcher.realpath, realpath.resolve_str found]
    rfl
  obtain ⟨target, looked, placed⟩ := rewriteRoots_root rewritten member rooted
  obtain ⟨real', named', before, m, after, split, chosen, text⟩ := containerPath_chosen fixed looked
  obtain rfl : real = real' := Except.ok.inj (named.symm.trans named')
  have rootReal := realpath.real named
  have inside : m ∈ mounts := by
    rw [split]
    exact List.mem_append_right _ List.mem_cons_self
  obtain ⟨src, sourceReal, source⟩ := accepted.sources m inside
  have some_ := accepted.targets m inside
  have filled : target ≠ [] := by
    rw [text]
    exact fun none => some_ (List.append_eq_nil_iff.mp none).1
  have covered := chosen.covered
  rw [source] at covered
  obtain ⟨names, below, parts⟩ := containerParts_rewritten sourceReal rootReal covered some_
  rw [← source, ← text] at parts
  have rest : real.parts.drop (Path.ofStr m.source).parts.length = names := by
    rw [source, sourceReal.ofStr_str, below]
    exact List.drop_left
  rw [placed filled, Option.bind_some]
  constructor
  · intro leads before' m' after' split' chosen'
    obtain ⟨rfl, rfl, rfl⟩ := chosen.unique chosen' (split.symm.trans split')
    cases absolute : containerParts m.target with
    | none =>
        obtain ⟨_, _, _, cut, -⟩ := leadsTo_eq_some.mp leads
        rw [parts, absolute] at cut
        cases cut
    | some key =>
        refine ⟨key, rfl, ?_⟩
        rw [absolute, Option.map_some] at parts
        rw [rest]
        rw [split] at accepted leads
        exact unshadowed_of_leadsTo accepted rootReal chosen sourceReal source below absolute parts leads
  · intro unshadowed
    obtain ⟨key, absolute, clear⟩ := unshadowed before m after split chosen
    rw [absolute, Option.map_some] at parts
    rw [rest] at clear
    rw [split]
    exact leadsTo_of_unshadowed sourceReal source below absolute parts clear

namespace NestedTargets

def host : Host := pilotHost []

def bind (source target : Str) : Value :=
  .dict [("readonly", .bool true), ("source", .str source), ("target", .str target)]

def config : Value := .list [bind "/work/a" "/in", bind "/work/b" "/in/sub"]

def mounts : List Mount := [⟨"/work/a", "/in"⟩, ⟨"/work/b", "/in/sub"⟩]

def request (root : Str) : Dict Str Value := [("subject", .dict [("root", .str root)])]

def staged (root : Str) : Dict Str Value :=
  [("subject", .dict [("root", .str root)]), ("outputs", .str "/output")]

def out : Path := ⟨true, ["work", "out"]⟩

theorem valid : validateMounts host config = .ok mounts := by rfl

theorem outside : ∀ mt ∈ mounts, covers mt.source out.str = false := by decide

end NestedTargets

theorem nested_target_shadows :
    rewriteRoots NestedTargets.host.toDisk (NestedTargets.request "/work/a/sub") NestedTargets.mounts =
        .ok (NestedTargets.staged "/in/sub") ∧
      NestedTargets.host.resolve (Path.ofStr "/work/a/sub") = .ok ⟨true, ["work", "a", "sub"]⟩ ∧
      (rootOf (NestedTargets.staged "/in/sub") "subject").bind
          (leadsTo NestedTargets.mounts NestedTargets.out) ≠ some ⟨true, ["work", "a", "sub"]⟩ :=
  ⟨by rfl, by rfl, by decide +kernel⟩

theorem rewritten_root_pilot :
    (rootOf (NestedTargets.staged "/in/src") "subject").bind
        (leadsTo NestedTargets.mounts NestedTargets.out) = some ⟨true, ["work", "a", "src"]⟩ ↔
      Unshadowed NestedTargets.mounts NestedTargets.out ⟨true, ["work", "a", "src"]⟩ :=
  @rewritten_root_iff NestedTargets.host (pilot_realpath []) NestedTargets.config NestedTargets.mounts
    NestedTargets.valid "/work/out" NestedTargets.out (by rfl) NestedTargets.outside
    (NestedTargets.request "/work/a/src") (NestedTargets.staged "/in/src") (by rfl) "subject"
    "/work/a/src" (by decide) (by rfl) ⟨true, ["work", "a", "src"]⟩ (by rfl)

end DevGate.Container
