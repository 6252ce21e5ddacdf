import DevGate.Coherence.ContainerExec
import DevGate.Py.RealPath

set_option autoImplicit false

/- What a launched container may write lies apart from what it evaluates. -/
namespace DevGate.Container

open Py Launcher
open Profiles (profileRegistryError)

/-! What reached the launcher. -/

theorem refuse_ok {p : Printer} {outDir stage : Str} {reason : Text} {world last : World}
    {r : Prepared} (ran : refuse p outDir reason stage world = (.ok r, last)) :
    ∃ code, r = .failed code := by
  obtain ⟨code, _, -, ran⟩ := Act.bind_ok.mp ran
  cases ran
  exact ⟨code, rfl⟩

/-- What the checks before the launch have established. -/
structure Checked (u : Unicode) (host : Host) (l : Launched) : Prop where
  validated : ∃ cfg supported, validateLaunch u host cfg supported = .ok l.ctx
  outside : ∃ out, host.resolve (Path.ofStr l.hostOut) = .ok out ∧
    ∀ mt ∈ l.ctx.mounts, covers mt.source out.str = false

theorem stageRequest_reached {p : Printer} {u : Unicode} {host : Host} {registryPath hostOut : Str}
    {req cfg : Dict Str Value} {world last : World} {l : Launched}
    (ran : stageRequest p u host registryPath hostOut req cfg world = (.ok (.reached l), last)) :
    Checked u host l := by
  unfold stageRequest at ran
  obtain ⟨reg, w₁, -, ran⟩ := Act.bind_ok.mp ran
  obtain ⟨ctx, w₂, valid, ran⟩ := Act.bind_ok.mp ran
  obtain ⟨_, w₃, -, ran⟩ := Act.bind_ok.mp ran
  obtain ⟨_, w₄, -, ran⟩ := Act.bind_ok.mp ran
  rw [Act.ofExcept_run, Prod.mk.injEq] at valid
  split at ran
  · cases ran
  · obtain ⟨realOut, w₅, real, ran⟩ := Act.bind_ok.mp ran
    rw [Act.ofExcept_run, Prod.mk.injEq] at real
    obtain ⟨out, resolved, shown⟩ := bind_ok.mp real.1
    cases shown
    cases found : ctx.mounts.find? (fun mt => covers mt.source out.str) with
    | some mt =>
        simp only [found] at ran
        obtain ⟨code, same⟩ := refuse_ok ran
        cases same
    | none =>
        simp only [found] at ran
        obtain ⟨staged, w₆, -, ran⟩ := Act.bind_ok.mp ran
        obtain ⟨_, w₇, -, ran⟩ := Act.bind_ok.mp ran
        cases ran
        refine ⟨⟨_, _, valid.1⟩, out, resolved, ?_⟩
        intro mt inside
        have free := List.find?_eq_none.mp found mt inside
        simpa using free

theorem prepare_reached {p : Printer} {u : Unicode} {host : Host}
    {requestPath launchPath registryPath : Str} {world last : World} {l : Launched}
    (ran : prepare p u host requestPath launchPath registryPath world = (.ok (.reached l), last)) :
    Checked u host l := by
  unfold prepare at ran
  obtain ⟨_, w₁, -, ran⟩ := Act.bind_ok.mp ran
  cases documents : readDocuments host requestPath launchPath with
  | error e =>
      simp only [documents] at ran
      split at ran
      · obtain ⟨code, same⟩ := refuse_ok ran
        cases same
      · cases ran
  | ok both =>
      obtain ⟨req, cfg⟩ := both
      simp only [documents] at ran
      cases first : req.dict? with
      | none =>
          simp only [first] at ran
          obtain ⟨code, same⟩ := refuse_ok ran
          cases same
      | some fields =>
          cases second : cfg.dict? with
          | none =>
              simp only [first, second] at ran
              obtain ⟨code, same⟩ := refuse_ok ran
              cases same
          | some own =>
              simp only [first, second] at ran
              split at ran
              · obtain ⟨code, same⟩ := refuse_ok ran
                cases same
              · rcases Act.catching_ok.mp ran with fine | ⟨e, w₂, -, -, handled⟩
                · exact stageRequest_reached fine
                · obtain ⟨code, same⟩ := refuse_ok handled
                  cases same

/-! Mount sources are resolved. -/

theorem validateMount_ok {host : Host} {seen : List Str} {mt : Value} {mount : Mount}
    (valid : validateMount host seen mt = .ok mount) :
    ∃ s q, host.resolve (Path.ofStr s) = .ok q ∧ mount.source = q.str := by
  unfold validateMount at valid
  split at valid
  · split at valid
    · rename_i src tgt _ _
      split at valid
      · cases valid
      · obtain ⟨socket, -, valid⟩ := bind_ok.mp valid
        split at valid
        · cases valid
        · split at valid
          · cases valid
          · obtain ⟨real, found, valid⟩ := bind_ok.mp valid
            obtain ⟨q, resolved, shown⟩ := bind_ok.mp found
            cases shown
            cases valid
            exact ⟨src, q, resolved, rfl⟩
    · cases valid
  · cases valid

theorem validateMountList_ok {host : Host} {seen : List Str} {vs : List Value} {mounts : List Mount}
    (valid : validateMountList host seen vs = .ok mounts) :
    ∀ mount ∈ mounts, ∃ s q, host.resolve (Path.ofStr s) = .ok q ∧ mount.source = q.str := by
  induction vs generalizing seen mounts with
  | nil =>
      cases valid
      simp
  | cons v rest ih =>
      obtain ⟨first, here, valid⟩ := bind_ok.mp valid
      obtain ⟨later, listed, valid⟩ := bind_ok.mp valid
      cases valid
      rw [List.forall_mem_cons]
      exact ⟨validateMount_ok here, ih listed⟩

theorem validateMounts_ok {host : Host} {v : Value} {mounts : List Mount}
    (valid : validateMounts host v = .ok mounts) :
    ∀ mount ∈ mounts, ∃ s q, host.resolve (Path.ofStr s) = .ok q ∧ mount.source = q.str := by
  unfold validateMounts at valid
  split at valid
  · obtain ⟨listed, found, valid⟩ := bind_ok.mp valid
    cases valid
    intro mount inside
    exact validateMountList_ok found mount ((List.perm_insertionSort _ listed).mem_iff.mp inside)
  · cases valid

/-- The mounts and the limits of an accepted launch are those of its configuration. -/
theorem validateLaunch_ok {u : Unicode} {host : Host} {cfg : Dict Str Value}
    {supported : List Str} {ctx : Launch} (valid : validateLaunch u host cfg supported = .ok ctx) :
    validateMounts host ((Dict.get? cfg "mounts").getD (.list [])) = .ok ctx.mounts ∧
      validateLimits u ((Dict.get? cfg "limits").getD .null) = .ok ctx.limits := by
  unfold validateLaunch at valid
  obtain ⟨image, -, valid⟩ := bind_ok.mp valid
  split at valid
  · cases valid
  · obtain ⟨user, -, valid⟩ := bind_ok.mp valid
    obtain ⟨_, -, valid⟩ := bind_ok.mp valid
    obtain ⟨mounts, found, valid⟩ := bind_ok.mp valid
    obtain ⟨scratch, -, valid⟩ := bind_ok.mp valid
    obtain ⟨limits, held, valid⟩ := bind_ok.mp valid
    obtain ⟨profile, -, valid⟩ := bind_ok.mp valid
    obtain ⟨digests, -, valid⟩ := bind_ok.mp valid
    obtain ⟨_, -, valid⟩ := bind_ok.mp valid
    cases valid
    exact ⟨found, held⟩

/-! The subtrees. -/

/-- The text comparison of the driver, on real paths. -/
theorem covers_str {src out : Path} (real : src.Real) (real' : out.Real) :
    covers src.str out.str = true ↔ src.parts <+: out.parts ∧ (src.parts = [] → out.parts = []) := by
  have free : ∀ part ∈ src.parts, Chr.ofChar '/' ∉ part :=
    fun part inside => (real.names part inside).2.2.2
  have free' : ∀ part ∈ out.parts, Chr.ofChar '/' ∉ part :=
    fun part inside => (real'.names part inside).2.2.2
  have same : out.str = src.str ↔ out.parts = src.parts := by
    constructor
    · intro texts
      rw [← real'.ofStr_str, texts, real.ofStr_str]
    · intro parts
      rw [real'.str_eq, real.str_eq, parts]
  unfold covers
  rw [Bool.or_eq_true, decide_eq_true_eq, same, List.isPrefixOf_iff_prefix]
  by_cases top : src.parts = []
  · -- the text of the root ends with a slash already
    have longer : ¬ src.str ++ [Chr.ofChar '/'] <+: out.str := by
      rw [real.str_eq, real'.str_eq, top, List.cons_append, List.cons_prefix_cons]
      rintro ⟨-, rest, starts⟩
      cases parts : out.parts with
      | nil =>
          rw [parts] at starts
          cases starts
      | cons first later =>
          rw [parts] at starts
          obtain ⟨c, name, rfl⟩ := List.exists_cons_of_ne_nil
            (real'.names first (by rw [parts]; exact List.mem_cons_self)).1
          have clear := free' (c :: name) (by rw [parts]; exact List.mem_cons_self)
          have head : (Str.join "/" ((c :: name) :: later)).head? = some c := by
            cases later <;> rfl
          rw [← starts] at head
          have slash : Chr.ofChar '/' = c := Option.some.inj head
          exact clear (by rw [slash]; exact List.mem_cons_self)
    simp only [top, longer, or_false, List.nil_prefix, forall_const, true_and]
  · have starts : src.str ++ [Chr.ofChar '/'] <+: out.str ↔
        ∃ zs, zs ≠ [] ∧ out.parts = src.parts ++ zs := by
      rw [real.str_eq, real'.str_eq, List.cons_append, List.cons_prefix_cons]
      simpa using Path.join_prefix top free free'
    rw [starts]
    constructor
    · rintro (parts | ⟨zs, -, parts⟩)
      · exact ⟨by rw [parts], fun none => absurd none top⟩
      · exact ⟨by rw [parts]; exact List.prefix_append _ _, fun none => absurd none top⟩
    · rintro ⟨⟨zs, parts⟩, -⟩
      by_cases ends : zs = []
      · left
        rw [← parts, ends, List.append_nil]
      · exact Or.inr ⟨zs, ends, parts.symm⟩

/-- Neither subtree holds the other. -/
def Apart (a b : Path) : Prop := ¬ a.parts <+: b.parts ∧ ¬ b.parts <+: a.parts

/-- The subtree a bind of the text `s` makes visible. -/
def boundTree (host : Host) (s : Str) (tree : Path) : Prop := host.resolve (Path.ofStr s) = .ok tree

/-- The writable subtree lies apart from every read-only one. -/
def Isolated (host : Host) (l : Launched) : Prop :=
  ∀ out, boundTree host l.hostOut out → ∀ mt ∈ l.ctx.mounts, ∀ src, boundTree host mt.source src →
    Apart out src

/-- No source is the root directory, and none lies strictly inside the output directory. -/
def SourcesOutside (host : Host) (l : Launched) : Prop :=
  ∀ out, boundTree host l.hostOut out → ∀ mt ∈ l.ctx.mounts, ∀ src, boundTree host mt.source src →
    src.parts ≠ [] ∧ ¬ ∃ names, names ≠ [] ∧ src.parts = out.parts ++ names

/-- What reaches the launcher is isolated exactly where no source is the root directory or lies
inside the output directory. -/
theorem isolated_iff {p : Printer} {u : Unicode} {host : Host}
    {requestPath launchPath registryPath : Str} {world staged : World} {l : Launched}
    (realpath : host.Realpath)
    (reached : prepare p u host requestPath launchPath registryPath world =
      (.ok (.reached l), staged)) :
    Isolated host l ↔ SourcesOutside host l := by
  obtain ⟨⟨cfg, supported, valid⟩, out, resolved, outside⟩ := prepare_reached reached
  have mounted := (validateLaunch_ok valid).1
  have sources := validateMounts_ok mounted
  unfold Isolated SourcesOutside
  apply forall_congr'
  intro own
  apply forall_congr'
  intro bound
  have same : out = own := Except.ok.inj (resolved.symm.trans bound)
  subst same
  apply forall₂_congr
  intro mt inside
  apply forall_congr'
  intro src
  apply forall_congr'
  intro bound'
  obtain ⟨s, q, found, text⟩ := sources mt inside
  have again := realpath.resolve_str found
  unfold boundTree at bound'
  rw [text, again, Except.ok.injEq] at bound'
  subst bound'
  have checked := outside mt inside
  rw [text, ← Bool.not_eq_true, covers_str (realpath.real found) (realpath.real resolved)] at checked
  unfold Apart
  constructor
  · rintro ⟨above, below⟩
    constructor
    · intro top
      exact below (by rw [top]; exact List.nil_prefix)
    · rintro ⟨names, -, parts⟩
      exact above (by rw [parts]; exact List.prefix_append _ _)
  · rintro ⟨named, free⟩
    have below : ¬ q.parts <+: out.parts := by
      intro starts
      exact checked ⟨starts, fun top => absurd top named⟩
    refine ⟨?_, below⟩
    rintro ⟨names, parts⟩
    by_cases ends : names = []
    · apply below
      rw [← parts, ends, List.append_nil]
    · exact free ⟨names, ends, parts.symm⟩

/-! A launch of one image over one input directory. -/

def asciiDigits : Unicode where
  decimal c := if 48 ≤ c.val ∧ c.val ≤ 57 then some (c.val - 48) else none
  isDigit c := 48 ≤ c.val && c.val ≤ 57
  lower s := s.map Unicode.asciiLower

def hexPrinter : Printer where
  isPrintable _ := false
  float _ := "1.0"

def pilotDigest : Str := "sha256:" ++ List.replicate 64 (Chr.ofChar '0')

def pilotRequest (outputs : Str) : Value :=
  .dict [("outputs", .str outputs), ("subject", .dict [("root", .str "/work/in/src")])]

def pilotConfig : Value :=
  .dict [("cap_drop", .list [.str "ALL"]), ("image", .str ("evaluator@" ++ pilotDigest)),
    ("image_manifest_digest", .str pilotDigest),
    ("limits", .dict [("cpus", .str "1.0"), ("memory", .str "256m"), ("nofile", .int 128),
      ("output_bytes", .int 1048576), ("pids", .int 64), ("time_s", .int 300)]),
    ("mounts", .list [.dict [("readonly", .bool true), ("source", .str "/work/in"),
      ("target", .str "/input")]]),
    ("network", .str "none"), ("profile", .str "linux-amd64-v1"), ("read_only_rootfs", .bool true),
    ("scratch", .dict [("size", .str "64m")]), ("user", .str "1000:1000")]

def pilotRegistry : Value :=
  .dict [("image", .str "evaluator"), ("profiles", .list [.dict [
      ("base_image", .str ("python@" ++ pilotDigest)), ("image_manifest_digest", .str pilotDigest),
      ("label", .str "linux-amd64-v1"), ("platform", .str "linux/amd64"),
      ("semantic_equivalence_group", .str "default")]]),
    ("schema", .str "execution-profiles")]

def isName (part : Str) : Bool := part ≠ [] && part ≠ "." && part ≠ ".." && Chr.ofChar '/' ∉ part

/-- A file system without links, which holds `files`. -/
def pilotHost (files : List (Path × Bytes)) : Host where
  resolve p := .ok ⟨true, p.parts.filter isName⟩
  exists_ p := (files.find? (fun f => f.1 = p)).isSome
  isFile p := (files.find? (fun f => f.1 = p)).isSome
  isDir _ := true
  read p :=
    match files.find? (fun f => f.1 = p) with
    | some f => .ok f.2
    | none => .error ⟨.osError, ["[Errno 2] No such file or directory"]⟩
  isSocket _ := .ok false

def document (path : Str) (v : Value) : Path × Bytes := (Path.ofStr path, Utf8.ascii (Json.dumps v))

def pilotFiles (outputs : Str) : List (Path × Bytes) :=
  [document "/work/request.json" (pilotRequest outputs), document "/work/launch.json" pilotConfig,
    document "/registry.json" pilotRegistry]

def blankWorld : World := ⟨[], [], []⟩

def pilotPrepare (outputs : Str) : Except Exc Prepared × World :=
  prepare hexPrinter asciiDigits (pilotHost (pilotFiles outputs)) "/work/request.json"
    "/work/launch.json" "/registry.json" blankWorld

/-- Did the launch get as far as the container, with this output directory and these mounts? -/
def reaches (r : Except Exc Prepared × World) (hostOut : Str) (mounts : List Mount) : Bool :=
  match r.1 with
  | .ok (.reached l) => l.hostOut = hostOut && l.ctx.mounts = mounts
  | _ => false

theorem reached_of_reaches {r : Except Exc Prepared × World} {hostOut : Str} {mounts : List Mount}
    (ran : reaches r hostOut mounts = true) :
    ∃ l staged, r = (.ok (.reached l), staged) ∧ l.hostOut = hostOut ∧ l.ctx.mounts = mounts := by
  obtain ⟨answer, staged⟩ := r
  unfold reaches at ran
  split at ran
  · rename_i l same
    cases same
    rw [Bool.and_eq_true, decide_eq_true_eq, decide_eq_true_eq] at ran
    exact ⟨l, staged, rfl, ran.1, ran.2⟩
  · cases ran

theorem pilot_realpath (files : List (Path × Bytes)) : (pilotHost files).Realpath := by
  have names : ∀ {p q : Path}, (pilotHost files).resolve p = .ok q →
      q = ⟨true, p.parts.filter isName⟩ := by
    intro p q resolved
    exact (Except.ok.inj resolved).symm
  constructor
  · intro p q resolved
    rw [names resolved]
    refine ⟨rfl, ?_⟩
    intro part inside
    have named := (List.mem_filter.mp inside).2
    simpa [isName, and_assoc] using named
  · intro p q resolved
    rw [names resolved]
    show Except.ok _ = _
    rw [List.filter_filter]
    simp

theorem pilot_isolated :
    ∃ l staged, pilotPrepare "/work/out" = (.ok (.reached l), staged) ∧
      Isolated (pilotHost (pilotFiles "/work/out")) l := by
  have ran : reaches (pilotPrepare "/work/out") "/work/out" [⟨"/work/in", "/input"⟩] = true := by
    decide +kernel
  obtain ⟨l, staged, reached, out, mounts⟩ := reached_of_reaches ran
  refine ⟨l, staged, reached, (isolated_iff (pilot_realpath _) reached).mpr ?_⟩
  unfold SourcesOutside
  rw [out, mounts]
  intro tree bound mt inside src bound'
  rw [List.mem_singleton.mp inside] at bound'
  cases bound
  cases bound'
  refine ⟨by decide, ?_⟩
  rintro ⟨names, -, parts⟩
  have second : ("in" : Str) = "out" := (List.cons.inj (List.cons.inj parts).2).1
  exact absurd second (by decide)

/-- Nothing refuses an output directory around the sources. -/
theorem surrounding_not_isolated :
    ∃ l staged, pilotPrepare "/work" = (.ok (.reached l), staged) ∧
      ¬ Isolated (pilotHost (pilotFiles "/work")) l := by
  have ran : reaches (pilotPrepare "/work") "/work" [⟨"/work/in", "/input"⟩] = true := by
    decide +kernel
  obtain ⟨l, staged, reached, out, mounts⟩ := reached_of_reaches ran
  refine ⟨l, staged, reached, ?_⟩
  intro isolated
  unfold Isolated at isolated
  rw [out, mounts] at isolated
  have apart := isolated ⟨true, ["work"]⟩ rfl _ (List.mem_singleton_self _) ⟨true, ["work", "in"]⟩ rfl
  exact apart.1 ⟨["in"], rfl⟩

end DevGate.Container
