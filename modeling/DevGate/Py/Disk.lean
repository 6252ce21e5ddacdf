import DevGate.Py.Exc
import DevGate.Py.Sha256

set_option autoImplicit false

/- Paths, what a program reads of the file system, and the files it writes. -/
namespace Py

/-- `PurePosixPath`. -/
structure Path where
  absolute : Bool
  parts : List Str
  deriving DecidableEq

namespace Path

def ofStr (s : Str) : Path where
  absolute := s.head? = some (Chr.ofChar '/')
  parts := (Str.split (Chr.ofChar '/') s).filter (fun part => part ≠ [] ∧ part ≠ ".")

/-- The path of `names` below `p`. -/
def sub (p : Path) (names : List Str) : Path := ⟨p.absolute, p.parts ++ names⟩

/-- `p / s`. -/
def join (p : Path) (s : Str) : Path :=
  if (ofStr s).absolute then ofStr s else p.sub (ofStr s).parts

/-- `str(p)`. -/
def str (p : Path) : Str :=
  if p.absolute then Chr.ofChar '/' :: Str.join "/" p.parts
  else if p.parts = [] then "." else Str.join "/" p.parts

/-- `p.parent`. -/
def parent (p : Path) : Path := ⟨p.absolute, p.parts.dropLast⟩

/-- `p.name`. -/
def name (p : Path) : Str := p.parts.getLastD []

/-- `root in p.parents`. -/
def isParent (root p : Path) : Bool :=
  root.absolute == p.absolute && root.parts.isPrefixOf p.parts && root.parts.length < p.parts.length

theorem isParent_sub (root : Path) {names : List Str} (some_ : names ≠ []) :
    root.isParent (root.sub names) = true := by
  have long := List.length_pos_iff.mpr some_
  unfold isParent sub
  simp only [beq_self_eq_true, List.isPrefixOf_iff_prefix, List.prefix_append, Bool.and_eq_true,
    decide_eq_true_eq, List.length_append, true_and]
  omega

theorem sub_injective {p : Path} {names others : List Str} (same : p.sub names = p.sub others) :
    names = others := by
  unfold sub at same
  exact List.append_cancel_left (Path.mk.inj same).2

/-- A relative path text names the parts it is joined of. -/
theorem join_names (p : Path) (names : List Str) (some_ : names ≠ [])
    (plain : ∀ name ∈ names, name ≠ [] ∧ name ≠ "." ∧ Chr.ofChar '/' ∉ name) :
    p.join (Str.join "/" names) = p.sub names := by
  have cut : Str.split (Chr.ofChar '/') (Str.join "/" names) = names :=
    Str.split_join_of_not_mem _ names some_ (fun name inside => (plain name inside).2.2)
  have parts : (ofStr (Str.join "/" names)).parts = names := by
    unfold ofStr
    rw [cut, List.filter_eq_self]
    intro name inside
    simpa using ⟨(plain name inside).1, (plain name inside).2.1⟩
  have relative : (ofStr (Str.join "/" names)).absolute = false := by
    obtain ⟨first, rest, rfl⟩ := List.exists_cons_of_ne_nil some_
    obtain ⟨filled, -, clear⟩ := plain first List.mem_cons_self
    obtain ⟨c, later, rfl⟩ := List.exists_cons_of_ne_nil filled
    rw [List.mem_cons, not_or] at clear
    have head : (Str.join "/" ((c :: later) :: rest)).head? = some c := by
      cases rest <;> rfl
    unfold ofStr
    simp only [head, Option.some.injEq, decide_eq_false_iff_not]
    exact fun same => clear.1 same.symm
  unfold join
  rw [relative, parts]
  rfl

/-- A name after a slash is one more part. -/
theorem ofStr_append {s name : Str} (some_ : s ≠ [])
    (plain : name ≠ [] ∧ name ≠ "." ∧ Chr.ofChar '/' ∉ name) :
    ofStr (s ++ Chr.ofChar '/' :: name) = (ofStr s).sub [name] := by
  obtain ⟨c, rest, rfl⟩ := List.exists_cons_of_ne_nil some_
  obtain ⟨filled, dot, slash⟩ := plain
  have kept : [name].filter (fun part => decide (part ≠ [] ∧ part ≠ ".")) = [name] := by
    rw [List.filter_eq_self]
    simpa using ⟨filled, dot⟩
  unfold ofStr sub
  rw [Str.split_append_sep, Str.split_of_not_mem _ _ slash, List.filter_append, kept]
  rfl

end Path

/-- What the file system answers. -/
structure Disk where
  resolve : Path → Except Exc Path
  exists_ : Path → Bool
  isFile : Path → Bool
  isDir : Path → Bool
  read : Path → Except Exc Bytes

namespace Disk

/-- The file a path names. -/
def locate (disk : Disk) (p : Path) : Path := (disk.resolve p).toOption.getD p

/-- What stands at a location after writes: the last one there. -/
def written (disk : Disk) (log : List (Path × Bytes)) (place : Path) : Option Bytes :=
  (log.reverse.find? (fun write => disk.locate write.1 = place)).map Prod.snd

/-- The file system after writes. -/
def after (disk : Disk) (log : List (Path × Bytes)) : Disk where
  resolve := disk.resolve
  exists_ p := (disk.written log (disk.locate p)).isSome || disk.exists_ p
  isFile p := (disk.written log (disk.locate p)).isSome || disk.isFile p
  isDir := disk.isDir
  read p :=
    match disk.written log (disk.locate p) with
    | some bytes => .ok bytes
    | none => disk.read p

/-- A directory with no links in it: what it holds is found under its real path. -/
structure Linkless (disk : Disk) (out root : Path) : Prop where
  top : disk.resolve out = .ok root
  below : ∀ names, (".." : Str) ∉ names → disk.resolve (out.sub names) = .ok (root.sub names)
  real : ∀ names, (".." : Str) ∉ names → disk.resolve (root.sub names) = .ok (root.sub names)

theorem Linkless.locate {disk : Disk} {out root : Path} (linkless : disk.Linkless out root)
    {names : List Str} (plain : (".." : Str) ∉ names) :
    disk.locate (out.sub names) = root.sub names := by
  rw [Disk.locate, linkless.below names plain]
  rfl

theorem Linkless.locate_real {disk : Disk} {out root : Path} (linkless : disk.Linkless out root)
    {names : List Str} (plain : (".." : Str) ∉ names) :
    disk.locate (root.sub names) = root.sub names := by
  rw [Disk.locate, linkless.real names plain]
  rfl

theorem written_append (disk : Disk) (front back : List (Path × Bytes)) (place : Path) :
    disk.written (front ++ back) place = (disk.written back place).or (disk.written front place) := by
  unfold written
  rw [List.reverse_append, List.find?_append]
  cases back.reverse.find? (fun write => disk.locate write.1 = place) <;> simp

/-- Where every write to a location has one payload, it stands there. -/
theorem written_of_forall {disk : Disk} {log : List (Path × Bytes)} {place : Path} {bytes : Bytes}
    (some_ : ∃ write ∈ log, disk.locate write.1 = place)
    (each : ∀ write ∈ log, disk.locate write.1 = place → write.2 = bytes) :
    disk.written log place = some bytes := by
  unfold written
  cases found : log.reverse.find? (fun write => disk.locate write.1 = place) with
  | none =>
      obtain ⟨write, inside, same⟩ := some_
      have missed := List.find?_eq_none.mp found write (List.mem_reverse.mpr inside)
      rw [decide_eq_true_eq] at missed
      exact absurd same missed
  | some write =>
      have same := List.find?_some found
      rw [decide_eq_true_eq] at same
      have inside := List.mem_reverse.mp (List.mem_of_find?_eq_some found)
      rw [Option.map_some, each write inside same]

/-- What stands at a location after the writes there, whatever was written before. -/
theorem written_between {disk : Disk} {front middle back : List (Path × Bytes)} {place : Path}
    {bytes : Bytes} (later : ∀ write ∈ back, disk.locate write.1 ≠ place)
    (stands : disk.written middle place = some bytes) :
    disk.written (front ++ middle ++ back) place = some bytes := by
  have missed : disk.written back place = none := by
    unfold written
    rw [Option.map_eq_none_iff, List.find?_eq_none]
    intro write inside
    rw [decide_eq_true_eq]
    exact later write (List.mem_reverse.mp inside)
  rw [written_append, written_append, missed, stands]
  rfl

end Disk

/-- How a file operation ends: done, refused without effect, or failed after it took
effect. -/
inductive Fate where
  | done
  | refused (e : Exc)
  | late (e : Exc)

/-- The writes a program has made, and how the next ones end: all is well from the
end of the list on. -/
structure World where
  log : List (Path × Bytes)
  fates : List Fate
  /-- What the next calls of `mkdtemp` answer. -/
  temps : List Str

/-- A computation that writes: what it has written stays when it raises. -/
def Act (α : Type) : Type := World → Except Exc α × World

namespace Act

instance : Monad Act where
  pure a := fun world => (.ok a, world)
  bind body next := fun world =>
    match body world with
    | (.ok a, world) => next a world
    | (.error e, world) => (.error e, world)

/-- An operation on the file system that `done` describes. -/
def perform (done : World → World) : Act Unit := fun world =>
  match world.fates with
  | [] => (.ok (), done world)
  | .done :: fates => (.ok (), done { world with fates := fates })
  | .refused e :: fates => (.error e, { world with fates := fates })
  | .late e :: fates => (.error e, done { world with fates := fates })

/-- `mkdir`. -/
def mkdir : Act Unit := perform id

/-- A file that is replaced as a whole. -/
def replace (path : Path) (payload : Bytes) : Act Unit :=
  perform (fun world => { world with log := world.log ++ [(path, payload)] })

/-- `tempfile.mkdtemp()`. -/
def mkdtemp : Act Str := do
  perform id
  fun world => match world.temps with
    | [] => (.error ⟨.osError, ["No usable temporary directory found"]⟩, world)
    | name :: temps => (.ok name, { world with temps := temps })

def ofExcept {α : Type} (x : Except Exc α) : Act α := fun world => (x, world)

def raise {α : Type} (e : Exc) : Act α := ofExcept (.error e)

/-- `try: body except classes as e: handler(e)`. -/
def catching {α : Type} (body : Act α) (classes : List ExcClass) (handler : Exc → Act α) : Act α :=
  fun world =>
    match body world with
    | (.ok a, world) => (.ok a, world)
    | (.error e, world) => if e.isA classes then handler e world else (.error e, world)

theorem bind_run {α β : Type} (body : Act α) (next : α → Act β) (world : World) :
    (body >>= next) world =
      match body world with
      | (.ok a, after) => next a after
      | (.error e, after) => (.error e, after) := rfl

@[simp] theorem pure_run {α : Type} (a : α) (world : World) : (pure a : Act α) world = (.ok a, world) :=
  rfl

@[simp] theorem ofExcept_run {α : Type} (x : Except Exc α) (world : World) :
    (ofExcept x : Act α) world = (x, world) := rfl

/-- A bind that answers ran both parts. -/
theorem bind_ok {α β : Type} {body : Act α} {next : α → Act β} {world last : World} {b : β} :
    (body >>= next) world = (.ok b, last) ↔
      ∃ a middle, body world = (.ok a, middle) ∧ next a middle = (.ok b, last) := by
  rw [bind_run]
  cases ran : body world with
  | mk result after => cases result <;> simp

theorem catching_ok {α : Type} {body : Act α} {classes : List ExcClass} {handler : Exc → Act α}
    {world last : World} {a : α} :
    catching body classes handler world = (.ok a, last) ↔
      body world = (.ok a, last) ∨
        ∃ e middle, body world = (.error e, middle) ∧ e.isA classes = true ∧
          handler e middle = (.ok a, last) := by
  unfold catching
  cases ran : body world with
  | mk result after =>
      cases result with
      | ok value => simp
      | error e => by_cases matched : e.isA classes = true <;> simp [matched]

theorem perform_ok {done : World → World} {world last : World}
    (ran : perform done world = (.ok (), last)) :
    ∃ fates, last = done { world with fates := fates } := by
  unfold perform at ran
  split at ran
  · exact ⟨world.fates, (Prod.ext_iff.mp ran).2.symm⟩
  · exact ⟨_, (Prod.ext_iff.mp ran).2.symm⟩
  · cases ran
  · cases ran

theorem replace_ok {path : Path} {payload : Bytes} {world last : World}
    (ran : replace path payload world = (.ok (), last)) :
    last.log = world.log ++ [(path, payload)] := by
  obtain ⟨fates, same⟩ := perform_ok ran
  rw [same]

/-- A write where nothing fails. -/
theorem replace_calm {path : Path} {payload : Bytes} {world : World} (calm : world.fates = []) :
    replace path payload world = (.ok (), { world with log := world.log ++ [(path, payload)] }) := by
  obtain ⟨log, fates, temps⟩ := world
  cases calm
  rfl

theorem mkdir_ok {world last : World} (ran : mkdir world = (.ok (), last)) :
    last.log = world.log := by
  obtain ⟨fates, same⟩ := perform_ok ran
  rw [same]
  rfl

end Act

end Py
