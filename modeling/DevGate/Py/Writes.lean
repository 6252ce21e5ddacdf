import DevGate.Py.Disk

set_option autoImplicit false

/- What a computation leaves on the disk, whichever way it ends: rules over its structure. -/
namespace Py

/-- The name of a file: neither empty nor a dot, and without a slash. -/
def Path.IsName (name : Str) : Prop := name ≠ [] ∧ name ≠ "." ∧ Chr.ofChar '/' ∉ name

instance (name : Str) : Decidable (Path.IsName name) := by
  unfold Path.IsName
  infer_instance

theorem Path.IsName.kept {name : Str} (plain : IsName name) :
    [name].filter (fun part => decide (part ≠ [] ∧ part ≠ ".")) = [name] := by
  rw [List.filter_eq_self]
  simpa using ⟨plain.1, plain.2.1⟩

theorem Path.name_ofStr {name : Str} (plain : IsName name) : (Path.ofStr name).name = name := by
  unfold Path.name Path.ofStr
  dsimp only
  rw [Str.split_of_not_mem _ _ plain.2.2, plain.kept]
  rfl

/-- A name after a slash is the name of the path. -/
theorem Path.name_ofStr_append (s : Str) {name : Str} (plain : IsName name) :
    (Path.ofStr (s ++ Chr.ofChar '/' :: name)).name = name := by
  unfold Path.name Path.ofStr
  dsimp only
  rw [Str.split_append_sep, Str.split_of_not_mem _ _ plain.2.2, List.filter_append, plain.kept]
  exact List.getLastD_concat ..

theorem Path.name_sub (p : Path) (names : List Str) {name : Str} :
    (p.sub (names ++ [name])).name = name := by
  unfold Path.name Path.sub
  dsimp only
  rw [← List.append_assoc]
  exact List.getLastD_concat ..

theorem Path.join_name (p : Path) {name : Str} (plain : IsName name) : p.join name = p.sub [name] :=
  Path.join_names p [name] (List.cons_ne_nil _ _) (by simpa [IsName] using plain)

theorem Path.name_join (p : Path) {name : Str} (plain : IsName name) : (p.join name).name = name := by
  rw [Path.join_name p plain]
  exact Path.name_sub p []

/-- A file beside another one, whose name goes on. -/
theorem Path.name_beside (p : Path) {name suffix : Str} (plain : IsName name)
    (goes : IsName (name ++ suffix)) :
    (Path.ofStr ((p.join name).str ++ suffix)).name = name ++ suffix := by
  have whole : (p.join name).str = name ∨
      ∃ front : Str, (p.join name).str = front ++ Chr.ofChar '/' :: name := by
    rw [Path.join_name p plain]
    unfold Path.str Path.sub
    dsimp only
    cases p.parts with
    | nil =>
        cases p.absolute
        · exact Or.inl rfl
        · exact Or.inr ⟨[], rfl⟩
    | cons first rest =>
        have cut : Str.join "/" (first :: rest ++ [name]) =
            Str.join "/" (first :: rest) ++ Chr.ofChar '/' :: name := by
          rw [Str.join_append _ _ _ (List.cons_ne_nil _ _) (List.cons_ne_nil _ _), List.append_assoc]
          rfl
        rw [cut]
        cases p.absolute
        · exact Or.inr ⟨_, by rw [if_neg Bool.false_ne_true, if_neg (by simp)]⟩
        · exact Or.inr ⟨Chr.ofChar '/' :: Str.join "/" (first :: rest), by rw [if_pos rfl]; rfl⟩
  rcases whole with same | ⟨front, same⟩
  · rw [same, Path.name_ofStr goes]
  · rw [same, List.append_assoc, List.cons_append, Path.name_ofStr_append front goes]

namespace Act

variable {α β : Type} {P Q : Path × Bytes → Prop}

/-- How the computation ends, and what it has written by then. -/
def Leaves (post : Except Exc α → List (Path × Bytes) → Prop) (body : Act α) : Prop :=
  ∀ world, ∃ new, (body world).2.log = world.log ++ new ∧ post (body world).1 new

section

variable {post : Except Exc α → List (Path × Bytes) → Prop} {body : Act α}

theorem Leaves.of (leaves : Leaves post body) {world last : World} {result : Except Exc α}
    (ran : body world = (result, last)) : ∃ new, last.log = world.log ++ new ∧ post result new := by
  obtain ⟨new, log, holds⟩ := leaves world
  rw [ran] at log holds
  exact ⟨new, log, holds⟩

theorem Leaves.mono {weaker : Except Exc α → List (Path × Bytes) → Prop} (leaves : Leaves post body)
    (implies : ∀ result new, post result new → weaker result new) : Leaves weaker body := by
  intro world
  obtain ⟨new, log, holds⟩ := leaves world
  exact ⟨new, log, implies _ _ holds⟩

theorem Leaves.and {other : Except Exc α → List (Path × Bytes) → Prop} (first : Leaves post body)
    (second : Leaves other body) : Leaves (fun result new => post result new ∧ other result new) body := by
  intro world
  obtain ⟨new, log, holds⟩ := first world
  obtain ⟨more, log', holds'⟩ := second world
  rw [log] at log'
  rw [← List.append_cancel_left log'] at holds'
  exact ⟨new, log, holds, holds'⟩

/-- An answer is that of some run. -/
theorem Leaves.ran (leaves : Leaves post body) :
    Leaves (fun result new => post result new ∧ ∃ world last, body world = (result, last)) body := by
  intro world
  obtain ⟨new, log, holds⟩ := leaves world
  exact ⟨new, log, holds, world, (body world).2, rfl⟩

theorem Leaves.ofExcept {x : Except Exc α} (holds : post x []) : Leaves post (Act.ofExcept x) :=
  fun _ => ⟨[], (List.append_nil _).symm, holds⟩

theorem Leaves.pure {a : α} (holds : post (.ok a) []) : Leaves post (pure a : Act α) :=
  Leaves.ofExcept holds

theorem Leaves.raise {e : Exc} (holds : post (.error e) []) : Leaves post (Act.raise e : Act α) :=
  Leaves.ofExcept holds

/-- What comes after starts from what was written before. -/
theorem Leaves.bind {after : Except Exc β → List (Path × Bytes) → Prop} {next : α → Act β}
    (first : Leaves post body) (stops : ∀ e new, post (.error e) new → after (.error e) new)
    (goes : ∀ a new, post (.ok a) new → Leaves (fun result more => after result (new ++ more)) (next a)) :
    Leaves after (body >>= next) := by
  intro world
  rw [bind_run]
  cases ran : body world with
  | mk result middle =>
      obtain ⟨new, log, holds⟩ := first.of ran
      cases result with
      | error e => exact ⟨new, log, stops e new holds⟩
      | ok a =>
          obtain ⟨more, log', holds'⟩ := goes a new holds middle
          refine ⟨new ++ more, ?_, holds'⟩
          dsimp only
          rw [log', log, List.append_assoc]

/-- What is computed before the rest may be taken as it came out. -/
theorem Leaves.after {x : Except Exc α} {after : Except Exc β → List (Path × Bytes) → Prop}
    {next : α → Act β} (stops : ∀ e, x = .error e → after (.error e) [])
    (goes : ∀ a, x = .ok a → Leaves after (next a)) : Leaves after (Act.ofExcept x >>= next) := by
  cases x with
  | error e => exact fun _ => ⟨[], (List.append_nil _).symm, stops e rfl⟩
  | ok a => exact goes a rfl

theorem Leaves.catching {answer : Except Exc α → List (Path × Bytes) → Prop}
    {classes : List ExcClass} {handler : Exc → Act α} (first : Leaves post body)
    (kept : ∀ a new, post (.ok a) new → answer (.ok a) new)
    (loose : ∀ e new, post (.error e) new → e.isA classes = false → answer (.error e) new)
    (handled : ∀ e new, post (.error e) new → e.isA classes = true →
      Leaves (fun result more => answer result (new ++ more)) (handler e)) :
    Leaves answer (Act.catching body classes handler) := by
  intro world
  unfold Act.catching
  cases ran : body world with
  | mk result middle =>
      obtain ⟨new, log, holds⟩ := first.of ran
      cases result with
      | ok a => exact ⟨new, log, kept a new holds⟩
      | error e =>
          by_cases caught : e.isA classes = true
          · dsimp only
            rw [if_pos caught]
            obtain ⟨more, log', holds'⟩ := handled e new holds caught middle
            exact ⟨new ++ more, by rw [log', log, List.append_assoc], holds'⟩
          · dsimp only
            rw [if_neg caught]
            exact ⟨new, log, loose e new holds (Bool.not_eq_true _ ▸ caught)⟩

end

/-- A file that was replaced is written; one that was not may be, where the call failed late. -/
theorem leaves_replace (path : Path) (payload : Bytes) :
    Leaves (fun result new => new = [(path, payload)] ∨ new = [] ∧ ∃ e, result = .error e)
      (Act.replace path payload) := by
  intro world
  unfold Act.replace Act.perform
  split
  · exact ⟨_, rfl, Or.inl rfl⟩
  · exact ⟨_, rfl, Or.inl rfl⟩
  · exact ⟨[], (List.append_nil _).symm, Or.inr ⟨rfl, _, rfl⟩⟩
  · exact ⟨_, rfl, Or.inl rfl⟩

theorem leaves_mkdir : Leaves (fun _ new => new = []) Act.mkdir := by
  intro world
  unfold Act.mkdir Act.perform
  split <;> exact ⟨[], (List.append_nil _).symm, rfl⟩

theorem leaves_mkdtemp : Leaves (fun _ new => new = []) Act.mkdtemp := by
  refine leaves_mkdir.bind (fun _ _ nothing => nothing) (fun _ new nothing world => ?_)
  rw [nothing]
  cases world.temps <;> exact ⟨[], (List.append_nil _).symm, rfl⟩

/-- All that is written, whichever way the computation ends. -/
def Writes (P : Path × Bytes → Prop) (body : Act α) : Prop :=
  Leaves (fun _ new => ∀ write ∈ new, P write) body

theorem Writes.mono {body : Act α} (writes : Writes P body) (weaker : ∀ write, P write → Q write) :
    Writes Q body :=
  Leaves.mono writes (fun _ _ each write inside => weaker write (each write inside))

theorem Writes.ofExcept (x : Except Exc α) : Writes P (Act.ofExcept x) := Leaves.ofExcept nofun

theorem Writes.pure (a : α) : Writes P (pure a : Act α) := Writes.ofExcept (.ok a)

theorem Writes.raise (e : Exc) : Writes P (Act.raise e : Act α) := Writes.ofExcept (.error e)

/-- What `P` holds of goes on with what `P` holds of. -/
theorem Writes.append {body : Act α} (writes : Writes P body) {new : List (Path × Bytes)}
    (each : ∀ write ∈ new, P write) :
    Leaves (fun _ more => ∀ write ∈ new ++ more, P write) body := by
  refine Leaves.mono writes (fun _ more later write inside => ?_)
  exact (List.mem_append.mp inside).elim (each write) (later write)

theorem Writes.bind {body : Act α} {next : α → Act β} (first : Writes P body)
    (second : ∀ a, Writes P (next a)) : Writes P (body >>= next) :=
  Leaves.bind first (fun _ _ each => each) (fun a _ each => (second a).append each)

theorem Writes.after {x : Except Exc α} {next : α → Act β} (each : ∀ a, x = .ok a → Writes P (next a)) :
    Writes P (Act.ofExcept x >>= next) :=
  Leaves.after (fun _ _ => nofun) each

theorem Writes.catching {body : Act α} {classes : List ExcClass} {handler : Exc → Act α}
    (first : Writes P body) (second : ∀ e, Writes P (handler e)) :
    Writes P (Act.catching body classes handler) :=
  Leaves.catching first (fun _ _ each => each) (fun _ _ each _ => each)
    (fun e _ each _ => (second e).append each)

theorem Writes.mkdir : Writes P Act.mkdir := by
  refine leaves_mkdir.mono (fun _ new nothing => ?_)
  rw [nothing]
  exact nofun

theorem Writes.replace {path : Path} {payload : Bytes} (fits : P (path, payload)) :
    Writes P (Act.replace path payload) := by
  refine (leaves_replace path payload).mono (fun _ new ends write inside => ?_)
  rcases ends with same | ⟨same, -⟩
  · rw [same] at inside
    rw [List.mem_singleton.mp inside]
    exact fits
  · rw [same] at inside
    cases inside

theorem Writes.mkdtemp : Writes P Act.mkdtemp := by
  refine leaves_mkdtemp.mono (fun _ new nothing => ?_)
  rw [nothing]
  exact nofun

/-- The last bytes written to a file of a name. -/
def lastNamed (name : Str) (log : List (Path × Bytes)) : Option Bytes :=
  ((log.filter (fun write => write.1.name = name)).getLast?).map Prod.snd

theorem lastNamed_append (name : Str) (front back : List (Path × Bytes)) :
    lastNamed name (front ++ back) = (lastNamed name back).or (lastNamed name front) := by
  unfold lastNamed
  rw [List.filter_append, List.getLast?_append]
  cases (back.filter (fun write => write.1.name = name)).getLast? <;> rfl

theorem lastNamed_aside {name : Str} {log : List (Path × Bytes)}
    (aside : ∀ write ∈ log, write.1.name ≠ name) : lastNamed name log = none := by
  unfold lastNamed
  rw [List.filter_eq_nil_iff.mpr (by simpa using aside)]
  rfl

/-- Where every write to a file of the name is of one payload, so is the last. -/
theorem lastNamed_of_forall {name : Str} {log : List (Path × Bytes)} {payload : Bytes}
    (each : ∀ write ∈ log, write.1.name = name ∧ write.2 = payload) (some_ : log ≠ []) :
    lastNamed name log = some payload := by
  unfold lastNamed
  rw [List.filter_eq_self.mpr (by simpa using fun p b inside => (each (p, b) inside).1),
    List.getLast?_eq_some_getLast some_]
  exact congrArg some (each _ (List.getLast_mem some_)).2

end Act

end Py
