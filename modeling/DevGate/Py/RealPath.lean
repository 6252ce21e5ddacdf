import DevGate.Py.Disk

set_option autoImplicit false

/- Real paths: what `os.path.realpath` and `Path.resolve` answer. -/
namespace Py

namespace Path

/-- Absolute, and made of names only. -/
structure Real (p : Path) : Prop where
  absolute : p.absolute = true
  names : ∀ part ∈ p.parts, part ≠ [] ∧ part ≠ "." ∧ part ≠ ".." ∧ Chr.ofChar '/' ∉ part

theorem Real.str_eq {p : Path} (real : p.Real) :
    p.str = Chr.ofChar '/' :: Str.join "/" p.parts := by
  unfold str
  rw [if_pos real.absolute]

theorem Real.split_join {p : Path} (real : p.Real) (some_ : p.parts ≠ []) :
    Str.split (Chr.ofChar '/') (Str.join "/" p.parts) = p.parts :=
  Str.split_join_of_not_mem _ p.parts some_ (fun part inside => (real.names part inside).2.2.2)

/-- A real path is what its text names. -/
theorem Real.ofStr_str {p : Path} (real : p.Real) : ofStr p.str = p := by
  have kept : p.parts.filter (fun part => decide (part ≠ [] ∧ part ≠ ".")) = p.parts := by
    rw [List.filter_eq_self]
    intro part inside
    have plain := real.names part inside
    simpa using ⟨plain.1, plain.2.1⟩
  obtain ⟨absolute, parts⟩ := p
  have rooted : absolute = true := real.absolute
  subst rooted
  rw [real.str_eq]
  unfold ofStr
  by_cases some_ : parts = []
  · subst some_
    rfl
  · have cut := real.split_join some_
    simp only at cut kept
    simp only [Str.split, ↓reduceIte, cut, List.head?_cons]
    rw [List.filter_cons_of_neg (by simp), kept]
    rfl

/-- A joined text with a slash after it starts another exactly when its names do. -/
theorem join_prefix {xs ys : List Str} (some_ : xs ≠ []) (free : ∀ x ∈ xs, Chr.ofChar '/' ∉ x)
    (free' : ∀ y ∈ ys, Chr.ofChar '/' ∉ y) :
    Str.join "/" xs ++ [Chr.ofChar '/'] <+: Str.join "/" ys ↔ ∃ zs, zs ≠ [] ∧ ys = xs ++ zs := by
  constructor
  · rintro ⟨rest, whole⟩
    rw [List.append_assoc, List.singleton_append] at whole
    have filled : ys ≠ [] := by
      rintro rfl
      simp [Str.join] at whole
    have cut := Str.split_append_sep (Chr.ofChar '/') (Str.join "/" xs) rest
    rw [whole] at cut
    have left : Str.split (Chr.ofChar '/') (Str.join "/" ys) = ys :=
      Str.split_join_of_not_mem _ ys filled free'
    have right : Str.split (Chr.ofChar '/') (Str.join "/" xs) = xs :=
      Str.split_join_of_not_mem _ xs some_ free
    rw [left, right] at cut
    exact ⟨_, Str.split_ne_nil _ rest, cut⟩
  · rintro ⟨zs, more, rfl⟩
    rw [Str.join_append "/" xs zs some_ more]
    exact List.prefix_append _ _

/-- `p.relative_to(out)`. -/
def relativeTo (p out : Path) : Except Exc Path :=
  if out.absolute = p.absolute ∧ out.parts <+: p.parts then
    .ok ⟨false, p.parts.drop out.parts.length⟩
  else
    .error ⟨.valueError,
      [.repr (.str p.str), " is not in the subpath of ", .repr (.str out.str)]⟩

theorem relativeTo_ok {p out found : Path} :
    p.relativeTo out = .ok found ↔ ∃ names, p = out.sub names ∧ found = ⟨false, names⟩ := by
  unfold relativeTo sub
  constructor
  · intro ran
    split at ran
    · rename_i below
      obtain ⟨same, names, parts⟩ := below
      refine ⟨names, ?_, ?_⟩
      · rw [same, parts]
      · rw [← Except.ok.inj ran, ← parts, List.drop_left]
    · cases ran
  · rintro ⟨names, rfl, rfl⟩
    rw [if_pos ⟨rfl, List.prefix_append _ _⟩, List.drop_left]

end Path

namespace Disk

/-- Resolving answers real paths, and leaves them as they are. -/
structure Realpath (disk : Disk) : Prop where
  real : ∀ {p q : Path}, disk.resolve p = .ok q → q.Real
  again : ∀ {p q : Path}, disk.resolve p = .ok q → disk.resolve q = .ok q

/-- A path that was resolved, written as text and resolved again. -/
theorem Realpath.resolve_str {disk : Disk} (realpath : disk.Realpath) {p q : Path}
    (resolved : disk.resolve p = .ok q) : disk.resolve (Path.ofStr q.str) = .ok q := by
  rw [(realpath.real resolved).ofStr_str]
  exact realpath.again resolved

end Disk

end Py
