import DevGate.Py.Duration
import DevGate.Py.Exc

set_option autoImplicit false

/- `<` on decoded values, and `sorted`. -/
namespace Py

/-- Two values that have no order. -/
def Value.unordered (v w : Value) : Exc :=
  ⟨.typeError, ["'<' not supported between instances of '", v.typeName, "' and '", w.typeName, "'"]⟩

mutual

/-- `v < w`. -/
def Value.lt : Value → Value → Except Exc Bool
  | .str a, .str b => .ok (!Str.le b a)
  | .list vs, .list ws => Value.ltList vs ws
  | v, w =>
      match v.num?, w.num? with
      | some a, some b => .ok (a.lt b)
      | _, _ => .error (v.unordered w)

/-- Lists are ordered by their first differing items. -/
def Value.ltList : List Value → List Value → Except Exc Bool
  | [], [] => .ok false
  | [], _ :: _ => .ok true
  | _ :: _, [] => .ok false
  | v :: vs, w :: ws => if v.same w then Value.ltList vs ws else v.lt w

end

/-- `x` behind the items of a sorted list that are not greater. -/
def insertSorted (x : Value) : List Value → Except Exc (List Value)
  | [] => .ok [x]
  | y :: ys => do
      if ← x.lt y then return x :: y :: ys
      else return y :: (← insertSorted x ys)

def sortValues (vs : List Value) : Except Exc (List Value) :=
  vs.foldlM (fun done x => insertSorted x done) []

/-- `sorted(v)`. -/
def Value.sorted (v : Value) : Except Exc (List Value) := do sortValues (← v.iter)

theorem insertSorted_texts (s : Str) (ts : List Str) :
    ∃ us : List Str, insertSorted (.str s) (ts.map .str) = .ok (us.map .str) := by
  induction ts with
  | nil => exact ⟨[s], rfl⟩
  | cons t ts ih =>
      obtain ⟨us, later⟩ := ih
      rw [List.map_cons, insertSorted, Value.lt, ok_bind]
      by_cases before : Str.le t s = true
      · rw [before, Bool.not_true, if_neg Bool.false_ne_true, later]
        exact ⟨t :: us, rfl⟩
      · rw [Bool.not_eq_true] at before
        rw [before, Bool.not_false, if_pos rfl]
        exact ⟨s :: t :: ts, rfl⟩

/-- Texts always have an order. -/
theorem sortValues_texts (ts : List Str) :
    ∃ us : List Str, sortValues (ts.map .str) = .ok (us.map .str) := by
  suffices grow : ∀ done : List Str, ∃ us : List Str,
      (ts.map Value.str).foldlM (fun done x => insertSorted x done) (done.map .str) =
        .ok (us.map .str) from grow []
  induction ts with
  | nil => exact fun done => ⟨done, rfl⟩
  | cons t ts ih =>
      intro done
      obtain ⟨next, inserted⟩ := insertSorted_texts t done
      obtain ⟨us, later⟩ := ih next
      refine ⟨us, ?_⟩
      rw [List.map_cons, List.foldlM_cons, inserted, ok_bind, later]

/-! Sorted texts. -/

def Str.Ordered (ts : List Str) : Prop := ts.Pairwise (fun s t => Str.le s t = true)

theorem Str.ordered_sorted (ts : List Str) : Str.Ordered (Str.sorted ts) := by
  have total : Std.Total (fun s t : Str => Str.le s t = true) := ⟨fun s t =>
    (Bool.or_eq_true _ _).mp (Str.le_total s t)⟩
  have trans : IsTrans Str (fun s t => Str.le s t = true) := ⟨fun _ _ _ => Str.le_trans⟩
  exact List.pairwise_insertionSort _ ts

theorem Str.Ordered.unique {ts us : List Str} (first : Str.Ordered ts) (second : Str.Ordered us)
    (perm : ts.Perm us) : ts = us :=
  List.Perm.eq_of_pairwise (fun _ _ _ _ => Str.le_antisymm) first second perm

theorem Str.sorted_eq_iff {ts us : List Str} : Str.sorted ts = Str.sorted us ↔ ts.Perm us := by
  constructor
  · intro same
    have perm := Str.perm_sorted us
    rw [← same] at perm
    exact (Str.perm_sorted ts).symm.trans perm
  · intro perm
    apply Str.Ordered.unique (Str.ordered_sorted ts) (Str.ordered_sorted us)
    exact (Str.perm_sorted ts).trans (perm.trans (Str.perm_sorted us).symm)

theorem insertSorted_ordered {s : Str} {ts : List Str} (ordered : Str.Ordered ts) :
    ∃ us : List Str, insertSorted (.str s) (ts.map .str) = .ok (us.map .str) ∧
      us.Perm (s :: ts) ∧ Str.Ordered us := by
  induction ts with
  | nil => exact ⟨[s], rfl, List.Perm.refl _, List.pairwise_singleton _ _⟩
  | cons t ts ih =>
      rw [Str.Ordered, List.pairwise_cons] at ordered
      obtain ⟨us, later, perm, kept⟩ := ih ordered.2
      rw [List.map_cons, insertSorted, Value.lt, ok_bind]
      by_cases before : Str.le t s = true
      · rw [before, Bool.not_true, if_neg Bool.false_ne_true, later]
        refine ⟨t :: us, rfl, (perm.cons t).trans (List.Perm.swap s t ts), ?_⟩
        rw [Str.Ordered, List.pairwise_cons]
        refine ⟨fun u inside => ?_, kept⟩
        rcases List.mem_cons.mp (perm.mem_iff.mp inside) with rfl | older
        · exact before
        · exact ordered.1 u older
      · have below : Str.le s t = true := 
          ((Bool.or_eq_true _ _).mp (Str.le_total s t)).resolve_right before
        rw [Bool.not_eq_true] at before
        rw [before, Bool.not_false, if_pos rfl]
        refine ⟨s :: t :: ts, rfl, List.Perm.refl _, ?_⟩
        rw [Str.Ordered, List.pairwise_cons, List.pairwise_cons]
        refine ⟨fun u inside => ?_, ordered⟩
        rcases List.mem_cons.mp inside with rfl | later
        · exact below
        · exact Str.le_trans below (ordered.1 u later)

/-- `sorted` on texts, through their order. -/
theorem sortValues_eq_sorted (ts : List Str) :
    sortValues (ts.map .str) = .ok ((Str.sorted ts).map .str) := by
  suffices grow : ∀ done : List Str, Str.Ordered done → ∃ us : List Str,
      (ts.map Value.str).foldlM (fun done x => insertSorted x done) (done.map .str) =
        .ok (us.map .str) ∧ us.Perm (ts ++ done) ∧ Str.Ordered us by
    obtain ⟨us, ran, perm, ordered⟩ := grow [] List.Pairwise.nil
    rw [List.append_nil] at perm
    have same := ordered.unique (Str.ordered_sorted ts) (perm.trans (Str.perm_sorted ts).symm)
    rw [← same]
    exact ran
  induction ts with
  | nil => exact fun done ordered => ⟨done, rfl, List.Perm.refl _, ordered⟩
  | cons t ts ih =>
      intro done ordered
      obtain ⟨next, inserted, perm, kept⟩ := insertSorted_ordered (s := t) ordered
      obtain ⟨us, later, whole, sorted⟩ := ih next kept
      refine ⟨us, ?_, ?_, sorted⟩
      · rw [List.map_cons, List.foldlM_cons, inserted, ok_bind, later]
      · exact whole.trans ((perm.append_left ts).trans List.perm_middle)

theorem sameList_texts {ts us : List Str} :
    Value.sameList (ts.map .str) (us.map .str) = true ↔ ts = us := by
  induction ts generalizing us with
  | nil => cases us <;> simp [Value.sameList]
  | cons t ts ih =>
      cases us with
      | nil => simp [Value.sameList]
      | cons u us =>
          rw [List.map_cons, List.map_cons, Value.sameList, Bool.and_eq_true, ih, Value.same_str,
            Value.str.injEq, List.cons.injEq]
          exact and_congr_left (fun _ => eq_comm)

example : Value.sorted (.list [.int 3, .float (.fin 2), .bool true]) =
    .ok [.bool true, .float (.fin 2), .int 3] := by decide +kernel

end Py
