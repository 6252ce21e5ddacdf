import Mathlib.Data.List.Perm.Subperm
import DevGate.Gate.FindingsToSpec
import DevGate.Py.ReRuns

set_option autoImplicit false

/- The ids of requirements: those a spec file holds, and those a run gives out. -/
namespace DevGate.Gate.Scaffold

open Py
open Traceability (idRe reqId)

def hash : Chr := '#'

def angle : Chr := '<'

/-- The class of `REQ_ID`'s group. -/
def inId (c : Chr) : Bool := "abcdefghijklmnopqrstuvwxyz0123456789-".toList.any (fun d => c == Chr.ofChar d)

/-- The grammar of a requirement id. -/
def IsId (s : Str) : Prop := s ≠ [] ∧ ∀ c ∈ s, inId c = true

/-- `REQ_ID` behind its first four characters. -/
def reqTail : Re :=
  .seq (.star true .space) <| .seq (.word "id:".toList) <| .seq (.star true .space) <|
  .seq (.group idRe) <| .seq (.star true .space) (.word "-->".toList)

theorem reqId_avoids : reqId.Avoids hash := by decide

theorem reqTail_within : reqTail.Within (fun c => c != angle) := by
  have spaces : (Re.star true .space).Within (fun c => c != angle) := by
    intro c white
    rw [bne_iff_ne]
    rintro rfl
    exact absurd white (by decide)
  have id : idRe.Within (fun c => c != angle) :=
    ⟨Re.within_oneOf (by decide), Re.within_oneOf (by decide)⟩
  exact ⟨spaces, Re.within_word (by decide), spaces, id, spaces, Re.within_word (by decide)⟩

theorem hitAt_of_ne {c : Chr} (other : c ≠ angle) (t : Str) : Re.hitAt reqId (c :: t) = none := by
  unfold Re.hitAt
  cases ran : Re.exec reqId ⟨none, c :: t, none⟩ some with
  | none => rfl
  | some d =>
      obtain ⟨_, shape, _⟩ := Re.exec_word_some ran
      exact absurd (List.cons.inj shape).1 other

/-- An id line holds no other start of one. -/
theorem reqId_sparse : Re.Sparse reqId := by
  intro s c went
  obtain ⟨c₁, shape, went⟩ := Re.exec_word_some went
  obtain ⟨c₂, ⟨inner, whole, each⟩, stop⟩ := Re.exec_sound _ reqTail_within _ _ _ went
  cases stop
  dsimp only at shape
  refine ⟨"<!--" ++ inner, by rw [shape, whole, List.append_assoc]; rfl,
    List.append_ne_nil_of_left_ne_nil (by decide) _, ?_⟩
  intro v y split before filled
  obtain ⟨d, v, rfl⟩ := List.exists_cons_of_ne_nil before
  obtain ⟨e, y, rfl⟩ := List.exists_cons_of_ne_nil filled
  have later : ("!--" : Str) ++ inner = v ++ e :: y := (List.cons.inj split).2
  have member : e ∈ ("!--" : Str) ++ inner := by
    rw [later]
    exact List.mem_append_right _ List.mem_cons_self
  refine hitAt_of_ne ?_ _
  rcases List.mem_append.mp member with front | back
  · rintro rfl
    exact absurd front (by decide)
  · exact bne_iff_ne.mp (each e back)

theorem mem_ids {g s : Str} : g ∈ reqId.findall s ↔ ∃ t, t <:+ s ∧ Re.hitAt reqId t = some g :=
  Re.mem_findall reqId_avoids reqId_sparse

/-- The ids of a text stay where a heading stands behind it. -/
theorem mem_ids_append {g s after : Str} (known : g ∈ reqId.findall s) (stops : Re.Stops hash after) :
    g ∈ reqId.findall (s ++ after) := by
  obtain ⟨t, ⟨front, rfl⟩, hit⟩ := mem_ids.mp known
  refine mem_ids.mpr ⟨t ++ after, ⟨front, by rw [List.append_assoc]⟩, ?_⟩
  rw [Re.hitAt_append reqId_avoids stops, hit]

theorem hitAt_id {rid : Str} (grammar : IsId rid) (rest : Str) :
    Re.hitAt reqId ("<!-- id: " ++ (rid ++ (" -->" ++ rest))) = some rid := by
  have one : ∀ d ∈ ([Chr.ofChar ' '] : Str), Re.isSpace d = true := by
    intro d inside
    rw [List.mem_singleton.mp inside]
    rfl
  have ends (p : Chr → Bool) (c : Chr) (t : Str) (other : p c = false) : Re.Ends p (c :: t) := by
    intro d here
    cases Option.some.inj here
    exact other
  obtain ⟨p₁, first⟩ := @Re.exec_word Re.Cursor "<!--".toList none
    ([Chr.ofChar ' '] ++ (("id:" : Str) ++ ([Chr.ofChar ' '] ++ (rid ++ ([Chr.ofChar ' '] ++
      (("-->" : Str) ++ rest)))))) none
  have word : Re.Ends Re.isSpace
      (("id:" : Str) ++ ([Chr.ofChar ' '] ++ (rid ++ ([Chr.ofChar ' '] ++ (("-->" : Str) ++ rest))))) :=
    ends _ (Chr.ofChar 'i') _ (by decide)
  obtain ⟨p₂, second⟩ := Re.exec_star_run (α := Re.Cursor) word none one p₁
  obtain ⟨p₃, third⟩ := @Re.exec_word Re.Cursor "id:".toList p₂
    ([Chr.ofChar ' '] ++ (rid ++ ([Chr.ofChar ' '] ++ (("-->" : Str) ++ rest)))) none
  have solid : Re.Ends Re.isSpace (rid ++ ([Chr.ofChar ' '] ++ (("-->" : Str) ++ rest))) := by
    obtain ⟨filled, each⟩ := grammar
    obtain ⟨c, rid, rfl⟩ := List.exists_cons_of_ne_nil filled
    refine ends _ c _ ?_
    have plain : "abcdefghijklmnopqrstuvwxyz0123456789-".toList.all
        (fun d => !Re.isSpace (Chr.ofChar d)) = true := by decide
    obtain ⟨d, listed, same⟩ := List.any_eq_true.mp (each c List.mem_cons_self)
    rw [beq_iff_eq.mp same]
    have here := List.all_eq_true.mp plain d listed
    rwa [Bool.not_eq_true'] at here
  obtain ⟨p₄, fourth⟩ := Re.exec_star_run (α := Re.Cursor) solid none one p₃
  have blank : Re.Ends inId ([Chr.ofChar ' '] ++ (("-->" : Str) ++ rest)) :=
    ends _ (Chr.ofChar ' ') _ (by decide)
  have arrow : Re.Ends Re.isSpace (("-->" : Str) ++ rest) :=
    ends _ (Chr.ofChar '-') _ (by decide)
  obtain ⟨p₅, fifth⟩ := Re.exec_plus_run (α := Re.Cursor) blank none grammar.1 grammar.2 p₄
  obtain ⟨p₆, sixth⟩ := Re.exec_star_run (α := Re.Cursor) arrow (some rid) one p₅
  obtain ⟨p₇, last⟩ := @Re.exec_word Re.Cursor "-->".toList p₆ rest (some rid)
  have whole : Re.exec reqId ⟨none, "<!-- id: " ++ (rid ++ (" -->" ++ rest)), none⟩ some =
      some ⟨p₇, rest, some rid⟩ := by
    refine (first _).trans (second _ _ ((third _).trans (fourth _ _ (fifth _ _ ?_))))
    have taken : (rid ++ ([Chr.ofChar ' '] ++ (("-->" : Str) ++ rest))).take
        ((rid ++ ([Chr.ofChar ' '] ++ (("-->" : Str) ++ rest))).length -
          ([Chr.ofChar ' '] ++ (("-->" : Str) ++ rest)).length) = rid := by
      rw [List.length_append, Nat.add_sub_cancel, List.take_left]
    dsimp only
    rw [taken]
    exact sixth _ _ (last some)
  unfold Re.hitAt
  rw [whole]
  rfl

/-- The id line of a block is read. -/
theorem mem_ids_line {rid : Str} (grammar : IsId rid) (front rest : Str) :
    rid ∈ reqId.findall (front ++ ("<!-- id: " ++ (rid ++ (" -->" ++ rest)))) :=
  mem_ids.mpr ⟨_, List.suffix_append front _, hitAt_id grammar rest⟩

theorem fullmatch_id {s : Str} (grammar : IsId s) : Re.fullmatch idRe s = true := by
  have ends : Re.Ends inId [] := fun d here => by cases here
  obtain ⟨_, run⟩ := Re.exec_plus_run (α := Unit) ends none grammar.1 grammar.2 none
  have went := run (fun c => if c.rest = [] then some () else none) () (if_pos rfl)
  rw [List.append_nil] at went
  unfold Re.fullmatch
  exact Option.isSome_iff_exists.mpr ⟨(), went⟩

/-! The ids a run gives out. -/

theorem inId_of_inSlug {c : Chr} (slugged : inSlug c = true) : inId c = true := by
  have small : ∀ n < 123, inSlug (Fin.ofNat 0x110000 n) = true → inId (Fin.ofNat 0x110000 n) = true := by
    decide +kernel
  have bound : c.val < 123 := by
    unfold inSlug at slugged
    simp only [Bool.or_eq_true, Bool.and_eq_true, decide_eq_true_eq] at slugged
    omega
  have own : Fin.ofNat 0x110000 c.val = c := Fin.ofNat_val_eq_self c
  have here := small c.val bound
  rw [own] at here
  exact here slugged

theorem dashed_inId (inRun : Bool) (s : Str) : ∀ c ∈ dashed inRun s, inId c = true := by
  induction s generalizing inRun with
  | nil => exact fun c inside => by cases inside
  | cons d s ih =>
      unfold dashed
      by_cases slugged : inSlug d = true
      · rw [if_pos slugged, List.forall_mem_cons]
        exact ⟨inId_of_inSlug slugged, ih false⟩
      · rw [if_neg slugged]
        cases inRun with
        | true => exact ih true
        | false =>
            rw [if_neg Bool.false_ne_true, List.forall_mem_cons]
            exact ⟨by decide, ih true⟩

theorem rstrip_sublist (c : Chr) (s : Str) : (rstrip c s).Sublist s := by
  have inner := (List.dropWhile_sublist (l := s.reverse) (fun d => d == c)).reverse
  rwa [List.reverse_reverse] at inner

theorem slug_inId (u : Chars) (text : Str) (maxLen : Nat) : ∀ c ∈ slug u text maxLen, inId c = true := by
  intro c inside
  have outer := (rstrip_sublist _ _).subset inside
  have inner := (rstrip_sublist _ _).subset (List.mem_of_mem_take outer)
  exact dashed_inId false _ c ((List.dropWhile_sublist _).subset inner)

theorem numbered_eq (haveIds : List Str) (stem : Str) (fuel n : Nat) :
    ∃ m, numbered haveIds stem fuel n = stem ++ "-" ++ Str.ofNat m := by
  induction fuel generalizing n with
  | zero => exact ⟨n, rfl⟩
  | succ fuel ih =>
      unfold numbered
      split
      · exact ih (n + 1)
      · exact ⟨n, rfl⟩

theorem numbered_not_mem {haveIds : List Str} {stem : Str} {fuel n m : Nat} (low : n ≤ m)
    (high : m ≤ n + fuel) (free : stem ++ "-" ++ Str.ofNat m ∉ haveIds) :
    numbered haveIds stem fuel n ∉ haveIds := by
  induction fuel generalizing n with
  | zero =>
      have same : m = n := by omega
      rwa [same] at free
  | succ fuel ih =>
      unfold numbered
      split
      · next used =>
          have apart : m ≠ n := by
            rintro rfl
            exact free used
          exact ih (by omega) (by omega)
      · next unused => exact unused

/-- A number that is not in use comes up before the ids in use are counted. -/
theorem exists_free (haveIds : List Str) (stem : Str) :
    ∃ m, 2 ≤ m ∧ m ≤ 2 + haveIds.length ∧ stem ++ "-" ++ Str.ofNat m ∉ haveIds := by
  by_contra none_
  have used : ∀ m, 2 ≤ m → m ≤ 2 + haveIds.length → stem ++ "-" ++ Str.ofNat m ∈ haveIds :=
    fun m low high => by_contra fun free => none_ ⟨m, low, high, free⟩
  let named := (List.range (haveIds.length + 1)).map (fun i => stem ++ "-" ++ Str.ofNat (2 + i))
  have distinct : named.Nodup := by
    refine List.nodup_range.map ?_
    intro i j same
    have numbers := Str.ofNat_injective (List.append_cancel_left same)
    omega
  have inside : named ⊆ haveIds := by
    intro s member
    obtain ⟨i, listed, rfl⟩ := List.mem_map.mp member
    rw [List.mem_range] at listed
    exact used (2 + i) (by omega) (by omega)
  have lengths := (List.subperm_of_subset distinct inside).length_le
  simp only [named, List.length_map, List.length_range] at lengths
  omega

theorem freeId_not_mem (haveIds : List Str) (stem : Str) : freeId haveIds stem ∉ haveIds := by
  unfold freeId
  split
  · obtain ⟨m, low, high, free⟩ := exists_free haveIds stem
    exact numbered_not_mem low high free
  · next unused => exact unused

theorem freeId_isId {haveIds : List Str} {stem : Str} (grammar : IsId stem) :
    IsId (freeId haveIds stem) := by
  unfold freeId
  split
  · obtain ⟨m, same⟩ := numbered_eq haveIds stem haveIds.length 2
    rw [same]
    refine ⟨by simp [grammar.1], fun c inside => ?_⟩
    rcases List.mem_append.mp inside with front | digit
    · rcases List.mem_append.mp front with own | mark
      · exact grammar.2 c own
      · rw [List.mem_singleton.mp mark]
        decide
    · refine inId_of_inSlug ?_
      have number : Json.isDigit c = true := Json.isDigit_of_mem_ofNat digit
      unfold inSlug
      rw [Bool.or_eq_true]
      exact .inr number
  · exact grammar

end DevGate.Gate.Scaffold
