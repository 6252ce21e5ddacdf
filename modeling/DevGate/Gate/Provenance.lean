import DevGate.Gate.FindingsToSpec
import DevGate.Py.ReRuns

set_option autoImplicit false

/- What `ORIGIN_LINE` finds in a text: between backticks stands the id of a finding, before
them its origin. -/
namespace DevGate.Gate.Scaffold

open Py

def comma : Chr := ','

/-- A name of word characters. -/
def IsName (u : Chars) (w : Str) : Prop := w ≠ [] ∧ ∀ c ∈ w, u.isWord c = true

/-- What stands before the first backtick of a provenance. -/
def lead (w : Str) : Str := "_(origin: " ++ w ++ " "

/-- The text goes on with an id, a backtick and a comma. -/
structure Closes (t body rest : Str) : Prop where
  shape : t = body ++ tick :: comma :: rest
  filled : body ≠ []
  clean : tick ∉ body

/-- Both groups of a match, with what stands between them. -/
def joint (w body : Str) : Str := w ++ " `" ++ body

section

variable {u : Chars}

theorem not_isWord (c : Chr) (small : c.val < 128) (other : asciiWord c = false) :
    u.isWord c = false := by
  rw [u.ascii c small, other]

theorem IsName.not_mem {w : Str} (name : IsName u w) {c : Chr} (small : c.val < 128)
    (other : asciiWord c = false) : c ∉ w := by
  intro inside
  have word := name.2 c inside
  rw [not_isWord c small other] at word
  cases word

theorem tick_not_mem_lead {w : Str} (name : IsName u w) : tick ∉ lead w := by
  unfold lead
  rw [List.mem_append, List.mem_append, not_or, not_or]
  exact ⟨⟨by decide, name.not_mem (by decide) (by decide)⟩, by decide⟩

/-- A provenance at the head of the text is matched, up to its comma. -/
theorem exec_origin {w body rest t : Str} (name : IsName u w) (closes : Closes t body rest)
    (prev : Option Chr) : ∃ prev', Re.exec (originLine u) ⟨prev, lead w ++ tick :: t, none⟩ some =
      some ⟨prev', rest, some (joint w body)⟩ := by
  have blank : Re.Ends u.isWord ((" `" : Str) ++ (body ++ tick :: comma :: rest)) := by
    intro d here
    cases Option.some.inj here
    exact not_isWord _ (by decide) (by decide)
  have quoted : Re.Ends (fun c => c != tick) (("`," : Str) ++ rest) := by
    intro d here
    cases Option.some.inj here
    rfl
  have inner : ∀ c ∈ body, (c != tick) = true := by
    intro c inside
    rw [bne_iff_ne]
    rintro rfl
    exact closes.clean inside
  obtain ⟨prev₁, first⟩ := @Re.exec_word Re.Cursor "_(origin: ".toList prev
    (w ++ ((" `" : Str) ++ (body ++ (("`," : Str) ++ rest)))) none
  obtain ⟨prev₂, second⟩ := Re.exec_plus_run (α := Re.Cursor) blank none name.1 name.2 prev₁
  obtain ⟨prev₃, third⟩ := @Re.exec_word Re.Cursor " `".toList prev₂
    (body ++ (("`," : Str) ++ rest)) none
  obtain ⟨prev₄, fourth⟩ := Re.exec_plus_run (α := Re.Cursor) quoted none closes.filled inner prev₃
  obtain ⟨prev₅, fifth⟩ := @Re.exec_word Re.Cursor "`,".toList prev₄ rest (some (joint w body))
  refine ⟨prev₅, ?_⟩
  have whole : lead w ++ tick :: t = ("_(origin: " : Str) ++
      (w ++ ((" `" : Str) ++ (body ++ (("`," : Str) ++ rest)))) := by
    rw [closes.shape]
    unfold lead
    simp only [List.append_assoc]
    rfl
  rw [whole]
  refine (first _).trans (second _ _ ((third _).trans (fourth _ _ ?_)))
  have taken : (w ++ ((" `" : Str) ++ (body ++ (("`," : Str) ++ rest)))).take
      ((w ++ ((" `" : Str) ++ (body ++ (("`," : Str) ++ rest)))).length -
        (("`," : Str) ++ rest).length) = joint w body := by
    have split : w ++ ((" `" : Str) ++ (body ++ (("`," : Str) ++ rest))) =
        joint w body ++ (("`," : Str) ++ rest) := by
      unfold joint
      simp only [List.append_assoc]
    rw [split, List.length_append, Nat.add_sub_cancel, List.take_left]
  dsimp only
  rw [taken]
  exact fifth some

/-- A match is a provenance. -/
theorem origin_of_exec {α : Type} {c : Re.Cursor} {k : Re.Cursor → Option α} {a : α}
    (went : Re.exec (originLine u) c k = some a) :
    ∃ w t body rest, c.rest = lead w ++ tick :: t ∧ IsName u w ∧ Closes t body rest := by
  obtain ⟨c₁, front, went⟩ := Re.exec_word_some went
  obtain ⟨w, c₂, word, filled, each, went⟩ := Re.exec_plus_some went
  obtain ⟨c₃, blank, went⟩ := Re.exec_word_some went
  obtain ⟨body, c₄, inner, filled', each', went⟩ := Re.exec_plus_some went
  obtain ⟨c₅, close, went⟩ := Re.exec_word_some went
  dsimp only at close
  refine ⟨w, body ++ tick :: comma :: c₅.rest, body, c₅.rest, ?_, ⟨filled, each⟩, rfl, filled', ?_⟩
  · rw [front, word, blank, inner, close]
    unfold lead
    simp only [List.append_assoc]
    rfl
  · intro inside
    have other := each' tick inside
    cases other

theorem exec_none {s : Str} (none_ : ∀ w t body rest, s = lead w ++ tick :: t → IsName u w →
    ¬ Closes t body rest) (prev : Option Chr) :
    Re.exec (originLine u) ⟨prev, s, none⟩ some = none := by
  cases ran : Re.exec (originLine u) ⟨prev, s, none⟩ some with
  | none => rfl
  | some c =>
      obtain ⟨w, t, body, rest, shape, name, closes⟩ := origin_of_exec ran
      exact absurd closes (none_ w t body rest shape name)

/-- Where two texts are cut at their first backtick they agree on both sides. -/
theorem cut_tick {a b s t : Str} (left : tick ∉ a) (right : tick ∉ b)
    (same : a ++ tick :: s = b ++ tick :: t) : a = b ∧ s = t := by
  induction a generalizing b with
  | nil =>
      cases b with
      | nil => exact ⟨rfl, (List.cons.inj same).2⟩
      | cons d b =>
          rw [(List.cons.inj same).1] at right
          exact absurd List.mem_cons_self right
  | cons c a ih =>
      cases b with
      | nil =>
          rw [(List.cons.inj same).1] at left
          exact absurd List.mem_cons_self left
      | cons d b =>
          rw [List.mem_cons, not_or] at left right
          obtain ⟨here, later⟩ := List.cons.inj same
          obtain ⟨rfl, rest⟩ := ih left.2 right.2 later
          exact ⟨by rw [here], rest⟩

theorem Closes.unique {t body body' rest rest' : Str} (one : Closes t body rest)
    (other : Closes t body' rest') : body = body' ∧ rest = rest' := by
  obtain ⟨same, behind⟩ := cut_tick one.clean other.clean (one.shape.symm.trans other.shape)
  exact ⟨same, (List.cons.inj behind).2⟩

/-- A lead holds one parenthesis: it is no suffix of another. -/
theorem lead_suffix {w w' : Str} (name : IsName u w) (tail : lead w' <:+ lead w) : w' = w := by
  have open_ : Chr.ofChar '(' ∉ "origin: " ++ w ++ (" " : Str) := by
    rw [List.mem_append, List.mem_append, not_or, not_or]
    exact ⟨⟨by decide, name.not_mem (by decide) (by decide)⟩, by decide⟩
  obtain ⟨x, whole⟩ := tail
  have shape (v : Str) : lead v = Chr.ofChar '_' :: Chr.ofChar '(' :: ("origin: " ++ v ++ (" " : Str)) := rfl
  rw [shape, shape] at whole
  cases x with
  | nil =>
      have inner := (List.cons.inj (List.cons.inj whole).2).2
      rw [List.append_left_inj] at inner
      exact List.append_cancel_left inner
  | cons c x =>
      have later := (List.cons.inj whole).2
      cases x with
      | nil => exact absurd (List.cons.inj later).1 (by decide)
      | cons d x =>
          have behind := (List.cons.inj later).2
          refine absurd ?_ open_
          rw [← behind]
          simp

/-! The scan, from one backtick to the next. -/

theorem searchFrom_miss {a t : Str} (clean : tick ∉ a)
    (none_ : ∀ w body rest, lead w <:+ a → IsName u w → ¬ Closes t body rest) (prev : Option Chr) :
    (originLine u).searchFrom prev (a ++ tick :: t) = (originLine u).searchFrom (some tick) t := by
  have failed : Re.exec (originLine u) ⟨prev, a ++ tick :: t, none⟩ some = none := by
    apply exec_none
    intro w t' body rest shape name closes
    obtain ⟨rfl, rfl⟩ := cut_tick clean (tick_not_mem_lead name) shape
    exact none_ w body rest List.suffix_rfl name closes
  induction a generalizing prev with
  | nil =>
      rw [List.nil_append] at failed ⊢
      conv => lhs; unfold Re.searchFrom
      rw [failed]
  | cons d a ih =>
      rw [List.mem_cons, not_or] at clean
      have later : ∀ w body rest, lead w <:+ a → IsName u w → ¬ Closes t body rest :=
        fun w body rest tail => none_ w body rest (tail.trans (List.suffix_cons d a))
      rw [List.cons_append] at failed ⊢
      conv => lhs; unfold Re.searchFrom
      rw [failed]
      refine ih clean.2 later (some d) (exec_none ?_ _)
      intro w t' body rest shape name closes
      obtain ⟨rfl, rfl⟩ := cut_tick clean.2 (tick_not_mem_lead name) shape
      exact later w body rest List.suffix_rfl name closes

theorem searchFrom_hit {front w body rest t : Str} (clean : tick ∉ front) (name : IsName u w)
    (closes : Closes t body rest) (prev : Option Chr) :
    ∃ prev', (originLine u).searchFrom prev (front ++ lead w ++ tick :: t) =
      some (lead w ++ tick :: t, ⟨prev', rest, some (joint w body)⟩) := by
  induction front generalizing prev with
  | nil =>
      obtain ⟨prev', went⟩ := exec_origin name closes prev
      refine ⟨prev', ?_⟩
      have shape : [] ++ lead w ++ tick :: t =
          Chr.ofChar '_' :: (("(origin: " : Str) ++ w ++ (" " : Str) ++ tick :: t) := rfl
      have own : lead w ++ tick :: t =
          Chr.ofChar '_' :: (("(origin: " : Str) ++ w ++ (" " : Str) ++ tick :: t) := rfl
      rw [own] at went
      rw [shape, own]
      unfold Re.searchFrom
      rw [went]
  | cons d front ih =>
      rw [List.mem_cons, not_or] at clean
      obtain ⟨prev', found⟩ := ih clean.2 (some d)
      refine ⟨prev', ?_⟩
      have failed : Re.exec (originLine u) ⟨prev, d :: front ++ lead w ++ tick :: t, none⟩ some = none := by
        apply exec_none
        intro w' t' body' rest' shape name' closes'
        have whole : tick ∉ d :: front ++ lead w := by
          rw [List.mem_append, List.mem_cons, not_or, not_or]
          exact ⟨clean, tick_not_mem_lead name⟩
        obtain ⟨same, rfl⟩ := cut_tick whole (tick_not_mem_lead name') shape
        have tail : lead w <:+ lead w' := ⟨d :: front, same⟩
        obtain rfl := lead_suffix name' tail
        have lengths := congrArg List.length same
        rw [List.length_append, List.length_cons] at lengths
        omega
      rw [List.cons_append, List.cons_append] at failed ⊢
      unfold Re.searchFrom
      rw [failed]
      exact found

theorem searchFrom_clean {s : Str} (clean : tick ∉ s) (prev : Option Chr) :
    (originLine u).searchFrom prev s = none := by
  have failed (s : Str) (clean : tick ∉ s) (prev : Option Chr) :
      Re.exec (originLine u) ⟨prev, s, none⟩ some = none := by
    apply exec_none
    rintro w t body rest rfl
    exact absurd (List.mem_append_right _ List.mem_cons_self) clean
  induction s generalizing prev with
  | nil =>
      unfold Re.searchFrom
      rw [failed [] clean]
      rfl
  | cons d s ih =>
      unfold Re.searchFrom
      rw [failed (d :: s) clean]
      exact ih (List.not_mem_of_not_mem_cons clean) (some d)

theorem findallFrom_clean {s : Str} (clean : tick ∉ s) (n : Nat) (prev : Option Chr) :
    (originLine u).findallFrom n prev s = [] := by
  cases n with
  | zero => rfl
  | succ n =>
      unfold Re.findallFrom
      rw [searchFrom_clean clean]

theorem findallFrom_miss {a t : Str} (clean : tick ∉ a)
    (none_ : ∀ w body rest, lead w <:+ a → IsName u w → ¬ Closes t body rest) (n : Nat)
    (prev : Option Chr) :
    (originLine u).findallFrom n prev (a ++ tick :: t) = (originLine u).findallFrom n (some tick) t := by
  cases n with
  | zero => rfl
  | succ n =>
      unfold Re.findallFrom
      rw [searchFrom_miss clean none_]

theorem findallFrom_hit {a w body rest t : Str} (clean : tick ∉ a) (tail : lead w <:+ a)
    (name : IsName u w) (closes : Closes t body rest) (n : Nat) (prev : Option Chr) :
    ∃ prev', (originLine u).findallFrom (n + 1) prev (a ++ tick :: t) =
      joint w body :: (originLine u).findallFrom n prev' rest := by
  obtain ⟨front, rfl⟩ := tail
  rw [List.mem_append, not_or] at clean
  obtain ⟨prev', found⟩ := searchFrom_hit clean.1 name closes prev
  refine ⟨prev', ?_⟩
  have whole : lead w ++ tick :: t = (lead w ++ tick :: (body ++ [tick, comma])) ++ rest := by
    rw [closes.shape]
    simp
  have taken : (lead w ++ tick :: t).take ((lead w ++ tick :: t).length - rest.length) =
      lead w ++ tick :: (body ++ [tick, comma]) := by
    rw [whole, List.length_append, Nat.add_sub_cancel, List.take_left]
  conv => lhs; unfold Re.findallFrom
  rw [found]
  dsimp only
  rw [taken, if_neg (by simp), if_neg (by simp)]
  rfl

/-- A text cut at its first backtick. -/
theorem tick_cases (s : Str) : tick ∉ s ∨ ∃ a t, tick ∉ a ∧ s = a ++ tick :: t := by
  by_cases inside : tick ∈ s
  · obtain ⟨a, t, rfl, clean⟩ := List.eq_append_cons_of_mem inside
    exact .inr ⟨a, t, clean, rfl⟩
  · exact .inl inside

/-- Behind the last backtick of the text, which a lead stands before, a provenance is open. -/
def Open (u : Chars) (s : Str) : Prop :=
  ∃ a w t, s = a ++ tick :: t ∧ tick ∉ t ∧ IsName u w ∧ lead w <:+ a

theorem Open.append {s : Str} (open_ : Open u s) (front : Str) : Open u (front ++ s) := by
  obtain ⟨a, w, t, rfl, clean, name, tail⟩ := open_
  exact ⟨front ++ a, w, t, by rw [List.append_assoc], clean, name, tail.trans (List.suffix_append _ _)⟩

/-- A provenance in the text is found: unless its id starts with a comma behind an open one. -/
theorem mem_findallFrom_origin {w body rest : Str} (name : IsName u w) (filled : body ≠ [])
    (clean : tick ∉ body) (len : Nat) : ∀ (front : Str), front.length = len →
      (body.head? = some comma → ¬ Open u front) → ∀ (n : Nat) (prev : Option Chr),
        (front ++ lead w ++ tick :: (body ++ tick :: comma :: rest)).length < n →
        joint w body ∈ (originLine u).findallFrom n prev
          (front ++ lead w ++ tick :: (body ++ tick :: comma :: rest)) := by
  have closes : Closes (body ++ tick :: comma :: rest) body rest := ⟨rfl, filled, clean⟩
  induction len using Nat.strong_induction_on with
  | _ len ih =>
  intro front length shut n prev room
  obtain ⟨n, rfl⟩ : ∃ m, n = m + 1 := ⟨n - 1, by omega⟩
  rcases tick_cases front with bare | ⟨a, later, free, rfl⟩
  · have whole : tick ∉ front ++ lead w := by
      rw [List.mem_append, not_or]
      exact ⟨bare, tick_not_mem_lead name⟩
    obtain ⟨prev', found⟩ := findallFrom_hit whole (List.suffix_append front _) name closes n prev
    rw [found]
    exact List.mem_cons_self
  · have shape : (a ++ tick :: later) ++ lead w ++ tick :: (body ++ tick :: comma :: rest) =
        a ++ tick :: (later ++ lead w ++ tick :: (body ++ tick :: comma :: rest)) := by
      simp
    have shutLater {x y : Str} (split : later = x ++ y) : body.head? = some comma → ¬ Open u y := by
      intro first open_
      refine shut first ?_
      have whole := open_.append (a ++ tick :: x)
      rw [split]
      simpa using whole
    rw [shape] at room ⊢
    rw [List.length_append, List.length_cons] at length room
    by_cases hit : ∃ w' body' rest', lead w' <:+ a ∧ IsName u w' ∧
        Closes (later ++ lead w ++ tick :: (body ++ tick :: comma :: rest)) body' rest'
    · obtain ⟨w', body', rest', tail, name', closes'⟩ := hit
      obtain ⟨prev', found⟩ := findallFrom_hit free tail name' closes' n prev
      rw [found]
      refine List.mem_cons_of_mem _ ?_
      rcases tick_cases later with bare | ⟨b, more, free', rfl⟩
      · -- the match would end at the backtick before this id, which then starts with a comma
        have whole : tick ∉ later ++ lead w := by
          rw [List.mem_append, not_or]
          exact ⟨bare, tick_not_mem_lead name⟩
        obtain ⟨-, behind⟩ := cut_tick whole closes'.clean closes'.shape
        obtain ⟨first, tailBody, rfl⟩ := List.exists_cons_of_ne_nil filled
        have same : first = comma := (List.cons.inj behind).1
        refine absurd ⟨a, w', later, rfl, bare, name', tail⟩ (shut ?_)
        rw [same]
        rfl
      · have cut : b ++ tick :: (more ++ lead w ++ tick :: (body ++ tick :: comma :: rest)) =
            body' ++ tick :: comma :: rest' := by
          rw [← closes'.shape]
          simp
        obtain ⟨rfl, behind⟩ := cut_tick free' closes'.clean cut
        cases more with
        | nil => exact absurd (List.cons.inj behind).1 (by decide)
        | cons c more =>
            have inner : more ++ lead w ++ tick :: (body ++ tick :: comma :: rest) = rest' :=
              (List.cons.inj behind).2
            rw [← inner]
            refine ih more.length ?_ more rfl (shutLater (x := b ++ [tick, c]) (by simp)) n prev' ?_
            · simp only [List.length_append, List.length_cons] at length
              omega
            · simp only [List.length_append, List.length_cons] at room ⊢
              omega
    · have none_ : ∀ w' body' rest', lead w' <:+ a → IsName u w' →
          ¬ Closes (later ++ lead w ++ tick :: (body ++ tick :: comma :: rest)) body' rest' :=
        fun w' body' rest' tail name' closes' => hit ⟨w', body', rest', tail, name', closes'⟩
      rw [findallFrom_miss free none_]
      exact ih later.length (by omega) later rfl (shutLater (x := []) rfl) (n + 1) _ (by omega)

theorem Closes.append {t body rest : Str} (closes : Closes t body rest) (after : Str) :
    Closes (t ++ after) body (rest ++ after) where
  shape := by rw [closes.shape, List.append_assoc, List.cons_append, List.cons_append]
  filled := closes.filled
  clean := closes.clean

/-- Behind a backtick from which a provenance goes on past the text, nothing is found in it. -/
theorem findallFrom_pending {t after body rest : Str} (closes : Closes (t ++ after) body rest)
    (short : ∀ rest', ¬ Closes t body rest') (n : Nat) (prev : Option Chr) :
    (originLine u).findallFrom n prev t = [] := by
  rcases tick_cases t with bare | ⟨b, more, free, rfl⟩
  · exact findallFrom_clean bare n prev
  · have cut : b ++ tick :: (more ++ after) = body ++ tick :: comma :: rest := by
      rw [← closes.shape, List.append_assoc]
      rfl
    obtain ⟨rfl, behind⟩ := cut_tick free closes.clean cut
    cases more with
    | nil =>
        have none_ : ∀ w body rest, lead w <:+ b → IsName u w → ¬ Closes [] body rest := by
          intro w body rest _ _ closes'
          have lengths := congrArg List.length closes'.shape
          simp at lengths
        rw [findallFrom_miss free none_, findallFrom_clean List.not_mem_nil]
    | cons c more =>
        have same : c = comma := (List.cons.inj behind).1
        exact absurd ⟨by rw [same], closes.filled, free⟩ (short more)

/-- What is found in a text is found where more stands behind it. -/
theorem mem_findallFrom_append {g after : Str} (len : Nat) : ∀ (s : Str), s.length = len →
    ∀ (n : Nat) (prev : Option Chr) (m : Nat) (prev' : Option Chr),
      g ∈ (originLine u).findallFrom n prev s → (s ++ after).length < m →
        g ∈ (originLine u).findallFrom m prev' (s ++ after) := by
  induction len using Nat.strong_induction_on with
  | _ len ih =>
  intro s length n prev m prev' member room
  rcases tick_cases s with bare | ⟨a, t, free, rfl⟩
  · rw [findallFrom_clean bare] at member
    cases member
  · have shape : a ++ tick :: t ++ after = a ++ tick :: (t ++ after) := by
      rw [List.append_assoc]
      rfl
    rw [List.length_append, List.length_cons] at length
    rw [shape] at room ⊢
    rw [List.length_append, List.length_cons] at room
    by_cases hit : ∃ w body rest, lead w <:+ a ∧ IsName u w ∧ Closes t body rest
    · obtain ⟨w, body, rest, tail, name, closes⟩ := hit
      obtain ⟨m, rfl⟩ : ∃ k, m = k + 1 := ⟨m - 1, by omega⟩
      obtain ⟨prev₂, found'⟩ := findallFrom_hit free tail name (closes.append after) m prev'
      cases n with
      | zero => cases member
      | succ n =>
          obtain ⟨prev₁, found⟩ := findallFrom_hit free tail name closes n prev
          rw [found] at member
          rw [found']
          have shorter : body.length + rest.length + 2 = t.length := by
            rw [closes.shape]
            simp only [List.length_append, List.length_cons]
            omega
          rcases List.mem_cons.mp member with here | later
          · rw [here]
            exact List.mem_cons_self
          · refine List.mem_cons_of_mem _ (ih rest.length (by omega) rest rfl n prev₁ m prev₂ later ?_)
            rw [List.length_append] at room ⊢
            omega
    · have none_ : ∀ w body rest, lead w <:+ a → IsName u w → ¬ Closes t body rest :=
        fun w body rest tail name closes => hit ⟨w, body, rest, tail, name, closes⟩
      rw [findallFrom_miss free none_] at member
      by_cases hit' : ∃ w body rest, lead w <:+ a ∧ IsName u w ∧ Closes (t ++ after) body rest
      · obtain ⟨w, body, rest, tail, name, closes⟩ := hit'
        rw [findallFrom_pending closes (fun rest' => none_ w body rest' tail name)] at member
        cases member
      · rw [findallFrom_miss free (fun w body rest tail name closes =>
          hit' ⟨w, body, rest, tail, name, closes⟩)]
        exact ih t.length (by omega) t rfl n _ m _ member (by omega)

/-! The provenances of a text. -/

theorem groups_joint {w : Str} (name : IsName u w) (body : Str) : groups (joint w body) = (w, body) := by
  have solid : ∀ c ∈ w, (c != Chr.ofChar ' ') = true := by
    intro c inside
    rw [bne_iff_ne]
    rintro rfl
    exact name.not_mem (by decide) (by decide) inside
  unfold groups joint
  rw [List.append_assoc, List.takeWhile_append_of_pos solid, List.dropWhile_append_of_pos solid]
  have front : ((" `" : Str) ++ body).takeWhile (fun c => c != Chr.ofChar ' ') = [] := rfl
  have back : (((" `" : Str) ++ body).dropWhile (fun c => c != Chr.ofChar ' ')).drop 2 = body := rfl
  rw [front, back, List.append_nil]

theorem origin_name (u : Chars) (origin : Origin) : IsName u origin.name := by
  have all : origin.name.all (fun c => decide (c.val < 128) && asciiWord c) = true := by
    cases origin <;> decide
  refine ⟨by cases origin <;> decide, fun c inside => ?_⟩
  have here := List.all_eq_true.mp all c inside
  rw [Bool.and_eq_true, decide_eq_true_eq] at here
  rw [u.ascii c here.1]
  exact here.2

theorem mem_findallFrom_clean {g : Str} (len : Nat) : ∀ (s : Str), s.length = len →
    ∀ (n : Nat) (prev : Option Chr), g ∈ (originLine u).findallFrom n prev s →
      ∃ w body, g = joint w body ∧ IsName u w ∧ tick ∉ body := by
  induction len using Nat.strong_induction_on with
  | _ len ih =>
  intro s length n prev member
  rcases tick_cases s with bare | ⟨a, t, free, rfl⟩
  · rw [findallFrom_clean bare] at member
    cases member
  · rw [List.length_append, List.length_cons] at length
    by_cases hit : ∃ w body rest, lead w <:+ a ∧ IsName u w ∧ Closes t body rest
    · obtain ⟨w, body, rest, tail, name, closes⟩ := hit
      cases n with
      | zero => cases member
      | succ n =>
          obtain ⟨prev', found⟩ := findallFrom_hit free tail name closes n prev
          rw [found] at member
          rcases List.mem_cons.mp member with rfl | later
          · exact ⟨w, body, rfl, name, closes.clean⟩
          · refine ih rest.length ?_ rest rfl n prev' later
            have shape := congrArg List.length closes.shape
            simp only [List.length_append, List.length_cons] at shape
            omega
    · rw [findallFrom_miss free (fun w body rest tail name closes =>
        hit ⟨w, body, rest, tail, name, closes⟩)] at member
      exact ih t.length (by omega) t rfl n _ member

/-- No id with a backtick is ever read. -/
theorem tick_not_mem_origins {pair : Str × Str} {s : Str} (known : pair ∈ origins u s) :
    tick ∉ pair.2 := by
  obtain ⟨g, member, rfl⟩ := List.mem_map.mp known
  obtain ⟨w, body, rfl, name, clean⟩ := mem_findallFrom_clean s.length s rfl _ none member
  rwa [groups_joint name]

theorem mem_origins_append {pair : Str × Str} {s : Str} (known : pair ∈ origins u s) (after : Str) :
    pair ∈ origins u (s ++ after) := by
  obtain ⟨g, member, same⟩ := List.mem_map.mp known
  exact List.mem_map.mpr ⟨g, mem_findallFrom_append s.length s rfl _ none _ none member (by omega), same⟩

/-- The provenance of a finding is found, where its id holds no backtick. -/
theorem mem_origins_provenance (f : Finding) (clean : tick ∉ f.sourceId) {front : Str} (rest : Str)
    (shut : f.sourceId.head? = some comma → ¬ Open u front) :
    f.key ∈ origins u (front ++ provenance f ++ rest) := by
  have name := origin_name u f.origin
  have shape : front ++ provenance f ++ rest =
      front ++ lead f.origin.name ++ tick :: (f.sourceId ++ tick :: comma :: rest) := by
    unfold provenance lead
    simp only [List.append_assoc]
    rfl
  refine List.mem_map.mpr ⟨joint f.origin.name f.sourceId, ?_, groups_joint name f.sourceId⟩
  rw [shape]
  exact mem_findallFrom_origin name f.named clean front.length front rfl shut _ none (by omega)

end

end DevGate.Gate.Scaffold
