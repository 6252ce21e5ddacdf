import DevGate.Py.JsonRoundTrip

set_option autoImplicit false

/- What `json.loads` answers for a text decoded from UTF-8: distinct keys, and no
surrogate pair left apart. -/
namespace Py.Json

def Clear (text : Str) : Prop := ∀ c ∈ text, c.isSurrogate = false

theorem Clear.of_suffix {rest text : Str} (clear : Clear text) (suffix : rest <:+ text) : Clear rest :=
  fun c inside => clear c (suffix.mem inside)

theorem skip_suffix (text : Str) : skip text <:+ text := by
  induction text with
  | nil => exact List.suffix_rfl
  | cons c rest ih =>
      unfold skip
      split
      · exact ih.trans (List.suffix_cons c rest)
      · exact List.suffix_rfl

theorem digits_suffix (text : Str) : (digits text).2 <:+ text := by
  induction text with
  | nil => exact List.suffix_rfl
  | cons c rest ih =>
      unfold digits
      split
      · exact ih.trans (List.suffix_cons c rest)
      · exact List.suffix_rfl

theorem intPart_suffix {text ds rest : Str} (read : intPart text = some (ds, rest)) :
    rest <:+ text := by
  cases text with
  | nil => cases read
  | cons c later =>
      have next := List.suffix_cons c later
      by_cases zero : c = Chr.ofChar '0'
      · simp only [intPart, zero, ↓reduceIte, Option.some.injEq, Prod.mk.injEq] at read
        rw [← read.2]
        exact next
      · by_cases digit : isDigit c = true
        · simp only [intPart, zero, digit, ↓reduceIte, Option.some.injEq, Prod.mk.injEq] at read
          rw [← read.2]
          exact (digits_suffix later).trans next
        · simp [intPart, zero, digit] at read

theorem fracPart_suffix {text ds rest : Str} (read : fracPart text = some (ds, rest)) :
    rest <:+ text := by
  cases text with
  | nil => cases read
  | cons c later =>
      by_cases dot : c = Chr.ofChar '.' ∧ (digits later).1 ≠ []
      · have whole : digits later = (ds, rest) := by
          rw [fracPart, if_pos dot] at read
          exact Option.some.inj read
        have after := (digits_suffix later).trans (List.suffix_cons c later)
        rwa [whole] at after
      · rw [fracPart, if_neg dot] at read
        cases read

theorem exponent_suffix {text rest : Str} {power : Int} (read : exponent text = some (power, rest)) :
    rest <:+ text := by
  cases text with
  | nil => cases read
  | cons d later =>
      have signed := (digits_suffix later).trans (List.suffix_cons d later)
      have bare := digits_suffix (d :: later)
      by_cases sign : d = Chr.ofChar '-' ∨ d = Chr.ofChar '+'
      · simp only [exponent, sign, ↓reduceIte] at read
        split at read
        · cases read
        · have after := (Prod.ext_iff.mp (Option.some.inj read)).2
          simp only at after
          rwa [after] at signed
      · simp only [exponent, sign, ↓reduceIte] at read
        split at read
        · cases read
        · have after := (Prod.ext_iff.mp (Option.some.inj read)).2
          simp only at after
          rwa [after] at bare

theorem expPart_suffix {text rest : Str} {power : Int} (read : expPart text = some (power, rest)) :
    rest <:+ text := by
  cases text with
  | nil => cases read
  | cons c later =>
      by_cases mark : c = Chr.ofChar 'e' ∨ c = Chr.ofChar 'E'
      · rw [expPart, if_pos mark] at read
        exact (exponent_suffix read).trans (List.suffix_cons c later)
      · rw [expPart, if_neg mark] at read
        cases read

theorem number_suffix {whole text rest : Str} {negative : Bool} {v : Value}
    (read : number whole negative text = .ok (v, rest)) : rest <:+ text ∧ Clean v := by
  unfold number at read
  split at read
  · cases read
  · rename_i ds after int
    have start := intPart_suffix int
    split at read
    · rename_i fraction later frac
      have middle := (fracPart_suffix frac).trans start
      split at read
      · rename_i power last exp
        cases read
        exact ⟨(expPart_suffix exp).trans middle, Clean.float _⟩
      · cases read
        exact ⟨middle, Clean.float _⟩
    · split at read
      · rename_i power last exp
        cases read
        exact ⟨(expPart_suffix exp).trans start, Clean.float _⟩
      · unfold intOf at read
        split at read
        · cases read
        · cases read
          exact ⟨start, Clean.int _⟩

/-- A letter no escape spelled is not a surrogate. -/
def Letter.Legible (u : Letter) : Prop := u.escaped = false → u.chr.isSurrogate = false

theorem Chr.isSurrogate_of_isLow {c : Chr} (low : c.isLow = true) : c.isSurrogate = true := by
  simp only [Chr.isLow, Chr.isSurrogate, Bool.and_eq_true, decide_eq_true_eq] at low ⊢
  omega

theorem Chr.isSurrogate_of_isHigh {c : Chr} (high : c.isHigh = true) : c.isSurrogate = true := by
  simp only [Chr.isHigh, Chr.isSurrogate, Bool.and_eq_true, decide_eq_true_eq] at high ⊢
  omega

theorem Chr.join_not_low {high low : Chr} (isHigh : high.isHigh = true) (isLow : low.isLow = true) :
    (Chr.join high low).isLow = false ∧ (Chr.join high low).isHigh = false := by
  simp only [Chr.isHigh, Bool.and_eq_true, decide_eq_true_eq] at isHigh
  simp only [Chr.isLow, Bool.and_eq_true, decide_eq_true_eq] at isLow
  have value : (Chr.join high low).val =
      0x10000 + (high.val - 0xd800) * 0x400 + (low.val - 0xdc00) := by
    simp only [Chr.join, Fin.ofNat]
    omega
  constructor
  · simp only [Chr.isLow, value, Bool.and_eq_false_iff, decide_eq_false_iff_not]
    omega
  · simp only [Chr.isHigh, value, Bool.and_eq_false_iff, decide_eq_false_iff_not]
    omega

/-- The first character of a join: the first letter itself, or a joined pair. -/
theorem head_join (u : Letter) (us : List Letter) :
    ∃ c rest, join (u :: us) = c :: rest ∧ (c = u.chr ∨ c.isLow = false) := by
  cases us with
  | nil => exact ⟨u.chr, [], rfl, Or.inl rfl⟩
  | cons w us =>
      by_cases pair : (u.escaped && w.escaped && u.chr.isHigh && w.chr.isLow) = true
      · refine ⟨Chr.join u.chr w.chr, join us, by simp only [join, pair, ↓reduceIte], Or.inr ?_⟩
        simp only [Bool.and_eq_true] at pair
        exact (Chr.join_not_low pair.1.2 pair.2).1
      · rw [Bool.not_eq_true] at pair
        exact ⟨u.chr, join (w :: us), by simp only [join, pair, Bool.false_eq_true, ↓reduceIte],
          Or.inl rfl⟩

/-- Joining leaves no pair apart. -/
theorem join_tidy (us : List Letter) (legible : ∀ u ∈ us, u.Legible) : Tidy (join us) := by
  induction us using join.induct with
  | case1 => exact List.IsChain.nil
  | case2 u => exact List.IsChain.singleton _
  | case3 u w us pair ih =>
      have later := ih (fun x inside => legible x (by simp [inside]))
      simp only [join, pair, ↓reduceIte]
      simp only [Bool.and_eq_true] at pair
      have joined := Chr.join_not_low pair.1.2 pair.2
      cases shape : join us with
      | nil => exact List.IsChain.singleton _
      | cons d rest =>
          rw [shape] at later
          refine List.IsChain.cons_cons ?_ later
          intro apart
          rw [joined.2] at apart
          cases apart.1
  | case4 u w us pair ih =>
      have later := ih (fun x inside => legible x (List.mem_cons_of_mem _ inside))
      simp only [join, pair]
      obtain ⟨d, rest, shape, first⟩ := head_join w us
      rw [shape] at later ⊢
      refine List.IsChain.cons_cons ?_ later
      rintro ⟨high, low⟩
      rcases first with rfl | notLow
      · apply pair
        have escaped : ∀ x ∈ u :: w :: us, x.chr.isSurrogate = true → x.escaped = true := by
          intro x inside surrogate
          by_contra plain
          rw [Bool.not_eq_true] at plain
          rw [legible x inside plain] at surrogate
          cases surrogate
        rw [escaped u (by simp) (Chr.isSurrogate_of_isHigh high),
          escaped w (by simp) (Chr.isSurrogate_of_isLow low), high, low]
        rfl
      · rw [notLow] at low
        cases low

theorem push_ok {u : Letter} {read : Scan (List Letter × Str)} {us : List Letter} {rest : Str} :
    push u read = .ok (us, rest) ↔ ∃ later, read = .ok (later, rest) ∧ us = u :: later := by
  cases read with
  | error fault => simp [push, Except.map]
  | ok found =>
      obtain ⟨later, after⟩ := found
      simp only [push, Except.map, Except.ok.injEq, Prod.mk.injEq]
      constructor
      · intro ⟨same, last⟩
        exact ⟨later, ⟨rfl, last⟩, same.symm⟩
      · intro ⟨other, ⟨same, last⟩, spelled⟩
        exact ⟨by rw [spelled, same], last⟩

theorem unescape_clear {e c : Chr} (simple : unescape e = some c) : c.isSurrogate = false := by
  unfold unescape at simple
  repeat' split at simple
  all_goals simp only [Option.some.injEq, reduceCtorEq] at simple
  all_goals
    subst simple
    decide

/-- A letter is read, and then the rest of the string. -/
theorem read_cons {text later rest : Str} {u : Letter} {us found : List Letter} (legible : u.Legible)
    (suffix : later <:+ text) (inner : rest <:+ later ∧ ∀ w ∈ found, w.Legible)
    (spelled : us = u :: found) : rest <:+ text ∧ ∀ w ∈ us, w.Legible := by
  refine ⟨inner.1.trans suffix, ?_⟩
  rw [spelled, List.forall_mem_cons]
  exact ⟨legible, inner.2⟩

theorem letters_read {start : Nat} {text : Str} {us : List Letter} {rest : Str}
    (read : letters start text = .ok (us, rest)) (clear : Clear text) :
    rest <:+ text ∧ ∀ u ∈ us, u.Legible := by
  fun_induction letters start text generalizing us with
  | case2 after =>
      cases read
      exact ⟨List.suffix_cons _ _, by simp⟩
  | case5 a b c d after n hex more open_ ih =>
      obtain ⟨found, ran, spelled⟩ := push_ok.mp read
      have suffix : after <:+ Chr.ofChar '\\' :: Chr.ofChar 'u' :: a :: b :: c :: d :: after :=
        ⟨[Chr.ofChar '\\', Chr.ofChar 'u', a, b, c, d], rfl⟩
      have inner := ih ran (clear.of_suffix suffix)
      exact read_cons (fun plain => by cases plain) suffix inner spelled
  | case8 e later other c simple open_ ih =>
      obtain ⟨found, ran, spelled⟩ := push_ok.mp read
      have suffix : later <:+ Chr.ofChar '\\' :: e :: later := ⟨[Chr.ofChar '\\', e], rfl⟩
      have inner := ih ran (clear.of_suffix suffix)
      exact read_cons (fun _ => unescape_clear simple) suffix inner spelled
  | case11 c later open_ escape_ control ih =>
      obtain ⟨found, ran, spelled⟩ := push_ok.mp read
      have suffix : later <:+ c :: later := List.suffix_cons c later
      have inner := ih ran (clear.of_suffix suffix)
      exact read_cons (fun _ => clear c List.mem_cons_self) suffix inner spelled
  | _ => cases read

theorem string_read {text s rest : Str} (read : string text = .ok (s, rest)) (clear : Clear text) :
    rest <:+ text ∧ Tidy s := by
  unfold string at read
  obtain ⟨found, ran, read⟩ := bind_ok.mp read
  obtain ⟨us, after⟩ := found
  cases read
  have inner := letters_read ran clear
  exact ⟨inner.1, join_tidy us inner.2⟩

/-- A scanner that leaves a suffix, and answers what satisfies `P`, on clear texts. -/
def Reads {α : Type} (P : α → Prop) (scan : Str → Scan (α × Str)) : Prop :=
  ∀ text a rest, Clear text → scan text = .ok (a, rest) → rest <:+ text ∧ P a

/-- What stands after a value and a mark. -/
theorem suffix_of_skip {text rest after : Str} {d : Chr} (suffix : rest <:+ text)
    (shape : skip rest = d :: after) : after <:+ text := by
  have inner := skip_suffix rest
  rw [shape] at inner
  exact ((List.suffix_cons d after).trans inner).trans suffix

theorem scanKey_reads : Reads Tidy scanKey := by
  intro text key rest clear read
  unfold scanKey at read
  split at read
  · cases read
  · rename_i c later
    split at read
    · obtain ⟨found, ran, read⟩ := bind_ok.mp read
      obtain ⟨s, after⟩ := found
      have next := List.suffix_cons c later
      have inner := string_read ran (clear.of_suffix next)
      simp only at read
      split at read
      · cases read
      · rename_i d last shape
        split at read
        · cases read
          have suffix := suffix_of_skip (inner.1.trans next) shape
          exact ⟨(skip_suffix last).trans suffix, inner.2⟩
        · cases read
    · cases read

theorem scanMember_reads {scan : Str → Scan (Value × Str)} (values : Reads Clean scan) :
    Reads (fun kv => Tidy kv.1 ∧ Clean kv.2) (scanMember scan) := by
  intro text kv rest clear read
  unfold scanMember at read
  obtain ⟨⟨key, after⟩, ran, read⟩ := bind_ok.mp read
  obtain ⟨⟨v, last⟩, ran', read⟩ := bind_ok.mp read
  cases read
  have first := scanKey_reads text key after clear ran
  have second := values after v rest (clear.of_suffix first.1) ran'
  exact ⟨second.1.trans first.1, first.2, second.2⟩

theorem scanSequence_reads {α : Type} {P : α → Prop} {item : Str → Scan (α × Str)}
    (items : Reads P item) (close : Chr) (fuel : Nat) :
    Reads (fun xs => ∀ x ∈ xs, P x) (scanSequence item close fuel) := by
  induction fuel with
  | zero =>
      intro text xs rest _ read
      cases read
  | succ fuel ih =>
      intro text xs rest clear read
      unfold scanSequence at read
      obtain ⟨⟨x, after⟩, ran, read⟩ := bind_ok.mp read
      have first := items text x after clear ran
      simp only at read
      split at read
      · cases read
      · rename_i d last shape
        have suffix := suffix_of_skip first.1 shape
        split at read
        · cases read
          exact ⟨suffix, by simpa using first.2⟩
        · split at read
          · obtain ⟨⟨ys, final⟩, ran', read⟩ := bind_ok.mp read
            cases read
            have tail := (skip_suffix last).trans suffix
            have later := ih (skip last) ys final (clear.of_suffix tail) ran'
            exact ⟨later.1.trans tail, List.forall_mem_cons.mpr ⟨first.2, later.2⟩⟩
          · cases read

theorem array_reads {scan : Str → Scan (Value × Str)} (values : Reads Clean scan) (fuel : Nat) :
    Reads Clean (array scan fuel) := by
  intro text v rest clear read
  unfold array at read
  have start := skip_suffix text
  split at read
  · cases read
  · rename_i c after shape
    rw [shape] at start
    split at read
    · cases read
      exact ⟨(List.suffix_cons c rest).trans start, Clean.list (by simp)⟩
    · obtain ⟨⟨vs, last⟩, ran, read⟩ := bind_ok.mp read
      cases read
      have inner := scanSequence_reads values _ fuel _ vs rest (clear.of_suffix start) ran
      exact ⟨inner.1.trans start, Clean.list inner.2⟩

theorem clean_ofPairs {kvs : List (Str × Value)} (each : ∀ kv ∈ kvs, Tidy kv.1 ∧ Clean kv.2) :
    Clean (.dict (Dict.ofPairs kvs)) := by
  have grow : ∀ (d : Dict Str Value), (d.map Prod.fst).Nodup → (∀ kv ∈ d, Tidy kv.1 ∧ Clean kv.2) →
      Clean (.dict (kvs.foldl (fun d kv => Dict.set d kv.1 kv.2) d)) := by
    induction kvs with
    | nil =>
        intro d distinct inside
        exact Clean.dict distinct (fun kv member => (inside kv member).1)
          (fun kv member => (inside kv member).2)
    | cons kv rest ih =>
        intro d distinct inside
        rw [List.forall_mem_cons] at each
        apply ih each.2 _ (Dict.nodup_set distinct kv.1 kv.2)
        intro stored member
        rcases Dict.mem_set member with rfl | old
        · exact each.1
        · exact inside stored old
  exact grow [] List.nodup_nil (by simp)

theorem object_reads {scan : Str → Scan (Value × Str)} (values : Reads Clean scan) (fuel : Nat) :
    Reads Clean (object scan fuel) := by
  intro text v rest clear read
  unfold object at read
  have start := skip_suffix text
  split at read
  · cases read
  · rename_i c after shape
    rw [shape] at start
    split at read
    · cases read
      exact ⟨(List.suffix_cons c rest).trans start, Clean.dict (by simp) (by simp) (by simp)⟩
    · obtain ⟨⟨kvs, last⟩, ran, read⟩ := bind_ok.mp read
      cases read
      have inner := scanSequence_reads (scanMember_reads values) _ fuel _ kvs rest
        (clear.of_suffix start) ran
      exact ⟨inner.1.trans start, clean_ofPairs inner.2⟩

theorem stripPrefix_suffix {word text rest : Str} (read : stripPrefix word text = some rest) :
    rest <:+ text := by
  induction word generalizing text with
  | nil =>
      cases read
      exact List.suffix_rfl
  | cons c word ih =>
      cases text with
      | nil => cases read
      | cons d text =>
          unfold stripPrefix at read
          split at read
          · exact (ih read).trans (List.suffix_cons d text)
          · cases read

theorem constant_reads {text rest : Str} {v : Value} (read : constant text = some (v, rest)) :
    rest <:+ text ∧ Clean v := by
  obtain ⟨named, listed, found⟩ := List.exists_of_findSome?_eq_some read
  obtain ⟨after, strip, same⟩ := Option.map_eq_some_iff.mp found
  cases same
  refine ⟨stripPrefix_suffix strip, ?_⟩
  simp only [constants, List.mem_cons, List.not_mem_nil, or_false] at listed
  rcases listed with rfl | rfl | rfl | rfl | rfl | rfl
  · exact Clean.null
  · exact Clean.bool true
  · exact Clean.bool false
  · exact Clean.float _
  · exact Clean.float _
  · exact Clean.float _

theorem scanOnce_reads (fuel : Nat) : Reads Clean (scanOnce fuel) := by
  induction fuel with
  | zero =>
      intro text v rest _ read
      cases read
  | succ fuel ih =>
      intro text v rest clear read
      cases text with
      | nil => cases read
      | cons c later =>
          have next := List.suffix_cons c later
          have clear' := clear.of_suffix next
          unfold scanOnce at read
          split at read
          · cases ran : string later with
            | error fault =>
                rw [ran] at read
                cases read
            | ok found =>
                rw [ran] at read
                cases read
                have inner := string_read ran clear'
                exact ⟨inner.1.trans next, Clean.str inner.2⟩
          · split at read
            · have inner := object_reads ih fuel later v rest clear' read
              exact ⟨inner.1.trans next, inner.2⟩
            · split at read
              · have inner := array_reads ih fuel later v rest clear' read
                exact ⟨inner.1.trans next, inner.2⟩
              · split at read
                · rename_i found ran
                  cases read
                  exact constant_reads ran
                · split at read
                  · have inner := number_suffix read
                    exact ⟨inner.1.trans next, inner.2⟩
                  · exact number_suffix read

theorem loads_clean {text : Str} {v : Value} (read : loads text = .ok v) (clear : Clear text) :
    Clean v := by
  unfold loads at read
  split at read
  · cases read
  · unfold decodeText at read
    split at read
    · rename_i w ran
      cases read
      unfold whole at ran
      obtain ⟨⟨w, rest⟩, scanned, ran⟩ := bind_ok.mp ran
      simp only at ran
      split at ran
      · cases ran
        exact (scanOnce_reads _ _ _ _ (clear.of_suffix (skip_suffix text)) scanned).2
      · cases ran
    · cases read

theorem loadText_clean {bytes : Bytes} {v : Value} (read : loadText bytes = .ok v) : Clean v := by
  unfold loadText at read
  obtain ⟨text, decoded, read⟩ := bind_ok.mp read
  exact loads_clean read (Utf8.readText_clear decoded)

end Py.Json
