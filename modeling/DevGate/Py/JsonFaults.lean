import DevGate.Py.JsonRead

set_option autoImplicit false

/- What a document that cannot be read raises. -/
namespace Py

namespace Json

/-- The exceptions a scanner passes on. -/
def Fault.Known : Fault → Prop
  | .decode _ _ => True
  | .raise e => e.cls ∈ [ExcClass.valueError, .runtimeError]

variable {α : Type}

theorem at_fails (msg : Str) (text : Str) : Fails Fault.Known (at_ msg text : Scan (α × Str)) :=
  Fails.error trivial

theorem intOf_fails (negative : Bool) (ds : Str) : Fails Fault.Known (intOf negative ds) := by
  unfold intOf
  split
  · exact Fails.error List.mem_cons_self
  · exact Fails.ok

theorem number_fails (whole : Str) (negative : Bool) (text : Str) :
    Fails Fault.Known (number whole negative text) := by
  unfold number
  split
  · exact at_fails _ _
  · split
    · split
      · exact Fails.ok
      · exact Fails.ok
    · split
      · exact Fails.ok
      · exact (intOf_fails _ _).map

theorem push_fails {u : Letter} {read : Scan (List Letter × Str)}
    (first : Fails Fault.Known read) : Fails Fault.Known (push u read) := first.map

theorem letters_fails (start : Nat) (text : Str) : Fails Fault.Known (letters start text) := by
  fun_induction letters start text with
  | case1 => exact Fails.error trivial
  | case2 => exact Fails.ok
  | case3 => exact Fails.error trivial
  | case4 => exact at_fails _ _
  | case5 => exact push_fails (by assumption)
  | case6 => exact at_fails _ _
  | case7 => exact at_fails _ _
  | case8 => exact push_fails (by assumption)
  | case9 => exact at_fails _ _
  | case10 => exact at_fails _ _
  | case11 => exact push_fails (by assumption)

theorem string_fails (text : Str) : Fails Fault.Known (string text) :=
  (letters_fails _ text).bind (fun _ _ => Fails.ok)

theorem scanKey_fails (text : Str) : Fails Fault.Known (scanKey text) := by
  unfold scanKey
  split
  · exact at_fails _ _
  · split
    · apply (string_fails _).bind
      rintro ⟨key, rest⟩ -
      dsimp only
      split
      · exact at_fails _ _
      · split
        · exact Fails.ok
        · exact at_fails _ _
    · exact at_fails _ _

variable {scan : Str → Scan (Value × Str)}

theorem scanMember_fails (values : ∀ text, Fails Fault.Known (scan text)) (text : Str) :
    Fails Fault.Known (scanMember scan text) :=
  (scanKey_fails text).bind (fun _ _ => (values _).bind (fun _ _ => Fails.ok))

theorem scanSequence_fails {item : Str → Scan (α × Str)} (close : Chr)
    (items : ∀ text, Fails Fault.Known (item text)) (fuel : Nat) (text : Str) :
    Fails Fault.Known (scanSequence item close fuel text) := by
  induction fuel generalizing text with
  | zero => exact at_fails _ _
  | succ fuel ih =>
      apply (items text).bind
      rintro ⟨x, rest⟩ -
      dsimp only
      split
      · exact at_fails _ _
      · split
        · exact Fails.ok
        · split
          · exact (ih _).bind (fun _ _ => Fails.ok)
          · exact at_fails _ _

theorem array_fails (values : ∀ text, Fails Fault.Known (scan text)) (fuel : Nat) (text : Str) :
    Fails Fault.Known (array scan fuel text) := by
  unfold array
  split
  · exact at_fails _ _
  · split
    · exact Fails.ok
    · exact (scanSequence_fails _ values fuel _).bind (fun _ _ => Fails.ok)

theorem object_fails (values : ∀ text, Fails Fault.Known (scan text)) (fuel : Nat) (text : Str) :
    Fails Fault.Known (object scan fuel text) := by
  unfold object
  split
  · exact at_fails _ _
  · split
    · exact Fails.ok
    · exact (scanSequence_fails _ (scanMember_fails values) fuel _).bind (fun _ _ => Fails.ok)

theorem scanOnce_fails (fuel : Nat) (text : Str) : Fails Fault.Known (scanOnce fuel text) := by
  induction fuel generalizing text with
  | zero =>
      unfold scanOnce
      exact Fails.error (List.mem_cons_of_mem _ List.mem_cons_self)
  | succ fuel ih =>
      cases text with
      | nil => exact at_fails _ _
      | cons c rest =>
          unfold scanOnce
          split
          · exact (string_fails rest).map
          · split
            · exact object_fails ih fuel rest
            · split
              · exact array_fails ih fuel rest
              · split
                · exact Fails.ok
                · split
                  · exact number_fails _ _ _
                  · exact number_fails _ _ _

theorem whole_fails (text : Str) : Fails Fault.Known (whole text) := by
  apply (scanOnce_fails _ _).bind
  rintro ⟨v, rest⟩ -
  dsimp only
  split
  · exact Fails.ok
  · exact Fails.error trivial

/-- The exceptions of a text document that cannot be read. -/
def Unreadable (e : Exc) : Prop :=
  e.cls ∈ [ExcClass.jsonDecodeError, .unicodeDecodeError, .valueError, .runtimeError]

theorem decodeText_fails (text : Str) : Fails Unreadable (decodeText text) := by
  have known := whole_fails text
  unfold decodeText
  split
  · exact Fails.ok
  · rename_i fault failed
    apply Fails.error
    have raised := known fault failed
    cases fault with
    | decode msg left => exact List.mem_cons_self
    | raise e =>
        unfold Fault.Known at raised
        exact List.mem_cons_of_mem _ (List.mem_cons_of_mem _ raised)

theorem loads_fails (text : Str) : Fails Unreadable (loads text) := by
  unfold loads
  split
  · exact Fails.error List.mem_cons_self
  · exact decodeText_fails text

end Json

theorem Utf8.decodeFrom_fails (passes : Bool) (pending : Option Utf8.Pending) (bytes : Bytes) :
    Fails Json.Unreadable (Utf8.decodeFrom passes pending bytes) := by
  have fails : ∀ reason : Str, Json.Unreadable (Utf8.fail reason) :=
    fun _ => List.mem_cons_of_mem _ List.mem_cons_self
  fun_induction Utf8.decodeFrom passes pending bytes with
  | case1 => exact Fails.ok
  | case2 => exact Fails.error (fails _)
  | case3 b rest small ih => exact ih.bind (fun _ _ => Fails.ok)
  | case4 => exact Fails.error (fails _)
  | case5 => assumption
  | case6 p b rest within bits last ih => exact ih.bind (fun _ _ => Fails.ok)
  | case7 => assumption
  | case8 => exact Fails.error (fails _)

theorem Json.loadText_fails (bytes : Bytes) : Fails Json.Unreadable (Json.loadText bytes) := by
  have text : Fails Json.Unreadable (Utf8.readText bytes) :=
    (Utf8.decodeFrom_fails false none bytes).bind (fun _ _ => Fails.ok)
  exact text.bind (fun _ _ => Json.loads_fails _)

end Py
