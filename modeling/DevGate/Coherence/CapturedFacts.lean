import DevGate.Coherence.Context

set_option autoImplicit false

/- When the captured facts of a context load. -/
namespace DevGate

open Py

namespace Context

open Canon

/-- The record names a fact, and what it binds stands in `facts`, under its digest. -/
def FactHeld (disk : Disk) (base : Path) (rec : Value) : Prop :=
  ∃ fid : Str, rec.field? "fact_id" = some (.str fid) ∧ fid ≠ [] ∧ Chr.ofChar '/' ∉ fid ∧
    fid ≠ "." ∧ fid ≠ ".." ∧ ∀ dig, rec.field? "digest" = some (.str dig) →
      ∃ raw content, disk.read ((base.join "facts").join fid) = .ok raw ∧ digest .file raw = dig ∧
        Json.loadBytes raw = .ok content

theorem readFact_answers {disk : Disk} {base : Path} {fid dig : Str} :
    (∃ read, readFact disk base (.str fid) (.str dig) = .ok read) ↔
      ∃ raw content, disk.read ((base.join "facts").join fid) = .ok raw ∧ digest .file raw = dig ∧
        Json.loadBytes raw = .ok content := by
  unfold readFact factPath
  rw [ok_bind]
  dsimp only
  cases there : disk.read ((base.join "facts").join fid) with
  | error e =>
      by_cases missing : e.isA [.osError] <;> simp [missing]
  | ok raw =>
      dsimp only
      rw [answers_bind]
      simp only [ensure_ok, Value.eq_str, Value.str.injEq, exists_const, Except.ok.injEq]
      cases loaded : Json.loadBytes raw with
      | error e =>
          by_cases unparseable : e.isA [.jsonDecodeError] <;> simp [unparseable, loaded]
      | ok content => simp [loaded, eq_comm]

/-- The digest of a record is no digest, or one of the frozen form. -/
theorem fact_digest {rec : Dict Str Value}
    (accepted : Schemacheck.Accepts Schemacheck.capturedFact (.dict rec)) :
    Dict.get? rec "digest" = some .null ∨
      ∃ dig, Dict.get? rec "digest" = some (.str dig) ∧ dig ≠ [] := by
  obtain ⟨v, found, inner⟩ := accepted.field "digest" (by decide) rfl
  rw [found]
  cases v with
  | null => exact Or.inl rfl
  | str dig =>
      refine Or.inr ⟨dig, rfl, ?_⟩
      rintro rfl
      have matched := inner.pattern rfl
      exact absurd matched (by decide)
  | _ =>
      obtain ⟨path, -, typed, -⟩ := inner.checked
      simp [Schemacheck.typeErrors, Schemacheck.digestOrNull, Schemacheck.TypeSpec.names,
        Schemacheck.isType, Value.isStr, Schemacheck.violation] at typed

theorem capturedFact_answers {disk : Disk} {base : Path} {rec : Value}
    (accepted : Schemacheck.Accepts Schemacheck.capturedFact rec) :
    (∃ found, capturedFact disk base rec = .ok found) ↔ FactHeld disk base rec := by
  obtain ⟨kvs, rfl⟩ := accepted.isObject rfl
  obtain ⟨named, there, inner⟩ := accepted.field "fact_id" (by decide) rfl
  obtain ⟨fid, rfl⟩ := Schemacheck.isType_string (inner.type rfl)
  have first : (∃ found, capturedFact disk base (.dict kvs) = .ok found) ↔
      fid ≠ [] ∧ (Chr.ofChar '/' ∉ fid ∧ fid ≠ "." ∧ fid ≠ "..") ∧
        ∀ dig, Dict.get? kvs "digest" = some (.str dig) →
          ∃ read, readFact disk base (.str fid) (.str dig) = .ok read := by
    unfold capturedFact
    simp only [Value.field?_dict, there, Option.getD_some, badFactId, ok_bind, answers_bind,
      ensure_ok, Value.get_dict, exists_const, Value.isDict, Value.truthy, true_and, bne_iff_ne,
      ne_eq]
    apply and_congr_right
    intro filled
    apply and_congr
    · simp [and_assoc]
    · rcases fact_digest accepted with none_ | ⟨dig, bound, some_⟩
      · simp [none_]
      · have digested : (dig != []) = true := by simpa using some_
        simp only [bound, Option.getD_some, Option.some.injEq, Value.str.injEq, forall_eq']
        rw [if_pos digested, answers_bind]
        simp
  rw [first]
  unfold FactHeld
  simp only [Value.field?_dict, there, Option.some.injEq, Value.str.injEq, exists_eq_left',
    readFact_answers, and_assoc]

theorem capturedFacts_answers {disk : Disk} {base : Path} {facts : List Value}
    (accepted : ∀ rec ∈ facts, Schemacheck.Accepts Schemacheck.capturedFact rec)
    (out : Dict Str Value) :
    (∃ found, capturedFacts disk base out facts = .ok found) ↔
      ∀ rec ∈ facts, FactHeld disk base rec := by
  induction facts generalizing out with
  | nil => simp [capturedFacts]
  | cons rec rest ih =>
      rw [List.forall_mem_cons] at accepted
      rw [List.forall_mem_cons, ← capturedFact_answers accepted.1, capturedFacts, answers_bind]
      constructor
      · rintro ⟨found, here, later⟩
        refine ⟨⟨found, here⟩, ?_⟩
        cases found with
        | none => exact (ih accepted.2 _).mp later
        | some pair => exact (ih accepted.2 _).mp later
      · rintro ⟨⟨found, here⟩, later⟩
        refine ⟨found, here, ?_⟩
        cases found with
        | none => exact (ih accepted.2 _).mpr later
        | some pair => exact (ih accepted.2 _).mpr later

/-- The records of a context. -/
def factsOf (ctx : Dict Str Value) : List Value :=
  ((Dict.get? ctx "captured_facts").bind Value.list?).getD []

/-- The captured facts of a loaded context load where each of them is held. -/
theorem loadCapturedFacts_answers {disk : Disk} {root : Str} {base : Path} {env : Issue.Env}
    {doc : Value} {ctx : Dict Str Value} (checked : checkContext env doc = .ok ctx)
    (resolved : disk.resolve (Path.ofStr root) = .ok base) :
    (∃ facts, loadCapturedFacts disk root ctx = .ok facts) ↔
      ∀ rec ∈ factsOf ctx, FactHeld disk base rec := by
  obtain ⟨kvs, digest, rfl, accepted, -, -, rfl⟩ := checkContext_ok checked
  unfold loadCapturedFacts factsOf
  rw [resolved, ok_bind, Dict.get?_set_of_ne _ _ _ _ (by decide)]
  cases bound : Dict.get? kvs "captured_facts" with
  | none => exact capturedFacts_answers (by simp) []
  | some v =>
      have inner := accepted.lookup bound rfl
      obtain ⟨facts, rfl⟩ := Schemacheck.isType_array (inner.type rfl)
      have each : ∀ rec ∈ facts, Schemacheck.Accepts Schemacheck.capturedFact rec :=
        inner.items rfl
      cases facts with
      | nil => exact capturedFacts_answers (by simp) []
      | cons rec rest => exact capturedFacts_answers each []

end Context

end DevGate
