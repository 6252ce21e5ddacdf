import DevGate.Coherence.Adoption

set_option autoImplicit false

/- baseline-entry.schema.json and exception.schema.json, and the entries the
documents they accept describe. -/
namespace DevGate

open Py

namespace Schemacheck

def fingerprint : Schema where
  type := some (.one .object)
  closed := true
  required := ["assertion_id", "assertion_version", "subject_location", "violation_key"]
  properties := [
    ("assertion_id", string),
    ("assertion_version", { type := some (.one .integer), minimum := some 1 }),
    ("subject_location", string),
    ("violation_key", string)]

def dateTime : Schema := { type := some (.one .string), dateTime := true }

/-- baseline-entry.schema.json. -/
def baselineEntry : Schema where
  type := some (.one .object)
  closed := true
  required := ["fingerprint", "severity", "adopted_at", "owner", "status", "remediation_deadline"]
  properties := [
    ("fingerprint", fingerprint),
    ("severity", names ["critical", "high", "medium", "low"]),
    ("adopted_at", dateTime),
    ("owner", string),
    ("status", names ["open", "remediated", "exception"]),
    ("remediation_deadline", dateTime),
    ("remediation_ref", { type := some (.anyOf [.string, .null]) })]

/-- exception.schema.json. -/
def exception : Schema where
  type := some (.one .object)
  closed := true
  required := ["exception_id", "subject_ref", "assertion_id", "finding_fingerprint", "owner",
    "reason", "approving_authority", "created_at", "expires_at", "enforcement_treatment",
    "remediation_ref"]
  properties := [
    ("exception_id", string),
    ("subject_ref", string),
    ("assertion_id", string),
    ("subject_path", { type := some (.anyOf [.string, .null]) }),
    ("finding_fingerprint", fingerprint),
    ("owner", string),
    ("reason", { type := some (.one .string), minLength := some 1 }),
    ("approving_authority", string),
    ("created_at", dateTime),
    ("expires_at", dateTime),
    ("enforcement_treatment", names ["EXCEPTION-ADVISORY"]),
    ("remediation_ref", string)]

end Schemacheck

namespace Adoption

def Fingerprint.read : Value → Option Fingerprint
  | .dict kvs => do
      let assertionId ← (Dict.get? kvs "assertion_id").bind Value.str?
      let assertionVersion ← (Dict.get? kvs "assertion_version").bind Value.int?
      let subjectLocation ← (Dict.get? kvs "subject_location").bind Value.str?
      let violationKey ← (Dict.get? kvs "violation_key").bind Value.str?
      return { assertionId, assertionVersion, subjectLocation, violationKey }
  | _ => none

def BaselineEntry.read : Value → Option BaselineEntry
  | .dict kvs => do
      let fingerprint ← (Dict.get? kvs "fingerprint").bind Fingerprint.read
      let severity ← optStr? kvs "severity"
      let status ← optStr? kvs "status"
      return { fingerprint, severity, status }
  | _ => none

def ExceptionRecord.read : Value → Option ExceptionRecord
  | .dict kvs => do
      let exceptionId ← (Dict.get? kvs "exception_id").bind Value.str?
      let subjectRef ← optStr? kvs "subject_ref"
      let assertionId ← optStr? kvs "assertion_id"
      let findingFingerprint ← (Dict.get? kvs "finding_fingerprint").bind Fingerprint.read
      let expiresAt ← (Dict.get? kvs "expires_at").bind Value.str?
      return { exceptionId, subjectRef, assertionId, findingFingerprint, expiresAt }
  | _ => none

/-- The entry is what some document accepted by the frozen schema describes. -/
def BaselineEntry.Valid (b : BaselineEntry) : Prop :=
  ∃ doc, Schemacheck.Accepts Schemacheck.baselineEntry doc ∧ BaselineEntry.read doc = some b

def ExceptionRecord.Valid (ex : ExceptionRecord) : Prop :=
  ∃ doc, Schemacheck.Accepts Schemacheck.exception doc ∧ ExceptionRecord.read doc = some ex

def Fingerprint.doc (fp : Fingerprint) : Value :=
  .dict [("assertion_id", .str fp.assertionId), ("assertion_version", .int fp.assertionVersion),
    ("subject_location", .str fp.subjectLocation), ("violation_key", .str fp.violationKey)]

/-- A baseline document for any fingerprint. -/
def debtDoc (fp : Fingerprint) : Value :=
  .dict [("fingerprint", fp.doc), ("severity", .str "low"),
    ("adopted_at", .str "2026-01-01T00:00:00+00:00"), ("owner", .str "owner"),
    ("status", .str "open"), ("remediation_deadline", .str "2027-01-01T00:00:00+00:00")]

theorem fingerprintDoc_valid (fp : Fingerprint) (numbered : 1 ≤ fp.assertionVersion) (path : Str) :
    Schemacheck.validate Schemacheck.fingerprint fp.doc path = [] := by
  refine Schemacheck.validate_object (fun _ => ⟨rfl, rfl, rfl⟩) rfl ?_ path
  intro key sub stated v found path
  simp only [Schemacheck.fingerprint, List.mem_cons, Prod.mk.injEq, List.not_mem_nil,
    or_false] at stated
  rcases stated with ⟨rfl, rfl⟩ | ⟨rfl, rfl⟩ | ⟨rfl, rfl⟩ | ⟨rfl, rfl⟩
  · cases found
    rfl
  · cases found
    have above : ¬ fp.assertionVersion < 1 := by omega
    simp [Schemacheck.validate, Schemacheck.valueErrors, Schemacheck.typeErrors,
      Schemacheck.TypeSpec.names, Schemacheck.isType, Schemacheck.textErrors,
      Schemacheck.numberErrors, above]
  · cases found
    rfl
  · cases found
    rfl

theorem debtDoc_valid (fp : Fingerprint) (numbered : 1 ≤ fp.assertionVersion) :
    BaselineEntry.Valid ⟨fp, some "low", some "open"⟩ := by
  refine ⟨debtDoc fp, ⟨"$", ?_⟩, rfl⟩
  refine Schemacheck.validate_object (fun _ => ⟨rfl, rfl, rfl⟩) rfl ?_ _
  intro key sub stated v found path
  simp only [Schemacheck.baselineEntry, List.mem_cons, Prod.mk.injEq, List.not_mem_nil,
    or_false] at stated
  rcases stated with ⟨rfl, rfl⟩ | ⟨rfl, rfl⟩ | ⟨rfl, rfl⟩ | ⟨rfl, rfl⟩ | ⟨rfl, rfl⟩ | ⟨rfl, rfl⟩ |
    ⟨rfl, rfl⟩
  · cases found
    exact fingerprintDoc_valid fp numbered path
  all_goals cases found
  all_goals rfl

theorem fingerprint_numbered {doc : Value} {fp : Fingerprint}
    (accepted : Schemacheck.Accepts Schemacheck.fingerprint doc)
    (read : Fingerprint.read doc = some fp) : 1 ≤ fp.assertionVersion := by
  obtain ⟨kvs, rfl⟩ := accepted.isObject rfl
  obtain ⟨v, found, inner⟩ := accepted.field "assertion_version" (by decide) rfl
  obtain ⟨n, rfl⟩ := Schemacheck.isType_integer (inner.type rfl)
  have above : 1 ≤ n := inner.minimum rfl
  unfold Fingerprint.read at read
  simp only [Option.bind_eq_bind, Option.bind_eq_some_iff, found, Value.int?, Option.some.injEq]
    at read
  obtain ⟨_, _, version, ⟨_, rfl, isInt⟩, _, _, _, _, same⟩ := read
  cases isInt
  cases same
  exact above

theorem BaselineEntry.Valid.numbered {b : BaselineEntry} (valid : b.Valid) :
    1 ≤ b.fingerprint.assertionVersion := by
  obtain ⟨doc, accepted, read⟩ := valid
  obtain ⟨kvs, rfl⟩ := accepted.isObject rfl
  obtain ⟨v, found, inner⟩ := accepted.field "fingerprint" (by decide) rfl
  unfold BaselineEntry.read at read
  simp only [Option.bind_eq_bind, Option.bind_eq_some_iff, found, Option.some.injEq] at read
  obtain ⟨fp, ⟨_, rfl, readFp⟩, _, _, _, _, same⟩ := read
  cases same
  exact fingerprint_numbered inner readFp

theorem ExceptionRecord.Valid.numbered {ex : ExceptionRecord} (valid : ex.Valid) :
    1 ≤ ex.findingFingerprint.assertionVersion := by
  obtain ⟨doc, accepted, read⟩ := valid
  obtain ⟨kvs, rfl⟩ := accepted.isObject rfl
  obtain ⟨v, found, inner⟩ := accepted.field "finding_fingerprint" (by decide) rfl
  unfold ExceptionRecord.read at read
  simp only [Option.bind_eq_bind, Option.bind_eq_some_iff, found, Option.some.injEq] at read
  obtain ⟨_, _, _, _, _, _, fp, ⟨_, rfl, readFp⟩, _, _, same⟩ := read
  cases same
  exact fingerprint_numbered inner readFp

end Adoption

end DevGate
