import DevGate.Coherence.Canon
import DevGate.Coherence.Schemacheck

set_option autoImplicit false

/- assertion.schema.json, and what the service reads from an assertion that
satisfies it. -/
namespace DevGate

open Py

inductive Severity where
  | critical
  | high
  | medium
  | low
  deriving DecidableEq

def Severity.name : Severity → Str
  | .critical => "critical"
  | .high => "high"
  | .medium => "medium"
  | .low => "low"

def Severity.all : List Severity := [.critical, .high, .medium, .low]

def Severity.ofName? (s : Str) : Option Severity := Severity.all.find? (fun x => x.name = s)

inductive SelectorKind where
  | file
  | artifactMetadata
  | directory
  | capturedFact
  deriving DecidableEq

def SelectorKind.name : SelectorKind → Str
  | .file => "file"
  | .artifactMetadata => "artifact-metadata"
  | .directory => "directory"
  | .capturedFact => "captured-fact"

def SelectorKind.all : List SelectorKind := [.file, .artifactMetadata, .directory, .capturedFact]

def SelectorKind.ofName? (s : Str) : Option SelectorKind :=
  SelectorKind.all.find? (fun x => x.name = s)

structure Selector where
  kind : SelectorKind
  path : Option Str
  selector : Option Str
  extract : Option Str
  factId : Option Str
  deriving DecidableEq

structure Evaluator where
  id : Str
  digest : Str
  deriving DecidableEq

structure Assertion where
  id : Str
  version : Int
  requirementRefs : List Str
  subjects : List Selector
  evaluator : Evaluator
  parameters : Dict Str Value
  severity : Severity
  dependencies : List Str
  retentionDays : Int
  deriving DecidableEq

namespace Schemacheck

def string : Schema := { type := some (.one .string) }

def names (ss : List Str) : Schema := { enum := some (ss.map Value.str) }

def lowerHex : List Char := "0123456789abcdef".toList

def digestPattern : Pattern where
  source := "^sha256:[0-9a-f]{64}$"
  re := .seq (.word "sha256:".toList) (.times (.oneOf lowerHex) 64)

def digest : Schema := { type := some (.one .string), pattern := some digestPattern }

theorem matches_digest (tag : Canon.RoleTag) (payload : Bytes) :
    digestPattern.re.fullmatch (Canon.digest tag payload) = true := by
  have each : ∀ c ∈ sha256 (Canon.preimage tag payload), c ∈ lowerHex.map Chr.ofChar :=
    fun _ inside => mem_sha256 inside
  have whole := Re.fullmatch_word_times "sha256:".toList each
  rwa [length_sha256] at whole

theorem validate_matching {text : Str} (matched : digestPattern.re.fullmatch text = true)
    (path : Str) : validate digest (.str text) path = [] := by
  simp [validate, digest, valueErrors, typeErrors, TypeSpec.names, isType, Value.isStr, textErrors,
    matched, numberErrors]

theorem validate_digest (tag : Canon.RoleTag) (payload : Bytes) (path : Str) :
    validate digest (.str (Canon.digest tag payload)) path = [] :=
  validate_matching (matches_digest tag payload) path

def idStart : List Char := "abcdefghijklmnopqrstuvwxyz0123456789".toList

/-- `fullmatch` makes the anchors of a pattern redundant. -/
def idPattern : Pattern where
  source := "^[a-z0-9][a-z0-9._-]*$"
  re := .seq (.oneOf idStart) (.star true (.oneOf (idStart ++ "._-".toList)))

def subjectSelector : Schema where
  type := some (.one .object)
  closed := true
  required := ["kind"]
  properties := [
    ("kind", names ["file", "artifact-metadata", "directory", "captured-fact"]),
    ("path", string),
    ("selector", string),
    ("extract", string),
    ("fact_id", string)]

def evaluatorRef : Schema where
  type := some (.one .object)
  closed := true
  required := ["id", "digest"]
  properties := [("id", string), ("digest", digest)]

def evidencePolicy : Schema where
  type := some (.one .object)
  closed := true
  required := ["retention_days"]
  properties := [
    ("retention_days", { type := some (.one .integer), minimum := some 0 }),
    ("minimum_disclosure", { type := some (.one .boolean) })]

def stringList : Schema := { type := some (.one .array), items := some string }

/-- assertion.schema.json. -/
def assertion : Schema where
  type := some (.one .object)
  closed := true
  required := ["id", "version", "requirement_refs", "owner", "requirement", "subjects", "evaluator",
    "parameters", "severity", "dependencies", "finding_key", "evidence"]
  properties := [
    ("id", { type := some (.one .string), pattern := some idPattern }),
    ("version", { type := some (.one .integer), minimum := some 1 }),
    ("requirement_refs",
      { type := some (.one .array), minItems := some 1, items := some string }),
    ("owner", string),
    ("requirement", string),
    ("subjects",
      { type := some (.one .array), minItems := some 1, items := some subjectSelector }),
    ("evaluator", evaluatorRef),
    ("parameters", { type := some (.one .object) }),
    ("severity", names ["critical", "high", "medium", "low"]),
    ("dependencies", stringList),
    ("finding_key",
      { type := some (.one .array), minItems := some 1,
        items := some (names ["assertion_id", "subject_location", "violation_class"]) }),
    ("evidence", evidencePolicy)]

end Schemacheck

/-- An optional string property. -/
def optStr? (kvs : List (Str × Value)) (key : Str) : Option (Option Str) :=
  match Dict.get? kvs key with
  | none => some none
  | some v => (Value.str? v).map some

def Selector.read : Value → Option Selector
  | .dict kvs => do
      let kind ← ((Dict.get? kvs "kind").bind Value.str?).bind SelectorKind.ofName?
      let path ← optStr? kvs "path"
      let selector ← optStr? kvs "selector"
      let extract ← optStr? kvs "extract"
      let factId ← optStr? kvs "fact_id"
      return { kind, path, selector, extract, factId }
  | _ => none

def Evaluator.read : Value → Option Evaluator
  | .dict kvs => do
      let id ← (Dict.get? kvs "id").bind Value.str?
      let digest ← (Dict.get? kvs "digest").bind Value.str?
      return { id, digest }
  | _ => none

def retentionDays? (v : Value) : Option Int :=
  v.dict?.bind (fun kvs => (Dict.get? kvs "retention_days").bind Value.int?)

def strs? (v : Value) : Option (List Str) := v.list?.bind (fun vs => vs.mapM Value.str?)

def selectors? (v : Value) : Option (List Selector) :=
  v.list?.bind (fun vs => vs.mapM Selector.read)

def Assertion.read : Value → Option Assertion
  | .dict kvs => do
      let id ← (Dict.get? kvs "id").bind Value.str?
      let version ← (Dict.get? kvs "version").bind Value.int?
      let requirementRefs ← (Dict.get? kvs "requirement_refs").bind strs?
      let subjects ← (Dict.get? kvs "subjects").bind selectors?
      let evaluator ← (Dict.get? kvs "evaluator").bind Evaluator.read
      let parameters ← (Dict.get? kvs "parameters").bind Value.dict?
      let severity ← ((Dict.get? kvs "severity").bind Value.str?).bind Severity.ofName?
      let dependencies ← (Dict.get? kvs "dependencies").bind strs?
      let retentionDays ← (Dict.get? kvs "evidence").bind retentionDays?
      return { id, version, requirementRefs, subjects, evaluator, parameters, severity,
               dependencies, retentionDays }
  | _ => none

namespace Schemacheck

theorem Accepts.isObject {s : Schema} {doc : Value} (accepted : Accepts s doc)
    (stated : s.type = some (.one .object)) : ∃ kvs, doc = .dict kvs :=
  isType_object (accepted.type stated)

theorem accepts_string {s : Schema} {v : Value} (accepted : Accepts s v)
    (stated : s.type = some (.one .string)) : ∃ text, Value.str? v = some text := by
  obtain ⟨text, rfl⟩ := isType_string (accepted.type stated)
  exact ⟨text, rfl⟩

theorem accepts_names {ss : List Str} {v : Value} (accepted : Accepts (names ss) v) :
    ∃ name ∈ ss, v = .str name := by
  have listed := accepted.enum rfl
  simp only [isIn, List.any_map, List.any_eq_true, Function.comp_apply, Value.same_str] at listed
  obtain ⟨name, member, same⟩ := listed
  exact ⟨name, member, same⟩

theorem mapM_isSome {α β : Type} {f : α → Option β} {xs : List α}
    (each : ∀ x ∈ xs, ∃ y, f x = some y) : ∃ ys, xs.mapM f = some ys := by
  induction xs with
  | nil => exact ⟨[], rfl⟩
  | cons x rest ih =>
      obtain ⟨y, here⟩ := each x (by simp)
      obtain ⟨ys, later⟩ := ih (fun x member => each x (List.mem_cons_of_mem _ member))
      refine ⟨y :: ys, ?_⟩
      rw [List.mapM_cons, here, later]
      rfl

/-- An array whose items can all be read. -/
theorem accepts_array {α : Type} {s sub : Schema} {v : Value} (accepted : Accepts s v)
    (stated : s.type = some (.one .array)) (inner : s.items = some sub) {f : Value → Option α}
    (each : ∀ w, Accepts sub w → ∃ x, f w = some x) :
    ∃ xs, v.list?.bind (fun vs => vs.mapM f) = some xs := by
  obtain ⟨vs, rfl⟩ := isType_array (accepted.type stated)
  exact mapM_isSome (fun w member => each w (accepted.items inner w member))

theorem accepts_strings {s : Schema} {v : Value} (accepted : Accepts s v)
    (stated : s.type = some (.one .array)) (inner : s.items = some string) :
    ∃ texts, strs? v = some texts :=
  accepts_array accepted stated inner (fun _ text => accepts_string text rfl)

theorem optStr?_of_accepts {s : Schema} {kvs : List (Str × Value)}
    (accepted : Accepts s (.dict kvs)) (key : Str) (stated : (key, string) ∈ s.properties) :
    ∃ text, optStr? kvs key = some text := by
  unfold optStr?
  split
  · exact ⟨none, rfl⟩
  · rename_i v found
    obtain ⟨text, read⟩ := accepts_string (accepted.property stated found) rfl
    exact ⟨some text, by rw [read]; rfl⟩

theorem kind_of_name {name : Str}
    (member : name ∈ ([("file" : Str), ("artifact-metadata" : Str), ("directory" : Str),
      ("captured-fact" : Str)] : List Str)) : ∃ kind, SelectorKind.ofName? name = some kind := by
  simp only [List.mem_cons, List.not_mem_nil, or_false] at member
  rcases member with rfl | rfl | rfl | rfl
  · exact ⟨.file, by decide⟩
  · exact ⟨.artifactMetadata, by decide⟩
  · exact ⟨.directory, by decide⟩
  · exact ⟨.capturedFact, by decide⟩

theorem severity_of_name {name : Str}
    (member : name ∈ ([("critical" : Str), ("high" : Str), ("medium" : Str),
      ("low" : Str)] : List Str)) : ∃ severity, Severity.ofName? name = some severity := by
  simp only [List.mem_cons, List.not_mem_nil, or_false] at member
  rcases member with rfl | rfl | rfl | rfl
  · exact ⟨.critical, by decide⟩
  · exact ⟨.high, by decide⟩
  · exact ⟨.medium, by decide⟩
  · exact ⟨.low, by decide⟩

theorem accepts_selector {v : Value} (accepted : Accepts subjectSelector v) :
    ∃ selector, Selector.read v = some selector := by
  obtain ⟨kvs, rfl⟩ := accepted.isObject rfl
  obtain ⟨v, kindFound, kindAccepted⟩ :=
    accepted.field "kind" (by decide) rfl
  obtain ⟨name, listed, rfl⟩ := accepts_names kindAccepted
  obtain ⟨kind, kindKnown⟩ := kind_of_name listed
  obtain ⟨path, pathRead⟩ := optStr?_of_accepts accepted "path" (by simp [subjectSelector])
  obtain ⟨selector, selectorRead⟩ :=
    optStr?_of_accepts accepted "selector" (by simp [subjectSelector])
  obtain ⟨extract, extractRead⟩ :=
    optStr?_of_accepts accepted "extract" (by simp [subjectSelector])
  obtain ⟨factId, factIdRead⟩ :=
    optStr?_of_accepts accepted "fact_id" (by simp [subjectSelector])
  refine ⟨⟨kind, path, selector, extract, factId⟩, ?_⟩
  simp only [Selector.read, kindFound, Option.bind_some, Value.str?, kindKnown, pathRead,
    selectorRead, extractRead, factIdRead]
  rfl

theorem accepts_evaluatorRef {v : Value} (accepted : Accepts evaluatorRef v) :
    ∃ evaluator, Evaluator.read v = some evaluator := by
  obtain ⟨kvs, rfl⟩ := accepted.isObject rfl
  obtain ⟨v, idFound, idAccepted⟩ := accepted.field "id" (by decide) rfl
  obtain ⟨id, idRead⟩ := accepts_string idAccepted rfl
  obtain ⟨w, digestFound, digestAccepted⟩ :=
    accepted.field "digest" (by decide) rfl
  obtain ⟨digest, digestRead⟩ := accepts_string digestAccepted rfl
  refine ⟨⟨id, digest⟩, ?_⟩
  simp only [Evaluator.read, idFound, digestFound, Option.bind_some, idRead, digestRead]
  rfl

theorem accepts_evidencePolicy {v : Value} (accepted : Accepts evidencePolicy v) :
    ∃ days, retentionDays? v = some days := by
  obtain ⟨kvs, rfl⟩ := accepted.isObject rfl
  obtain ⟨v, found, inner⟩ :=
    accepted.field "retention_days" (by decide) rfl
  obtain ⟨days, rfl⟩ := isType_integer (inner.type rfl)
  exact ⟨days, by simp only [retentionDays?, Value.dict?, Option.bind_some, found]; rfl⟩

/-- What the frozen schema promises of an assertion beyond its shape. -/
structure WellFormed (a : Assertion) : Prop where
  id : idPattern.re.fullmatch a.id = true
  version : 1 ≤ a.version

/-- Every accepted document is an assertion. -/
theorem accepts_assertion {doc : Value} (accepted : Accepts assertion doc) :
    ∃ a, Assertion.read doc = some a ∧ WellFormed a := by
  obtain ⟨kvs, rfl⟩ := accepted.isObject rfl
  obtain ⟨v, idFound, idAccepted⟩ := accepted.field "id" (by decide) rfl
  obtain ⟨id, rfl⟩ := isType_string (idAccepted.type rfl)
  obtain ⟨v, versionFound, versionAccepted⟩ :=
    accepted.field "version" (by decide) rfl
  obtain ⟨version, rfl⟩ := isType_integer (versionAccepted.type rfl)
  obtain ⟨v, refsFound, refsAccepted⟩ :=
    accepted.field "requirement_refs" (by decide) rfl
  obtain ⟨refs, refsRead⟩ := accepts_strings refsAccepted rfl rfl
  obtain ⟨v, subjectsFound, subjectsAccepted⟩ :=
    accepted.field "subjects" (by decide) rfl
  obtain ⟨subjects, subjectsRead⟩ :=
    accepts_array subjectsAccepted rfl rfl (fun _ selector => accepts_selector selector)
  obtain ⟨v, evaluatorFound, evaluatorAccepted⟩ :=
    accepted.field "evaluator" (by decide) rfl
  obtain ⟨evaluator, evaluatorRead⟩ := accepts_evaluatorRef evaluatorAccepted
  obtain ⟨v, parametersFound, parametersAccepted⟩ :=
    accepted.field "parameters" (by decide) rfl
  obtain ⟨parameters, rfl⟩ := parametersAccepted.isObject rfl
  obtain ⟨v, severityFound, severityAccepted⟩ :=
    accepted.field "severity" (by decide) rfl
  obtain ⟨name, listed, rfl⟩ := accepts_names severityAccepted
  obtain ⟨severity, severityKnown⟩ := severity_of_name listed
  obtain ⟨v, dependenciesFound, dependenciesAccepted⟩ :=
    accepted.field "dependencies" (by decide) rfl
  obtain ⟨dependencies, dependenciesRead⟩ := accepts_strings dependenciesAccepted rfl rfl
  obtain ⟨v, evidenceFound, evidenceAccepted⟩ :=
    accepted.field "evidence" (by decide) rfl
  obtain ⟨days, daysRead⟩ := accepts_evidencePolicy evidenceAccepted
  refine ⟨⟨id, version, refs, subjects, evaluator, parameters, severity, dependencies, days⟩, ?_,
    idAccepted.pattern rfl, versionAccepted.minimum rfl⟩
  simp only [Assertion.read, idFound, versionFound, refsFound, subjectsFound, evaluatorFound,
    parametersFound, severityFound, dependenciesFound, evidenceFound, Option.bind_some,
    Value.str?, Value.int?, Value.dict?, refsRead, selectors?, subjectsRead, evaluatorRead,
    severityKnown, dependenciesRead, daysRead]
  rfl

end Schemacheck

end DevGate
