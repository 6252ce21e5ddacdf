import DevGate.Coherence.Context
import DevGate.Coherence.Result

set_option autoImplicit false

/- result.schema.json, and which results that `build` makes satisfy it. -/
namespace DevGate

open Py

namespace Schemacheck

def platform : Schema where
  type := some (.one .object)
  closed := true
  required := ["index_digest", "manifest_digest", "profile"]
  properties := [("index_digest", digestOrNull), ("manifest_digest", digestOrNull), ("profile", string)]

/-- A count, from `least` on. -/
def number (least : Int) : Schema := { type := some (.one .integer), minimum := some least }

def assertionSummary : Schema where
  type := some (.one .object)
  closed := true
  required := ["planned", "satisfied", "violated", "unresolved"]
  properties := [("planned", number 0), ("satisfied", number 0), ("violated", number 0),
    ("unresolved", number 0)]

def assertionResult : Schema where
  type := some (.one .object)
  closed := true
  required := ["assertion_id", "version", "outcome", "reason", "enforcement"]
  properties := [
    ("assertion_id", string),
    ("version", number 1),
    ("outcome", names ["SATISFIED", "VIOLATED", "UNRESOLVED"]),
    ("reason", textOrNull),
    ("enforcement", names ["BLOCK", "ADVISORY", "EXCEPTION-ADVISORY"])]

def finding : Schema where
  type := some (.one .object)
  closed := true
  required := ["assertion_id", "finding_key", "outcome", "enforcement", "severity",
    "subject_locations", "expected", "observed", "evidence_refs", "violation_class", "fingerprint"]
  properties := [
    ("assertion_id", string),
    ("finding_key", string),
    ("outcome", names ["VIOLATED"]),
    ("enforcement", names ["BLOCK", "ADVISORY", "EXCEPTION-ADVISORY"]),
    ("severity", names ["critical", "high", "medium", "low"]),
    ("subject_locations", stringList),
    ("expected", string),
    ("observed", string),
    ("evidence_refs", stringList),
    ("violation_class", string),
    ("fingerprint", string),
    ("exception_id", string)]

/-- result.schema.json. -/
def result : Schema where
  type := some (.one .object)
  closed := true
  required := ["api_version", "decision", "semantics", "subject_digest", "openspec_digest",
    "policy_digest", "context_digest", "evaluator_image_digest", "platform", "assertion_summary",
    "assertion_results", "findings", "evidence_manifest_digest", "error"]
  properties := [
    ("api_version", { const := some (.str "devgate.spec-coherence.result/v1") }),
    ("decision", names ["PASS", "ADVISORY", "FAIL", "ERROR"]),
    ("semantics", names ["fresh-promotion", "replay"]),
    ("subject_digest", digest),
    ("openspec_digest", digest),
    ("policy_digest", digest),
    ("context_digest", digest),
    ("evaluator_image_digest", digestOrNull),
    ("platform", platform),
    ("assertion_summary", assertionSummary),
    ("assertion_results", { type := some (.one .array), items := some assertionResult }),
    ("findings", { type := some (.one .array), items := some finding }),
    ("evidence_manifest_digest", digest),
    ("error", { type := some (.one .null) })]

/-! Values that satisfy their schemas. -/

theorem validate_string (text path : Str) : validate string (.str text) path = [] := rfl

theorem validate_textOrNull (text : Option Str) (path : Str) :
    validate textOrNull (Result.orNull text) path = [] := by
  cases text <;> rfl

theorem validate_digestOrNull {text : Option Str}
    (matched : ∀ d, text = some d → digestPattern.re.fullmatch d = true) (path : Str) :
    validate digestOrNull (Result.orNull text) path = [] := by
  cases text with
  | none => rfl
  | some d =>
      simp [validate, digestOrNull, Result.orNull, valueErrors, typeErrors, TypeSpec.names, isType,
        Value.isStr, textErrors, matched d rfl, numberErrors]

theorem validate_number {least n : Int} (above : least ≤ n) (path : Str) :
    validate (number least) (.int n) path = [] := by
  have within : ¬ n < least := by omega
  simp [validate, number, valueErrors, typeErrors, TypeSpec.names, isType, textErrors, numberErrors,
    within]

theorem validate_name {ss : List Str} {name : Str} (known : name ∈ ss) (path : Str) :
    validate (names ss) (.str name) path = [] := by
  have listed : isIn (.str name) (ss.map Value.str) = true :=
    List.any_eq_true.mpr ⟨.str name, List.mem_map_of_mem known, Value.same_str name _ |>.mpr rfl⟩
  simp [validate, names, valueErrors, listed, typeErrors, textErrors, numberErrors]

theorem validate_items {sub : Schema} {vs : List Value} (each : ∀ v ∈ vs, ∀ path,
    validate sub v path = []) (path : Str) :
    validate { type := some (.one .array), items := some sub } (.list vs) path = [] := by
  have inner : validateItems (some sub) vs path = [] := by
    rw [validateItems, List.flatten_eq_nil_iff]
    intro errs member
    obtain ⟨i, inside, rfl⟩ := List.mem_mapIdx.mp member
    exact each _ (List.getElem_mem inside) _
  simp [validate, valueErrors, typeErrors, TypeSpec.names, isType, Value.isList, textErrors,
    numberErrors, sizeErrors, inner]

/-- A closed object has no key beside its properties. -/
theorem Accepts.closed {s : Schema} {kvs : List (Str × Value)} (accepted : Accepts s (.dict kvs))
    (shut : s.closed = true) {key : Str} (held : key ∈ kvs.map Prod.fst) :
    key ∈ s.properties.map Prod.fst := by
  obtain ⟨path, -, -, -, -, -, dicts⟩ := accepted.checked
  have keys := (dicts kvs rfl).1
  simp only [keyErrors, List.append_eq_nil_iff, shut, if_true, List.flatMap_eq_nil_iff] at keys
  obtain ⟨kv, member, rfl⟩ := List.mem_map.mp held
  by_contra outside
  have clean := keys.2 kv member
  rw [if_neg outside] at clean
  cases clean

end Schemacheck

namespace Result

open Schemacheck
open Evaluate (Row)

variable {p : Printer}

theorem rowDoc_valid {e : Row} (numbered : 1 ≤ e.version) (path : Str) :
    validate assertionResult (rowDoc p e) path = [] := by
  refine validate_object (fun _ => ⟨rfl, rfl, rfl⟩) rfl ?_ path
  intro key sub stated v found path
  simp only [assertionResult, List.mem_cons, Prod.mk.injEq, List.not_mem_nil, or_false] at stated
  rcases stated with ⟨rfl, rfl⟩ | ⟨rfl, rfl⟩ | ⟨rfl, rfl⟩ | ⟨rfl, rfl⟩ | ⟨rfl, rfl⟩
  · cases found
    rfl
  · cases found
    exact validate_number numbered path
  · cases found
    cases e.outcome <;> exact validate_name (by decide) path
  · cases found
    exact validate_textOrNull _ path
  · cases found
    cases e.enforcement <;> exact validate_name (by decide) path

theorem strs_valid (ss : List Str) (path : Str) : validate stringList (strs ss) path = [] := by
  refine validate_items (fun v member path => ?_) path
  obtain ⟨s, -, rfl⟩ := List.mem_map.mp member
  exact validate_string s path

theorem summary_valid (ledger : List Row) (path : Str) :
    validate assertionSummary (summary ledger) path = [] := by
  refine validate_object (fun _ => ⟨rfl, rfl, rfl⟩) rfl ?_ path
  intro key sub stated v found path
  simp only [assertionSummary, List.mem_cons, Prod.mk.injEq, List.not_mem_nil, or_false] at stated
  rcases stated with ⟨rfl, rfl⟩ | ⟨rfl, rfl⟩ | ⟨rfl, rfl⟩ | ⟨rfl, rfl⟩
  all_goals cases found
  all_goals exact validate_number (by omega) path

/-- A finding of a violation, as the ladder leaves it. -/
structure Complete (f : Finding) : Prop where
  violated : f.outcome = .violated
  classified : ∃ c, f.violationClass = some c
  marked : ∃ fp, f.fingerprint = some fp

/-- The schema of a finding has no property for a reason. -/
theorem findingDoc_silent {f : Reported} (accepted : Accepts finding (findingDoc p f)) :
    f.finding.reason = none := by
  by_contra given
  obtain ⟨why, given⟩ := Option.ne_none_iff_exists'.mp given
  have held : Str.ofString "reason" ∈ (madePairs p f.finding f.evidenceRefs ++
      (optional "fingerprint" f.finding.fingerprint ++
        (optional "exception_id" f.finding.exceptionId ++
          optional "reason" f.finding.reason))).map Prod.fst := by
    simp [optional, given]
  exact absurd (accepted.closed rfl held) (by decide)

theorem findingDoc_valid {f : Reported} (complete : Complete f.finding)
    (silent : f.finding.reason = none) (path : Str) : validate finding (findingDoc p f) path = [] := by
  obtain ⟨violationClass, classified⟩ := complete.classified
  obtain ⟨fp, marked⟩ := complete.marked
  have shape : ∀ path, valueErrors finding.toKeywords (findingDoc p f) path = [] ∧
      typeErrors finding.toKeywords (findingDoc p f) path = [] ∧
      keyErrors finding.toKeywords (finding.properties.map Prod.fst)
        (madePairs p f.finding f.evidenceRefs ++ (optional "fingerprint" f.finding.fingerprint ++
          (optional "exception_id" f.finding.exceptionId ++
            optional "reason" f.finding.reason))) path = [] := by
    intro path
    rw [silent, marked]
    cases f.finding.exceptionId <;> exact ⟨rfl, rfl, rfl⟩
  refine validate_object shape rfl ?_ path
  rw [silent, marked]
  intro key sub stated v found path
  simp only [finding, List.mem_cons, Prod.mk.injEq, List.not_mem_nil, or_false] at stated
  rcases stated with ⟨rfl, rfl⟩ | ⟨rfl, rfl⟩ | ⟨rfl, rfl⟩ | ⟨rfl, rfl⟩ | ⟨rfl, rfl⟩ | ⟨rfl, rfl⟩ |
    ⟨rfl, rfl⟩ | ⟨rfl, rfl⟩ | ⟨rfl, rfl⟩ | ⟨rfl, rfl⟩ | ⟨rfl, rfl⟩ | ⟨rfl, rfl⟩
  · cases found
    exact validate_string _ path
  · cases found
    exact validate_string _ path
  · cases found
    rw [complete.violated]
    exact validate_name (by decide) path
  · cases found
    cases f.finding.enforcement <;> exact validate_name (by decide) path
  · cases found
    cases f.finding.severity <;> exact validate_name (by decide) path
  · cases found
    exact strs_valid _ path
  · cases found
    exact validate_string _ path
  · cases found
    exact validate_string _ path
  · cases found
    exact strs_valid _ path
  · cases found
    rw [classified]
    exact validate_string _ path
  · cases found
    exact validate_string _ path
  · cases held : f.finding.exceptionId with
    | none =>
        rw [held] at found
        cases found
    | some name =>
        rw [held] at found
        cases found
        exact validate_string _ path

theorem mem_sortFindings {findings : List Reported} {f : Reported} :
    f ∈ sortFindings findings ↔ f ∈ findings :=
  (List.perm_insertionSort _ findings).mem_iff

/-- Identities that are all known, and of their kinds. -/
structure Proper (ids : Identities) : Prop where
  subject : ∃ d, ids.subject = some d ∧ digestPattern.re.fullmatch d = true
  openspec : ∃ d, ids.openspec = some d ∧ digestPattern.re.fullmatch d = true
  policy : ∃ d, ids.policy = some d ∧ digestPattern.re.fullmatch d = true
  context : ∃ d, ids.context = some d ∧ digestPattern.re.fullmatch d = true
  evaluatorImage : ∃ d, ids.evaluatorImage = some d ∧ digestPattern.re.fullmatch d = true
  platform : ∃ v, ids.platform = some v ∧ ∀ path, validate Schemacheck.platform v path = []

/-- The result of well-formed rows and findings satisfies its schema exactly if no finding gives a
reason. -/
theorem build_valid {ledger : List Row} {findings : List Reported} {ids : Identities} {stage : Int}
    {semantics : Str} {evidence : Str} {blocked : Option Bool} {res : Value} (proper : Proper ids)
    (known : semantics ∈ [Str.ofString "fresh-promotion", "replay"])
    (numbered : ∀ e ∈ ledger, 1 ≤ e.version) (complete : ∀ f ∈ findings, Complete f.finding)
    (sealed_ : digestPattern.re.fullmatch evidence = true)
    (built : build p ledger findings ids stage (.str semantics) evidence blocked = .ok res)
    (path : Str) :
    validate result res path = [] ↔ ∀ f ∈ findings, f.finding.reason = none := by
  obtain ⟨subject, atSubject, subjectSha⟩ := proper.subject
  obtain ⟨openspec, atOpenspec, openspecSha⟩ := proper.openspec
  obtain ⟨policy, atPolicy, policySha⟩ := proper.policy
  obtain ⟨context, atContext, contextSha⟩ := proper.context
  obtain ⟨image, atImage, imageSha⟩ := proper.evaluatorImage
  obtain ⟨where_, atPlatform, platformValid⟩ := proper.platform
  simp only [build, atSubject, atOpenspec, atPolicy, atContext, atImage, atPlatform, need,
    needPlatform, ok_bind] at built
  cases built
  constructor
  · intro valid f member
    have accepted : Accepts result _ := ⟨path, valid⟩
    have listed : Accepts { type := some (.one .array), items := some finding } (.list _) :=
      @Accepts.lookup _ _ _ "findings" _ accepted rfl rfl
    exact findingDoc_silent (listed.items rfl _
      (List.mem_map_of_mem (mem_sortFindings.mpr member)))
  · intro silent
    refine validate_object (fun _ => ⟨rfl, rfl, rfl⟩) rfl ?_ path
    intro key sub stated v found path
    simp only [result, List.mem_cons, Prod.mk.injEq, List.not_mem_nil, or_false] at stated
    rcases stated with ⟨rfl, rfl⟩ | ⟨rfl, rfl⟩ | ⟨rfl, rfl⟩ | ⟨rfl, rfl⟩ | ⟨rfl, rfl⟩ | ⟨rfl, rfl⟩ |
      ⟨rfl, rfl⟩ | ⟨rfl, rfl⟩ | ⟨rfl, rfl⟩ | ⟨rfl, rfl⟩ | ⟨rfl, rfl⟩ | ⟨rfl, rfl⟩ | ⟨rfl, rfl⟩ |
      ⟨rfl, rfl⟩
    · cases found
      rfl
    · cases found
      cases (decide ledger stage none blocked).1 <;> exact validate_name (by decide) path
    · cases found
      exact validate_name known path
    · cases found
      exact validate_matching subjectSha path
    · cases found
      exact validate_matching openspecSha path
    · cases found
      exact validate_matching policySha path
    · cases found
      exact validate_matching contextSha path
    · cases found
      refine @validate_digestOrNull (some image) ?_ path
      rintro d ⟨⟩
      exact imageSha
    · cases found
      exact platformValid path
    · cases found
      exact summary_valid ledger path
    · cases found
      refine validate_items (fun v member path => ?_) path
      obtain ⟨e, inside, rfl⟩ := List.mem_map.mp member
      exact rowDoc_valid (numbered e inside) path
    · cases found
      refine validate_items (fun v member path => ?_) path
      obtain ⟨f, inside, rfl⟩ := List.mem_map.mp member
      have held := mem_sortFindings.mp inside
      exact findingDoc_valid (complete f held) (silent f held) path
    · cases found
      exact validate_matching sealed_ path
    · cases found
      rfl

end Result

end DevGate
