import DevGate.Coherence.AttestSeal
import DevGate.Coherence.CapturedFacts
import DevGate.Coherence.Run

set_option autoImplicit false

/- When a run resolves the request that the builder made of the same inputs. -/
namespace DevGate

open Py

/-- What stands after a dictionary without the key. -/
theorem get?_append_of_none {d e : Dict Str Value} {key : Str} (absent : Dict.get? d key = none) :
    Dict.get? (d ++ e) key = Dict.get? e key := by
  induction d with
  | nil => rfl
  | cons kv rest ih =>
      obtain ⟨k, v⟩ := kv
      rw [Dict.get?_cons] at absent
      rw [List.cons_append, Dict.get?_cons]
      split at absent
      · cases absent
      · rename_i apart
        rw [if_neg apart, ih absent]

theorem Manifest.build_digest {tree : Tree} {fold : Folding} {root : Str} {kind manifest : Value}
    {excludes : List Str} (built : build tree fold root kind excludes = .ok manifest) :
    ∃ payload, manifest.item "subject_digest" =
      .ok (.str (Canon.digest .subjectManifest payload)) := by
  unfold build at built
  obtain ⟨rootP, -, built⟩ := bind_ok.mp built
  split at built
  · obtain ⟨entries, -, built⟩ := bind_ok.mp built
    obtain ⟨digest, digested, built⟩ := bind_ok.mp built
    obtain ⟨payload, -, same⟩ := bind_ok.mp digested
    cases built
    cases same
    exact ⟨payload, rfl⟩
  · cases built

/-- The package keeps no other members of its manifest. -/
theorem Package.get?_optional {manifest : Value} {key : Str}
    (other : key ∉ [("product" : Str), "normative_requirements", "release_manifest"]) :
    Dict.get? (optional manifest) key = none := by
  unfold optional
  generalize [("product" : Str), "normative_requirements", "release_manifest"] = keys at other
  induction keys with
  | nil => rfl
  | cons name rest ih =>
      rw [List.mem_cons, not_or] at other
      rw [List.filterMap_cons]
      cases manifest.field? name with
      | none => exact ih other.2
      | some v =>
          dsimp only [Option.map_some]
          rw [Dict.get?_cons, if_neg (Ne.symm other.1), ih other.2]

theorem Package.resolve_digest {disk : Disk} {root : Str} {package : Dict Str Value}
    (resolved : resolve disk root = .ok package) :
    ∃ payload, (Value.dict package).item "package_digest" =
      .ok (.str (Canon.digest .package payload)) := by
  unfold resolve at resolved
  obtain ⟨rootP, -, ran⟩ := bind_ok.mp resolved
  dsimp only at ran
  split at ran
  · obtain ⟨manifest, -, ran⟩ := bind_ok.mp ran
    obtain ⟨version, -, ran⟩ := bind_ok.mp ran
    split at ran
    · obtain ⟨inventory, -, ran⟩ := bind_ok.mp ran
      split at ran
      · obtain ⟨entries, -, ran⟩ := bind_ok.mp ran
        obtain ⟨files, -, ran⟩ := bind_ok.mp ran
        obtain ⟨imports, -, ran⟩ := bind_ok.mp ran
        obtain ⟨_, -, ran⟩ := bind_ok.mp ran
        obtain ⟨_, -, ran⟩ := bind_ok.mp ran
        obtain ⟨normativeBytes, -, ran⟩ := bind_ok.mp ran
        obtain ⟨found, made, ran⟩ := bind_ok.mp ran
        obtain ⟨payload, -, ran⟩ := bind_ok.mp ran
        cases ran
        refine ⟨payload ++ normativeBytes, Value.item_ok.mpr ⟨_, rfl, ?_⟩⟩
        unfold Package.resolved at made
        obtain ⟨_, -, made⟩ := bind_ok.mp made
        obtain ⟨_, -, made⟩ := bind_ok.mp made
        obtain ⟨_, -, made⟩ := bind_ok.mp made
        cases made
        rw [get?_append_of_none]
        · rfl
        · rw [get?_append_of_none]
          · exact get?_optional (by decide)
          · rfl
      · cases ran
    · cases ran
  · cases ran

/-- A text that starts with no blank is not stripped to nothing. -/
theorem strip_cons {c : Chr} (solid : Re.isSpace c = false) (rest : Str) :
    Str.strip (c :: rest) ≠ [] := by
  have kept : (c :: rest).dropWhile Re.isSpace = c :: rest := by
    rw [List.dropWhile_cons, if_neg (by simp [solid])]
  unfold Str.strip
  rw [kept, ne_eq, List.reverse_eq_nil_iff, List.dropWhile_eq_nil_iff]
  intro blank
  have absurd_ := blank c (List.mem_reverse.mpr List.mem_cons_self)
  rw [solid] at absurd_
  cases absurd_

theorem strip_digest (tag : Canon.RoleTag) (payload : Bytes) :
    Str.strip (Canon.digest tag payload) ≠ [] :=
  strip_cons (c := Chr.ofChar 's') (by decide) _

theorem Context.load_ok {env : Issue.Env} {disk : Disk} {root : Str} {ctx : Dict Str Value}
    (loaded : load env disk root = .ok ctx) :
    ∃ base doc, disk.resolve (Path.ofStr root) = .ok base ∧ checkContext env doc = .ok ctx := by
  unfold load at loaded
  obtain ⟨base, resolved, loaded⟩ := bind_ok.mp loaded
  dsimp only at loaded
  split at loaded
  · obtain ⟨doc, -, checked⟩ := bind_ok.mp loaded
    exact ⟨base, doc, resolved, checked⟩
  · cases loaded

namespace Invoke

/-- The digest that the context binds for the central policy. -/
def boundDigest (ctx : Dict Str Value) : Option Str :=
  ((Dict.get? ctx "policy_binding").bind (fun binding => binding.field? "expected_digest")).bind
    Value.str?

/-- The four digests of a request. -/
structure Digests where
  subject : Str
  openspec : Str
  policy : Str
  context : Str

def request (args : Arguments) (d : Digests) : Dict Str Value :=
  requestOf args (.str d.subject) (.str d.openspec) (.str d.policy) (.str d.context)

/-- What the digests of a request are digests of. -/
structure Resolves (site : Site) (args : Arguments) (ctx : Dict Str Value) (d : Digests)
    (manifest : Value) (package : Dict Str Value) : Prop where
  measured : Invoke.subject site args.subjectRoot sourceTree = .ok manifest
  subject : manifest.item "subject_digest" = .ok (.str d.subject)
  packaged : Package.resolve site.disk args.openspecRoot = .ok package
  openspec : (Value.dict package).item "package_digest" = .ok (.str d.openspec)
  context : (Value.dict ctx).item "context_digest" = .ok (.str d.context)
  policy : boundDigest ctx = some d.policy
  solid : Str.strip d.subject ≠ [] ∧ Str.strip d.openspec ≠ [] ∧ Str.strip d.context ≠ []
  frozen : ∀ digest ∈ [d.subject, d.openspec, d.policy, d.context],
    Schemacheck.digestPattern.re.fullmatch digest = true

/-- The binding of a loaded context names a digest of the frozen form. -/
theorem bound_frozen {env : Issue.Env} {doc : Value} {ctx : Dict Str Value}
    (checked : Context.checkContext env doc = .ok ctx) :
    ∃ binding expected, Dict.get? ctx "policy_binding" = some (.dict binding) ∧
      Dict.get? binding "expected_digest" = some (.str expected) ∧
      Schemacheck.digestPattern.re.fullmatch expected = true := by
  obtain ⟨kvs, digest, rfl, accepted, -, -, rfl⟩ := Context.checkContext_ok checked
  obtain ⟨v, found, inner⟩ := accepted.field "policy_binding" (by decide) rfl
  obtain ⟨binding, rfl⟩ := inner.isObject rfl
  obtain ⟨w, held, innermost⟩ := inner.field "expected_digest" (by decide) rfl
  obtain ⟨expected, rfl⟩ := Schemacheck.isType_string (innermost.type rfl)
  rw [Dict.get?_set_of_ne _ _ _ _ (by decide)]
  exact ⟨binding, expected, found, held, innermost.pattern rfl⟩

/-- What the builder answers, and the digests it took. -/
theorem buildRequest_ok {site : Site} {args : Arguments} {req ctx : Dict Str Value}
    (built : buildRequest site args = .ok req)
    (loaded : Context.load site.env site.disk args.contextRoot = .ok ctx) :
    ∃ d manifest package, Resolves site args ctx d manifest package ∧ req = request args d := by
  unfold buildRequest at built
  obtain ⟨manifest, measured, built⟩ := bind_ok.mp built
  obtain ⟨subjectDigest, subject, built⟩ := bind_ok.mp built
  obtain ⟨package, resolved, built⟩ := bind_ok.mp built
  obtain ⟨openspecDigest, openspec, built⟩ := bind_ok.mp built
  obtain ⟨ctx', loaded', built⟩ := bind_ok.mp built
  rw [loaded] at loaded'
  cases loaded'
  obtain ⟨contextDigest, context, built⟩ := bind_ok.mp built
  obtain ⟨binding, bound, built⟩ := bind_ok.mp built
  obtain ⟨policyDigest, policy, built⟩ := bind_ok.mp built
  cases built
  obtain ⟨subjectPayload, subject'⟩ := Manifest.build_digest measured
  rw [subject] at subject'
  cases subject'
  obtain ⟨packagePayload, openspec'⟩ := Package.resolve_digest resolved
  rw [openspec] at openspec'
  cases openspec'
  obtain ⟨base, doc, -, checked⟩ := Context.load_ok loaded
  obtain ⟨kvs, expected, there, held, frozen⟩ := bound_frozen checked
  obtain ⟨_, _, rfl, -, -, digested, rfl⟩ := Context.checkContext_ok checked
  obtain ⟨contextPayload, -, same⟩ := bind_ok.mp digested
  cases same
  obtain ⟨_, same, context⟩ := Value.item_ok.mp context
  cases same
  rw [Dict.get?_set_self] at context
  cases context
  obtain ⟨_, same, bound⟩ := Value.item_ok.mp bound
  cases same
  rw [there] at bound
  cases bound
  obtain ⟨_, same, policy⟩ := Value.item_ok.mp policy
  cases same
  rw [held] at policy
  cases policy
  refine ⟨⟨_, _, expected, _⟩, manifest, package, ⟨measured, subject, resolved, openspec, ?_, ?_, ?_, ?_⟩,
    rfl⟩
  · exact Value.item_ok.mpr ⟨_, rfl, Dict.get?_set_self _ _ _⟩
  · unfold boundDigest
    rw [there, Option.bind_some, Value.field?_dict, held]
    rfl
  · exact ⟨strip_digest _ _, strip_digest _ _, strip_digest _ _⟩
  · simp only [List.forall_mem_cons]
    exact ⟨Schemacheck.matches_digest _ _, Schemacheck.matches_digest _ _, frozen,
      Schemacheck.matches_digest _ _, by simp⟩

theorem validate_text (text path : Str) :
    Schemacheck.validate Schemacheck.string (.str text) path = [] := rfl

theorem validate_reference {root digest : Str}
    (frozen : Schemacheck.digestPattern.re.fullmatch digest = true) (path : Str) :
    Schemacheck.validate Schemacheck.inputRef (.dict (reference root (.str digest))) path = [] := by
  refine Schemacheck.validate_object (fun _ => ⟨rfl, rfl, rfl⟩) rfl ?_ path
  intro key sub stated v found path
  simp only [Schemacheck.inputRef, List.mem_cons, Prod.mk.injEq, List.not_mem_nil, or_false]
    at stated
  rcases stated with ⟨rfl, rfl⟩ | ⟨rfl, rfl⟩ | ⟨rfl, rfl⟩
  · cases found
  · cases found
    exact validate_text root path
  · cases found
    exact Schemacheck.validate_matching frozen path

theorem validate_subject {root digest : Str}
    (frozen : Schemacheck.digestPattern.re.fullmatch digest = true) (path : Str) :
    Schemacheck.validate Schemacheck.inputRef
      (.dict (("kind", sourceTree) :: reference root (.str digest))) path = [] := by
  refine Schemacheck.validate_object (fun _ => ⟨rfl, rfl, rfl⟩) rfl ?_ path
  intro key sub stated v found path
  simp only [Schemacheck.inputRef, List.mem_cons, Prod.mk.injEq, List.not_mem_nil, or_false]
    at stated
  rcases stated with ⟨rfl, rfl⟩ | ⟨rfl, rfl⟩ | ⟨rfl, rfl⟩
  · cases found
    rfl
  · cases found
    exact validate_text root path
  · cases found
    exact Schemacheck.validate_matching frozen path

def semanticsNames : List Str := ["fresh-promotion", "replay"]

/-- A member of the request, whether it names itself or not. -/
theorem get?_request {args : Arguments} {d : Digests} {key : Str} (other : key ≠ "request_id") :
    Dict.get? (request args d) key = Dict.get? (request { args with requestId := none } d) key := by
  obtain ⟨_, _, _, _, _, _, requestId⟩ := args
  cases requestId with
  | none => rfl
  | some name =>
      cases name with
      | nil => rfl
      | cons c rest => exact Dict.get?_set_of_ne _ _ _ _ (Ne.symm other)

/-- The request is accepted exactly with semantics that the contract knows. -/
theorem validate_request {site : Site} {args : Arguments} {ctx : Dict Str Value} {d : Digests}
    {manifest : Value} {package : Dict Str Value}
    (resolves : Resolves site args ctx d manifest package) :
    Schemacheck.validate Schemacheck.request (.dict (request args d)) "$" = [] ↔
      args.semantics ∈ semanticsNames := by
  have frozen := resolves.frozen
  simp only [List.forall_mem_cons] at frozen
  obtain ⟨first, second, third, fourth, -⟩ := frozen
  constructor
  · intro accepted
    have found : Dict.get? (request args d) "semantics" = some (.str args.semantics) := by
      rw [get?_request (by decide)]
      rfl
    have inner := Schemacheck.Accepts.lookup (s := Schemacheck.request) ⟨"$", accepted⟩ found rfl
    have listed : Schemacheck.isIn (.str args.semantics) (semanticsNames.map Value.str) = true :=
      inner.enum rfl
    obtain ⟨w, inside, same⟩ := List.any_eq_true.mp listed
    obtain ⟨name, member, rfl⟩ := List.mem_map.mp inside
    rw [Value.same_str, Value.str.injEq] at same
    rw [same]
    exact member
  · intro known
    have shape : ∀ path, Schemacheck.valueErrors Schemacheck.request.toKeywords
          (.dict (request args d)) path = [] ∧
        Schemacheck.typeErrors Schemacheck.request.toKeywords (.dict (request args d)) path = [] ∧
        Schemacheck.keyErrors Schemacheck.request.toKeywords
          (Schemacheck.request.properties.map Prod.fst) (request args d) path = [] := by
      obtain ⟨_, _, _, _, _, _, requestId⟩ := args
      cases requestId with
      | none => exact fun _ => ⟨rfl, rfl, rfl⟩
      | some name =>
          cases name with
          | nil => exact fun _ => ⟨rfl, rfl, rfl⟩
          | cons c rest => exact fun _ => ⟨rfl, rfl, rfl⟩
    refine Schemacheck.validate_object shape rfl ?_ _
    intro key sub stated v found path
    simp only [Schemacheck.request, List.mem_cons, Prod.mk.injEq, List.not_mem_nil, or_false]
      at stated
    rcases stated with ⟨rfl, rfl⟩ | ⟨rfl, rfl⟩ | ⟨rfl, rfl⟩ | ⟨rfl, rfl⟩ | ⟨rfl, rfl⟩ |
      ⟨rfl, rfl⟩ | ⟨rfl, rfl⟩ | ⟨rfl, rfl⟩ | ⟨rfl, rfl⟩
    · rw [get?_request (by decide)] at found
      cases found
      rfl
    · obtain ⟨_, _, _, _, _, _, requestId⟩ := args
      cases requestId with
      | none => cases found
      | some name =>
          cases name with
          | nil => cases found
          | cons c rest =>
              cases found
              exact validate_text _ _
    · rw [get?_request (by decide)] at found
      cases found
      exact validate_subject first path
    · rw [get?_request (by decide)] at found
      cases found
      exact validate_reference second path
    · rw [get?_request (by decide)] at found
      cases found
      exact validate_reference third path
    · rw [get?_request (by decide)] at found
      cases found
      exact validate_reference fourth path
    · rw [get?_request (by decide)] at found
      cases found
    · rw [get?_request (by decide)] at found
      cases found
      simp only [semanticsNames, List.mem_cons, List.not_mem_nil, or_false] at known
      rcases known with fresh | replay
      · rw [show ({ args with requestId := none } : Arguments).semantics = args.semantics from rfl,
          fresh]
        rfl
      · rw [show ({ args with requestId := none } : Arguments).semantics = args.semantics from rfl,
          replay]
        rfl
    · rw [get?_request (by decide)] at found
      cases found
      exact validate_text _ _

end Invoke

namespace Run

open Invoke

theorem expected_ok {req refs : Dict Str Value} {key digest : Str}
    (held : Dict.get? req key = some (.dict refs))
    (claimed : Dict.get? refs "expected_digest" = some (.str digest))
    (solid : Str.strip digest ≠ []) : expected req key digest = .ok () := by
  have input : ref req key = .ok (.dict refs) := Value.item_ok.mpr ⟨req, rfl, held⟩
  unfold expected checkExpected
  rw [input, ok_bind, Value.get_dict, ok_bind, claimed]
  have filled : (Value.str digest).str?.any (fun s => Str.strip s ≠ []) = true := by
    simpa [Value.str?] using solid
  unfold ensure
  rw [Option.getD_some, if_pos filled, if_pos rfl]
  rfl

section

variable {site : Site} {args : Arguments} {ctx : Dict Str Value} {d : Digests} {manifest : Value}
  {package : Dict Str Value}

/-- The request stands with semantics of the contract and no NUL in its outputs. -/
theorem accept_answers (resolves : Resolves site args ctx d manifest package) (parent : Str) :
    (∃ outDir, accept parent (.dict (request args d)) = .ok (request args d, outDir)) ↔
      args.semantics ∈ semanticsNames ∧ Fin.ofNat 0x110000 0 ∉ args.outputs := by
  have version : Dict.get? (request args d) "api_version" = some (.str Schemacheck.requestVersion) := by
    rw [get?_request (by decide)]
    rfl
  have outputs : Dict.get? (request args d) "outputs" = some (.str args.outputs) := by
    rw [get?_request (by decide)]
    rfl
  have current : Value.eq (.str Schemacheck.requestVersion) (.str Schemacheck.requestVersion) =
      true := (Value.eq_str _ _).mpr rfl
  have checked : ∀ outDir, checkRequest (.dict (request args d)) = .ok (request args d, outDir) ↔
      args.semantics ∈ semanticsNames ∧ Fin.ofNat 0x110000 0 ∉ args.outputs ∧
        Str.strip args.outputs = outDir := by
    intro outDir
    unfold checkRequest
    dsimp only
    rw [Value.field?_dict, outputs]
    constructor
    · intro ran
      obtain ⟨_, valid, ran⟩ := bind_ok.mp ran
      obtain ⟨_, clear, ran⟩ := bind_ok.mp ran
      cases ran
      exact ⟨(validate_request resolves).mp (ensure_ok.mp valid), ensure_ok.mp clear, rfl⟩
    · rintro ⟨known, clear, rfl⟩
      refine bind_ok.mpr ⟨(), ensure_ok.mpr ((validate_request resolves).mpr known), ?_⟩
      exact bind_ok.mpr ⟨(), ensure_ok.mpr clear, rfl⟩
  unfold accept
  dsimp only
  rw [version, Option.getD_some, if_pos current]
  constructor
  · rintro ⟨outDir, ran⟩
    obtain ⟨⟨kvs, found⟩, guarded, ran⟩ := bind_ok.mp ran
    cases ran
    obtain ⟨known, clear, -⟩ := (checked found).mp (guarded_ok.mp guarded)
    exact ⟨known, clear⟩
  · rintro ⟨known, clear⟩
    refine ⟨if Str.strip args.outputs = [] then parent else Str.strip args.outputs, ?_⟩
    rw [guarded_ok.mpr ((checked _).mpr ⟨known, clear, rfl⟩), ok_bind]
    rfl

/-- The request is kept as it stands. -/
theorem accept_same {parent outDir : Str} {req kvs : Dict Str Value}
    (accepted : accept parent (.dict req) = .ok (kvs, outDir)) : kvs = req := by
  unfold accept at accepted
  dsimp only at accepted
  split at accepted
  · obtain ⟨⟨kvs', found⟩, guarded, same⟩ := bind_ok.mp accepted
    cases same
    have checked := guarded_ok.mp guarded
    unfold checkRequest at checked
    obtain ⟨_, -, checked⟩ := bind_ok.mp checked
    obtain ⟨_, -, checked⟩ := bind_ok.mp checked
    cases checked
    rfl
  · cases accepted

theorem readSubject_ok (resolves : Resolves site args ctx d manifest package) :
    readSubject site (request args d) = .ok (manifest, d.subject) := by
  have held : ref (request args d) "subject" =
      .ok (.dict (("kind", sourceTree) :: reference args.subjectRoot (.str d.subject))) := by
    refine Value.item_ok.mpr ⟨_, rfl, ?_⟩
    rw [get?_request (by decide)]
    rfl
  unfold readSubject
  rw [held, ok_bind, Value.get_dict, ok_bind]
  show (Invoke.subject site args.subjectRoot sourceTree >>= _) = _
  rw [resolves.measured, ok_bind, resolves.subject]
  rfl

theorem resolveSubject_ok (resolves : Resolves site args ctx d manifest package) (outDir : Str)
    (ids : Result.Identities) : resolveSubject site outDir (request args d) ids =
      .ok (manifest, { ids with subject := some d.subject }) := by
  have held : Dict.get? (request args d) "subject" =
      some (.dict (("kind", sourceTree) :: reference args.subjectRoot (.str d.subject))) := by
    rw [get?_request (by decide)]
    rfl
  unfold resolveSubject
  dsimp only
  rw [guarded_ok.mpr (readSubject_ok resolves), ok_bind]
  dsimp only
  rw [guarded_ok.mpr (expected_ok held rfl resolves.solid.1), ok_bind]
  rfl

theorem readPackage_ok (resolves : Resolves site args ctx d manifest package) :
    readPackage site (request args d) = .ok (package, d.openspec) := by
  have held : ref (request args d) "openspec" =
      .ok (.dict (reference args.openspecRoot (.str d.openspec))) := by
    refine Value.item_ok.mpr ⟨_, rfl, ?_⟩
    rw [get?_request (by decide)]
    rfl
  unfold readPackage
  rw [held, ok_bind]
  show (Package.resolve site.disk args.openspecRoot >>= _) = _
  rw [resolves.packaged, ok_bind, resolves.openspec]
  rfl

theorem resolvePackage_ok (resolves : Resolves site args ctx d manifest package) (outDir : Str)
    (ids : Result.Identities) : resolvePackage site outDir (request args d) ids =
      .ok (package, { ids with openspec := some d.openspec }) := by
  have held : Dict.get? (request args d) "openspec" =
      some (.dict (reference args.openspecRoot (.str d.openspec))) := by
    rw [get?_request (by decide)]
    rfl
  unfold resolvePackage
  dsimp only
  rw [guarded_ok.mpr (readPackage_ok resolves), ok_bind]
  dsimp only
  rw [guarded_ok.mpr (expected_ok held rfl resolves.solid.2.1), ok_bind]
  rfl

theorem readContext_ok (resolves : Resolves site args ctx d manifest package)
    (loaded : Context.load site.env site.disk args.contextRoot = .ok ctx) :
    readContext site (request args d) = .ok (args.contextRoot, ctx, d.context) := by
  have held : ref (request args d) "context" =
      .ok (.dict (reference args.contextRoot (.str d.context))) := by
    refine Value.item_ok.mpr ⟨_, rfl, ?_⟩
    rw [get?_request (by decide)]
    rfl
  unfold readContext
  rw [held, ok_bind]
  show (Context.load site.env site.disk args.contextRoot >>= _) = _
  rw [loaded, ok_bind, resolves.context]
  rfl

/-- The context stage answers where the captured facts are held. -/
theorem resolveContext_answers (resolves : Resolves site args ctx d manifest package)
    (loaded : Context.load site.env site.disk args.contextRoot = .ok ctx) (outDir : Str)
    (ids : Result.Identities) :
    (∃ facts ids', resolveContext site outDir (request args d) ids = .ok (ctx, facts, ids')) ↔
      ∀ rec ∈ Context.factsOf ctx,
        Context.FactHeld site.disk (site.disk.locate (Path.ofStr args.contextRoot)) rec := by
  have held : Dict.get? (request args d) "context" =
      some (.dict (reference args.contextRoot (.str d.context))) := by
    rw [get?_request (by decide)]
    rfl
  obtain ⟨base, doc, resolved, checked⟩ := Context.load_ok loaded
  have located : site.disk.locate (Path.ofStr args.contextRoot) = base := by
    unfold Disk.locate
    rw [resolved]
    rfl
  have facts : readFacts site (request args d) args.contextRoot d.context ctx =
      Context.loadCapturedFacts site.disk args.contextRoot ctx := by
    unfold readFacts
    rw [expected_ok held rfl resolves.solid.2.2, ok_bind]
  rw [located, ← Context.loadCapturedFacts_answers checked resolved]
  unfold resolveContext
  dsimp only
  rw [guarded_ok.mpr (readContext_ok resolves loaded), ok_bind]
  dsimp only
  rw [facts]
  constructor
  · rintro ⟨found, ids', ran⟩
    obtain ⟨facts', read, -⟩ := bind_ok.mp ran
    exact ⟨facts', guarded_ok.mp read⟩
  · rintro ⟨found, read⟩
    refine ⟨found, { ids with context := some d.context }, ?_⟩
    rw [guarded_ok.mpr read, ok_bind]
    rfl

/-- The context stage answers the context that the builder loaded. -/
theorem resolveContext_same (resolves : Resolves site args ctx d manifest package)
    (loaded : Context.load site.env site.disk args.contextRoot = .ok ctx) {outDir : Str}
    {ids ids' : Result.Identities} {ctx' facts : Dict Str Value}
    (ran : resolveContext site outDir (request args d) ids = .ok (ctx', facts, ids')) :
    ctx' = ctx := by
  unfold resolveContext at ran
  dsimp only at ran
  rw [guarded_ok.mpr (readContext_ok resolves loaded), ok_bind] at ran
  obtain ⟨_, -, ran⟩ := bind_ok.mp ran
  cases ran
  rfl

/-- What the bundle needs beyond its authority, and that it is the bound one itself. -/
structure Current (ctx bundle : Dict Str Value) (digest : Str) : Prop where
  version : Dict.get? bundle "api_version" = some (.str Policy.bundleVersion)
  escalation : ∃ esc, Policy.checkAdvisoryEscalation (.dict bundle) = .ok esc
  bound : boundDigest ctx = some digest

/-- The policy stage answers where the authorized bundle is the one the context binds. -/
theorem resolvePolicy_answers (resolves : Resolves site args ctx d manifest package)
    (loaded : Context.load site.env site.disk args.contextRoot = .ok ctx)
    {bundle : Dict Str Value} {digest : Str}
    (read : Policy.readBundle site.disk args.policyRoot = .ok (.dict bundle))
    (digested : Canon.digestObj .policy (.dict bundle) = .ok digest)
    (authorized : Policy.checkAntiRollback digest bundle
      ((Dict.get? ctx "policy_binding").getD .null)
      ((Dict.get? ctx "evaluation_time").getD .null) = .ok ())
    (outDir : Str) (ids : Result.Identities) :
    (∃ pol ids', resolvePolicy site outDir (request args d) ctx ids = .ok (pol, ids')) ↔
      Current ctx bundle digest := by
  have held : ref (request args d) "policy" =
      .ok (.dict (reference args.policyRoot (.str d.policy))) := by
    refine Value.item_ok.mpr ⟨_, rfl, ?_⟩
    rw [get?_request (by decide)]
    rfl
  obtain ⟨base, doc, -, checked⟩ := Context.load_ok loaded
  obtain ⟨time, timed⟩ : ∃ time, Dict.get? ctx "evaluation_time" = some time := by
    obtain ⟨kvs, _, rfl, accepted, -, -, rfl⟩ := Context.checkContext_ok checked
    rw [Dict.get?_set_of_ne _ _ _ _ (by decide)]
    exact accepted.required (by decide)
  rw [timed, Option.getD_some] at authorized
  have clock : (Value.dict ctx).item "evaluation_time" = .ok time :=
    Value.item_ok.mpr ⟨ctx, rfl, timed⟩
  have reads : readPolicy site (request args d) ctx = (do
      let pol ← Policy.authorize (.dict bundle) d.policy
        ((Dict.get? ctx "policy_binding").getD .null) time
      return (pol, ← pathArg (← (Value.dict pol).item "policy_digest"))) := by
    unfold readPolicy
    rw [held, ok_bind]
    show (do
      let pol ← Policy.resolve site.disk args.policyRoot d.policy
        ((Dict.get? ctx "policy_binding").getD .null) (← (Value.dict ctx).item "evaluation_time")
      return (pol, ← pathArg (← (Value.dict pol).item "policy_digest"))) = _
    rw [clock, ok_bind]
    unfold Policy.resolve
    rw [read, ok_bind]
  have same : d.policy = digest ↔ boundDigest ctx = some digest := by
    rw [resolves.policy, Option.some.injEq]
  unfold resolvePolicy
  dsimp only
  constructor
  · rintro ⟨pol, ids', ran⟩
    obtain ⟨⟨_, actual⟩, guarded, -⟩ := bind_ok.mp ran
    have answered := guarded_ok.mp guarded
    rw [reads] at answered
    obtain ⟨_, allowed, -⟩ := bind_ok.mp answered
    obtain ⟨version, pinned, -, escalation, -⟩ := (Policy.authorize_ok digested).mp allowed
    exact ⟨version, escalation, same.mp pinned.symm⟩
  · rintro ⟨version, escalation, bound⟩
    have allowed := (Policy.authorize_ok digested).mpr
      ⟨version, (same.mpr bound).symm, authorized, escalation, rfl⟩
    have named : (Value.dict (Dict.set bundle "policy_digest" (.str digest))).item
        "policy_digest" = .ok (.str digest) :=
      Value.item_ok.mpr ⟨_, rfl, Dict.get?_set_self _ _ _⟩
    refine ⟨Dict.set bundle "policy_digest" (.str digest), { ids with policy := some digest }, ?_⟩
    have answered : readPolicy site (request args d) ctx =
        .ok (Dict.set bundle "policy_digest" (.str digest), digest) := by
      rw [reads, allowed, ok_bind, named]
      rfl
    rw [guarded_ok.mpr answered, ok_bind]
    rfl

end

/-- A request that the builder made of its inputs, and a policy bundle that the context's binding
authorizes. -/
structure Offered (site : Site) (args : Arguments) (req ctx bundle : Dict Str Value)
    (digest : Str) : Prop where
  built : buildRequest site args = .ok req
  context : Context.load site.env site.disk args.contextRoot = .ok ctx
  read : Policy.readBundle site.disk args.policyRoot = .ok (.dict bundle)
  digested : Canon.digestObj .policy (.dict bundle) = .ok digest
  authorized : Policy.checkAntiRollback digest bundle
    ((Dict.get? ctx "policy_binding").getD .null)
    ((Dict.get? ctx "evaluation_time").getD .null) = .ok ()

/-- The run of the request resolves subject, package, context and policy. -/
def Resolved (site : Site) (parent : Str) (req : Dict Str Value) : Prop :=
  ∃ inputs, front site parent (.dict req) = .ok inputs

/-- The bundle is the bound one, of its version and with its escalation; the captured facts stand
where they belong; the arguments are of the contract. -/
structure Ready (site : Site) (args : Arguments) (ctx bundle : Dict Str Value) (digest : Str) :
    Prop where
  current : Current ctx bundle digest
  facts : ∀ rec ∈ Context.factsOf ctx,
    Context.FactHeld site.disk (site.disk.locate (Path.ofStr args.contextRoot)) rec
  semantics : args.semantics ∈ semanticsNames
  outputs : Fin.ofNat 0x110000 0 ∉ args.outputs

/-- The builder pins the digest the context binds, so a run of its request resolves the bound
bundle and never a grandfathered one. -/
theorem resolved_iff {site : Site} {args : Arguments} {req ctx bundle : Dict Str Value}
    {digest : Str} (offered : Offered site args req ctx bundle digest) (parent : Str) :
    Resolved site parent req ↔ Ready site args ctx bundle digest := by
  obtain ⟨d, manifest, package, resolves, rfl⟩ := buildRequest_ok offered.built offered.context
  have accepts := accept_answers resolves parent
  have facts := resolveContext_answers resolves offered.context
  have policy := resolvePolicy_answers resolves offered.context offered.read offered.digested
    offered.authorized
  unfold Resolved front
  constructor
  · rintro ⟨inputs, ran⟩
    obtain ⟨⟨kvs, outDir⟩, accepted, ran⟩ := bind_ok.mp ran
    obtain rfl := accept_same accepted
    obtain ⟨semantics, outputs⟩ := accepts.mp ⟨outDir, accepted⟩
    unfold resolveInputs at ran
    dsimp only at ran
    rw [resolveSubject_ok resolves, ok_bind] at ran
    dsimp only at ran
    rw [resolvePackage_ok resolves, ok_bind] at ran
    dsimp only at ran
    obtain ⟨⟨ctx', found, ids⟩, contextual, ran⟩ := bind_ok.mp ran
    obtain rfl := resolveContext_same resolves offered.context contextual
    obtain ⟨⟨pol, identities⟩, political, -⟩ := bind_ok.mp ran
    exact ⟨(policy outDir ids).mp ⟨pol, identities, political⟩,
      (facts outDir _).mp ⟨found, ids, contextual⟩, semantics, outputs⟩
  · rintro ⟨current, held, semantics, outputs⟩
    obtain ⟨outDir, accepted⟩ := accepts.mpr ⟨semantics, outputs⟩
    obtain ⟨found, ids, contextual⟩ := (facts outDir _).mpr held
    obtain ⟨pol, identities, political⟩ := (policy outDir ids).mpr current
    refine ⟨⟨manifest, package, ctx, found, pol, identities⟩, ?_⟩
    rw [accepted, ok_bind]
    unfold resolveInputs
    dsimp only
    rw [resolveSubject_ok resolves, ok_bind]
    dsimp only
    rw [resolvePackage_ok resolves, ok_bind]
    dsimp only
    rw [contextual, ok_bind]
    dsimp only
    rw [political, ok_bind]
    rfl

/-- A bundle of one epoch. -/
def epochBundle (epoch : Int) : Dict Str Value :=
  [("api_version", .str Policy.bundleVersion), ("bundle_epoch", .int epoch)]

def bundleDigest (epoch : Int) : Str :=
  Canon.digest .policy (Utf8.ascii (Json.dumps (.dict (epochBundle epoch))))

def windowIssuance : Dict Str Value :=
  [("issued_at", .str "20260701T00Z"), ("issuer", .str "c")]

def firstWindow : Dict Str Value :=
  [("bundle_digest", .str (bundleDigest 1)), ("reason", .str "m"), ("valid_until", .str "20270101T00Z")]

def windowBinding : Dict Str Value :=
  [("expected_digest", .str (bundleDigest 2)), ("grandfathers", .list [.dict firstWindow]),
    ("min_bundle_epoch", .int 2)]

/-- The second bundle is bound, and the first one has a window until the next year. -/
def windowContext : Dict Str Value :=
  [("api_version", .str Schemacheck.contextVersion), ("context_id", .str "c"),
    ("evaluation_time", .str "20260701T00Z"), ("execution_profile", .str "x"),
    ("issuance", .dict windowIssuance), ("policy_binding", .dict windowBinding), ("stage", .int 2)]

def pilotEntry : Dict Str Value :=
  [("digest", .str (Canon.digest .file [])), ("kind", .str "normative"), ("path", .str "s")]

def pilotPackage : Dict Str Value :=
  [("normative_inventory", .list [.dict pilotEntry]), ("package_id", .str "p"),
    ("package_version", .str "1"), ("schema_version", .str Package.apiVersion)]

/-- Four directories; the policy directory holds the bundle of an epoch. -/
def pilotFile (epoch : Int) (p : Path) : Bytes :=
  if p = ⟨true, ["context", "context.json"]⟩ then Utf8.ascii (Json.dumps (.dict windowContext))
  else if p = ⟨true, ["openspec", "package.json"]⟩ then Utf8.ascii (Json.dumps (.dict pilotPackage))
  else if p = ⟨true, ["policy", "policy.json"]⟩ then
    Utf8.ascii (Json.dumps (.dict (epochBundle epoch)))
  else []

def pilotSite (epoch : Int) : Site where
  tree := {
    resolve := fun p => .ok p
    exists_ := fun _ => true
    isFile := fun _ => false
    isDir := fun _ => true
    read := fun p => .ok (pilotFile epoch p)
    isSymlink := fun _ => false
    lossy := fun _ => .error ⟨.osError, []⟩
    walked := fun _ => .dir [] }
  fold := ⟨id, id⟩
  env := ⟨none, none⟩

def pilotArguments : Arguments :=
  ⟨"/subject", "/openspec", "/policy", "/context", "/out", "fresh-promotion", none⟩

def windowLoaded : Dict Str Value :=
  Dict.set windowContext "context_digest"
    (.str (Canon.digest .context (Utf8.ascii (Json.dumps (.dict windowContext)))))

/-- A document with its keys in order reads back as it stands. -/
theorem read_clean {v : Value} (fits : Canon.check v = .ok ()) (clean : Json.Clean v)
    (sorted : Json.canonical v = v) : Json.loadText (Utf8.ascii (Json.dumps v)) = .ok v := by
  rw [Json.loadText_dumps (Canon.exact_of_check fits), Json.decoded_clean clean, sorted]

theorem clean_text (s : String)
    (all : (Str.ofString s).all (fun c => 0x20 ≤ c.val && c.val ≤ 0x7e) = true) :
    Json.Clean (.str s) :=
  .str (Attest.tidy_literal s all)

theorem clean_digest (tag : Canon.RoleTag) (payload : Bytes) :
    Json.Clean (.str (Canon.digest tag payload)) :=
  .str (Attest.tidy_of_digest ⟨[], Schemacheck.validate_digest tag payload []⟩)

theorem clean_window : Json.Clean (.dict windowContext) := by
  have window : Json.Clean (.dict firstWindow) := by
    apply Attest.clean_pairs (by decide) (by decide)
    unfold firstWindow
    simp only [List.forall_mem_cons]
    exact ⟨clean_digest _ _, clean_text _ (by decide), clean_text _ (by decide), by simp⟩
  have binding : Json.Clean (.dict windowBinding) := by
    apply Attest.clean_pairs (by decide) (by decide)
    unfold windowBinding
    simp only [List.forall_mem_cons]
    exact ⟨clean_digest _ _, .list (by simpa using window), .int 2, by simp⟩
  have issuance : Json.Clean (.dict windowIssuance) := by
    apply Attest.clean_pairs (by decide) (by decide)
    unfold windowIssuance
    simp only [List.forall_mem_cons]
    exact ⟨clean_text _ (by decide), clean_text _ (by decide), by simp⟩
  apply Attest.clean_pairs (by decide) (by decide)
  unfold windowContext
  simp only [List.forall_mem_cons]
  exact ⟨clean_text _ (by decide), clean_text _ (by decide), clean_text _ (by decide),
    clean_text _ (by decide), issuance, binding, .int 2, by simp⟩

theorem read_window : Json.loadText (Utf8.ascii (Json.dumps (.dict windowContext))) =
    .ok (.dict windowContext) :=
  read_clean rfl clean_window rfl

theorem read_epoch (epoch : Int) (fits : Canon.check (.int epoch) = .ok ()) :
    Json.loadText (Utf8.ascii (Json.dumps (.dict (epochBundle epoch)))) =
      .ok (.dict (epochBundle epoch)) := by
  apply read_clean
  · rw [Canon.check, Canon.checkPairs_ok]
    unfold epochBundle
    simp only [List.forall_mem_cons]
    exact ⟨rfl, fits, by simp⟩
  · have keys : (epochBundle epoch).map Prod.fst = ["api_version", "bundle_epoch"] := rfl
    apply Attest.clean_pairs (by rw [keys]; decide) (by rw [keys]; decide)
    unfold epochBundle
    simp only [List.forall_mem_cons]
    exact ⟨clean_text _ (by decide), .int epoch, by simp⟩
  · rfl

theorem read_package : Json.loadText (Utf8.ascii (Json.dumps (.dict pilotPackage))) =
    .ok (.dict pilotPackage) := by
  have entry : Json.Clean (.dict pilotEntry) := by
    apply Attest.clean_pairs (by decide) (by decide)
    unfold pilotEntry
    simp only [List.forall_mem_cons]
    exact ⟨clean_digest _ _, clean_text _ (by decide), clean_text _ (by decide), by simp⟩
  apply read_clean rfl
  · apply Attest.clean_pairs (by decide) (by decide)
    unfold pilotPackage
    simp only [List.forall_mem_cons]
    exact ⟨.list (by simpa using entry), clean_text _ (by decide), clean_text _ (by decide),
      clean_text _ (by decide), by simp⟩
  · rfl

theorem valid_window (path : Str) :
    Schemacheck.validate Schemacheck.grandfather (.dict firstWindow) path = [] := by
  refine Schemacheck.validate_object (fun _ => ⟨rfl, rfl, rfl⟩) rfl ?_ path
  intro key sub stated v found path
  simp only [Schemacheck.grandfather, List.mem_cons, Prod.mk.injEq, List.not_mem_nil, or_false]
    at stated
  rcases stated with ⟨rfl, rfl⟩ | ⟨rfl, rfl⟩ | ⟨rfl, rfl⟩
  · cases found
    exact Schemacheck.validate_digest _ _ path
  all_goals cases found
  all_goals rfl

/-- An array of one item. -/
theorem validate_one (sub : Schemacheck.Schema) (v : Value) (path : Str)
    (valid : ∀ path, Schemacheck.validate sub v path = []) :
    Schemacheck.validate { type := some (.one .array), items := some sub } (.list [v]) path = [] := by
  simp [Schemacheck.validate, Schemacheck.valueErrors, Schemacheck.typeErrors,
    Schemacheck.TypeSpec.names, Schemacheck.isType, Value.isList, Schemacheck.textErrors,
    Schemacheck.numberErrors, Schemacheck.sizeErrors, Schemacheck.validateItems, valid]

theorem valid_binding (path : Str) :
    Schemacheck.validate Schemacheck.policyBinding (.dict windowBinding) path = [] := by
  refine Schemacheck.validate_object (fun _ => ⟨rfl, rfl, rfl⟩) rfl ?_ path
  intro key sub stated v found path
  simp only [Schemacheck.policyBinding, List.mem_cons, Prod.mk.injEq, List.not_mem_nil, or_false]
    at stated
  rcases stated with ⟨rfl, rfl⟩ | ⟨rfl, rfl⟩ | ⟨rfl, rfl⟩
  · cases found
    exact Schemacheck.validate_digest _ _ path
  · cases found
    rfl
  · cases found
    exact validate_one _ _ _ valid_window

theorem valid_context (path : Str) :
    Schemacheck.validate Schemacheck.evaluationContext (.dict windowContext) path = [] := by
  refine Schemacheck.validate_object (fun _ => ⟨rfl, rfl, rfl⟩) rfl ?_ path
  intro key sub stated v found path
  simp only [Schemacheck.evaluationContext, List.mem_cons, Prod.mk.injEq, List.not_mem_nil,
    or_false] at stated
  rcases stated with ⟨rfl, rfl⟩ | ⟨rfl, rfl⟩ | ⟨rfl, rfl⟩ | ⟨rfl, rfl⟩ | ⟨rfl, rfl⟩ | ⟨rfl, rfl⟩ |
    ⟨rfl, rfl⟩ | ⟨rfl, rfl⟩ | ⟨rfl, rfl⟩ | ⟨rfl, rfl⟩ | ⟨rfl, rfl⟩ | ⟨rfl, rfl⟩ | ⟨rfl, rfl⟩ |
    ⟨rfl, rfl⟩
  all_goals cases found
  iterate 6 rfl
  exact valid_binding path

theorem check_window : Context.checkContext ⟨none, none⟩ (.dict windowContext) =
    .ok windowLoaded := by
  unfold Context.checkContext
  rw [valid_context]
  rfl

section

variable (epoch : Int)

theorem load_window : Context.load (pilotSite epoch).env (pilotSite epoch).disk "/context" =
    .ok windowLoaded := by
  have resolved : (pilotSite epoch).disk.resolve (Path.ofStr "/context") =
      .ok ⟨true, ["context"]⟩ := rfl
  have joined : (⟨true, ["context"]⟩ : Path).join "context.json" =
      ⟨true, ["context", "context.json"]⟩ := rfl
  have stands : (pilotSite epoch).disk.exists_ ⟨true, ["context", "context.json"]⟩ = true := rfl
  have bytes : (pilotSite epoch).disk.read ⟨true, ["context", "context.json"]⟩ =
      .ok (Utf8.ascii (Json.dumps (.dict windowContext))) := rfl
  have read : Context.readContext (pilotSite epoch).disk ⟨true, ["context", "context.json"]⟩ =
      .ok (.dict windowContext) := by
    unfold Context.readContext
    rw [bytes, ok_bind, read_window]
  unfold Context.load
  rw [resolved, ok_bind]
  dsimp only
  rw [joined, if_pos stands, read, ok_bind]
  exact check_window

theorem read_bundle (fits : Canon.check (.int epoch) = .ok ()) :
    Policy.readBundle (pilotSite epoch).disk "/policy" = .ok (.dict (epochBundle epoch)) := by
  have resolved : (pilotSite epoch).disk.resolve (Path.ofStr "/policy") =
      .ok ⟨true, ["policy"]⟩ := rfl
  have directory : (pilotSite epoch).disk.isDir ⟨true, ["policy"]⟩ = true := rfl
  have joined : (⟨true, ["policy"]⟩ : Path).join "policy.json" =
      ⟨true, ["policy", "policy.json"]⟩ := rfl
  have stands : (pilotSite epoch).disk.exists_ ⟨true, ["policy", "policy.json"]⟩ = true := rfl
  have bytes : (pilotSite epoch).disk.read ⟨true, ["policy", "policy.json"]⟩ =
      .ok (Utf8.ascii (Json.dumps (.dict (epochBundle epoch)))) := rfl
  unfold Policy.readBundle Policy.readJson
  rw [resolved, ok_bind]
  dsimp only
  rw [joined]
  refine bind_ok.mpr ⟨(), ensure_ok.mpr directory, bind_ok.mpr ⟨(), ensure_ok.mpr stands, ?_⟩⟩
  rw [bytes, ok_bind, read_epoch epoch fits]

theorem digest_bundle (fits : Canon.check (.int epoch) = .ok ()) :
    Canon.digestObj .policy (.dict (epochBundle epoch)) = .ok (bundleDigest epoch) := by
  have passes : Canon.check (.dict (epochBundle epoch)) = .ok () := by
    rw [Canon.check, Canon.checkPairs_ok]
    unfold epochBundle
    simp only [List.forall_mem_cons]
    exact ⟨rfl, fits, by simp⟩
  unfold Canon.digestObj Canon.canon
  rw [passes]
  rfl

/-- The manifest of an empty directory. -/
def emptyManifest : Dict Str Value := Manifest.manifestOf sourceTree []

def emptyDigest : Str :=
  Canon.digest .subjectManifest (Utf8.ascii (Json.dumps (.dict emptyManifest)))

theorem build_empty : Invoke.subject (pilotSite epoch) "/subject" sourceTree =
    .ok (.dict (emptyManifest ++ [(("subject_digest" : Str), Value.str emptyDigest)])) := by
  have digested : Canon.digestObj .subjectManifest (.dict emptyManifest) = .ok emptyDigest := rfl
  have resolved : (pilotSite epoch).tree.resolve (Path.ofStr "/subject") =
      .ok ⟨true, ["subject"]⟩ := rfl
  have directory : (pilotSite epoch).tree.isDir ⟨true, ["subject"]⟩ = true := rfl
  unfold Invoke.subject Manifest.build
  rw [resolved, ok_bind, if_pos directory]
  have nothing : Manifest.recordAll (pilotSite epoch).tree (pilotSite epoch).fold
      ⟨true, ["subject"]⟩ [] (Manifest.walk (pilotSite epoch).tree ⟨true, ["subject"]⟩
        Manifest.defaultExcludes [] ((pilotSite epoch).tree.walked ⟨true, ["subject"]⟩)) =
      .ok [] := rfl
  rw [nothing, ok_bind]
  dsimp only
  rw [show Manifest.manifestOf sourceTree [] = emptyManifest from rfl, digested]
  rfl

/-- The package, with what its digest is of. -/
def packageOf : Dict Str Value :=
  [("api_version", .str Package.apiVersion), ("package_id", .str "p"),
    ("package_version", .str "1"), ("normative_inventory", .list [.dict pilotEntry]),
    ("imports", .list [])]

def closureEntry : Value :=
  .dict [("path", .str "s"), ("digest", .str (Canon.digest .file []))]

def packageDigest : Str :=
  Canon.digest .package (Utf8.ascii (Json.dumps (.dict packageOf)) ++
    (Utf8.ascii (Json.dumps closureEntry) ++ []))

theorem resolve_package : Package.resolve (pilotSite epoch).disk "/openspec" =
    .ok (packageOf ++ [(("package_digest" : Str), Value.str packageDigest)]) := by
  have resolved : (pilotSite epoch).disk.resolve (Path.ofStr "/openspec") =
      .ok ⟨true, ["openspec"]⟩ := rfl
  have joined : (⟨true, ["openspec"]⟩ : Path).join "package.json" =
      ⟨true, ["openspec", "package.json"]⟩ := rfl
  have stands : (pilotSite epoch).disk.exists_ ⟨true, ["openspec", "package.json"]⟩ = true := rfl
  have bytes : (pilotSite epoch).disk.read ⟨true, ["openspec", "package.json"]⟩ =
      .ok (Utf8.ascii (Json.dumps (.dict pilotPackage))) := rfl
  have loaded : Package.loadJson (pilotSite epoch).disk ⟨true, ["openspec", "package.json"]⟩ =
      .ok (.dict pilotPackage) := by
    unfold Package.loadJson
    rw [bytes, ok_bind, read_package]
  have digested : Package.fileDigest (pilotSite epoch).disk ⟨true, ["openspec", "s"]⟩ =
      .ok (Canon.digest .file []) := rfl
  have entry : Package.checkInventory (pilotSite epoch).disk ⟨true, ["openspec"]⟩
      [.dict pilotEntry] = .ok [⟨true, ["openspec", "s"]⟩] := by
    have same : Value.eq (.str (Canon.digest .file [])) (.str (Canon.digest .file [])) = true :=
      (Value.eq_str _ _).mpr rfl
    have checked : Package.checkEntry (pilotSite epoch).disk ⟨true, ["openspec"]⟩
        (.dict pilotEntry) = .ok (some ⟨true, ["openspec", "s"]⟩) := by
      have path : Value.item (.dict pilotEntry) "path" = .ok (.str "s") := rfl
      have kind : Value.item (.dict pilotEntry) "kind" = .ok (.str "normative") := rfl
      have recorded : Value.item (.dict pilotEntry) "digest" =
          .ok (.str (Canon.digest .file [])) := rfl
      have below : Package.below ⟨true, ["openspec"]⟩ (.str "s") =
          .ok ⟨true, ["openspec", "s"]⟩ := rfl
      have there : (pilotSite epoch).disk.exists_ ⟨true, ["openspec", "s"]⟩ = true := rfl
      have normative : Value.eq (.str "normative") (.str "normative") = true :=
        (Value.eq_str _ _).mpr rfl
      unfold Package.checkEntry
      rw [path, ok_bind, kind, ok_bind, recorded, ok_bind, below, ok_bind, if_pos there, digested,
        ok_bind, if_pos same, if_pos normative]
      rfl
    unfold Package.checkInventory
    rw [checked]
    rfl
  have closed : Package.closure (pilotSite epoch).disk ⟨true, ["openspec"]⟩
      [⟨true, ["openspec", "s"]⟩] = .ok (Utf8.ascii (Json.dumps closureEntry) ++ []) := by
    have relative : (⟨true, ["openspec", "s"]⟩ : Path).relativeTo ⟨true, ["openspec"]⟩ =
        .ok ⟨false, ["s"]⟩ := rfl
    have encoded : Canon.canon closureEntry = .ok (Utf8.ascii (Json.dumps closureEntry)) := rfl
    unfold Package.closure
    rw [relative, ok_bind, digested, ok_bind]
    dsimp only
    rw [show (.dict [("path", .str (Path.str ⟨false, ["s"]⟩)),
      ("digest", .str (Canon.digest .file []))] : Value) = closureEntry from rfl, encoded]
    rfl
  have encoded : Canon.canon (.dict packageOf) =
      .ok (Utf8.ascii (Json.dumps (.dict packageOf))) := rfl
  have current : Value.eq (.str Package.apiVersion) (.str Package.apiVersion) = true :=
    (Value.eq_str _ _).mpr rfl
  have version : Value.get (.dict pilotPackage) "schema_version" =
      .ok (some (.str Package.apiVersion)) := rfl
  have inventory : Package.orEmpty (.dict pilotPackage) "normative_inventory" =
      .ok (.list [.dict pilotEntry]) := rfl
  have imports : Package.orEmpty (.dict pilotPackage) "imports" = .ok (.list []) := rfl
  have made : Package.resolved (.dict pilotPackage) [.dict pilotEntry] (.list []) =
      .ok packageOf := rfl
  unfold Package.resolve
  rw [resolved, ok_bind]
  dsimp only
  rw [joined, if_pos stands, loaded, ok_bind, version, ok_bind, Option.getD_some, if_pos current,
    inventory, ok_bind, if_pos (show Value.truthy (.list [.dict pilotEntry]) = true from rfl)]
  show (Package.checkInventory (pilotSite epoch).disk ⟨true, ["openspec"]⟩ [.dict pilotEntry] >>= _)
    = _
  have frozen : Package.checkImports [] = .ok () := rfl
  rw [entry, ok_bind, imports, ok_bind, show Value.iter (.list []) = .ok [] from rfl, ok_bind, frozen,
    ok_bind, closed, ok_bind, made, ok_bind, encoded]
  rfl

def pilotRequest : Dict Str Value :=
  request pilotArguments ⟨emptyDigest, packageDigest, bundleDigest 2,
    Canon.digest .context (Utf8.ascii (Json.dumps (.dict windowContext)))⟩

/-- The request is the same, whichever bundle stands in the policy directory. -/
theorem build_pilot : buildRequest (pilotSite epoch) pilotArguments = .ok pilotRequest := by
  unfold buildRequest
  rw [show pilotArguments.subjectRoot = "/subject" from rfl, build_empty, ok_bind,
    show pilotArguments.openspecRoot = "/openspec" from rfl]
  have subject : Value.item (.dict (emptyManifest ++
      [(("subject_digest" : Str), Value.str emptyDigest)])) "subject_digest" =
      .ok (.str emptyDigest) := rfl
  have openspec : Value.item (.dict (packageOf ++
      [(("package_digest" : Str), Value.str packageDigest)])) "package_digest" =
      .ok (.str packageDigest) := rfl
  have context : Value.item (.dict windowLoaded) "context_digest" =
      .ok (.str (Canon.digest .context (Utf8.ascii (Json.dumps (.dict windowContext))))) := rfl
  have binding : Value.item (.dict windowLoaded) "policy_binding" = .ok (.dict windowBinding) := rfl
  have policy : Value.item (.dict windowBinding) "expected_digest" =
      .ok (.str (bundleDigest 2)) := rfl
  rw [subject, ok_bind, resolve_package, ok_bind, openspec, ok_bind,
    show pilotArguments.contextRoot = "/context" from rfl, load_window, ok_bind, context, ok_bind,
    binding, ok_bind, policy]
  rfl

end

/-- The two bundles have two digests. -/
theorem bundles_apart : bundleDigest 1 ≠ bundleDigest 2 := by decide +kernel

theorem filled_bundle (epoch : Int) : bundleDigest epoch ≠ [] := by
  intro empty
  have filled := strip_digest .policy (Utf8.ascii (Json.dumps (.dict (epochBundle epoch))))
  rw [show Canon.digest .policy (Utf8.ascii (Json.dumps (.dict (epochBundle epoch)))) = [] from empty]
    at filled
  exact filled rfl

theorem offered_bound : Offered (pilotSite 2) pilotArguments pilotRequest windowLoaded (epochBundle 2)
    (bundleDigest 2) where
  built := build_pilot 2
  context := load_window 2
  read := read_bundle 2 rfl
  digested := digest_bundle 2 rfl
  authorized := by
    show Policy.checkAntiRollback (bundleDigest 2) (epochBundle 2) (.dict windowBinding)
      (.str "20260701T00Z") = .ok ()
    rw [Policy.checkAntiRollback_eq (show Dict.get? windowBinding "expected_digest" =
      some (.str (bundleDigest 2)) from rfl) (filled_bundle 2), if_neg (by simp)]
    rfl

/-- The older bundle, in its window. -/
theorem offered_grandfathered : Offered (pilotSite 1) pilotArguments pilotRequest windowLoaded
    (epochBundle 1) (bundleDigest 1) where
  built := build_pilot 1
  context := load_window 1
  read := read_bundle 1 rfl
  digested := digest_bundle 1 rfl
  authorized := by
    have recorded : Policy.windows (bundleDigest 1) [.dict firstWindow] = .ok ["20270101T00Z"] := by
      have same : Value.eq (.str (bundleDigest 1)) (.str (bundleDigest 1)) = true :=
        (Value.eq_str _ _).mpr rfl
      unfold Policy.windows
      rw [show Policy.validUntil (.dict firstWindow) = some "20270101T00Z" from rfl]
      show (do
        let later ← Policy.windows (bundleDigest 1) []
        return if Value.eq (.str (bundleDigest 1)) (.str (bundleDigest 1)) then "20270101T00Z" :: later
          else later) = Except.ok [Str.ofString "20270101T00Z"]
      rw [same]
      rfl
    have open_ : ∀ digest expected, Policy.checkWindows digest expected ["20270101T00Z"]
        (.str "20260701T00Z") = .ok () := fun _ _ => rfl
    show Policy.checkAntiRollback (bundleDigest 1) (epochBundle 1) (.dict windowBinding)
      (.str "20260701T00Z") = .ok ()
    rw [Policy.checkAntiRollback_eq (show Dict.get? windowBinding "expected_digest" =
      some (.str (bundleDigest 2)) from rfl) (filled_bundle 2), if_pos bundles_apart,
      show Policy.listOr (Dict.get? windowBinding "grandfathers") = .ok [.dict firstWindow] from rfl,
      ok_bind, recorded, ok_bind, open_]

/-- The request for the bound bundle resolves. -/
theorem bound_resolved : Resolved (pilotSite 2) "/run" pilotRequest := by
  refine (resolved_iff offered_bound "/run").mpr ⟨⟨rfl, ⟨_, rfl⟩, rfl⟩, ?_, by decide, by decide⟩
  intro rec inside
  cases inside

/-- The context authorizes the older bundle, and the run of the built request refuses it. -/
theorem grandfathered_not_resolved :
    Offered (pilotSite 1) pilotArguments pilotRequest windowLoaded (epochBundle 1) (bundleDigest 1) ∧
      ¬ Resolved (pilotSite 1) "/run" pilotRequest := by
  refine ⟨offered_grandfathered, ?_⟩
  intro resolved
  have ready := (resolved_iff offered_grandfathered "/run").mp resolved
  have bound := ready.current.bound
  rw [show boundDigest windowLoaded = some (bundleDigest 2) from rfl, Option.some.injEq] at bound
  exact bundles_apart bound.symm

end Run

end DevGate
