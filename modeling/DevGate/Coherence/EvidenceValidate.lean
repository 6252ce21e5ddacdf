import DevGate.Coherence.Evidence
import DevGate.Coherence.VerificationReach
import DevGate.Lib.Fold
import DevGate.Py.Hmac

set_option autoImplicit false

/- scripts/evidence-validate.py, and the claims it lets through. -/
namespace DevGate.Verification

open Py

def claimApiVersion : Str := "devgate.verification.claim/v1"

/-- A text or None. -/
def ofOption (text : Option Str) : Value := (text.map Value.str).getD .null

def LogEntry.fields (entry : LogEntry) : List (Str × Value) :=
  [("to", .str entry.target.name), ("reason", ofOption entry.reason)]

def VerificationRecord.fields (record : VerificationRecord) : List (Str × Value) :=
  [("verifier", .str record.verifier), ("ok", .bool record.ok), ("observation", record.observation)]

/-- The fields of the dictionary that the operations edit. -/
def Claim.fields (c : Claim) : List (Str × Value) :=
  [("api_version", .str claimApiVersion), ("claim_id", .str c.claimId),
    ("requirement", .str c.requirement), ("state", .str c.state.name), ("actor", ofOption c.actor),
    ("subject_digest", ofOption c.subjectDigest),
    ("bound_digests", .dict (c.boundDigests.map (fun kv => (kv.1, Value.str kv.2)))),
    ("evidence_refs", .list (c.evidenceRefs.map Value.str)),
    ("independent_verification",
      (c.independentVerification.map (fun record => Value.dict record.fields)).getD .null),
    ("transitions", .list (c.transitions.map (fun entry => Value.dict entry.fields)))]

def Claim.document (c : Claim) : Value := .dict c.fields

def digestClaim (claim : Value) : Except Exc Str := Canon.digestObj .decision claim

end DevGate.Verification

namespace DevGate.EvidenceValidate

open Py Verification

/-- The file system, and the names in the bundle directory. -/
structure World where
  disk : Disk
  names : List Str

structure Outcome where
  exit : Nat
  stdout : List Text
  stderr : List Text

def exitValid : Nat := 0

def exitInvalid : Nat := 1

def exitUsage : Nat := 30

/-- `sorted(bundle_dir.glob("*.claim.json"))`, by name. -/
def claimNames (names : List Str) : List Str :=
  Str.sorted (names.filter (fun name => (".claim.json" : Str).isSuffixOf name))

def readClaim (disk : Disk) (dir : Path) (name : Str) : Except Exc Value := do
  Json.loadText (← disk.read (dir.sub [name]))

/-- `digest_fp`: the file beside the claim. -/
def digestPath (dir : Path) (name : Str) : Path := dir.sub [name ++ ".digest"]

def digestProblems (disk : Disk) (dir : Path) (name actual : Str) : Except Exc (List Text) :=
  if disk.exists_ (digestPath dir name) then do
    let recorded := Str.strip (← Utf8.readText (← disk.read (digestPath dir name)))
    if recorded = actual then return []
    else return [[.lit name, ": digest drift (recorded ", .lit (recorded.take 16), ".., actual ",
      .lit (actual.take 16), "..) — claim edited after sealing"]]
  else .ok [[.lit name, ": no .digest sidecar — provenance unprovable"]]

/-- `not claim.get("independent_verification")`. -/
def unverified (claim : List (Str × Value)) : Bool :=
  match Dict.get? claim "independent_verification" with
  | some iv => !iv.truthy
  | none => true

def selfCertified (name : Str) (claim : List (Str × Value)) : List Text :=
  if Dict.get? claim "state" = some (.str State.verified.name) ∧ unverified claim = true then
    [[.lit name, ": state VERIFIED without independent verification — self-certified claim rejected"]]
  else []

/-- The body of the loop of `check_claims`. -/
def checkClaim (disk : Disk) (dir : Path) (name : Str) : Except Exc (List Text) :=
  match readClaim disk dir name with
  | .error e =>
      if e.isA [.osError, .jsonDecodeError, .unicodeDecodeError] then
        .ok [.lit name :: ": unreadable claim: " :: e.msg]
      else .error e
  | .ok (.dict claim) =>
      match digestClaim (.dict claim) with
      | .error e =>
          if e.isA [Canon.canonError, .valueError, .typeError] then
            .ok [.lit name :: ": claim not canonicalizable: " :: e.msg]
          else .error e
      | .ok actual => do
          let drift ← digestProblems disk dir name actual
          return drift ++ selfCertified name claim
  | .ok _ => .ok [[.lit name, ": claim is not a JSON object"]]

def checkClaims (w : World) (dir : Path) : Except Exc (List Text) := do
  return (← (claimNames w.names).mapM (checkClaim w.disk dir)).flatten

/-- `main`, its arguments parsed. -/
def main (w : World) (bundle expected : Str) : Outcome :=
  let dir := Path.ofStr bundle
  if w.disk.isDir dir = false then
    ⟨exitUsage, [], [["evidence-validate: bundle directory not found: ", .lit dir.str]]⟩
  else match Evidence.verify w.disk dir.str expected with
    | .error e => ⟨1, [], [e.msg]⟩
    | .ok false =>
        ⟨exitInvalid, [["evidence-validate: INVALID — bundle fails digest verification"]], []⟩
    | .ok true =>
        match checkClaims w dir with
        | .error e => ⟨1, [], [e.msg]⟩
        | .ok [] => ⟨exitValid, [["evidence-validate: OK — bundle verified, claims consistent"]], []⟩
        | .ok problems =>
            ⟨exitInvalid, ["evidence-validate: INVALID — claim checks failed:"] ::
              problems.map (fun p => "  - " :: p), []⟩

/-! What the checks let through. -/

/-- A claim file without a problem. -/
structure Accepted (disk : Disk) (dir : Path) (name : Str) (claim : List (Str × Value)) : Prop where
  read : readClaim disk dir name = .ok (.dict claim)
  sealed_ : ∃ actual, digestClaim (.dict claim) = .ok actual ∧
    digestProblems disk dir name actual = .ok []
  certified : Dict.get? claim "state" = some (.str State.verified.name) → unverified claim = false

theorem selfCertified_eq_nil {name : Str} {claim : List (Str × Value)} :
    selfCertified name claim = [] ↔
      (Dict.get? claim "state" = some (.str State.verified.name) → unverified claim = false) := by
  unfold selfCertified
  by_cases verified : Dict.get? claim "state" = some (.str State.verified.name)
  · cases unverified claim <;> simp [verified]
  · rw [if_neg (fun both => verified both.1)]
    exact ⟨fun _ here => absurd here verified, fun _ => rfl⟩

theorem checkClaim_ok {disk : Disk} {dir : Path} {name : Str} :
    checkClaim disk dir name = .ok [] ↔ ∃ claim, Accepted disk dir name claim := by
  unfold checkClaim
  constructor
  · intro clean
    split at clean
    · split at clean <;> cases clean
    · rename_i claim read
      split at clean
      · split at clean <;> cases clean
      · rename_i actual digest
        obtain ⟨drift, found, joined⟩ := bind_ok.mp clean
        have both := List.append_eq_nil_iff.mp (Except.ok.inj joined)
        rw [both.1] at found
        exact ⟨claim, read, ⟨actual, digest, found⟩, selfCertified_eq_nil.mp both.2⟩
    · cases clean
  · rintro ⟨claim, read, ⟨actual, digest, found⟩, certified⟩
    simp only [read, digest, found, ok_bind, selfCertified_eq_nil.mpr certified, List.append_nil]
    rfl

theorem checkClaims_ok {w : World} {dir : Path} :
    checkClaims w dir = .ok [] ↔
      ∀ name ∈ claimNames w.names, ∃ claim, Accepted w.disk dir name claim := by
  unfold checkClaims
  rw [bind_ok]
  constructor
  · rintro ⟨per, each, joined⟩ name member
    obtain ⟨problems, inside, checked⟩ := (mapM_members each).1 name member
    rw [List.flatten_eq_nil_iff.mp (Except.ok.inj joined) problems inside] at checked
    exact checkClaim_ok.mp checked
  · intro each
    have checked : ∀ name ∈ claimNames w.names, checkClaim w.disk dir name = .ok [] :=
      fun name member => checkClaim_ok.mpr (each name member)
    obtain ⟨per, mapped⟩ := Fold.mapM_ends.mpr (fun name member => ⟨[], checked name member⟩)
    refine ⟨per, mapped, congrArg Except.ok (List.flatten_eq_nil_iff.mpr ?_)⟩
    intro problems inside
    obtain ⟨name, member, same⟩ := (mapM_members mapped).2 problems inside
    rw [checked name member, Except.ok.injEq] at same
    exact same.symm

/-- The bundle passes every check. -/
structure Passes (w : World) (bundle expected : Str) : Prop where
  found : w.disk.isDir (Path.ofStr bundle) = true
  verified : Evidence.verify w.disk (Path.ofStr bundle).str expected = .ok true
  claims : ∀ name ∈ claimNames w.names, ∃ claim, Accepted w.disk (Path.ofStr bundle) name claim

theorem main_exit (w : World) (bundle expected : Str) :
    (main w bundle expected).exit = exitValid ↔ Passes w bundle expected := by
  unfold main
  dsimp only
  by_cases found : w.disk.isDir (Path.ofStr bundle) = true
  · rw [if_neg (by rw [found]; decide)]
    cases verified : Evidence.verify w.disk (Path.ofStr bundle).str expected with
    | error e => exact ⟨nofun, fun passes => by cases verified.symm.trans passes.verified⟩
    | ok sound =>
        cases sound with
        | false => exact ⟨nofun, fun passes => by cases verified.symm.trans passes.verified⟩
        | true =>
            dsimp only
            cases checked : checkClaims w (Path.ofStr bundle) with
            | error e =>
                refine ⟨nofun, fun passes => ?_⟩
                cases checked.symm.trans (checkClaims_ok.mpr passes.claims)
            | ok problems =>
                cases problems with
                | nil => exact ⟨fun _ => ⟨found, verified, checkClaims_ok.mp checked⟩, fun _ => rfl⟩
                | cons problem rest =>
                    refine ⟨nofun, fun passes => ?_⟩
                    cases checked.symm.trans (checkClaims_ok.mpr passes.claims)
  · rw [Bool.not_eq_true] at found
    rw [if_pos found]
    exact ⟨nofun, fun passes => by cases found.symm.trans passes.found⟩

/-! What an honest claim file is. -/

/-- The role the manifest digest is bound under. -/
def manifestRole : Str := "evidence-manifest"

/-- A claim that operations can build, the order of keys aside, about this bundle. -/
structure Honest (expected : Str) (v : Value) : Prop where
  produced : ∃ c, Produced c ∧ Json.canonical v = Json.canonical c.document
  verified : v.field? "state" = some (.str State.verified.name) →
    ∃ record, v.field? "independent_verification" = some record ∧
      record.field? "ok" = some (.bool true)
  named : ∃ log last, v.field? "transitions" = some (.list log) ∧ log.getLast? = some last ∧
    last.field? "to" = v.field? "state"
  bound : ∀ anchors digest, v.field? "bound_digests" = some anchors →
    anchors.field? manifestRole = some digest → digest = .str expected

/-- A lawful claim record, bound to no other manifest. -/
def Genuine (expected : Str) (v : Value) : Prop :=
  ∃ c, Lawful c ∧ Json.canonical v = Json.canonical c.document ∧
    ∀ digest, Dict.get? c.boundDigests manifestRole = some digest → digest = expected

theorem field?_same {v : Value} (clean : Json.Clean v) {kvs : List (Str × Value)}
    (distinct : (kvs.map Prod.fst).Nodup) (same : Json.canonical v = Json.canonical (.dict kvs))
    {key : Str} {w : Value} (held : Dict.get? kvs key = some w) :
    ∃ found, v.field? key = some found ∧ Json.canonical found = Json.canonical w ∧
      Json.Clean found := by
  obtain ⟨found, looked, -, equal, clean'⟩ := clean.get_some key w distinct same held
  exact ⟨found, Value.field?_of_get looked, equal, clean'⟩

theorem canonical_eq_bool {v : Value} {b : Bool} (same : Json.canonical v = .bool b) :
    v = .bool b := by
  cases v with
  | dict kvs =>
      rw [Json.canonical_dict] at same
      cases same
  | list vs => cases same
  | _ => exact same

theorem fields_distinct (c : Claim) : (c.fields.map Prod.fst).Nodup := by
  show List.Nodup (["api_version", "claim_id", "requirement", "state", "actor", "subject_digest",
    "bound_digests", "evidence_refs", "independent_verification", "transitions"] : List Str)
  decide

section

variable {c : Claim} {v : Value} (clean : Json.Clean v)
  (same : Json.canonical v = Json.canonical c.document)

include clean same

theorem state_field : v.field? "state" = some (.str c.state.name) := by
  obtain ⟨found, field, equal, -⟩ := field?_same clean (fields_distinct c) same
    (show Dict.get? c.fields "state" = some (.str c.state.name) from rfl)
  rw [field, Json.canonical_eq_str equal]

theorem anchor_field (roles : (c.boundDigests.map Prod.fst).Nodup) :
    ∃ anchors, v.field? "bound_digests" = some anchors ∧
      anchors.field? manifestRole = (Dict.get? c.boundDigests manifestRole).map Value.str := by
  obtain ⟨anchors, field, equal, clean'⟩ := field?_same clean (fields_distinct c) same
    (show Dict.get? c.fields "bound_digests" =
      some (.dict (c.boundDigests.map (fun kv => (kv.1, Value.str kv.2)))) from rfl)
  have distinct : ((c.boundDigests.map (fun kv => (kv.1, Value.str kv.2))).map Prod.fst).Nodup := by
    rw [List.map_map]
    exact roles
  obtain ⟨found, looked, agree, -⟩ := clean'.get distinct equal manifestRole
  refine ⟨anchors, field, ?_⟩
  rw [Value.field?_of_get looked]
  rw [Json.get?_map] at agree
  cases held : Dict.get? c.boundDigests manifestRole with
  | none =>
      rw [held, Option.map_none, Option.map_none, Option.map_eq_none_iff] at agree
      rw [agree]
      rfl
  | some text =>
      rw [held, Option.map_some, Option.map_some, Option.map_eq_some_iff] at agree
      obtain ⟨digest, shape, agree⟩ := agree
      rw [shape, Json.canonical_eq_str agree]
      rfl

theorem record_field {r : VerificationRecord} (recorded : c.independentVerification = some r) :
    ∃ record, v.field? "independent_verification" = some record ∧
      record.field? "ok" = some (.bool r.ok) := by
  have held : Dict.get? c.fields "independent_verification" = some (.dict r.fields) := by
    show some ((c.independentVerification.map (fun record => Value.dict record.fields)).getD .null) = _
    rw [recorded]
    rfl
  obtain ⟨record, field, equal, clean'⟩ := field?_same clean (fields_distinct c) same held
  have distinct : (r.fields.map Prod.fst).Nodup :=
    show List.Nodup (["verifier", "ok", "observation"] : List Str) by decide
  obtain ⟨verdict, inner, agree, -⟩ := field?_same clean' distinct equal
    (show Dict.get? r.fields "ok" = some (.bool r.ok) from rfl)
  exact ⟨record, field, inner.trans (congrArg some (canonical_eq_bool agree))⟩

theorem log_field (last : c.transitions.getLast?.map LogEntry.target = some c.state) :
    ∃ log final, v.field? "transitions" = some (.list log) ∧ log.getLast? = some final ∧
      final.field? "to" = some (.str c.state.name) := by
  obtain ⟨found, field, equal, clean'⟩ := field?_same clean (fields_distinct c) same
    (show Dict.get? c.fields "transitions" =
      some (.list (c.transitions.map (fun entry => Value.dict entry.fields))) from rfl)
  rw [Json.canonical, Json.canonicalList_eq_map] at equal
  obtain ⟨log, rfl, entries⟩ := Json.canonical_eq_list equal
  obtain ⟨entry, isLast, target⟩ := Option.map_eq_some_iff.mp last
  have ends := congrArg List.getLast? entries
  rw [List.getLast?_map, List.getLast?_map, List.getLast?_map, isLast, Option.map_some,
    Option.map_some] at ends
  obtain ⟨final, isFinal, agree⟩ := Option.map_eq_some_iff.mp ends
  have cleanFinal : Json.Clean final := by
    cases clean' with
    | list each => exact each final (List.mem_of_getLast? isFinal)
  have distinct : (entry.fields.map Prod.fst).Nodup :=
    show List.Nodup (["to", "reason"] : List Str) by decide
  obtain ⟨name, inner, named, -⟩ := field?_same cleanFinal distinct agree
    (show Dict.get? entry.fields "to" = some (.str entry.target.name) from rfl)
  refine ⟨log, final, field, isFinal, ?_⟩
  rw [inner, Json.canonical_eq_str named, target]

end

theorem honest_iff {expected : Str} {v : Value} (clean : Json.Clean v) :
    Honest expected v ↔ Genuine expected v := by
  constructor
  · rintro ⟨⟨c, produced, same⟩, -, -, bound⟩
    have lawful := produced.lawful
    refine ⟨c, lawful, same, fun digest held => ?_⟩
    obtain ⟨anchors, field, inner⟩ := anchor_field clean same lawful.roles
    rw [held] at inner
    have agrees := bound anchors _ field inner
    exact Value.str.inj agrees
  · rintro ⟨c, lawful, same, bound⟩
    have state := state_field clean same
    refine ⟨⟨c, lawful.produced, same⟩, ?_, ?_, ?_⟩
    · intro verified
      rw [state, Option.some.injEq, Value.str.injEq] at verified
      obtain ⟨claimId, requirement, subjectDigest, actor, ops, rfl⟩ := lawful.produced
      obtain ⟨r, record, ok⟩ := (run_sound claimId requirement subjectDigest actor ops).verified
        (State.name_injective verified)
      obtain ⟨document, field, answer⟩ := record_field clean same record
      rw [ok] at answer
      exact ⟨document, field, answer⟩
    · obtain ⟨log, final, field, isFinal, named⟩ := log_field clean same lawful.last
      exact ⟨log, final, field, isFinal, named.trans state.symm⟩
    · intro anchors digest field held
      obtain ⟨anchors', field', inner⟩ := anchor_field clean same lawful.roles
      rw [field, Option.some.injEq] at field'
      rw [← field', held] at inner
      obtain ⟨text, found, rfl⟩ := Option.map_eq_some_iff.mp inner.symm
      rw [bound text found]

theorem readClaim_clean {disk : Disk} {dir : Path} {name : Str} {v : Value}
    (read : readClaim disk dir name = .ok v) : Json.Clean v := by
  obtain ⟨bytes, -, parsed⟩ := bind_ok.mp read
  exact Json.loadText_clean parsed

/-- A clean exit means that every claim file is honest. -/
def Vouches (w : World) (bundle expected : Str) : Prop :=
  (main w bundle expected).exit = exitValid → ∀ name ∈ claimNames w.names,
    ∃ v, readClaim w.disk (Path.ofStr bundle) name = .ok v ∧ Honest expected v

/-- The validator vouches for what it should exactly where it refuses the bundle or every
claim in it is a genuine record. -/
theorem vouches_iff (w : World) (bundle expected : Str) :
    Vouches w bundle expected ↔ ¬Passes w bundle expected ∨ ∀ name ∈ claimNames w.names,
      ∃ v, readClaim w.disk (Path.ofStr bundle) name = .ok v ∧ Genuine expected v := by
  unfold Vouches
  rw [main_exit, imp_iff_not_or]
  apply or_congr_right
  apply forall₂_congr
  intro name _
  apply exists_congr
  intro v
  apply and_congr_right
  exact fun read => honest_iff (readClaim_clean read)

/-- A claim that says VERIFIED over a record that says no, and binds another manifest. -/
def forged : Value :=
  .dict [("bound_digests", .dict [("evidence-manifest", .str "other")]),
    ("independent_verification", .dict [("ok", .bool false)]), ("state", .str "VERIFIED")]

def emptyManifest : Value := .dict [("objects", .list [])]

/-- A bundle with no evidence and the forged claim, sealed. -/
def forgedFiles : List (Path × Bytes) :=
  [(⟨true, ["b", "evidence-manifest.json"]⟩, Utf8.ascii (Json.dumps emptyManifest)),
    (⟨true, ["b", "x.claim.json"]⟩, Utf8.ascii (Json.dumps forged)),
    (⟨true, ["b", "x.claim.json.digest"]⟩,
      Utf8.ascii (Canon.digest .decision (Utf8.ascii (Json.dumps forged))))]

def forgedBundle : World where
  disk :=
    { resolve := .ok
      exists_ := fun p => (forgedFiles.find? (fun f => f.1 = p)).isSome
      isFile := fun p => (forgedFiles.find? (fun f => f.1 = p)).isSome
      isDir := fun p => p = ⟨true, ["b"]⟩
      read := fun p => match forgedFiles.find? (fun f => f.1 = p) with
        | some file => .ok file.2
        | none => .error ⟨.osError, ["No such file or directory"]⟩ }
  names := ["evidence-manifest.json", "x.claim.json", "x.claim.json.digest"]

theorem forged_not_vouched : ¬Vouches forgedBundle "/b"
    (Canon.digest .evidenceManifest (Utf8.ascii (Json.dumps emptyManifest))) := by
  intro vouches
  have passes : (main forgedBundle "/b"
      (Canon.digest .evidenceManifest (Utf8.ascii (Json.dumps emptyManifest)))).exit = exitValid := by
    decide +kernel
  have read : readClaim forgedBundle.disk (Path.ofStr "/b") "x.claim.json" = .ok forged := by
    decide +kernel
  obtain ⟨v, here, honest⟩ := vouches passes "x.claim.json" (by decide)
  rw [read, Except.ok.injEq] at here
  subst here
  obtain ⟨record, field, ok⟩ := honest.verified (by decide)
  have same : record = .dict [("ok", .bool false)] := (Option.some.inj field).symm
  rw [same] at ok
  cases ok

end DevGate.EvidenceValidate
