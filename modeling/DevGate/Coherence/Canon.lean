import DevGate.Py.JsonRead

set_option autoImplicit false

/- hub/coherence/canon.py: canonical bytes, and digests separated by role. -/
namespace DevGate.Canon

open Py

def canonError : ExcClass := .user "CanonError" .valueError

/-- `ROLE_TAGS`. -/
inductive RoleTag where
  | subjectManifest
  | package
  | policy
  | context
  | evidenceManifest
  | decision
  | file
  | signerSet
  deriving DecidableEq

def RoleTag.name : RoleTag → Str
  | .subjectManifest => "subject-manifest/v1"
  | .package => "package/v1"
  | .policy => "policy/v1"
  | .context => "context/v1"
  | .evidenceManifest => "evidence-manifest/v1"
  | .decision => "decision/v1"
  | .file => "file/v1"
  | .signerSet => "signer-set/v1"

def int64Min : Int := -(2 ^ 63)

def int64Max : Int := 2 ^ 63 - 1

mutual

/-- `_check`. -/
def check : Value → Except Exc Unit
  | .int n =>
      if int64Min ≤ n ∧ n ≤ int64Max then .ok ()
      else .error ⟨canonError, ["integer out of int64 range: ", .repr (.int n)]⟩
  | .float x =>
      .error ⟨canonError, ["floats are outside the v1 canonical profile: ", .repr (.float x)]⟩
  | .list vs => checkList vs
  | .dict kvs => checkPairs kvs
  | _ => .ok ()

def checkList : List Value → Except Exc Unit
  | [] => .ok ()
  | v :: vs => do
      check v
      checkList vs

def checkPairs : List (Str × Value) → Except Exc Unit
  | [] => .ok ()
  | (_, v) :: rest => do
      check v
      checkPairs rest

end

def canon (v : Value) : Except Exc Bytes := do
  check v
  return Utf8.ascii (Json.dumps v)

/-- What is hashed: the tag, a zero byte, the payload. -/
def preimage (tag : RoleTag) (payload : Bytes) : Bytes := Utf8.ascii tag.name ++ 0 :: payload

/-- `digest` and `digest_bytes`. -/
def digest (tag : RoleTag) (payload : Bytes) : Str := "sha256:" ++ sha256 (preimage tag payload)

def digestObj (tag : RoleTag) (v : Value) : Except Exc Str := do
  return digest tag (← canon v)

theorem checkList_ok {vs : List Value} :
    checkList vs = .ok () ↔ ∀ v ∈ vs, check v = .ok () := by
  induction vs with
  | nil => simp [checkList]
  | cons v vs ih =>
      rw [checkList, bind_ok, List.forall_mem_cons, ← ih]
      constructor
      · intro ⟨_, first, rest⟩
        exact ⟨first, rest⟩
      · intro ⟨first, rest⟩
        exact ⟨(), first, rest⟩

theorem checkPairs_ok {kvs : List (Str × Value)} :
    checkPairs kvs = .ok () ↔ ∀ kv ∈ kvs, check kv.2 = .ok () := by
  induction kvs with
  | nil => simp [checkPairs]
  | cons kv rest ih =>
      rw [checkPairs, bind_ok, List.forall_mem_cons, ← ih]
      constructor
      · intro ⟨_, first, later⟩
        exact ⟨first, later⟩
      · intro ⟨first, later⟩
        exact ⟨(), first, later⟩

theorem exact_of_check {v : Value} (passes : check v = .ok ()) : Json.Exact v := by
  induction v using Value.ind with
  | null => exact Json.Exact.null
  | bool b => exact Json.Exact.bool b
  | int n =>
      rw [check] at passes
      split at passes
      · rename_i fits
        exact Json.Exact.int fits
      · cases passes
  | float x => cases passes
  | str s => exact Json.Exact.str s
  | list vs ih =>
      rw [check, checkList_ok] at passes
      exact Json.Exact.list (fun v inside => ih v inside (passes v inside))
  | dict kvs ih =>
      rw [check, checkPairs_ok] at passes
      exact Json.Exact.dict (fun kv inside => ih kv inside (passes kv inside))

theorem canon_ok {v : Value} {bytes : Bytes} :
    canon v = .ok bytes ↔ check v = .ok () ∧ bytes = Utf8.ascii (Json.dumps v) := by
  unfold canon
  rw [bind_ok]
  constructor
  · intro ⟨_, passes, same⟩
    exact ⟨passes, (Except.ok.inj same).symm⟩
  · intro ⟨passes, same⟩
    exact ⟨(), passes, by rw [same]; rfl⟩

theorem loadText_canon {v : Value} {bytes : Bytes} (encoded : canon v = .ok bytes) :
    Json.loadText bytes = .ok (Json.decoded v) := by
  obtain ⟨passes, rfl⟩ := canon_ok.mp encoded
  exact Json.loadText_dumps (exact_of_check passes)

/-- Equal canonical bytes decode to equal values. -/
theorem decoded_injective {v w : Value} {bytes : Bytes} (first : canon v = .ok bytes)
    (second : canon w = .ok bytes) : Json.decoded v = Json.decoded w := by
  have read := loadText_canon first
  rw [loadText_canon second] at read
  exact (Except.ok.inj read).symm

theorem check_canonical {v : Value} : check (Json.canonical v) = .ok () ↔ check v = .ok () := by
  induction v using Value.ind with
  | list vs ih =>
      rw [Json.canonical, Json.canonicalList_eq_map, check, check, checkList_ok, checkList_ok,
        List.forall_mem_map]
      exact forall₂_congr ih
  | dict kvs ih =>
      rw [Json.canonical_dict, check, check, checkPairs_ok, checkPairs_ok, List.forall_mem_map]
      constructor
      · intro each kv inside
        exact (ih kv inside).mp (each kv ((Json.sortKeys_perm kvs).mem_iff.mpr inside))
      · intro each kv sorted
        have inside := (Json.sortKeys_perm kvs).mem_iff.mp sorted
        exact (ih kv inside).mpr (each kv inside)
  | _ => exact Iff.rfl

/-- The canonical bytes do not depend on the order of keys. -/
theorem canon_canonical {v : Value} {bytes : Bytes} :
    canon (Json.canonical v) = .ok bytes ↔ canon v = .ok bytes := by
  rw [canon_ok, canon_ok, Json.dumps_canonical, check_canonical]

theorem canon_of_same {v w : Value} {bytes : Bytes} (same : Json.canonical v = Json.canonical w)
    (encoded : canon w = .ok bytes) : canon v = .ok bytes := by
  rw [← canon_canonical, same, canon_canonical]
  exact encoded

/-- SHA-256 does not collide on two texts. -/
def Separates (a b : Bytes) : Prop := sha256 a = sha256 b → a = b

theorem ascii_tag_noZero (tag : RoleTag) : (0 : UInt8) ∉ Utf8.ascii tag.name := by
  cases tag <;> decide

/-- Equal digests under one tag are digests of one payload. -/
theorem digest_injective {tag : RoleTag} {a b : Bytes}
    (separates : Separates (preimage tag a) (preimage tag b)) (same : digest tag a = digest tag b) :
    a = b := by
  have hashes := List.append_cancel_left same
  have texts := List.append_cancel_left (separates hashes)
  exact (List.cons.inj texts).2

end DevGate.Canon
