import DevGate.Hub.FailedSave
import DevGate.Lib.Fold
import DevGate.Py.JsonFaults

set_option autoImplicit false

/- The POST endpoints on a body of any bytes: which requests they answer. -/
namespace DevGate.Hub

open Py Server Fold

/-- `_read_json`, of the bytes that `Content-Length` announces; `null` is as good as nothing. -/
def readJson (body : Bytes) : Except Exc Value :=
  if body = [] then .ok .null
  else
    match (do Json.loads (← Utf8.decode false body)) with
    | .ok v => .ok v
    | .error e => if e.isA [.valueError, .unicodeDecodeError] then .ok .null else .error e

inductive PostEndpoint where
  | enroll
  | heartbeat
  | revoke

def PostEndpoint.request : PostEndpoint → Value → Request
  | .enroll => .enroll
  | .heartbeat => .heartbeat
  | .revoke => .revoke

/-- `do_POST`. -/
def post (env : Env) (s : HubState) (endpoint : PostEndpoint) (body : Bytes) : Answer × HubState :=
  match readJson body with
  | .ok data => handle env s (endpoint.request data)
  | .error e => (.dropped e, s)

def documented : List Nat := [200, 400, 401, 409]

/-- A documented status is answered, and where the registry changes it is 200. -/
structure Documented (before : Registry) (outcome : Answer × HubState) : Prop where
  answers : ∃ reply, outcome.1 = .sent reply ∧ reply.code ∈ documented
  changes : outcome.2.memory ≠ before → ∃ payload, outcome.1 = .sent ⟨200, payload⟩

/-- A text that has an encoding. -/
def Encodable (v : Value) : Prop := ∃ s, v = .str s ∧ s.any Chr.isSurrogate = false

/-- A presented token can be compared with a stored one. -/
def Comparable (presented : Value) (expected : Str) : Prop :=
  presented.truthy = true → Encodable presented ∧ Encodable (.str expected)

/-- The texts of an enroll request, as far as they are reached: the repository is a text where there
is a name, and past the checks of the format and the name the token can be compared with the stored
ones, up to the one it is. -/
structure EnrollTexts (reg : Registry) (data : Value) : Prop where
  repo : ∀ fields name, data = .dict fields → Dict.get? fields "runner_name" = some (.str name) →
    name ≠ [] → (getOr fields "repo" (.str [])).isStr = true
  token : ∀ request, probeEnroll reg data = .inr request → ∀ front expected back,
    reg.enrollmentTokens = front ++ expected :: back → request.presented ∉ front.map Value.str →
      Comparable request.presented expected

/-- The token of a heartbeat or a revoke can be compared with that of the enrolled row it names. -/
def TokenTexts (reg : Registry) (data : Value) : Prop :=
  ∀ fields runner, data = .dict fields →
    reg.findRunner (getOr fields "runner_name" (.str [])) = some runner → runner.enrolled = true →
      Comparable (getOr fields "heartbeat_token" (.str [])) runner.heartbeatToken

def Texts (reg : Registry) : PostEndpoint → Value → Prop
  | .enroll => EnrollTexts reg
  | .heartbeat => TokenTexts reg
  | .revoke => TokenTexts reg

/-- The body is no JSON that is nested deeper than the interpreter's stack. -/
def Shallow (body : Bytes) : Prop :=
  ∀ e, (do Json.loads (← Utf8.decode false body)) = .error e → e.cls ≠ .runtimeError

theorem readJson_ends (body : Bytes) : Ends (readJson body) ↔ body = [] ∨ Shallow body := by
  unfold readJson Shallow
  by_cases empty : body = []
  · simp [empty]
  · rw [if_neg empty]
    have fails : Fails Json.Unreadable (do Json.loads (← Utf8.decode false body)) :=
      (Utf8.decodeFrom_fails false none body).bind (fun _ _ => Json.loads_fails _)
    cases ran : (do Json.loads (← Utf8.decode false body) : Except Exc Value) with
    | ok v => simp
    | error e =>
        have unreadable := fails e ran
        unfold Json.Unreadable at unreadable
        simp only [List.mem_cons, List.not_mem_nil, or_false] at unreadable
        have caught : e.isA [.valueError, .unicodeDecodeError] = true ↔ e.cls ≠ .runtimeError := by
          unfold Exc.isA
          rcases unreadable with is | is | is | is
          all_goals
            rw [is]
            simp [ExcClass.isSubclass]
        simp only [empty, false_or, Except.error.injEq, forall_eq', ← caught]
        by_cases known : e.isA [.valueError, .unicodeDecodeError] = true
        · simp [known]
        · simp [known]

theorem verify_ends {presented : Value} {expected : Str} :
    Ends (Tokens.verify presented (some expected)) ↔ Comparable presented expected := by
  have encode_ends : ∀ v : Value, Ends (Tokens.encode v) ↔ Encodable v := by
    intro v
    constructor
    · rintro ⟨s, encoded⟩
      exact ⟨s, Tokens.encode_ok.mp encoded⟩
    · rintro ⟨s, encoded⟩
      exact ⟨s, Tokens.encode_ok.mpr encoded⟩
  unfold Tokens.verify Comparable
  by_cases falsy : presented.truthy = false
  · rw [if_pos falsy]
    simp [falsy]
  · rw [if_neg falsy]
    rw [Bool.not_eq_false] at falsy
    simp only [falsy, forall_true_left, ends_bind, pure_ok, ends_ok, and_true]
    rw [← encode_ends, ← encode_ends]
    constructor
    · rintro ⟨left, first, right, second⟩
      exact ⟨⟨left, first⟩, right, second⟩
    · rintro ⟨⟨left, first⟩, right, second⟩
      exact ⟨left, first, right, second⟩

/-- The search for a stored token ends exactly if the presented one can be compared with each of
them, up to the one it is. -/
theorem firstVerified_ends {presented : Value} {tokens : List Str} :
    Ends (Registry.firstVerified presented tokens) ↔
      ∀ front expected back, tokens = front ++ expected :: back →
        presented ∉ front.map Value.str → Comparable presented expected := by
  induction tokens with
  | nil => simp [Registry.firstVerified]
  | cons first rest ih =>
      unfold Registry.firstVerified
      cases verified : Tokens.verify presented (some first) with
      | error e =>
          have loose : ¬ Comparable presented first := by
            rw [← verify_ends, verified]
            exact ends_error e
          simp only [ends_error, false_iff]
          intro each
          exact loose (each [] first rest rfl (by simp))
      | ok answer =>
          have here : Comparable presented first := verify_ends.mp ⟨answer, verified⟩
          cases answer with
          | true =>
              obtain ⟨same, -⟩ := Tokens.verify_true.mp verified
              simp only [ends_ok, true_iff]
              intro front expected back split outside
              cases front with
              | nil =>
                  cases split
                  exact here
              | cons token front =>
                  cases split
                  exact absurd (by simp [same]) outside
          | false =>
              dsimp only
              rw [ih]
              constructor
              · intro later front expected back split outside
                cases front with
                | nil =>
                    cases split
                    exact here
                | cons token front =>
                    cases split
                    rw [List.map_cons, List.mem_cons, not_or] at outside
                    exact later front expected back rfl outside.2
              · intro each front expected back split outside
                by_cases own : presented = .str first
                · -- a stored token that is presented and does not verify is no text to compare
                  intro truthy
                  obtain ⟨encodable, -⟩ := here truthy
                  obtain ⟨s, text, clear⟩ := encodable
                  have same : s = first := by
                    rw [own] at text
                    exact (Value.str.inj text).symm
                  subst same
                  have filled : s ≠ [] := by
                    rintro rfl
                    rw [own] at truthy
                    cases truthy
                  rw [Tokens.verify_true.mpr ⟨own, filled, clear⟩] at verified
                  cases verified
                · refine each (first :: front) expected back (by rw [split]; rfl) ?_
                  rw [List.map_cons, List.mem_cons, not_or]
                  exact ⟨own, outside⟩

section

variable {now : Clock} {minted : Str} {s : HubState}

/-- An answer that changes nothing. -/
theorem documented_sent {reply : Reply} (known : reply.code ∈ documented) :
    Documented s.memory (.sent reply, s) :=
  ⟨⟨reply, rfl, known⟩, fun changed => absurd rfl changed⟩

/-- With saves that go through, a locked step is answered exactly if it ends. -/
theorem locked_documented {fn : Registry → Except Exc (Option (List (Str × Value)) × Registry)}
    (refuses : ∀ reg, fn s.memory = .ok (none, reg) → reg = s.memory) :
    Documented s.memory (respond (withRegistry none s fn).1, (withRegistry none s fn).2) ↔
      Ends (fn s.memory) := by
  unfold withRegistry
  cases ran : fn s.memory with
  | error e =>
      simp only [ends_error, iff_false]
      rintro ⟨⟨reply, sent, -⟩, -⟩
      cases sent
  | ok outcome =>
      obtain ⟨result, reg⟩ := outcome
      simp only [ends_ok, iff_true]
      cases result with
      | none =>
          have kept := refuses reg ran
          subst kept
          exact documented_sent (by decide)
      | some payload => exact ⟨⟨_, rfl, by simp [documented]⟩, fun _ => ⟨payload, rfl⟩⟩

/-- An enroll request that names its runner, under a repository that is no text. -/
def RepoTrips (data : Value) : Prop :=
  ∃ fields name, data = .dict fields ∧ Dict.get? fields "runner_name" = some (.str name) ∧
    name ≠ [] ∧ (getOr fields "repo" (.str [])).isStr = false

theorem readEnroll_cases (data : Value) :
    (RepoTrips data ∧ ∃ e, readEnroll data = .inl (.dropped e)) ∨
      ¬ RepoTrips data ∧ ((∃ detail, readEnroll data = .inl (.sent (badRequest detail))) ∨
        ∃ request, readEnroll data = .inr request) := by
  cases data with
  | dict fields =>
      have trips : RepoTrips (.dict fields) ↔ ∃ name,
          Dict.get? fields "runner_name" = some (.str name) ∧ name ≠ [] ∧
            (getOr fields "repo" (.str [])).isStr = false := by
        constructor
        · rintro ⟨_, name, same, named, filled, loose⟩
          cases same
          exact ⟨name, named, filled, loose⟩
        · rintro ⟨name, named, filled, loose⟩
          exact ⟨fields, name, rfl, named, filled, loose⟩
      rw [trips]
      unfold readEnroll
      dsimp only
      split
      · rename_i name named
        split
        · rename_i empty
          refine Or.inr ⟨?_, Or.inl ⟨_, rfl⟩⟩
          rintro ⟨other, found, filled, -⟩
          rw [named] at found
          cases found
          exact filled empty
        · rename_i filled
          split
          · rename_i repo text
            refine Or.inr ⟨?_, ?_⟩
            · rintro ⟨other, -, -, loose⟩
              rw [text] at loose
              cases loose
            · split
              · exact Or.inl ⟨_, rfl⟩
              · split
                · exact Or.inl ⟨_, rfl⟩
                · exact Or.inr ⟨_, rfl⟩
          · rename_i other
            refine Or.inl ⟨⟨name, named, filled, ?_⟩, _, rfl⟩
            cases repo : getOr fields "repo" (.str []) with
            | str text => exact absurd repo (other text)
            | _ => rfl
      · rename_i unnamed
        refine Or.inr ⟨?_, Or.inl ⟨_, rfl⟩⟩
        rintro ⟨name, named, -⟩
        exact unnamed name named
  | _ =>
      refine Or.inr ⟨?_, Or.inl ⟨_, rfl⟩⟩
      rintro ⟨fields, name, same, -⟩
      cases same

theorem enroll_documented_iff (data : Value) :
    Documented s.memory (handleEnroll ⟨now, minted, none⟩ s data) ↔ EnrollTexts s.memory data := by
  have repo_iff : (∀ fields name, data = .dict fields →
      Dict.get? fields "runner_name" = some (.str name) → name ≠ [] →
        (getOr fields "repo" (.str [])).isStr = true) ↔ ¬ RepoTrips data := by
    constructor
    · rintro texts ⟨fields, name, same, named, filled, loose⟩
      rw [texts fields name same named filled] at loose
      cases loose
    · intro clear fields name same named filled
      by_contra loose
      exact clear ⟨fields, name, same, named, filled, by simpa using loose⟩
  have answered : ∀ reply : Reply, reply.code ∈ documented →
      (∀ request, probeEnroll s.memory data ≠ .inr request) →
        probeEnroll s.memory data = .inl (.sent reply) → ¬ RepoTrips data →
          (Documented s.memory (handleEnroll ⟨now, minted, none⟩ s data) ↔
            EnrollTexts s.memory data) := by
    intro reply known stopped probed clear
    unfold handleEnroll
    rw [probed]
    constructor
    · intro _
      exact ⟨repo_iff.mpr clear, fun request passed => absurd passed (stopped request)⟩
    · intro _
      exact documented_sent known
  rcases readEnroll_cases data with ⟨trips, e, read⟩ | ⟨clear, ⟨detail, read⟩ | ⟨request, read⟩⟩
  · have probed : probeEnroll s.memory data = .inl (.dropped e) := by
      unfold probeEnroll
      rw [read]
    constructor
    · rintro ⟨⟨reply, sent, -⟩, -⟩
      unfold handleEnroll at sent
      rw [probed] at sent
      cases sent
    · intro texts
      exact absurd trips (repo_iff.mp texts.repo)
  · have probed : probeEnroll s.memory data = .inl (.sent (badRequest detail)) := by
      unfold probeEnroll
      rw [read]
    exact answered _ (by simp [badRequest, documented]) (by simp [probed]) probed clear
  · cases found : s.memory.findRunner (.str request.runnerName) with
    | some row =>
        have probed : probeEnroll s.memory data = .inl (.sent alreadyEnrolled) := by
          unfold probeEnroll
          rw [read]
          dsimp only
          rw [found]
        exact answered _ (by decide) (by simp [probed]) probed clear
    | none =>
        have probed : probeEnroll s.memory data = .inr request := by
          unfold probeEnroll
          rw [read]
          dsimp only
          rw [found]
        have locked := @locked_documented s (doEnroll ⟨now, minted, none⟩ request)
          (fun reg ran => doEnroll_none ran)
        have ends_iff : Ends (doEnroll ⟨now, minted, none⟩ request s.memory) ↔
            Ends (Registry.firstVerified request.presented s.memory.enrollmentTokens) := by
          unfold doEnroll Registry.consumeEnrollmentToken
          cases Registry.firstVerified request.presented s.memory.enrollmentTokens with
          | error e => simp
          | ok taken => cases taken <;> simp
        unfold handleEnroll
        rw [probed]
        refine locked.trans ?_
        rw [ends_iff, firstVerified_ends]
        constructor
        · intro comparable
          refine ⟨repo_iff.mpr clear, ?_⟩
          intro request' passed
          rw [probed] at passed
          cases passed
          exact comparable
        · intro texts
          exact texts.token request probed

/-- Heartbeats and revocations end exactly if their token can be compared. -/
theorem verifyHeartbeatToken_ends {reg : Registry} {name presented : Value} :
    Ends (reg.verifyHeartbeatToken name presented) ↔ ∀ runner,
      reg.findRunner name = some runner → runner.enrolled = true →
        Comparable presented runner.heartbeatToken := by
  unfold Registry.verifyHeartbeatToken
  cases reg.findRunner name with
  | none => simp
  | some runner =>
      by_cases live : runner.enrolled = true
      · simp [live, verify_ends]
      · simp [live]

theorem tokenTexts_dict {reg : Registry} {fields : List (Str × Value)} :
    TokenTexts reg (.dict fields) ↔ ∀ runner,
      reg.findRunner (getOr fields "runner_name" (.str [])) = some runner → runner.enrolled = true →
        Comparable (getOr fields "heartbeat_token" (.str [])) runner.heartbeatToken := by
  constructor
  · intro texts runner
    exact texts fields runner rfl
  · rintro texts _ runner ⟨⟩
    exact texts runner

theorem heartbeat_documented_iff (data : Value) :
    Documented s.memory (handleHeartbeat ⟨now, minted, none⟩ s data) ↔ TokenTexts s.memory data := by
  cases data with
  | dict fields =>
      rw [tokenTexts_dict, ← verifyHeartbeatToken_ends]
      refine (locked_documented (fun reg ran => doHeartbeat_none ran)).trans ?_
      unfold doHeartbeat
      cases s.memory.verifyHeartbeatToken _ _ with
      | error e => simp
      | ok verified => cases verified <;> simp
  | _ => exact iff_of_true (documented_sent (by decide)) (fun fields runner same => by cases same)

theorem revoke_documented_iff (data : Value) :
    Documented s.memory (handleRevoke ⟨now, minted, none⟩ s data) ↔ TokenTexts s.memory data := by
  cases data with
  | dict fields =>
      rw [tokenTexts_dict, ← verifyHeartbeatToken_ends]
      refine (locked_documented (fun reg ran => doRevoke_none ran)).trans ?_
      unfold doRevoke
      cases s.memory.verifyHeartbeatToken _ _ with
      | error e => simp
      | ok verified => cases verified <;> simp
  | _ => exact iff_of_true (documented_sent (by decide)) (fun fields runner same => by cases same)

end

namespace Numbered

def body : Value := .dict [("heartbeat_token", .int 5), ("runner_name", .str "r")]

theorem exact_ : Json.Exact body := by
  refine .dict fun kv member => ?_
  simp only [List.mem_cons, List.not_mem_nil, or_false] at member
  rcases member with rfl | rfl
  · exact .int (by simp [Json.Int64])
  · exact .str _

theorem read : readJson (Utf8.ascii (Json.dumps body)) = .ok body := by
  have filled : Utf8.ascii (Json.dumps body) ≠ [] := by
    intro empty
    cases empty
  unfold readJson
  have decoded : Json.decoded body = body := by decide +kernel
  rw [if_neg filled, Utf8.decode_ascii (Json.ascii_dumps body), ok_bind, Json.loads_dumps exact_,
    decoded]

end Numbered

end DevGate.Hub
