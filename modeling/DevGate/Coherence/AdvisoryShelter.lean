import DevGate.Coherence.AdoptionExplained
import DevGate.Coherence.Run
import DevGate.Py.Rounding

set_option autoImplicit false

/- When the central age cap ends the advisory shelter of a repository. -/
namespace Py

/-- A bound that is below a number by more than a unit is below its double. -/
theorem Flt.lt_double {a q : Rat} (normal : (2 : Rat) ^ (-1022 : Int) ≤ q)
    (below : a < q * (1 - Json.unit)) : (Flt.fin a).lt (Json.double q) = true := by
  rcases Json.double_ge normal with infinite | ⟨v, rounded, near⟩
  · rw [infinite]
    rfl
  · rw [rounded, Flt.lt, decide_eq_true_eq]
    linarith

/-- The day count of a difference is past `cap` days where the difference is, unless the cap is so
long that a microsecond is lost in it. -/
theorem age_exceeds {micros : Int} {cap : Nat} (some_ : cap ≠ 0) (short : cap ≤ 52124)
    (late : (cap : Int) * Datetime.dayMicros < micros) :
    ((totalSeconds micros).div DevGate.Report.day).exceeds (.int cap) = .ok true := by
  have one : (1 : Rat) ≤ cap := by exact_mod_cast Nat.one_le_iff_ne_zero.mpr some_
  have bound : (cap : Rat) ≤ 52124 := by exact_mod_cast short
  have more : (cap : Rat) * 86400000000 + 1 ≤ micros := by
    unfold Datetime.dayMicros at late
    exact_mod_cast late
  have unitIs : Json.unit = 1 / 9007199254740992 := by norm_num [Json.unit]
  have tiny : (2 : Rat) ^ (-1022 : Int) ≤ 1 / 2 := by
    rw [show (1 / 2 : Rat) = 2 ^ (-1 : Int) by norm_num]
    exact zpow_le_zpow_right₀ (by norm_num) (by norm_num)
  have seconds : (2 : Rat) ^ (-1022 : Int) ≤ micros / 1000000 := le_trans tiny (by linarith)
  have answer : ∀ x : Flt, (Flt.fin cap).lt x = true → x.exceeds (.int cap) = .ok true := by
    intro x above
    unfold Flt.exceeds Value.num?
    simpa using above
  apply answer
  unfold totalSeconds
  rcases Json.double_ge seconds with infinite | ⟨v, rounded, near⟩
  · rw [infinite]
    rfl
  · rw [rounded]
    rw [unitIs] at near
    apply Flt.lt_double
    · refine le_trans tiny ?_
      unfold DevGate.Report.day
      push_cast
      linarith
    · rw [unitIs]
      unfold DevGate.Report.day
      push_cast
      linarith

end Py

namespace DevGate.Run

open Py
open Context (checkContext)

/-- The days that the bundle lets a renewal add. -/
def renewalDays (esc : Dict Str Value) : Int :=
  (((Dict.get? esc "renewal").bind (fun r => r.field? "max_extension_days")).bind
    Value.int?).getD 0

/-- The bundle declares an age cap and a blocking escalation. -/
structure Bounds (pol : Dict Str Value) (cap extension : Nat) : Prop where
  capped : ∃ stages, Dict.get? pol "stages" = some (.dict stages) ∧
    Dict.get? stages "max_advisory_age_days" = some (.int cap)
  blocking : ∃ esc, Policy.checkAdvisoryEscalation (.dict pol) = .ok (.dict esc) ∧
    Dict.get? esc "on_expiry" = some (.str "block") ∧ renewalDays esc = extension

/-- A request and a context at the ratchet, later than the start, the cap and the renewal. -/
structure Overdue (env : Issue.Env) (doc : Value) (req pol ctx : Dict Str Value)
    (cap extension : Nat) (start now : Datetime) : Prop where
  bounds : Bounds pol cap extension
  request : Schemacheck.Accepts Schemacheck.request (.dict req)
  context : checkContext env doc = .ok ctx
  ratchet : ∃ stage, stageOf ctx = .ok stage ∧ 2 ≤ stage
  started : (Dict.get? (recordOf req) "advisory_started").map Policy.parse = some (.ok start)
  time : (Dict.get? ctx "evaluation_time").map Policy.parse = some (.ok now)
  late : start.instant + (cap + extension) * Datetime.dayMicros < now.instant

/-- The run evaluates adoption with the shelter ended, and shelters no finding. -/
def Withdrawn (req pol ctx : Dict Str Value) : Prop :=
  advisoryExpired req pol ctx = .ok true ∧
    ∀ disk ledger findings planned report,
      adopt disk req pol ctx ledger findings planned = .ok report →
        ∀ f ∈ report.findings, f.enforcement ≠ .advisory

/-- The request claims no expiry and the cap is measured, or it claims one that is reached. -/
def Held (req : Dict Str Value) (cap : Nat) (start now : Datetime) : Prop :=
  match Dict.get? (recordOf req) "advisory_expiry" with
  | none => cap ≠ 0 ∧ (cap ≤ 52124 ∨
      ((totalSeconds (now.instant - start.instant)).div Report.day).exceeds (.int cap) = .ok true)
  | some claimed => ∃ t, Policy.parse claimed = .ok t ∧ t.instant ≤ now.instant

theorem adopt_ok {disk : Disk} {req pol ctx : Dict Str Value} {ledger : List Evaluate.Row}
    {findings : List Finding} {planned : List Adoption.Planned} {report : Adoption.Report}
    (ran : adopt disk req pol ctx ledger findings planned = .ok report) :
    ∃ baseline exceptions ladder, advisoryExpired req pol ctx = .ok ladder.advisoryExpired ∧
      stageOf ctx = .ok ladder.stage ∧
      Adoption.evaluate ledger findings planned baseline exceptions ladder = .ok report := by
  unfold adopt at ran
  obtain ⟨_, -, ran⟩ := bind_ok.mp ran
  obtain ⟨_, -, ran⟩ := bind_ok.mp ran
  obtain ⟨_, -, ran⟩ := bind_ok.mp ran
  obtain ⟨⟨baseline, exceptions⟩, -, ran⟩ := bind_ok.mp ran
  obtain ⟨expired, verdict, ran⟩ := bind_ok.mp ran
  obtain ⟨_, -, ran⟩ := bind_ok.mp ran
  obtain ⟨core, -, ran⟩ := bind_ok.mp ran
  obtain ⟨stage, staged, ran⟩ := bind_ok.mp ran
  obtain ⟨_, -, ran⟩ := bind_ok.mp ran
  obtain ⟨time, -, ran⟩ := bind_ok.mp ran
  obtain ⟨floors, -, ran⟩ := bind_ok.mp ran
  exact ⟨_, _, _, verdict, staged, ran⟩

/-- From the ratchet on, a finding is advisory only under a shelter that lasts. -/
theorem verdict_ne_advisory {ctx : Adoption.Context} (ratchet : 2 ≤ ctx.stage)
    (expired : ctx.advisoryExpired = true) (f : Finding) :
    Adoption.verdict ctx f ≠ .advisory := by
  have above : ¬ ctx.stage < 2 := by omega
  unfold Adoption.verdict
  simp only [above, expired, Bool.true_eq_false, false_and, and_false, ↓reduceIte]
  split
  · simp
  · split <;> simp

/-- Where the shelter has ended, adoption shelters nothing. -/
theorem adopt_shelters {disk : Disk} {req pol ctx : Dict Str Value} {ledger : List Evaluate.Row}
    {findings : List Finding} {planned : List Adoption.Planned} {report : Adoption.Report}
    {stage : Int} (staged : stageOf ctx = .ok stage) (ratchet : 2 ≤ stage)
    (expired : advisoryExpired req pol ctx = .ok true)
    (ran : adopt disk req pol ctx ledger findings planned = .ok report) :
    ∀ f ∈ report.findings, f.enforcement ≠ .advisory := by
  obtain ⟨baseline, exceptions, ladder, verdict, at_, ran⟩ := adopt_ok ran
  rw [expired] at verdict
  rw [staged] at at_
  obtain ⟨-, now, sorted, -, -, rfl⟩ := Adoption.evaluate_ok.mp ran
  rw [Adoption.climb_findings]
  intro f inside
  obtain ⟨g, -, rfl⟩ := List.mem_map.mp inside
  rw [Adoption.annotate_verdict]
  apply verdict_ne_advisory
  · show 2 ≤ ladder.stage
    rw [← Except.ok.inj at_]
    exact ratchet
  · exact (Except.ok.inj verdict).symm

/-- Without a claimed expiry the age is held against the cap. -/
theorem measure_unclaimed (cap : Nat) {ref start : Datetime} {started expiry : Value}
    (begun : Policy.parse started = .ok start) (comparable : ref.offset.isSome = start.offset.isSome)
    (unclaimed : expiry.truthy = false) :
    ∃ age, Report.measure (.int cap) ref started expiry = .ok age ∧ (age.expired = true ↔ cap ≠ 0 ∧
      ((totalSeconds (ref.instant - start.instant)).div Report.day).exceeds (.int cap) =
        .ok true) := by
  have apart : ref.sub start = .ok (ref.instant - start.instant) := by
    unfold Datetime.sub
    rw [if_pos comparable]
  unfold Report.measure
  rw [begun, ok_bind, apart, ok_bind]
  dsimp only
  rw [if_neg (by simp [unclaimed])]
  by_cases zero : cap = 0
  · subst zero
    exact ⟨_, rfl, by simp⟩
  · have capped : Value.truthy (.int cap) = true := by simpa [Value.truthy] using zero
    rw [if_pos capped]
    unfold Flt.exceeds Value.num?
    exact ⟨_, rfl, by simp [zero]⟩

/-- A claimed expiry decides alone, whatever the cap. -/
theorem measure_claimed (cap : Value) {ref start t : Datetime} {started expiry : Value}
    (begun : Policy.parse started = .ok start) (comparable : ref.offset.isSome = start.offset.isSome)
    (claimed : expiry.truthy = true) (ends : Policy.parse expiry = .ok t)
    (comparable' : t.offset.isSome = ref.offset.isSome) :
    ∃ age, Report.measure cap ref started expiry = .ok age ∧
      (age.expired = true ↔ t.instant ≤ ref.instant) := by
  have apart : ref.sub start = .ok (ref.instant - start.instant) := by
    unfold Datetime.sub
    rw [if_pos comparable]
  have reached : t.le ref = .ok (decide (t.instant ≤ ref.instant)) := by
    unfold Datetime.le
    rw [if_pos comparable']
  unfold Report.measure
  rw [begun, ok_bind, apart, ok_bind]
  dsimp only
  rw [if_pos claimed, ends, ok_bind, reached, ok_bind]
  exact ⟨_, rfl, by simp⟩

/-- A date of the repository record of an accepted request. -/
theorem record_date {req : Dict Str Value}
    (accepted : Schemacheck.Accepts Schemacheck.request (.dict req)) {key : Str}
    {v : Value} (found : Dict.get? (recordOf req) key = some v)
    (stated : Dict.get? Schemacheck.repository.properties key = some Schemacheck.dateTime) :
    ∃ t, Policy.parse v = .ok t ∧ t.offset.isSome = true ∧ v.truthy = true := by
  unfold recordOf at found
  cases there : Dict.get? req "repository" with
  | none => simp [there] at found
  | some record =>
      have inner : Schemacheck.Accepts Schemacheck.repository record :=
        accepted.lookup there rfl
      obtain ⟨kvs, rfl⟩ := Schemacheck.isType_object (inner.type rfl)
      rw [there] at found
      exact Policy.parse_dateTime (inner.lookup found stated)

namespace Overdue

variable {env : Issue.Env} {doc : Value} {req pol ctx : Dict Str Value} {cap extension : Nat}
  {start now : Datetime}

theorem ageCap (overdue : Overdue env doc req pol ctx cap extension start now) :
    Run.ageCap pol = .ok (.int cap) := by
  obtain ⟨stages, declared, capped⟩ := overdue.bounds.capped
  have filled : Value.truthy (.dict stages) = true := by
    cases stages with
    | nil => cases capped
    | cons kv rest => rfl
  have found : Policy.stages pol = .dict stages := by
    unfold Policy.stages
    rw [declared]
    simp only [Option.getD_some, filled, ↓reduceIte]
  unfold Run.ageCap
  rw [found, Value.get_dict, capped]
  rfl

/-- The evaluation time of a loaded context states its offset. -/
theorem clock (overdue : Overdue env doc req pol ctx cap extension start now) :
    now.offset.isSome = true ∧ ∃ v, Dict.get? ctx "evaluation_time" = some v ∧
      Policy.parse v = .ok now := by
  obtain ⟨v, found, parsed⟩ := Option.map_eq_some_iff.mp overdue.time
  obtain ⟨kvs, digest, rfl, accepted, -, -, rfl⟩ := Context.checkContext_ok overdue.context
  rw [Dict.get?_set_of_ne _ _ _ _ (by decide)] at found
  obtain ⟨t, parsed', aware, -⟩ := Policy.parse_dateTime (accepted.lookup found rfl)
  rw [parsed] at parsed'
  cases parsed'
  rw [Dict.get?_set_of_ne _ _ _ _ (by decide)]
  exact ⟨aware, v, found, parsed⟩

theorem begun (overdue : Overdue env doc req pol ctx cap extension start now) :
    start.offset.isSome = true ∧ ∃ v, Dict.get? (recordOf req) "advisory_started" = some v ∧
      Policy.parse v = .ok start ∧ v.truthy = true := by
  obtain ⟨v, found, parsed⟩ := Option.map_eq_some_iff.mp overdue.started
  obtain ⟨t, parsed', aware, filled⟩ :=
    record_date overdue.request found rfl
  rw [parsed] at parsed'
  cases parsed'
  exact ⟨aware, v, found, parsed, filled⟩

/-- The run holds the record against the cap, at the evaluation time. -/
theorem advisoryExpired_eq (overdue : Overdue env doc req pol ctx cap extension start now)
    {started : Value} (recorded : Dict.get? (recordOf req) "advisory_started" = some started)
    (filled : started.truthy = true) {age : Report.Age}
    (measured : Report.measure (.int cap) now started
      ((Dict.get? (recordOf req) "advisory_expiry").getD .null) = .ok age) :
    advisoryExpired req pol ctx = .ok age.expired := by
  obtain ⟨stage, staged, ratchet⟩ := overdue.ratchet
  obtain ⟨-, time, timed, parsed⟩ := overdue.clock
  obtain ⟨esc, escalation, blocking, -⟩ := overdue.bounds.blocking
  have timeItem : (Value.dict ctx).item "evaluation_time" = .ok time :=
    Value.item_ok.mpr ⟨ctx, rfl, timed⟩
  unfold stageOf at staged
  obtain ⟨held, stageItem, staged⟩ := bind_ok.mp staged
  have numbered : Attest.integral? held = some stage := by
    cases number : Attest.integral? held with
    | none => simp [number] at staged
    | some n => simpa [number] using staged
  have past : held.eq (.int 0) = false := by
    cases held with
    | int n =>
        rw [Attest.integral?, Option.some.injEq] at numbered
        have apart : n ≠ 0 := by omega
        simpa [Value.eq, Value.same, Value.num?] using apart
    | bool b =>
        cases b <;> cases numbered <;> omega
    | _ => cases numbered
  have stageHeld : Dict.get? (Dict.set (recordOf req) "stage" held) "stage" = some held :=
    Dict.get?_set_self _ _ _
  have startHeld : Dict.get? (Dict.set (recordOf req) "stage" held) "advisory_started" =
      some started := by
    rw [Dict.get?_set_of_ne _ _ _ _ (by decide), recorded]
  have expiryHeld : Dict.get? (Dict.set (recordOf req) "stage" held) "advisory_expiry" =
      Dict.get? (recordOf req) "advisory_expiry" :=
    Dict.get?_set_of_ne _ _ _ _ (by decide)
  have aged : Report.advisoryAge (Dict.set (recordOf req) "stage" held) (.int cap) time =
      .ok age := by
    unfold Report.advisoryAge
    rw [parsed, ok_bind, stageHeld, startHeld, expiryHeld]
    simp only [Option.getD_some, past, filled, ↓reduceIte, Bool.false_eq_true]
    exact measured
  unfold advisoryExpired
  rw [stageItem, ok_bind, overdue.ageCap, ok_bind, timeItem, ok_bind, aged, ok_bind, escalation,
    ok_bind, Value.get_dict, blocking, ok_bind]
  simp

end Overdue

/-- Past the cap and the renewal the shelter ends exactly where the request claims no later
expiry: its own claim outlives the cap, and no renewal limit is ever applied to it. -/
theorem withdrawn_iff {env : Issue.Env} {doc : Value} {req pol ctx : Dict Str Value}
    {cap extension : Nat} {start now : Datetime}
    (overdue : Overdue env doc req pol ctx cap extension start now) :
    Withdrawn req pol ctx ↔ Held req cap start now := by
  obtain ⟨stage, staged, ratchet⟩ := overdue.ratchet
  obtain ⟨aware, started, recorded, begun, filled⟩ := overdue.begun
  obtain ⟨aware', -⟩ := overdue.clock
  have late := overdue.late
  have reduced : Withdrawn req pol ctx ↔ advisoryExpired req pol ctx = .ok true := by
    constructor
    · exact fun withdrawn => withdrawn.1
    · intro expired
      exact ⟨expired, fun disk ledger findings planned report ran =>
        adopt_shelters staged ratchet expired ran⟩
  have comparable : now.offset.isSome = start.offset.isSome := by rw [aware, aware']
  rw [reduced]
  unfold Held
  cases claimed : Dict.get? (recordOf req) "advisory_expiry" with
  | none =>
      obtain ⟨age, measured, expired⟩ := measure_unclaimed cap begun comparable
        (show Value.truthy .null = false from rfl)
      rw [overdue.advisoryExpired_eq recorded filled (by rw [claimed]; exact measured),
        Except.ok.injEq, expired]
      constructor
      · intro ⟨some_, past⟩
        exact ⟨some_, Or.inr past⟩
      · intro ⟨some_, measurable⟩
        refine ⟨some_, ?_⟩
        rcases measurable with short | past
        · apply age_exceeds some_ short
          have later : (0 : Int) ≤ extension * Datetime.dayMicros := by
            unfold Datetime.dayMicros
            positivity
          rw [add_mul] at late
          linarith
        · exact past
  | some expiry =>
      obtain ⟨t, ends, aware'', truthy⟩ :=
        record_date overdue.request claimed rfl
      obtain ⟨age, measured, expired⟩ := measure_claimed (.int cap) begun comparable truthy
        ends (by rw [aware', aware''])
      rw [overdue.advisoryExpired_eq recorded filled (by rw [claimed]; exact measured),
        Except.ok.injEq, expired]
      constructor
      · exact fun reached => ⟨t, ends, reached⟩
      · rintro ⟨t', ends', reached⟩
        rw [ends] at ends'
        cases ends'
        exact reached

/-- No control-plane key is configured. -/
def keyless : Issue.Env := ⟨none, none⟩

def zeroDigest : Str := "sha256:" ++ List.replicate 64 (Chr.ofChar '0')

/-- A context at the ratchet, evaluated half a year into 2026. -/
def ratchetContext : Value :=
  .dict [("api_version", .str Schemacheck.contextVersion), ("context_id", .str "pilot"),
    ("evaluation_time", .str "2026-07-01T00:00:00Z"), ("stage", .int 2),
    ("policy_binding", .dict [("expected_digest", .str zeroDigest), ("min_bundle_epoch", .int 0),
      ("grandfathers", .list [])]),
    ("execution_profile", .str "linux-amd64-v1"),
    ("issuance", .dict [("issued_at", .str "2026-07-01T00:00:00Z"), ("issuer", .str "central")])]

def ratchetLoaded : Dict Str Value :=
  Dict.set (ratchetContext.dict?.getD []) "context_digest"
    (.str (Canon.digest .context (Utf8.ascii (Json.dumps ratchetContext))))

/-- A cap of 30 days, that a renewal may extend by 30 more. -/
def cappedBundle : Dict Str Value :=
  [("stages", .dict [("max_advisory_age_days", .int 30)]),
    ("advisory_escalation", .dict [("on_expiry", .str "block"),
      ("renewal", .dict [("requires", .str "central-approval"),
        ("max_extension_days", .int 30)])])]

def inputAt (root : Str) : Value :=
  .dict [("root", .str root), ("expected_digest", .str zeroDigest)]

/-- The request of a repository that has been advisory since the start of the year. -/
def advisoryRequest (record : Dict Str Value) : Dict Str Value :=
  [("api_version", .str Schemacheck.requestVersion), ("subject", inputAt "/subject"),
    ("openspec", inputAt "/openspec"), ("policy", inputAt "/policy"),
    ("context", inputAt "/context"),
    ("repository", .dict (("advisory_started", .str "2026-01-01T00:00:00Z") :: record)),
    ("semantics", .str "fresh-promotion"), ("outputs", .str "/out")]

def newYear : Datetime := ⟨63902908800000000, some 0⟩

def midYear : Datetime := ⟨63918547200000000, some 0⟩

def renewedByItself : Dict Str Value := [("advisory_expiry", .str "2099-01-01T00:00:00Z")]

theorem overdue_record {record : Dict Str Value}
    (accepted : Schemacheck.validate Schemacheck.request (.dict (advisoryRequest record)) "$" = []) :
    Overdue keyless ratchetContext (advisoryRequest record) cappedBundle ratchetLoaded 30 30
      newYear midYear where
  bounds := {
    capped := ⟨_, rfl, rfl⟩
    blocking := ⟨_, rfl, rfl, rfl⟩ }
  request := ⟨"$", accepted⟩
  context := by decide +kernel
  ratchet := ⟨2, rfl, by decide⟩
  started := by
    show some (Policy.parse (.str "2026-01-01T00:00:00Z")) = some (.ok newYear)
    decide +kernel
  time := by decide +kernel
  late := by decide

/-- A record without a claim is held against the cap. -/
theorem withdrawn_unclaimed : Withdrawn (advisoryRequest []) cappedBundle ratchetLoaded :=
  (withdrawn_iff (overdue_record (by decide +kernel))).mpr ⟨by decide, Or.inl (by decide)⟩

/-- The claim of the request itself keeps the shelter, months past the cap and any renewal. -/
theorem renewed_not_withdrawn :
    Overdue keyless ratchetContext (advisoryRequest renewedByItself) cappedBundle ratchetLoaded 30 30
      newYear midYear ∧
    ¬ Withdrawn (advisoryRequest renewedByItself) cappedBundle ratchetLoaded := by
  refine ⟨overdue_record (by decide +kernel), ?_⟩
  intro withdrawn
  have answer : advisoryExpired (advisoryRequest renewedByItself) cappedBundle ratchetLoaded =
      .ok false := by decide +kernel
  rw [withdrawn.1] at answer
  cases answer

end DevGate.Run
