import DevGate.Coherence.AttestSeal
import DevGate.Coherence.RunWrites

set_option autoImplicit false

/- What a run may authorize: the semantics that its request asks for, that its context is issued
with, and that its result carries. -/
namespace DevGate.Run

open Py

def freshPromotion : Value := .str "fresh-promotion"

def replay : Value := .str "replay"

/-- The semantics of the request. -/
def asked (d : Decided) : Value := (Dict.get? d.annotated.request "semantics").getD .null

/-- The semantics of the context. -/
def issued (d : Decided) : Value := semanticsOf d.annotated.inputs.context

/-- The semantics that the result carries. -/
def carried (d : Decided) : Except Exc (Option Value) := d.result.get "semantics"

/-- The result authorizes no more than the request and the context do. -/
structure Bounded (p : Printer) (b : Bench) (d : Decided) (world : World) : Prop where
  labelled : asked d = replay → carried d = .ok (some replay)
  unsigned : asked d = replay → ∀ new, (finish p b d world).2.log = world.log ++ new →
    ∀ write ∈ new, write.1.name ≠ "attestation.json"
  permissive : carried d = .ok (some freshPromotion) → asked d = freshPromotion ∧
    issued d = freshPromotion

theorem asked_cases {p : Printer} {b : Bench} {parent : Str} {req : Value} {d : Decided}
    {world last : World} (run : Concluded p b parent req d world last) :
    asked d = freshPromotion ∨ asked d = replay := by
  obtain ⟨-, accepted⟩ := accept_ok run.accepted
  obtain ⟨v, found, inner⟩ := accepted.field "semantics" (by decide) rfl
  obtain ⟨name, listed, rfl⟩ := Schemacheck.accepts_names inner
  unfold asked
  rw [found]
  simp only [List.mem_cons, List.not_mem_nil, or_false] at listed
  rcases listed with rfl | rfl
  · exact Or.inl rfl
  · exact Or.inr rfl

/-- A result carries the semantics of the context. -/
theorem carried_eq {p : Printer} {b : Bench} {parent : Str} {req : Value} {d : Decided}
    {world last : World} (run : Concluded p b parent req d world last) :
    carried d = .ok (some (issued d)) := by
  obtain ⟨refs, stage, -, -, built⟩ := run.built.made
  obtain ⟨kvs, same, fields⟩ := Attest.build_ok built
  unfold carried
  rw [same, Value.get_dict, fields.semantics]
  rfl

/-- Under a context of replays nothing is signed. -/
theorem writes_finish {p : Printer} {b : Bench} {d : Decided} (replayed : issued d = replay) :
    Act.Writes (fun write => write.1.name ≠ "attestation.json") (finish p b d) := by
  have labelled : Attest.getOr (.dict d.annotated.inputs.context) "semantics" (.str "fresh-promotion") =
      .ok replay := by
    rw [← replayed]
    rfl
  have other : ∀ write : Path × Bytes, Named ["result.json", "run-envelope.json"] write →
      write.1.name ≠ "attestation.json" := by
    intro write named same
    unfold Named at named
    rw [same] at named
    exact absurd named (by decide)
  have aside : ∀ write : Path × Bytes, ¬ Named runFiles write → write.1.name ≠ "attestation.json" := by
    intro write unnamed same
    apply unnamed
    unfold Named
    rw [same]
    decide
  refine Act.Writes.bind ?_ (fun sealed_ => ?_)
  · refine Act.Writes.catching ?_ (fun e => ?_)
    · exact ((Attest.writes_sealRun_unsigned labelled rfl).mono other).bind
        (fun _ => Act.Writes.pure _)
    · exact ((Result.writes_fail _ _ _ _ _ _ _).mono
        (fun write named => other write (named.mono (by simp)))).bind (fun _ => Act.Writes.pure _)
  · cases sealed_ with
    | error code => exact Act.Writes.pure _
    | ok code => exact ((writes_emitDecisionClaim p d).mono aside).bind (fun _ => Act.Writes.pure _)

/-- A result authorizes no more than was asked exactly where a replay is asked for under a context
of replays. -/
theorem bounded_iff {p : Printer} {b : Bench} {parent : Str} {req : Value} {d : Decided}
    {world last : World} (ran : concluded p b parent req world = (.ok (.ok d), last)) :
    Bounded p b d last ↔ (asked d = replay → issued d = replay) := by
  have run := concluded_ok ran
  have same := carried_eq run
  constructor
  · intro bounded replays
    have labelled := bounded.labelled replays
    rw [same] at labelled
    exact Option.some.inj (Except.ok.inj labelled)
  · intro bound
    constructor
    · intro replays
      rw [same, bound replays]
    · intro replays new log write inside
      obtain ⟨new', log', each⟩ := writes_finish (p := p) (b := b) (bound replays) last
      rw [log'] at log
      rw [← List.append_cancel_left log] at inside
      exact each write inside
    · intro fresh
      rw [same] at fresh
      have issued_ := Option.some.inj (Except.ok.inj fresh)
      refine ⟨(asked_cases run).resolve_right (fun replays => ?_), issued_⟩
      rw [bound replays] at issued_
      exact absurd issued_ (by decide)

/-- The pilot asks for a replay under a context of fresh promotion. -/
theorem bounded_iff_pilot : ∃ d last,
    concluded Pilot.printer Pilot.bench "/run" Pilot.request ⟨[], [], []⟩ = (.ok (.ok d), last) ∧
      (Bounded Pilot.printer Pilot.bench d last ↔ (asked d = replay → issued d = replay)) := by
  obtain ⟨d, last, ran, -, -⟩ := ends_iff.mp Pilot.ends
  exact ⟨d, last, ran, bounded_iff ran⟩

end DevGate.Run
