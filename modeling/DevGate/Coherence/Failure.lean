import DevGate.Coherence.Result

set_option autoImplicit false

/- `_fail` of hub/coherence/__main__.py and of container_exec.py: an error envelope, and the exit
code of its class. -/
namespace DevGate.Result

open Py Canon Evaluate

/-- Write the envelope, and answer the code of its class. -/
def fail (p : Printer) (outDir errorClass : Str) (reason : Text) (stage : Str) (ids : Identities)
    (ledger : Option (List Row)) : Act Int := do
  let payload ← Act.ofExcept (canon (errorEnvelope p errorClass (p.render reason) stage ids ledger))
  let _ ← emitWithFallback outDir payload
  return (decide [] 0 (some errorClass) none).2

theorem fail_code {p : Printer} {outDir errorClass stage : Str} {reason : Text} {ids : Identities}
    {ledger : Option (List Row)} {world last : World} {code : Int}
    (ran : fail p outDir errorClass reason stage ids ledger world = (.ok code, last)) :
    code = (decide [] 0 (some errorClass) none).2 := by
  obtain ⟨_, _, -, ran⟩ := Act.bind_ok.mp ran
  obtain ⟨_, _, -, ran⟩ := Act.bind_ok.mp ran
  cases ran
  rfl

end DevGate.Result
