import QCoin.Script.Gas
import QCoin.Script.Opcodes

/-!
# What an evaluation depends on

A script sees of its surroundings the hash which signatures have to cover, the
creation height of its input and the current height.  Success survives any
change which leaves the first two alone and does not lower the third.
-/

namespace QCoin

open Support
open Support.Result

section Views

variable [Blake3] [PqCrypto]

/-- The primed view resolves the current input alike and is no earlier. -/
structure ViewLe (ctx ctx' : ScriptContext) (host host' : ScriptHost) :
    Prop where
  sighash : inputSighash ctx' host' = inputSighash ctx host
  created : inputCreatedHeight ctx' host' = inputCreatedHeight ctx host
  height : ∀ current ∈ lockHeight ctx host,
    ∃ current' ∈ lockHeight ctx' host', current ≤ current'

variable {config : VmConfig} {ctx ctx' : ScriptContext}
  {host host' : ScriptHost}

theorem ViewLe.verifies (h : ViewLe ctx ctx' host host')
    {publicKey : PublicKey} {signature : Signature} :
    Verifies ctx' host' publicKey signature ↔
      Verifies ctx host publicKey signature := by
  simp only [Verifies, h.sighash]

omit [PqCrypto] in
/-- A height which passes a lock passes it ever after. -/
theorem ViewLe.lockOpen (h : ViewLe ctx ctx' host host') {lock : UInt64}
    (hopen : ∃ current ∈ lockHeight ctx host, ¬current < lock) :
    ∃ current ∈ lockHeight ctx' host', ¬current < lock := by
  obtain ⟨current, hcurrent, hlock⟩ := hopen
  obtain ⟨current', hcurrent', hle⟩ := h.height current hcurrent
  rw [UInt64.not_lt] at hlock
  exact ⟨current', hcurrent', UInt64.not_lt.mpr (UInt64.le_trans hlock hle)⟩

theorem ViewLe.demand (h : ViewLe ctx ctx' host host') {stack : Stack}
    {op : OpCode} (hdemand : op.Demand config ctx host stack) :
    op.Demand config ctx' host' stack := by
  cases op with
  | checkSig =>
      obtain ⟨signatureBytes, publicKeyBytes, rest, signature, publicKey,
        hitems, hsignature, hpublicKey, hverifies⟩ := hdemand
      exact ⟨signatureBytes, publicKeyBytes, rest, signature, publicKey,
        hitems, hsignature, hpublicKey, h.verifies.mpr hverifies⟩
  | checkMultiSig threshold total =>
      obtain ⟨hpositive, henough, hpresent, signatures, publicKeys,
        hsignatures, hpublicKeys, hverifies⟩ := hdemand
      refine ⟨hpositive, henough, hpresent, signatures, publicKeys,
        hsignatures, hpublicKeys, fun i signature hsignature => ?_⟩
      obtain ⟨publicKey, hkey, hkeyVerifies⟩ := hverifies i signature hsignature
      exact ⟨publicKey, hkey, h.verifies.mpr hkeyVerifies⟩
  | checkTimeLock =>
      obtain ⟨bytes, hbytes, hlength, hopen⟩ := hdemand
      exact ⟨bytes, hbytes, hlength, h.lockOpen hopen⟩
  | checkRelativeTimeLock =>
      obtain ⟨bytes, hbytes, hlength, created, hcreated, hopen⟩ := hdemand
      rw [← h.created] at hcreated
      exact ⟨bytes, hbytes, hlength, created, hcreated, h.lockOpen hopen⟩
  | checkHashLock => exact hdemand
  | pushBytes data => exact hdemand
  | nop => exact hdemand

theorem ViewLe.run (h : ViewLe ctx ctx' host host') {ops : List OpCode}
    {stack stack' : Stack}
    (hrun : ops.foldlM (runOp config ctx host) stack = .ok stack') :
    ops.foldlM (runOp config ctx' host') stack = .ok stack' := by
  induction ops generalizing stack with
  | nil =>
      rw [List.foldlM_nil] at hrun ⊢
      exact hrun
  | cons op ops ih =>
      rw [List.foldlM_cons, bind_eq_ok] at hrun ⊢
      obtain ⟨mid, hmid, hrest⟩ := hrun
      obtain ⟨hdemand, hstack⟩ := runOp_eq_ok.mp hmid
      exact ⟨mid, runOp_eq_ok.mpr ⟨h.demand hdemand, hstack⟩, ih hrest⟩

/-- The evaluation succeeds in the later view, for the same gas. -/
theorem ViewLe.eval (h : ViewLe ctx ctx' host host') {script : Script}
    {result : ScriptResult}
    (heval : deterministicScriptEngine config script ctx host = .ok result) :
    deterministicScriptEngine config script ctx' host' = .ok result := by
  obtain ⟨hlength, prices, stack, hprices, hrun, hgas, hresult⟩ :=
    deterministicScriptEngine_eq_ok.mp heval
  exact deterministicScriptEngine_eq_ok.mpr
    ⟨hlength, prices, stack, hprices, h.run hrun, hgas, hresult⟩

end Views

end QCoin
