import QCoin.Script.Encodings
import QCoin.Support.PanicFree

/-!
# Scripts which cannot panic

Errors of a script are values.  The interpreter only panics where it hashes
what a signature covers, if this is too long to be encoded.
-/

namespace QCoin

open Support
open Support.Result

/-! ## Gas and stack -/

theorem gasCost_panicFree (op : OpCode) (maxPushBytes : ℕ) :
    PanicFree (gasCost op maxPushBytes) := by
  cases op with
  | pushBytes data => exact (PanicFree.require _ _).bind fun _ _ => .pure _
  | _ => exact .ok _

theorem GasMeter.consume_panicFree (gas : GasMeter) (amount : UInt64) :
    PanicFree (gas.consume amount) :=
  .ite (fun _ => .err _) fun _ => .ok _

theorem Stack.push_panicFree (stack : Stack) (value : Bytes) :
    PanicFree (stack.push value) :=
  (PanicFree.require _ _).bind fun _ _ => .pure _

theorem Stack.pop_panicFree (stack : Stack) : PanicFree stack.pop := by
  rw [Stack.pop]
  cases stack.items with
  | nil => exact .err _
  | cons value items => exact .ok _

theorem liftCrypto_panicFree {α : Type} (context : String)
    (x : Except CryptoError α) : PanicFree (liftCrypto context x) := by
  cases x with
  | ok a => exact .ok a
  | error err => exact .err _

theorem popParsed_panicFree {κ : Type} {parse : Bytes → Result ScriptError κ}
    (hparse : ∀ bytes, PanicFree (parse bytes)) (n : ℕ) (stack : Stack) :
    PanicFree (popParsed parse n stack) := by
  induction n generalizing stack with
  | zero => exact .ok _
  | succ n ih =>
      refine stack.pop_panicFree.bind fun popped _ => ?_
      refine (hparse popped.1).bind fun key _ => ?_
      exact (ih popped.2).bind fun _ _ => .pure _

theorem popHeight_panicFree (malformed : String) (stack : Stack) :
    PanicFree (popHeight malformed stack) :=
  stack.pop_panicFree.bind fun _ _ =>
    (PanicFree.require _ _).bind fun _ _ => .pure _

/-! ## Opcodes -/

/-- The signature hash of the input can be computed: the core and the outputs
which the host knows can be encoded. -/
structure Encodable (ctx : ScriptContext) (host : ScriptHost) : Prop where
  core : ctx.tx.core.LengthsFit
  outputs : ∀ input resolved, host.inputUtxo input = some resolved →
    resolved.output.assets.length < 2 ^ 32

section Opcodes

variable [Blake3] [PqCrypto] {ctx : ScriptContext} {host : ScriptHost}

omit [PqCrypto] in
theorem inputSighash_panicFree (h : Encodable ctx host) :
    PanicFree (inputSighash ctx host) := by
  refine (PanicFree.okOr _ _).bind fun input _ => ?_
  refine (PanicFree.okOr _ _).bind fun prevOutput hresolved => .orPanic ?_
  have houtput := h.outputs input prevOutput (okOr_eq_ok.mp hresolved)
  rw [Transaction.sighash, Option.isSome_map, Transaction.sighashPreimage]
  simp [encodeAppend_isSome, encodeTxCore_isSome.mpr h.core,
    encodeOutput_isSome.mpr houtput]

theorem verifyInput_panicFree (h : Encodable ctx host) (failure : String)
    (publicKey : PublicKey) (signature : Signature) :
    PanicFree (verifyInput failure ctx host publicKey signature) :=
  (PanicFree.okOr _ _).bind fun _ _ =>
    (inputSighash_panicFree h).bind fun _ _ => liftCrypto_panicFree _ _

theorem verifyPaired_panicFree (h : Encodable ctx host)
    (pubkeys : List PublicKey) (idx : ℕ) (signatures : List Signature) :
    PanicFree (verifyPaired ctx host pubkeys idx signatures) := by
  induction signatures generalizing idx with
  | nil => exact .ok _
  | cons signature signatures ih =>
      refine (PanicFree.okOr _ _).bind fun publicKey _ => ?_
      exact (verifyInput_panicFree h _ publicKey signature).bind fun _ _ =>
        ih (idx + 1)

theorem checkSig_panicFree (h : Encodable ctx host) (stack : Stack) :
    PanicFree (checkSig ctx host stack) := by
  refine stack.pop_panicFree.bind fun popped _ => ?_
  refine popped.2.pop_panicFree.bind fun popped' _ => ?_
  refine (liftCrypto_panicFree _ _).bind fun publicKey _ => ?_
  refine (liftCrypto_panicFree _ _).bind fun signature _ => ?_
  exact (verifyInput_panicFree h _ publicKey signature).bind fun _ _ =>
    .pure _

theorem checkMultiSig_panicFree (h : Encodable ctx host)
    (threshold total : UInt8) (stack : Stack) :
    PanicFree (checkMultiSig threshold total ctx host stack) := by
  refine (PanicFree.require _ _).bind fun _ _ => ?_
  refine (popParsed_panicFree (fun _ => liftCrypto_panicFree _ _) _ _).bind ?_
  intro signatures _
  refine (popParsed_panicFree (fun _ => liftCrypto_panicFree _ _) _ _).bind ?_
  exact fun pubkeys _ => (verifyPaired_panicFree h _ _ _).bind fun _ _ =>
    .pure _

omit [Blake3] [PqCrypto] in
theorem checkTimeLock_panicFree (stack : Stack) :
    PanicFree (checkTimeLock ctx host stack) := by
  refine (popHeight_panicFree _ stack).bind fun _ _ => ?_
  exact (PanicFree.okOr _ _).bind fun _ _ =>
    (PanicFree.require _ _).bind fun _ _ => .pure _

omit [Blake3] [PqCrypto] in
theorem checkRelativeTimeLock_panicFree (stack : Stack) :
    PanicFree (checkRelativeTimeLock ctx host stack) := by
  refine (popHeight_panicFree _ stack).bind fun _ _ => ?_
  refine (PanicFree.okOr _ _).bind fun _ _ => ?_
  refine (PanicFree.okOr _ _).bind fun _ _ => ?_
  refine (PanicFree.okOr _ _).bind fun _ _ => ?_
  exact (PanicFree.okOr _ _).bind fun _ _ =>
    (PanicFree.require _ _).bind fun _ _ => .pure _

omit [PqCrypto] in
theorem checkHashLock_panicFree (stack : Stack) :
    PanicFree (checkHashLock stack) := by
  refine stack.pop_panicFree.bind fun popped _ => ?_
  refine popped.2.pop_panicFree.bind fun _ _ => ?_
  exact (PanicFree.require _ _).bind fun _ _ =>
    (PanicFree.require _ _).bind fun _ _ => .pure _

theorem runOp_panicFree (h : Encodable ctx host) (config : VmConfig)
    (stack : Stack) (op : OpCode) :
    PanicFree (runOp config ctx host stack op) := by
  cases op with
  | pushBytes data =>
      exact (PanicFree.require _ _).bind fun _ _ => stack.push_panicFree data
  | nop => exact .ok stack
  | checkSig => exact checkSig_panicFree h stack
  | checkMultiSig threshold total =>
      exact checkMultiSig_panicFree h threshold total stack
  | checkTimeLock => exact checkTimeLock_panicFree stack
  | checkRelativeTimeLock => exact checkRelativeTimeLock_panicFree stack
  | checkHashLock => exact checkHashLock_panicFree stack

theorem Vm.step_panicFree (h : Encodable ctx host) (config : VmConfig)
    (vm : Vm) (op : OpCode) : PanicFree (vm.step config ctx host op) :=
  (gasCost_panicFree op _).bind fun _ _ =>
    (vm.gas.consume_panicFree _).bind fun _ _ =>
      (runOp_panicFree h config vm.stack op).bind fun _ _ => .pure _

/-- Only the signature hash can panic in the interpreter. -/
theorem deterministicScriptEngine_panicFree (h : Encodable ctx host)
    (config : VmConfig) (script : Script) :
    PanicFree (deterministicScriptEngine config script ctx host) := by
  refine (PanicFree.require _ _).bind fun _ _ => ?_
  refine PanicFree.bind ?_ fun _ _ => .pure _
  exact .foldlM (fun _ => True) trivial
    (fun op _ vm _ => vm.step_panicFree h config op)
    fun _ _ _ _ _ _ => trivial

end Opcodes

end QCoin
