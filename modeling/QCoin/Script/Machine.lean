import QCoin.Support.Outcome
import QCoin.Types.ConsensusCodec

/-!
# The script machine

The stack machine of `qcoin-script`: opcodes, gas metering, the bounded stack
and `DeterministicScriptEngine`.
-/

namespace QCoin

open Support
open Support.Result

inductive OpCode where
  | checkSig
  | checkMultiSig (threshold total : UInt8)
  | checkTimeLock
  | checkRelativeTimeLock
  | checkHashLock
  | pushBytes (data : Bytes)
  | nop
deriving DecidableEq, Repr

structure Script where
  ops : List OpCode
deriving DecidableEq, Repr

structure ScriptContext where
  tx : Transaction
  inputIndex : ℕ
  currentHeight : Option UInt64
  chainId : UInt32
  scriptHash : Hash256

inductive ScriptError where
  | evaluation (message : String)
  | outOfGas
  | stackUnderflow
  | stackOverflow
  | scriptTooLarge
deriving DecidableEq, Repr

structure VmConfig where
  maxGas : UInt64
  maxStackItems : ℕ
  maxPushBytes : ℕ
  maxScriptLen : ℕ
deriving DecidableEq, Repr

def VmConfig.default : VmConfig where
  maxGas := 50000
  maxStackItems := 1024
  maxPushBytes := 4 * 1024
  maxScriptLen := 2048

structure ScriptResult where
  gasConsumed : UInt64
deriving DecidableEq, Repr

structure ResolvedInput where
  output : Output
  createdHeight : Option UInt64
deriving DecidableEq

structure ScriptHost where
  currentHeight : Option UInt64
  inputUtxo : TransactionInput → Option ResolvedInput

abbrev ScriptEngine :=
  Script → ScriptContext → ScriptHost → Result ScriptError ScriptResult

/-! ## Script encoding -/

def encodeOpCode : Encoder OpCode
  | .checkSig => some [0]
  | .checkMultiSig threshold total => some [1, threshold, total]
  | .checkTimeLock => some [2]
  | .checkRelativeTimeLock => some [3]
  | .checkHashLock => some [4]
  | .pushBytes data =>
      encodeAppend (some [5])
        (encodeAppend (encodeLen data.length) (some data))
  | .nop => some [6]

def encodeScript : Encoder Script := fun script =>
  encodeVec encodeOpCode script.ops

/-! ## Gas -/

structure GasMeter where
  remaining : UInt64
  limit : UInt64
deriving DecidableEq, Repr

namespace GasMeter

def new (limit : UInt64) : GasMeter := ⟨limit, limit⟩

def consume (gas : GasMeter) (amount : UInt64) : Result ScriptError GasMeter :=
  if gas.remaining < amount then .error (.err .outOfGas)
  else .ok { gas with remaining := gas.remaining - amount }

def used (gas : GasMeter) : UInt64 := gas.limit - gas.remaining

end GasMeter

def BASE_COST : UInt64 := 10
def SIG_COST : UInt64 := 5000
def HASH_COST : UInt64 := 250

def gasCost (op : OpCode) (maxPushBytes : ℕ) : Result ScriptError UInt64 :=
  match op with
  | .nop => .ok 1
  | .pushBytes data => do
      require (data.length ≤ maxPushBytes)
        (.evaluation "push exceeds byte limit")
      return BASE_COST + UInt64.ofNat data.length
  | .checkSig => .ok SIG_COST
  | .checkMultiSig threshold _ =>
      .ok (SIG_COST * max threshold.toUInt64 1)
  | .checkTimeLock => .ok BASE_COST
  | .checkRelativeTimeLock => .ok BASE_COST
  | .checkHashLock => .ok HASH_COST

/-! ## The stack -/

/-- The top of the stack is the head of `items`. -/
structure Stack where
  items : List Bytes
  maxItems : ℕ
deriving DecidableEq, Repr

namespace Stack

def new (maxItems : ℕ) : Stack := ⟨[], maxItems⟩

def push (stack : Stack) (value : Bytes) : Result ScriptError Stack := do
  require (stack.items.length < stack.maxItems) .stackOverflow
  return { stack with items := value :: stack.items }

def pop (stack : Stack) : Result ScriptError (Bytes × Stack) :=
  match stack.items with
  | value :: items => .ok (value, { stack with items := items })
  | [] => .error (.err .stackUnderflow)

end Stack

/-! ## Opcodes -/

section Opcodes

variable [Blake3] [PqCrypto]

/-- Report a key or signature error as an evaluation error. -/
def liftCrypto {α : Type} (context : String) :
    Except CryptoError α → Result ScriptError α
  | .ok a => .ok a
  | .error err => .error (.err (.evaluation (context ++ err.display)))

/-- The hash which a signature of the current input has to cover. -/
def inputSighash (ctx : ScriptContext) (host : ScriptHost) :
    Result ScriptError Hash256 := do
  let input ← okOr ctx.tx.core.inputs[ctx.inputIndex]?
    (.evaluation "input index out of bounds")
  let prevOutput ← okOr (host.inputUtxo input)
    (.evaluation "host could not resolve input")
  orPanic (ctx.tx.sighash ctx.inputIndex prevOutput.output ctx.scriptHash
    ctx.chainId {})

/-- Verify one signature of the current input, as both signature opcodes do. -/
def verifyInput (failure : String) (ctx : ScriptContext) (host : ScriptHost)
    (publicKey : PublicKey) (signature : Signature) :
    Result ScriptError Unit := do
  let scheme ← okOr (defaultRegistry publicKey.scheme)
    (.evaluation "signature scheme not registered")
  let sighash ← inputSighash ctx host
  liftCrypto failure (scheme.verify publicKey sighash.bytes signature)

/-- Pop `n` items and parse each as it comes off the stack. -/
def popParsed {κ : Type} (parse : Bytes → Result ScriptError κ) :
    ℕ → Stack → Result ScriptError (List κ × Stack)
  | 0, stack => .ok ([], stack)
  | n + 1, stack => do
      let (bytes, stack) ← stack.pop
      let key ← parse bytes
      let (keys, stack) ← popParsed parse n stack
      return (key :: keys, stack)

def parseSignature (bytes : Bytes) : Result ScriptError Signature :=
  liftCrypto "invalid signature: " (Signature.fromBytes bytes)

def parsePublicKey (bytes : Bytes) : Result ScriptError PublicKey :=
  liftCrypto "invalid public key: " (PublicKey.fromBytes bytes)

/-- Pair each signature with the public key at its own position. -/
def verifyPaired (ctx : ScriptContext) (host : ScriptHost)
    (pubkeys : List PublicKey) : ℕ → List Signature → Result ScriptError Unit
  | _, [] => .ok ()
  | idx, signature :: signatures => do
      let publicKey ← okOr pubkeys[idx]?
        (.evaluation "multisig stack did not contain enough public keys")
      verifyInput "multisig verification failed: " ctx host publicKey signature
      verifyPaired ctx host pubkeys (idx + 1) signatures

def checkSig (ctx : ScriptContext) (host : ScriptHost) (stack : Stack) :
    Result ScriptError Stack := do
  let (signatureBytes, stack) ← stack.pop
  let (publicKeyBytes, stack) ← stack.pop
  let publicKey ← parsePublicKey publicKeyBytes
  let signature ← parseSignature signatureBytes
  verifyInput "signature verification failed: " ctx host publicKey signature
  return stack

def checkMultiSig (threshold total : UInt8) (ctx : ScriptContext)
    (host : ScriptHost) (stack : Stack) : Result ScriptError Stack := do
  require (¬(threshold.toNat = 0 ∨ total.toNat = 0 ∨
    total.toNat < threshold.toNat)) (.evaluation "invalid multisig threshold")
  let (signatures, stack) ← popParsed parseSignature threshold.toNat stack
  let (pubkeys, stack) ← popParsed parsePublicKey total.toNat stack
  verifyPaired ctx host pubkeys 0 signatures
  return stack

/-- The popped lock value, which has to be eight little-endian bytes. -/
def popHeight (malformed : String) (stack : Stack) :
    Result ScriptError (UInt64 × Stack) := do
  let (bytes, stack) ← stack.pop
  require (bytes.length = 8) (.evaluation malformed)
  return (UInt64.ofNat (leValue bytes), stack)

def contextHeight (ctx : ScriptContext) (host : ScriptHost) :
    Result ScriptError UInt64 :=
  okOr (host.currentHeight.or ctx.currentHeight)
    (.evaluation "current height unavailable for timelock")

def checkTimeLock (ctx : ScriptContext) (host : ScriptHost) (stack : Stack) :
    Result ScriptError Stack := do
  let (requiredHeight, stack) ← popHeight "timelock expects 8-byte height" stack
  let currentHeight ← contextHeight ctx host
  require (¬currentHeight < requiredHeight)
    (.evaluation "absolute timelock not satisfied")
  return stack

def checkRelativeTimeLock (ctx : ScriptContext) (host : ScriptHost)
    (stack : Stack) : Result ScriptError Stack := do
  let (relativeHeight, stack) ←
    popHeight "relative timelock expects 8-byte height" stack
  let input ← okOr ctx.tx.core.inputs[ctx.inputIndex]?
    (.evaluation "input index out of bounds")
  let resolved ← okOr (host.inputUtxo input)
    (.evaluation "host could not resolve input for relative timelock")
  let createdHeight ← okOr resolved.createdHeight
    (.evaluation "input creation height unavailable")
  let currentHeight ← contextHeight ctx host
  -- `u64` addition wraps in a release build.
  require (¬currentHeight < createdHeight + relativeHeight)
    (.evaluation "relative timelock not satisfied")
  return stack

def checkHashLock (stack : Stack) : Result ScriptError Stack := do
  let (preimage, stack) ← stack.pop
  let (expectedHash, stack) ← stack.pop
  require (expectedHash.length = 32)
    (.evaluation "hashlock expects 32-byte hash")
  require (expectedHash = (Blake3.hash preimage).bytes)
    (.evaluation "hashlock preimage mismatch")
  return stack

/-- The effect of one opcode on the stack. -/
def runOp (config : VmConfig) (ctx : ScriptContext) (host : ScriptHost)
    (stack : Stack) : OpCode → Result ScriptError Stack
  | .pushBytes data => do
      require (data.length ≤ config.maxPushBytes)
        (.evaluation "push exceeds byte limit")
      stack.push data
  | .nop => .ok stack
  | .checkSig => checkSig ctx host stack
  | .checkMultiSig threshold total =>
      checkMultiSig threshold total ctx host stack
  | .checkTimeLock => checkTimeLock ctx host stack
  | .checkRelativeTimeLock => checkRelativeTimeLock ctx host stack
  | .checkHashLock => checkHashLock stack

/-! ## Evaluation -/

structure Vm where
  gas : GasMeter
  stack : Stack
deriving DecidableEq, Repr

/-- One iteration of the interpreter loop: gas is charged before the opcode
runs. -/
def Vm.step (config : VmConfig) (ctx : ScriptContext) (host : ScriptHost)
    (vm : Vm) (op : OpCode) : Result ScriptError Vm := do
  let opCost ← gasCost op config.maxPushBytes
  let gas ← vm.gas.consume opCost
  let stack ← runOp config ctx host vm.stack op
  return ⟨gas, stack⟩

def Vm.init (config : VmConfig) : Vm where
  gas := GasMeter.new config.maxGas
  stack := Stack.new config.maxStackItems

/-- `DeterministicScriptEngine` with the given configuration. -/
def deterministicScriptEngine (config : VmConfig) : ScriptEngine :=
  fun script ctx host => do
    require (¬config.maxScriptLen < script.ops.length) .scriptTooLarge
    let vm ← script.ops.foldlM (Vm.step config ctx host) (Vm.init config)
    return ⟨vm.gas.used⟩

/-- `DeterministicScriptEngine::default()`. -/
def defaultScriptEngine : ScriptEngine :=
  deterministicScriptEngine VmConfig.default

end Opcodes

/-! ## Injectivity of the encoding -/

theorem pushData_selfDelimiting :
    SelfDelimiting fun data : Bytes =>
      encodeAppend (encodeLen data.length) (some data) := by
  intro a b x y s t ha hb h
  obtain ⟨x₁, x₂, hx₁, hx₂, rfl⟩ := encodeAppend_eq_some.mp ha
  obtain ⟨y₁, y₂, hy₁, hy₂, rfl⟩ := encodeAppend_eq_some.mp hb
  rw [← Option.some.inj hx₂, ← Option.some.inj hy₂, List.append_assoc,
    List.append_assoc] at h
  obtain ⟨hlength, htail⟩ := encodeLen_selfDelimiting hx₁ hy₁ h
  exact List.append_inj htail hlength

/-- The opcode byte comes first and is followed by the operands. -/
def OpCode.code : OpCode → UInt8
  | .checkSig => 0
  | .checkMultiSig _ _ => 1
  | .checkTimeLock => 2
  | .checkRelativeTimeLock => 3
  | .checkHashLock => 4
  | .pushBytes _ => 5
  | .nop => 6

theorem encodeOpCode_head {op : OpCode} {x : Bytes}
    (h : encodeOpCode op = some x) : ∃ rest, x = op.code :: rest := by
  cases op with
  | pushBytes data =>
      obtain ⟨a, b, ha, -, rfl⟩ := encodeAppend_eq_some.mp h
      exact ⟨b, by rw [← Option.some.inj ha]; rfl⟩
  | checkMultiSig threshold total =>
      exact ⟨[threshold, total], (Option.some.inj h).symm⟩
  | checkSig => exact ⟨[], (Option.some.inj h).symm⟩
  | checkTimeLock => exact ⟨[], (Option.some.inj h).symm⟩
  | checkRelativeTimeLock => exact ⟨[], (Option.some.inj h).symm⟩
  | checkHashLock => exact ⟨[], (Option.some.inj h).symm⟩
  | nop => exact ⟨[], (Option.some.inj h).symm⟩

theorem encodeOpCode_selfDelimiting : SelfDelimiting encodeOpCode := by
  intro a b x y s t ha hb h
  have hcode : a.code = b.code := by
    obtain ⟨xs, rfl⟩ := encodeOpCode_head ha
    obtain ⟨ys, rfl⟩ := encodeOpCode_head hb
    simp only [List.cons_append, List.cons.injEq] at h
    exact h.1
  cases a with
  | pushBytes data =>
      cases b with
      | pushBytes data' =>
          obtain ⟨x₁, x₂, hx₁, hx₂, rfl⟩ := encodeAppend_eq_some.mp ha
          obtain ⟨y₁, y₂, hy₁, hy₂, rfl⟩ := encodeAppend_eq_some.mp hb
          rw [← Option.some.inj hx₁, ← Option.some.inj hy₁] at h
          simp only [List.cons_append, List.nil_append, List.cons.injEq,
            true_and] at h
          obtain ⟨rfl, hst⟩ := pushData_selfDelimiting hx₂ hy₂ h
          exact ⟨rfl, hst⟩
      | _ => simp [OpCode.code] at hcode
  | checkMultiSig threshold total =>
      cases b with
      | checkMultiSig threshold' total' =>
          rw [← Option.some.inj ha, ← Option.some.inj hb] at h
          simp only [List.cons_append, List.nil_append, List.cons.injEq,
            true_and] at h
          obtain ⟨rfl, rfl, hst⟩ := h
          exact ⟨rfl, hst⟩
      | _ => simp [OpCode.code] at hcode
  | _ =>
      cases b <;> simp [OpCode.code] at hcode
      all_goals
        rw [← Option.some.inj ha, ← Option.some.inj hb] at h
        simp only [List.cons_append, List.nil_append, List.cons.injEq,
          true_and] at h
        exact ⟨rfl, h⟩

theorem encodeScript_selfDelimiting : SelfDelimiting encodeScript := by
  refine (encodeVec_selfDelimiting encodeOpCode_selfDelimiting).comap
    (f := Script.ops) ?_
  rintro ⟨a⟩ ⟨b⟩ h
  congr

end QCoin
