import Mathlib.Data.List.Forall2
import QCoin.Script.Machine

/-!
# What the opcodes do

An opcode which succeeds takes a fixed number of items off the stack and makes
demands on them; only a push puts an item back.  `runOp_eq_ok` splits every
opcode into its demand and its effect, and later modules reason about the two
separately.
-/

namespace QCoin

open Support
open Support.Result

/-! ## Effects on the stack -/

/-- The stack which an opcode leaves when it succeeds. -/
def stackAfter (items : List Bytes) : OpCode → List Bytes
  | .pushBytes data => data :: items
  | .nop => items
  | .checkSig => items.drop 2
  | .checkMultiSig threshold total =>
      items.drop (threshold.toNat + total.toNat)
  | .checkTimeLock => items.drop 1
  | .checkRelativeTimeLock => items.drop 1
  | .checkHashLock => items.drop 2

theorem Stack.push_eq_ok {stack stack' : Stack} {value : Bytes} :
    stack.push value = .ok stack' ↔ stack.items.length < stack.maxItems ∧
      stack' = { stack with items := value :: stack.items } := by
  simp only [push, bind_eq_ok, require_eq_ok, pure_eq_ok]
  constructor
  · rintro ⟨-, hlength, rfl⟩
    exact ⟨hlength, rfl⟩
  · rintro ⟨hlength, rfl⟩
    exact ⟨(), hlength, rfl⟩

theorem Stack.pop_eq_ok {stack stack' : Stack} {value : Bytes} :
    stack.pop = .ok (value, stack') ↔
      stack.items = value :: stack'.items ∧
        stack' = { stack with items := stack.items.drop 1 } := by
  obtain ⟨items, maxItems⟩ := stack
  obtain ⟨items', maxItems'⟩ := stack'
  cases items with
  | nil => simp [pop]
  | cons item items =>
      simp only [pop, Except.ok.injEq, Prod.mk.injEq, Stack.mk.injEq,
        List.cons.injEq, List.drop_succ_cons, List.drop_zero]
      constructor
      · rintro ⟨rfl, rfl, rfl⟩
        exact ⟨⟨rfl, rfl⟩, rfl, rfl⟩
      · rintro ⟨⟨rfl, rfl⟩, -, rfl⟩
        exact ⟨rfl, rfl, rfl⟩

theorem liftCrypto_eq_ok {α : Type} {context : String}
    {x : Except CryptoError α} {a : α} :
    liftCrypto context x = .ok a ↔ x = .ok a := by
  cases x with
  | ok b => simp [liftCrypto]
  | error e => simp [liftCrypto]

/-- The popped items are parsed in the order in which they come off. -/
theorem popParsed_eq_ok {κ : Type} {parse : Bytes → Result ScriptError κ}
    {n : ℕ} {stack stack' : Stack} {keys : List κ} :
    popParsed parse n stack = .ok (keys, stack') ↔
      n ≤ stack.items.length ∧
      List.Forall₂ (fun bytes key => parse bytes = .ok key)
        (stack.items.take n) keys ∧
      stack' = { stack with items := stack.items.drop n } := by
  induction n generalizing stack stack' keys with
  | zero =>
      simp only [popParsed, Except.ok.injEq, Prod.mk.injEq, Nat.zero_le,
        List.take_zero, List.forall₂_nil_left_iff, List.drop_zero, true_and]
      constructor
      · rintro ⟨rfl, rfl⟩
        exact ⟨rfl, rfl⟩
      · rintro ⟨rfl, rfl⟩
        exact ⟨rfl, rfl⟩
  | succ n ih =>
      obtain ⟨items, maxItems⟩ := stack
      simp only [popParsed, bind_eq_ok, pure_eq_ok, Prod.exists, ih,
        Stack.pop_eq_ok, Prod.mk.injEq]
      cases items with
      | nil => simp
      | cons item items =>
          constructor
          · rintro ⟨value, popped, ⟨hitems, hpopped⟩, key, hkey, rest,
              stack'', ⟨hlength, hrest, rfl⟩, rfl, rfl⟩
            subst hpopped
            rw [List.cons.injEq] at hitems
            obtain ⟨rfl, -⟩ := hitems
            simp only [List.drop_succ_cons, List.drop_zero] at hlength hrest ⊢
            refine ⟨Nat.succ_le_succ hlength, ?_, trivial⟩
            exact List.Forall₂.cons hkey hrest
          · rintro ⟨hlength, hparsed, rfl⟩
            rw [List.take_succ_cons, List.forall₂_cons_left_iff] at hparsed
            obtain ⟨key, rest, hkey, hrest, rfl⟩ := hparsed
            exact ⟨item, ⟨items, maxItems⟩, ⟨rfl, rfl⟩, key, hkey, rest, _,
              ⟨Nat.le_of_succ_le_succ hlength, hrest, rfl⟩, rfl, rfl⟩

/-! ## Demands of the opcodes -/

section Demands

variable [Blake3] [PqCrypto]

/-- The signature covers the current input under the public key. -/
def Verifies (ctx : ScriptContext) (host : ScriptHost) (publicKey : PublicKey)
    (signature : Signature) : Prop :=
  ∃ scheme sighash, defaultRegistry publicKey.scheme = some scheme ∧
    inputSighash ctx host = .ok sighash ∧
    scheme.verify publicKey sighash.bytes signature = .ok ()

/-- Every signature verifies under the key at its own position. -/
def VerifiesPaired (ctx : ScriptContext) (host : ScriptHost)
    (publicKeys : List PublicKey) (signatures : List Signature) : Prop :=
  ∀ (i : ℕ) (signature : Signature), signatures[i]? = some signature →
    ∃ publicKey, publicKeys[i]? = some publicKey ∧
      Verifies ctx host publicKey signature

/-- The height with which timelocks are compared. -/
def lockHeight (ctx : ScriptContext) (host : ScriptHost) : Option UInt64 :=
  host.currentHeight.or ctx.currentHeight

/-- The height at which the output under the current input was created. -/
def inputCreatedHeight (ctx : ScriptContext) (host : ScriptHost) :
    Option UInt64 := do
  let input ← ctx.tx.core.inputs[ctx.inputIndex]?
  let resolved ← host.inputUtxo input
  resolved.createdHeight

/-- What has to hold of the stack for an opcode to succeed. -/
def OpCode.Demand (config : VmConfig) (ctx : ScriptContext) (host : ScriptHost)
    (stack : Stack) : OpCode → Prop
  | .pushBytes data => data.length ≤ config.maxPushBytes ∧
      stack.items.length < stack.maxItems
  | .nop => True
  | .checkSig => ∃ signatureBytes publicKeyBytes rest signature publicKey,
      stack.items = signatureBytes :: publicKeyBytes :: rest ∧
      Signature.fromBytes signatureBytes = .ok signature ∧
      PublicKey.fromBytes publicKeyBytes = .ok publicKey ∧
      Verifies ctx host publicKey signature
  | .checkMultiSig threshold total =>
      1 ≤ threshold.toNat ∧ threshold.toNat ≤ total.toNat ∧
      threshold.toNat + total.toNat ≤ stack.items.length ∧
      ∃ signatures publicKeys,
        List.Forall₂ (fun bytes key => Signature.fromBytes bytes = .ok key)
          (stack.items.take threshold.toNat) signatures ∧
        List.Forall₂ (fun bytes key => PublicKey.fromBytes bytes = .ok key)
          ((stack.items.drop threshold.toNat).take total.toNat) publicKeys ∧
        VerifiesPaired ctx host publicKeys signatures
  | .checkTimeLock => ∃ bytes ∈ stack.items.head?, bytes.length = 8 ∧
      ∃ current ∈ lockHeight ctx host,
        ¬current < UInt64.ofNat (leValue bytes)
  | .checkRelativeTimeLock => ∃ bytes ∈ stack.items.head?, bytes.length = 8 ∧
      ∃ created ∈ inputCreatedHeight ctx host,
      ∃ current ∈ lockHeight ctx host,
        ¬current < created + UInt64.ofNat (leValue bytes)
  | .checkHashLock => ∃ preimage rest,
      stack.items = preimage :: (Blake3.hash preimage).bytes :: rest

variable {config : VmConfig} {ctx : ScriptContext} {host : ScriptHost}
  {stack stack' : Stack}

theorem verifyInput_eq_ok {failure : String} {publicKey : PublicKey}
    {signature : Signature} {u : Unit} :
    verifyInput failure ctx host publicKey signature = .ok u ↔
      Verifies ctx host publicKey signature := by
  simp only [verifyInput, bind_eq_ok, okOr_eq_ok, liftCrypto_eq_ok]
  constructor
  · rintro ⟨scheme, hscheme, sighash, hsighash, hverify⟩
    exact ⟨scheme, sighash, hscheme, hsighash, hverify⟩
  · rintro ⟨scheme, sighash, hscheme, hsighash, hverify⟩
    exact ⟨scheme, hscheme, sighash, hsighash, hverify⟩

/-- The `i`-th signature is verified under the key `idx + i`. -/
theorem verifyPaired_eq_ok {publicKeys : List PublicKey} {idx : ℕ}
    {signatures : List Signature} {u : Unit} :
    verifyPaired ctx host publicKeys idx signatures = .ok u ↔
      ∀ i signature, signatures[i]? = some signature →
        ∃ publicKey, publicKeys[idx + i]? = some publicKey ∧
          Verifies ctx host publicKey signature := by
  induction signatures generalizing idx with
  | nil => simp [verifyPaired]
  | cons signature signatures ih =>
      simp only [verifyPaired, bind_eq_ok, okOr_eq_ok, verifyInput_eq_ok, ih]
      constructor
      · rintro ⟨publicKey, hkey, -, hverifies, hrest⟩ i
        cases i with
        | zero =>
            rintro _ ⟨⟩
            exact ⟨publicKey, hkey, hverifies⟩
        | succ i =>
            intro signature' hsignature'
            have hnext := hrest i signature' hsignature'
            rwa [Nat.add_right_comm] at hnext
      · intro h
        obtain ⟨publicKey, hkey, hverifies⟩ := h 0 signature rfl
        refine ⟨publicKey, hkey, (), hverifies, ?_⟩
        intro i signature' hsignature'
        rw [Nat.add_right_comm]
        exact h (i + 1) signature' hsignature'

theorem checkSig_eq_ok :
    checkSig ctx host stack = .ok stack' ↔
      OpCode.Demand config ctx host stack .checkSig ∧
        stack' = { stack with items := stack.items.drop 2 } := by
  obtain ⟨items, maxItems⟩ := stack
  simp only [checkSig, bind_eq_ok, Prod.exists, Stack.pop_eq_ok,
    verifyInput_eq_ok, parseSignature, parsePublicKey, liftCrypto_eq_ok,
    pure_eq_ok, OpCode.Demand]
  constructor
  · rintro ⟨signatureBytes, _, ⟨hitems, rfl⟩, publicKeyBytes, _,
      ⟨hitems', rfl⟩, publicKey, hkey, signature, hsignature, -, hverifies,
      rfl⟩
    simp only [List.drop_drop] at hitems hitems'
    rw [hitems'] at hitems
    exact ⟨⟨signatureBytes, publicKeyBytes, _, signature, publicKey, hitems,
      hsignature, hkey, hverifies⟩, by simp⟩
  · rintro ⟨⟨signatureBytes, publicKeyBytes, rest, signature, publicKey, rfl,
      hsignature, hkey, hverifies⟩, rfl⟩
    exact ⟨signatureBytes, _, ⟨rfl, rfl⟩, publicKeyBytes, _, ⟨rfl, rfl⟩,
      publicKey, hkey, signature, hsignature, (), hverifies, rfl⟩

theorem checkMultiSig_eq_ok {threshold total : UInt8} :
    checkMultiSig threshold total ctx host stack = .ok stack' ↔
      OpCode.Demand config ctx host stack (.checkMultiSig threshold total) ∧
        stack' = { stack with
          items := stack.items.drop (threshold.toNat + total.toNat) } := by
  simp only [checkMultiSig, bind_eq_ok, require_eq_ok, Prod.exists,
    popParsed_eq_ok, verifyPaired_eq_ok, parseSignature, parsePublicKey,
    liftCrypto_eq_ok, pure_eq_ok, OpCode.Demand, VerifiesPaired, Nat.zero_add]
  constructor
  · rintro ⟨-, hthreshold, signatures, _, ⟨hlength, hsignatures, rfl⟩,
      publicKeys, _, ⟨hlength', hpublicKeys, rfl⟩, -, hverifies, rfl⟩
    rw [List.length_drop] at hlength'
    refine ⟨⟨by omega, by omega, by omega, signatures, publicKeys, hsignatures,
      hpublicKeys, hverifies⟩, by rw [List.drop_drop]⟩
  · rintro ⟨⟨hpositive, hle, hlength, signatures, publicKeys, hsignatures,
      hpublicKeys, hverifies⟩, rfl⟩
    refine ⟨(), by omega, signatures, _, ⟨by omega, hsignatures, rfl⟩,
      publicKeys, _, ⟨?_, hpublicKeys, rfl⟩, (), hverifies, ?_⟩
    · rw [List.length_drop]
      omega
    · rw [List.drop_drop]

omit [Blake3] [PqCrypto] in
theorem popHeight_eq_ok {malformed : String} {height : UInt64} :
    popHeight malformed stack = .ok (height, stack') ↔
      (∃ bytes ∈ stack.items.head?, bytes.length = 8 ∧
        UInt64.ofNat (leValue bytes) = height) ∧
      stack' = { stack with items := stack.items.drop 1 } := by
  obtain ⟨items, maxItems⟩ := stack
  simp only [popHeight, bind_eq_ok, Prod.exists, Stack.pop_eq_ok,
    require_eq_ok, pure_eq_ok, Prod.mk.injEq]
  constructor
  · rintro ⟨bytes, _, ⟨hitems, rfl⟩, -, hlength, hheight, rfl⟩
    exact ⟨⟨bytes, by rw [hitems]; rfl, hlength, hheight⟩, rfl⟩
  · rintro ⟨⟨bytes, hbytes, hlength, hheight⟩, rfl⟩
    cases items with
    | nil => cases hbytes
    | cons item items =>
        rw [List.head?_cons, Option.mem_some_iff] at hbytes
        subst hbytes
        exact ⟨_, _, ⟨rfl, rfl⟩, (), hlength, hheight, rfl⟩

theorem checkTimeLock_eq_ok :
    checkTimeLock ctx host stack = .ok stack' ↔
      OpCode.Demand config ctx host stack .checkTimeLock ∧
        stack' = { stack with items := stack.items.drop 1 } := by
  simp only [checkTimeLock, bind_eq_ok, Prod.exists, popHeight_eq_ok,
    contextHeight, okOr_eq_ok, require_eq_ok, pure_eq_ok, OpCode.Demand]
  constructor
  · rintro ⟨_, _, ⟨⟨bytes, hbytes, hlength, rfl⟩, rfl⟩, current, hcurrent, -,
      hopen, rfl⟩
    exact ⟨⟨bytes, hbytes, hlength, current, hcurrent, hopen⟩, rfl⟩
  · rintro ⟨⟨bytes, hbytes, hlength, current, hcurrent, hopen⟩, rfl⟩
    exact ⟨_, _, ⟨⟨bytes, hbytes, hlength, rfl⟩, rfl⟩, current, hcurrent, (),
      hopen, rfl⟩

theorem checkRelativeTimeLock_eq_ok :
    checkRelativeTimeLock ctx host stack = .ok stack' ↔
      OpCode.Demand config ctx host stack .checkRelativeTimeLock ∧
        stack' = { stack with items := stack.items.drop 1 } := by
  simp only [checkRelativeTimeLock, bind_eq_ok, Prod.exists, popHeight_eq_ok,
    contextHeight, okOr_eq_ok, require_eq_ok, pure_eq_ok, OpCode.Demand]
  constructor
  · rintro ⟨_, _, ⟨⟨bytes, hbytes, hlength, rfl⟩, rfl⟩, input, hinput,
      resolved, hresolved, created, hcreated, current, hcurrent, -, hopen,
      rfl⟩
    have hheight : created ∈ inputCreatedHeight ctx host := by
      simp [inputCreatedHeight, hinput, hresolved, hcreated]
    exact ⟨⟨bytes, hbytes, hlength, created, hheight, current, hcurrent,
      hopen⟩, rfl⟩
  · rintro ⟨⟨bytes, hbytes, hlength, created, hcreated, current, hcurrent,
      hopen⟩, rfl⟩
    simp only [inputCreatedHeight, Option.bind_eq_bind, Option.mem_def,
      Option.bind_eq_some_iff] at hcreated
    obtain ⟨input, hinput, resolved, hresolved, hcreated⟩ := hcreated
    exact ⟨_, _, ⟨⟨bytes, hbytes, hlength, rfl⟩, rfl⟩, input, hinput, resolved,
      hresolved, created, hcreated, current, hcurrent, (), hopen, rfl⟩

theorem checkHashLock_eq_ok :
    checkHashLock stack = .ok stack' ↔
      OpCode.Demand config ctx host stack .checkHashLock ∧
        stack' = { stack with items := stack.items.drop 2 } := by
  obtain ⟨items, maxItems⟩ := stack
  simp only [checkHashLock, bind_eq_ok, Prod.exists, Stack.pop_eq_ok,
    require_eq_ok, pure_eq_ok, OpCode.Demand]
  constructor
  · rintro ⟨preimage, _, ⟨hitems, rfl⟩, expected, _, ⟨hitems', rfl⟩, -, -, -,
      rfl, rfl⟩
    simp only [List.drop_drop] at hitems hitems'
    rw [hitems'] at hitems
    exact ⟨⟨preimage, _, hitems⟩, by simp⟩
  · rintro ⟨⟨preimage, rest, rfl⟩, rfl⟩
    exact ⟨preimage, _, ⟨rfl, rfl⟩, _, _, ⟨rfl, rfl⟩, (),
      (Blake3.hash preimage).size, (), rfl, rfl⟩

/-- An opcode succeeds when the stack meets its demand, and its effect on the
stack does not depend on anything else. -/
theorem runOp_eq_ok {op : OpCode} :
    runOp config ctx host stack op = .ok stack' ↔
      op.Demand config ctx host stack ∧
        stack' = { stack with items := stackAfter stack.items op } := by
  cases op with
  | pushBytes data =>
      simp only [runOp, bind_eq_ok, require_eq_ok, Stack.push_eq_ok,
        OpCode.Demand, stackAfter]
      constructor
      · rintro ⟨-, hlength, hroom, rfl⟩
        exact ⟨⟨hlength, hroom⟩, rfl⟩
      · rintro ⟨⟨hlength, hroom⟩, rfl⟩
        exact ⟨(), hlength, hroom, rfl⟩
  | nop =>
      simp only [runOp, Except.ok.injEq, OpCode.Demand, stackAfter, true_and]
      exact eq_comm
  | checkSig => exact checkSig_eq_ok
  | checkMultiSig threshold total => exact checkMultiSig_eq_ok
  | checkTimeLock => exact checkTimeLock_eq_ok
  | checkRelativeTimeLock => exact checkRelativeTimeLock_eq_ok
  | checkHashLock => exact checkHashLock_eq_ok

/-! ## Runs -/

theorem Vm.step_demand {vm vm' : Vm} {op : OpCode}
    (h : vm.step config ctx host op = .ok vm') :
    op.Demand config ctx host vm.stack ∧
      vm'.stack.items = stackAfter vm.stack.items op := by
  simp only [Vm.step, bind_eq_ok, pure_eq_ok] at h
  obtain ⟨-, -, gas, -, stack, hop, rfl⟩ := h
  obtain ⟨hdemand, rfl⟩ := runOp_eq_ok.mp hop
  exact ⟨hdemand, rfl⟩

theorem items_of_run {vm vm' : Vm} {ops : List OpCode}
    (h : ops.foldlM (Vm.step config ctx host) vm = .ok vm') :
    vm'.stack.items = ops.foldl stackAfter vm.stack.items := by
  induction ops generalizing vm with
  | nil =>
      obtain rfl : vm = vm' := Except.ok.inj h
      rfl
  | cons op ops ih =>
      rw [List.foldlM_cons, bind_eq_ok] at h
      obtain ⟨mid, hmid, hrest⟩ := h
      rw [ih hrest, (Vm.step_demand hmid).2]
      rfl

/-- A script which ran to its end came by every one of its opcodes, on the
stack which the opcodes before it leave, and met its demand. -/
theorem demand_of_eval {script : Script} {result : ScriptResult}
    {before after : List OpCode} {op : OpCode}
    (h : deterministicScriptEngine config script ctx host = .ok result)
    (hops : script.ops = before ++ op :: after) :
    ∃ vm, before.foldlM (Vm.step config ctx host) (Vm.init config) = .ok vm ∧
      vm.stack.items = before.foldl stackAfter [] ∧
      op.Demand config ctx host vm.stack := by
  simp only [deterministicScriptEngine, bind_eq_ok] at h
  obtain ⟨-, -, last, hrun, -⟩ := h
  rw [hops, List.foldlM_append, bind_eq_ok] at hrun
  obtain ⟨vm, hbefore, hrun⟩ := hrun
  rw [List.foldlM_cons, bind_eq_ok] at hrun
  obtain ⟨next, hstep, -⟩ := hrun
  have hitems : vm.stack.items = before.foldl stackAfter [] :=
    items_of_run hbefore
  exact ⟨vm, hbefore, hitems, (Vm.step_demand hstep).1⟩

end Demands

end QCoin
