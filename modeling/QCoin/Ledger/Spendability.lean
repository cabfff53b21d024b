import QCoin.Ledger.Acceptance
import QCoin.Ledger.StandIns
import QCoin.Script.Opcodes

/-!
# Spending CheckSig outputs

A witness presents a script and nothing else.  The signature which `CheckSig`
pops is therefore pushed by the script itself and fixed by the owner hash,
while the message it has to cover names the spending transaction.  One
signature covers one message, so an output locked in this way is good for at
most one transaction, chosen before the output is created.
-/

namespace QCoin

open Support
open Support.Result

/-!
## What a locked output is for

The set `feasible` stands for the strings which are ever hashed.  No hash is
injective on all strings, but this one may be assumed to be on these.
-/

section Locked

variable [Blake3] [PqCrypto]

/-- A key pair of a registered scheme whose signatures verify and are each
good for one hash. -/
structure RegisteredKeyPair (scheme : PqSignatureScheme)
    (publicKey : PublicKey) (secretKey : PrivateKey) : Prop where
  registered : defaultRegistry publicKey.scheme = some scheme
  signs : ∀ (entropy : ℕ) (message : Hash256), ∃ signature,
    scheme.sign entropy secretKey message.bytes = .ok signature ∧
      scheme.verify publicKey message.bytes signature = .ok ()
  binds : ∀ (signature : Signature) (message message' : Hash256),
    scheme.verify publicKey message.bytes signature = .ok () →
      scheme.verify publicKey message'.bytes signature = .ok () →
        message = message'

/-- Running the script reaches a `CheckSig` with this key on the stack. -/
def ExecutesCheckSig (script : Script) (ctx : ScriptContext)
    (host : ScriptHost) (publicKey : PublicKey) : Prop :=
  ∃ before after vm signatureBytes publicKeyBytes rest,
    script.ops = before ++ .checkSig :: after ∧
    before.foldlM (Vm.step VmConfig.default ctx host)
      (Vm.init VmConfig.default) = .ok vm ∧
    vm.stack.items = signatureBytes :: publicKeyBytes :: rest ∧
    PublicKey.fromBytes publicKeyBytes = .ok publicKey

variable [Bincode]

/-- Accepted spends of outputs with owner hash `h` run a `CheckSig` against
the key. -/
def RequiresCheckSig (publicKey : PublicKey) (h : Hash256)
    (feasible : Set Bytes) : Prop :=
  ∀ (ledger : LedgerState) (tx : Transaction) (currentHeight : UInt64)
    (chainId : UInt32) (inputIndex : ℕ) (input : TransactionInput)
    (tracked : TrackedOutput) (bytes : Bytes) (witness : InputWitness)
    (scriptBytes : Bytes),
    (ledger.applyTransaction tx defaultScriptEngine currentHeight chainId).1 =
        .ok () →
      tx.core.inputs[inputIndex]? = some input →
      ledger.utxos.lookup input.key = some tracked →
      tracked.output.ownerScriptHash = h →
      tx.witness.inputs[inputIndex]? = some bytes →
      Bincode.deserializeWitness bytes = some witness →
      encodeScript witness.script = some scriptBytes →
      scriptBytes ∈ feasible →
        ExecutesCheckSig witness.script
          (LedgerState.inputContext tx inputIndex currentHeight chainId
            tracked)
          (ledger.scriptHost currentHeight) publicKey

/-- Nothing but the witness of one input stands between the ledger and the
acceptance of a transaction. -/
structure AwaitsWitness (ledger : LedgerState) (core : TransactionCore)
    (others : List Bytes) (currentHeight : UInt64) (chainId : UInt32)
    (inputIndex : ℕ) (input : TransactionInput) (tracked : TrackedOutput)
    (feasible : Set Bytes) : Prop where
  present : core.inputs[inputIndex]? = some input
  found : ledger.utxos.lookup input.key = some tracked
  noMetadata : tracked.output.metadataHash = none
  inputsDistinct : (core.inputs.map TransactionInput.key).Nodup
  creation : ∀ created ∈ core.kind.createdAsset chainId,
    ledger.CreationAccepted core created
  conserved : ∀ id,
    (∀ created ∈ core.kind.createdAsset chainId, id ≠ created.assetId) →
      totalOf id (ledger.consumedOutputs core.inputs) =
        totalOf id core.outputs
  witnessed : inputIndex < others.length
  othersUnlocked : ∀ entry ∈ core.inputs.zipIdx, entry.2 ≠ inputIndex →
    ∃ tracked witness, ledger.InputUnlocked ⟨core, ⟨others⟩⟩
      defaultScriptEngine currentHeight chainId entry.1 entry.2 tracked
      witness
  signable : ∃ message ∈ feasible,
    (Transaction.mk core ⟨others⟩).sighashPreimage inputIndex tracked.output
      tracked.output.ownerScriptHash chainId {} = some message

/-- Every spend of an output with owner hash `h` has an accepted witness.
How the holder of the key finds it is left open. -/
def HolderCanSpend (h : Hash256) (feasible : Set Bytes) : Prop :=
  ∀ (ledger : LedgerState) (core : TransactionCore) (others : List Bytes)
    (currentHeight : UInt64) (chainId : UInt32) (inputIndex : ℕ)
    (input : TransactionInput) (tracked : TrackedOutput),
    AwaitsWitness ledger core others currentHeight chainId inputIndex input
        tracked feasible →
      tracked.output.ownerScriptHash = h →
      ∃ bytes witness scriptBytes,
        Bincode.deserializeWitness bytes = some witness ∧
        encodeScript witness.script = some scriptBytes ∧
        scriptBytes ∈ feasible ∧
        (ledger.applyTransaction ⟨core, ⟨others.set inputIndex bytes⟩⟩
          defaultScriptEngine currentHeight chainId).1 = .ok ()

/-! ## Two spends of one lock -/

/-- An accepted input whose output is locked to `h`. -/
structure LockedSpend (h : Hash256) (feasible : Set Bytes) where
  ledger : LedgerState
  tx : Transaction
  currentHeight : UInt64
  chainId : UInt32
  inputIndex : ℕ
  input : TransactionInput
  tracked : TrackedOutput
  witness : InputWitness
  present : tx.core.inputs[inputIndex]? = some input
  locked : tracked.output.ownerScriptHash = h
  unlocked : ledger.InputUnlocked tx defaultScriptEngine currentHeight chainId
    input inputIndex tracked witness
  scriptFeasible : ∃ scriptBytes ∈ feasible,
    encodeScript witness.script = some scriptBytes
  signable : ∃ message ∈ feasible,
    tx.sighashPreimage inputIndex tracked.output h chainId {} = some message

namespace LockedSpend

variable {h : Hash256} {feasible : Set Bytes}

def ctx (spend : LockedSpend h feasible) : ScriptContext :=
  LedgerState.inputContext spend.tx spend.inputIndex spend.currentHeight
    spend.chainId spend.tracked

def host (spend : LockedSpend h feasible) : ScriptHost :=
  spend.ledger.scriptHost spend.currentHeight

/-- All spends of one lock present one script. -/
theorem script_eq (hfree : CollisionFree feasible)
    (spend spend' : LockedSpend h feasible) :
    spend.witness.script = spend'.witness.script := by
  obtain ⟨x, hx, hencode⟩ := spend.scriptFeasible
  obtain ⟨y, hy, hencode'⟩ := spend'.scriptFeasible
  obtain ⟨x', hx', hhash⟩ := spend.unlocked.scriptMatches
  obtain ⟨y', hy', hhash'⟩ := spend'.unlocked.scriptMatches
  obtain rfl : x = x' := Option.some.inj (hencode.symm.trans hx')
  obtain rfl : y = y' := Option.some.inj (hencode'.symm.trans hy')
  have hhashes : Blake3.hash x = Blake3.hash y := by
    rw [hhash, hhash', spend.locked, spend'.locked]
  obtain rfl : x = y := hfree hx hy hhashes
  exact encodeScript_selfDelimiting.uniquelyEncoded hencode hencode'

theorem inputSighash_eq (spend : LockedSpend h feasible) {message : Bytes}
    (hmessage : spend.tx.sighashPreimage spend.inputIndex
      spend.tracked.output h spend.chainId {} = some message) :
    inputSighash spend.ctx spend.host = .ok (Blake3.hash message) := by
  have hresolved : spend.host.inputUtxo spend.input =
      some ⟨spend.tracked.output, some spend.tracked.createdHeight⟩ := by
    simp [host, LedgerState.scriptHost, spend.unlocked.found]
  have hsighash : spend.tx.sighash spend.inputIndex spend.tracked.output
      spend.tracked.output.ownerScriptHash spend.chainId {} =
        some (Blake3.hash message) := by
    rw [Transaction.sighash, spend.locked, hmessage]
    rfl
  simp only [inputSighash, bind_eq_ok, okOr_eq_ok, orPanic_eq_ok]
  exact ⟨spend.input, spend.present, _, hresolved, hsighash⟩

/-- The signature which the script pushes verifies for the spend. -/
theorem verifies (spend : LockedSpend h feasible) {scheme : PqSignatureScheme}
    {publicKey : PublicKey} {before after : List OpCode}
    {signatureBytes publicKeyBytes message : Bytes} {rest : List Bytes}
    (hregistered : defaultRegistry publicKey.scheme = some scheme)
    (hops : spend.witness.script.ops = before ++ .checkSig :: after)
    (hitems : before.foldl stackAfter [] =
      signatureBytes :: publicKeyBytes :: rest)
    (hpublicKey : PublicKey.fromBytes publicKeyBytes = .ok publicKey)
    (hmessage : spend.tx.sighashPreimage spend.inputIndex
      spend.tracked.output h spend.chainId {} = some message) :
    ∃ signature, Signature.fromBytes signatureBytes = .ok signature ∧
      scheme.verify publicKey (Blake3.hash message).bytes signature =
        .ok () := by
  obtain ⟨result, hrun⟩ := spend.unlocked.evaluates
  obtain ⟨vm, -, hstack, signatureBytes', publicKeyBytes', rest', signature,
    publicKey', hpopped, hsignature, hpublicKey', scheme', sighash, hscheme,
    hsighash, hverify⟩ := demand_of_eval hrun hops
  rw [hstack, hitems] at hpopped
  simp only [List.cons.injEq] at hpopped
  obtain ⟨rfl, rfl, -⟩ := hpopped
  obtain rfl : publicKey = publicKey' :=
    Except.ok.inj (hpublicKey.symm.trans hpublicKey')
  obtain rfl : scheme = scheme' :=
    Option.some.inj (hregistered.symm.trans hscheme)
  obtain rfl : Blake3.hash message = sighash :=
    Except.ok.inj ((spend.inputSighash_eq hmessage).symm.trans hsighash)
  exact ⟨signature, hsignature, hverify⟩

/-- A lock which needs a signature is good for one transaction core. -/
theorem core_eq {scheme : PqSignatureScheme} {publicKey : PublicKey}
    {secretKey : PrivateKey} (hfree : CollisionFree feasible)
    (hpair : RegisteredKeyPair scheme publicKey secretKey)
    (spend spend' : LockedSpend h feasible)
    (hexecutes : ExecutesCheckSig spend.witness.script spend.ctx spend.host
      publicKey) :
    spend.tx.core = spend'.tx.core := by
  obtain ⟨before, after, vm, signatureBytes, publicKeyBytes, rest, hops,
    hbefore, hitems, hpublicKey⟩ := hexecutes
  have hpushed : before.foldl stackAfter [] =
      signatureBytes :: publicKeyBytes :: rest := by
    rw [← hitems, items_of_run hbefore]
    rfl
  have hops' : spend'.witness.script.ops = before ++ .checkSig :: after := by
    rw [← script_eq hfree spend spend', hops]
  obtain ⟨message, hfeasible, hmessage⟩ := spend.signable
  obtain ⟨message', hfeasible', hmessage'⟩ := spend'.signable
  obtain ⟨signature, hsignature, hverify⟩ := spend.verifies hpair.registered
    hops hpushed hpublicKey hmessage
  obtain ⟨signature', hsignature', hverify'⟩ :=
    spend'.verifies hpair.registered hops' hpushed hpublicKey hmessage'
  obtain rfl : signature = signature' :=
    Except.ok.inj (hsignature.symm.trans hsignature')
  have hhash : Blake3.hash message = Blake3.hash message' :=
    hpair.binds signature _ _ hverify hverify'
  obtain rfl : message = message' := hfree hfeasible hfeasible' hhash
  exact (sighashPreimage_injective hmessage hmessage').2.1

end LockedSpend

omit [PqCrypto] in
/-- The input loop of an accepted call has checked every input. -/
theorem unlocked_of_apply {ledger : LedgerState} {tx : Transaction}
    {engine : ScriptEngine} {currentHeight : UInt64} {chainId : UInt32}
    {inputIndex : ℕ} {input : TransactionInput} {tracked : TrackedOutput}
    {bytes : Bytes} {witness : InputWitness}
    (happly : (ledger.applyTransaction tx engine currentHeight chainId).1 =
      .ok ())
    (hinput : tx.core.inputs[inputIndex]? = some input)
    (hfound : ledger.utxos.lookup input.key = some tracked)
    (hbytes : tx.witness.inputs[inputIndex]? = some bytes)
    (hwitness : Bincode.deserializeWitness bytes = some witness) :
    ledger.InputUnlocked tx engine currentHeight chainId input inputIndex
      tracked witness := by
  have haccepts : ledger.Accepts tx engine currentHeight chainId :=
    (LedgerState.applyTransaction_eq_ok.mp (Prod.ext happly rfl)).1
  have hentry : (input, inputIndex) ∈ tx.core.inputs.zipIdx :=
    List.mem_zipIdx_iff_getElem?.mpr hinput
  obtain ⟨tracked', witness', hunlocked⟩ := haccepts.unlocked _ hentry
  obtain ⟨bytes', hbytes', hwitness'⟩ := hunlocked.presented
  obtain rfl : tracked = tracked' :=
    Option.some.inj (hfound.symm.trans hunlocked.found)
  obtain rfl : bytes = bytes' :=
    Option.some.inj (hbytes.symm.trans hbytes')
  obtain rfl : witness = witness' :=
    Option.some.inj (hwitness.symm.trans hwitness')
  exact hunlocked

theorem RequiresCheckSig.executes {publicKey : PublicKey} {h : Hash256}
    {feasible : Set Bytes} (hrequires : RequiresCheckSig publicKey h feasible)
    (spend : LockedSpend h feasible)
    (happly : (spend.ledger.applyTransaction spend.tx defaultScriptEngine
      spend.currentHeight spend.chainId).1 = .ok ()) :
    ExecutesCheckSig spend.witness.script spend.ctx spend.host publicKey := by
  obtain ⟨bytes, hbytes, hwitness⟩ := spend.unlocked.presented
  obtain ⟨scriptBytes, hfeasible, hscript⟩ := spend.scriptFeasible
  exact hrequires spend.ledger spend.tx spend.currentHeight spend.chainId
    spend.inputIndex spend.input spend.tracked bytes spend.witness scriptBytes
    happly spend.present spend.unlocked.found spend.locked hbytes hwitness
    hscript hfeasible

/-- A holder who can spend turns each awaited witness into a spend. -/
theorem HolderCanSpend.spend {h : Hash256} {feasible : Set Bytes}
    {ledger : LedgerState} {core : TransactionCore} {others : List Bytes}
    {currentHeight : UInt64} {chainId : UInt32} {inputIndex : ℕ}
    {input : TransactionInput} {tracked : TrackedOutput}
    (hspend : HolderCanSpend h feasible)
    (hawaits : AwaitsWitness ledger core others currentHeight chainId
      inputIndex input tracked feasible)
    (hlocked : tracked.output.ownerScriptHash = h) :
    ∃ spend : LockedSpend h feasible, spend.tx.core = core ∧
      (spend.ledger.applyTransaction spend.tx defaultScriptEngine
        spend.currentHeight spend.chainId).1 = .ok () := by
  obtain ⟨bytes, witness, scriptBytes, hwitness, hscript, hfeasible, happly⟩ :=
    hspend ledger core others currentHeight chainId inputIndex input tracked
      hawaits hlocked
  have hbytes : (others.set inputIndex bytes)[inputIndex]? = some bytes :=
    List.getElem?_set_self hawaits.witnessed
  have hunlocked := unlocked_of_apply happly hawaits.present hawaits.found
    hbytes hwitness
  have hsignable := hawaits.signable
  rw [hlocked] at hsignable
  exact ⟨⟨ledger, ⟨core, ⟨others.set inputIndex bytes⟩⟩, currentHeight,
    chainId, inputIndex, input, tracked, witness, hawaits.present, hlocked,
    hunlocked, ⟨scriptBytes, hfeasible, hscript⟩, hsignable⟩, rfl, happly⟩

/-- A script with the key in front of its `CheckSig` is a lock which requires
that `CheckSig`. -/
theorem requiresCheckSig_of_script {publicKey : PublicKey} {script : Script}
    {before after : List OpCode} {feasible : Set Bytes}
    {signatureBytes publicKeyBytes scriptBytes : Bytes} {rest : List Bytes}
    (hfree : CollisionFree feasible)
    (hops : script.ops = before ++ .checkSig :: after)
    (hpushed : before.foldl stackAfter [] =
      signatureBytes :: publicKeyBytes :: rest)
    (hpublicKey : PublicKey.fromBytes publicKeyBytes = .ok publicKey)
    (hencode : encodeScript script = some scriptBytes)
    (hfeasible : scriptBytes ∈ feasible) :
    RequiresCheckSig publicKey (Blake3.hash scriptBytes) feasible := by
  intro ledger tx currentHeight chainId inputIndex input tracked bytes witness
    presented happly hinput hfound hlocked hbytes hwitness hpresented
    hpresentedFeasible
  have hunlocked :=
    unlocked_of_apply happly hinput hfound hbytes hwitness
  obtain ⟨x, hx, hhash⟩ := hunlocked.scriptMatches
  obtain rfl : presented = x := Option.some.inj (hpresented.symm.trans hx)
  obtain rfl : presented = scriptBytes :=
    hfree hpresentedFeasible hfeasible (hhash.trans hlocked)
  obtain rfl : witness.script = script :=
    encodeScript_selfDelimiting.uniquelyEncoded hpresented hencode
  obtain ⟨result, hrun⟩ := hunlocked.evaluates
  obtain ⟨vm, hbefore, hitems, -⟩ := demand_of_eval hrun hops
  exact ⟨before, after, vm, signatureBytes, publicKeyBytes, rest, hops,
    hbefore, hitems.trans hpushed, hpublicKey⟩

/-! ## Payments to different recipients -/

/-- One unit of QCOIN. -/
def lockedOutput (owner : Hash256) : Output :=
  ⟨owner, [⟨QCOIN_ASSET_ID, 1⟩], none⟩

def fundingInput : TransactionInput := ⟨Hash256.fill 0, 0⟩

/-- The one output of this ledger is locked to `h`. -/
def lockedLedger (h : Hash256) : LedgerState :=
  ⟨Finmap.singleton fundingInput.key ⟨lockedOutput h, 0⟩, ∅⟩

def paymentCore (recipient : Hash256) : TransactionCore :=
  ⟨.transfer, [fundingInput], [lockedOutput recipient]⟩

omit [Blake3] [PqCrypto] [Bincode] in
theorem paymentCore_injective : Function.Injective paymentCore := by
  intro recipient recipient' heq
  simpa [paymentCore, lockedOutput] using heq

/-- The message to sign for a payment out of the lock belongs to the set. -/
def PaymentFeasible (h : Hash256) (feasible : Set Bytes)
    (recipient : Hash256) : Prop :=
  ∃ message ∈ feasible,
    (Transaction.mk (paymentCore recipient) ⟨[[]]⟩).sighashPreimage 0
      (lockedOutput h) h 0 {} = some message

theorem payment_awaitsWitness {h recipient : Hash256} {feasible : Set Bytes}
    (hfeasible : PaymentFeasible h feasible recipient) :
    AwaitsWitness (lockedLedger h) (paymentCore recipient) [[]] 0 0 0
      fundingInput ⟨lockedOutput h, 0⟩ feasible := by
  have hfound : (lockedLedger h).utxos.lookup fundingInput.key =
      some ⟨lockedOutput h, 0⟩ :=
    Finmap.lookup_singleton_eq
  have hconsumed : (lockedLedger h).consumedOutputs [fundingInput] =
      [lockedOutput h] := by
    rw [LedgerState.consumedOutputs_cons hfound]
    rfl
  refine ⟨rfl, hfound, rfl, by simp [paymentCore], ?_, ?_, by simp, ?_,
    hfeasible⟩
  · intro created hcreated
    exact absurd hcreated (Option.not_mem_none created)
  · intro id hid
    change totalOf id ((lockedLedger h).consumedOutputs [fundingInput]) =
      totalOf id [lockedOutput recipient]
    rw [hconsumed]
    rfl
  · intro entry hentry hindex
    obtain rfl : entry = (fundingInput, 0) := List.mem_singleton.mp hentry
    exact absurd rfl hindex

/-- A lock with both properties lets its output go to one recipient. -/
theorem recipient_unique {scheme : PqSignatureScheme} {publicKey : PublicKey}
    {secretKey : PrivateKey} {h recipient recipient' : Hash256}
    {feasible : Set Bytes} (hfree : CollisionFree feasible)
    (hpair : RegisteredKeyPair scheme publicKey secretKey)
    (hrequires : RequiresCheckSig publicKey h feasible)
    (hspend : HolderCanSpend h feasible)
    (hfeasible : PaymentFeasible h feasible recipient)
    (hfeasible' : PaymentFeasible h feasible recipient') :
    recipient = recipient' := by
  obtain ⟨spend, hcore, happly⟩ :=
    hspend.spend (payment_awaitsWitness hfeasible) rfl
  obtain ⟨spend', hcore', -⟩ :=
    hspend.spend (payment_awaitsWitness hfeasible') rfl
  have hcores : spend.tx.core = spend'.tx.core :=
    LockedSpend.core_eq hfree hpair spend spend'
      (hrequires.executes spend happly)
  rw [hcore, hcore'] at hcores
  exact paymentCore_injective hcores

/-- No lock which requires a `CheckSig` against a key leaves the holder of
the key free to spend the output. -/
theorem checkSig_not_spendable {scheme : PqSignatureScheme}
    {publicKey : PublicKey} {secretKey : PrivateKey}
    {h recipient recipient' : Hash256} {feasible : Set Bytes}
    (hfree : CollisionFree feasible)
    (hpair : RegisteredKeyPair scheme publicKey secretKey)
    (hfeasible : PaymentFeasible h feasible recipient)
    (hfeasible' : PaymentFeasible h feasible recipient')
    (hne : recipient ≠ recipient') :
    ¬(RequiresCheckSig publicKey h feasible ∧ HolderCanSpend h feasible) := by
  rintro ⟨hrequires, hspend⟩
  exact hne (recipient_unique hfree hpair hrequires hspend hfeasible
    hfeasible')

end Locked

/-! ## A key of the stand-in module -/

section Placeholder

open scoped StandIns

theorem validatorKey_registered (n : UInt8) :
    RegisteredKeyPair dilithium2Scheme (StandIns.validatorKey n)
      (StandIns.validatorSecret n) := by
  have hverify : ∀ (message : Hash256) (signature : Signature),
      dilithium2Scheme.verify (StandIns.validatorKey n) message.bytes
          signature = .ok () ↔
        signature = ⟨.dilithium2, n :: message.bytes⟩ := by
    rintro message ⟨scheme, bytes⟩
    rw [dilithium2Scheme, moduleScheme_verify_eq_ok, Signature.mk.injEq]
    constructor
    · rintro ⟨⟨-, hscheme⟩, -, -, hsigned⟩
      exact ⟨hscheme, beq_iff_eq.mp hsigned⟩
    · rintro ⟨rfl, rfl⟩
      have hlength : (n :: message.bytes).length ≤ 128 := by
        simp [message.size]
      exact ⟨⟨rfl, rfl⟩, rfl, decide_eq_true hlength, beq_self_eq_true _⟩
  refine ⟨rfl, ?_, ?_⟩
  · intro entropy message
    refine ⟨⟨.dilithium2, n :: message.bytes⟩, ?_, (hverify _ _).mpr rfl⟩
    have hsize : message.bytes.length = 32 := message.size
    simp [dilithium2Scheme, moduleScheme, StandIns.validatorSecret,
      PqCrypto.dilithium2, StandIns.echoModule, Signature.new, newKey,
      validateKeySize, signatureSize, moduleSize, hsize]
  · intro signature message message' h h'
    have hbytes : n :: message.bytes = n :: message'.bytes := by
      have heq := ((hverify _ _).mp h).symm.trans ((hverify _ _).mp h')
      exact (Signature.mk.inj heq).2
    exact Hash256.bytes_injective (List.cons.inj hbytes).2

/-- Whatever the owner hash, one of the two properties fails. -/
theorem validatorKey_has_no_lock :
    RegisteredKeyPair dilithium2Scheme (StandIns.validatorKey 1)
        (StandIns.validatorSecret 1) ∧
      ¬∃ (h recipient recipient' : Hash256) (feasible : Set Bytes),
        CollisionFree feasible ∧ recipient ≠ recipient' ∧
        PaymentFeasible h feasible recipient ∧
        PaymentFeasible h feasible recipient' ∧
        RequiresCheckSig (StandIns.validatorKey 1) h feasible ∧
        HolderCanSpend h feasible := by
  refine ⟨validatorKey_registered 1, ?_⟩
  rintro ⟨h, recipient, recipient', feasible, hfree, hne, hfeasible,
    hfeasible', hrequires, hspend⟩
  exact hne (recipient_unique hfree (validatorKey_registered 1) hrequires
    hspend hfeasible hfeasible')

/-- The lock which is hashed before there is a signature to push. -/
def placeholderScript : Script :=
  ⟨[.pushBytes [1, 0, 1, 0, 0, 0, 1], .pushBytes [], .checkSig]⟩

def placeholderHash : Hash256 :=
  Blake3.hash ((encodeScript placeholderScript).getD [])

def placeholderStrings : List Bytes :=
  (encodeScript placeholderScript).toList ++
    [Hash256.fill 1, Hash256.fill 2].flatMap fun recipient =>
      ((Transaction.mk (paymentCore recipient) ⟨[[]]⟩).sighashPreimage 0
        (lockedOutput placeholderHash) placeholderHash 0 {}).toList

theorem placeholderStrings_collisionFree :
    CollisionFree {x | x ∈ placeholderStrings} := by
  have hfree : ∀ x ∈ placeholderStrings, ∀ y ∈ placeholderStrings,
      Blake3.hash x = Blake3.hash y → x = y := by
    decide +kernel
  exact fun x hx y hy => hfree x hx y hy

theorem placeholder_requiresCheckSig :
    RequiresCheckSig (StandIns.validatorKey 1) placeholderHash
      {x | x ∈ placeholderStrings} := by
  have hpublicKey : PublicKey.fromBytes [1, 0, 1, 0, 0, 0, 1] =
      .ok (StandIns.validatorKey 1) := by
    decide
  have hmem : (encodeScript placeholderScript).getD [] ∈
      placeholderStrings := by
    decide +kernel
  have hops : placeholderScript.ops =
      [.pushBytes [1, 0, 1, 0, 0, 0, 1], .pushBytes []] ++ [.checkSig] := rfl
  exact requiresCheckSig_of_script placeholderStrings_collisionFree hops rfl
    hpublicKey rfl hmem

/-- Placing the key in front of `CheckSig` does require the signature; what
is lost is the second property. -/
theorem placeholder_not_spendable :
    RequiresCheckSig (StandIns.validatorKey 1) placeholderHash
        {x | x ∈ placeholderStrings} ∧
      ¬HolderCanSpend placeholderHash {x | x ∈ placeholderStrings} := by
  have hfeasible : ∀ recipient ∈ [Hash256.fill 1, Hash256.fill 2],
      PaymentFeasible placeholderHash {x | x ∈ placeholderStrings}
        recipient := by
    have hmessages : ∀ recipient ∈ [Hash256.fill 1, Hash256.fill 2],
        ∃ message ∈ placeholderStrings,
          (Transaction.mk (paymentCore recipient) ⟨[[]]⟩).sighashPreimage 0
            (lockedOutput placeholderHash) placeholderHash 0 {} =
              some message := by
      decide +kernel
    exact hmessages
  have hboth := checkSig_not_spendable placeholderStrings_collisionFree
    (validatorKey_registered 1) (hfeasible (Hash256.fill 1) (by simp))
    (hfeasible (Hash256.fill 2) (by simp)) (by decide)
  refine ⟨placeholder_requiresCheckSig, fun hspend => ?_⟩
  exact hboth ⟨placeholder_requiresCheckSig, hspend⟩

end Placeholder

end QCoin
