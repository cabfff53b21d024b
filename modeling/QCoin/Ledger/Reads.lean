import QCoin.Ledger.Specification
import QCoin.Script.Views

/-!
# What a transaction reads

Acceptance depends on the outputs which the inputs refer to, on whether the
created asset exists and on the height, and it is not lost when the height
grows.
-/

namespace QCoin

open Support
open Support.Result

section Reads

variable [Blake3] [PqCrypto]

namespace LedgerState

/-- The two ledgers agree on what the transaction reads. -/
structure SameReads (ledger ledger' : LedgerState) (core : TransactionCore)
    (chainId : UInt32) : Prop where
  inputs : ∀ input ∈ core.inputs,
    ledger'.utxos.lookup input.key = ledger.utxos.lookup input.key
  creation : ∀ created ∈ core.kind.createdAsset chainId,
    (created.assetId ∈ ledger'.assets ↔ created.assetId ∈ ledger.assets)

variable {ledger ledger' : LedgerState} {tx : Transaction}
  {config : VmConfig} {currentHeight currentHeight' : UInt64}
  {chainId : UInt32}

omit [PqCrypto] in
theorem SameReads.refl (ledger : LedgerState) (core : TransactionCore)
    (chainId : UInt32) : ledger.SameReads ledger core chainId :=
  ⟨fun _ _ => rfl, fun _ _ => Iff.rfl⟩

omit [PqCrypto] in
theorem SameReads.symm
    (h : ledger.SameReads ledger' tx.core chainId) :
    ledger'.SameReads ledger tx.core chainId :=
  ⟨fun input hinput => (h.inputs input hinput).symm,
    fun created hcreated => (h.creation created hcreated).symm⟩

omit [PqCrypto] in
theorem SameReads.consumedOutputs
    (h : ledger.SameReads ledger' tx.core chainId) :
    ledger'.consumedOutputs tx.core.inputs =
      ledger.consumedOutputs tx.core.inputs := by
  apply List.filterMap_congr
  intro input hinput
  rw [h.inputs input hinput]

omit [PqCrypto] in
/-- What a script sees while an input is checked. -/
theorem SameReads.viewLe (h : ledger.SameReads ledger' tx.core chainId)
    (hle : currentHeight ≤ currentHeight') (inputIndex : ℕ)
    (tracked : TrackedOutput) :
    ViewLe (inputContext tx inputIndex currentHeight chainId tracked)
      (inputContext tx inputIndex currentHeight' chainId tracked)
      (ledger.scriptHost currentHeight)
      (ledger'.scriptHost currentHeight') := by
  have hresolve : ∀ input ∈ tx.core.inputs,
      (ledger'.scriptHost currentHeight').inputUtxo input =
        (ledger.scriptHost currentHeight).inputUtxo input := by
    intro input hinput
    simp only [scriptHost, h.inputs input hinput]
  refine ⟨?_, ?_, ?_⟩
  · unfold inputSighash inputContext
    cases hinput : tx.core.inputs[inputIndex]? with
    | none => rfl
    | some input =>
        have heq := hresolve input (List.mem_of_getElem? hinput)
        simp only [okOr, bind, Except.bind, heq]
  · unfold inputCreatedHeight inputContext
    cases hinput : tx.core.inputs[inputIndex]? with
    | none => rfl
    | some input =>
        have heq := hresolve input (List.mem_of_getElem? hinput)
        simp only [Option.bind_eq_bind, Option.bind_some, heq]
  · intro current hcurrent
    obtain rfl : currentHeight = current := Option.some.inj hcurrent
    exact ⟨currentHeight', rfl, hle⟩

/-- Acceptance carries over to a ledger which reads alike and to a later
height. -/
theorem SameReads.accepts [Bincode]
    (h : ledger.SameReads ledger' tx.core chainId)
    (hle : currentHeight ≤ currentHeight')
    (haccepts : ledger.Accepts tx (deterministicScriptEngine config)
      currentHeight chainId) :
    ledger'.Accepts tx (deterministicScriptEngine config) currentHeight'
      chainId := by
  refine ⟨haccepts.inputsDistinct, ?_, ?_, ?_⟩
  · rintro ⟨input, inputIndex⟩ hentry
    obtain ⟨tracked, witness, hunlocked⟩ := haccepts.unlocked _ hentry
    obtain ⟨result, heval⟩ := hunlocked.evaluates
    have hmem : input ∈ tx.core.inputs :=
      List.mem_of_getElem? (List.mem_zipIdx_iff_getElem?.mp hentry)
    exact ⟨tracked, witness, (h.inputs input hmem).trans hunlocked.found,
      hunlocked.presented, hunlocked.scriptMatches, hunlocked.metadataOk,
      result, (h.viewLe hle inputIndex tracked).eval heval⟩
  · intro created hcreated
    have hold := haccepts.creation created hcreated
    have hspent := h.consumedOutputs
    refine ⟨hold.notNative, fun hmem => ?_, hold.minted, hold.withinMax, ?_, ?_⟩
    · exact hold.fresh ((h.creation created hcreated).mp hmem)
    · rw [hspent]
      exact hold.notSpent
    · rw [hspent]
      exact hold.authorized
  · rw [h.consumedOutputs]
    exact haccepts.conserved

/-- A transaction accepted at one height is accepted at every later height,
and the two ledgers differ in the creation heights of its outputs only. -/
theorem applyTransaction_height_mono [Bincode] {after : LedgerState}
    (hle : currentHeight ≤ currentHeight')
    (h : ledger.applyTransaction tx (deterministicScriptEngine config)
      currentHeight chainId = (.ok (), after)) :
    ∃ after', ledger.applyTransaction tx (deterministicScriptEngine config)
        currentHeight' chainId = (.ok (), after') ∧
      after'.assets = after.assets ∧
      ∃ txId, tx.txId = some txId ∧
        (∀ (i : ℕ) (output : Output), tx.core.outputs[i]? = some output →
          after.utxos.lookup ⟨txId, UInt32.ofNat i⟩ =
              some ⟨output, currentHeight⟩ ∧
            after'.utxos.lookup ⟨txId, UInt32.ofNat i⟩ =
              some ⟨output, currentHeight'⟩) ∧
        ∀ key ∉ createdKeys txId tx.core.outputs,
          after'.utxos.lookup key = after.utxos.lookup key := by
  obtain ⟨haccepts, txId, htxId, rfl⟩ := applyTransaction_eq_ok.mp h
  have haccepts' := (SameReads.refl ledger tx.core chainId).accepts hle haccepts
  have heffect : ledger.Effect tx.core txId currentHeight chainId _ :=
    afterCore_effect htxId
  have heffect' : ledger.Effect tx.core txId currentHeight' chainId _ :=
    afterCore_effect htxId
  refine ⟨_, applyTransaction_eq_ok.mpr ⟨haccepts', txId, htxId, rfl⟩,
    heffect'.assets.trans heffect.assets.symm, txId, htxId, ?_, ?_⟩
  · intro i output houtput
    exact ⟨heffect.created i output houtput,
      heffect'.created i output houtput⟩
  · intro key hcreated
    by_cases hconsumed : key ∈ tx.core.inputs.map TransactionInput.key
    · rw [heffect'.consumed key hconsumed hcreated,
        heffect.consumed key hconsumed hcreated]
    · rw [heffect'.untouched key hcreated hconsumed,
        heffect.untouched key hcreated hconsumed]

end LedgerState

end Reads

/-! ## A locked output -/

section TwoHeights

open StandIns

/-- A script which waits for height `2` and for one block after the output. -/
def waitingScript : Script :=
  ⟨[.pushBytes (leBytes 8 2), .checkTimeLock, .pushBytes (leBytes 8 1),
    .checkRelativeTimeLock]⟩

/-- An input witness which presents it. -/
def waitingWitness : Bytes :=
  leBytes 8 4 ++ (leBytes 4 5 ++ leBytes 8 8 ++ leBytes 8 2) ++ leBytes 4 2 ++
    (leBytes 4 5 ++ leBytes 8 8 ++ leBytes 8 1) ++ leBytes 4 3 ++ [0]

def timelockedOutput : Output where
  ownerScriptHash :=
    Blake3.hash ((encodeScript waitingScript).getD [])
  assets := []
  metadataHash := none

/-- The output was created at height `1`. -/
def timelockedLedger : LedgerState where
  utxos := Finmap.singleton ⟨Hash256.fill 1, 0⟩ ⟨timelockedOutput, 1⟩
  assets := ∅

def unlockingSpend : Transaction where
  core := ⟨.transfer, [⟨Hash256.fill 1, 0⟩], [openOutput []]⟩
  witness := ⟨[waitingWitness]⟩

/-- The output is spent at height `2`, hence at height `3`, and not before. -/
theorem unlockingSpend_height_mono :
    (timelockedLedger.applyTransaction unlockingSpend
      (deterministicScriptEngine VmConfig.default) 1 0).1 ≠ .ok () ∧
    ∃ after', timelockedLedger.applyTransaction unlockingSpend
      (deterministicScriptEngine VmConfig.default) 3 0 = (.ok (), after') := by
  have hunlocked : (timelockedLedger.applyTransaction unlockingSpend
      (deterministicScriptEngine VmConfig.default) 2 0).1 = .ok () := by
    decide +kernel
  have hle : (2 : UInt64) ≤ 3 := by decide
  obtain ⟨after', happly, -⟩ := LedgerState.applyTransaction_height_mono hle
    (Prod.ext hunlocked rfl)
  exact ⟨by decide +kernel, after', happly⟩

end TwoHeights

end QCoin
