import QCoin.Ledger.Run
import QCoin.Ledger.StandIns
import QCoin.Script.Encodings

/-!
# The specification of a transaction

What it means for a transaction to be valid and what it does to the ledger,
with no reference to loops, totals or the order of checks, and the proof that
`apply_transaction` computes exactly this.  The one limit is that of `tx_id`,
which panics on lists whose length does not fit into 32 bits.
-/

namespace QCoin

open Support

/-! ## Transactions with an id -/

theorem exists_txId_iff [Blake3] {core : TransactionCore} :
    (∃ txId, core.txId = some txId) ↔ core.LengthsFit := by
  rw [← encodeTxCore_isSome, ← Option.isSome_iff_exists, TransactionCore.txId,
    Option.isSome_map]

section Specification

variable [Blake3] [Bincode]

namespace LedgerState

/-! ## Validity -/

/-- The input at position `inputIndex` may be spent. -/
def SpendableInput (ledger : LedgerState) (tx : Transaction)
    (engine : ScriptEngine) (currentHeight : UInt64) (chainId : UInt32)
    (inputIndex : ℕ) (input : TransactionInput) : Prop :=
  ∃ tracked bytes witness scriptBytes result,
    ledger.utxos.lookup input.key = some tracked ∧
    tx.witness.inputs[inputIndex]? = some bytes ∧
    Bincode.deserializeWitness bytes = some witness ∧
    encodeScript witness.script = some scriptBytes ∧
    Blake3.hash scriptBytes = tracked.output.ownerScriptHash ∧
    witness.metadata.map Blake3.hash = tracked.output.metadataHash ∧
    engine witness.script
      (inputContext tx inputIndex currentHeight chainId tracked)
      (ledger.scriptHost currentHeight) = .ok result

/-- The sums of the asset agree. -/
def Balances (ledger : LedgerState) (core : TransactionCore) (id : AssetId) :
    Prop :=
  totalOf id (ledger.consumedOutputs core.inputs) = totalOf id core.outputs

/-- The asset rules for either kind of transaction. -/
def AssetRules (ledger : LedgerState) (core : TransactionCore)
    (chainId : UInt32) : Prop :=
  match core.kind with
  | .transfer => ∀ id, ledger.Balances core id
  | .createAsset definition initialSupply =>
      deriveAssetId definition chainId ≠ QCOIN_ASSET_ID ∧
      deriveAssetId definition chainId ∉ ledger.assets ∧
      totalOf (deriveAssetId definition chainId) core.outputs =
        initialSupply ∧
      (∀ max ∈ definition.maxSupply, initialSupply ≤ max) ∧
      totalOf (deriveAssetId definition chainId)
        (ledger.consumedOutputs core.inputs) = 0 ∧
      (∃ output ∈ ledger.consumedOutputs core.inputs,
        output.ownerScriptHash = definition.issuerScriptHash ∨
          ∃ asset ∈ output.assets,
            asset.assetId = deriveAssetId definition chainId) ∧
      ∀ id, id ≠ deriveAssetId definition chainId → ledger.Balances core id

structure ValidTransaction (ledger : LedgerState) (tx : Transaction)
    (engine : ScriptEngine) (currentHeight : UInt64) (chainId : UInt32) :
    Prop where
  inputsDistinct : (tx.core.inputs.map TransactionInput.key).Nodup
  spendable : ∀ (inputIndex : ℕ) (input : TransactionInput),
    tx.core.inputs[inputIndex]? = some input →
      ledger.SpendableInput tx engine currentHeight chainId inputIndex input
  assetRules : ledger.AssetRules tx.core chainId

/-! ## Effect -/

/-- What a transaction with this id does to the ledger. -/
structure Effect (before : LedgerState) (core : TransactionCore)
    (txId : Hash256) (currentHeight : UInt64) (chainId : UInt32)
    (after : LedgerState) : Prop where
  created : ∀ (i : ℕ) (output : Output), core.outputs[i]? = some output →
    after.utxos.lookup ⟨txId, UInt32.ofNat i⟩ = some ⟨output, currentHeight⟩
  consumed : ∀ key ∈ core.inputs.map TransactionInput.key,
    key ∉ createdKeys txId core.outputs → after.utxos.lookup key = none
  untouched : ∀ key ∉ createdKeys txId core.outputs,
    key ∉ core.inputs.map TransactionInput.key →
      after.utxos.lookup key = before.utxos.lookup key
  assets : after.assets =
    match core.kind with
    | .transfer => before.assets
    | .createAsset definition _ =>
        before.assets.insert (deriveAssetId definition chainId) definition

omit [Bincode] in
/-- The effect leaves no choice. -/
theorem Effect.unique {before after after' : LedgerState}
    {core : TransactionCore} {txId : Hash256} {currentHeight : UInt64}
    {chainId : UInt32}
    (h : before.Effect core txId currentHeight chainId after)
    (h' : before.Effect core txId currentHeight chainId after') :
    after = after' := by
  have hassets : after.assets = after'.assets := h.assets.trans h'.assets.symm
  have hutxos : after.utxos = after'.utxos := by
    apply Finmap.ext_lookup
    intro key
    by_cases hcreated : key ∈ createdKeys txId core.outputs
    · obtain ⟨i, hi, rfl⟩ := mem_createdKeys.mp hcreated
      have houtput := List.getElem?_eq_getElem hi
      rw [h.created i _ houtput, h'.created i _ houtput]
    · by_cases hconsumed : key ∈ core.inputs.map TransactionInput.key
      · rw [h.consumed key hconsumed hcreated,
          h'.consumed key hconsumed hcreated]
      · rw [h.untouched key hcreated hconsumed,
          h'.untouched key hcreated hconsumed]
  exact eq_of_maps_eq hutxos hassets

/-! ## The code meets the specification -/

variable {ledger : LedgerState} {tx : Transaction} {engine : ScriptEngine}
  {currentHeight : UInt64} {chainId : UInt32}

omit [Bincode] in
theorem metadataMatches_iff {expected : Option Hash256}
    {metadata : Option Bytes} :
    metadataMatches expected metadata = true ↔
      metadata.map Blake3.hash = expected := by
  cases expected with
  | none => cases metadata <;> simp [metadataMatches]
  | some hash =>
      cases metadata with
      | none => simp [metadataMatches]
      | some data =>
          rw [metadataMatches, beq_iff_eq, Option.map_some, Option.some.injEq,
            eq_comm]

theorem spendableInput_iff {inputIndex : ℕ} {input : TransactionInput} :
    ledger.SpendableInput tx engine currentHeight chainId inputIndex input ↔
      ∃ tracked witness, ledger.InputUnlocked tx engine currentHeight chainId
        input inputIndex tracked witness := by
  constructor
  · rintro ⟨tracked, bytes, witness, scriptBytes, result, hfound, hbytes,
      hwitness, hscript, hhash, hmetadata, heval⟩
    exact ⟨tracked, witness, hfound, ⟨bytes, hbytes, hwitness⟩,
      ⟨scriptBytes, hscript, hhash⟩, metadataMatches_iff.mpr hmetadata,
      ⟨result, heval⟩⟩
  · rintro ⟨tracked, witness, hfound, ⟨bytes, hbytes, hwitness⟩,
      ⟨scriptBytes, hscript, hhash⟩, hmetadata, ⟨result, heval⟩⟩
    exact ⟨tracked, bytes, witness, scriptBytes, result, hfound, hbytes,
      hwitness, hscript, hhash, metadataMatches_iff.mp hmetadata, heval⟩

omit [Blake3] [Bincode] in
theorem authorizedBy_iff {created : CreatedAsset} {output : Output} :
    created.authorizedBy output = true ↔
      output.ownerScriptHash = created.definition.issuerScriptHash ∨
        ∃ asset ∈ output.assets, asset.assetId = created.assetId := by
  simp [CreatedAsset.authorizedBy]

omit [Bincode] in
theorem assetRules_iff {core : TransactionCore} :
    ledger.AssetRules core chainId ↔
      (∀ created ∈ core.kind.createdAsset chainId,
        ledger.CreationAccepted core created) ∧
      ∀ id, (∀ created ∈ core.kind.createdAsset chainId,
        id ≠ created.assetId) → ledger.Balances core id := by
  rw [AssetRules]
  cases core.kind with
  | transfer => simp [TransactionKind.createdAsset]
  | createAsset definition initialSupply =>
      simp only [TransactionKind.createdAsset, Option.mem_some_iff,
        forall_eq']
      constructor
      · rintro ⟨hnative, hfresh, hminted, hmax, hspent,
          ⟨output, houtput, hauthorized⟩, hbalances⟩
        exact ⟨⟨hnative, hfresh, hminted, hmax, hspent,
          ⟨output, houtput, authorizedBy_iff.mpr hauthorized⟩⟩, hbalances⟩
      · rintro ⟨⟨hnative, hfresh, hminted, hmax, hspent,
          ⟨output, houtput, hauthorized⟩⟩, hbalances⟩
        exact ⟨hnative, hfresh, hminted, hmax, hspent,
          ⟨output, houtput, authorizedBy_iff.mp hauthorized⟩, hbalances⟩

theorem validTransaction_iff :
    ledger.ValidTransaction tx engine currentHeight chainId ↔
      ledger.Accepts tx engine currentHeight chainId := by
  constructor
  · intro h
    obtain ⟨hcreation, hbalances⟩ := assetRules_iff.mp h.assetRules
    refine ⟨h.inputsDistinct, ?_, hcreation, hbalances⟩
    rintro ⟨input, inputIndex⟩ hentry
    exact spendableInput_iff.mp
      (h.spendable inputIndex input (List.mem_zipIdx_iff_getElem?.mp hentry))
  · intro h
    refine ⟨h.inputsDistinct, ?_,
      assetRules_iff.mpr ⟨h.creation, h.conserved⟩⟩
    intro inputIndex input hinput
    exact spendableInput_iff.mpr
      (h.unlocked (input, inputIndex) (List.mem_zipIdx_iff_getElem?.mpr hinput))

omit [Bincode] in
theorem afterCore_effect {core : TransactionCore} {txId : Hash256}
    (h : core.txId = some txId) :
    ledger.Effect core txId currentHeight chainId
      (ledger.afterCore core txId currentHeight chainId) := by
  obtain ⟨bytes, hbytes, -⟩ := Option.map_eq_some_iff.mp h
  have hnodup : (createdKeys txId core.outputs).Nodup :=
    createdKeys_nodup (outputs_length_lt hbytes)
  rw [← map_fst_createdEntries txId core.outputs currentHeight] at hnodup
  refine ⟨?_, ?_, ?_, ?_⟩
  · intro i output houtput
    exact FinMap.lookup_insertAll_of_mem hnodup
      (mem_createdEntries.mpr ⟨i, output, houtput, rfl, rfl⟩)
  · intro key hconsumed hcreated
    rw [← map_fst_createdEntries txId core.outputs currentHeight] at hcreated
    rw [afterCore, insertUtxos_utxos,
      FinMap.lookup_insertAll_of_notMem hcreated, removeUtxos_utxos,
      FinMap.lookup_eraseAll, if_pos hconsumed]
  · intro key hcreated hconsumed
    rw [← map_fst_createdEntries txId core.outputs currentHeight] at hcreated
    rw [afterCore, insertUtxos_utxos,
      FinMap.lookup_insertAll_of_notMem hcreated, removeUtxos_utxos,
      FinMap.lookup_eraseAll, if_neg hconsumed, register_utxos]
  · rw [afterCore, insertUtxos_assets, removeUtxos_assets]
    cases core.kind with
    | transfer => rfl
    | createAsset definition initialSupply => rfl

/-- `apply_transaction` accepts the valid transactions whose lists have
lengths of 32 bits, and has the specified effect on the ledger. -/
theorem applyTransaction_meets_specification {after : LedgerState} :
    ledger.applyTransaction tx engine currentHeight chainId =
        (.ok (), after) ↔
      ledger.ValidTransaction tx engine currentHeight chainId ∧
      tx.core.LengthsFit ∧ ∃ txId, tx.txId = some txId ∧
        ledger.Effect tx.core txId currentHeight chainId after := by
  rw [applyTransaction_eq_ok, validTransaction_iff]
  constructor
  · rintro ⟨haccepts, txId, htxId, rfl⟩
    have hlengths : tx.core.LengthsFit := exists_txId_iff.mp ⟨txId, htxId⟩
    exact ⟨haccepts, hlengths, txId, htxId, afterCore_effect htxId⟩
  · rintro ⟨haccepts, -, txId, htxId, heffect⟩
    exact ⟨haccepts, txId, htxId, (afterCore_effect htxId).unique heffect⟩

end LedgerState

end Specification

/-! ## A valid transaction which is refused -/

section Oversized

open scoped StandIns

/-- Any number of empty outputs, paid for by nothing. -/
def emptyOutputs (n : ℕ) : Transaction where
  core := {
    kind := .transfer
    inputs := []
    outputs := List.replicate n ⟨Hash256.fill 0, [], none⟩ }
  witness := ⟨[]⟩

theorem emptyOutputs_valid (n : ℕ) (ledger : LedgerState)
    (engine : ScriptEngine) (currentHeight : UInt64) (chainId : UInt32) :
    ledger.ValidTransaction (emptyOutputs n) engine currentHeight chainId := by
  refine ⟨List.nodup_nil, ?_, ?_⟩
  · intro inputIndex input hinput
    exact absurd hinput (by simp [emptyOutputs])
  · intro id
    have hassets : (emptyOutputs n).core.outputs.flatMap Output.assets =
        [] := by
      rw [List.flatMap_eq_nil_iff]
      intro output houtput
      rw [List.eq_of_mem_replicate houtput]
    rw [LedgerState.Balances, totalOf, totalOf, amountsOf, amountsOf, hassets]
    rfl

theorem emptyOutputs_lengthsFit {n : ℕ}
    (h : (emptyOutputs n).core.LengthsFit) : n < 2 ^ 32 := by
  have houtputs := h.outputs
  rwa [emptyOutputs, List.length_replicate] at houtputs

/-- With `2 ^ 32` outputs a valid transaction has no id, and the call
panics. -/
theorem oversized_transfer_panics :
    LedgerState.empty.ValidTransaction (emptyOutputs (2 ^ 32))
        StandIns.acceptAll 0 0 ∧
      ¬∃ after, LedgerState.empty.applyTransaction (emptyOutputs (2 ^ 32))
        StandIns.acceptAll 0 0 = (.ok (), after) := by
  refine ⟨emptyOutputs_valid (2 ^ 32) _ _ _ _, ?_⟩
  rintro ⟨after, happly⟩
  obtain ⟨-, txId, htxId, -⟩ := LedgerState.applyTransaction_eq_ok.mp happly
  have hlengths : (emptyOutputs (2 ^ 32)).core.LengthsFit :=
    exists_txId_iff.mp ⟨txId, htxId⟩
  exact absurd (emptyOutputs_lengthsFit hlengths) (Nat.lt_irrefl _)

end Oversized

end QCoin
