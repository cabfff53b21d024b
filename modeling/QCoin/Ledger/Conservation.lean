import QCoin.Ledger.Run
import QCoin.Ledger.StandIns

/-!
# Conservation of asset amounts

The ledger compares `u128` totals, so an accepted transaction conserves every
asset modulo `2 ^ 128`.  It conserves the amounts themselves exactly when the
additions on both sides overflow equally often.
-/

namespace QCoin

open Support

/-- The total of one asset as a natural number. -/
def exactTotalOf (id : AssetId) (outputs : List Output) : ℕ :=
  exactSum (amountsOf id outputs)

/-- How many of the additions which total one asset overflow a `u128`. -/
def overflowsOf (id : AssetId) (outputs : List Output) : ℕ :=
  carries 0 (amountsOf id outputs)

section Conservation

/-- Equal wrapped totals come from equal exact totals exactly when they wrap
equally often. -/
theorem exactTotalOf_eq_iff_overflowsOf_eq {id : AssetId}
    {xs ys : List Output} (h : totalOf id xs = totalOf id ys) :
    exactTotalOf id xs = exactTotalOf id ys ↔
      overflowsOf id xs = overflowsOf id ys :=
  exactSum_eq_iff_carries_eq h

/-- The declared supply is the exact total unless that total overflows. -/
theorem LedgerState.CreationAccepted.exactTotalOf_eq_iff
    {ledger : LedgerState} {core : TransactionCore} {created : CreatedAsset}
    (h : ledger.CreationAccepted core created) :
    (exactTotalOf created.assetId core.outputs =
        created.initialSupply.toNat ∧
      ∀ max ∈ created.definition.maxSupply,
        exactTotalOf created.assetId core.outputs ≤ max.toNat) ↔
      overflowsOf created.assetId core.outputs = 0 := by
  have hsupply : exactTotalOf created.assetId core.outputs =
      created.initialSupply.toNat ↔
        overflowsOf created.assetId core.outputs = 0 := by
    rw [← h.minted]
    exact exactSum_eq_toNat_iff
  constructor
  · rintro ⟨htotal, -⟩
    exact hsupply.mp htotal
  · intro hoverflows
    have htotal := hsupply.mpr hoverflows
    refine ⟨htotal, fun max hmax => ?_⟩
    rw [htotal]
    exact BitVec.le_def.mp (h.withinMax max hmax)

variable [Blake3]

/-- Nothing is created or destroyed apart from the declared supply of a new
asset. -/
def ConservesExactly (ledger : LedgerState) (core : TransactionCore)
    (chainId : UInt32) : Prop :=
  match core.kind with
  | .transfer =>
      ∀ id, exactTotalOf id (ledger.consumedOutputs core.inputs) =
        exactTotalOf id core.outputs
  | .createAsset definition initialSupply =>
      let derived := deriveAssetId definition chainId
      (∀ id, id ≠ derived →
        exactTotalOf id (ledger.consumedOutputs core.inputs) =
          exactTotalOf id core.outputs) ∧
      exactTotalOf derived core.outputs = initialSupply.toNat ∧
      ∀ max ∈ definition.maxSupply,
        exactTotalOf derived core.outputs ≤ max.toNat

/-- The input and the output totals overflow equally often, and the total of a
new asset does not overflow. -/
def OverflowsAgree (ledger : LedgerState) (core : TransactionCore)
    (chainId : UInt32) : Prop :=
  match core.kind with
  | .transfer =>
      ∀ id, overflowsOf id (ledger.consumedOutputs core.inputs) =
        overflowsOf id core.outputs
  | .createAsset definition _ =>
      let derived := deriveAssetId definition chainId
      (∀ id, id ≠ derived →
        overflowsOf id (ledger.consumedOutputs core.inputs) =
          overflowsOf id core.outputs) ∧
      overflowsOf derived core.outputs = 0

variable [Bincode] {ledger : LedgerState} {tx : Transaction}
  {engine : ScriptEngine} {currentHeight : UInt64} {chainId : UInt32}

theorem LedgerState.Accepts.conservesExactly_iff
    (h : ledger.Accepts tx engine currentHeight chainId) :
    ConservesExactly ledger tx.core chainId ↔
      OverflowsAgree ledger tx.core chainId := by
  have hconserved := h.conserved
  have hcreation := h.creation
  unfold ConservesExactly OverflowsAgree
  cases hkind : tx.core.kind with
  | transfer =>
      rw [hkind] at hconserved
      have htotal : ∀ id, totalOf id (ledger.consumedOutputs tx.core.inputs) =
          totalOf id tx.core.outputs := fun id =>
        hconserved id (by simp [TransactionKind.createdAsset])
      exact forall_congr' fun id =>
        exactTotalOf_eq_iff_overflowsOf_eq (htotal id)
  | createAsset definition initialSupply =>
      rw [hkind] at hconserved hcreation
      have hothers : ∀ id, id ≠ deriveAssetId definition chainId →
          totalOf id (ledger.consumedOutputs tx.core.inputs) =
            totalOf id tx.core.outputs := fun id hne =>
        hconserved id (by simpa [TransactionKind.createdAsset] using hne)
      have hderived := hcreation _ rfl
      exact and_congr
        (forall_congr' fun id => imp_congr_right fun hne =>
          exactTotalOf_eq_iff_overflowsOf_eq (hothers id hne))
        hderived.exactTotalOf_eq_iff

/-- An accepted transaction conserves the exact amounts if and only if its
input and output totals overflow equally often. -/
theorem applyTransaction_conserves_exactly_iff {ledger' : LedgerState}
    (happly : ledger.applyTransaction tx engine currentHeight chainId =
      (.ok (), ledger')) :
    ConservesExactly ledger tx.core chainId ↔
      OverflowsAgree ledger tx.core chainId :=
  (LedgerState.applyTransaction_eq_ok.mp happly).1.conservesExactly_iff

end Conservation

/-! ## A transfer which conserves -/

section OrdinaryTransfer

/-- Five units of QCOIN locked to the script which always succeeds. -/
def fiveCoins : Output where
  ownerScriptHash := StandIns.nopScriptHash
  assets := [⟨QCOIN_ASSET_ID, 5⟩]
  metadataHash := none

def fiveCoinLedger : LedgerState where
  utxos := Finmap.singleton ⟨default, 0⟩ ⟨fiveCoins, 0⟩
  assets := ∅

def fiveCoinTransfer : Transaction where
  core := {
    kind := .transfer
    inputs := [⟨default, 0⟩]
    outputs := [fiveCoins] }
  witness := ⟨[StandIns.nopWitness]⟩

open scoped StandIns

theorem fiveCoinTransfer_conserves_exactly_iff :
    ConservesExactly fiveCoinLedger fiveCoinTransfer.core 0 ↔
      OverflowsAgree fiveCoinLedger fiveCoinTransfer.core 0 := by
  have hok : (fiveCoinLedger.applyTransaction fiveCoinTransfer
      StandIns.acceptAll 1 0).1.isOk = true := by
    decide +kernel
  exact applyTransaction_conserves_exactly_iff
    (Prod.ext (Result.eq_ok_of_isOk hok) rfl)

end OrdinaryTransfer

/-! ## A transfer which overflows -/

/-- Two entries of `2 ^ 127` units of QCOIN, paid for by nothing. -/
def overflowingTransfer : Transaction where
  core := {
    kind := .transfer
    inputs := []
    outputs := [{
      ownerScriptHash := default
      assets := [⟨QCOIN_ASSET_ID, BitVec.ofNat 128 (2 ^ 127)⟩,
        ⟨QCOIN_ASSET_ID, BitVec.ofNat 128 (2 ^ 127)⟩]
      metadataHash := none }] }
  witness := ⟨[]⟩

theorem overflowingTransfer_amounts (id : AssetId) :
    amountsOf id overflowingTransfer.core.outputs =
      if QCOIN_ASSET_ID = id then
        [BitVec.ofNat 128 (2 ^ 127), BitVec.ofNat 128 (2 ^ 127)]
      else [] := by
  by_cases hid : QCOIN_ASSET_ID = id
  · simp [amountsOf, overflowingTransfer, hid]
  · simp [amountsOf, overflowingTransfer, hid]

theorem overflowingTransfer_accepts (_ : Blake3) (_ : Bincode)
    (engine : ScriptEngine) (currentHeight : UInt64) (chainId : UInt32) :
    LedgerState.empty.Accepts overflowingTransfer engine currentHeight
      chainId where
  inputsDistinct := List.nodup_nil
  unlocked := by
    intro entry hentry
    simp [overflowingTransfer] at hentry
  creation := by
    intro created hcreated
    simp [overflowingTransfer, TransactionKind.createdAsset] at hcreated
  conserved := by
    intro id _
    rw [totalOf, totalOf, overflowingTransfer_amounts]
    by_cases hid : QCOIN_ASSET_ID = id
    · rw [if_pos hid]
      rfl
    · rw [if_neg hid]
      rfl

/-- Units of QCOIN come out of nothing, whatever the hash function and the
witness format. -/
theorem apply_transaction_mints_on_overflow :
    ¬∃ (_ : Blake3) (_ : Bincode), ∀ (ledger ledger' : LedgerState)
      (tx : Transaction) (engine : ScriptEngine) (currentHeight : UInt64)
      (chainId : UInt32),
      ledger.applyTransaction tx engine currentHeight chainId =
        (.ok (), ledger') → ConservesExactly ledger tx.core chainId := by
  rintro ⟨blake3, bincode, hclaim⟩
  have hencode : (encodeTxCore overflowingTransfer.core).isSome = true := by
    decide +kernel
  obtain ⟨bytes, hbytes⟩ := Option.isSome_iff_exists.mp hencode
  have htxId : overflowingTransfer.txId = some (Blake3.hash bytes) := by
    rw [Transaction.txId, TransactionCore.txId, hbytes]
    rfl
  have happly := LedgerState.applyTransaction_eq_ok (u := ()) |>.mpr
    ⟨overflowingTransfer_accepts blake3 bincode StandIns.acceptAll 1 0,
      _, htxId, rfl⟩
  have hexact := hclaim _ _ _ _ _ _ happly QCOIN_ASSET_ID
  rw [exactTotalOf, exactTotalOf, overflowingTransfer_amounts,
    if_pos rfl] at hexact
  exact absurd hexact (by decide)

end QCoin
