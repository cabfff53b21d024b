import QCoin.Ledger.Reads

/-!
# Independent transactions

Two transactions which neither spend the same output nor an output of the
other, and do not create the same asset, read what they would read without the
other.  They can be applied in either order.
-/

namespace QCoin

open Support
open Support.Result

section Commutation

variable [Blake3]

/-- No transaction writes what the other one reads or writes. -/
structure Independent (chainId : UInt32) (tx₁ tx₂ : Transaction) : Prop where
  txIds : tx₁.txId ≠ tx₂.txId
  inputs : ∀ input₁ ∈ tx₁.core.inputs, ∀ input₂ ∈ tx₂.core.inputs,
    input₁.key ≠ input₂.key
  notSpentBySecond : ∀ txId ∈ tx₁.txId, ∀ input ∈ tx₂.core.inputs,
    input.key ∉ createdKeys txId tx₁.core.outputs
  notSpentByFirst : ∀ txId ∈ tx₂.txId, ∀ input ∈ tx₁.core.inputs,
    input.key ∉ createdKeys txId tx₂.core.outputs
  assets : ∀ created₁ ∈ tx₁.core.kind.createdAsset chainId,
    ∀ created₂ ∈ tx₂.core.kind.createdAsset chainId,
      created₁.assetId ≠ created₂.assetId

theorem Independent.symm {chainId : UInt32} {tx₁ tx₂ : Transaction}
    (h : Independent chainId tx₁ tx₂) : Independent chainId tx₂ tx₁ where
  txIds := h.txIds.symm
  inputs input₂ hinput₂ input₁ hinput₁ :=
    (h.inputs input₁ hinput₁ input₂ hinput₂).symm
  notSpentBySecond := h.notSpentByFirst
  notSpentByFirst := h.notSpentBySecond
  assets created₂ hcreated₂ created₁ hcreated₁ :=
    (h.assets created₁ hcreated₁ created₂ hcreated₂).symm

namespace LedgerState

variable {chainId : UInt32} {tx₁ tx₂ : Transaction} {txId₁ txId₂ : Hash256}
  {currentHeight : UInt64} {ledger mid mid' after after' : LedgerState}

theorem Effect.assets_eq {core : TransactionCore} {txId : Hash256}
    (h : ledger.Effect core txId currentHeight chainId after) :
    after.assets = (ledger.register (core.kind.createdAsset chainId)).assets := by
  rw [h.assets]
  cases core.kind with
  | transfer => rfl
  | createAsset definition initialSupply => rfl

omit [Blake3] in
theorem register_assets_congr (h : ledger.assets = mid.assets)
    (created : Option CreatedAsset) :
    (ledger.register created).assets = (mid.register created).assets := by
  cases created with
  | none => exact h
  | some asset => simp only [register, h]

omit [Blake3] in
theorem register_assets_comm {created₁ created₂ : Option CreatedAsset}
    (h : ∀ asset₁ ∈ created₁, ∀ asset₂ ∈ created₂,
      asset₁.assetId ≠ asset₂.assetId) (ledger : LedgerState) :
    ((ledger.register created₁).register created₂).assets =
      ((ledger.register created₂).register created₁).assets := by
  cases created₁ with
  | none => rfl
  | some asset₁ =>
      cases created₂ with
      | none => rfl
      | some asset₂ =>
          exact Finmap.insert_insert_of_ne _ (h asset₁ rfl asset₂ rfl)

/-- The second transaction does not notice the first. -/
theorem Effect.sameReads (hindependent : Independent chainId tx₁ tx₂)
    (htxId : tx₁.txId = some txId₁)
    (h : ledger.Effect tx₁.core txId₁ currentHeight chainId mid) :
    ledger.SameReads mid tx₂.core chainId := by
  constructor
  · intro input hinput
    refine h.untouched input.key
      (hindependent.notSpentBySecond txId₁ htxId input hinput) ?_
    rintro hconsumed
    obtain ⟨input₁, hinput₁, hkey⟩ := List.mem_map.mp hconsumed
    exact hindependent.inputs input₁ hinput₁ input hinput hkey
  · intro created hcreated
    rw [h.assets_eq]
    cases hkind : tx₁.core.kind.createdAsset chainId with
    | none => exact Iff.rfl
    | some created₁ =>
        have hne := hindependent.assets created₁ hkind created hcreated
        simp only [register, Finmap.mem_insert]
        constructor
        · rintro (heq | hmem)
          · exact absurd heq.symm hne
          · exact hmem
        · exact Or.inr

/-- What the two transactions leave under a key which the first one creates:
the second does not touch it. -/
theorem Effect.lookup_created (hindependent : Independent chainId tx₁ tx₂)
    (htxId₁ : tx₁.txId = some txId₁) (htxId₂ : tx₂.txId = some txId₂)
    (h : mid.Effect tx₂.core txId₂ currentHeight chainId after)
    {key : UtxoKey} (hcreated : key ∈ createdKeys txId₁ tx₁.core.outputs) :
    after.utxos.lookup key = mid.utxos.lookup key := by
  refine h.untouched key ?_ ?_
  · intro hcreated₂
    obtain ⟨i, -, rfl⟩ := mem_createdKeys.mp hcreated
    obtain ⟨j, -, hkey⟩ := mem_createdKeys.mp hcreated₂
    refine hindependent.txIds ?_
    obtain rfl : txId₁ = txId₂ := congrArg UtxoKey.txId hkey
    rw [htxId₁, htxId₂]
  · intro hconsumed
    obtain ⟨input, hinput, rfl⟩ := List.mem_map.mp hconsumed
    exact hindependent.notSpentBySecond txId₁ htxId₁ input hinput hcreated

/-- Outside of the created keys the two transactions remove what they
consume. -/
theorem Effect.lookup_both
    (h₁ : ledger.Effect tx₁.core txId₁ currentHeight chainId mid)
    (h₂ : mid.Effect tx₂.core txId₂ currentHeight chainId after)
    {key : UtxoKey} (hcreated₁ : key ∉ createdKeys txId₁ tx₁.core.outputs)
    (hcreated₂ : key ∉ createdKeys txId₂ tx₂.core.outputs) :
    after.utxos.lookup key =
      if key ∈ tx₁.core.inputs.map TransactionInput.key ∨
          key ∈ tx₂.core.inputs.map TransactionInput.key
      then none else ledger.utxos.lookup key := by
  by_cases hconsumed₂ : key ∈ tx₂.core.inputs.map TransactionInput.key
  · rw [h₂.consumed key hconsumed₂ hcreated₂, if_pos (Or.inr hconsumed₂)]
  · rw [h₂.untouched key hcreated₂ hconsumed₂]
    by_cases hconsumed₁ : key ∈ tx₁.core.inputs.map TransactionInput.key
    · rw [h₁.consumed key hconsumed₁ hcreated₁, if_pos (Or.inl hconsumed₁)]
    · rw [h₁.untouched key hcreated₁ hconsumed₁, if_neg]
      rintro (h | h)
      · exact hconsumed₁ h
      · exact hconsumed₂ h

/-- The effects of independent transactions commute. -/
theorem Effect.commute (hindependent : Independent chainId tx₁ tx₂)
    (htxId₁ : tx₁.txId = some txId₁) (htxId₂ : tx₂.txId = some txId₂)
    (h₁ : ledger.Effect tx₁.core txId₁ currentHeight chainId mid)
    (h₂ : mid.Effect tx₂.core txId₂ currentHeight chainId after)
    (h₂' : ledger.Effect tx₂.core txId₂ currentHeight chainId mid')
    (h₁' : mid'.Effect tx₁.core txId₁ currentHeight chainId after') :
    after' = after := by
  have hutxos : after'.utxos = after.utxos := by
    apply Finmap.ext_lookup
    intro key
    by_cases hcreated₁ : key ∈ createdKeys txId₁ tx₁.core.outputs
    · rw [Effect.lookup_created hindependent htxId₁ htxId₂ h₂ hcreated₁]
      obtain ⟨i, hi, rfl⟩ := mem_createdKeys.mp hcreated₁
      have houtput := List.getElem?_eq_getElem hi
      rw [h₁.created i _ houtput, h₁'.created i _ houtput]
    · by_cases hcreated₂ : key ∈ createdKeys txId₂ tx₂.core.outputs
      · rw [Effect.lookup_created hindependent.symm htxId₂ htxId₁ h₁'
          hcreated₂]
        obtain ⟨i, hi, rfl⟩ := mem_createdKeys.mp hcreated₂
        have houtput := List.getElem?_eq_getElem hi
        rw [h₂.created i _ houtput, h₂'.created i _ houtput]
      · rw [h₁.lookup_both h₂ hcreated₁ hcreated₂,
          h₂'.lookup_both h₁' hcreated₂ hcreated₁]
        simp only [or_comm]
  have hassets : after'.assets = after.assets := by
    rw [h₁'.assets_eq, h₂.assets_eq,
      register_assets_congr h₂'.assets_eq, register_assets_congr h₁.assets_eq]
    exact (register_assets_comm hindependent.assets ledger).symm
  exact eq_of_maps_eq hutxos hassets

variable [PqCrypto] [Bincode] {config : VmConfig}

theorem applyTransaction_swap (hindependent : Independent chainId tx₁ tx₂)
    (h₁ : ledger.applyTransaction tx₁ (deterministicScriptEngine config)
      currentHeight chainId = (.ok (), mid))
    (h₂ : mid.applyTransaction tx₂ (deterministicScriptEngine config)
      currentHeight chainId = (.ok (), after)) :
    ∃ mid', ledger.applyTransaction tx₂ (deterministicScriptEngine config)
        currentHeight chainId = (.ok (), mid') ∧
      mid'.applyTransaction tx₁ (deterministicScriptEngine config)
        currentHeight chainId = (.ok (), after) := by
  obtain ⟨haccepts₁, txId₁, htxId₁, rfl⟩ := applyTransaction_eq_ok.mp h₁
  obtain ⟨haccepts₂, txId₂, htxId₂, rfl⟩ := applyTransaction_eq_ok.mp h₂
  have heffect₁ : ledger.Effect tx₁.core txId₁ currentHeight chainId _ :=
    afterCore_effect htxId₁
  have heffect₂' : ledger.Effect tx₂.core txId₂ currentHeight chainId _ :=
    afterCore_effect htxId₂
  have haccepts₂' := (heffect₁.sameReads hindependent htxId₁).symm.accepts
    (UInt64.le_refl _) haccepts₂
  have haccepts₁' := (heffect₂'.sameReads hindependent.symm htxId₂).accepts
    (UInt64.le_refl _) haccepts₁
  refine ⟨_, applyTransaction_eq_ok.mpr ⟨haccepts₂', txId₂, htxId₂, rfl⟩,
    applyTransaction_eq_ok.mpr ⟨haccepts₁', txId₁, htxId₁, ?_⟩⟩
  exact heffect₁.commute hindependent htxId₁ htxId₂ (afterCore_effect htxId₂)
    heffect₂' (afterCore_effect htxId₁)

/-- Independent transactions can be applied in either order, with the same
ledger in the end. -/
theorem applyTransaction_commutes (hindependent : Independent chainId tx₁ tx₂)
    (config : VmConfig) (ledger after : LedgerState) (currentHeight : UInt64) :
    (∃ mid, ledger.applyTransaction tx₁ (deterministicScriptEngine config)
        currentHeight chainId = (.ok (), mid) ∧
      mid.applyTransaction tx₂ (deterministicScriptEngine config)
        currentHeight chainId = (.ok (), after)) ↔
    ∃ mid, ledger.applyTransaction tx₂ (deterministicScriptEngine config)
        currentHeight chainId = (.ok (), mid) ∧
      mid.applyTransaction tx₁ (deterministicScriptEngine config)
        currentHeight chainId = (.ok (), after) := by
  constructor
  · rintro ⟨mid, h₁, h₂⟩
    exact applyTransaction_swap hindependent h₁ h₂
  · rintro ⟨mid, h₂, h₁⟩
    exact applyTransaction_swap hindependent.symm h₂ h₁

end LedgerState

end Commutation

/-! ## Two spends -/

section TwoSpends

open StandIns

/-- Spend an output which is open to anybody. -/
def spendOf (kind : TransactionKind) (txId : Hash256)
    (assets : List AssetAmount) : Transaction where
  core := ⟨kind, [⟨txId, 0⟩], [openOutput assets]⟩
  witness := ⟨[nopWitness]⟩

/-- Two outputs which anybody can spend. -/
def openPair : LedgerState where
  utxos := (Finmap.singleton ⟨Hash256.fill 1, 0⟩ ⟨openOutput [], 1⟩).insert
    ⟨Hash256.fill 2, 0⟩ ⟨openOutput [], 1⟩
  assets := ∅

/-- Spend the first output and create a token. -/
def issuingSpend : Transaction :=
  spendOf (.createAsset (tokenDefinition nopScriptHash) 1000)
    (Hash256.fill 1) [⟨tokenId nopScriptHash, 1000⟩]

/-- Spend the second output. -/
def plainSpend : Transaction := spendOf .transfer (Hash256.fill 2) []

section Accepted

variable {ledger : LedgerState} {kind : TransactionKind} {txId : Hash256}
  {assets : List AssetAmount}

theorem spendOf_unlocked
    (hlookup : ledger.utxos.lookup ⟨txId, 0⟩ = some ⟨openOutput [], 1⟩) :
    ∀ entry ∈ (spendOf kind txId assets).core.inputs.zipIdx,
      ∃ tracked witness, ledger.InputUnlocked (spendOf kind txId assets)
        (deterministicScriptEngine VmConfig.default) 2 0 entry.1 entry.2
        tracked witness := by
  intro entry hentry
  obtain rfl : entry = (⟨txId, 0⟩, 0) := List.mem_singleton.mp hentry
  exact ⟨⟨openOutput [], 1⟩, ⟨nopScript, none⟩, hlookup,
    ⟨_, rfl, by decide⟩, ⟨_, rfl, rfl⟩, rfl, _, rfl⟩

theorem spendOf_consumedOutputs
    (hlookup : ledger.utxos.lookup ⟨txId, 0⟩ = some ⟨openOutput [], 1⟩) :
    ledger.consumedOutputs (spendOf kind txId assets).core.inputs =
      [openOutput []] := by
  have hinput : ledger.utxos.lookup (TransactionInput.key ⟨txId, 0⟩) =
      some ⟨openOutput [], 1⟩ := hlookup
  exact LedgerState.consumedOutputs_cons hinput []

theorem plainSpend_accepted (hlookup : ledger.utxos.lookup
      ⟨Hash256.fill 2, 0⟩ = some ⟨openOutput [], 1⟩) :
    ledger.Accepts plainSpend (deterministicScriptEngine VmConfig.default) 2
      0 where
  inputsDistinct := List.nodup_singleton _
  unlocked := spendOf_unlocked hlookup
  creation := by
    intro created hcreated
    simp [plainSpend, spendOf, TransactionKind.createdAsset] at hcreated
  conserved := by
    intro id _
    rw [plainSpend, spendOf_consumedOutputs hlookup]
    rfl

theorem issuingSpend_accepted (hlookup : ledger.utxos.lookup
      ⟨Hash256.fill 1, 0⟩ = some ⟨openOutput [], 1⟩)
    (hfresh : tokenId nopScriptHash ∉ ledger.assets) :
    ledger.Accepts issuingSpend (deterministicScriptEngine VmConfig.default) 2
      0 where
  inputsDistinct := List.nodup_singleton _
  unlocked := spendOf_unlocked hlookup
  creation := by
    intro created hcreated
    obtain rfl := Option.some.inj hcreated
    refine ⟨by decide +kernel, hfresh, totalOf_token nopScriptHash,
      ?_, ?_, ?_⟩
    · intro max hmax
      rw [← Option.some.inj hmax]
      exact BitVec.le_refl _
    · rw [issuingSpend, spendOf_consumedOutputs hlookup]
      rfl
    · rw [issuingSpend, spendOf_consumedOutputs hlookup]
      exact ⟨_, List.mem_singleton_self _, by decide +kernel⟩
  conserved := by
    intro id hother
    have hothers := totalOf_token_of_ne (Ne.symm (hother _ rfl))
    rw [issuingSpend, spendOf_consumedOutputs hlookup]
    exact hothers.symm

end Accepted

theorem spends_independent : Independent 0 issuingSpend plainSpend where
  txIds := by decide +kernel
  inputs := by decide +kernel
  notSpentBySecond := by decide +kernel
  notSpentByFirst := by decide +kernel
  assets := by simp [plainSpend, spendOf, TransactionKind.createdAsset]

/-- The ledger after the first spend, and after both. -/
def issuedLedger : LedgerState :=
  openPair.afterCore issuingSpend.core (issuingSpend.txId.getD default) 2 0

def spentLedger : LedgerState :=
  issuedLedger.afterCore plainSpend.core (plainSpend.txId.getD default) 2 0

/-- The second spend can go first. -/
theorem spends_commute : ∃ mid,
    openPair.applyTransaction plainSpend
        (deterministicScriptEngine VmConfig.default) 2 0 = (.ok (), mid) ∧
      mid.applyTransaction issuingSpend
        (deterministicScriptEngine VmConfig.default) 2 0 =
          (.ok (), spentLedger) := by
  have hfirst : openPair.utxos.lookup ⟨Hash256.fill 1, 0⟩ =
      some ⟨openOutput [], 1⟩ := by
    rw [openPair, Finmap.lookup_insert_of_ne _ (by decide)]
    exact Finmap.lookup_singleton_eq
  have hsecond : openPair.utxos.lookup ⟨Hash256.fill 2, 0⟩ =
      some ⟨openOutput [], 1⟩ := Finmap.lookup_insert _
  obtain ⟨txId₁, htxId₁⟩ : ∃ txId, issuingSpend.txId = some txId :=
    Option.isSome_iff_exists.mp (by decide +kernel)
  obtain ⟨txId₂, htxId₂⟩ : ∃ txId, plainSpend.txId = some txId :=
    Option.isSome_iff_exists.mp (by decide +kernel)
  have hissued := LedgerState.applyTransaction_eq_ok (u := ()) |>.mpr
    ⟨issuingSpend_accepted hfirst Finmap.notMem_empty, txId₁, htxId₁, rfl⟩
  -- The first spend leaves the second output where it is.
  have hkept : issuedLedger.utxos.lookup ⟨Hash256.fill 2, 0⟩ =
      some ⟨openOutput [], 1⟩ := by
    rw [issuedLedger, htxId₁, Option.getD_some, ← hsecond]
    exact (LedgerState.afterCore_effect htxId₁).untouched _
      (spends_independent.notSpentBySecond txId₁ htxId₁
        ⟨Hash256.fill 2, 0⟩ (List.mem_singleton_self _)) (by decide)
  have hspent := LedgerState.applyTransaction_eq_ok (u := ()) |>.mpr
    ⟨plainSpend_accepted hkept, txId₂, htxId₂, rfl⟩
  have hissuedLedger : openPair.afterCore issuingSpend.core txId₁ 2 0 =
      issuedLedger := by
    rw [issuedLedger, htxId₁, Option.getD_some]
  have hspentLedger : issuedLedger.afterCore plainSpend.core txId₂ 2 0 =
      spentLedger := by
    rw [spentLedger, htxId₂, Option.getD_some]
  rw [hissuedLedger] at hissued
  rw [hspentLedger] at hspent
  exact (LedgerState.applyTransaction_commutes spends_independent
    VmConfig.default openPair spentLedger 2).mp ⟨issuedLedger, hissued, hspent⟩

end TwoSpends

end QCoin
