import QCoin.Ledger.Conservation

/-!
# Issuer authorisation

A `CreateAsset` is authorised by an input locked to the issuer script or by an
input which already lists the derived asset id.  The second way is closed in
every run whose transactions list registered assets and the native one only; a
transaction which lists another id, if only with amount zero, opens it to
anybody.
-/

namespace QCoin

open Support

section Issuance

variable [Blake3] [Bincode]

/-- Some input spends an output locked to the issuer script, with that script
presented and evaluated. -/
def IssuerSpent (ledger : LedgerState) (tx : Transaction)
    (engine : ScriptEngine) (currentHeight : UInt64) (chainId : UInt32)
    (definition : AssetDefinition) : Prop :=
  ∃ i input tracked witness, tx.core.inputs[i]? = some input ∧
    tracked.output.ownerScriptHash = definition.issuerScriptHash ∧
    ledger.InputUnlocked tx engine currentHeight chainId input i tracked
      witness

/-- The outputs of a transaction list only the native asset, assets which are
registered and those which the transaction itself creates. -/
def ListsRegistered (ledger : LedgerState) (core : TransactionCore)
    (chainId : UInt32) : Prop :=
  ∀ output ∈ core.outputs, ∀ asset ∈ output.assets,
    asset.assetId = QCOIN_ASSET_ID ∨ asset.assetId ∈ ledger.assets ∨
      ∃ created ∈ core.kind.createdAsset chainId,
        asset.assetId = created.assetId

namespace LedgerState

omit [Bincode] in
theorem mem_assets_afterCore {ledger : LedgerState} {core : TransactionCore}
    {txId : Hash256} {currentHeight : UInt64} {chainId : UInt32}
    {id : AssetId} :
    id ∈ (ledger.afterCore core txId currentHeight chainId).assets ↔
      id ∈ ledger.assets ∨ ∃ created ∈ core.kind.createdAsset chainId,
        id = created.assetId := by
  rw [afterCore, insertUtxos_assets, removeUtxos_assets]
  cases hkind : core.kind.createdAsset chainId with
  | none => simp [register]
  | some created =>
      simp only [register, Finmap.mem_insert, Option.mem_some_iff,
        exists_eq_left']
      exact Or.comm

/-- Every asset listed by a stored output is registered or the native one. -/
def ListingsRegistered (ledger : LedgerState) : Prop :=
  ∀ key tracked, ledger.utxos.lookup key = some tracked →
    ∀ asset ∈ tracked.output.assets,
      asset.assetId = QCOIN_ASSET_ID ∨ asset.assetId ∈ ledger.assets

/-- Without a listing of the derived id, only the issuer script authorises a
creation. -/
theorem Accepts.issuerSpent {ledger : LedgerState} {tx : Transaction}
    {engine : ScriptEngine} {currentHeight : UInt64} {chainId : UInt32}
    (h : ledger.Accepts tx engine currentHeight chainId)
    (hlistings : ledger.ListingsRegistered) {definition : AssetDefinition}
    {initialSupply : U128}
    (hkind : tx.core.kind = .createAsset definition initialSupply) :
    IssuerSpent ledger tx engine currentHeight chainId definition := by
  have hcreation := h.creation
    ⟨deriveAssetId definition chainId, definition, initialSupply⟩
    (by rw [hkind]; rfl)
  obtain ⟨output, houtput, hauthorized⟩ := hcreation.authorized
  obtain ⟨input, hinput, tracked, hfound, rfl⟩ :=
    mem_consumedOutputs.mp houtput
  have howner : tracked.output.ownerScriptHash =
      definition.issuerScriptHash := by
    rw [CreatedAsset.authorizedBy, Bool.or_eq_true, beq_iff_eq] at hauthorized
    rcases hauthorized with howner | hlisted
    · exact howner
    · obtain ⟨asset, hasset, hid⟩ := List.any_eq_true.mp hlisted
      rw [beq_iff_eq] at hid
      have hlisting := hlistings _ _ hfound asset hasset
      rw [hid] at hlisting
      -- A created id is neither the native one nor registered before.
      rcases hlisting with hnative | hregistered
      · exact absurd hnative hcreation.notNative
      · exact absurd hregistered hcreation.fresh
  obtain ⟨i, hi⟩ := List.mem_iff_getElem?.mp hinput
  obtain ⟨tracked', witness, hunlocked⟩ := h.unlocked (input, i)
    (List.mem_zipIdx_iff_getElem?.mpr hi)
  have htracked : tracked = tracked' := by
    have hfound' := hunlocked.found
    rw [hfound, Option.some.injEq] at hfound'
    exact hfound'
  subst htracked
  exact ⟨i, input, tracked, witness, hi, howner, hunlocked⟩

end LedgerState

variable {chainId : UInt32}

theorem AppliedStep.listingsRegistered (step : AppliedStep chainId)
    (hbefore : step.before.ListingsRegistered)
    (hlists : ListsRegistered step.before step.tx.core chainId) :
    step.after.ListingsRegistered := by
  intro key tracked hlookup asset hasset
  have hgrow : ∀ id, id ∈ step.before.assets → id ∈ step.after.assets := by
    intro id hid
    rw [step.after_eq]
    exact LedgerState.mem_assets_afterCore.mpr (Or.inl hid)
  rcases step.lookup_after_cases hlookup with
    ⟨i, output, houtput, -, rfl⟩ | ⟨-, -, hold⟩
  · have hmem := List.mem_of_getElem? houtput
    rw [step.after_eq]
    exact (hlists output hmem asset hasset).imp_right
      LedgerState.mem_assets_afterCore.mpr
  · exact (hbefore key tracked hold asset hasset).imp_right (hgrow _)

theorem LedgerRun.listingsRegistered {steps : List (AppliedStep chainId)}
    {ledger : LedgerState} (run : LedgerRun chainId steps ledger)
    (hlists : ∀ step ∈ steps,
      ListsRegistered step.before step.tx.core chainId) :
    ledger.ListingsRegistered := by
  induction run with
  | empty =>
      intro key tracked hlookup
      simp [LedgerState.empty] at hlookup
  | apply step run ih =>
      rw [List.forall_mem_cons] at hlists
      exact step.listingsRegistered (ih hlists.2) hlists.1

/-- In a run whose transactions list registered assets and the native one only,
every accepted `CreateAsset` spends an output of its issuer. -/
theorem createAsset_spends_issuer_output
    {steps : List (AppliedStep chainId)} {ledger ledger' : LedgerState}
    (run : LedgerRun chainId steps ledger)
    (hlists : ∀ step ∈ steps,
      ListsRegistered step.before step.tx.core chainId)
    {tx : Transaction} {engine : ScriptEngine} {currentHeight : UInt64}
    (happly : ledger.applyTransaction tx engine currentHeight chainId =
      (.ok (), ledger'))
    {definition : AssetDefinition} {initialSupply : U128}
    (hkind : tx.core.kind = .createAsset definition initialSupply) :
    IssuerSpent ledger tx engine currentHeight chainId definition :=
  (LedgerState.applyTransaction_eq_ok.mp happly).1.issuerSpent
    (run.listingsRegistered hlists) hkind

end Issuance

/-! ## Two creations -/

section Creations

open StandIns

/-- The ledger after an open transfer. -/
def openLedger (assets : List AssetAmount) : LedgerState :=
  LedgerState.empty.afterCore (openTransfer assets).core
    (openTransferId assets) 1 0

/-- Create a token of the issuer by spending the output of an open
transfer. -/
def tokenCreation (assets : List AssetAmount) (issuerScriptHash : Hash256) :
    Transaction where
  core := {
    kind := .createAsset (tokenDefinition issuerScriptHash) 1000
    inputs := [⟨openTransferId assets, 0⟩]
    outputs := [openOutput [⟨tokenId issuerScriptHash, 1000⟩]] }
  witness := ⟨[StandIns.nopWitness]⟩

variable (assets : List AssetAmount)

/-- An open transfer which lists nothing but zero amounts is accepted. -/
theorem openTransfer_run
    (hzero : ∀ id, totalOf id [openOutput assets] = 0)
    (hsome : (openTransfer assets).txId.isSome = true) :
    ∃ step : AppliedStep 0, step.tx = openTransfer assets ∧
      LedgerRun 0 [step] (openLedger assets) := by
  have haccepts : LedgerState.empty.Accepts (openTransfer assets)
      StandIns.acceptAll 1 0 := {
    inputsDistinct := List.nodup_nil
    unlocked := by
      intro entry hentry
      simp [openTransfer] at hentry
    creation := by
      intro created hcreated
      simp [openTransfer, TransactionKind.createdAsset] at hcreated
    conserved := fun id _ => (hzero id).symm }
  obtain ⟨txId, htxId⟩ := Option.isSome_iff_exists.mp hsome
  have hid : openTransferId assets = txId := by
    rw [openTransferId, htxId, Option.getD_some]
  have happly := LedgerState.applyTransaction_eq_ok (u := ()) |>.mpr
    ⟨haccepts, txId, htxId, rfl⟩
  rw [← hid] at happly
  exact ⟨⟨_, _, _, _, _, happly⟩, rfl, LedgerRun.apply _ LedgerRun.empty⟩

theorem openLedger_lookup :
    (openLedger assets).utxos.lookup ⟨openTransferId assets, 0⟩ =
      some ⟨openOutput assets, 1⟩ := by
  simp [openLedger, LedgerState.afterCore, openTransfer, createdEntries]

theorem openLedger_consumedOutputs (issuerScriptHash : Hash256) :
    (openLedger assets).consumedOutputs
        (tokenCreation assets issuerScriptHash).core.inputs =
      [openOutput assets] := by
  have hlookup : (openLedger assets).utxos.lookup
      (TransactionInput.key ⟨openTransferId assets, 0⟩) =
        some ⟨openOutput assets, 1⟩ := openLedger_lookup assets
  exact LedgerState.consumedOutputs_cons hlookup []

/-- The creation is accepted on that ledger if the spent output counts as
authorisation. -/
theorem tokenCreation_applies (issuerScriptHash : Hash256)
    (hzero : ∀ id, totalOf id [openOutput assets] = 0)
    (hnative : tokenId issuerScriptHash ≠ QCOIN_ASSET_ID)
    (hsome : (tokenCreation assets issuerScriptHash).txId.isSome = true)
    (hauthorized : CreatedAsset.authorizedBy ⟨tokenId issuerScriptHash,
      tokenDefinition issuerScriptHash, 1000⟩ (openOutput assets) = true) :
    ∃ ledger', (openLedger assets).applyTransaction
      (tokenCreation assets issuerScriptHash) StandIns.acceptAll 2 0 =
        (.ok (), ledger') := by
  have haccepts : (openLedger assets).Accepts
      (tokenCreation assets issuerScriptHash) StandIns.acceptAll 2 0 := {
    inputsDistinct := List.nodup_singleton _
    unlocked := by
      intro entry hentry
      rw [show entry = (⟨openTransferId assets, 0⟩, 0) from
        List.mem_singleton.mp hentry]
      exact ⟨⟨openOutput assets, 1⟩, ⟨StandIns.nopScript, none⟩,
        openLedger_lookup assets, ⟨_, rfl, by decide⟩, ⟨_, rfl, rfl⟩, rfl, _,
        rfl⟩
    creation := by
      intro created hkind
      rw [← Option.some.inj hkind]
      refine ⟨hnative, Finmap.notMem_empty,
        totalOf_token issuerScriptHash, ?_, ?_, ?_⟩
      · intro max hmax
        rw [← Option.some.inj hmax]
        exact BitVec.le_refl _
      · rw [openLedger_consumedOutputs]
        exact hzero _
      · rw [openLedger_consumedOutputs]
        exact ⟨_, List.mem_singleton_self _, hauthorized⟩
    conserved := by
      intro id hother
      have hothers := totalOf_token_of_ne (Ne.symm (hother _ rfl))
      rw [openLedger_consumedOutputs, hzero]
      exact hothers.symm }
  obtain ⟨txId, htxId⟩ := Option.isSome_iff_exists.mp hsome
  exact ⟨_, LedgerState.applyTransaction_eq_ok.mpr
    ⟨haccepts, txId, htxId, rfl⟩⟩

/-- A token created by its issuer, who owns the spent output. -/
theorem tokenCreation_spends_issuer_output :
    IssuerSpent (openLedger []) (tokenCreation [] StandIns.nopScriptHash)
      StandIns.acceptAll 2 0 (tokenDefinition StandIns.nopScriptHash) := by
  obtain ⟨step, htx, run⟩ := openTransfer_run []
    (fun id => rfl) (by decide +kernel)
  obtain ⟨ledger', happly⟩ := tokenCreation_applies []
    StandIns.nopScriptHash (fun id => rfl)
    (by decide +kernel) (by decide +kernel) (by decide +kernel)
  refine createAsset_spends_issuer_output run ?_ happly
    (show _ = TransactionKind.createAsset _ 1000 from rfl)
  intro step' hstep output houtput asset hasset
  rw [List.mem_singleton] at hstep
  rw [hstep, htx, openTransfer, List.mem_singleton] at houtput
  rw [houtput] at hasset
  exact absurd hasset List.not_mem_nil

/-- The issuer of the token which is created behind its back. -/
def absentIssuer : Hash256 := Hash256.fill 7

/-- A zero-amount listing of the id which the token is going to have. -/
def plantedListing : List AssetAmount := [⟨tokenId absentIssuer, 0⟩]

/-- Two transactions, neither of which involves the issuer, create its
token. -/
theorem createAsset_accepted_without_issuer :
    ¬∀ (steps : List (AppliedStep 0)) (ledger ledger' : LedgerState)
      (tx : Transaction) (engine : ScriptEngine) (currentHeight : UInt64)
      (definition : AssetDefinition) (initialSupply : U128),
      LedgerRun 0 steps ledger →
      ledger.applyTransaction tx engine currentHeight 0 = (.ok (), ledger') →
      tx.core.kind = .createAsset definition initialSupply →
      Set.InjOn (fun d => deriveAssetId d 0)
        {d | ∃ t ∈ tx :: steps.map AppliedStep.tx, ∃ supply,
          t.core.kind = .createAsset d supply} →
      IssuerSpent ledger tx engine currentHeight 0 definition := by
  intro hclaim
  have hzero : ∀ id, totalOf id [openOutput plantedListing] = 0 := by
    intro id
    by_cases hid : tokenId absentIssuer = id
    · simp [totalOf, amountsOf, openOutput, plantedListing, hid, wrapSum]
    · simp [totalOf, amountsOf, openOutput, plantedListing, hid, wrapSum]
  obtain ⟨step, htx, run⟩ := openTransfer_run plantedListing
    hzero (by decide +kernel)
  obtain ⟨ledger', happly⟩ := tokenCreation_applies
    plantedListing absentIssuer hzero
    (by decide +kernel) (by decide +kernel) (by decide +kernel)
  -- One id is derived in this run, so ids cannot collide.
  have hsingle : ∀ d supply,
      (∃ t ∈ tokenCreation plantedListing absentIssuer ::
          [step].map AppliedStep.tx, t.core.kind = .createAsset d supply) →
      d = tokenDefinition absentIssuer := by
    rintro d supply ⟨t, ht, hkind⟩
    rw [List.map_singleton, htx] at ht
    rcases List.mem_pair.mp ht with rfl | rfl
    · exact (TransactionKind.createAsset.inj hkind).1.symm
    · simp [openTransfer] at hkind
  have hinj : Set.InjOn (fun d => deriveAssetId d 0)
      {d | ∃ t ∈ tokenCreation plantedListing absentIssuer ::
          [step].map AppliedStep.tx, ∃ supply,
        t.core.kind = .createAsset d supply} := by
    rintro d ⟨t, ht, supply, hd⟩ d' ⟨t', ht', supply', hd'⟩ -
    rw [hsingle d supply ⟨t, ht, hd⟩, hsingle d' supply' ⟨t', ht', hd'⟩]
  obtain ⟨i, input, tracked, witness, hi, howner, hunlocked⟩ :=
    hclaim [step] _ ledger' _ _ _ (tokenDefinition absentIssuer) 1000 run
      happly rfl hinj
  have hconsumed := LedgerState.mem_consumedOutputs.mpr
    ⟨input, List.mem_of_getElem? hi, tracked, hunlocked.found, rfl⟩
  rw [openLedger_consumedOutputs, List.mem_singleton] at hconsumed
  rw [hconsumed] at howner
  exact absurd howner (by decide +kernel)

end Creations

end QCoin
