import QCoin.Consensus.TipCommitment
import QCoin.Ledger.StateCommitment
import QCoin.Script.Encodings

/-!
# Chain separation

The chain id enters no header and no genesis state, only the ids of created
assets and the signed messages.  A state root commits to the asset ids, so
chains with different ids part at the first creation.  Before that, nothing
which a header commits to tells them apart.
-/

namespace QCoin

open Support
open Support.Result

section Separation

variable [Blake3] [Bincode]

/-! ## UTXO sets follow the cores -/

/-- Transactions with the same cores do the same to a UTXO set on any two
chains. -/
theorem LedgerState.applyAll_utxos_determined
    {ledger₁ ledger₂ after₁ after₂ : LedgerState}
    {txs₁ txs₂ : List Transaction} {engine₁ engine₂ : ScriptEngine}
    {currentHeight : UInt64} {chainId₁ chainId₂ : UInt32}
    (hutxos : ledger₁.utxos = ledger₂.utxos)
    (hcores : txs₁.map Transaction.core = txs₂.map Transaction.core)
    (h₁ : ledger₁.applyAll txs₁ engine₁ currentHeight chainId₁ = .ok after₁)
    (h₂ : ledger₂.applyAll txs₂ engine₂ currentHeight chainId₂ =
      .ok after₂) : after₁.utxos = after₂.utxos := by
  refine applyAll_rel (R := fun ledger ledger' =>
    ledger.utxos = ledger'.utxos) ?_ hutxos hcores h₁ h₂
  intro ledger₁ ledger₂ core txId hutxos
  simp only [afterCore, insertUtxos_utxos, removeUtxos_utxos,
    register_utxos, hutxos]

/-! ## Strings hashed on a chain -/

omit [Blake3] [Bincode] in
/-- The preimages of the asset ids which the blocks derive. -/
def createdIdStrings (chainId : UInt32) (blocks : List Block) : Set Bytes :=
  {x | ∃ block ∈ blocks, ∃ tx ∈ block.transactions, ∃ definition supply,
    tx.core.kind = .createAsset definition supply ∧
    x = assetIdPreimage definition chainId}

variable [PqCrypto]

/-- The string hashed for the state root of a block. -/
def stateRootStrings (chain : ChainState) (block : Block) : Set Bytes :=
  {x | ∃ ledger, chain.ledger.applyAll block.transactions defaultScriptEngine
      block.header.height chain.chainId = .ok ledger ∧
    ledger.stateRootPreimage = some x}

def chainStrings (chainId : UInt32) (blocks : List Block) (chain : ChainState)
    (block : Block) : Set Bytes :=
  hashedBy (block :: blocks) ∪ createdIdStrings chainId (block :: blocks) ∪
    stateRootStrings chain block

/-! ## Chains with different ids -/

variable {chainId₁ chainId₂ : UInt32}

theorem AcceptedChain.utxos_eq_of_commitments_eq
    {blocks₁ blocks₂ : List Block} {steps₁ : List (AppliedStep chainId₁)}
    {steps₂ : List (AppliedStep chainId₂)} {chain₁ chain₂ : ChainState}
    (h₁ : AcceptedChain chainId₁ blocks₁ steps₁ chain₁)
    (h₂ : AcceptedChain chainId₂ blocks₂ steps₂ chain₂)
    (hcommitments : commitments blocks₁ = commitments blocks₂) :
    chain₁.ledger.utxos = chain₂.ledger.utxos ∧
      chain₁.lastTimestamp = chain₂.lastTimestamp := by
  refine h₁.rel_of_commitments_eq (R := fun chain chain' =>
    chain.ledger.utxos = chain'.ledger.utxos ∧
      chain.lastTimestamp = chain'.lastTimestamp) h₂ ⟨rfl, rfl⟩ ?_
    hcommitments
  intro chain₁ chain₂ next₁ next₂ block₁ block₂ _ _ hrel hheader hcores
    applied₁ applied₂
  obtain ⟨ledger₁, _, hledger₁, -, rfl⟩ :=
    ChainState.applyBlock_eq_ok.mp applied₁
  obtain ⟨ledger₂, _, hledger₂, -, rfl⟩ :=
    ChainState.applyBlock_eq_ok.mp applied₂
  rw [hheader] at hledger₁
  rw [hheader]
  exact ⟨LedgerState.applyAll_utxos_determined hrel.1 hcores hledger₁
    hledger₂, rfl⟩

end Separation

/-! ## Registered assets -/

section Assets

variable [Blake3] [Bincode] {chainId : UInt32}
  {steps : List (AppliedStep chainId)} {ledger : LedgerState}

omit [Bincode] in
theorem TransactionKind.createdAsset_eq_some {kind : TransactionKind}
    {created : CreatedAsset}
    (h : kind.createdAsset chainId = some created) :
    kind = .createAsset created.definition created.initialSupply := by
  cases kind with
  | transfer => simp [createdAsset] at h
  | createAsset definition initialSupply => rw [← Option.some.inj h]

/-- A registered asset was derived and created in the run. -/
theorem LedgerRun.exists_creation (run : LedgerRun chainId steps ledger)
    {id : AssetId} {definition : AssetDefinition}
    (h : ledger.assets.lookup id = some definition) :
    id = deriveAssetId definition chainId ∧ ∃ step ∈ steps, ∃ supply,
      step.tx.core.kind = .createAsset definition supply := by
  have hregistrations := run.registrations_eq id
  rw [h] at hregistrations
  obtain ⟨created, hlist, -, hdefinition, hid⟩ := hregistrations
  have hmem : created ∈ registrations steps id := by
    rw [hlist]
    exact List.mem_singleton_self created
  obtain ⟨step, hstep, hcreated⟩ :=
    List.mem_filterMap.mp (List.mem_filter.mp hmem).1
  refine ⟨hid, step, hstep, created.initialSupply, ?_⟩
  rw [← hdefinition]
  exact TransactionKind.createdAsset_eq_some hcreated

/-- Over an empty registry nothing was created. -/
theorem LedgerRun.transfer_of_assets_empty
    (run : LedgerRun chainId steps ledger) (hempty : ledger.assets = ∅)
    {step : AppliedStep chainId} (hstep : step ∈ steps) :
    step.tx.core.kind = .transfer := by
  cases hkind : step.tx.core.kind with
  | transfer => rfl
  | createAsset definition supply =>
      have hcreated : step.created =
          some ⟨deriveAssetId definition chainId, definition, supply⟩ := by
        rw [AppliedStep.created, hkind, TransactionKind.createdAsset]
      have hregistrations :=
        run.registrations_eq (deriveAssetId definition chainId)
      rw [hempty, Finmap.lookup_empty] at hregistrations
      have hmem : (⟨deriveAssetId definition chainId, definition, supply⟩ :
          CreatedAsset) ∈ registrations steps
            (deriveAssetId definition chainId) :=
        List.mem_filter.mpr
          ⟨List.mem_filterMap.mpr ⟨step, hstep, hcreated⟩, by simp⟩
      rw [hregistrations] at hmem
      exact absurd hmem List.not_mem_nil

/-- The same for the blocks whose transactions the run consists of. -/
theorem LedgerRun.transfers_of_assets_empty
    (run : LedgerRun chainId steps ledger) (hempty : ledger.assets = ∅)
    {blocks : List Block}
    (htxs : ∀ tx, (∃ step ∈ steps, step.tx = tx) ↔
      ∃ b ∈ blocks, tx ∈ b.transactions) :
    ∀ b ∈ blocks, ∀ tx ∈ b.transactions, tx.core.kind = .transfer := by
  intro b hb tx htx
  obtain ⟨step, hstep, rfl⟩ := (htxs tx).mpr ⟨b, hb, htx⟩
  exact run.transfer_of_assets_empty hempty hstep

end Assets

/-! ## Blocks accepted on two chains -/

section TwoChains

variable [Blake3] [Bincode] [PqCrypto]

namespace AcceptedChain

variable {chainId : UInt32} {blocks : List Block}
  {steps : List (AppliedStep chainId)} {chain : ChainState}

/-- The ledger after one more block, as its validation computes it. -/
theorem exists_next (h : AcceptedChain chainId blocks steps chain)
    {registry : PqSchemeRegistry} {validators : List PublicKey} {block : Block}
    (hvalid : validateReplayedBlock registry chain block validators =
      .ok ()) :
    ∃ after newSteps, chain.ledger.applyAll block.transactions
        defaultScriptEngine block.header.height chainId = .ok after ∧
      after.stateRoot = some block.header.stateRoot ∧
      LedgerRun chainId newSteps after ∧
      ∀ tx, (∃ step ∈ newSteps, step.tx = tx) ↔
        ∃ b ∈ block :: blocks, tx ∈ b.transactions := by
  obtain ⟨after, hafter, hroot⟩ := computeStateRoot_eq_ok.mp
    (validateReplayedBlock_eq_ok.mp hvalid).stateRoot
  rw [h.chainId_eq] at hafter
  obtain ⟨run, htxs⟩ := h.run
  obtain ⟨hrun, htrace⟩ := run.applyAll hafter
  refine ⟨after, _, hafter, hroot, hrun, fun tx => ?_⟩
  rw [← List.mem_map, List.map_append, List.map_reverse, htrace, htxs]
  simp

theorem assets_eq_empty (h : AcceptedChain chainId blocks steps chain)
    (htransfer : ∀ b ∈ blocks, ∀ tx ∈ b.transactions,
      tx.core.kind = .transfer) : chain.ledger.assets = ∅ := by
  obtain ⟨run, htxs⟩ := h.run
  apply FinMap.eq_empty_of_lookup
  intro id definition hlookup
  obtain ⟨-, step, hstep, supply, hkind⟩ := run.exists_creation hlookup
  have hmem : step.tx ∈ blocks.flatMap fun b => b.transactions.reverse := by
    rw [← htxs]
    exact List.mem_map_of_mem hstep
  obtain ⟨b, hb, htx⟩ := List.mem_flatMap.mp hmem
  have htransferred := htransfer b hb step.tx (List.mem_reverse.mp htx)
  rw [hkind] at htransferred
  cases htransferred

end AcceptedChain

variable {chainId₁ chainId₂ : UInt32} {blocks₁ blocks₂ : List Block}
  {steps₁ : List (AppliedStep chainId₁)}
  {steps₂ : List (AppliedStep chainId₂)} {chain₁ chain₂ : ChainState}

omit [PqCrypto] in
/-- A registered id would be derived from both chain ids. -/
theorem LedgerRun.assets_eq_empty_of_ne {ledger₁ ledger₂ : LedgerState}
    (hne : chainId₁ ≠ chainId₂)
    (run₁ : LedgerRun chainId₁ steps₁ ledger₁)
    (run₂ : LedgerRun chainId₂ steps₂ ledger₂)
    (htxs₁ : ∀ step ∈ steps₁, ∃ b ∈ blocks₁, step.tx ∈ b.transactions)
    (htxs₂ : ∀ step ∈ steps₂, ∃ b ∈ blocks₂, step.tx ∈ b.transactions)
    (hassets : ledger₁.assets = ledger₂.assets)
    (hfree : CollisionFree (createdIdStrings chainId₁ blocks₁ ∪
      createdIdStrings chainId₂ blocks₂)) : ledger₁.assets = ∅ := by
  apply FinMap.eq_empty_of_lookup
  intro id definition hlookup
  obtain ⟨hid₁, step₁, hstep₁, supply₁, hkind₁⟩ :=
    run₁.exists_creation hlookup
  rw [hassets] at hlookup
  obtain ⟨hid₂, step₂, hstep₂, supply₂, hkind₂⟩ :=
    run₂.exists_creation hlookup
  obtain ⟨b₁, hb₁, htx₁⟩ := htxs₁ step₁ hstep₁
  obtain ⟨b₂, hb₂, htx₂⟩ := htxs₂ step₂ hstep₂
  have hhash : Blake3.hash (assetIdPreimage definition chainId₁) =
      Blake3.hash (assetIdPreimage definition chainId₂) :=
    congrArg AssetId.hash (hid₁.symm.trans hid₂)
  have hpreimage := hfree
    (Or.inl ⟨b₁, hb₁, step₁.tx, htx₁, definition, supply₁, hkind₁, rfl⟩)
    (Or.inr ⟨b₂, hb₂, step₂.tx, htx₂, definition, supply₂, hkind₂, rfl⟩) hhash
  exact hne (assetIdPreimage_injective hpreimage).1

theorem same_tip_of_shared_block {registry : PqSchemeRegistry}
    {validators : List PublicKey} {block : Block}
    (hvalid₁ : validateReplayedBlock registry chain₁ block validators =
      .ok ())
    (hvalid₂ : validateReplayedBlock registry chain₂ block validators =
      .ok ()) :
    chain₁.height = chain₂.height ∧ chain₁.tipHash = chain₂.tipHash := by
  have hreplay₁ := validateReplayedBlock_eq_ok.mp hvalid₁
  have hreplay₂ := validateReplayedBlock_eq_ok.mp hvalid₂
  have hnext := hreplay₁.height.symm.trans hreplay₂.height
  exact ⟨(UInt64.add_left_inj 1).mp hnext,
    hreplay₁.parent.symm.trans hreplay₂.parent⟩

namespace AcceptedChain

/-- Chains which accept one block have one past. -/
theorem commitments_eq_of_shared_block
    (h₁ : AcceptedChain chainId₁ blocks₁ steps₁ chain₁)
    (h₂ : AcceptedChain chainId₂ blocks₂ steps₂ chain₂)
    {registry : PqSchemeRegistry} {validators : List PublicKey} {block : Block}
    (hvalid₁ : validateReplayedBlock registry chain₁ block validators =
      .ok ())
    (hvalid₂ : validateReplayedBlock registry chain₂ block validators =
      .ok ())
    (hfree : CollisionFree (hashedBy blocks₁ ∪ hashedBy blocks₂)) :
    commitments blocks₁ = commitments blocks₂ := by
  obtain ⟨hheight, htip⟩ := same_tip_of_shared_block hvalid₁ hvalid₂
  have hlength : blocks₁.length = blocks₂.length := by
    rw [← h₁.height_eq_length.1, ← h₂.height_eq_length.1, hheight]
  exact h₁.commitments_eq_of_tip_eq h₂ hfree hlength htip

/-- Without creations the UTXO sets are the ledgers. -/
theorem ledger_eq_of_transfers
    (h₁ : AcceptedChain chainId₁ blocks₁ steps₁ chain₁)
    (h₂ : AcceptedChain chainId₂ blocks₂ steps₂ chain₂)
    (hutxos : chain₁.ledger.utxos = chain₂.ledger.utxos)
    (htransfer₁ : ∀ b ∈ blocks₁, ∀ tx ∈ b.transactions,
      tx.core.kind = .transfer)
    (htransfer₂ : ∀ b ∈ blocks₂, ∀ tx ∈ b.transactions,
      tx.core.kind = .transfer) : chain₁.ledger = chain₂.ledger := by
  have hassets := h₁.assets_eq_empty htransfer₁
  rw [← h₂.assets_eq_empty htransfer₂] at hassets
  exact LedgerState.eq_of_maps_eq hutxos hassets

end AcceptedChain

/-- A block is accepted on chains with different ids only if neither it nor
any block before it creates an asset; the chains then differ in nothing but
the id. -/
theorem accepted_on_two_chains (hne : chainId₁ ≠ chainId₂)
    (h₁ : AcceptedChain chainId₁ blocks₁ steps₁ chain₁)
    (h₂ : AcceptedChain chainId₂ blocks₂ steps₂ chain₂)
    {registry : PqSchemeRegistry} {validators : List PublicKey} {block : Block}
    (hvalid₁ : validateReplayedBlock registry chain₁ block validators =
      .ok ())
    (hvalid₂ : validateReplayedBlock registry chain₂ block validators =
      .ok ())
    (hfree : CollisionFree (chainStrings chainId₁ blocks₁ chain₁ block ∪
      chainStrings chainId₂ blocks₂ chain₂ block)) :
    (∀ b ∈ block :: (blocks₁ ++ blocks₂), ∀ tx ∈ b.transactions,
      tx.core.kind = .transfer) ∧
    chain₂ = { chain₁ with chainId := chainId₂ } := by
  have hpast : CollisionFree (hashedBy blocks₁ ∪ hashedBy blocks₂) := by
    apply hfree.mono
    rintro x (⟨b, hb, hx⟩ | ⟨b, hb, hx⟩)
    · exact Or.inl (Or.inl (Or.inl ⟨b, List.mem_cons_of_mem _ hb, hx⟩))
    · exact Or.inr (Or.inl (Or.inl ⟨b, List.mem_cons_of_mem _ hb, hx⟩))
  have hcommitments :=
    h₁.commitments_eq_of_shared_block h₂ hvalid₁ hvalid₂ hpast
  obtain ⟨hutxos, htimestamp⟩ := h₁.utxos_eq_of_commitments_eq h₂ hcommitments
  obtain ⟨after₁, new₁, hafter₁, hroot₁, run₁, htxs₁⟩ := h₁.exists_next hvalid₁
  obtain ⟨after₂, new₂, hafter₂, hroot₂, run₂, htxs₂⟩ := h₂.exists_next hvalid₂
  -- The block states one state root, so the registries are one.
  have hassets : after₁.assets = after₂.assets := by
    obtain ⟨x₁, hx₁, hhash₁⟩ := Option.map_eq_some_iff.mp hroot₁
    obtain ⟨x₂, hx₂, hhash₂⟩ := Option.map_eq_some_iff.mp hroot₂
    have hx : x₁ = x₂ := hfree
      (Or.inl (Or.inr ⟨after₁, h₁.chainId_eq.symm ▸ hafter₁, hx₁⟩))
      (Or.inr (Or.inr ⟨after₂, h₂.chainId_eq.symm ▸ hafter₂, hx₂⟩))
      (hhash₁.trans hhash₂.symm)
    rw [← hx] at hx₂
    exact assets_eq_of_stateRootPreimage_eq
      (LedgerState.applyAll_utxos_determined hutxos rfl hafter₁ hafter₂)
      hx₁ hx₂
  have hempty : after₁.assets = ∅ := by
    refine LedgerRun.assets_eq_empty_of_ne hne run₁ run₂
      (fun step hstep => (htxs₁ _).mp ⟨step, hstep, rfl⟩)
      (fun step hstep => (htxs₂ _).mp ⟨step, hstep, rfl⟩) hassets
      (hfree.mono ?_)
    rintro x (hx | hx)
    · exact Or.inl (Or.inl (Or.inr hx))
    · exact Or.inr (Or.inl (Or.inr hx))
  have htransfer₁ := run₁.transfers_of_assets_empty hempty htxs₁
  have htransfer₂ :=
    run₂.transfers_of_assets_empty (hassets ▸ hempty) htxs₂
  have hledger : chain₁.ledger = chain₂.ledger :=
    h₁.ledger_eq_of_transfers h₂ hutxos
      (fun b hb => htransfer₁ b (List.mem_cons_of_mem _ hb))
      (fun b hb => htransfer₂ b (List.mem_cons_of_mem _ hb))
  have hstateRoot : chain₁.stateRoot = chain₂.stateRoot := by
    have hroot := h₁.stateRoot_eq
    rw [hledger, h₂.stateRoot_eq] at hroot
    exact (Option.some.inj hroot).symm
  obtain ⟨hheight, htip⟩ := same_tip_of_shared_block hvalid₁ hvalid₂
  constructor
  · intro b hb
    rcases List.mem_cons.mp hb with rfl | hb
    · exact htransfer₁ b List.mem_cons_self
    · rcases List.mem_append.mp hb with hb | hb
      · exact htransfer₁ b (List.mem_cons_of_mem _ hb)
      · exact htransfer₂ b (List.mem_cons_of_mem _ hb)
  · have hchainId := h₂.chainId_eq
    cases chain₁
    cases chain₂
    simp_all

end TwoChains

section SharedBlock

open scoped StandIns

theorem emptyBlock_chainStrings (chainId : UInt32) {x : Bytes}
    (hx : x ∈ chainStrings chainId [] (defaultChainStateWithId chainId)
      (StandIns.emptyBlock 1)) :
    x = encodeBlockHeader (StandIns.emptyBlock 1).header ∨ x = [] := by
  rcases hx with (⟨block, hblock, hx⟩ | ⟨block, hblock, tx, htx, -⟩) |
    ⟨ledger, hledger, hx⟩
  · rw [List.mem_singleton.mp hblock] at hx
    exact emptyBlock_hashed hx
  · rw [List.mem_singleton.mp hblock] at htx
    exact absurd htx List.not_mem_nil
  · rw [← Except.ok.inj hledger] at hx
    exact Or.inr (Option.some.inj hx).symm

theorem emptyBlock_strings_collisionFree (chainId₁ chainId₂ : UInt32) :
    CollisionFree
      (chainStrings chainId₁ [] (defaultChainStateWithId chainId₁)
          (StandIns.emptyBlock 1) ∪
        chainStrings chainId₂ [] (defaultChainStateWithId chainId₂)
          (StandIns.emptyBlock 1)) := by
  apply StandIns.emptyBlock_collisionFree.mono
  rintro x (hx | hx)
  · exact emptyBlock_chainStrings chainId₁ hx
  · exact emptyBlock_chainStrings chainId₂ hx

/-- The first block of a chain is a first block of every other chain. -/
theorem emptyBlock_valid_on (chainId : UInt32) :
    validateReplayedBlock defaultRegistry (defaultChainStateWithId chainId)
      (StandIns.emptyBlock 1) [StandIns.validatorKey 1] = .ok () := by
  have hproposer : expectedProposerForValidators [StandIns.validatorKey 1] 1 =
      .ok (StandIns.validatorKey 1) := rfl
  have hlater : (0 : UInt64) < 1 := by decide
  exact validateReplayedBlock_eq_ok.mpr
    (StandIns.sealBlock_valid 1 1 _ rfl rfl rfl hlater fun _ => hproposer)

theorem emptyBlock_shared :
    ∃ (steps₁ : List (AppliedStep 0)) (steps₂ : List (AppliedStep 1))
      (chain₁ chain₂ : ChainState) (block : Block),
      AcceptedChain 0 [] steps₁ chain₁ ∧ AcceptedChain 1 [] steps₂ chain₂ ∧
      CollisionFree (chainStrings 0 [] chain₁ block ∪
        chainStrings 1 [] chain₂ block) ∧
      validateReplayedBlock defaultRegistry chain₁ block
        [StandIns.validatorKey 1] = .ok () ∧
      validateReplayedBlock defaultRegistry chain₂ block
        [StandIns.validatorKey 1] = .ok () :=
  ⟨_, _, _, _, StandIns.emptyBlock 1, AcceptedChain.genesis,
    AcceptedChain.genesis, emptyBlock_strings_collisionFree 0 1,
    emptyBlock_valid_on 0, emptyBlock_valid_on 1⟩

/-- The block applies in the same way on both chains. -/
theorem spendingTxs_applyAll (chainId : UInt32) (h : chainId ∈ [0, 1]) :
    LedgerState.empty.applyAll StandIns.spendingTxs defaultScriptEngine 1
      chainId = .ok StandIns.spendingLedger := by
  rcases List.mem_pair.mp h with rfl | rfl
  · decide +kernel
  · decide +kernel

theorem spendingBlock_valid_on (chainId : UInt32) (h : chainId ∈ [0, 1]) :
    validateReplayedBlock defaultRegistry (defaultChainStateWithId chainId)
      (StandIns.spendingBlock 1) [StandIns.validatorKey 1] = .ok () := by
  rcases List.mem_pair.mp h with rfl | rfl
  · decide +kernel
  · decide +kernel

/-- The strings hashed for the block. -/
def spendingStrings : List Bytes :=
  [encodeBlockHeader (StandIns.spendingBlock 1).header,
    (txRootPreimage StandIns.spendingTxs).getD [],
    (encodeTxCore (StandIns.openTransfer []).core).getD [],
    (encodeTxCore StandIns.openSpend.core).getD [],
    StandIns.spendingLedger.stateRootPreimage.getD []]

theorem spendingStrings_nodup : (spendingStrings.map Blake3.hash).Nodup := by
  decide +kernel

theorem spendingBlock_chainStrings (chainId : UInt32) (h : chainId ∈ [0, 1])
    {x : Bytes} (hx : x ∈ chainStrings chainId []
      (defaultChainStateWithId chainId) (StandIns.spendingBlock 1)) :
    x ∈ spendingStrings := by
  have hgetD : ∀ {encoded : Option Bytes}, encoded = some x →
      x = encoded.getD [] := fun hsome => by rw [hsome, Option.getD_some]
  simp only [spendingStrings, List.mem_cons, List.not_mem_nil, or_false]
  rcases hx with (⟨block, hblock, hhashed⟩ |
    ⟨block, hblock, tx, htx, hcreates⟩) | ⟨ledger, hledger, hroot⟩
  · obtain rfl := List.mem_singleton.mp hblock
    rcases hhashed with hheader | hroot | ⟨tx, htx, hcore⟩
    · exact Or.inl hheader
    · exact Or.inr (Or.inl (hgetD hroot))
    · rcases List.mem_pair.mp htx with rfl | rfl
      · exact Or.inr (Or.inr (Or.inl (hgetD hcore)))
      · exact Or.inr (Or.inr (Or.inr (Or.inl (hgetD hcore))))
  · obtain rfl := List.mem_singleton.mp hblock
    obtain ⟨definition, supply, hkind, -⟩ := hcreates
    rcases List.mem_pair.mp htx with rfl | rfl <;> cases hkind
  · have happlied : LedgerState.empty.applyAll StandIns.spendingTxs
        defaultScriptEngine 1 chainId = .ok ledger := hledger
    rw [spendingTxs_applyAll chainId h] at happlied
    obtain rfl := Except.ok.inj happlied
    exact Or.inr (Or.inr (Or.inr (Or.inr (hgetD hroot))))

/-- A block which spends an output is a first block of two chains; the two
genesis states differ in the chain id alone. -/
theorem spendingBlock_accepted_on_two_chains :
    (∀ b ∈ StandIns.spendingBlock 1 :: ([] ++ []), ∀ tx ∈ b.transactions,
      tx.core.kind = .transfer) ∧
    defaultChainStateWithId 1 =
      { defaultChainStateWithId 0 with chainId := 1 } := by
  have hfree : CollisionFree {x | x ∈ spendingStrings} :=
    fun _ hx _ hy => List.inj_on_of_nodup_map spendingStrings_nodup hx hy
  have hstrings := hfree.mono (Set.union_subset
    (fun _ hx => spendingBlock_chainStrings 0 (by decide) hx)
    (fun _ hx => spendingBlock_chainStrings 1 (by decide) hx))
  exact accepted_on_two_chains (by decide) AcceptedChain.genesis
    AcceptedChain.genesis (spendingBlock_valid_on 0 (by decide))
    (spendingBlock_valid_on 1 (by decide)) hstrings

end SharedBlock

end QCoin
