import QCoin.Consensus.StandIns

/-!
# The tip commits to the state

A header fixes its parent and, through the transaction root, the cores of its
block, and the cores fix the effect of the block.  Two accepted chains with one
tip therefore agree on everything but witnesses and signatures.
-/

namespace QCoin

open Support

section Commitment

variable [Blake3]

/-! ## What a block hashes -/

/-- The strings hashed for the header, the transaction root and the
transaction ids of a block. -/
def Block.hashed (block : Block) : Set Bytes :=
  {x | x = encodeBlockHeader block.header ∨
    txRootPreimage block.transactions = some x ∨
    ∃ tx ∈ block.transactions, encodeTxCore tx.core = some x}

def hashedBy (blocks : List Block) : Set Bytes :=
  {x | ∃ block ∈ blocks, x ∈ block.hashed}

variable {block₁ block₂ : Block}

theorem header_eq_of_hash_eq
    (hfree : CollisionFree (block₁.hashed ∪ block₂.hashed))
    (h : block₁.header.hash = block₂.header.hash) :
    block₁.header = block₂.header :=
  encodeBlockHeader_injective
    (hfree (Or.inl (Or.inl rfl)) (Or.inr (Or.inl rfl)) h)

omit [Blake3] in
theorem hashList_uniquelyEncoded :
    UniquelyEncoded (encodeAll fun id : Hash256 => some (encodeHash id)) :=
  encodeAll_uniquelyEncoded (by decide : 0 < 32)
    (fun id x hx => by rw [← Option.some.inj hx]; exact id.size)
    encodeHash_selfDelimiting.uniquelyEncoded

theorem txIds_eq_of_txRoot_eq
    (hfree : CollisionFree (block₁.hashed ∪ block₂.hashed))
    {txRoot : Hash256} (h₁ : computeTxRoot block₁.transactions = some txRoot)
    (h₂ : computeTxRoot block₂.transactions = some txRoot) :
    ∃ ids : List Hash256,
      block₁.transactions.map Transaction.txId = ids.map some ∧
      block₂.transactions.map Transaction.txId = ids.map some := by
  obtain ⟨x₁, hx₁, hhash₁⟩ := Option.map_eq_some_iff.mp h₁
  obtain ⟨x₂, hx₂, hhash₂⟩ := Option.map_eq_some_iff.mp h₂
  have hx : x₁ = x₂ := hfree (Or.inl (Or.inr (Or.inl hx₁)))
    (Or.inr (Or.inr (Or.inl hx₂))) (hhash₁.trans hhash₂.symm)
  obtain ⟨ids₁, hids₁, hencode₁⟩ := txRootPreimage_eq_some hx₁
  obtain ⟨ids₂, hids₂, hencode₂⟩ := txRootPreimage_eq_some hx₂
  rw [← hx] at hencode₂
  have hids : ids₁ = ids₂ := hashList_uniquelyEncoded hencode₁ hencode₂
  exact ⟨ids₁, hids₁, hids ▸ hids₂⟩

theorem core_eq_of_txId_eq
    (hfree : CollisionFree (block₁.hashed ∪ block₂.hashed))
    {tx₁ tx₂ : Transaction} (hmem₁ : tx₁ ∈ block₁.transactions)
    (hmem₂ : tx₂ ∈ block₂.transactions) {id : Hash256}
    (h₁ : tx₁.txId = some id) (h₂ : tx₂.txId = some id) :
    tx₁.core = tx₂.core := by
  obtain ⟨x₁, hx₁, hhash₁⟩ := Option.map_eq_some_iff.mp h₁
  obtain ⟨x₂, hx₂, hhash₂⟩ := Option.map_eq_some_iff.mp h₂
  have hx : x₁ = x₂ := hfree (Or.inl (Or.inr (Or.inr ⟨tx₁, hmem₁, hx₁⟩)))
    (Or.inr (Or.inr (Or.inr ⟨tx₂, hmem₂, hx₂⟩))) (hhash₁.trans hhash₂.symm)
  rw [← hx] at hx₂
  exact encodeTxCore_selfDelimiting.uniquelyEncoded hx₁ hx₂

/-- One transaction root stands for one list of cores. -/
theorem cores_eq_of_txRoot_eq
    (hfree : CollisionFree (block₁.hashed ∪ block₂.hashed))
    {txRoot : Hash256} (h₁ : computeTxRoot block₁.transactions = some txRoot)
    (h₂ : computeTxRoot block₂.transactions = some txRoot) :
    block₁.transactions.map Transaction.core =
      block₂.transactions.map Transaction.core := by
  obtain ⟨ids, hids₁, hids₂⟩ := txIds_eq_of_txRoot_eq hfree h₁ h₂
  apply List.ext_getElem?
  intro i
  have hid₁ := congrArg (·[i]?) hids₁
  have hid₂ := congrArg (·[i]?) hids₂
  simp only [List.getElem?_map] at hid₁ hid₂ ⊢
  cases hi : ids[i]? with
  | none =>
      rw [hi, Option.map_none, Option.map_eq_none_iff] at hid₁ hid₂
      rw [hid₁, hid₂]
  | some id =>
      rw [hi, Option.map_some, Option.map_eq_some_iff] at hid₁ hid₂
      obtain ⟨tx₁, htx₁, h₁⟩ := hid₁
      obtain ⟨tx₂, htx₂, h₂⟩ := hid₂
      rw [htx₁, htx₂, Option.map_some, Option.map_some,
        core_eq_of_txId_eq hfree (List.mem_of_getElem? htx₁)
          (List.mem_of_getElem? htx₂) h₁ h₂]

/-! ## Chains with one tip -/

/-- The headers and the cores of a chain. -/
def commitments (blocks : List Block) :
    List (BlockHeader × List TransactionCore) :=
  blocks.map fun block =>
    (block.header, block.transactions.map Transaction.core)

variable [Bincode] [PqCrypto] {chainId chainId' : UInt32}

omit [PqCrypto] in
theorem ChainState.tipHash_applyBlock {block : Block} {chain chain' : ChainState}
    {engine : ScriptEngine}
    (happlied : chain.applyBlock block engine = .ok chain') :
    chain'.tipHash = block.header.hash := by
  obtain ⟨_, _, -, -, rfl⟩ := ChainState.applyBlock_eq_ok.mp happlied
  rfl

/-- Headers and cores follow from the tip, on chains of any two ids. -/
theorem AcceptedChain.commitments_eq_of_tip_eq
    {blocks₁ blocks₂ : List Block} {steps₁ : List (AppliedStep chainId)}
    {steps₂ : List (AppliedStep chainId')} {chain₁ chain₂ : ChainState}
    (h₁ : AcceptedChain chainId blocks₁ steps₁ chain₁)
    (h₂ : AcceptedChain chainId' blocks₂ steps₂ chain₂)
    (hfree : CollisionFree (hashedBy blocks₁ ∪ hashedBy blocks₂))
    (hlength : blocks₁.length = blocks₂.length)
    (htip : chain₁.tipHash = chain₂.tipHash) :
    commitments blocks₁ = commitments blocks₂ := by
  induction h₁ generalizing blocks₂ steps₂ chain₂ with
  | genesis =>
      cases h₂ with
      | genesis => rfl
      | extend past valid applied => simp at hlength
  | @extend blocks₁ _ before₁ _ block₁ _ _ _ past₁ valid₁ applied₁ ih =>
      cases h₂ with
      | genesis => simp at hlength
      | @extend blocks₂ _ before₂ _ block₂ _ _ _ past₂ valid₂ applied₂ =>
          have hblocks : CollisionFree (block₁.hashed ∪ block₂.hashed) :=
            hfree.heads
          have hpast : CollisionFree (hashedBy blocks₁ ∪ hashedBy blocks₂) :=
            hfree.tails
          rw [ChainState.tipHash_applyBlock applied₁,
            ChainState.tipHash_applyBlock applied₂] at htip
          have hheader := header_eq_of_hash_eq hblocks htip
          have hvalid₁ := validateReplayedBlock_eq_ok.mp valid₁
          have hvalid₂ := validateReplayedBlock_eq_ok.mp valid₂
          have hparent : before₁.tipHash = before₂.tipHash := by
            rw [← hvalid₁.parent, ← hvalid₂.parent, hheader]
          have hcores := cores_eq_of_txRoot_eq hblocks hvalid₁.txRoot
            (hheader ▸ hvalid₂.txRoot)
          have hcommitments := ih past₂ hpast (by simpa using hlength) hparent
          rw [commitments, List.map_cons, hheader, hcores, ← commitments,
            hcommitments]
          rfl

/-- What blocks with one header and the same cores preserve between two chain
states holds between the ends of chains with the same headers and cores. -/
theorem AcceptedChain.rel_of_commitments_eq
    {R : ChainState → ChainState → Prop}
    {blocks₁ blocks₂ : List Block} {steps₁ : List (AppliedStep chainId)}
    {steps₂ : List (AppliedStep chainId')} {chain₁ chain₂ : ChainState}
    (h₁ : AcceptedChain chainId blocks₁ steps₁ chain₁)
    (h₂ : AcceptedChain chainId' blocks₂ steps₂ chain₂)
    (hgenesis : R (defaultChainStateWithId chainId)
      (defaultChainStateWithId chainId'))
    (hstep : ∀ {chain₁ chain₂ next₁ next₂ : ChainState}
      {block₁ block₂ : Block} {engine₁ engine₂ : ScriptEngine},
      R chain₁ chain₂ → block₁.header = block₂.header →
      block₁.transactions.map Transaction.core =
        block₂.transactions.map Transaction.core →
      chain₁.applyBlock block₁ engine₁ = .ok next₁ →
      chain₂.applyBlock block₂ engine₂ = .ok next₂ → R next₁ next₂)
    (hcommitments : commitments blocks₁ = commitments blocks₂) :
    R chain₁ chain₂ := by
  induction h₁ generalizing blocks₂ steps₂ chain₂ with
  | genesis =>
      cases h₂ with
      | genesis => exact hgenesis
      | extend past valid applied => simp [commitments] at hcommitments
  | extend past₁ valid₁ applied₁ ih =>
      cases h₂ with
      | genesis => simp [commitments] at hcommitments
      | extend past₂ valid₂ applied₂ =>
          simp only [commitments, List.map_cons, List.cons.injEq,
            Prod.mk.injEq] at hcommitments
          obtain ⟨⟨hheader, hcores⟩, hpast⟩ := hcommitments
          exact hstep (ih past₂ hpast) hheader hcores applied₁ applied₂

/-- On one chain id, headers and cores determine the chain state. -/
theorem AcceptedChain.eq_of_commitments_eq
    {blocks₁ blocks₂ : List Block} {steps₁ steps₂ : List (AppliedStep chainId)}
    {chain₁ chain₂ : ChainState}
    (h₁ : AcceptedChain chainId blocks₁ steps₁ chain₁)
    (h₂ : AcceptedChain chainId blocks₂ steps₂ chain₂)
    (hcommitments : commitments blocks₁ = commitments blocks₂) :
    chain₁ = chain₂ := by
  refine h₁.rel_of_commitments_eq (R := Eq) h₂ rfl ?_ hcommitments
  rintro chain _ next₁ next₂ block₁ block₂ _ _ rfl hheader hcores
    applied₁ applied₂
  obtain ⟨ledger₁, root₁, hledger₁, hroot₁, rfl⟩ :=
    ChainState.applyBlock_eq_ok.mp applied₁
  obtain ⟨ledger₂, root₂, hledger₂, hroot₂, rfl⟩ :=
    ChainState.applyBlock_eq_ok.mp applied₂
  rw [hheader] at hledger₁
  have hledger :=
    LedgerState.applyAll_core_determined hcores hledger₁ hledger₂
  rw [← hledger, hroot₁, Option.some.injEq] at hroot₂
  rw [hheader, hledger, hroot₂]

theorem AcceptedChain.eq_of_tip_eq
    {blocks₁ blocks₂ : List Block} {steps₁ steps₂ : List (AppliedStep chainId)}
    {chain₁ chain₂ : ChainState}
    (h₁ : AcceptedChain chainId blocks₁ steps₁ chain₁)
    (h₂ : AcceptedChain chainId blocks₂ steps₂ chain₂)
    (hfree : CollisionFree (hashedBy blocks₁ ∪ hashedBy blocks₂))
    (hlength : blocks₁.length = blocks₂.length)
    (htip : chain₁.tipHash = chain₂.tipHash) :
    commitments blocks₁ = commitments blocks₂ ∧ chain₁ = chain₂ := by
  have hcommitments := h₁.commitments_eq_of_tip_eq h₂ hfree hlength htip
  exact ⟨hcommitments, h₁.eq_of_commitments_eq h₂ hcommitments⟩

/-- Accepted chains of one height with one tip have the same headers and
cores and lead to the same chain state. -/
theorem tip_commits_to_state
    {blocks₁ blocks₂ : List Block} {steps₁ steps₂ : List (AppliedStep chainId)}
    {chain₁ chain₂ : ChainState}
    (h₁ : AcceptedChain chainId blocks₁ steps₁ chain₁)
    (h₂ : AcceptedChain chainId blocks₂ steps₂ chain₂)
    (hfree : CollisionFree (hashedBy blocks₁ ∪ hashedBy blocks₂))
    (hheight : chain₁.height = chain₂.height)
    (htip : chain₁.tipHash = chain₂.tipHash) :
    blocks₁.map Block.header = blocks₂.map Block.header ∧
      (blocks₁.map fun block => block.transactions.map Transaction.core) =
        (blocks₂.map fun block => block.transactions.map Transaction.core) ∧
      chain₁.ledger.utxos = chain₂.ledger.utxos ∧
      chain₁.ledger.assets = chain₂.ledger.assets ∧
      chain₁.stateRoot = chain₂.stateRoot ∧
      chain₁.lastTimestamp = chain₂.lastTimestamp := by
  have hlength : blocks₁.length = blocks₂.length := by
    rw [← h₁.height_eq_length.1, ← h₂.height_eq_length.1, hheight]
  obtain ⟨hcommitments, rfl⟩ := h₁.eq_of_tip_eq h₂ hfree hlength htip
  have hheaders := congrArg (List.map Prod.fst) hcommitments
  have hcores := congrArg (List.map Prod.snd) hcommitments
  simp only [commitments, List.map_map] at hheaders hcores
  exact ⟨hheaders, hcores, rfl, rfl, rfl, rfl⟩

end Commitment

section Signers

open scoped StandIns

theorem emptyBlock_hashed {n : UInt8} {x : Bytes}
    (h : x ∈ (StandIns.emptyBlock n).hashed) :
    x = encodeBlockHeader (StandIns.emptyBlock 1).header ∨ x = [] := by
  rcases h with rfl | hroot | ⟨tx, htx, -⟩
  · exact Or.inl rfl
  · exact Or.inr (Option.some.inj hroot).symm
  · exact absurd htx List.not_mem_nil

/-- Two validators sign one header; the chain states agree. -/
theorem emptyBlock_tip_commits_to_state :
    ∃ (steps₁ steps₂ : List (AppliedStep 0)) (chain₁ chain₂ : ChainState),
      AcceptedChain 0 [StandIns.emptyBlock 1] steps₁ chain₁ ∧
      AcceptedChain 0 [StandIns.emptyBlock 2] steps₂ chain₂ ∧
      chain₁.ledger.utxos = chain₂.ledger.utxos := by
  have haccepted := StandIns.emptyBlock_accepted
  have hfree : CollisionFree (hashedBy [StandIns.emptyBlock 1] ∪
      hashedBy [StandIns.emptyBlock 2]) := by
    apply StandIns.emptyBlock_collisionFree.mono
    rintro x (⟨block, hblock, hx⟩ | ⟨block, hblock, hx⟩)
    · exact emptyBlock_hashed (List.mem_singleton.mp hblock ▸ hx)
    · exact emptyBlock_hashed (List.mem_singleton.mp hblock ▸ hx)
  exact ⟨_, _, _, _, haccepted 1, haccepted 2,
    (tip_commits_to_state (haccepted 1) (haccepted 2) hfree rfl
      rfl).2.2.1⟩

end Signers

end QCoin
