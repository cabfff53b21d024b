import QCoin.Consensus.Chain
import QCoin.Ledger.StandIns

/-!
# A stand-in validator

Blocks sealed with the stand-in signatures.
-/

namespace QCoin.StandIns

open Support

/-- The block of a stand-in validator on top of a chain. -/
def sealBlock (n : UInt8) (chain : ChainState) (txs : List Transaction)
    (stateRoot txRoot : Hash256) (timestamp : UInt64) : Block :=
  let header : BlockHeader := {
    parentHash := chain.tipHash
    stateRoot := stateRoot
    txRoot := txRoot
    height := chain.height + 1
    timestamp := timestamp }
  { header := header
    transactions := txs
    proposerPublicKey := validatorKey n
    signature := ⟨.dilithium2, [n] ++ encodeBlockHeader header⟩ }

theorem sealBlock_signed (n : UInt8) (chain : ChainState)
    (txs : List Transaction) (stateRoot txRoot : Hash256) (timestamp : UInt64) :
    verifyHeader defaultRegistry
      (sealBlock n chain txs stateRoot txRoot timestamp) = .ok () := by
  simp [verifyHeader, defaultRegistry, dilithium2Scheme, moduleScheme,
    sealBlock, validatorKey, PqCrypto.dilithium2, echoModule,
    length_encodeBlockHeader, Result.okOr, Result.require, bind, Except.bind,
    Except.isOk, Except.toBool]

/-- A sealed block which states the right roots is valid under any schedule
in which it is its validator's turn. -/
theorem sealBlock_valid (n : UInt8) (timestamp : UInt64)
    (validators : List PublicKey) {chain : ChainState}
    {txs : List Transaction} {ledger : LedgerState}
    {stateRoot txRoot : Hash256}
    (hledger : chain.ledger.applyAll txs defaultScriptEngine
      (chain.height + 1) chain.chainId = .ok ledger)
    (hstateRoot : ledger.stateRoot = some stateRoot)
    (htxRoot : computeTxRoot txs = some txRoot)
    (htimestamp : chain.lastTimestamp < timestamp)
    (hproposer : validators ≠ [] →
      expectedProposerForValidators validators (chain.height + 1) =
        .ok (validatorKey n)) :
    ReplayValid defaultRegistry chain
      (sealBlock n chain txs stateRoot txRoot timestamp) validators where
  height := rfl
  parent := rfl
  timestamp := htimestamp
  proposer := hproposer
  txRoot := htxRoot
  stateRoot := computeStateRoot_eq_ok.mpr ⟨ledger, hledger, hstateRoot⟩
  signed := sealBlock_signed n chain txs stateRoot txRoot timestamp

theorem sealBlock_applies (n : UInt8) {chain : ChainState}
    {txs : List Transaction} {ledger : LedgerState} {stateRoot : Hash256}
    (txRoot : Hash256)
    (timestamp : UInt64)
    (hledger : chain.ledger.applyAll txs defaultScriptEngine
      (chain.height + 1) chain.chainId = .ok ledger)
    (hstateRoot : ledger.stateRoot = some stateRoot) :
    ∃ chain', chain.applyBlock
      (sealBlock n chain txs stateRoot txRoot timestamp) defaultScriptEngine =
        .ok chain' :=
  ⟨_, ChainState.applyBlock_eq_ok.mpr
    ⟨ledger, stateRoot, hledger, hstateRoot, rfl⟩⟩

/-! ## A first block without transactions -/

def emptyBlock (n : UInt8) : Block :=
  sealBlock n (defaultChainStateWithId 0) [] (Blake3.hash []) (Blake3.hash [])
    1

/-- The chain state after it, whoever sealed it. -/
def emptyBlockChain : ChainState where
  ledger := LedgerState.empty
  height := 1
  tipHash := (emptyBlock 1).header.hash
  stateRoot := Blake3.hash []
  lastTimestamp := 1
  chainId := 0

theorem emptyBlock_applyAll (chain : ChainState) (engine : ScriptEngine) :
    chain.ledger.applyAll [] engine (chain.height + 1) chain.chainId =
      .ok chain.ledger := rfl

theorem emptyBlock_valid (n : UInt8) (validators : List PublicKey)
    (hproposer : validators ≠ [] →
      expectedProposerForValidators validators 1 = .ok (validatorKey n)) :
    validateReplayedBlock defaultRegistry (defaultChainStateWithId 0)
      (emptyBlock n) validators = .ok () :=
  validateReplayedBlock_eq_ok.mpr
    (sealBlock_valid n 1 validators (emptyBlock_applyAll _ _) rfl rfl
      (by decide) hproposer)

theorem emptyBlock_applies (n : UInt8) :
    (defaultChainStateWithId 0).applyBlock (emptyBlock n)
      defaultScriptEngine = .ok emptyBlockChain :=
  ChainState.applyBlock_eq_ok.mpr ⟨LedgerState.empty, _, rfl, rfl, rfl⟩

theorem emptyBlock_accepted (n : UInt8) :
    AcceptedChain 0 [emptyBlock n] [] emptyBlockChain :=
  AcceptedChain.extend AcceptedChain.genesis (emptyBlock_valid n [] (by simp))
    (emptyBlock_applies n)

theorem emptyBlock_collisionFree :
    Set.InjOn Blake3.hash ({x | x = encodeBlockHeader (emptyBlock 1).header ∨
      x = []} : Set Bytes) := by
  have hne : Blake3.hash (encodeBlockHeader (emptyBlock 1).header) ≠
      Blake3.hash [] := by
    decide +kernel
  rintro x (rfl | rfl) y (rfl | rfl) h
  · rfl
  · exact absurd h hne
  · exact absurd h.symm hne
  · rfl

/-! ## A first block which spends an output -/

/-- The second transaction spends the output of the first one. -/
def spendingTxs : List Transaction := [openTransfer [], openSpend]

def spendingLedger : LedgerState :=
  (LedgerState.empty.applyAll spendingTxs defaultScriptEngine 1
    0).toOption.getD LedgerState.empty

def spendingBlock (n : UInt8) : Block :=
  sealBlock n (defaultChainStateWithId 0) spendingTxs
    (spendingLedger.stateRoot.getD default)
    ((computeTxRoot spendingTxs).getD default) 1

end QCoin.StandIns
