import QCoin.Ledger.Acceptance

/-!
# The consensus engine

`ChainState::apply_block` of `qcoin-ledger` and the whole of `qcoin-consensus`:
replay validation, the proposer schedule and `DummyConsensusEngine`.  Block
production reads a clock and draws randomness for the signature; both are
arguments here.
-/

namespace QCoin

open Support
open Support.Result

inductive ConsensusError where
  | invalidBlock
  | signatureError
  | ledgerError (message : String)
  | other (message : String)
deriving DecidableEq, Repr

def ConsensusError.display : ConsensusError → String
  | .invalidBlock => "invalid block"
  | .signatureError => "signature verification failed"
  | .ledgerError message => "ledger error: " ++ message
  | .other message => "other consensus error: " ++ message

section Ledger

variable [Blake3] [Bincode]

/-- `apply_transaction` for callers which drop the ledger on failure. -/
def LedgerState.applied (ledger : LedgerState) (tx : Transaction)
    (engine : ScriptEngine) (currentHeight : UInt64) (chainId : UInt32) :
    Result LedgerError LedgerState :=
  match ledger.applyTransaction tx engine currentHeight chainId with
  | (.ok (), ledger') => .ok ledger'
  | (.error abort, _) => .error abort

def LedgerState.applyAll (ledger : LedgerState) (txs : List Transaction)
    (engine : ScriptEngine) (currentHeight : UInt64) (chainId : UInt32) :
    Result LedgerError LedgerState :=
  txs.foldlM (fun ledger tx => ledger.applied tx engine currentHeight chainId)
    ledger

def BlockHeader.hash (header : BlockHeader) : Hash256 :=
  Blake3.hash (encodeBlockHeader header)

/-- `ChainState::apply_block`. -/
def ChainState.applyBlock (chain : ChainState) (block : Block)
    (engine : ScriptEngine) : Result LedgerError ChainState := do
  let ledger ← chain.ledger.applyAll block.transactions engine
    block.header.height chain.chainId
  let stateRoot ← orPanic ledger.stateRoot
  return {
    ledger := ledger
    height := block.header.height
    tipHash := block.header.hash
    stateRoot := stateRoot
    lastTimestamp := block.header.timestamp
    chainId := chain.chainId }

/-- `default_chain_state_with_id`.  The empty ledger serializes to no bytes. -/
def defaultChainStateWithId (chainId : UInt32) : ChainState where
  ledger := LedgerState.empty
  height := 0
  tipHash := Hash256.fill 0
  stateRoot := (LedgerState.empty.stateRoot).getD default
  lastTimestamp := 0
  chainId := chainId

end Ledger

/-! ## Replay validation -/

def expectedProposerForValidators (validators : List PublicKey)
    (height : UInt64) : Result ConsensusError PublicKey := do
  require (validators ≠ []) (.other "validator set is empty")
  let index := (height - 1).toNat % validators.length
  okOr validators[index]? (.other "invalid proposer index")

section Validation

variable [Blake3]

def txRootPreimage (txs : List Transaction) : Option Bytes :=
  encodeAll (fun tx => tx.txId.map Hash256.bytes) txs

def computeTxRoot (txs : List Transaction) : Option Hash256 :=
  (txRootPreimage txs).map Blake3.hash

variable [Bincode] [PqCrypto]

def computeStateRoot (chain : ChainState) (txs : List Transaction)
    (height : UInt64) : Result ConsensusError Hash256 := do
  let ledger ← mapErr (fun err => ConsensusError.ledgerError err.display)
    (chain.ledger.applyAll txs defaultScriptEngine height chain.chainId)
  orPanic ledger.stateRoot

/-- The proposer is not checked against an empty validator list. -/
def checkProposer (block : Block) (validators : List PublicKey) :
    Result ConsensusError Unit :=
  if validators = [] then .ok ()
  else do
    let expected ←
      expectedProposerForValidators validators block.header.height
    require (block.proposerPublicKey = expected) .invalidBlock

/-- Check the scheme and the signature over the serialized header. -/
def verifyHeader (registry : PqSchemeRegistry) (block : Block) :
    Result ConsensusError Unit := do
  let scheme ← okOr (registry block.signature.scheme) .signatureError
  require ((scheme.verify block.proposerPublicKey
    (encodeBlockHeader block.header) block.signature).isOk = true)
    .signatureError

def validateReplayedBlock (registry : PqSchemeRegistry) (chain : ChainState)
    (block : Block) (validators : List PublicKey) :
    Result ConsensusError Unit := do
  require (block.header.height = chain.height + 1) .invalidBlock
  require (block.header.parentHash = chain.tipHash) .invalidBlock
  require (¬block.header.timestamp ≤ chain.lastTimestamp) .invalidBlock
  checkProposer block validators
  let expectedTxRoot ← orPanic (computeTxRoot block.transactions)
  require (block.header.txRoot = expectedTxRoot) .invalidBlock
  let expectedStateRoot ←
    computeStateRoot chain block.transactions block.header.height
  require (block.header.stateRoot = expectedStateRoot) .invalidBlock
  verifyHeader registry block

/-! ## The engine of a validator -/

structure DummyConsensusEngine where
  registry : PqSchemeRegistry
  signingScheme : SignatureSchemeId
  signingKey : PrivateKey
  publicKey : PublicKey
  validators : List PublicKey

namespace DummyConsensusEngine

/-- `DummyConsensusEngine::from_keys`. -/
def fromKeys (registry : PqSchemeRegistry) (publicKey : PublicKey)
    (signingKey : PrivateKey) (validators : List PublicKey) :
    Result ConsensusError DummyConsensusEngine := do
  require (¬publicKey.scheme ≠ signingKey.scheme)
    (.other "public/private key scheme mismatch")
  return {
    registry := registry
    signingScheme := publicKey.scheme
    signingKey := signingKey
    publicKey := publicKey
    -- An empty configuration falls back to the engine's own key.
    validators := if validators = [] then [publicKey] else validators }

def expectedProposer (consensus : DummyConsensusEngine) (height : UInt64) :
    Result ConsensusError PublicKey :=
  expectedProposerForValidators consensus.validators height

def canProposeNextBlock (consensus : DummyConsensusEngine)
    (chain : ChainState) : Result ConsensusError Bool := do
  let expected ← consensus.expectedProposer (chain.height + 1)
  return expected == consensus.publicKey

/-- Sign a header with the engine's own key. -/
def signHeader (consensus : DummyConsensusEngine) (header : BlockHeader)
    (entropy : ℕ) : Result ConsensusError Signature := do
  let scheme ← orPanic (consensus.registry consensus.signingScheme)
  match scheme.sign entropy consensus.signingKey (encodeBlockHeader header) with
  | .ok signature => return signature
  | .error _ => .error (.err .signatureError)

/-- The reading of a clock.  One which cannot be read gives its error text. -/
def currentTimestamp (clock : Except String UInt64) :
    Result ConsensusError UInt64 :=
  match clock with
  | .ok now => .ok now
  | .error err => .error (.err (.other ("failed to read time: " ++ err)))

/-- `propose_block`. -/
def proposeBlock (consensus : DummyConsensusEngine) (chain : ChainState)
    (txs : List Transaction) (clock : Except String UInt64) (entropy : ℕ) :
    Result ConsensusError Block := do
  let nextHeight := chain.height + 1
  let expected ← consensus.expectedProposer nextHeight
  require (¬expected ≠ consensus.publicKey) .invalidBlock
  let stateRoot ← computeStateRoot chain txs nextHeight
  let txRoot ← orPanic (computeTxRoot txs)
  let timestamp ← currentTimestamp clock
  let header : BlockHeader := {
    parentHash := chain.tipHash
    stateRoot := stateRoot
    txRoot := txRoot
    height := nextHeight
    timestamp := timestamp }
  let signature ← consensus.signHeader header entropy
  return {
    header := header
    transactions := txs
    proposerPublicKey := consensus.publicKey
    signature := signature }

def validateBlock (consensus : DummyConsensusEngine) (chain : ChainState)
    (block : Block) : Result ConsensusError Unit :=
  validateReplayedBlock consensus.registry chain block consensus.validators

end DummyConsensusEngine

end Validation

end QCoin
