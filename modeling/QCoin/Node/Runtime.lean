import QCoin.Consensus.Chain
import QCoin.Node.Storage

/-!
# The node runtime

`NodeRuntime` of `qcoin-node` and the calls which change it: the mempool
admission of a transaction, the application of a block and block production.
Every call returns its result next to the runtime it leaves behind.
-/

namespace QCoin

open Support
open Support.Result

inductive NodeError where
  | validateBlock (err : ConsensusError)
  | applyBlock (err : LedgerError)
  | save (err : String)
  | alreadyCommitted (txId : Hash256)
  | pendingInvalid (err : LedgerError)
  | admission (err : LedgerError)
  | proposerSchedule (err : ConsensusError)
  | proposeBlock (err : ConsensusError)
deriving DecidableEq

def NodeError.display : NodeError → String
  | .validateBlock err => "Failed to validate block: " ++ err.display
  | .applyBlock err => "Failed to apply block: " ++ err.display
  | .save err => err
  | .alreadyCommitted txId =>
      "transaction " ++ toHex txId.bytes ++ " is already committed"
  | .pendingInvalid err =>
      "Pending mempool transaction became invalid: " ++ err.display
  | .admission err =>
      "Failed to validate transaction for mempool admission: " ++ err.display
  | .proposerSchedule err =>
      "Failed to evaluate proposer schedule: " ++ err.display
  | .proposeBlock err => "Failed to propose block: " ++ err.display

inductive TransactionAcceptStatus where
  | acceptedNew (txId : Hash256)
  | alreadyPending (txId : Hash256)
deriving DecidableEq

/-- How the two saves of `apply_block` end. -/
structure SaveOutcomes where
  blockHistory : Except String Unit
  chainState : Except String Unit

def saved (outcome : Except String Unit) : Result NodeError Unit :=
  match outcome with
  | .ok () => .ok ()
  | .error err => .error (.err (.save err))

theorem saved_eq_ok {outcome : Except String Unit} {u : Unit} :
    saved outcome = .ok u ↔ outcome = .ok () := by
  rcases outcome with err | u <;> simp [saved]

/-- `n.saturating_add(1)`. -/
def saturatingSucc (n : UInt64) : UInt64 :=
  if n.toNat + 1 < 2 ^ 64 then n + 1 else n

/-- `blocks` lists the history in chain order. -/
structure NodeRuntime where
  chain : ChainState
  blocks : List Block
  pendingTransactions : List Transaction
  consensus : DummyConsensusEngine
  scriptEngine : VmConfig
  statePath : FilePath
  blocksPath : FilePath
  produceEmptyBlocks : Bool

section TxIds

variable [Blake3]

/-- Whether one of the transactions has the id; the search stops at the first
which has it. -/
def anyTxId (txId : Hash256) : List Transaction → Option Bool
  | [] => some false
  | tx :: txs => do
      let other ← tx.txId
      if other = txId then some true else anyTxId txId txs

def txIdsOf (txs : List Transaction) : Option (List Hash256) :=
  txs.mapM Transaction.txId

def committedTransactions (blocks : List Block) : List Transaction :=
  blocks.flatMap Block.transactions

/-- Every transaction of the list has an id, and it is not `txId`. -/
def Avoids (txs : List Transaction) (txId : Hash256) : Prop :=
  ∀ tx ∈ txs, ∃ other, tx.txId = some other ∧ other ≠ txId

theorem anyTxId_eq_false {txId : Hash256} {txs : List Transaction} :
    anyTxId txId txs = some false ↔ Avoids txs txId := by
  induction txs with
  | nil => simp [anyTxId, Avoids]
  | cons tx txs ih =>
      rw [anyTxId, Avoids, List.forall_mem_cons, ← Avoids, ← ih]
      cases tx.txId with
      | none => simp
      | some other => by_cases h : other = txId <;> simp [h]

theorem txIdsOf_cons_eq_some {tx : Transaction} {txs : List Transaction}
    {ids : List Hash256} :
    txIdsOf (tx :: txs) = some ids ↔ ∃ id rest, tx.txId = some id ∧
      txIdsOf txs = some rest ∧ ids = id :: rest := by
  simp only [txIdsOf, List.mapM_cons, Option.bind_eq_bind,
    Option.bind_eq_some_iff, Option.pure_def, Option.some.injEq]
  constructor
  · rintro ⟨id, hid, rest, hrest, hids⟩
    exact ⟨id, rest, hid, hrest, hids.symm⟩
  · rintro ⟨id, rest, hid, hrest, hids⟩
    exact ⟨id, hid, rest, hrest, hids.symm⟩

/-- The ids can be listed when every transaction has one. -/
theorem exists_txIdsOf {txs : List Transaction} :
    (∃ ids, txIdsOf txs = some ids) ↔ ∀ tx ∈ txs, ∃ id, tx.txId = some id := by
  induction txs with
  | nil => simp [txIdsOf]
  | cons tx txs ih =>
      simp only [txIdsOf_cons_eq_some, List.forall_mem_cons, ← ih]
      constructor
      · rintro ⟨_, id, rest, hid, hrest, -⟩
        exact ⟨⟨id, hid⟩, rest, hrest⟩
      · rintro ⟨⟨id, hid⟩, rest, hrest⟩
        exact ⟨_, id, rest, hid, hrest, rfl⟩

theorem mem_of_txIdsOf {txs : List Transaction} {ids : List Hash256}
    (h : txIdsOf txs = some ids) {txId : Hash256} :
    txId ∈ ids ↔ ∃ tx ∈ txs, tx.txId = some txId := by
  induction txs generalizing ids with
  | nil =>
      have hids : ids = [] := by simpa [txIdsOf] using h
      simp [hids]
  | cons tx txs ih =>
      obtain ⟨id, rest, hid, hrest, rfl⟩ := txIdsOf_cons_eq_some.mp h
      rw [List.mem_cons, ih hrest, List.exists_mem_cons_iff, hid,
        Option.some.injEq, eq_comm]

end TxIds

namespace NodeRuntime

/-! ## Applying a block -/

def engine [Blake3] [PqCrypto] (runtime : NodeRuntime) : ScriptEngine :=
  deterministicScriptEngine runtime.scriptEngine

/-- The height at which pending transactions are checked. -/
def nextHeight (runtime : NodeRuntime) : UInt64 :=
  saturatingSucc runtime.chain.height

variable [Blake3] [Bincode] [PqCrypto]

/-- The transactions which survive a replay on the simulated ledger.  Failing
transactions are dropped, but the ledger they leave behind is kept. -/
def retain (engine : ScriptEngine) (height : UInt64) (chainId : UInt32)
    (committedTxIds : List Hash256) :
    LedgerState → List Transaction → Result NodeError (List Transaction)
  | _, [] => .ok []
  | ledger, tx :: txs => do
      let txId ← orPanic tx.txId
      if txId ∈ committedTxIds then
        retain engine height chainId committedTxIds ledger txs
      else
        match ledger.applyTransaction tx engine height chainId with
        | (.ok (), ledger) => do
            let rest ← retain engine height chainId committedTxIds ledger txs
            return tx :: rest
        | (.error (.err _), ledger) =>
            retain engine height chainId committedTxIds ledger txs
        | (.error .panic, _) => .error .panic

def reconcilePendingTransactions (runtime : NodeRuntime) :
    Result NodeError Unit × NodeRuntime :=
  if runtime.pendingTransactions = [] then (.ok (), runtime)
  else
    match txIdsOf (committedTransactions runtime.blocks) with
    | none => (.error .panic, runtime)
    | some committedTxIds =>
        match retain runtime.engine runtime.nextHeight runtime.chain.chainId
            committedTxIds runtime.chain.ledger
            runtime.pendingTransactions with
        | .ok retained =>
            (.ok (), { runtime with pendingTransactions := retained })
        -- The list being drained is left empty by a panic.
        | .error abort =>
            (.error abort, { runtime with pendingTransactions := [] })

/-- The part of `apply_block` before the first save: the next chain state and
the next history. -/
def prepareBlock (runtime : NodeRuntime) (block : Block) :
    Result NodeError (ChainState × List Block) := do
  mapErr NodeError.validateBlock
    (runtime.consensus.validateBlock runtime.chain block)
  let nextChain ← mapErr NodeError.applyBlock
    (runtime.chain.applyBlock block runtime.engine)
  return (nextChain, runtime.blocks ++ [block])

/-- The part of `apply_block` before the runtime is changed. -/
def prepareAndSave (runtime : NodeRuntime) (block : Block)
    (saves : SaveOutcomes) : Result NodeError (ChainState × List Block) := do
  let next ← runtime.prepareBlock block
  saved saves.blockHistory
  saved saves.chainState
  return next

def applyBlock (runtime : NodeRuntime) (block : Block)
    (saves : SaveOutcomes) : Result NodeError UInt64 × NodeRuntime :=
  match runtime.prepareAndSave block saves with
  | .error abort => (.error abort, runtime)
  | .ok (nextChain, nextBlocks) =>
      match reconcilePendingTransactions
          { runtime with chain := nextChain, blocks := nextBlocks } with
      | (.ok (), runtime) => (.ok runtime.chain.height, runtime)
      | (.error abort, runtime) => (.error abort, runtime)

/-! ## Admission of a transaction -/

/-- The checks of `accept_transaction`. -/
def checkAdmission (runtime : NodeRuntime) (tx : Transaction) :
    Result NodeError TransactionAcceptStatus := do
  let txId ← orPanic tx.txId
  let committed ← orPanic
    (anyTxId txId (committedTransactions runtime.blocks))
  require (¬committed = true) (.alreadyCommitted txId)
  let alreadyPending ← orPanic (anyTxId txId runtime.pendingTransactions)
  if alreadyPending then return .alreadyPending txId
  else do
    let ledger ← mapErr NodeError.pendingInvalid
      (runtime.chain.ledger.applyAll runtime.pendingTransactions
        runtime.engine runtime.nextHeight runtime.chain.chainId)
    let _ ← mapErr NodeError.admission
      (ledger.applied tx runtime.engine runtime.nextHeight
        runtime.chain.chainId)
    return .acceptedNew txId

def acceptTransaction (runtime : NodeRuntime) (tx : Transaction) :
    Result NodeError TransactionAcceptStatus × NodeRuntime :=
  match runtime.checkAdmission tx with
  | .ok (.acceptedNew txId) =>
      (.ok (.acceptedNew txId), { runtime with
        pendingTransactions := runtime.pendingTransactions ++ [tx] })
  | outcome => (outcome, runtime)

/-! ## Producing a block -/

def produceOneBlock (runtime : NodeRuntime) (clock : Except String UInt64)
    (entropy : ℕ) (saves : SaveOutcomes) :
    Result NodeError (Option (UInt64 × Block)) × NodeRuntime :=
  match mapErr NodeError.proposerSchedule
      (runtime.consensus.canProposeNextBlock runtime.chain) with
  | .error abort => (.error abort, runtime)
  | .ok false => (.ok none, runtime)
  | .ok true =>
      if runtime.pendingTransactions = [] ∧ ¬runtime.produceEmptyBlocks then
        (.ok none, runtime)
      else
        match mapErr NodeError.proposeBlock
            (runtime.consensus.proposeBlock runtime.chain
              runtime.pendingTransactions clock entropy) with
        | .error abort => (.error abort, runtime)
        | .ok block =>
            match runtime.applyBlock block saves with
            | (.ok height, runtime) => (.ok (some (height, block)), runtime)
            | (.error abort, runtime) => (.error abort, runtime)

/-! ## Runs -/

/-- The calls which change a runtime, with what they read from outside. -/
inductive Call where
  | acceptTransaction (tx : Transaction)
  | applyBlock (block : Block) (saves : SaveOutcomes)
  | produceOneBlock (clock : Except String UInt64) (entropy : ℕ)
      (saves : SaveOutcomes)

/-- The runtime after a call, whatever its result. -/
def perform (runtime : NodeRuntime) : Call → NodeRuntime
  | .acceptTransaction tx => (runtime.acceptTransaction tx).2
  | .applyBlock block saves => (runtime.applyBlock block saves).2
  | .produceOneBlock clock entropy saves =>
      (runtime.produceOneBlock clock entropy saves).2

def performAll (runtime : NodeRuntime) (calls : List Call) : NodeRuntime :=
  calls.foldl perform runtime

/-- Run rule: what every call preserves holds after any sequence of calls. -/
theorem performAll_invariant (Inv : NodeRuntime → Prop)
    (hstep : ∀ runtime call, Inv runtime → Inv (runtime.perform call))
    {runtime : NodeRuntime} (hinit : Inv runtime) (calls : List Call) :
    Inv (runtime.performAll calls) := by
  induction calls generalizing runtime with
  | nil => exact hinit
  | cons call calls ih => exact ih (hstep runtime call hinit)

/-! ## Starting a node -/

end NodeRuntime

/-- What `run_node` settles before it builds the runtime. -/
structure NodeConfig where
  statePath : FilePath
  blocksPath : FilePath
  chainId : UInt32
  publicKey : PublicKey
  privateKey : PrivateKey
  validators : List PublicKey
  produceEmptyBlocks : Bool

section Start

variable [Blake3] [Bincode] [PqCrypto]

/-- The runtime over a loaded chain. -/
def NodeConfig.runtime (config : NodeConfig) (chain : ChainState)
    (blocks : List Block) : Result String NodeRuntime := do
  let consensus ← mapErr (fun err =>
      "Failed to initialize consensus engine: " ++ ConsensusError.display err)
    (DummyConsensusEngine.fromKeys defaultRegistry config.publicKey
      config.privateKey config.validators)
  return {
    chain := chain
    blocks := blocks
    pendingTransactions := []
    consensus := consensus
    scriptEngine := VmConfig.default
    statePath := config.statePath
    blocksPath := config.blocksPath
    produceEmptyBlocks := config.produceEmptyBlocks }

/-- The start of `run_node` from the two files. -/
def NodeConfig.start [SerdeJson] (config : NodeConfig)
    (stateFile blocksFile : FileRead SerdeJson.Text)
    (save : Except String Unit) : Result String NodeRuntime := do
  let (chain, blocks) ← loadOrRepairStorage config.statePath
    config.blocksPath stateFile blocksFile save config.chainId
    config.validators
  config.runtime chain blocks

end Start

namespace NodeRuntime

variable [Blake3] [Bincode] [PqCrypto]

/-! ## What a call can do -/

theorem prepareBlock_eq_ok {runtime : NodeRuntime} {block : Block}
    {nextChain : ChainState} {nextBlocks : List Block} :
    runtime.prepareBlock block = .ok (nextChain, nextBlocks) ↔
      runtime.consensus.validateBlock runtime.chain block = .ok () ∧
      runtime.chain.applyBlock block runtime.engine = .ok nextChain ∧
      nextBlocks = runtime.blocks ++ [block] := by
  simp only [prepareBlock, bind_eq_ok, mapErr_eq_ok, pure_eq_ok,
    Prod.mk.injEq]
  constructor
  · rintro ⟨⟨⟩, hvalid, chain, happlied, rfl, rfl⟩
    exact ⟨hvalid, happlied, rfl⟩
  · rintro ⟨hvalid, happlied, rfl⟩
    exact ⟨(), hvalid, nextChain, happlied, rfl, rfl⟩

/-- Reconciling changes the pending transactions only. -/
theorem reconcilePendingTransactions_snd (runtime : NodeRuntime) :
    ∃ pending, runtime.reconcilePendingTransactions.2 =
      { runtime with pendingTransactions := pending } := by
  unfold reconcilePendingTransactions
  split
  · exact ⟨_, rfl⟩
  · split
    · exact ⟨_, rfl⟩
    · split
      · exact ⟨_, rfl⟩
      · exact ⟨_, rfl⟩

/-- The runtime of a saved block, before its pending transactions are
reconciled. -/
def advance (runtime : NodeRuntime) (nextChain : ChainState)
    (nextBlocks : List Block) : NodeRuntime :=
  { runtime with chain := nextChain, blocks := nextBlocks }

/-- A call to `apply_block` fails and changes nothing, or it moves to the
prepared chain and reconciles the pending transactions. -/
theorem applyBlock_cases (runtime : NodeRuntime) (block : Block)
    (saves : SaveOutcomes) :
    (∃ abort, runtime.applyBlock block saves = (.error abort, runtime)) ∨
    ∃ nextChain nextBlocks,
      runtime.prepareBlock block = .ok (nextChain, nextBlocks) ∧
      saves.blockHistory = .ok () ∧ saves.chainState = .ok () ∧
      runtime.applyBlock block saves =
        let reconciled :=
          (runtime.advance nextChain nextBlocks).reconcilePendingTransactions
        (reconciled.1.map fun _ => nextChain.height, reconciled.2) := by
  unfold applyBlock
  split
  · rename_i abort _
    exact Or.inl ⟨abort, rfl⟩
  · rename_i nextChain nextBlocks hprepared
    simp only [prepareAndSave, bind_eq_ok, saved_eq_ok,
      pure_eq_ok] at hprepared
    obtain ⟨next, hnext, -, hhistory, -, hstate, rfl⟩ := hprepared
    refine Or.inr ⟨nextChain, nextBlocks, hnext, hhistory, hstate, ?_⟩
    obtain ⟨pending, hpending⟩ := reconcilePendingTransactions_snd
      (runtime.advance nextChain nextBlocks)
    rw [advance] at hpending ⊢
    split
    · rename_i after hreconciled
      rw [hreconciled] at hpending ⊢
      dsimp only at hpending
      rw [hpending]
      rfl
    · rename_i hreconciled
      rw [hreconciled]
      rfl

/-- What a call does to the chain: nothing, or it moves to a prepared block. -/
def ChainStep (runtime after : NodeRuntime) : Prop :=
  (∃ pending, after = { runtime with pendingTransactions := pending }) ∨
  ∃ block nextChain nextBlocks pending,
    runtime.prepareBlock block = .ok (nextChain, nextBlocks) ∧
    after = { runtime.advance nextChain nextBlocks with
      pendingTransactions := pending }

theorem applyBlock_chainStep (runtime : NodeRuntime) (block : Block)
    (saves : SaveOutcomes) :
    runtime.ChainStep (runtime.applyBlock block saves).2 := by
  rcases runtime.applyBlock_cases block saves with ⟨abort, happly⟩ |
    ⟨nextChain, nextBlocks, hprepare, -, -, happly⟩
  · rw [happly]
    exact Or.inl ⟨_, rfl⟩
  · rw [happly]
    obtain ⟨pending, hpending⟩ := reconcilePendingTransactions_snd
      (runtime.advance nextChain nextBlocks)
    exact Or.inr ⟨block, nextChain, nextBlocks, pending, hprepare, hpending⟩

theorem acceptTransaction_cases (runtime : NodeRuntime) (tx : Transaction) :
    (runtime.acceptTransaction tx).2 = runtime ∨
    ∃ txId, runtime.checkAdmission tx = .ok (.acceptedNew txId) ∧
      runtime.acceptTransaction tx =
        (.ok (.acceptedNew txId), { runtime with
          pendingTransactions := runtime.pendingTransactions ++ [tx] }) := by
  unfold acceptTransaction
  split
  · rename_i txId hcheck
    exact Or.inr ⟨txId, hcheck, rfl⟩
  · exact Or.inl rfl

/-- A call to `produce_one_block` changes nothing, or it is the application of
a block proposed with the pending transactions. -/
theorem produceOneBlock_cases (runtime : NodeRuntime)
    (clock : Except String UInt64) (entropy : ℕ) (saves : SaveOutcomes) :
    ((∀ produced, (runtime.produceOneBlock clock entropy saves).1 ≠
        .ok (some produced)) ∧
      (runtime.produceOneBlock clock entropy saves).2 = runtime) ∨
    ∃ block,
      runtime.consensus.canProposeNextBlock runtime.chain = .ok true ∧
      runtime.consensus.proposeBlock runtime.chain
        runtime.pendingTransactions clock entropy = .ok block ∧
      runtime.produceOneBlock clock entropy saves =
        ((runtime.applyBlock block saves).1.map fun height =>
          some (height, block), (runtime.applyBlock block saves).2) := by
  unfold produceOneBlock
  split
  · exact Or.inl ⟨by simp, rfl⟩
  · exact Or.inl ⟨by simp, rfl⟩
  · rename_i hturn
    rw [mapErr_eq_ok] at hturn
    split
    · exact Or.inl ⟨by simp, rfl⟩
    · split
      · exact Or.inl ⟨by simp, rfl⟩
      · rename_i block hblock
        rw [mapErr_eq_ok] at hblock
        refine Or.inr ⟨block, hturn, hblock, ?_⟩
        split
        · rename_i happly
          rw [happly]
          rfl
        · rename_i happly
          rw [happly]
          rfl

/-- Every call takes a chain step. -/
theorem perform_chainStep (runtime : NodeRuntime) (call : Call) :
    runtime.ChainStep (runtime.perform call) := by
  cases call with
  | acceptTransaction tx =>
      rcases runtime.acceptTransaction_cases tx with hsame |
        ⟨txId, -, haccept⟩
      · exact Or.inl ⟨_, hsame⟩
      · exact Or.inl ⟨_, by rw [perform, haccept]⟩
  | applyBlock block saves => exact runtime.applyBlock_chainStep block saves
  | produceOneBlock clock entropy saves =>
      rcases runtime.produceOneBlock_cases clock entropy saves with
        ⟨-, hsame⟩ | ⟨block, -, -, hproduce⟩
      · exact Or.inl ⟨_, hsame⟩
      · rw [perform, hproduce]
        exact runtime.applyBlock_chainStep block saves

end NodeRuntime

end QCoin
