import QCoin.Ledger.HashLedger
import QCoin.Node.Storage
import QCoin.Node.StandIns

/-!
# Iteration orders do not matter

A chain state whose ledger is made of hash maps.  Two arrangements of one chain
state, each iterated in orders of its own, apply a block alike and give the
same snapshot.
-/

namespace QCoin

open Support
open Support.Result

/-- The orders of the passes which `apply_block` makes. -/
structure BlockOrder where
  /-- The passes over the totals of each transaction, by its number. -/
  totals : ℕ → TotalsOrder
  stateRoot : LedgerOrder

structure HashChain where
  ledger : HashLedger
  height : UInt64
  tipHash : Hash256
  stateRoot : Hash256
  lastTimestamp : UInt64
  chainId : UInt32

namespace HashChain

def view (chain : HashChain) : ChainState where
  ledger := chain.ledger.view
  height := chain.height
  tipHash := chain.tipHash
  stateRoot := chain.stateRoot
  lastTimestamp := chain.lastTimestamp
  chainId := chain.chainId

/-- The two chain states have the same maps and agree on everything else. -/
structure Same (chain chain' : HashChain) : Prop where
  ledger : chain.ledger.Same chain'.ledger
  height : chain.height = chain'.height
  tipHash : chain.tipHash = chain'.tipHash
  stateRoot : chain.stateRoot = chain'.stateRoot
  lastTimestamp : chain.lastTimestamp = chain'.lastTimestamp
  chainId : chain.chainId = chain'.chainId

theorem same_iff {chain chain' : HashChain} :
    chain.Same chain' ↔ chain.view = chain'.view := by
  rw [view, view, ChainState.mk.injEq, ← HashLedger.same_iff]
  constructor
  · intro h
    exact ⟨h.ledger, h.height, h.tipHash, h.stateRoot, h.lastTimestamp,
      h.chainId⟩
  · rintro ⟨hledger, hheight, htip, hroot, htimestamp, hid⟩
    exact ⟨hledger, hheight, htip, hroot, htimestamp, hid⟩

/-- Both calls succeed with the same chain state, or both fail with the same
error. -/
def SameOutcome :
    Result LedgerError HashChain → Result LedgerError HashChain → Prop
  | .ok next, .ok next' => next.Same next'
  | .error abort, .error abort' => abort = abort'
  | _, _ => False

theorem sameOutcome_of_map_view {result result' : Result LedgerError HashChain}
    (h : result.map view = result'.map view) : SameOutcome result result' := by
  match result, result' with
  | .ok next, .ok next' => exact same_iff.mpr (Except.ok.inj h)
  | .error abort, .error abort' => exact Except.error.inj h
  | .ok _, .error _ => cases h
  | .error _, .ok _ => cases h

end HashChain

/-! ## The calls -/

section Calls

variable [Blake3] [Bincode]

namespace HashLedger

/-- `apply_transaction` for callers which drop the ledger on failure. -/
def applied (ledger : HashLedger) (order : TotalsOrder) (tx : Transaction)
    (engine : ScriptEngine) (currentHeight : UInt64) (chainId : UInt32) :
    Result LedgerError HashLedger :=
  match ledger.applyTransaction order tx engine currentHeight chainId with
  | (.ok (), ledger') => .ok ledger'
  | (.error abort, _) => .error abort

def applyAll (ledger : HashLedger) (order : ℕ → TotalsOrder)
    (txs : List Transaction) (engine : ScriptEngine)
    (currentHeight : UInt64) (chainId : UInt32) :
    Result LedgerError HashLedger :=
  txs.zipIdx.foldlM (fun ledger entry =>
    ledger.applied (order entry.2) entry.1 engine currentHeight chainId) ledger

theorem map_applied (ledger : HashLedger) (order : TotalsOrder)
    (tx : Transaction) (engine : ScriptEngine) (currentHeight : UInt64)
    (chainId : UInt32) :
    (ledger.applied order tx engine currentHeight chainId).map view =
      ledger.view.applied tx engine currentHeight chainId := by
  rw [applied, LedgerState.applied,
    ← view_applyTransaction ledger order tx engine currentHeight chainId]
  obtain ⟨result, ledger'⟩ :=
    ledger.applyTransaction order tx engine currentHeight chainId
  cases result <;> rfl

theorem map_applyAll (ledger : HashLedger) (order : ℕ → TotalsOrder)
    (txs : List Transaction) (engine : ScriptEngine)
    (currentHeight : UInt64) (chainId : UInt32) :
    (ledger.applyAll order txs engine currentHeight chainId).map view =
      ledger.view.applyAll txs engine currentHeight chainId := by
  have hrun : (ledger.applyAll order txs engine currentHeight chainId).map
        view =
      txs.zipIdx.foldlM (fun state entry =>
        LedgerState.applied state entry.1 engine currentHeight chainId)
        ledger.view :=
    foldlM_map_of_step (fun ledger entry => ledger.map_applied
      (order entry.2) entry.1 engine currentHeight chainId) txs.zipIdx ledger
  rw [hrun, LedgerState.applyAll]
  conv_rhs => rw [← List.zipIdx_map_fst 0 txs, List.foldlM_map]

end HashLedger

/-- `ChainState::apply_block`. -/
def HashChain.applyBlock (chain : HashChain) (order : BlockOrder)
    (block : Block) (engine : ScriptEngine) :
    Result LedgerError HashChain := do
  let ledger ← chain.ledger.applyAll order.totals block.transactions engine
    block.header.height chain.chainId
  let stateRoot ← orPanic (ledger.stateRoot order.stateRoot)
  return {
    ledger := ledger
    height := block.header.height
    tipHash := block.header.hash
    stateRoot := stateRoot
    lastTimestamp := block.header.timestamp
    chainId := chain.chainId }

theorem HashChain.map_applyBlock (chain : HashChain) (order : BlockOrder)
    (block : Block) (engine : ScriptEngine) :
    (chain.applyBlock order block engine).map view =
      chain.view.applyBlock block engine := by
  have hledger := chain.ledger.map_applyAll order.totals block.transactions
    engine block.header.height chain.chainId
  rw [applyBlock, ChainState.applyBlock, map_bind_eq]
  change _ = chain.ledger.view.applyAll block.transactions engine
    block.header.height chain.chainId >>= _
  rw [← hledger, map_eq_bind]
  congr 1
  funext ledger
  rw [ledger.stateRoot_view order.stateRoot, map_bind_eq]
  rfl

end Calls

/-! ## The snapshot -/

namespace PersistedChainState

/-- `PersistedChainState::from`. -/
def fromHashChain (order : LedgerOrder) (chain : HashChain) :
    PersistedChainState where
  ledger := {
    utxos := sortBy (fun left right => left.key.cmp right.key)
      ((order.utxos.arrange chain.ledger.utxos).map fun entry =>
        ⟨entry.1, entry.2⟩)
    assets := sortBy (fun left right => left.assetId.cmp right.assetId)
      ((order.assets.arrange chain.ledger.assets).map fun entry =>
        ⟨entry.1, entry.2⟩) }
  height := chain.height
  tipHash := chain.tipHash
  stateRoot := chain.stateRoot
  lastTimestamp := chain.lastTimestamp
  chainId := chain.chainId

theorem fromHashChain_eq (order : LedgerOrder) (chain : HashChain) :
    fromHashChain order chain = fromChainState chain.view := by
  rw [fromHashChain, sortBy_map, sortBy_map,
    order.utxos.sortBy_arrange UtxoKey.isLE_cmp,
    order.assets.sortBy_arrange AssetId.isLE_cmp]
  rfl

end PersistedChainState

/-- Neither the arrangement of a map nor the order of a pass over it shows in
what a block does or in the snapshot. -/
theorem HashChain.orders_irrelevant [Blake3] [Bincode]
    {chain chain' : HashChain} (hsame : chain.Same chain')
    (order order' : BlockOrder) (passes passes' : LedgerOrder) (block : Block)
    (engine : ScriptEngine) :
    SameOutcome (chain.applyBlock order block engine)
        (chain'.applyBlock order' block engine) ∧
      PersistedChainState.fromHashChain passes chain =
        PersistedChainState.fromHashChain passes' chain' := by
  have hview := same_iff.mp hsame
  constructor
  · apply sameOutcome_of_map_view
    rw [map_applyBlock, map_applyBlock, hview]
  · rw [PersistedChainState.fromHashChain_eq,
      PersistedChainState.fromHashChain_eq, hview]

/-! ## Two arrangements of two outputs -/

section Example

open scoped StandIns

def listedOutput (index : UInt32) : Sigma fun _ : UtxoKey => TrackedOutput :=
  ⟨⟨Hash256.fill 1, index⟩, ⟨⟨StandIns.nopScriptHash, [], none⟩, 0⟩⟩

/-- A chain state with two outputs in its list. -/
def listedChain (first second : UInt32) (hne : first ≠ second) :
    HashChain where
  ledger := ⟨⟨[listedOutput first, listedOutput second], by
    simp [List.NodupKeys, List.keys, listedOutput, hne]⟩, ∅⟩
  height := 0
  tipHash := Hash256.fill 0
  stateRoot := Hash256.fill 0
  lastTimestamp := 0
  chainId := 0

theorem listedChain_same {first second : UInt32} (hne : first ≠ second) :
    (listedChain first second hne).Same
      (listedChain second first hne.symm) where
  ledger := {
    utxos := List.Perm.swap (listedOutput second) (listedOutput first) []
    assets := List.Perm.refl _ }
  height := rfl
  tipHash := rfl
  stateRoot := rfl
  lastTimestamp := rfl
  chainId := rfl

/-- The two lists, passed over forwards and backwards. -/
theorem listedChain_orders_irrelevant :
    HashChain.SameOutcome
        ((listedChain 0 1 (by decide)).applyBlock
          ⟨fun _ => ⟨.stored, .stored⟩, ⟨.stored, .stored⟩⟩
          (StandIns.emptyBlock 1) defaultScriptEngine)
        ((listedChain 1 0 (by decide)).applyBlock
          ⟨fun _ => ⟨.reversed, .stored⟩, ⟨.stored, .reversed⟩⟩
          (StandIns.emptyBlock 1) defaultScriptEngine) ∧
      PersistedChainState.fromHashChain ⟨.stored, .stored⟩
          (listedChain 0 1 (by decide)) =
        PersistedChainState.fromHashChain ⟨.stored, .stored⟩
          (listedChain 1 0 (by decide)) :=
  HashChain.orders_irrelevant (listedChain_same (by decide)) _ _ _ _ _ _

end Example

end QCoin
