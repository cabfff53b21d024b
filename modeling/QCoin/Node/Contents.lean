import QCoin.Node.Mempool

/-!
# What calls do to blocks and pending transactions

A call adds at most the block or the transaction it is about, and a block which
a node makes itself holds its pending transactions.
-/

namespace QCoin

open Support
open Support.Result

namespace NodeRuntime

variable [Blake3] [Bincode] [PqCrypto]

/-! ## Blocks -/

theorem mem_blocks_applyBlock {runtime : NodeRuntime}
    {block other : Block} {saves : SaveOutcomes}
    (h : other ∈ (runtime.applyBlock block saves).2.blocks) :
    other ∈ runtime.blocks ∨ other = block := by
  rcases runtime.applyBlock_cases block saves with ⟨abort, happly⟩ |
    ⟨nextChain, nextBlocks, hprepare, -, -, happly⟩
  · rw [happly] at h
    exact .inl h
  · obtain ⟨-, -, rfl⟩ := prepareBlock_eq_ok.mp hprepare
    obtain ⟨pending, hpending⟩ := reconcilePendingTransactions_snd
      (runtime.advance nextChain (runtime.blocks ++ [block]))
    rw [happly] at h
    dsimp only at h
    rw [hpending] at h
    simpa [NodeRuntime.advance] using h

theorem acceptTransaction_blocks (runtime : NodeRuntime)
    (tx : Transaction) :
    (runtime.acceptTransaction tx).2.blocks = runtime.blocks := by
  rcases runtime.acceptTransaction_cases tx with hsame | ⟨txId, -, haccept⟩
  · rw [hsame]
  · rw [haccept]

theorem mem_blocks_produceOneBlock {runtime : NodeRuntime}
    {clock : Except String UInt64} {entropy : ℕ} {saves : SaveOutcomes}
    {height : UInt64} {block other : Block}
    (hresult : (runtime.produceOneBlock clock entropy saves).1 =
      .ok (some (height, block)))
    (h : other ∈ (runtime.produceOneBlock clock entropy saves).2.blocks) :
    other ∈ runtime.blocks ∨ other = block := by
  rcases runtime.produceOneBlock_cases clock entropy saves with
    ⟨hnone, -⟩ | ⟨proposed, -, -, hproduce⟩
  · exact absurd hresult (hnone _)
  · rw [hproduce] at hresult h
    have hsame : proposed = block := by
      cases happly : (runtime.applyBlock proposed saves).1 with
      | error abort =>
          rw [happly] at hresult
          cases hresult
      | ok height' =>
          rw [happly] at hresult
          exact (Prod.mk.inj (Option.some.inj (Except.ok.inj hresult))).2
    exact hsame ▸ mem_blocks_applyBlock h

omit [PqCrypto] in
/-- Reconciling only fails by a panic. -/
theorem retain_error {engine : ScriptEngine} {height : UInt64}
    {chainId : UInt32} {committedTxIds : List Hash256} {ledger : LedgerState}
    {txs : List Transaction} {abort : Abort NodeError}
    (h : retain engine height chainId committedTxIds ledger txs =
      .error abort) : abort = .panic := by
  induction txs generalizing ledger with
  | nil => cases h
  | cons tx txs ih =>
      rw [retain, bind_eq_error] at h
      rcases h with hid | ⟨txId, -, h⟩
      · exact (orPanic_eq_error.mp hid).2
      · split at h
        · exact ih h
        · split at h
          · rw [bind_eq_error] at h
            rcases h with hrest | ⟨rest, -, hpure⟩
            · exact ih hrest
            · exact absurd hpure pure_ne_error
          · exact ih h
          · exact (Except.error.inj h).symm

theorem reconcilePendingTransactions_error
    {runtime : NodeRuntime} {abort : Abort NodeError}
    (h : runtime.reconcilePendingTransactions.1 = .error abort) :
    abort = .panic := by
  unfold reconcilePendingTransactions at h
  split at h
  · cases h
  · split at h
    · exact (Except.error.inj h).symm
    · split at h
      · cases h
      · rename_i hretain
        obtain rfl := Except.error.inj h
        exact retain_error hretain

/-- An attempt to produce which gives no block adds none, or it panics. -/
theorem produceOneBlock_blocks {runtime : NodeRuntime}
    {clock : Except String UInt64} {entropy : ℕ} {saves : SaveOutcomes}
    (hnone : ∀ produced, (runtime.produceOneBlock clock entropy saves).1 ≠
      .ok (some produced))
    (hpanic : (runtime.produceOneBlock clock entropy saves).1.isPanic =
      false) :
    (runtime.produceOneBlock clock entropy saves).2.blocks =
      runtime.blocks := by
  rcases runtime.produceOneBlock_cases clock entropy saves with
    ⟨-, hsame⟩ | ⟨block, -, -, hproduce⟩
  · rw [hsame]
  · rw [hproduce] at hnone hpanic ⊢
    rcases runtime.applyBlock_cases block saves with ⟨abort, happly⟩ |
      ⟨nextChain, nextBlocks, -, -, -, happly⟩
    · rw [happly]
    · rw [happly] at hnone hpanic
      dsimp only at hnone hpanic
      cases hreconciled : (runtime.advance nextChain
          nextBlocks).reconcilePendingTransactions.1 with
      | ok u =>
          rw [hreconciled] at hnone
          exact absurd rfl (hnone (nextChain.height, block))
      | error abort =>
          obtain rfl := reconcilePendingTransactions_error hreconciled
          rw [hreconciled] at hpanic
          cases hpanic

/-! ## Pending transactions -/

variable {runtime : NodeRuntime} {block other : Block} {tx : Transaction}
  {saves : SaveOutcomes}

theorem mem_pending_reconcile
    (h : tx ∈ runtime.reconcilePendingTransactions.2.pendingTransactions) :
    tx ∈ runtime.pendingTransactions := by
  unfold reconcilePendingTransactions at h
  split at h
  · exact h
  · split at h
    · exact h
    · split at h
      · rename_i hretain
        exact (retain_sublist hretain).mem h
      · exact absurd h List.not_mem_nil

theorem mem_pending_applyBlock
    (h : tx ∈ (runtime.applyBlock block saves).2.pendingTransactions) :
    tx ∈ runtime.pendingTransactions := by
  rcases runtime.applyBlock_cases block saves with ⟨abort, happly⟩ |
    ⟨nextChain, nextBlocks, -, -, -, happly⟩
  · rwa [happly] at h
  · rw [happly] at h
    dsimp only at h
    have hkept := mem_pending_reconcile h
    exact hkept

/-- A block is added if it is prepared. -/
theorem mem_blocks_applyBlock_iff
    (h : other ∈ (runtime.applyBlock block saves).2.blocks) :
    other ∈ runtime.blocks ∨
      (other = block ∧ ∃ next, runtime.prepareBlock block = .ok next) := by
  rcases runtime.applyBlock_cases block saves with ⟨abort, happly⟩ |
    ⟨nextChain, nextBlocks, hprepare, -, -, -⟩
  · rw [happly] at h
    exact .inl h
  · exact (mem_blocks_applyBlock h).imp_right fun hsame =>
      ⟨hsame, _, hprepare⟩

theorem mem_pending_acceptTransaction {received : Transaction}
    (h : tx ∈ (runtime.acceptTransaction received).2.pendingTransactions) :
    tx ∈ runtime.pendingTransactions ∨ tx = received := by
  rcases runtime.acceptTransaction_cases received with hsame |
    ⟨txId, -, haccept⟩
  · rw [hsame] at h
    exact .inl h
  · rw [haccept] at h
    simpa using h

theorem mem_pending_produceOneBlock {clock : Except String UInt64}
    {entropy : ℕ}
    (h : tx ∈ (runtime.produceOneBlock clock entropy
      saves).2.pendingTransactions) :
    tx ∈ runtime.pendingTransactions := by
  rcases runtime.produceOneBlock_cases clock entropy saves with
    ⟨-, hsame⟩ | ⟨block, -, -, hproduce⟩
  · rwa [hsame] at h
  · rw [hproduce] at h
    exact mem_pending_applyBlock h

/-- A new block of the node itself holds its pending transactions. -/
theorem transactions_of_produceOneBlock {clock : Except String UInt64}
    {entropy : ℕ}
    (h : other ∈ (runtime.produceOneBlock clock entropy saves).2.blocks) :
    other ∈ runtime.blocks ∨
      other.transactions = runtime.pendingTransactions := by
  rcases runtime.produceOneBlock_cases clock entropy saves with
    ⟨-, hsame⟩ | ⟨block, -, hpropose, hproduce⟩
  · rw [hsame] at h
    exact .inl h
  · rw [hproduce] at h
    obtain ⟨-, htransactions, -, -⟩ := proposeBlock_spec hpropose
    refine (mem_blocks_applyBlock h).imp_right fun hsame => ?_
    rw [hsame, htransactions]

end NodeRuntime

theorem NodeConfig.start_pendingTransactions [Blake3] [Bincode] [PqCrypto]
    [SerdeJson] {config : NodeConfig}
    {stateFile blocksFile : FileRead SerdeJson.Text}
    {save : Except String Unit} {start : NodeRuntime}
    (h : config.start stateFile blocksFile save = .ok start) :
    start.pendingTransactions = [] := by
  simp only [NodeConfig.start, NodeConfig.runtime, bind_eq_ok,
    pure_eq_ok] at h
  obtain ⟨-, -, consensus, -, rfl⟩ := h
  rfl

end QCoin
