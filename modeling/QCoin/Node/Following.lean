import QCoin.Consensus.TipCommitment
import QCoin.Node.Http
import QCoin.Node.PanicFree

/-!
# Nodes which follow a history

A node shares a history when what it holds commits to the same as the first
blocks of the history, and follows it when it holds these blocks.  It then
accepts the next block of the history, whatever node made it.
-/

namespace QCoin

open Support
open Support.Result

section Following

variable [Blake3] [Bincode] [PqCrypto]

theorem Replayable.chainId_eq {config : NodeConfig}
    {runtime : NodeRuntime}
    (h : Replayable config runtime) :
    runtime.chain.chainId = config.chainId := by
  obtain ⟨steps, haccepted⟩ := AcceptedChain.of_rebuild h.rebuilt
  exact haccepted.chainId_eq

/-- The height after the last one of a node. -/
theorem Replayable.succ_height {config : NodeConfig}
    {runtime : NodeRuntime}
    (h : Replayable config runtime) :
    runtime.chain.height + 1 = UInt64.ofNat (runtime.blocks.length + 1) := by
  rw [h.length_blocks, UInt64.ofNat_add, UInt64.ofNat_toNat]
  rfl

/-- A history which the node could replay. -/
def NodeConfig.Rebuilds (config : NodeConfig) (history : List Block) : Prop :=
  ∃ chain, rebuildChainStateFromBlocks history config.chainId
    config.validators = .ok chain

/-! ## Nodes on a shared history -/

/-- Histories which commit to the same lead to one chain. -/
theorem rebuild_eq_of_commitments_eq {chainId : UInt32}
    {validators : List PublicKey} {blocks₁ blocks₂ : List Block}
    {chain₁ chain₂ : ChainState}
    (h₁ : rebuildChainStateFromBlocks blocks₁ chainId validators =
      .ok chain₁)
    (h₂ : rebuildChainStateFromBlocks blocks₂ chainId validators =
      .ok chain₂)
    (hcommitments : commitments blocks₁ = commitments blocks₂) :
    chain₁ = chain₂ := by
  obtain ⟨steps₁, haccepted₁⟩ := AcceptedChain.of_rebuild h₁
  obtain ⟨steps₂, haccepted₂⟩ := AcceptedChain.of_rebuild h₂
  apply haccepted₁.eq_of_commitments_eq haccepted₂
  rw [commitments, commitments, List.map_reverse, List.map_reverse]
  exact congrArg List.reverse hcommitments

/-- What the node holds commits to the same as the first blocks of a
history. -/
structure Shares (config : NodeConfig) (history : List Block)
    (runtime : NodeRuntime) : Prop where
  replayable : Replayable config runtime
  shared : commitments runtime.blocks <+: commitments history

namespace Shares

variable {config : NodeConfig} {history : List Block} {runtime : NodeRuntime}

theorem commitments_eq (h : Shares config history runtime) :
    commitments runtime.blocks =
      commitments (history.take runtime.blocks.length) := by
  have htake := List.prefix_iff_eq_take.mp h.shared
  rwa [commitments, List.length_map, commitments, ← List.map_take] at htake

theorem length_le (h : Shares config history runtime) :
    runtime.blocks.length ≤ history.length := by
  have hlength := h.shared.length_le
  rwa [commitments, commitments, List.length_map, List.length_map]
    at hlength

/-- A node as long as the history has its chain. -/
theorem chain_eq (h : Shares config history runtime)
    (hlength : runtime.blocks.length = history.length) {chain : ChainState}
    (hchain : rebuildChainStateFromBlocks history config.chainId
      config.validators = .ok chain) :
    commitments runtime.blocks = commitments history ∧
      runtime.chain = chain := by
  have hcommitments := h.commitments_eq
  rw [hlength, List.take_length] at hcommitments
  exact ⟨hcommitments, rebuild_eq_of_commitments_eq h.replayable.rebuilt hchain
    hcommitments⟩

/-- The next block of the history is valid and prepared, whatever the node
holds in place of the blocks before. -/
theorem prepareBlock_next (h : Shares config history runtime)
    (hrebuilds : config.Rebuilds history) (hvalidators : config.validators ≠ [])
    {block : Block} (hnext : history[runtime.blocks.length]? = some block) :
    ∃ nextChain, runtime.prepareBlock block =
      .ok (nextChain, runtime.blocks ++ [block]) := by
  obtain ⟨chain, hchain⟩ := hrebuilds
  obtain ⟨before, after, hbefore, hvalid, happlied, -⟩ :=
    rebuild_take hchain hnext
  have hsame : runtime.chain = before := rebuild_eq_of_commitments_eq
    h.replayable.rebuilt hbefore h.commitments_eq
  rw [← hsame] at hvalid happlied
  refine ⟨after, NodeRuntime.prepareBlock_eq_ok.mpr ⟨?_, ?_, rfl⟩⟩
  · rw [h.replayable.validateBlock_eq_ok, if_neg hvalidators]
    exact hvalid
  · rw [h.replayable.engine_eq]
    exact happlied

theorem shared_next (h : Shares config history runtime) {block : Block}
    (hnext : history[runtime.blocks.length]? = some block) :
    commitments (runtime.blocks ++ [block]) <+: commitments history := by
  have htake : commitments (runtime.blocks ++ [block]) =
      commitments (history.take (runtime.blocks.length + 1)) := by
    rw [List.take_add_one, hnext, Option.toList_some, commitments,
      List.map_append, ← commitments, h.commitments_eq, commitments,
      commitments, List.map_append]
  rw [htake, commitments, commitments, List.map_take]
  exact List.take_prefix _ _

/-- The node accepts the next block of the history. -/
theorem applyBlock_next (h : Shares config history runtime)
    (hfits : runtime.Fits) (hrebuilds : config.Rebuilds history)
    (hvalidators : config.validators ≠ []) {block : Block}
    (hnext : history[runtime.blocks.length]? = some block)
    {saves : SaveOutcomes} (hblockHistory : saves.blockHistory = .ok ())
    (hchainState : saves.chainState = .ok ()) :
    ∃ height next, runtime.applyBlock block saves = (.ok height, next) ∧
      Shares config history next ∧
      next.blocks.length = runtime.blocks.length + 1 ∧ next.Fits := by
  obtain ⟨nextChain, hprepare⟩ :=
    h.prepareBlock_next hrebuilds hvalidators hnext
  obtain ⟨pending, happly⟩ :=
    hfits.applyBlock_of_prepared hprepare hblockHistory hchainState
  refine ⟨_, _, happly, ⟨?_, h.shared_next hnext⟩, ?_, ?_⟩
  · exact h.replayable.chainStep (.inr
      ⟨block, nextChain, _, pending, hprepare, rfl⟩)
  · exact List.length_append
  · have hafter := hfits.applyBlock block saves
    rwa [happly] at hafter

end Shares

/-! ## Nodes which hold the blocks of a history -/

/-- The node holds the first blocks of a history. -/
structure Follows (config : NodeConfig) (history : List Block)
    (runtime : NodeRuntime) : Prop where
  replayable : Replayable config runtime
  held : runtime.blocks <+: history

namespace Follows

variable {config : NodeConfig} {history : List Block} {runtime : NodeRuntime}

theorem blocks_eq (h : Follows config history runtime) :
    runtime.blocks = history.take runtime.blocks.length :=
  List.prefix_iff_eq_take.mp h.held

theorem shares (h : Follows config history runtime) :
    Shares config history runtime :=
  ⟨h.replayable, h.held.map _⟩

theorem held_next (h : Follows config history runtime) {block : Block}
    (hnext : history[runtime.blocks.length]? = some block) :
    runtime.blocks ++ [block] <+: history := by
  have htake : history.take (runtime.blocks.length + 1) =
      runtime.blocks ++ [block] := by
    rw [List.take_add_one, hnext, Option.toList_some, ← h.blocks_eq]
  rw [← htake]
  exact List.take_prefix _ _

/-- A node without pending transactions accepts the next block. -/
theorem applyBlock_next (h : Follows config history runtime)
    (hpending : runtime.pendingTransactions = [])
    (hrebuilds : config.Rebuilds history) (hvalidators : config.validators ≠ [])
    {block : Block} (hnext : history[runtime.blocks.length]? = some block)
    {saves : SaveOutcomes} (hblockHistory : saves.blockHistory = .ok ())
    (hchainState : saves.chainState = .ok ()) :
    ∃ nextChain, runtime.applyBlock block saves =
        (.ok nextChain.height,
          runtime.advance nextChain (runtime.blocks ++ [block])) ∧
      Follows config history
        (runtime.advance nextChain (runtime.blocks ++ [block])) := by
  obtain ⟨nextChain, hprepare⟩ :=
    h.shares.prepareBlock_next hrebuilds hvalidators hnext
  have hreconciled : (runtime.advance nextChain
      (runtime.blocks ++ [block])).reconcilePendingTransactions =
        (.ok (), runtime.advance nextChain (runtime.blocks ++ [block])) :=
    if_pos hpending
  refine ⟨nextChain, ?_, ?_, h.held_next hnext⟩
  · have hprepared : runtime.prepareAndSave block saves =
        .ok (nextChain, runtime.blocks ++ [block]) := by
      rw [NodeRuntime.prepareAndSave, hprepare, hblockHistory, hchainState]
      rfl
    rw [NodeRuntime.advance] at hreconciled
    simp only [NodeRuntime.applyBlock, hprepared, hreconciled]
    rfl
  · exact h.replayable.chainStep (Or.inr
      ⟨block, nextChain, _, runtime.pendingTransactions, hprepare, rfl⟩)

/-- Nodes which follow one history have the same chain at the same height. -/
theorem chain_eq {config' : NodeConfig} {other : NodeRuntime}
    (h : Follows config history runtime) (h' : Follows config' history other)
    (hchainId : config.chainId = config'.chainId)
    (hvalidators : config.validators = config'.validators)
    (hlength : runtime.blocks.length = other.blocks.length) :
    runtime.blocks = other.blocks ∧ runtime.chain = other.chain := by
  have hblocks : runtime.blocks = other.blocks := by
    rw [h.blocks_eq, h'.blocks_eq, hlength]
  have hrebuilt := h'.replayable.rebuilt
  rw [← hblocks, ← hchainId, ← hvalidators, h.replayable.rebuilt] at hrebuilt
  exact ⟨hblocks, Except.ok.inj hrebuilt⟩

end Follows

end Following

end QCoin
