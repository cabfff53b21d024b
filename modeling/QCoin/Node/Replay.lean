import QCoin.Node.StandIns

/-!
# Replay and live execution

Live validation uses the validators of the engine, which fall back to the
engine's own key, and replay uses the configured ones.  Whatever the first
accepts, the second accepts, so the chain of a node can be rebuilt from its
block history at any time.
-/

namespace QCoin

open Support
open Support.Result

section Rebuild

variable [Blake3] [Bincode] [PqCrypto] {chainId : UInt32}
  {validators : List PublicKey} {chain chain' : ChainState}

theorem replayEntry_eq_ok {entry : Block × ℕ} :
    replayEntry validators chain entry = .ok chain' ↔
      ReplayValid defaultRegistry chain entry.1 validators ∧
      chain.applyBlock entry.1 defaultScriptEngine = .ok chain' := by
  simp only [replayEntry, bind_eq_ok, mapErr_eq_ok,
    validateReplayedBlock_eq_ok]
  constructor
  · rintro ⟨-, hvalid, happlied⟩
    exact ⟨hvalid, happlied⟩
  · rintro ⟨hvalid, happlied⟩
    exact ⟨(), hvalid, happlied⟩

/-- Rebuilding a longer history continues from the shorter one. -/
theorem rebuild_append_eq_ok {blocks : List Block} {block : Block} :
    rebuildChainStateFromBlocks (blocks ++ [block]) chainId validators =
        .ok chain' ↔
      ∃ chain, rebuildChainStateFromBlocks blocks chainId validators =
          .ok chain ∧
        ReplayValid defaultRegistry chain block validators ∧
        chain.applyBlock block defaultScriptEngine = .ok chain' := by
  rw [rebuildChainStateFromBlocks, List.zipIdx_append, List.foldlM_append,
    bind_eq_ok]
  simp only [List.zipIdx_cons, List.zipIdx_nil, List.foldlM_cons,
    List.foldlM_nil, bind_eq_ok, pure_eq_ok, exists_eq_right,
    replayEntry_eq_ok]
  rfl

/-- A history which can be rebuilt is an accepted chain. -/
theorem AcceptedChain.of_rebuild {blocks : List Block}
    (h : rebuildChainStateFromBlocks blocks chainId validators = .ok chain) :
    ∃ steps, AcceptedChain chainId blocks.reverse steps chain := by
  induction blocks using List.reverseRecOn generalizing chain with
  | nil =>
      have hchain : defaultChainStateWithId chainId = chain :=
        Except.ok.inj h
      rw [← hchain]
      exact ⟨[], AcceptedChain.genesis⟩
  | append_singleton blocks block ih =>
      obtain ⟨before, hbefore, hvalid, happlied⟩ := rebuild_append_eq_ok.mp h
      obtain ⟨steps, hsteps⟩ := ih hbefore
      rw [List.reverse_append, List.reverse_singleton, List.singleton_append]
      exact ⟨_, hsteps.extend (validateReplayedBlock_eq_ok.mpr hvalid)
        happlied⟩

/-- The tip and the last timestamp after a history. -/
theorem tip_of_rebuild {blocks : List Block}
    (h : rebuildChainStateFromBlocks blocks chainId validators = .ok chain) :
    (blocks = [] ∧ chain = defaultChainStateWithId chainId) ∨
    ∃ block, blocks.getLast? = some block ∧
      chain.tipHash = block.header.hash ∧
      chain.lastTimestamp = block.header.timestamp := by
  induction blocks using List.reverseRecOn with
  | nil => exact Or.inl ⟨rfl, (Except.ok.inj h).symm⟩
  | append_singleton blocks block ih =>
      obtain ⟨before, -, -, happlied⟩ := rebuild_append_eq_ok.mp h
      obtain ⟨_, _, -, -, rfl⟩ := ChainState.applyBlock_eq_ok.mp happlied
      exact Or.inr ⟨block, List.getLast?_concat, rfl, rfl⟩

theorem rebuild_take {blocks : List Block} {i : ℕ} {block : Block}
    (h : rebuildChainStateFromBlocks blocks chainId validators = .ok chain)
    (hblock : blocks[i]? = some block) :
    ∃ before after,
      rebuildChainStateFromBlocks (blocks.take i) chainId validators =
        .ok before ∧
      ReplayValid defaultRegistry before block validators ∧
      before.applyBlock block defaultScriptEngine = .ok after ∧
      rebuildChainStateFromBlocks (blocks.take (i + 1)) chainId validators =
        .ok after := by
  have hprefix : ∃ after, rebuildChainStateFromBlocks (blocks.take (i + 1))
      chainId validators = .ok after := by
    rw [rebuildChainStateFromBlocks,
      ← List.take_append_drop (i + 1) blocks, List.zipIdx_append,
      List.foldlM_append, bind_eq_ok] at h
    obtain ⟨after, hafter, -⟩ := h
    exact ⟨after, hafter⟩
  obtain ⟨after, hafter⟩ := hprefix
  have htake : blocks.take (i + 1) = blocks.take i ++ [block] := by
    rw [List.take_add_one, hblock, Option.toList_some]
  rw [htake] at hafter ⊢
  obtain ⟨before, hbefore, hvalid, happlied⟩ :=
    rebuild_append_eq_ok.mp hafter
  exact ⟨before, after, hbefore, hvalid, happlied, hafter⟩

/-- Every block of a history which can be rebuilt is signed. -/
theorem signed_of_rebuild {blocks : List Block}
    (h : rebuildChainStateFromBlocks blocks chainId validators = .ok chain)
    {block : Block} (hblock : block ∈ blocks) :
    verifyHeader defaultRegistry block = .ok () := by
  obtain ⟨i, hi⟩ := List.mem_iff_getElem?.mp hblock
  obtain ⟨before, after, -, hvalid, -, -⟩ := rebuild_take h hi
  exact hvalid.signed

/-- What validation and application make of the block at position `i` of a
history. -/
structure LinkedBlock (chainId : UInt32) (validators : List PublicKey)
    (blocks : List Block) (i : ℕ) (block : Block) : Prop where
  height : block.header.height.toNat = i + 1
  first : i = 0 → block.header.parentHash = Hash256.fill 0 ∧
    0 < block.header.timestamp
  parent : ∀ j previous, i = j + 1 → blocks[j]? = some previous →
    block.header.parentHash = previous.header.hash ∧
      previous.header.timestamp < block.header.timestamp
  state : ∃ chain, rebuildChainStateFromBlocks (blocks.take (i + 1)) chainId
      validators = .ok chain ∧
    chain.stateRoot = block.header.stateRoot ∧
    chain.ledger.stateRoot = some block.header.stateRoot

theorem linkedBlock_of_rebuild {blocks : List Block} {i : ℕ} {block : Block}
    (h : rebuildChainStateFromBlocks blocks chainId validators = .ok chain)
    (hblock : blocks[i]? = some block) :
    LinkedBlock chainId validators blocks i block := by
  obtain ⟨before, after, hbefore, hvalid, happlied, hafter⟩ :=
    rebuild_take h hblock
  have hlength : i < blocks.length :=
    (List.getElem?_eq_some_iff.mp hblock).1
  have htip := tip_of_rebuild hbefore
  obtain ⟨ledger, stateRoot, hledger, hroot, rfl⟩ :=
    ChainState.applyBlock_eq_ok.mp happlied
  refine ⟨?_, ?_, ?_, _, hafter, ?_, ?_⟩
  · obtain ⟨steps, hsteps⟩ := AcceptedChain.of_rebuild hafter
    have hheight := hsteps.height_eq_length.1
    rw [List.length_reverse, List.length_take] at hheight
    change block.header.height.toNat = _ at hheight
    omega
  · rintro rfl
    rcases htip with ⟨-, rfl⟩ | ⟨previous, hlast, -⟩
    · exact ⟨hvalid.parent, hvalid.timestamp⟩
    · simp at hlast
  · rintro j previous rfl hprevious
    have hlast : (blocks.take (j + 1)).getLast? = some previous := by
      rw [List.getLast?_take, if_neg (Nat.succ_ne_zero j),
        Nat.add_sub_cancel, hprevious]
      rfl
    rcases htip with ⟨hnil, -⟩ | ⟨last, hlast', hhash, htimestamp⟩
    · rw [hnil] at hlast
      simp at hlast
    · rw [hlast, Option.some.injEq] at hlast'
      subst hlast'
      rw [← hhash, ← htimestamp]
      exact ⟨hvalid.parent, hvalid.timestamp⟩
  all_goals
    obtain ⟨ledger', hledger', hroot'⟩ :=
      computeStateRoot_eq_ok.mp hvalid.stateRoot
    rw [hledger, Except.ok.injEq] at hledger'
    subst hledger'
  · exact Option.some.inj (hroot.symm.trans hroot')
  · exact hroot'

end Rebuild

/-! ## Live validation -/

section Live

variable [Blake3] [Bincode] [PqCrypto] {config : NodeConfig}

/-- What is valid under the engine's validators is valid on replay. -/
theorem ReplayValid.configured {registry : PqSchemeRegistry}
    {chain : ChainState} {block : Block} {validators : List PublicKey}
    {publicKey : PublicKey}
    (h : ReplayValid registry chain block
      (if validators = [] then [publicKey] else validators)) :
    ReplayValid registry chain block validators := by
  by_cases hempty : validators = []
  · exact { h with proposer := fun hne => absurd hempty hne }
  · rwa [if_neg hempty] at h

/-- The chain of the runtime is the one its history rebuilds to. -/
structure Replayable (config : NodeConfig) (runtime : NodeRuntime) :
    Prop where
  engine : DummyConsensusEngine.fromKeys defaultRegistry config.publicKey
    config.privateKey config.validators = .ok runtime.consensus
  scriptEngine : runtime.scriptEngine = VmConfig.default
  rebuilt : rebuildChainStateFromBlocks runtime.blocks config.chainId
    config.validators = .ok runtime.chain

namespace Replayable

variable {runtime : NodeRuntime}

theorem engine_eq (h : Replayable config runtime) :
    runtime.engine = defaultScriptEngine := by
  rw [NodeRuntime.engine, h.scriptEngine, defaultScriptEngine]

theorem validateBlock_eq_ok (h : Replayable config runtime) {block : Block} :
    runtime.consensus.validateBlock runtime.chain block = .ok () ↔
      ReplayValid defaultRegistry runtime.chain block
        (if config.validators = [] then [config.publicKey]
          else config.validators) := by
  rw [DummyConsensusEngine.validateBlock, validateReplayedBlock_eq_ok,
    (fromKeys_eq_ok.mp h.engine).2]

/-- The ledger step succeeds on every valid block. -/
theorem applyBlock_of_valid (h : Replayable config runtime) {block : Block}
    (hvalid : runtime.consensus.validateBlock runtime.chain block = .ok ()) :
    ∃ next, runtime.chain.applyBlock block runtime.engine = .ok next := by
  obtain ⟨ledger, hledger, hroot⟩ := computeStateRoot_eq_ok.mp
    (h.validateBlock_eq_ok.mp hvalid).stateRoot
  rw [h.engine_eq]
  exact ⟨_, ChainState.applyBlock_eq_ok.mpr
    ⟨ledger, _, hledger, hroot, rfl⟩⟩

/-- A prepared block extends the history which can be rebuilt. -/
theorem rebuild_prepared (h : Replayable config runtime) {block : Block}
    {nextChain : ChainState} {nextBlocks : List Block}
    (hprepare : runtime.prepareBlock block = .ok (nextChain, nextBlocks)) :
    nextBlocks = runtime.blocks ++ [block] ∧
      rebuildChainStateFromBlocks nextBlocks config.chainId
        config.validators = .ok nextChain := by
  obtain ⟨hvalid, happlied, rfl⟩ :=
    NodeRuntime.prepareBlock_eq_ok.mp hprepare
  rw [h.engine_eq] at happlied
  have hreplay := (h.validateBlock_eq_ok.mp hvalid).configured
  exact ⟨rfl, rebuild_append_eq_ok.mpr
    ⟨runtime.chain, h.rebuilt, hreplay, happlied⟩⟩

theorem chainStep (h : Replayable config runtime) {after : NodeRuntime}
    (hstep : runtime.ChainStep after) : Replayable config after := by
  rcases hstep with ⟨pending, rfl⟩ |
    ⟨block, nextChain, nextBlocks, pending, hprepare, rfl⟩
  · exact ⟨h.engine, h.scriptEngine, h.rebuilt⟩
  · exact ⟨h.engine, h.scriptEngine, (h.rebuild_prepared hprepare).2⟩

theorem performAll (h : Replayable config runtime)
    (calls : List NodeRuntime.Call) :
    Replayable config (runtime.performAll calls) :=
  NodeRuntime.performAll_invariant (Replayable config)
    (fun runtime call h => h.chainStep (runtime.perform_chainStep call)) h
    calls

end Replayable

theorem NodeConfig.runtime_replayable {chain : ChainState}
    {blocks : List Block} {runtime : NodeRuntime}
    (hrebuild : rebuildChainStateFromBlocks blocks config.chainId
      config.validators = .ok chain)
    (h : config.runtime chain blocks = .ok runtime) :
    Replayable config runtime := by
  simp only [NodeConfig.runtime, bind_eq_ok, mapErr_eq_ok, pure_eq_ok] at h
  obtain ⟨consensus, hconsensus, rfl⟩ := h
  exact ⟨hconsensus, rfl, hrebuild⟩

variable [SerdeJson]

/-- Whatever the files hold, a loaded chain is the one its blocks rebuild
to. -/
theorem rebuilt_of_loadOrRepairStorage {statePath blocksPath : FilePath}
    {stateFile blocksFile : FileRead SerdeJson.Text}
    {save : Except String Unit} {chainId : UInt32}
    {validators : List PublicKey} {chain : ChainState} {blocks : List Block}
    (h : loadOrRepairStorage statePath blocksPath stateFile blocksFile save
      chainId validators = .ok (chain, blocks)) :
    rebuildChainStateFromBlocks blocks chainId validators = .ok chain := by
  rw [loadOrRepairStorage, bind_eq_ok] at h
  obtain ⟨⟨rebuilt, stored, differs⟩, hinspect, h⟩ := h
  have hloaded : (rebuilt, stored) = (chain, blocks) := by
    rcases differs with _ | _ <;> rcases save with err | u <;>
      simp_all
  simp only [inspectStorage, bind_eq_ok, pure_eq_ok, Prod.mk.injEq] at hinspect
  obtain ⟨storedChain, -, history, -, chain', hrebuild, -, -, rfl, rfl, rfl⟩ :=
    hinspect
  rw [Prod.mk.injEq] at hloaded
  rw [← hloaded.1, ← hloaded.2]
  exact hrebuild

theorem NodeConfig.start_replayable
    {stateFile blocksFile : FileRead SerdeJson.Text}
    {save : Except String Unit} {start : NodeRuntime}
    (h : config.start stateFile blocksFile save = .ok start) :
    Replayable config start := by
  rw [NodeConfig.start, bind_eq_ok] at h
  obtain ⟨⟨chain, blocks⟩, hload, hruntime⟩ := h
  exact NodeConfig.runtime_replayable (rebuilt_of_loadOrRepairStorage hload)
    hruntime

/-- Throughout every run of a node, its history is linked, rebuilds to its
chain, and the ledger step succeeds on every valid block. -/
theorem replay_agrees_with_live
    {stateFile blocksFile : FileRead SerdeJson.Text}
    {save : Except String Unit} {start : NodeRuntime}
    (hstart : config.start stateFile blocksFile save = .ok start)
    (calls : List NodeRuntime.Call) :
    let runtime := start.performAll calls
    runtime.blocks.length = runtime.chain.height.toNat ∧
      (∀ i block, runtime.blocks[i]? = some block →
        LinkedBlock config.chainId config.validators runtime.blocks i
          block) ∧
      rebuildChainStateFromBlocks runtime.blocks config.chainId
        config.validators = .ok runtime.chain ∧
      ∀ block,
        runtime.consensus.validateBlock runtime.chain block = .ok () →
        ∃ next, runtime.chain.applyBlock block runtime.engine = .ok next := by
  intro runtime
  have hreplayable : Replayable config runtime :=
    (NodeConfig.start_replayable hstart).performAll calls
  obtain ⟨steps, haccepted⟩ := AcceptedChain.of_rebuild hreplayable.rebuilt
  have hlength := haccepted.height_eq_length.1
  rw [List.length_reverse] at hlength
  exact ⟨hlength.symm,
    fun i block hblock => linkedBlock_of_rebuild hreplayable.rebuilt hblock,
    hreplayable.rebuilt, fun block hvalid => hreplayable.applyBlock_of_valid
      hvalid⟩

end Live

section FirstBlock

open scoped StandIns

/-- A node without configured validators starts on an empty disk and accepts
its first block. -/
theorem firstBlock_replay_agrees_with_live :
    ∃ start, (StandIns.nodeConfig 1 []).start .notFound .notFound
        (.ok ()) = .ok start ∧
      (start.performAll [StandIns.firstCall 1]).blocks =
        [StandIns.emptyBlock 1] ∧
      rebuildChainStateFromBlocks [StandIns.emptyBlock 1] 0 [] =
        .ok (start.performAll [StandIns.firstCall 1]).chain := by
  have hblocks : ((StandIns.freshRuntime 1 []).performAll
      [StandIns.firstCall 1]).blocks = [StandIns.emptyBlock 1] :=
    congrArg NodeRuntime.blocks (StandIns.performAll_firstCall 1 1 [] rfl)
  refine ⟨_, StandIns.start_fresh 1 [], hblocks, ?_⟩
  rw [← hblocks]
  exact (replay_agrees_with_live (StandIns.start_fresh 1 [])
    [StandIns.firstCall 1]).2.2.1

end FirstBlock

end QCoin
