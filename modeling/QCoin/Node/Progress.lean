import Mathlib.Data.Fintype.Lattice
import QCoin.Consensus.Proposal
import QCoin.Node.CatchUp
import QCoin.Node.Network
import QCoin.Support.Progress

/-!
# Progress of a network

A network never gets stuck: whatever has happened to its services, as long as
none of them has panicked, the node whose turn it is can catch up with the
highest one and produce a block which all the others accept.
-/

namespace QCoin

open Relation
open Support
open Support.Result

section Sharing

variable [Blake3] [Bincode] [PqCrypto]

/-! ## The node whose turn it is -/

/-- The node has a pair of keys which signs any header. -/
def NodeConfig.Signs (config : NodeConfig) : Prop :=
  ∃ scheme, defaultRegistry config.publicKey.scheme = some scheme ∧
    scheme.MatchingPair config.publicKey config.privateKey ∧
    ∀ header, ∃ entropy signature,
      scheme.sign entropy config.privateKey (encodeBlockHeader header) =
        .ok signature

/-- A node whose turn it is proposes a valid block. -/
theorem Replayable.exists_proposal {config : NodeConfig}
    {runtime : NodeRuntime} (h : Replayable config runtime)
    (hmempool : runtime.MempoolValid) (hfits : runtime.Fits)
    (hvalidators : config.validators ≠ [])
    (hturn : expectedProposerForValidators config.validators
      (runtime.chain.height + 1) = .ok config.publicKey)
    (hsigns : config.Signs) {now : UInt64}
    (hlater : runtime.chain.lastTimestamp < now)
    (hroom : runtime.chain.height.toNat + 1 < 2 ^ 64) :
    ∃ entropy block, runtime.consensus.proposeBlock runtime.chain
        runtime.pendingTransactions (.ok now) entropy = .ok block ∧
      runtime.consensus.validateBlock runtime.chain block = .ok () := by
  obtain ⟨scheme, hscheme, hpair, hsign⟩ := hsigns
  obtain ⟨ledger, hledger⟩ := hmempool.replays
  rw [h.engine_eq, NodeRuntime.nextHeight,
    NodeRuntime.saturatingSucc_of_lt hroom] at hledger
  obtain ⟨stateRoot, hroot⟩ :=
    (hfits.ledger.applyAll hledger).1.exists_stateRoot
  have hstateRoot : computeStateRoot runtime.chain
      runtime.pendingTransactions (runtime.chain.height + 1) =
        .ok stateRoot := computeStateRoot_eq_ok.mpr ⟨ledger, hledger, hroot⟩
  obtain ⟨txRoot, htxRoot⟩ := Option.isSome_iff_exists.mp
    (computeTxRoot_isSome fun tx htx => (hfits.pending tx htx).core)
  obtain ⟨header, hheader⟩ : ∃ header : BlockHeader, header = {
    parentHash := runtime.chain.tipHash
    stateRoot := stateRoot
    txRoot := txRoot
    height := runtime.chain.height + 1
    timestamp := now } := ⟨_, rfl⟩
  obtain ⟨entropy, signature, hsignature⟩ := hsign header
  obtain ⟨-, hconsensus⟩ := fromKeys_eq_ok.mp h.engine
  refine ⟨entropy, ⟨header, runtime.pendingTransactions, config.publicKey,
    signature⟩, ?_, ?_⟩
  · simp only [DummyConsensusEngine.proposeBlock, bind_eq_ok, require_eq_ok,
      not_not, orPanic_eq_ok, pure_eq_ok]
    subst hheader
    refine ⟨config.publicKey, ?_, (), ?_, stateRoot, hstateRoot, txRoot,
      htxRoot, now, rfl, signature, ?_, ?_⟩
    · rw [hconsensus, DummyConsensusEngine.expectedProposer,
        if_neg hvalidators]
      exact hturn
    · rw [hconsensus]
    · rw [hconsensus]
      simp only [DummyConsensusEngine.signHeader, hscheme, bind_eq_ok,
        orPanic_eq_ok, Option.some.injEq, exists_eq_left', hsignature]
      rfl
    · rw [hconsensus]
  · rw [h.validateBlock_eq_ok, if_neg hvalidators]
    subst hheader
    exact {
      height := rfl
      parent := rfl
      timestamp := hlater
      proposer := fun _ => hturn
      txRoot := htxRoot
      stateRoot := hstateRoot
      signed := verifyHeader_of_verify
        PqSchemeRegistry.inMemory_defaultRegistry hscheme
        (hpair _ _ _ hsignature) }

/-- It produces a block of what is pending. -/
theorem Replayable.exists_produced {config : NodeConfig}
    {runtime : NodeRuntime} (h : Replayable config runtime)
    (hmempool : runtime.MempoolValid) (hfits : runtime.Fits)
    (hvalidators : config.validators ≠ [])
    (hturn : expectedProposerForValidators config.validators
      (runtime.chain.height + 1) = .ok config.publicKey)
    (hsigns : config.Signs) (hproduces : runtime.pendingTransactions = [] →
      runtime.produceEmptyBlocks = true)
    {now : UInt64} (hlater : runtime.chain.lastTimestamp < now)
    (hroom : runtime.chain.height.toNat + 1 < 2 ^ 64)
    {saves : SaveOutcomes} (hblockHistory : saves.blockHistory = .ok ())
    (hchainState : saves.chainState = .ok ()) :
    ∃ entropy height block next,
      runtime.produceOneBlock (.ok now) entropy saves =
        (.ok (some (height, block)), next) ∧
      Replayable config next ∧ next.blocks = runtime.blocks ++ [block] ∧
      block.transactions = runtime.pendingTransactions ∧ next.Fits := by
  obtain ⟨entropy, block, hproposed, hvalid⟩ := h.exists_proposal hmempool
    hfits hvalidators hturn hsigns hlater hroom
  have hcan : runtime.consensus.canProposeNextBlock runtime.chain =
      .ok true := by
    rw [DummyConsensusEngine.canProposeNextBlock,
      (proposeBlock_spec hproposed).1]
    exact congrArg Except.ok (beq_self_eq_true _)
  obtain ⟨nextChain, happlied⟩ := h.applyBlock_of_valid hvalid
  have hprepare : runtime.prepareBlock block =
      .ok (nextChain, runtime.blocks ++ [block]) :=
    NodeRuntime.prepareBlock_eq_ok.mpr ⟨hvalid, happlied, rfl⟩
  obtain ⟨pending, happly⟩ :=
    hfits.applyBlock_of_prepared hprepare hblockHistory hchainState
  refine ⟨entropy, nextChain.height, block,
    { runtime.advance nextChain (runtime.blocks ++ [block]) with
      pendingTransactions := pending }, ?_, ?_, rfl,
    (proposeBlock_spec hproposed).2.1, ?_⟩
  · rw [NodeRuntime.produceOneBlock, hcan, hproposed]
    simp only [mapErr, happly]
    rw [if_neg fun hnothing => hnothing.2 (hproduces hnothing.1)]
  · exact h.chainStep (.inr ⟨block, nextChain, _, pending, hprepare, rfl⟩)
  · have hafter := hfits.applyBlock block saves
    rwa [happly] at hafter

end Sharing

/-! ## What every node keeps -/

section Members

variable [Blake3] [Bincode] [PqCrypto]

/-- A node with a valid mempool which still has its configuration. -/
structure Member (config : NodeConfig) (runtime : NodeRuntime) : Prop where
  replayable : Replayable config runtime
  mempool : runtime.MempoolValid
  produceEmptyBlocks : runtime.produceEmptyBlocks = config.produceEmptyBlocks

theorem NodeRuntime.ChainStep.produceEmptyBlocks
    {runtime after : NodeRuntime} (h : runtime.ChainStep after) :
    after.produceEmptyBlocks = runtime.produceEmptyBlocks := by
  rcases h with ⟨pending, rfl⟩ | ⟨block, chain, blocks, pending, -, rfl⟩
  · rfl
  · rfl

theorem Member.perform {config : NodeConfig} {runtime : NodeRuntime}
    (h : Member config runtime) (call : NodeRuntime.Call) :
    Member config (runtime.perform call) where
  replayable := h.replayable.chainStep (runtime.perform_chainStep call)
  mempool := h.mempool.perform call
  produceEmptyBlocks :=
    (runtime.perform_chainStep call).produceEmptyBlocks.trans
      h.produceEmptyBlocks

theorem Member.fresh {config : NodeConfig} {runtime : NodeRuntime}
    (h : config.runtime (defaultChainStateWithId config.chainId) [] =
      .ok runtime) : Member config runtime := by
  have hreplayable := NodeConfig.runtime_replayable rfl h
  simp only [NodeConfig.runtime, bind_eq_ok, pure_eq_ok] at h
  obtain ⟨consensus, -, rfl⟩ := h
  exact ⟨hreplayable, NodeRuntime.mempoolValid_of_nil rfl, rfl⟩

variable {ι : Type} [DecidableEq ι]

/-- Run rule: what a new node has and every call keeps holds of every node. -/
theorem ClusterConfig.Reachable.nodes_invariant {config : ClusterConfig ι}
    (Inv : ι → NodeRuntime → Prop)
    (hfresh : ∀ i runtime, (config.members i).runtime
      (defaultChainStateWithId config.chainId) [] = .ok runtime →
        Inv i runtime)
    (hstep : ∀ i runtime call, Inv i runtime → Inv i (runtime.perform call))
    {cluster : Cluster ι} (h : config.Reachable cluster) (i : ι) :
    Inv i (cluster.nodes i) := by
  induction h generalizing i with
  | start fresh => exact hfresh i _ (fresh i)
  | @step cluster after past event ih =>
      have hset : ∀ (j : ι) (call : NodeRuntime.Call),
          Inv i ((cluster.setNode j
            ((cluster.nodes j).perform call)).nodes i) := by
        intro j call
        by_cases hij : i = j
        · subst hij
          rw [Cluster.setNode_nodes_self]
          exact hstep i _ call (ih i)
        · rw [Cluster.setNode_nodes_of_ne _ hij]
          exact ih i
      cases event with
      | acceptTransaction j tx => exact hset j (.acceptTransaction tx)
      | @produce j clock entropy saves height block after produced =>
          have hcall := hset j (.produceOneBlock clock entropy saves)
          rwa [NodeRuntime.perform, produced] at hcall
      | @attempt j clock entropy saves after result attempted nothing =>
          have hcall := hset j (.produceOneBlock clock entropy saves)
          rwa [NodeRuntime.perform, attempted] at hcall
      | deliver j saves sent => exact hset j (.applyBlock _ saves)
      | lose block => exact ih i
      | inject genuine => exact ih i

end Members

/-! ## Blocks over HTTP -/

section Submission

variable [BlockCodec]

/-- A request which submits an encoded block. -/
def blockSubmission (payload : BlockCodec.Payload) : HttpRequest where
  method := .post
  url := "/blocks"
  body := .ok payload

theorem blockSubmission_path (payload : BlockCodec.Payload) :
    (blockSubmission payload).path = "/blocks".toList := by
  dsimp only [HttpRequest.path, blockSubmission]
  decide

theorem blockSubmission_submitted {payload : BlockCodec.Payload} {block : Block}
    (hread : BlockCodec.deserialize payload = .ok block) :
    (blockSubmission payload).submitted = some block := by
  dsimp only [HttpRequest.submitted, blockSubmission]
  rw [hread]
  rfl

variable [Blake3] [Bincode] [PqCrypto]

theorem NodeService.handleRequest_blockSubmission {service : NodeService}
    (hunpoisoned : service.runtimePoisoned = false)
    {payload : BlockCodec.Payload} {block : Block}
    (hread : BlockCodec.deserialize payload = .ok block)
    {saves : SaveOutcomes} {height : UInt64} {next : NodeRuntime}
    (happly : service.runtime.applyBlock block saves = (.ok height, next))
    (info : NodeInfo) :
    (service.handleRequest info saves (blockSubmission payload)).2 =
      { service with runtime := next, runtimePoisoned := false } := by
  have hrouted : service.runtime.handleRequest info saves
      (blockSubmission payload) =
        (some ⟨200, .submitBlock ⟨true, height, "block accepted"⟩⟩, next) := by
    rw [NodeRuntime.handleRequest, blockSubmission_path, blockSubmission]
    exact NodeRuntime.postBlock_accepted hread happly
  rw [NodeService.handleRequest, hunpoisoned, if_neg Bool.false_ne_true,
    hrouted]
  rfl

end Submission

/-! ## Catching up -/

namespace Deployment

variable [Blake3] [Bincode] [PqCrypto] [WireCodec] [BlockCodec] {ι : Type}
  [DecidableEq ι] {config : Deployment ι} {network after : Network ι} {i j : ι}

theorem Reachable.run (h : config.Reachable network)
    (hrun : ReflTransGen config.Step network after) :
    config.Reachable after := by
  induction hrun with
  | refl => exact h
  | tail _ hstep ih => exact ih.step hstep

/-- A block which a working node holds can be passed on. -/
theorem Reachable.genuine_of_held (hcodec : WireCodec.RoundTrips)
    (h : config.Reachable network)
    (hunpoisoned : (network.services i).runtimePoisoned = false)
    {block : Block} (hheld : block ∈ (network.services i).runtime.blocks) :
    config.cluster.Genuine network.released block := by
  obtain ⟨cluster, hbacking⟩ := h.backing hcodec
  rw [← hbacking.released]
  exact hbacking.reachable.inv.genuine block
    (hbacking.held i hunpoisoned block hheld)

theorem Reachable.member (hcodec : WireCodec.RoundTrips)
    (h : config.Reachable network) (i : ι) :
    Member (config.cluster.members i) (network.services i).runtime := by
  obtain ⟨cluster, hbacking⟩ := h.backing hcodec
  rw [← hbacking.nodes i]
  refine hbacking.reachable.nodes_invariant
    (fun i => Member (config.cluster.members i)) (fun i runtime hfresh => ?_)
    (fun _ _ call hmember => hmember.perform call) i
  rw [← config.cluster.chainId_eq i] at hfresh
  exact Member.fresh hfresh

/-- Every node could replay the history of every other one. -/
theorem Reachable.rebuilt (hcodec : WireCodec.RoundTrips)
    (h : config.Reachable network) (i j : ι) :
    rebuildChainStateFromBlocks (network.services i).runtime.blocks
      (config.cluster.members j).chainId
      (config.cluster.members j).validators =
        .ok (network.services i).runtime.chain := by
  have hrebuilt := (h.member hcodec i).replayable.rebuilt
  rwa [config.cluster.chainId_eq, config.cluster.validators_eq,
    ← config.cluster.chainId_eq j, ← config.cluster.validators_eq j]
    at hrebuilt

/-- Service `j` works and is on the history of service `i`. -/
structure Trails (config : Deployment ι) (network : Network ι) (i j : ι) :
    Prop where
  healthy : (network.services j).Healthy
  shares : Shares (config.cluster.members j)
    (network.services i).runtime.blocks (network.services j).runtime

/-- A block of service `i` is submitted to service `j`. -/
theorem Trails.fetch (hcodec : WireCodec.RoundTrips)
    (hblocks : BlockCodec.Faithful) (h : config.Reachable network)
    (hsource : (network.services i).runtimePoisoned = false)
    (htrails : config.Trails network i j)
    (hmissing : (network.services j).runtime.blocks.length <
      (network.services i).runtime.blocks.length)
    {env : Environment} (henv : env.Reliable) (info : NodeInfo) :
    ∃ after, config.Step network after ∧
      (∀ k, k ≠ j → after.services k = network.services k) ∧
      config.Trails after i j ∧
      (after.services j).runtime.blocks.length =
        (network.services j).runtime.blocks.length + 1 := by
  have hnext := List.getElem?_eq_getElem hmissing
  have hvalidators : (config.cluster.members j).validators ≠ [] := by
    rw [config.cluster.validators_eq]
    exact config.cluster.nonempty
  obtain ⟨height, next, happly, hshares, hlength, hfits⟩ :=
    htrails.shares.applyBlock_next htrails.healthy.fits
      ⟨_, h.rebuilt hcodec i j⟩ hvalidators hnext henv.blockHistory
      henv.chainState
  obtain ⟨payload, hpayload⟩ := (h.member hcodec i).replayable.encodable
    hblocks (List.getElem_mem hmissing)
  have hread := hblocks.roundTrips hpayload
  have hgenuine : ∀ block ∈ (blockSubmission payload).submitted,
      config.cluster.Genuine network.released block := by
    intro block hblock
    rw [blockSubmission_submitted hread] at hblock
    obtain rfl := Option.some.inj hblock
    exact h.genuine_of_held hcodec hsource (List.getElem_mem hmissing)
  have hne : i ≠ j := by
    rintro rfl
    exact absurd hmissing (lt_irrefl _)
  have hhandled := NodeService.handleRequest_blockSubmission
    htrails.healthy.unpoisoned hread happly info
  have hservice := Network.setService_services_self network j
    { network.services j with runtime := next, runtimePoisoned := false }
  rw [← hhandled] at hservice
  have hothers := fun k (hk : k ≠ j) =>
    Network.setService_services_of_ne network hk
      ((network.services j).handleRequest info env.saves
        (blockSubmission payload)).2
  refine ⟨_, .request j info env.saves (blockSubmission payload) hgenuine,
    hothers, ⟨?_, ?_⟩, ?_⟩
  · rw [hservice, hhandled]
    exact ⟨rfl, hfits⟩
  · rw [hothers i hne, hservice, hhandled]
    exact hshares
  · rw [hservice, hhandled]
    exact hlength

/-- Service `j` gets all blocks of service `i`. -/
theorem Trails.catchUp (hcodec : WireCodec.RoundTrips)
    (hblocks : BlockCodec.Faithful) (h : config.Reachable network)
    (hsource : (network.services i).runtimePoisoned = false)
    (htrails : config.Trails network i j)
    {env : Environment} (henv : env.Reliable) (info : NodeInfo) :
    ∃ after, ReflTransGen config.Step network after ∧
      (∀ k, k ≠ j → after.services k = network.services k) ∧
      (after.services j).Healthy ∧
      Shares (config.cluster.members j) (network.services i).runtime.blocks
        (after.services j).runtime ∧
      (after.services j).runtime.blocks.length =
        (network.services i).runtime.blocks.length := by
  by_cases hij : i = j
  · subst hij
    exact ⟨network, .refl, fun _ _ => rfl, htrails.healthy, htrails.shares,
      rfl⟩
  have hreached := reaches_zero config.Step
    (fun reached => config.Reachable reached ∧
      (∀ k, k ≠ j → reached.services k = network.services k) ∧
      config.Trails reached i j)
    (fun reached => (network.services i).runtime.blocks.length -
      (reached.services j).runtime.blocks.length) ?_
      ⟨h, fun _ _ => rfl, htrails⟩
  · obtain ⟨after, hrun, ⟨-, hothers, htrailsAfter⟩, hzero⟩ := hreached
    have hshares := htrailsAfter.shares
    rw [hothers i hij] at hshares
    have hle := hshares.length_le
    exact ⟨after, hrun, hothers, htrailsAfter.healthy, hshares, by omega⟩
  · rintro reached ⟨hreach, hothers, htrailsReached⟩ hleft
    have hsourceReached : (reached.services i).runtimePoisoned = false := by
      rw [hothers i hij]
      exact hsource
    have hmissing : (reached.services j).runtime.blocks.length <
        (reached.services i).runtime.blocks.length := by
      rw [hothers i hij]
      omega
    obtain ⟨next, hstep, hkept, htrailsNext, hlength⟩ :=
      htrailsReached.fetch hcodec hblocks hreach hsourceReached hmissing henv
        info
    rw [hothers i hij] at hmissing
    exact ⟨next, hstep, ⟨hreach.step hstep,
      fun k hk => (hkept k hk).trans (hothers k hk), htrailsNext⟩, by omega⟩

/-! ## One more block -/

/-- The service whose turn it is adds a block. -/
theorem Reachable.exists_next (hcodec : WireCodec.RoundTrips)
    (h : config.Reachable network) (hhealthy : (network.services i).Healthy)
    (hturn : expectedProposerForValidators config.cluster.validators
      ((network.services i).runtime.chain.height + 1) =
        .ok (config.cluster.members i).publicKey)
    (hsigns : (config.cluster.members i).Signs)
    (hproduces : (network.services i).runtime.pendingTransactions = [] →
      (config.cluster.members i).produceEmptyBlocks = true)
    {now : UInt64}
    (hlater : (network.services i).runtime.chain.lastTimestamp < now)
    (hroom : (network.services i).runtime.chain.height.toNat + 1 < 2 ^ 64)
    {env : Environment} (henv : env.Reliable) (listing : PeerListing) :
    ∃ block after, config.Step network after ∧
      (∀ k, k ≠ i → after.services k = network.services k) ∧
      (after.services i).Healthy ∧
      (after.services i).runtime.blocks =
        (network.services i).runtime.blocks ++ [block] ∧
      block.transactions =
        (network.services i).runtime.pendingTransactions := by
  have hmember := h.member hcodec i
  have hvalidators : (config.cluster.members i).validators ≠ [] := by
    rw [config.cluster.validators_eq]
    exact config.cluster.nonempty
  rw [← config.cluster.validators_eq i] at hturn
  obtain ⟨entropy, height, block, next, hproduced, -, hblocks,
      htransactions, -⟩ :=
    hmember.replayable.exists_produced hmember.mempool hhealthy.fits
      hvalidators hturn hsigns
      (fun hnothing => hmember.produceEmptyBlocks.trans (hproduces hnothing))
      hlater hroom henv.blockHistory henv.chainState
  have hkept : ((network.services i).handle (config.services i)
      (.produce env listing (.ok now) entropy)).Healthy :=
    hhealthy.handle trivial
  have hservice := (Service.produceNow_spec (config.services i) env
    (network.services i) listing (.ok now) entropy).1
  have hproduces : (network.services i).Produces env (.ok now) entropy height
      block := ⟨hhealthy.unpoisoned, congrArg Prod.fst hproduced⟩
  refine ⟨block, _, .produce i env listing hproduces,
    fun k hk => handled_services_of_ne network hk _, ?_, ?_, htransactions⟩
  · exact (handled_services_self network i _).symm ▸ hkept
  · change ((network.handled i _).services i).runtime.blocks = _
    rw [handled_services_self, hservice,
      NodeService.runtime_performCall hhealthy.unpoisoned,
      NodeRuntime.perform, hproduced]
    exact hblocks

/-- All services are on the history of a highest one. -/
theorem Reachable.trails_of_highest (hcodec : WireCodec.RoundTrips)
    (h : config.Reachable network)
    (hhealthy : ∀ j, (network.services j).Healthy)
    (hfree : ∀ i j, CollisionFree
      (hashedBy (network.services i).runtime.blocks ∪
        hashedBy (network.services j).runtime.blocks))
    (hhighest : ∀ j, (network.services j).runtime.blocks.length ≤
      (network.services i).runtime.blocks.length) (j : ι) :
    config.Trails network i j := by
  refine ⟨hhealthy j, (h.member hcodec j).replayable, ?_⟩
  obtain ⟨cluster, hbacking⟩ := h.backing hcodec
  have hinv := hbacking.reachable.inv
  have hfreeij : CollisionFree (hashedBy (cluster.nodes i).blocks ∪
      hashedBy (cluster.nodes j).blocks) := by
    rw [hbacking.nodes, hbacking.nodes]
    exact hfree i j
  have hcomparable := prefix_or_prefix_of_agree fun _ _ _ hi hj =>
    hinv.commitments_agree hfreeij hi hj
  rw [hbacking.nodes, hbacking.nodes] at hcomparable
  rcases hcomparable with hle | hle
  · refine (hle.eq_of_length ?_).symm ▸ List.prefix_rfl
    have hlength := hle.length_le
    have hhighestj := hhighest j
    simp only [commitments, List.length_map] at hlength ⊢
    exact le_antisymm hlength hhighestj
  · exact hle

theorem Reachable.exists_highest [Finite ι] (hcodec : WireCodec.RoundTrips)
    (h : config.Reachable network)
    (hhealthy : ∀ i, (network.services i).Healthy)
    (hfree : ∀ i j, CollisionFree
      (hashedBy (network.services i).runtime.blocks ∪
        hashedBy (network.services j).runtime.blocks)) :
    ∃ i, ∀ j, config.Trails network i j := by
  obtain ⟨key, hkey⟩ := List.exists_mem_of_ne_nil _ config.cluster.nonempty
  obtain ⟨first, -, -⟩ := config.cluster.holder key hkey
  have : Nonempty ι := ⟨first⟩
  obtain ⟨i, hhighest⟩ := Finite.exists_max fun i =>
    (network.services i).runtime.blocks.length
  exact ⟨i, h.trails_of_highest hcodec hhealthy hfree hhighest⟩

/-- The services catch up with one of them in turn. -/
theorem Reachable.catchUpAll [Finite ι] (hcodec : WireCodec.RoundTrips)
    (hblocks : BlockCodec.Faithful) (h : config.Reachable network)
    (htrails : ∀ j, config.Trails network i j) {env : Environment}
    (henv : env.Reliable) (info : NodeInfo) :
    ∃ after, ReflTransGen config.Step network after ∧
      after.services i = network.services i ∧
      ∀ j, config.Trails after i j ∧
        (after.services j).runtime.blocks.length =
          (network.services i).runtime.blocks.length := by
  have hreached := reaches_all config.Step
    (fun reached => config.Reachable reached ∧
      reached.services i = network.services i ∧
      ∀ j, config.Trails reached i j)
    (fun j reached => (reached.services j).runtime.blocks.length =
      (network.services i).runtime.blocks.length) ?_ ⟨h, rfl, htrails⟩
  · obtain ⟨after, hrun, ⟨-, hsame, htrailsAfter⟩, hdone⟩ := hreached
    exact ⟨after, hrun, hsame, fun j => ⟨htrailsAfter j, hdone j⟩⟩
  · rintro j reached ⟨hreach, hsame, htrailsReached⟩
    by_cases hj : j = i
    · subst hj
      exact ⟨reached, .refl, ⟨hreach, hsame, htrailsReached⟩,
        congrArg (fun service => service.runtime.blocks.length) hsame,
        fun _ hdone => hdone⟩
    obtain ⟨next, hrun, hkept, hhealthy, hshares, hlength⟩ :=
      (htrailsReached j).catchUp hcodec hblocks hreach
        (htrailsReached i).healthy.unpoisoned henv info
    have hsource := hkept i (Ne.symm hj)
    have htrailsNext : ∀ k, config.Trails next i k := by
      intro k
      by_cases hk : k = j
      · subst hk
        exact ⟨hhealthy, hsource ▸ hshares⟩
      · have htrailsk := htrailsReached k
        exact ⟨hkept k hk ▸ htrailsk.healthy,
          hsource ▸ hkept k hk ▸ htrailsk.shares⟩
    rw [hsame] at hlength
    refine ⟨next, hrun, ⟨hreach.run hrun, hsource.trans hsame, htrailsNext⟩,
      hlength, fun k hk => ?_⟩
    by_cases hkj : k = j
    · rw [hkj, hlength]
    · rw [hkept k hkj]
      exact hk

/-- The service whose turn it is adds a block to the history which all
services are on, and all get there. -/
theorem Reachable.exists_round [Finite ι] (hcodec : WireCodec.RoundTrips)
    (hblocks : BlockCodec.Faithful) (h : config.Reachable network)
    (htrails : ∀ j, config.Trails network i j)
    (hturn : expectedProposerForValidators config.cluster.validators
      ((network.services i).runtime.chain.height + 1) =
        .ok (config.cluster.members i).publicKey)
    (hsigns : (config.cluster.members i).Signs)
    (hproduces : (network.services i).runtime.pendingTransactions = [] →
      (config.cluster.members i).produceEmptyBlocks = true)
    {now : UInt64}
    (hlater : (network.services i).runtime.chain.lastTimestamp < now)
    (hroom : (network.services i).runtime.chain.height.toNat + 1 < 2 ^ 64)
    {env : Environment} (henv : env.Reliable) (listing : PeerListing)
    (info : NodeInfo) :
    ∃ block after, ReflTransGen config.Step network after ∧
      block.transactions =
        (network.services i).runtime.pendingTransactions ∧
      (after.services i).runtime.blocks =
        (network.services i).runtime.blocks ++ [block] ∧
      ∀ j, config.Trails after i j ∧
        (after.services j).runtime.chain =
          (after.services i).runtime.chain ∧
        (after.services j).runtime.blocks.length =
          (network.services i).runtime.blocks.length + 1 := by
  obtain ⟨block, made, hmade, hothers, hhealthy, hadded, htransactions⟩ :=
    h.exists_next hcodec (htrails i).healthy hturn hsigns hproduces hlater
      hroom henv listing
  have hreachMade := h.step hmade
  have htrailsMade : ∀ j, config.Trails made i j := by
    intro j
    by_cases hj : j = i
    · subst hj
      exact ⟨hhealthy, (hreachMade.member hcodec j).replayable,
        List.prefix_rfl⟩
    · have hsame := hothers j hj
      refine ⟨hsame ▸ (htrails j).healthy,
        (hreachMade.member hcodec j).replayable, ?_⟩
      have hgrown : commitments ((network.services i).runtime.blocks ++
          [block]) = commitments (network.services i).runtime.blocks ++
            commitments [block] := List.map_append
      rw [hsame, hadded, hgrown]
      exact (htrails j).shares.shared.trans (List.prefix_append _ _)
  -- The others catch up with it.
  obtain ⟨after, hrun, hproposer, htrailsAfter⟩ :=
    hreachMade.catchUpAll hcodec hblocks htrailsMade henv info
  refine ⟨block, after, .head hmade hrun, htransactions, hproposer ▸ hadded,
    fun j => ?_⟩
  obtain ⟨htrailsj, hdone⟩ := htrailsAfter j
  have hshares := htrailsj.shares
  rw [hproposer] at hshares ⊢
  refine ⟨htrailsj, (hshares.chain_eq hdone
    (hreachMade.rebuilt hcodec i j)).2, ?_⟩
  rw [hdone, hadded, List.length_append, List.length_singleton]

/-- A network never gets stuck.  From every state in which no service has
panicked, whatever the services have seen, some run takes all of them to one
chain which is higher than each of theirs was. -/
theorem network_progress [Finite ι] (hcodec : WireCodec.RoundTrips)
    (hblocks : BlockCodec.Faithful) (h : config.Reachable network)
    (hhealthy : ∀ i, (network.services i).Healthy)
    (hfree : ∀ i j, CollisionFree
      (hashedBy (network.services i).runtime.blocks ∪
        hashedBy (network.services j).runtime.blocks))
    (hsigns : ∀ i, (config.cluster.members i).Signs)
    (hempty : ∀ i, (config.cluster.members i).produceEmptyBlocks = true)
    {now : UInt64}
    (hlater : ∀ i, (network.services i).runtime.chain.lastTimestamp < now)
    (hroom : ∀ i,
      (network.services i).runtime.chain.height.toNat + 1 < 2 ^ 64)
    {env : Environment} (henv : env.Reliable) (listing : PeerListing)
    (info : NodeInfo) :
    ∃ after chain, ReflTransGen config.Step network after ∧
      ∀ i, (after.services i).Healthy ∧
        (after.services i).runtime.chain = chain ∧
        (network.services i).runtime.chain.height < chain.height := by
  obtain ⟨top, htop⟩ := h.exists_highest hcodec hhealthy hfree
  obtain ⟨key, hkey, hexpected⟩ := exists_expectedProposer
    config.cluster.nonempty ((network.services top).runtime.chain.height + 1)
  obtain ⟨p, rfl, -⟩ := config.cluster.holder key hkey
  -- The proposer catches up with the highest service.
  obtain ⟨mid, hmid, hothers, hhealthyMid, hshares, hlength⟩ :=
    (htop p).catchUp hcodec hblocks h (hhealthy top).unpoisoned henv info
  have hreachMid := h.run hmid
  obtain ⟨hcommitments, hchain⟩ :=
    hshares.chain_eq hlength (h.rebuilt hcodec top p)
  rw [← hchain] at hexpected
  have htrails : ∀ j, config.Trails mid p j := by
    intro j
    by_cases hj : j = p
    · subst hj
      exact ⟨hhealthyMid, (hreachMid.member hcodec j).replayable,
        List.prefix_rfl⟩
    · have hsame := hothers j hj
      refine ⟨hsame ▸ hhealthy j, (hreachMid.member hcodec j).replayable, ?_⟩
      rw [hsame, hcommitments]
      exact (htop j).shares.shared
  -- It adds a block, and the others follow.
  obtain ⟨block, after, hround, -, -, hafter⟩ :=
    hreachMid.exists_round hcodec hblocks htrails hexpected (hsigns p)
      (fun _ => hempty p) (hchain ▸ hlater top) (hchain ▸ hroom top) henv
      listing info
  refine ⟨after, (after.services p).runtime.chain, hmid.trans hround,
    fun i => ?_⟩
  obtain ⟨htrailsAfter, hsame, hdone⟩ := hafter i
  refine ⟨htrailsAfter.healthy, hsame, ?_⟩
  rw [← hsame, UInt64.lt_iff_toNat_lt,
    ← (h.member hcodec i).replayable.length_blocks,
    ← ((hreachMid.run hround).member hcodec i).replayable.length_blocks,
    hdone, hlength]
  exact Nat.lt_succ_of_le (htop i).shares.length_le

end Deployment

/-! ## Two validators -/

section TwoValidators

open scoped StandIns

local instance progressCodec : WireCodec := blockTableCodec

theorem validatorKey_signs (n : UInt8) (validators : List PublicKey) :
    (StandIns.nodeConfig n validators).Signs :=
  ⟨dilithium2Scheme, rfl, validatorKey_matchingPair n,
    fun header => ⟨0, _, validatorKey_sign n 0 header⟩⟩

theorem freshNodes_healthy (first : Bool) :
    (NodeService.new (freshNodes first)).Healthy :=
  ⟨rfl, (NodeConfig.start_replayable
    (StandIns.start_fresh (if first then 1 else 2) twoKeys)).fits rfl rfl⟩

/-- Empty histories hash nothing. -/
theorem emptyHistories_collisionFree :
    CollisionFree (hashedBy [] ∪ hashedBy []) := by
  rintro x (⟨block, hblock, -⟩ | ⟨block, hblock, -⟩)
  · exact absurd hblock List.not_mem_nil
  · exact absurd hblock List.not_mem_nil

/-- Two validators without blocks agree on a first one. -/
theorem twoServices_progress :
    ∃ network chain, twoServices.Reachable network ∧
      (∀ first, (network.services first).runtime.chain = chain) ∧
      0 < chain.height := by
  have hlater : (0 : UInt64) < 1 := by decide
  have hroom : (0 : UInt64).toNat + 1 < 2 ^ 64 := by decide
  obtain ⟨after, chain, hrun, hafter⟩ := Deployment.network_progress
    blockTable_roundTrips StandIns.blockCodec_faithful twoServices_start
    freshNodes_healthy (fun _ _ => emptyHistories_collisionFree)
    (fun first => validatorKey_signs _ _) (fun _ => rfl) (fun _ => hlater)
    (fun _ => hroom) workingEnvironment_reliable plainListing StandIns.peerInfo
  exact ⟨after, chain, twoServices_start.run hrun,
    fun first => (hafter first).2.1, (hafter true).2.2⟩

end TwoValidators

end QCoin
