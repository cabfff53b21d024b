import QCoin.Node.Progress
import QCoin.Node.Provenance

/-!
# Pending transactions are committed

What a node has pending when its turn comes is in its next block, and every
service which follows has it in its history and not in its mempool.
-/

namespace QCoin

open Relation
open Support

section Contents

variable [Blake3] [Bincode] [PqCrypto]

/-- What is committed is not pending. -/
theorem NodeRuntime.MempoolValid.core_ne {runtime : NodeRuntime}
    (h : runtime.MempoolValid) {pending committed : Transaction}
    (hpending : pending ∈ runtime.pendingTransactions)
    (hcommitted : committed ∈ committedTransactions runtime.blocks) :
    pending.core ≠ committed.core := by
  intro hsame
  obtain ⟨txId, htxId, havoids⟩ := h.uncommitted pending hpending
  obtain ⟨other, hother, hne⟩ := havoids committed hcommitted
  rw [Transaction.txId, hsame] at htxId
  exact hne (Option.some.inj (hother.symm.trans htxId))

omit [Blake3] [Bincode] [PqCrypto] in
/-- Histories which commit to the same hold the same cores. -/
theorem exists_committed_of_commitments {blocks others : List Block}
    (h : commitments blocks = commitments others) {tx : Transaction}
    (htx : tx ∈ committedTransactions blocks) :
    ∃ committed ∈ committedTransactions others, committed.core = tx.core := by
  obtain ⟨block, hblock, hmem⟩ := List.mem_flatMap.mp htx
  have hpair : (block.header, block.transactions.map Transaction.core) ∈
      commitments others := h ▸ List.mem_map_of_mem hblock
  obtain ⟨other, hother, hsame⟩ := List.mem_map.mp hpair
  have hcore : tx.core ∈ other.transactions.map Transaction.core := by
    rw [(Prod.mk.inj hsame).2]
    exact List.mem_map_of_mem hmem
  obtain ⟨committed, hcommitted, hcores⟩ := List.mem_map.mp hcore
  exact ⟨committed, List.mem_flatMap.mpr ⟨other, hother, hcommitted⟩, hcores⟩

end Contents

namespace Deployment

variable [Blake3] [Bincode] [PqCrypto] [WireCodec] [BlockCodec] {ι : Type}
  [DecidableEq ι] {config : Deployment ι} {network : Network ι} {i : ι}

/-- When the turn of a highest service comes, some run commits all that it has
pending at every service. -/
theorem pending_transactions_commit [Finite ι]
    (hcodec : WireCodec.RoundTrips) (hblocks : BlockCodec.Faithful)
    (h : config.Reachable network)
    (hhealthy : ∀ j, (network.services j).Healthy)
    (hfree : ∀ i j, CollisionFree
      (hashedBy (network.services i).runtime.blocks ∪
        hashedBy (network.services j).runtime.blocks))
    (hhighest : ∀ j, (network.services j).runtime.blocks.length ≤
      (network.services i).runtime.blocks.length)
    (hturn : expectedProposerForValidators config.cluster.validators
      ((network.services i).runtime.chain.height + 1) =
        .ok (config.cluster.members i).publicKey)
    (hsigns : (config.cluster.members i).Signs)
    (hpending : (network.services i).runtime.pendingTransactions ≠ [])
    {now : UInt64}
    (hlater : (network.services i).runtime.chain.lastTimestamp < now)
    (hroom : (network.services i).runtime.chain.height.toNat + 1 < 2 ^ 64)
    {env : Environment} (henv : env.Reliable) (listing : PeerListing)
    (info : NodeInfo) :
    ∃ after chain, ReflTransGen config.Step network after ∧
      ∀ j, (after.services j).Healthy ∧
        (after.services j).runtime.chain = chain ∧
        ∀ tx ∈ (network.services i).runtime.pendingTransactions,
          (∃ committed ∈ committedTransactions
              (after.services j).runtime.blocks, committed.core = tx.core) ∧
          ∀ other ∈ (after.services j).runtime.pendingTransactions,
            other.core ≠ tx.core := by
  obtain ⟨block, after, hrun, htransactions, hadded, hafter⟩ :=
    h.exists_round hcodec hblocks
      (h.trails_of_highest hcodec hhealthy hfree hhighest) hturn hsigns
      (fun hnothing => absurd hnothing hpending) hlater hroom henv listing info
  refine ⟨after, (after.services i).runtime.chain, hrun, fun j => ?_⟩
  obtain ⟨htrails, hchain, hlength⟩ := hafter j
  refine ⟨htrails.healthy, hchain, fun tx htx => ?_⟩
  have hreach := h.run hrun
  have hcommitted : tx ∈ committedTransactions
      (after.services i).runtime.blocks := by
    rw [hadded]
    refine List.mem_flatMap.mpr ⟨block, ?_, htransactions ▸ htx⟩
    exact List.mem_append_right _ (List.mem_singleton_self block)
  have hlengths : (after.services j).runtime.blocks.length =
      (after.services i).runtime.blocks.length :=
    hlength.trans (hafter i).2.2.symm
  have hsame := (htrails.shares.chain_eq hlengths
    (hreach.rebuilt hcodec i j)).1
  obtain ⟨committed, hmem, hcore⟩ :=
    exists_committed_of_commitments hsame.symm hcommitted
  refine ⟨⟨committed, hmem, hcore⟩, fun other hother => ?_⟩
  rw [← hcore]
  exact (hreach.member hcodec j).mempool.core_ne hother hmem

end Deployment

/-! ## A submitted transaction -/

section SubmittedTransfer

open scoped StandIns

local instance inclusionCodec : WireCodec := submissionCodec

theorem emptyTransfer_fits : emptyTransfer.Fits where
  core := ⟨by decide, by decide, fun _ h => absurd h List.not_mem_nil⟩
  scripts i _ _ hi _ _ := absurd hi (Nat.not_lt_zero i)

/-- The first validator, to which a client has submitted a transaction. -/
theorem submission_waits :
    ∃ network, twoServices.Reachable network ∧
      (∀ first, (network.services first).Healthy) ∧
      (network.services true).runtime =
        { freshNodes true with pendingTransactions := [emptyTransfer] } ∧
      (network.services false).runtime = freshNodes false := by
  have hblocks : frameBlocks submissionFrame = [] := by
    rw [frameBlocks, decode_submissionFrame]
    rfl
  have htransactions : frameTransactions submissionFrame = [emptyTransfer] := by
    rw [frameTransactions, decode_submissionFrame]
    rfl
  have hgenuine : ∀ block ∈ frameBlocks submissionFrame,
      twoServices.cluster.Genuine [] block := by
    rw [hblocks]
    exact fun block hblock => absurd hblock List.not_mem_nil
  have hsent := (twoServices_start.step (.inject hgenuine)).step (.deliver true
    StandIns.workingEnvironment secondPeerAddr List.mem_cons_self)
  have hfits : NodeEvent.Fits (.frame StandIns.workingEnvironment
      secondPeerAddr submissionFrame) := by
    refine ⟨?_, ?_⟩
    · rw [hblocks]
      exact fun block hblock => absurd hblock List.not_mem_nil
    · rw [htransactions]
      exact fun tx htx => List.mem_singleton.mp htx ▸ emptyTransfer_fits
  have hhealthy : ((NodeService.new (freshNodes true)).handle
      (twoServices.services true) _).Healthy :=
    (freshNodes_healthy true).handle hfits
  refine ⟨_, hsent, fun first => ?_, ?_, ?_⟩
  · cases first with
    | true =>
        rw [Deployment.handled_services_self]
        exact hhealthy
    | false =>
        rw [Deployment.handled_services_of_ne _ (by decide)]
        exact freshNodes_healthy false
  · rw [Deployment.handled_services_self]
    have haccept := NodeRuntime.acceptTransaction_of_checkAdmission
      (NodeRuntime.checkAdmission_of_acceptedNew freshService_acceptsNew.2)
    exact freshService_runtime.trans (congrArg Prod.snd haccept)
  · rw [Deployment.handled_services_of_ne _ (by decide)]
    rfl

/-- Both validators commit what a client has submitted to the first one. -/
theorem submittedTransfer_commits :
    ∃ network, twoServices.Reachable network ∧
      ∀ first, ∃ committed ∈ committedTransactions
        (network.services first).runtime.blocks,
          committed.core = emptyTransfer.core := by
  obtain ⟨network, hreach, hhealthy, htrue, hfalse⟩ := submission_waits
  have hnone : ∀ first, (network.services first).runtime.blocks = [] := by
    intro first
    cases first with
    | true => rw [htrue]; rfl
    | false => rw [hfalse]; rfl
  have hlater : (0 : UInt64) < 1 := by decide
  have hroom : (0 : UInt64).toNat + 1 < 2 ^ 64 := by decide
  obtain ⟨after, chain, hrun, hafter⟩ :=
    Deployment.pending_transactions_commit submissionTable_roundTrips
      StandIns.blockCodec_faithful hreach hhealthy
      (fun i j => by rw [hnone, hnone]; exact emptyHistories_collisionFree)
      (fun j => by rw [hnone, hnone]) (by rw [htrue]; rfl)
      (validatorKey_signs _ _) (by rw [htrue]; exact List.cons_ne_nil _ _)
      (by rw [htrue]; exact hlater) (by rw [htrue]; exact hroom)
      workingEnvironment_reliable plainListing StandIns.peerInfo
  refine ⟨after, hreach.run hrun, fun first => ?_⟩
  have hmem : emptyTransfer ∈
      (network.services true).runtime.pendingTransactions := by
    rw [htrue]
    exact List.mem_singleton_self _
  exact ((hafter first).2.2 emptyTransfer hmem).1

end SubmittedTransfer

end QCoin
