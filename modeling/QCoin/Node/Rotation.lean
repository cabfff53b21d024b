import QCoin.Node.Events
import QCoin.Support.Rotation

/-!
# The rotation of the proposers

The proposer of a block is fixed by its height, and the heights of a history
follow its positions.  So the validators sign the blocks of every node in
rotation, whatever has happened to the node.
-/

namespace QCoin

open Support
open Support.Result

section Rotation

variable [Blake3] [Bincode] [PqCrypto]

omit [Blake3] [Bincode] [PqCrypto] in
/-- The proposer at a height which is not zero. -/
theorem getElem?_of_expectedProposer {validators : List PublicKey}
    {height : UInt64} {key : PublicKey} {i : ℕ}
    (h : expectedProposerForValidators validators height = .ok key)
    (hheight : height.toNat = i + 1) :
    validators[i % validators.length]? = some key := by
  have hone : (1 : UInt64) ≤ height := by
    rw [UInt64.le_iff_toNat_le, hheight]
    exact Nat.le_add_left 1 i
  have hindex : (height - 1).toNat = i := by
    rw [UInt64.toNat_sub_of_le _ _ hone, hheight]
    rfl
  simp only [expectedProposerForValidators, bind_eq_ok, okOr_eq_ok] at h
  obtain ⟨-, -, hkey⟩ := h
  rwa [hindex] at hkey

/-- The proposers of a history which can be rebuilt. -/
theorem proposers_followPeriod {chainId : UInt32}
    {validators : List PublicKey} {blocks : List Block} {chain : ChainState}
    (h : rebuildChainStateFromBlocks blocks chainId validators = .ok chain)
    (hvalidators : validators ≠ []) :
    FollowsPeriod (blocks.map Block.proposerPublicKey) validators := by
  intro i key hkey
  rw [List.getElem?_map, Option.map_eq_some_iff] at hkey
  obtain ⟨block, hblock, rfl⟩ := hkey
  obtain ⟨before, after, -, hvalid, -, -⟩ := rebuild_take h hblock
  exact getElem?_of_expectedProposer (hvalid.proposer hvalidators)
    (linkedBlock_of_rebuild h hblock).height

/-- Whatever reaches a node, as many consecutive blocks of its history as there
are validators carry the signature of each validator exactly as often as it is
configured, in the configured order. -/
theorem validators_sign_in_rotation [WireCodec] [BlockCodec] [SerdeJson]
    {config : NodeConfig} {stateFile blocksFile : FileRead SerdeJson.Text}
    {save : Except String Unit} {start : NodeRuntime}
    (hstart : config.start stateFile blocksFile save = .ok start)
    (hvalidators : config.validators ≠ []) (serviceConfig : ServiceConfig)
    (events : List NodeEvent) {window : List Block}
    (hwindow : window <:+: ((NodeService.new start).handleAll serviceConfig
      events).runtime.blocks)
    (hlength : window.length = config.validators.length) :
    (window.map Block.proposerPublicKey).IsRotated config.validators ∧
      (∀ key, (window.map Block.proposerPublicKey).count key =
        config.validators.count key) ∧
      ∀ block ∈ window, verifyHeader defaultRegistry block = .ok () := by
  obtain ⟨calls, -, hruntime⟩ :=
    (NodeService.new start).handleAll_calls serviceConfig events
  have hreplayable : Replayable config ((NodeService.new start).handleAll
      serviceConfig events).runtime := by
    rw [hruntime]
    exact (NodeConfig.start_replayable hstart).performAll calls.flatten
  have hrotated := (proposers_followPeriod hreplayable.rebuilt
    hvalidators).isRotated (hwindow.map Block.proposerPublicKey)
      (by rw [List.length_map, hlength])
  refine ⟨hrotated, fun key => hrotated.perm.count_eq key, ?_⟩
  intro block hblock
  exact signed_of_rebuild hreplayable.rebuilt (hwindow.subset hblock)

end Rotation

section TwoValidators

open scoped StandIns

/-- The block of the second validator on top of the first one. -/
def secondBlock : Block :=
  StandIns.sealBlock 2 StandIns.emptyBlockChain [] (Blake3.hash [])
    (Blake3.hash []) 2

def turns : List PublicKey := [StandIns.validatorKey 1, StandIns.validatorKey 2]

/-- Both validators submit their block to an observer. -/
def roundRequests : List NodeEvent :=
  [StandIns.emptyBlock 1, secondBlock].map fun block =>
    .request StandIns.peerInfo StandIns.savesOk ⟨.post, "/blocks", .ok block⟩

theorem roundRequests_blocks :
    ((NodeService.new (StandIns.freshRuntime 3 turns)).handleAll
      StandIns.plainConfig roundRequests).runtime.blocks =
        [StandIns.emptyBlock 1, secondBlock] := by
  decide +kernel

/-- A full round of two validators. -/
theorem fullRound_rotation :
    ([StandIns.emptyBlock 1, secondBlock].map
        Block.proposerPublicKey).IsRotated turns ∧
      (∀ key, ([StandIns.emptyBlock 1, secondBlock].map
        Block.proposerPublicKey).count key = turns.count key) ∧
      ∀ block ∈ [StandIns.emptyBlock 1, secondBlock],
        verifyHeader defaultRegistry block = .ok () := by
  have hwindow : [StandIns.emptyBlock 1, secondBlock] <:+:
      ((NodeService.new (StandIns.freshRuntime 3 turns)).handleAll
        StandIns.plainConfig roundRequests).runtime.blocks := by
    rw [roundRequests_blocks]
  have hrotation := validators_sign_in_rotation
    (StandIns.start_fresh 3 turns) (List.cons_ne_nil _ _)
    StandIns.plainConfig roundRequests hwindow rfl
  exact hrotation

end TwoValidators

end QCoin
