import QCoin.Node.Dialogue
import QCoin.Node.HttpSync
import QCoin.Node.Survival

/-!
# Catching up over UDP

A node asks a known peer for its tip and then for one missing block after the
other.  As long as no frame is lost, the conversation ends, and the node has
the chain of its peer.
-/

namespace QCoin

open Support
open Support.Result
open Support.Stateful

section Next

variable [Blake3] [Bincode] [PqCrypto] {config : NodeConfig}
  {history : List Block} {runtime : NodeRuntime}

/-- A node accepts the next block whatever is pending. -/
theorem Follows.applyBlock_of_fits (h : Follows config history runtime)
    (hfits : runtime.Fits) (hrebuilds : config.Rebuilds history)
    (hvalidators : config.validators ≠ []) {block : Block}
    (hnext : history[runtime.blocks.length]? = some block)
    {saves : SaveOutcomes} (hblockHistory : saves.blockHistory = .ok ())
    (hchainState : saves.chainState = .ok ()) :
    ∃ next, runtime.applyBlock block saves = (.ok next.chain.height, next) ∧
      Follows config history next ∧ next.blocks = runtime.blocks ++ [block] ∧
      next.Fits := by
  obtain ⟨nextChain, hprepare⟩ :=
    h.shares.prepareBlock_next hrebuilds hvalidators hnext
  obtain ⟨pending, happly⟩ :=
    hfits.applyBlock_of_prepared hprepare hblockHistory hchainState
  refine ⟨{ runtime.advance nextChain (runtime.blocks ++ [block]) with
    pendingTransactions := pending }, happly, ⟨?_, h.held_next hnext⟩, rfl, ?_⟩
  · exact h.replayable.chainStep (.inr
      ⟨block, nextChain, _, pending, hprepare, rfl⟩)
  · have hafter := hfits.applyBlock block saves
    rwa [happly] at hafter

end Next

/-! ## The node -/

namespace Service

variable [WireCodec] {env : Environment} {source : SocketAddr} {s : Session}
  {remoteTipHeight : UInt64}

omit [WireCodec] in
theorem exec_currentHeight (hhealthy : s.service.runtimePoisoned = false) :
    currentHeight.exec s = (.ok s.runtime.chain.height, s) :=
  exec_read hhealthy rfl

/-- The next block is requested. -/
theorem exec_requestNextMissingBlock (henv : env.Reliable)
    (hhealthy : s.service.runtimePoisoned = false)
    (hbehind : s.runtime.chain.height < remoteTipHeight)
    (hunmarked : s.sync.inFlightBlocks.lookup source ≠
      some (s.runtime.chain.height + 1)) {frame : Bytes}
    (hencode : (WireMessage.blockRequest
      (s.runtime.chain.height + 1)).encode = .ok frame) :
    (requestNextMissingBlock env source remoteTipHeight).exec s =
      (.ok (), (s.setSync (s.sync.setInFlight source
        (s.runtime.chain.height + 1))).record
          ⟨source, .blockRequest (s.runtime.chain.height + 1), .ok ()⟩) := by
  have hmarked : (updateSync fun sync => sync.setInFlight source
      (s.runtime.chain.height + 1)).exec s =
        (.ok (), s.setSync (s.sync.setInFlight source
          (s.runtime.chain.height + 1))) := exec_update _ _
  rw [requestNextMissingBlock, exec_bind_of_ok (exec_currentHeight hhealthy),
    if_neg (UInt64.not_le.mpr hbehind)]
  dsimp only
  rw [sync, exec_bind_of_ok (exec_inspect _ s), if_neg hunmarked,
    exec_bind_of_ok hmarked, exec_sendWire henv hencode]

/-- Nothing is missing. -/
theorem exec_requestNextMissingBlock_of_le
    (hhealthy : s.service.runtimePoisoned = false)
    (hreached : remoteTipHeight ≤ s.runtime.chain.height) :
    (requestNextMissingBlock env source remoteTipHeight).exec s =
      (.ok (), s) := by
  rw [requestNextMissingBlock, exec_bind_of_ok (exec_currentHeight hhealthy),
    if_pos hreached, exec_pure]

variable [Blake3] [Bincode] [PqCrypto]

/-- A received block which is accepted is followed by the next request. -/
theorem exec_handleReceivedBlock
    (hhealthy : s.service.runtimePoisoned = false) {height : UInt64}
    {block : Block} (hnew : s.runtime.chain.height < height)
    {next : NodeRuntime} {reached : UInt64}
    (happly : s.runtime.applyBlock block env.saves = (.ok reached, next)) :
    (handleReceivedBlock env source height (some block)).exec s =
      (requestNextMissingBlock env source
        ((s.sync.peerTipHeights.lookup source).getD 0)).exec
          (s.setRuntime next false) := by
  have happlied : (applyRemoteBlock env block).exec s =
      (.ok reached, s.setRuntime next false) := by
    rw [applyRemoteBlock, exec_withRuntimeMut hhealthy]
    simp only [happly]
    rfl
  have hattempted : (attempt (applyRemoteBlock env block)).exec s =
      (.ok (.ok reached), s.setRuntime next false) := by
    rw [attempt, exec_call, happlied]
  rw [handleReceivedBlock, exec_bind_of_ok (exec_currentHeight hhealthy),
    if_neg (UInt64.not_le.mpr hnew), exec_bind_of_ok hattempted,
    requestFollowUpBlock, sync, exec_bind_of_ok (exec_inspect _ _)]
  rfl

end Service

variable [WireCodec] [Blake3] [Bincode] [PqCrypto] in
theorem NodeService.handleFrame_block {service : NodeService}
    {config : ServiceConfig} {env : Environment} {source : SocketAddr}
    {frame : Bytes} {height : UInt64} {block : Option Block}
    (hremote : source ∉ config.localAddrs)
    (hknown : source ∈ service.syncState.knownPeers)
    (hdecode : WireMessage.decode frame = .ok (.blockResponse height block)) :
    service.handleFrame config env source frame =
      (Service.handleReceivedBlock env source height block).after
        ((Session.start service).setSync
          (service.syncState.clearInFlight source)) := by
  have hcleared : (Service.updateSync fun sync =>
      sync.clearInFlight source).exec (Session.start service) =
        (.ok (), (Session.start service).setSync
          (service.syncState.clearInFlight source)) := exec_update _ _
  rw [handleFrame_of_decode hremote hdecode, Service.handleMessage, after,
    Service.handleBlockResponse, Service.ifCompatible_of_known hknown,
    exec_bind_of_ok hcleared]
  rfl

/-! ## The conversation -/

section Exchange

variable [Blake3] [Bincode] [PqCrypto] [WireCodec]

/-- A peer on the same chain which knows the node, and whose answers can be
encoded. -/
structure Line.Joins (line : Line) (config peerConfig : NodeConfig)
    (peer : NodeService) : Prop where
  codec : WireCodec.RoundTrips
  validators : config.validators ≠ []
  sameChain : config.chainId = peerConfig.chainId
  sameValidators : config.validators = peerConfig.validators
  replayable : Replayable peerConfig peer.runtime
  unpoisoned : peer.runtimePoisoned = false
  knowsNode : line.addr ∈ peer.syncState.knownPeers
  remote : line.peerAddr ∉ line.config.localAddrs
  peerRemote : line.addr ∉ line.peerConfig.localAddrs
  tip : ∃ frame,
    (WireMessage.tipResponse peer.runtime.tipResponse).encode = .ok frame
  requests : ∀ i < peer.runtime.blocks.length, ∃ frame,
    (WireMessage.blockRequest (UInt64.ofNat (i + 1))).encode = .ok frame
  blocks : ∀ (i : ℕ) (block : Block),
    peer.runtime.blocks[i]? = some block → ∃ frame,
      (WireMessage.blockResponse (UInt64.ofNat (i + 1)) (some block)).encode =
        .ok frame

/-- A node on a part of the chain of a peer which it knows. -/
structure Line.Syncing (line : Line) (config : NodeConfig)
    (peer node : NodeService) : Prop where
  follows : Follows config peer.runtime.blocks node.runtime
  healthy : node.Healthy
  knowsPeer : line.peerAddr ∈ node.syncState.knownPeers

variable {line : Line} {config peerConfig : NodeConfig}
  {peer node : NodeService}

namespace Line.Joins

omit [WireCodec] in
theorem rebuilds_of_same (hsameChain : config.chainId = peerConfig.chainId)
    (hsameValidators : config.validators = peerConfig.validators)
    (h : Replayable peerConfig peer.runtime) :
    config.Rebuilds peer.runtime.blocks :=
  ⟨peer.runtime.chain, by rw [hsameChain, hsameValidators, h.rebuilt]⟩

/-- The height of the peer in blocks. -/
theorem height_lt_iff (h : line.Joins config peerConfig peer)
    (hsync : line.Syncing config peer node) :
    node.runtime.chain.height < peer.runtime.chain.height ↔
      node.runtime.blocks.length < peer.runtime.blocks.length := by
  rw [UInt64.lt_iff_toNat_lt, hsync.follows.replayable.length_blocks,
    h.replayable.length_blocks]

/-- What is asked for next. -/
theorem exists_request (h : line.Joins config peerConfig peer)
    (hsync : line.Syncing config peer node)
    (hmissing : node.runtime.blocks.length < peer.runtime.blocks.length) :
    ∃ frame, (WireMessage.blockRequest
      (node.runtime.chain.height + 1)).encode = .ok frame := by
  rw [hsync.follows.replayable.succ_height]
  exact h.requests _ hmissing

end Line.Joins

/-- After a tip or a block the node has asked for the next block, or it has
them all. -/
structure Line.Asked (line : Line) (config : NodeConfig) (peer : NodeService)
    (missing : ℕ) (talk : Conversation) : Prop where
  same : talk.peer = peer
  syncing : line.Syncing config peer talk.node
  tip : talk.node.syncState.peerTipHeights.lookup line.peerAddr =
    some peer.runtime.chain.height
  left : talk.node.runtime.blocks.length + missing =
    peer.runtime.blocks.length
  toNode : talk.toNode = []
  done : missing = 0 → talk.toPeer = []
  request : 0 < missing → ∃ frame, talk.toPeer = [frame] ∧
    WireMessage.decode frame =
      .ok (.blockRequest (talk.node.runtime.chain.height + 1))

/-- The phases of the conversation and the deliveries which are left. -/
inductive Line.Phase (line : Line) (config : NodeConfig)
    (peer : NodeService) : ℕ → Conversation → Prop where
  | tipAsked {missing : ℕ} {talk : Conversation} {frame : Bytes}
      (same : talk.peer = peer)
      (syncing : line.Syncing config peer talk.node)
      (unmarked : talk.node.syncState.inFlightBlocks.lookup line.peerAddr ≠
        some (talk.node.runtime.chain.height + 1))
      (left : talk.node.runtime.blocks.length + missing =
        peer.runtime.blocks.length)
      (toNode : talk.toNode = []) (toPeer : talk.toPeer = [frame])
      (holds : WireMessage.decode frame = .ok .tipRequest) :
      Phase line config peer (2 * missing + 2) talk
  | tipTold {missing : ℕ} {talk : Conversation} {frame : Bytes}
      (same : talk.peer = peer)
      (syncing : line.Syncing config peer talk.node)
      (unmarked : talk.node.syncState.inFlightBlocks.lookup line.peerAddr ≠
        some (talk.node.runtime.chain.height + 1))
      (left : talk.node.runtime.blocks.length + missing =
        peer.runtime.blocks.length)
      (toNode : talk.toNode = [frame]) (toPeer : talk.toPeer = [])
      (holds : WireMessage.decode frame =
        .ok (.tipResponse peer.runtime.tipResponse)) :
      Phase line config peer (2 * missing + 1) talk
  | asked {missing : ℕ} {talk : Conversation}
      (asked : line.Asked config peer missing talk) :
      Phase line config peer (2 * missing) talk
  | blockTold {missing : ℕ} {talk : Conversation} {frame : Bytes}
      {block : Block} (same : talk.peer = peer)
      (syncing : line.Syncing config peer talk.node)
      (tip : talk.node.syncState.peerTipHeights.lookup line.peerAddr =
        some peer.runtime.chain.height)
      (left : talk.node.runtime.blocks.length + (missing + 1) =
        peer.runtime.blocks.length)
      (toNode : talk.toNode = [frame]) (toPeer : talk.toPeer = [])
      (next : peer.runtime.blocks[talk.node.runtime.blocks.length]? =
        some block)
      (holds : WireMessage.decode frame = .ok (.blockResponse
        (talk.node.runtime.chain.height + 1) (some block))) :
      Phase line config peer (2 * missing + 1) talk

/-! ## One delivery -/

namespace Line.Joins

variable {talk next : Conversation} {env : Environment} {missing : ℕ}

/-- Where the node is left once it has looked for the next block. -/
theorem asked (h : line.Joins config peerConfig peer) (henv : env.Reliable)
    {s : Session} (hsent : s.sent = [])
    (hsync : line.Syncing config peer s.service)
    (htip : s.sync.peerTipHeights.lookup line.peerAddr =
      some peer.runtime.chain.height)
    (hunmarked : s.sync.inFlightBlocks.lookup line.peerAddr ≠
      some (s.runtime.chain.height + 1))
    (hleft : s.runtime.blocks.length + missing = peer.runtime.blocks.length) :
    line.Asked config peer missing
      ⟨((Service.requestNextMissingBlock env line.peerAddr
          peer.runtime.chain.height).after s).service, peer,
        ((Service.requestNextMissingBlock env line.peerAddr
          peer.runtime.chain.height).after s).framesTo line.peerAddr, []⟩ := by
  have hreached : peer.runtime.chain.height ≤ s.runtime.chain.height ↔
      missing = 0 := by
    have hbehind : s.runtime.chain.height < peer.runtime.chain.height ↔
        s.runtime.blocks.length < peer.runtime.blocks.length :=
      h.height_lt_iff hsync
    rw [← UInt64.not_lt, hbehind]
    omega
  by_cases hmissing : missing = 0
  · have hafter : (Service.requestNextMissingBlock env line.peerAddr
        peer.runtime.chain.height).after s = s := by
      rw [after, Service.exec_requestNextMissingBlock_of_le
        hsync.healthy.unpoisoned (hreached.mpr hmissing)]
    rw [hafter]
    refine ⟨rfl, hsync, htip, hleft, rfl, fun _ => ?_, fun hpos => ?_⟩
    · simp [Session.framesTo, hsent]
    · exact absurd hmissing (Nat.pos_iff_ne_zero.mp hpos)
  · have hbehind : s.runtime.chain.height < peer.runtime.chain.height :=
      UInt64.not_le.mp fun hle => hmissing (hreached.mp hle)
    obtain ⟨frame, hframe⟩ := h.exists_request hsync
      ((h.height_lt_iff hsync).mp hbehind)
    have hafter : (Service.requestNextMissingBlock env line.peerAddr
        peer.runtime.chain.height).after s = _ :=
      congrArg Prod.snd (Service.exec_requestNextMissingBlock henv
        hsync.healthy.unpoisoned hbehind hunmarked hframe)
    rw [hafter]
    refine ⟨rfl, ?_, htip, hleft, rfl, fun hzero => absurd hzero hmissing, ?_⟩
    · exact ⟨hsync.follows, ⟨hsync.healthy.unpoisoned, hsync.healthy.fits⟩,
        hsync.knowsPeer⟩
    · intro _
      refine ⟨frame, Session.framesTo_record hsent hframe line.peerAddr, ?_⟩
      exact WireMessage.decode_encode h.codec hframe

/-- The peer tells its tip. -/
theorem step_tipAsked (h : line.Joins config peerConfig peer)
    (hsame : talk.peer = peer) (hsync : line.Syncing config peer talk.node)
    (hunmarked : talk.node.syncState.inFlightBlocks.lookup line.peerAddr ≠
      some (talk.node.runtime.chain.height + 1))
    (hleft : talk.node.runtime.blocks.length + missing =
      peer.runtime.blocks.length)
    {frame : Bytes} (htoNode : talk.toNode = [])
    (htoPeer : talk.toPeer = [frame])
    (hholds : WireMessage.decode frame = .ok .tipRequest)
    (hstep : talk.Delivers line next) :
    line.Phase config peer (2 * missing + 1) next := by
  obtain ⟨env, henv, rfl⟩ := hstep.single_toPeer htoPeer htoNode
  obtain ⟨answer, hanswer⟩ := h.tip
  subst hsame
  obtain ⟨hservice, hframes⟩ := NodeService.answers henv h.peerRemote
    h.unpoisoned h.knowsNode hholds rfl rfl hanswer
  refine .tipTold hservice hsync hunmarked hleft hframes rfl ?_
  exact WireMessage.decode_encode h.codec hanswer

/-- The node looks for its next block. -/
theorem step_tipTold (h : line.Joins config peerConfig peer)
    (hsame : talk.peer = peer) (hsync : line.Syncing config peer talk.node)
    (hunmarked : talk.node.syncState.inFlightBlocks.lookup line.peerAddr ≠
      some (talk.node.runtime.chain.height + 1))
    (hleft : talk.node.runtime.blocks.length + missing =
      peer.runtime.blocks.length)
    {frame : Bytes} (htoNode : talk.toNode = [frame])
    (htoPeer : talk.toPeer = [])
    (hholds : WireMessage.decode frame =
      .ok (.tipResponse peer.runtime.tipResponse))
    (hstep : talk.Delivers line next) :
    line.Phase config peer (2 * missing) next := by
  obtain ⟨env, henv, rfl⟩ := hstep.single_toNode htoPeer htoNode
  subst hsame
  have hnoted : line.Syncing config talk.peer
      ((Session.start talk.node).setSync (talk.node.syncState.setTip
        line.peerAddr talk.peer.runtime.chain.height)).service :=
    ⟨hsync.follows, ⟨hsync.healthy.unpoisoned, hsync.healthy.fits⟩,
      hsync.knowsPeer⟩
  rw [NodeService.handleFrame_tip h.remote hsync.knowsPeer hholds]
  exact .asked (h.asked henv rfl hnoted (Finmap.lookup_insert _) hunmarked
    hleft)

/-- The peer sends the block which was asked for. -/
theorem step_asked (h : line.Joins config peerConfig peer)
    (hasked : line.Asked config peer (missing + 1) talk)
    (hstep : talk.Delivers line next) :
    line.Phase config peer (2 * missing + 1) next := by
  obtain ⟨frame, htoPeer, hholds⟩ := hasked.request (Nat.succ_pos missing)
  obtain ⟨env, henv, rfl⟩ := hstep.single_toPeer htoPeer hasked.toNode
  obtain ⟨hsame, hsync, htip, hleft, -, -, -⟩ := hasked
  subst hsame
  have hlength : talk.node.runtime.blocks.length <
      talk.peer.runtime.blocks.length := by omega
  have hnext := List.getElem?_eq_getElem hlength
  have hheight := hsync.follows.replayable.succ_height
  have hindex : talk.peer.runtime.blocks[
      (talk.node.runtime.chain.height + 1).toNat - 1]? =
        some talk.peer.runtime.blocks[talk.node.runtime.blocks.length] := by
    have hbound := talk.peer.runtime.chain.height.toNat_lt
    rw [← h.replayable.length_blocks] at hbound
    have hfits : talk.node.runtime.blocks.length + 1 < UInt64.size :=
      Nat.lt_of_le_of_lt hlength hbound
    rw [hheight, UInt64.toNat_ofNat_of_lt' hfits, Nat.add_sub_cancel, hnext]
  obtain ⟨answer, hanswer⟩ := h.blocks _ _ hnext
  rw [← hheight, ← hindex] at hanswer
  obtain ⟨hservice, hframes⟩ := NodeService.answers henv h.peerRemote
    h.unpoisoned h.knowsNode hholds rfl rfl hanswer
  rw [hindex] at hanswer
  refine .blockTold hservice hsync htip hleft hframes rfl hnext ?_
  exact WireMessage.decode_encode h.codec hanswer

/-- The node applies the block and looks for the next one. -/
theorem step_blockTold (h : line.Joins config peerConfig peer)
    (hsame : talk.peer = peer) (hsync : line.Syncing config peer talk.node)
    (htip : talk.node.syncState.peerTipHeights.lookup line.peerAddr =
      some peer.runtime.chain.height)
    (hleft : talk.node.runtime.blocks.length + (missing + 1) =
      peer.runtime.blocks.length)
    {frame : Bytes} {block : Block} (htoNode : talk.toNode = [frame])
    (htoPeer : talk.toPeer = [])
    (hnext : peer.runtime.blocks[talk.node.runtime.blocks.length]? =
      some block)
    (hholds : WireMessage.decode frame = .ok (.blockResponse
      (talk.node.runtime.chain.height + 1) (some block)))
    (hstep : talk.Delivers line next) :
    line.Phase config peer (2 * missing) next := by
  obtain ⟨env, henv, rfl⟩ := hstep.single_toNode htoPeer htoNode
  subst hsame
  obtain ⟨reached, happly, hfollows, hblocks, hfits⟩ :=
    hsync.follows.applyBlock_of_fits hsync.healthy.fits
      (rebuilds_of_same h.sameChain h.sameValidators h.replayable)
      h.validators hnext henv.blockHistory henv.chainState
  have hheight := hsync.follows.replayable.succ_height
  have hnew : talk.node.runtime.chain.height <
      talk.node.runtime.chain.height + 1 := by
    have hbound := talk.peer.runtime.chain.height.toNat_lt
    rw [← h.replayable.length_blocks] at hbound
    have hfits : talk.node.runtime.blocks.length + 1 < UInt64.size := by
      rw [UInt64.size]
      omega
    rw [UInt64.lt_iff_toNat_lt, hheight, UInt64.toNat_ofNat_of_lt' hfits,
      ← hsync.follows.replayable.length_blocks]
    exact Nat.lt_succ_self _
  have htold : (talk.node.syncState.peerTipHeights.lookup
      line.peerAddr).getD 0 = talk.peer.runtime.chain.height := by
    rw [htip]
    rfl
  have hreceived : (Service.handleReceivedBlock env line.peerAddr
      (talk.node.runtime.chain.height + 1) (some block)).exec
        ((Session.start talk.node).setSync
          (talk.node.syncState.clearInFlight line.peerAddr)) =
      (Service.requestNextMissingBlock env line.peerAddr
        talk.peer.runtime.chain.height).exec
          (((Session.start talk.node).setSync
            (talk.node.syncState.clearInFlight line.peerAddr)).setRuntime
              reached false) := by
    rw [← htold]
    exact Service.exec_handleReceivedBlock hsync.healthy.unpoisoned hnew happly
  have hsyncing : line.Syncing config talk.peer
      (((Session.start talk.node).setSync
        (talk.node.syncState.clearInFlight line.peerAddr)).setRuntime reached
          false).service :=
    ⟨hfollows, ⟨rfl, hfits⟩, hsync.knowsPeer⟩
  have hunmarked : (talk.node.syncState.clearInFlight
      line.peerAddr).inFlightBlocks.lookup line.peerAddr ≠
        some (reached.chain.height + 1) := by
    rw [SyncState.clearInFlight, Finmap.lookup_erase]
    exact fun hnone => nomatch hnone
  have hleft' : reached.blocks.length + missing =
      talk.peer.runtime.blocks.length := by
    rw [hblocks, List.length_append, List.length_singleton]
    omega
  rw [NodeService.handleFrame_block h.remote hsync.knowsPeer hholds, after,
    hreceived]
  exact .asked (h.asked henv rfl hsyncing htip hunmarked hleft')

/-- Every delivery leads to the next phase. -/
theorem step (h : line.Joins config peerConfig peer) {left : ℕ}
    (hphase : line.Phase config peer left talk)
    (hstep : talk.Delivers line next) :
    ∃ rest, left = rest + 1 ∧ line.Phase config peer rest next := by
  cases hphase with
  | tipAsked same syncing unmarked left toNode toPeer holds =>
      exact ⟨_, rfl, h.step_tipAsked same syncing unmarked left toNode toPeer
        holds hstep⟩
  | tipTold same syncing unmarked left toNode toPeer holds =>
      exact ⟨_, rfl, h.step_tipTold same syncing unmarked left toNode toPeer
        holds hstep⟩
  | @asked missing _ asked =>
      cases missing with
      | zero =>
          have hquiet : talk.Quiet := ⟨asked.done rfl, asked.toNode⟩
          exact absurd hstep hquiet.not_delivers
      | succ missing => exact ⟨_, rfl, h.step_asked asked hstep⟩
  | blockTold same syncing tip left toNode toPeer next holds =>
      exact ⟨_, rfl, h.step_blockTold same syncing tip left toNode toPeer next
        holds hstep⟩

/-- Something is under way as long as a delivery is left. -/
theorem quiet_iff {left : ℕ} (hphase : line.Phase config peer left talk) :
    talk.Quiet ↔ left = 0 := by
  cases hphase with
  | tipAsked same syncing unmarked left toNode toPeer holds =>
      simp [Conversation.Quiet, toPeer]
  | tipTold same syncing unmarked left toNode toPeer holds =>
      simp [Conversation.Quiet, toNode]
  | @asked missing _ asked =>
      rcases Nat.eq_zero_or_pos missing with hzero | hpos
      · exact iff_of_true ⟨asked.done hzero, asked.toNode⟩ (by rw [hzero])
      · obtain ⟨frame, htoPeer, -⟩ := asked.request hpos
        refine iff_of_false (fun hquiet => ?_) (by omega)
        rw [hquiet.1] at htoPeer
        cases htoPeer
  | blockTold same syncing tip left toNode toPeer next holds =>
      simp [Conversation.Quiet, toNode]

theorem counts (h : line.Joins config peerConfig peer) :
    Conversation.Counts line (line.Phase config peer) where
  step _ _ _ hphase hstep := h.step hphase hstep
  quiet _ _ hphase := quiet_iff hphase

/-- Once no delivery is left the node has caught up. -/
theorem caughtUp (h : line.Joins config peerConfig peer)
    (hphase : line.Phase config peer 0 talk) :
    talk.node.runtime.blocks = peer.runtime.blocks ∧
      talk.node.runtime.chain = peer.runtime.chain := by
  generalize hleft : 0 = left at hphase
  cases hphase with
  | tipAsked => cases hleft
  | tipTold => cases hleft
  | @asked missing _ asked =>
      have hlength := asked.left
      have hzero : missing = 0 := by omega
      rw [hzero, Nat.add_zero] at hlength
      exact asked.syncing.follows.chain_eq
        ⟨h.replayable, List.prefix_refl _⟩ h.sameChain h.sameValidators hlength
  | blockTold => cases hleft

theorem phase_peer {left : ℕ} (hphase : line.Phase config peer left talk) :
    talk.peer = peer := by
  cases hphase with
  | tipAsked same => exact same
  | tipTold same => exact same
  | asked asked => exact asked.same
  | blockTold same => exact same

end Line.Joins

/-! ## The timer which starts it -/

section Timer

variable {listing : PeerListing} {serviceConfig : ServiceConfig}
  {env : Environment}

omit [Blake3] [Bincode] [PqCrypto] in
/-- A known peer is asked for its tip once. -/
theorem framesTo_broadcastTipRequests (henv : env.Reliable) {frame : Bytes}
    (hencode : WireMessage.tipRequest.encode = .ok frame)
    {service : NodeService} {peerAddr : SocketAddr}
    (hknown : peerAddr ∈ service.syncState.knownPeers)
    (hremote : peerAddr ∉ serviceConfig.localAddrs) :
    ((Service.broadcastTipRequests serviceConfig env listing).after
      (Session.start service)).framesTo peerAddr = [frame] := by
  have hpeer : peerAddr ∈ listing.knownPeers serviceConfig service.syncState :=
    PeerListing.mem_knownPeers.mpr ⟨hknown, hremote⟩
  have hnodup : (listing.knownPeers serviceConfig service.syncState).Nodup :=
    PeerListing.nodup_knownPeers
  have hcount := List.count_eq_one_of_mem hnodup hpeer
  rw [Service.after_broadcastTipRequests,
    framesTo_foldl_tried henv hencode, Session.framesTo_start]
  change List.replicate ((listing.knownPeers serviceConfig
    service.syncState).count peerAddr) frame = [frame]
  rw [hcount]
  rfl

end Timer

/-- The sync timer makes a node ask a known peer for its tip.  If nothing is
lost, whatever is pending at the node, the conversation is over after exactly
one exchange for the tip and one for each missing block, and it leaves the node
with the chain of the peer. -/
theorem udp_sync_catches_up (h : line.Joins config peerConfig peer)
    (hsync : line.Syncing config peer node)
    (hunmarked : node.syncState.inFlightBlocks.lookup line.peerAddr ≠
      some (node.runtime.chain.height + 1))
    {env : Environment} (henv : env.Reliable)
    (hencoded : ∃ frame, WireMessage.tipRequest.encode = .ok frame)
    (listing : PeerListing) :
    let talk : Conversation := ⟨node, peer,
      ((Service.broadcastTipRequests line.config env listing).after
        (Session.start node)).framesTo line.peerAddr, []⟩
    let deliveries :=
      2 * (peer.runtime.blocks.length - node.runtime.blocks.length) + 2
    (∃ last, Conversation.DeliversAll line deliveries talk last) ∧
    ∀ n last, Conversation.DeliversAll line n talk last →
      n ≤ deliveries ∧ (last.Quiet ↔ n = deliveries) ∧ last.peer = peer ∧
      (last.Quiet → last.node.runtime.blocks = peer.runtime.blocks ∧
        last.node.runtime.chain = peer.runtime.chain) := by
  intro talk deliveries
  obtain ⟨frame, hframe⟩ := hencoded
  have hleft : node.runtime.blocks.length +
      (peer.runtime.blocks.length - node.runtime.blocks.length) =
        peer.runtime.blocks.length :=
    Nat.add_sub_cancel' hsync.follows.held.length_le
  have hasked : talk.toPeer = [frame] :=
    framesTo_broadcastTipRequests henv hframe hsync.knowsPeer h.remote
  have hfirst : line.Phase config peer deliveries talk :=
    .tipAsked rfl hsync hunmarked hleft rfl hasked
      (WireMessage.decode_encode h.codec hframe)
  refine ⟨h.counts.exists_run hfirst henv, fun n last hrun => ?_⟩
  obtain ⟨hbound, hquiet, hover⟩ := h.counts.ends hfirst hrun
  obtain ⟨rest, -, hlast⟩ := h.counts.run hfirst hrun
  exact ⟨hbound, hquiet, Line.Joins.phase_peer hlast,
    fun hlast => h.caughtUp (hover hlast)⟩

end Exchange

/-! ## A validator and an observer -/

section OneBlock

open scoped StandIns

/-- The messages by which an observer gets the first block. -/
def syncTable : List (WireMessage × Bytes) :=
  [(.tipRequest, leBytes 4 2),
    (.tipResponse servingNode.tipResponse,
      leBytes 4 3 ++ StandIns.encodeTip servingNode.tipResponse),
    (.blockRequest 1, leBytes 4 4 ++ leBytes 8 1),
    (.blockResponse 1 (some (StandIns.emptyBlock 1)),
      leBytes 4 5 ++ leBytes 8 1 ++ [1] ++
        encodeEmptyBlock (StandIns.emptyBlock 1))]

local instance syncTableCodec : WireCodec := StandIns.tableCodec syncTable

/-- The variant numbers differ. -/
theorem syncTable_roundTrips : WireCodec.RoundTrips := by
  apply StandIns.tableCodec_roundTrips
  have hvariants : ((syncTable.map Prod.snd).map (List.take 4)).Nodup := by
    simp [syncTable, leBytes]
  exact hvariants.of_map

def observerLine : Line where
  config := StandIns.plainConfig
  peerConfig := StandIns.plainConfig
  addr := secondPeerAddr
  peerAddr := StandIns.peerAddr

theorem observerLine_joins :
    observerLine.Joins (StandIns.nodeConfig 2 [StandIns.validatorKey 1])
      (StandIns.nodeConfig 1 [StandIns.validatorKey 1])
      (acquainted servingNode) where
  codec := syncTable_roundTrips
  validators := List.cons_ne_nil _ _
  sameChain := rfl
  sameValidators := rfl
  replayable := servingNode_follows.replayable
  unpoisoned := rfl
  knowsNode := by
    change secondPeerAddr ∈
      ({StandIns.peerAddr, secondPeerAddr, thirdPeerAddr} : Finset SocketAddr)
    decide
  remote := Finset.notMem_empty _
  peerRemote := Finset.notMem_empty _
  tip := by
    change ∃ frame,
      (WireMessage.tipResponse servingNode.tipResponse).encode = .ok frame
    simp [WireMessage.encode, WireCodec.serialize, syncTable]
  requests := by
    intro i hi
    change i < servingNode.blocks.length at hi
    rw [servingNode_blocks] at hi
    obtain rfl : i = 0 := by simpa using hi
    change ∃ frame, (WireMessage.blockRequest 1).encode = .ok frame
    simp [WireMessage.encode, WireCodec.serialize, syncTable]
  blocks := by
    intro i block hblock
    change servingNode.blocks[i]? = some block at hblock
    rw [servingNode_blocks, List.getElem?_singleton] at hblock
    split at hblock
    · rename_i hzero
      obtain rfl := hzero
      obtain rfl := Option.some.inj hblock
      change ∃ frame, (WireMessage.blockResponse 1
        (some (StandIns.emptyBlock 1))).encode = .ok frame
      simp [WireMessage.encode, WireCodec.serialize, syncTable]
    · cases hblock

theorem observerLine_syncing :
    observerLine.Syncing (StandIns.nodeConfig 2 [StandIns.validatorKey 1])
      (acquainted servingNode)
      (acquainted (StandIns.freshRuntime 2 [StandIns.validatorKey 1])) where
  follows := ⟨NodeConfig.start_replayable
    (StandIns.start_fresh 2 [StandIns.validatorKey 1]), List.nil_prefix⟩
  healthy := ⟨rfl, (NodeConfig.start_replayable
    (StandIns.start_fresh 2 [StandIns.validatorKey 1])).fits rfl rfl⟩
  knowsPeer := by
    change StandIns.peerAddr ∈
      ({StandIns.peerAddr, secondPeerAddr, thirdPeerAddr} : Finset SocketAddr)
    decide

/-- Four deliveries bring the observer the first block. -/
theorem observer_udp_sync :
    ∃ last : Conversation, last.Quiet ∧
      last.node.runtime.blocks = [StandIns.emptyBlock 1] ∧
      last.node.runtime.chain = servingNode.chain := by
  have hencoded : ∃ frame, WireMessage.tipRequest.encode = .ok frame := by
    simp [WireMessage.encode, WireCodec.serialize, syncTable]
  obtain ⟨⟨last, hrun⟩, hall⟩ := udp_sync_catches_up observerLine_joins
    observerLine_syncing (by simp [acquainted, SyncState.new])
    workingEnvironment_reliable hencoded plainListing
  obtain ⟨-, hquiet, -, hcaught⟩ := hall _ last hrun
  have hover : last.Quiet := hquiet.mpr rfl
  obtain ⟨hblocks, hchain⟩ := hcaught hover
  exact ⟨last, hover, hblocks.trans servingNode_blocks, hchain⟩

end OneBlock

end QCoin
