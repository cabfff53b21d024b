import QCoin.Node.Dialogue
import QCoin.Node.Handlers

/-!
# The spread of a transaction

A node which accepts a new transaction announces its id, a peer which does not
have the transaction asks for it, and accepts it in turn.  Nodes which agree on
the chain and on what is pending still agree afterwards.
-/

namespace QCoin

open Support
open Support.Result
open Support.Stateful

section Agreement

variable [Blake3] [Bincode] [PqCrypto]

/-- The nodes hold the same chain and the same pending transactions. -/
structure NodeRuntime.Agrees (left right : NodeRuntime) : Prop where
  chain : left.chain = right.chain
  blocks : left.blocks = right.blocks
  pending : left.pendingTransactions = right.pendingTransactions
  scriptEngine : left.scriptEngine = right.scriptEngine

namespace NodeRuntime

variable {left right runtime : NodeRuntime} {tx : Transaction}
  {txId : Hash256}

/-- Nodes which agree admit the same transactions. -/
theorem Agrees.checkAdmission (h : left.Agrees right) (tx : Transaction) :
    left.checkAdmission tx = right.checkAdmission tx := by
  unfold NodeRuntime.checkAdmission NodeRuntime.nextHeight NodeRuntime.engine
  rw [h.chain, h.blocks, h.pending, h.scriptEngine]

theorem checkAdmission_of_acceptedNew
    (h : (runtime.acceptTransaction tx).1 = .ok (.acceptedNew txId)) :
    runtime.checkAdmission tx = .ok (.acceptedNew txId) := by
  rw [acceptTransaction] at h
  split at h
  · rename_i accepted hcheck
    rw [hcheck]
    exact h
  · exact h

theorem acceptTransaction_of_checkAdmission
    (h : runtime.checkAdmission tx = .ok (.acceptedNew txId)) :
    runtime.acceptTransaction tx = (.ok (.acceptedNew txId), { runtime with
      pendingTransactions := runtime.pendingTransactions ++ [tx] }) := by
  rw [acceptTransaction, h]

/-- What one of them accepts the other one accepts. -/
theorem Agrees.acceptTransaction (h : left.Agrees right)
    (haccepted : (right.acceptTransaction tx).1 = .ok (.acceptedNew txId)) :
    (left.acceptTransaction tx).1 = .ok (.acceptedNew txId) ∧
      (left.acceptTransaction tx).2.Agrees (right.acceptTransaction tx).2 := by
  have hright := checkAdmission_of_acceptedNew haccepted
  have hleft := (h.checkAdmission tx).trans hright
  rw [acceptTransaction_of_checkAdmission hleft,
    acceptTransaction_of_checkAdmission hright]
  exact ⟨rfl, h.chain, h.blocks, by dsimp only; rw [h.pending],
    h.scriptEngine⟩

omit [Bincode] [PqCrypto] in
theorem anyTxId_append_self {txs : List Transaction}
    (hold : Avoids txs txId) (hid : tx.txId = some txId) :
    anyTxId txId (txs ++ [tx]) = some true := by
  induction txs with
  | nil => simp [anyTxId, hid]
  | cons first txs ih =>
      obtain ⟨⟨other, hother, hne⟩, hrest⟩ := List.forall_mem_cons.mp hold
      rw [List.cons_append, anyTxId, hother, Option.bind_eq_bind,
        Option.bind_some, if_neg hne]
      exact ih hrest

omit [Bincode] [PqCrypto] in
theorem findTxId_append_self {txs : List Transaction}
    (hold : Avoids txs txId) (hid : tx.txId = some txId) :
    Service.findTxId txId (txs ++ [tx]) = some (some tx) := by
  induction txs with
  | nil => simp [Service.findTxId, hid]
  | cons first txs ih =>
      obtain ⟨⟨other, hother, hne⟩, hrest⟩ := List.forall_mem_cons.mp hold
      rw [List.cons_append, Service.findTxId, hother, Option.bind_eq_bind,
        Option.bind_some, if_neg hne]
      exact ih hrest

/-- A transaction which is accepted was not there before. -/
theorem hasTransaction_of_acceptedNew
    (h : (runtime.acceptTransaction tx).1 = .ok (.acceptedNew txId)) :
    runtime.hasTransaction txId = some false ∧
      (runtime.acceptTransaction tx).2.hasTransaction txId = some true ∧
      Service.findTxId txId
        (runtime.acceptTransaction tx).2.pendingTransactions =
          some (some tx) := by
  have hcheck := checkAdmission_of_acceptedNew h
  obtain ⟨hid, hcommitted, hpending, -⟩ :=
    MempoolValid.checkAdmission_acceptedNew hcheck
  rw [acceptTransaction_of_checkAdmission hcheck]
  refine ⟨?_, ?_, findTxId_append_self hpending hid⟩
  · rw [hasTransaction, anyTxId_eq_false.mpr hpending,
      anyTxId_eq_false.mpr hcommitted]
    rfl
  · rw [hasTransaction, anyTxId_append_self hpending hid]
    rfl

end NodeRuntime

end Agreement

/-! ## Handlers -/

namespace Service

variable [WireCodec] {config : ServiceConfig} {env : Environment}
  {source : SocketAddr} {s : Session} {txId : Hash256} {tx : Transaction}

theorem exec_sendUnlessIgnored (henv : env.Reliable) {message : WireMessage}
    {frame : Bytes} (hencode : message.encode = .ok frame)
    (target : SocketAddr) :
    (sendUnlessIgnored env message target).exec s =
      (.ok (), tried env message s target) := by
  have hsent := exec_sendWire (s := s) henv hencode target
  have hattempted : (attempt (sendWire env target message)).exec s =
      (.ok (.ok ()), s.record ⟨target, message, .ok ()⟩) := by
    rw [attempt, exec_call, hsent]
  have houtcome : sendOutcome env s.sent.length target message = .ok () := by
    rw [sendOutcome, hencode, henv.network]
    rfl
  rw [sendUnlessIgnored, exec_bind_of_ok hattempted, tried, houtcome]
  rfl

/-- An announcement reaches every target. -/
theorem exec_broadcastTransactionAnnounce (henv : env.Reliable) {frame : Bytes}
    (hencode : (WireMessage.transactionAnnounce txId).encode = .ok frame) :
    (broadcastTransactionAnnounce config env txId).exec s =
      (.ok (), config.bootstrapTargets.foldl
        (tried env (.transactionAnnounce txId)) s) := by
  rw [broadcastTransactionAnnounce_eq]
  generalize config.bootstrapTargets = targets
  induction targets generalizing s with
  | nil => rfl
  | cons target targets ih =>
      change (sendUnlessIgnored env (.transactionAnnounce txId) target >>=
        fun _ => targets.forM (sendUnlessIgnored env
          (.transactionAnnounce txId))).exec s = _
      rw [exec_bind_of_ok (exec_sendUnlessIgnored henv hencode target), ih]
      rfl

variable [Blake3] [Bincode]

omit [WireCodec] in
theorem exec_hasTransaction (hhealthy : s.service.runtimePoisoned = false)
    {known : Bool} (hknown : s.runtime.hasTransaction txId = some known) :
    (hasTransaction txId).exec s = (.ok known, s) :=
  exec_read hhealthy hknown

theorem exec_handleTransactionAnnounce_known
    (hhealthy : s.service.runtimePoisoned = false)
    (hknown : s.runtime.hasTransaction txId = some true) :
    (handleTransactionAnnounce config env source txId).exec s =
      (.ok (), s) := by
  rw [handleTransactionAnnounce,
    exec_bind_of_ok (exec_hasTransaction hhealthy hknown)]
  rfl

/-- An unknown transaction is asked for. -/
theorem exec_handleTransactionAnnounce_unknown (henv : env.Reliable)
    (hhealthy : s.service.runtimePoisoned = false)
    (hunknown : s.runtime.hasTransaction txId = some false)
    (hpeer : source ∈ s.sync.knownPeers) {frame : Bytes}
    (hencode : (WireMessage.transactionRequest txId).encode = .ok frame) :
    (handleTransactionAnnounce config env source txId).exec s =
      (.ok (), s.record ⟨source, .transactionRequest txId, .ok ()⟩) := by
  rw [handleTransactionAnnounce,
    exec_bind_of_ok (exec_hasTransaction hhealthy hunknown),
    if_neg Bool.false_ne_true, sync, exec_bind_of_ok (exec_inspect _ s),
    if_pos hpeer, exec_sendWire henv hencode]

end Service

/-! ## The conversation -/

section Spread

variable [WireCodec]

/-- The frames of the messages about a transaction. -/
structure TransactionFrames (tx : Transaction) (txId : Hash256) where
  announce : Bytes
  request : Bytes
  response : Bytes
  announced : (WireMessage.transactionAnnounce txId).encode = .ok announce
  requested : (WireMessage.transactionRequest txId).encode = .ok request
  answered : (WireMessage.transactionResponse txId (some tx)).encode =
    .ok response

variable [Blake3] [Bincode] [PqCrypto]

/-- The services know each other and agree, and the peer accepts a new
transaction. -/
structure Line.Spreads (line : Line) (node peer : NodeService)
    (tx : Transaction) (txId : Hash256) : Prop where
  codec : WireCodec.RoundTrips
  agrees : node.runtime.Agrees peer.runtime
  unpoisoned : node.runtimePoisoned = false
  accepts : peer.AcceptsNew tx txId
  knowsPeer : line.peerAddr ∈ node.syncState.knownPeers
  knowsNode : line.addr ∈ peer.syncState.knownPeers
  remote : line.peerAddr ∉ line.config.localAddrs
  peerRemote : line.addr ∉ line.peerConfig.localAddrs

/-- The phases of the conversation and the deliveries which are left. -/
inductive Line.Spreading (line : Line) (node peer : NodeService)
    {tx : Transaction} {txId : Hash256} (frames : TransactionFrames tx txId) :
    ℕ → Conversation → Prop where
  | announced : Spreading line node peer frames
      (line.config.bootstrapTargets.count line.peerAddr + 3)
      ⟨node, peer.accepted tx, [], [frames.announce]⟩
  | requested : Spreading line node peer frames
      (line.config.bootstrapTargets.count line.peerAddr + 2)
      ⟨node, peer.accepted tx, [frames.request], []⟩
  | answered : Spreading line node peer frames
      (line.config.bootstrapTargets.count line.peerAddr + 1)
      ⟨node, peer.accepted tx, [], [frames.response]⟩
  /-- The node has announced the transaction in its turn. -/
  | spread (rest : ℕ) : Spreading line node peer frames rest
      ⟨node.accepted tx, peer.accepted tx,
        List.replicate rest frames.announce, []⟩

namespace Line.Spreads

variable {line : Line} {node peer : NodeService} {tx : Transaction}
  {txId : Hash256} {env : Environment}

theorem node_accepts (h : line.Spreads node peer tx txId) :
    node.AcceptsNew tx txId :=
  ⟨h.unpoisoned, (h.agrees.acceptTransaction h.accepts.2).1⟩

/-- The node asks for the transaction. -/
theorem node_announced (h : line.Spreads node peer tx txId)
    (frames : TransactionFrames tx txId) (henv : env.Reliable) :
    (node.handleFrame line.config env line.peerAddr
        frames.announce).service = node ∧
      (node.handleFrame line.config env line.peerAddr
        frames.announce).framesTo line.peerAddr = [frames.request] := by
  have hunknown := (NodeRuntime.hasTransaction_of_acceptedNew
    h.node_accepts.2).1
  have hhandled : (Service.handleMessage line.config env line.peerAddr
      (.transactionAnnounce txId)).exec (Session.start node) =
        (.ok (), (Session.start node).record
          ⟨line.peerAddr, .transactionRequest txId, .ok ()⟩) :=
    Service.exec_handleTransactionAnnounce_unknown henv h.unpoisoned hunknown
      h.knowsPeer frames.requested
  rw [NodeService.handleFrame_of_decode h.remote
    (WireMessage.decode_encode h.codec frames.announced), after, hhandled]
  exact ⟨rfl, Session.framesTo_record rfl frames.requested line.peerAddr⟩

/-- The peer sends the transaction. -/
theorem peer_requested (h : line.Spreads node peer tx txId)
    (frames : TransactionFrames tx txId) (henv : env.Reliable) :
    ((peer.accepted tx).handleFrame line.peerConfig env line.addr
        frames.request).service = peer.accepted tx ∧
      ((peer.accepted tx).handleFrame line.peerConfig env line.addr
        frames.request).framesTo line.addr = [frames.response] := by
  have hfound := (NodeRuntime.hasTransaction_of_acceptedNew
    h.accepts.2).2.2
  exact NodeService.answers henv h.peerRemote rfl h.knowsNode
    (WireMessage.decode_encode h.codec frames.requested) rfl hfound
    frames.answered

/-- The node accepts the transaction and announces it. -/
theorem node_answered (h : line.Spreads node peer tx txId)
    (frames : TransactionFrames tx txId) (henv : env.Reliable) :
    (node.handleFrame line.config env line.peerAddr
        frames.response).service = node.accepted tx ∧
      (node.handleFrame line.config env line.peerAddr
        frames.response).framesTo line.peerAddr =
          List.replicate (line.config.bootstrapTargets.count line.peerAddr)
            frames.announce := by
  have hafter : node.handleFrame line.config env line.peerAddr
      frames.response = line.config.bootstrapTargets.foldl
        (Service.tried env (.transactionAnnounce txId))
        (Session.start (node.accepted tx)) := by
    rw [NodeService.handleFrame_of_decode h.remote
        (WireMessage.decode_encode h.codec frames.answered),
      Service.after_handleTransactionResponse h.knowsPeer h.node_accepts,
      after, Service.exec_broadcastTransactionAnnounce henv frames.announced]
  rw [hafter]
  refine ⟨service_foldl_tried _ _ _ _, ?_⟩
  rw [framesTo_foldl_tried henv frames.announced, Session.framesTo_start,
    List.nil_append]

/-- The peer has the transaction already. -/
theorem peer_announced (h : line.Spreads node peer tx txId)
    (frames : TransactionFrames tx txId) (env : Environment) :
    ((peer.accepted tx).handleFrame line.peerConfig env line.addr
        frames.announce).service = peer.accepted tx ∧
      ((peer.accepted tx).handleFrame line.peerConfig env line.addr
        frames.announce).framesTo line.addr = [] := by
  have hknown := (NodeRuntime.hasTransaction_of_acceptedNew
    h.accepts.2).2.1
  have hhandled : (Service.handleMessage line.peerConfig env line.addr
      (.transactionAnnounce txId)).exec (Session.start (peer.accepted tx)) =
        (.ok (), Session.start (peer.accepted tx)) :=
    Service.exec_handleTransactionAnnounce_known rfl hknown
  rw [NodeService.handleFrame_of_decode h.peerRemote
    (WireMessage.decode_encode h.codec frames.announced), after, hhandled]
  exact ⟨rfl, rfl⟩

theorem quiet_iff {frames : TransactionFrames tx txId} {left : ℕ}
    {talk : Conversation}
    (hphase : line.Spreading node peer frames left talk) :
    talk.Quiet ↔ left = 0 := by
  cases hphase <;> simp [Conversation.Quiet]

/-- Every delivery leads to the next phase. -/
theorem step (h : line.Spreads node peer tx txId)
    {frames : TransactionFrames tx txId} {left : ℕ}
    {talk next : Conversation}
    (hphase : line.Spreading node peer frames left talk)
    (hstep : talk.Delivers line next) :
    ∃ rest, left = rest + 1 ∧ line.Spreading node peer frames rest next := by
  cases hphase with
  | announced =>
      obtain ⟨env, henv, rfl⟩ := hstep.single_toNode rfl rfl
      obtain ⟨hservice, hframes⟩ := h.node_announced frames henv
      refine ⟨_, rfl, ?_⟩
      simp only [hservice, hframes]
      exact .requested
  | requested =>
      obtain ⟨env, henv, rfl⟩ := hstep.single_toPeer rfl rfl
      obtain ⟨hservice, hframes⟩ := h.peer_requested frames henv
      refine ⟨_, rfl, ?_⟩
      simp only [hservice, hframes]
      exact .answered
  | answered =>
      obtain ⟨env, henv, rfl⟩ := hstep.single_toNode rfl rfl
      obtain ⟨hservice, hframes⟩ := h.node_answered frames henv
      refine ⟨_, rfl, ?_⟩
      simp only [hservice, hframes]
      exact .spread _
  | spread =>
      cases left with
      | zero =>
          have hquiet : Conversation.Quiet ⟨node.accepted tx,
            peer.accepted tx, List.replicate 0 frames.announce, []⟩ :=
              ⟨rfl, rfl⟩
          exact absurd hstep hquiet.not_delivers
      | succ rest =>
          obtain ⟨env, henv, rfl⟩ := hstep.replicate_toPeer rfl rfl
          obtain ⟨hservice, hframes⟩ := h.peer_announced frames env
          refine ⟨rest, rfl, ?_⟩
          simp only [hservice, hframes]
          exact .spread rest

theorem counts (h : line.Spreads node peer tx txId)
    (frames : TransactionFrames tx txId) :
    Conversation.Counts line (line.Spreading node peer frames) where
  step _ _ _ hphase hstep := h.step hphase hstep
  quiet _ _ hphase := quiet_iff hphase

end Line.Spreads

variable {line : Line} {node peer : NodeService} {tx : Transaction}
  {txId : Hash256} {env : Environment}

/-- The peer answers the client and announces the transaction. -/
theorem Line.Spreads.peer_submitted (h : line.Spreads node peer tx txId)
    (frames : TransactionFrames tx txId) (henv : env.Reliable)
    (hnodup : line.peerConfig.bootstrapTargets.Nodup)
    (htarget : line.addr ∈ line.peerConfig.bootstrapTargets)
    {client : SocketAddr} (hclient : client ∉ line.peerConfig.localAddrs)
    (hother : client ≠ line.addr) {submission answer : Bytes}
    (hsubmission : WireMessage.decode submission =
      .ok (.submitTransaction tx))
    (hanswer : (Service.acceptedResponse txId).encode = .ok answer) :
    (peer.handleFrame line.peerConfig env client submission).service =
        peer.accepted tx ∧
      (peer.handleFrame line.peerConfig env client submission).framesTo
        line.addr = [frames.announce] := by
  have houtcome : Service.sendOutcome env 0 client
      (Service.acceptedResponse txId) = .ok () := by
    rw [Service.sendOutcome, hanswer, henv.network]
    rfl
  have hafter : peer.handleFrame line.peerConfig env client submission =
      line.peerConfig.bootstrapTargets.foldl
        (Service.tried env (.transactionAnnounce txId))
        (Service.tried env (Service.acceptedResponse txId)
          (Session.start (peer.accepted tx)) client) := by
    rw [NodeService.handleFrame_of_decode hclient hsubmission,
      Service.after_handleSubmittedTransaction h.accepts, houtcome]
    dsimp only
    rw [after, Service.exec_broadcastTransactionAnnounce henv
      frames.announced]
  rw [hafter]
  refine ⟨service_foldl_tried _ _ _ _, ?_⟩
  rw [framesTo_foldl_tried henv frames.announced,
    List.count_eq_one_of_mem hnodup htarget, framesTo_tried henv hanswer, if_neg hother]
  rfl

/-- A node accepts a transaction which a client submits.  If nothing is lost, a
peer which agreed with the node on the chain and on what is pending asks for
the transaction, accepts it, and agrees with the node again. -/
theorem submission_spreads (h : line.Spreads node peer tx txId)
    (frames : TransactionFrames tx txId) (henv : env.Reliable)
    (hnodup : line.peerConfig.bootstrapTargets.Nodup)
    (htarget : line.addr ∈ line.peerConfig.bootstrapTargets)
    {client : SocketAddr} (hclient : client ∉ line.peerConfig.localAddrs)
    (hother : client ≠ line.addr) {submission answer : Bytes}
    (hsubmission : WireMessage.decode submission =
      .ok (.submitTransaction tx))
    (hanswer : (Service.acceptedResponse txId).encode = .ok answer) :
    let submitted :=
      peer.handleFrame line.peerConfig env client submission
    let talk : Conversation :=
      ⟨node, submitted.service, [], submitted.framesTo line.addr⟩
    let deliveries :=
      line.config.bootstrapTargets.count line.peerAddr + 3
    (∃ last, Conversation.DeliversAll line deliveries talk last) ∧
    ∀ n last, Conversation.DeliversAll line n talk last →
      n ≤ deliveries ∧ (last.Quiet ↔ n = deliveries) ∧
      (last.Quiet → last.node.runtime.Agrees last.peer.runtime ∧
        last.node.runtime.pendingTransactions =
          node.runtime.pendingTransactions ++ [tx]) := by
  intro submitted talk deliveries
  obtain ⟨hservice, hframes⟩ := h.peer_submitted frames henv hnodup htarget
    hclient hother hsubmission hanswer
  have htalk : talk = ⟨node, peer.accepted tx, [], [frames.announce]⟩ := by
    rw [← hservice, ← hframes]
  have hfirst : line.Spreading node peer frames deliveries talk := by
    rw [htalk]
    exact .announced
  have hcounts := h.counts frames
  refine ⟨hcounts.exists_run hfirst henv, fun n last hrun => ?_⟩
  obtain ⟨hbound, hquiet, hover⟩ := hcounts.ends hfirst hrun
  refine ⟨hbound, hquiet, fun hlast => ?_⟩
  have hended := hover hlast
  cases hended with
  | spread =>
      refine ⟨(h.agrees.acceptTransaction h.accepts.2).2, ?_⟩
      change (node.runtime.acceptTransaction tx).2.pendingTransactions = _
      rw [NodeRuntime.acceptTransaction_of_checkAdmission
        (NodeRuntime.checkAdmission_of_acceptedNew h.node_accepts.2)]

end Spread

/-! ## A submitted transaction -/

section SubmittedTransfer

open scoped StandIns

def emptyTransferId : Hash256 := Blake3.hash (leBytes 9 0)

/-- The messages about a submitted transaction. -/
def submissionTable : List (WireMessage × Bytes) :=
  [(.submitTransaction emptyTransfer,
      leBytes 4 11 ++ leBytes 4 0 ++ leBytes 24 0),
    (Service.acceptedResponse emptyTransferId,
      leBytes 4 12 ++ (1 ::
        StandIns.encodeText (toHex emptyTransferId.bytes) ++
        StandIns.encodeText "transaction accepted into mempool")),
    (.transactionAnnounce emptyTransferId,
      leBytes 4 8 ++ encodeHash emptyTransferId),
    (.transactionRequest emptyTransferId,
      leBytes 4 9 ++ encodeHash emptyTransferId),
    (.transactionResponse emptyTransferId (some emptyTransfer),
      leBytes 4 10 ++ encodeHash emptyTransferId ++
        (1 :: leBytes 4 0 ++ leBytes 24 0))]

@[reducible]
def submissionCodec : WireCodec :=
  StandIns.tableCodec submissionTable

local instance gossipCodec : WireCodec := submissionCodec

theorem submissionTable_roundTrips : WireCodec.RoundTrips :=
  StandIns.tableCodec_roundTrips (by decide)

theorem freshService_acceptsNew :
    (NodeService.new (freshNodes true)).AcceptsNew emptyTransfer
      emptyTransferId := by
  refine ⟨rfl, ?_⟩
  decide +kernel

def submissionFrame : Bytes :=
  QCOIN_WIRE_MAGIC ++ (leBytes 4 11 ++ leBytes 4 0 ++ leBytes 24 0)

theorem decode_submissionFrame : WireMessage.decode submissionFrame =
    .ok (.submitTransaction emptyTransfer) :=
  WireMessage.decode_encode submissionTable_roundTrips rfl

/-- The first validator announces to the second one. -/
def announcingLine : Line where
  config := StandIns.plainConfig
  peerConfig := { StandIns.plainConfig with
    bootstrapTargets := [secondPeerAddr] }
  addr := secondPeerAddr
  peerAddr := StandIns.peerAddr

theorem announcingLine_spreads :
    announcingLine.Spreads (acquainted (freshNodes false))
      (acquainted (freshNodes true)) emptyTransfer emptyTransferId where
  codec := submissionTable_roundTrips
  agrees := ⟨rfl, rfl, rfl, rfl⟩
  unpoisoned := rfl
  accepts := ⟨rfl, freshService_acceptsNew.2⟩
  knowsPeer := by
    change StandIns.peerAddr ∈
      ({StandIns.peerAddr, secondPeerAddr, thirdPeerAddr} : Finset SocketAddr)
    decide
  knowsNode := by
    change secondPeerAddr ∈
      ({StandIns.peerAddr, secondPeerAddr, thirdPeerAddr} : Finset SocketAddr)
    decide
  remote := Finset.notMem_empty _
  peerRemote := Finset.notMem_empty _

def transferFrames : TransactionFrames emptyTransfer emptyTransferId where
  announce := QCOIN_WIRE_MAGIC ++ (leBytes 4 8 ++ encodeHash emptyTransferId)
  request := QCOIN_WIRE_MAGIC ++ (leBytes 4 9 ++ encodeHash emptyTransferId)
  response := QCOIN_WIRE_MAGIC ++ (leBytes 4 10 ++
    encodeHash emptyTransferId ++ (1 :: leBytes 4 0 ++ leBytes 24 0))
  announced := rfl
  requested := rfl
  answered := rfl

/-- Three deliveries bring the second validator the transaction. -/
theorem submittedTransfer_spreads :
    ∃ last : Conversation, last.Quiet ∧
      last.node.runtime.Agrees last.peer.runtime ∧
      last.node.runtime.pendingTransactions = [emptyTransfer] := by
  obtain ⟨⟨last, hrun⟩, hall⟩ := submission_spreads announcingLine_spreads
    transferFrames workingEnvironment_reliable (List.nodup_singleton _)
    (List.mem_singleton_self _) (Finset.notMem_empty thirdPeerAddr)
    (by decide) decode_submissionFrame rfl
  obtain ⟨-, hquiet, hover⟩ := hall _ last hrun
  have hlast : last.Quiet := hquiet.mpr rfl
  exact ⟨last, hlast, hover hlast⟩

end SubmittedTransfer

end QCoin
