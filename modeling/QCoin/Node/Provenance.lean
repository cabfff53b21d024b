import QCoin.Node.Gossip
import QCoin.Node.Network

/-!
# Where transactions come from

No node of a network makes up a transaction: what is pending at a node came
from outside, and so did, up to its witness, every transaction of every chain.
A block can be altered on its way, but it is accepted with the header of the
proposer only, and the header fixes the cores.
-/

namespace QCoin

open Support
open Support.Result
open Support.Stateful

/-- Answering and announcing leaves a new transaction pending. -/
theorem Service.runtime_of_submitted [Blake3] [Bincode] [PqCrypto] [WireCodec]
    {service : NodeService} {tx : Transaction} {txId : Hash256}
    (config : ServiceConfig) (env : Environment) (source : SocketAddr)
    (h : service.AcceptsNew tx txId) :
    ((handleMessage config env source (.submitTransaction tx)).after
      (Session.start service)).runtime =
        (service.runtime.acceptTransaction tx).2 := by
  rw [after_handleSubmittedTransaction h]
  dsimp only
  split
  · rw [runtime_of_moving (broadcastTransactionAnnounce_moves txId)]
    rfl
  · rfl

/-! ## The invariant -/

namespace Deployment

variable [Blake3] [Bincode] [PqCrypto] [WireCodec] {ι : Type} [DecidableEq ι]

/-- Pending transactions, transactions in flight and those of the blocks which
a node made came from outside. -/
structure Sourced (config : Deployment ι) (network : Network ι) : Prop where
  pending : ∀ i, ∀ tx ∈ (network.services i).runtime.pendingTransactions,
    tx ∈ network.submitted
  carried : ∀ frame ∈ network.frames, ∀ tx ∈ frameTransactions frame,
    tx ∈ network.submitted
  own : ∀ i, ∀ block ∈ (network.services i).runtime.blocks,
    config.cluster.Proposes i block.header.height →
      ∀ tx ∈ block.transactions, tx ∈ network.submitted

variable {config : Deployment ι} {network network' : Network ι}
  {cluster : Cluster ι} {i : ι}

/-- A node takes no block from the network at its own turn. -/
theorem Backing.not_proposes (h : config.Backing network cluster)
    {block : Block} {next : ChainState × List Block}
    (hsent : block ∈ cluster.inFlight)
    (hprepare : (network.services i).runtime.prepareBlock block = .ok next) :
    ¬config.cluster.Proposes i block.header.height := by
  intro hproposes
  have hinv := h.reachable.inv
  rw [← h.nodes i] at hprepare
  obtain ⟨-, hheight, hproposer, hsigned⟩ := hinv.prepared hprepare
  have hkey : block.proposerPublicKey =
      (config.cluster.members i).publicKey :=
    Except.ok.inj (hproposer.symm.trans hproposes)
  have hvalidator := ClusterConfig.mem_of_expectedProposer hproposes
  obtain ⟨n, hheader⟩ := hinv.released i _
    (hinv.genuine block hsent i hvalidator hkey hsigned)
  have hn := (List.getElem?_eq_some_iff.mp hheader).1
  rw [NodeRuntime.headers, List.length_map] at hn
  have hposition := hinv.height hheader
  omega

namespace Sourced

omit [Blake3] [Bincode] [PqCrypto] [DecidableEq ι] in
/-- The runtime of one service changes. -/
theorem update (h : config.Sourced network) (i : ι)
    (hsubmitted : network.submitted ⊆ network'.submitted)
    (hothers : ∀ j, j ≠ i → network'.services j = network.services j)
    (hpending : ∀ tx ∈ (network'.services i).runtime.pendingTransactions,
      tx ∈ network'.submitted)
    (hown : ∀ block ∈ (network'.services i).runtime.blocks,
      block ∈ (network.services i).runtime.blocks ∨
        (config.cluster.Proposes i block.header.height →
          ∀ tx ∈ block.transactions, tx ∈ network'.submitted))
    (hframes : ∀ frame ∈ network'.frames, frame ∈ network.frames ∨
      ∀ tx ∈ frameTransactions frame, tx ∈ network'.submitted) :
    config.Sourced network' where
  pending j tx htx := by
    by_cases hj : j = i
    · exact hpending tx (hj ▸ htx)
    · rw [hothers j hj] at htx
      exact hsubmitted (h.pending j tx htx)
  carried frame hframe tx htx := by
    rcases hframes frame hframe with hold | hnew
    · exact hsubmitted (h.carried frame hold tx htx)
    · exact hnew tx htx
  own j block hblock hproposes tx htx := by
    by_cases hj : j = i
    · subst hj
      rcases hown block hblock with hold | hnew
      · exact hsubmitted (h.own j block hold hproposes tx htx)
      · exact hnew hproposes tx htx
    · rw [hothers j hj] at hblock
      exact hsubmitted (h.own j block hblock hproposes tx htx)

/-- A block of the network adds nothing of its receiver's own. -/
theorem own_applyBlock (hbacking : config.Backing network cluster)
    {block other : Block} {saves : SaveOutcomes}
    (hsent : block ∈ cluster.inFlight)
    (hother : other ∈
      ((network.services i).runtime.applyBlock block saves).2.blocks) :
    other ∈ (network.services i).runtime.blocks ∨
      ¬config.cluster.Proposes i other.header.height := by
  refine (NodeRuntime.mem_blocks_applyBlock_iff hother).imp_right ?_
  rintro ⟨rfl, next, hprepare⟩
  exact hbacking.not_proposes hsent hprepare

/-- One step of a session. -/
theorem moves (hcodec : WireCodec.RoundTrips) {message : WireMessage}
    {s s' : Session} (h : config.Sourced (network.handled i s))
    (hbacking : config.Backing (network.handled i s) cluster)
    (hblocks : ∀ block ∈ message.blocks, block ∈ cluster.inFlight)
    (htransactions : ∀ tx ∈ message.transactions, tx ∈ network.submitted)
    (hmoves : Session.Moves message s s') :
    config.Sourced (network.handled i s') := by
  have hothers : ∀ j, j ≠ i → (network.handled i s').services j =
      (network.handled i s).services j := by
    intro j hj
    rw [handled_services_of_ne network hj, handled_services_of_ne network hj]
  have hpending : ∀ tx ∈ s.runtime.pendingTransactions,
      tx ∈ network.submitted := by
    have hself := h.pending i
    rwa [handled_services_self] at hself
  have hself : ∀ s : Session,
      ((network.handled i s).services i).runtime = s.runtime := by
    intro s
    rw [handled_services_self]
    rfl
  cases hmoves with
  | quiet hruntime hsent _ =>
      refine h.update i (List.Subset.refl _) hothers ?_ ?_ ?_
      · rw [hself, hruntime]
        exact hpending
      · rw [hself, hself, hruntime]
        exact fun block hblock => .inl hblock
      · intro frame hframe
        rw [Network.handled, Session.frames, hsent] at hframe
        exact .inl hframe
  | searchPanicked _ =>
      refine h.update i (List.Subset.refl _) hothers ?_ ?_
        fun _ hframe => .inl hframe
      · rw [hself]
        exact hpending
      · rw [hself, hself]
        exact fun block hblock => .inl hblock
  | transmitted transmission has =>
      refine h.update i (List.Subset.refl _) hothers ?_ ?_ ?_
      · rw [hself]
        exact hpending
      · rw [hself, hself]
        exact fun block hblock => .inl hblock
      · intro frame hframe
        rcases List.mem_append.mp hframe with hsession | hold
        · refine (Session.mem_frames_record hcodec hsession).imp
            (fun hbefore => List.mem_append_left _ hbefore) ?_
          rintro ⟨-, hcarried⟩ tx htx
          exact hpending tx (has.transactions tx (hcarried ▸ htx)).2
        · exact .inl (List.mem_append_right _ hold)
  | @blockApplied block saves received _ =>
      refine h.update i (List.Subset.refl _) hothers ?_ ?_
        fun _ hframe => .inl hframe
      · rw [hself]
        intro tx htx
        exact hpending tx (NodeRuntime.mem_pending_applyBlock htx)
      · rw [hself, hself]
        intro other hother
        have hcases := own_applyBlock hbacking (hblocks block received)
          (hself s ▸ hother)
        rw [hself] at hcases
        exact hcases.imp_right fun hnot hproposes => absurd hproposes hnot
  | @transactionAccepted tx received _ =>
      refine h.update i (List.Subset.refl _) hothers ?_ ?_
        fun _ hframe => .inl hframe
      · rw [hself]
        intro other hother
        rcases NodeRuntime.mem_pending_acceptTransaction hother with
          hold | rfl
        · exact hpending other hold
        · exact htransactions other received
      · rw [hself, hself]
        intro block hblock
        refine .inl ?_
        rwa [← NodeRuntime.acceptTransaction_blocks s.runtime tx]

/-- A whole session. -/
theorem session (hcodec : WireCodec.RoundTrips) {message : WireMessage}
    {α : Type} {x : ServiceM α} (h : config.Sourced network)
    (hbacking : config.Backing network cluster)
    (hblocks : ∀ block ∈ message.blocks, block ∈ cluster.inFlight)
    (htransactions : ∀ tx ∈ message.transactions, tx ∈ network.submitted)
    (hmoving : Service.Moving message x
      (Session.start (network.services i))) :
    config.Sourced (network.handled i
      (x.after (Session.start (network.services i)))) := by
  refine (hmoving.invariant (fun s =>
    (∃ cluster', config.Backing (network.handled i s) cluster' ∧
        cluster'.inFlight = cluster.inFlight) ∧
      config.Sourced (network.handled i s)) ?_ ?_).2
  · rintro s s' hmoves ⟨⟨before, hbefore, hinFlight⟩, hsourced⟩
    have hin : ∀ block ∈ message.blocks, block ∈ before.inFlight :=
      hinFlight ▸ hblocks
    obtain ⟨after, hafter, hsame⟩ := hbefore.moves hcodec hin hmoves
    exact ⟨⟨after, hafter, hsame.trans hinFlight⟩,
      hsourced.moves hcodec hbefore hin htransactions hmoves⟩
  · rw [handled_start]
    exact ⟨⟨cluster, hbacking, rfl⟩, h⟩

/-- An HTTP request at a service. -/
theorem request [BlockCodec] (h : config.Sourced network)
    (hbacking : config.Backing network cluster) (info : NodeInfo)
    (saves : SaveOutcomes) {request : HttpRequest}
    (hgenuine : ∀ block ∈ request.submitted,
      config.cluster.Genuine network.released block) :
    config.Sourced (network.setService i
      ((network.services i).handleRequest info saves request).2) := by
  have hcases : ((network.services i).handleRequest info saves
        request).2.runtime = (network.services i).runtime ∨
      ∃ block ∈ request.submitted,
        ((network.services i).handleRequest info saves request).2.runtime =
          ((network.services i).runtime.applyBlock block saves).2 := by
    rw [NodeService.handleRequest]
    split
    · exact .inl rfl
    · exact (network.services i).runtime.handleRequest_submitted info saves
        request
  have hself : ∀ service : NodeService,
      (network.setService i service).services i = service := by
    intro service
    simp [Network.setService]
  refine h.update i (List.Subset.refl _) ?_ ?_ ?_ fun _ hframe => .inl hframe
  · intro j hj
    simp [Network.setService, hj]
  · rw [hself]
    intro tx htx
    rcases hcases with hsame | ⟨block, -, hchanged⟩
    · exact h.pending i tx (hsame ▸ htx)
    · rw [hchanged] at htx
      exact h.pending i tx (NodeRuntime.mem_pending_applyBlock htx)
  · rw [hself]
    intro other hother
    rcases hcases with hsame | ⟨block, hblock, hchanged⟩
    · exact .inl (hsame ▸ hother)
    · rw [hchanged] at hother
      have hinjected := hbacking.inject (hgenuine block hblock)
      exact (own_applyBlock hinjected List.mem_cons_self hother).imp_right
        fun hnot hproposes => absurd hproposes hnot

/-- An attempt to produce, with or without a block. -/
theorem produce (hcodec : WireCodec.RoundTrips)
    (h : config.Sourced network) (i : ι) (env : Environment)
    (listing : PeerListing) (clock : Except String UInt64) (entropy : ℕ) :
    config.Sourced (network.handled i
      ((Service.produceNow (config.services i) env listing clock
        entropy).after (Session.start (network.services i)))) := by
  have hservice := (Service.produceNow_spec (config.services i) env
    (network.services i) listing clock entropy).1
  have hframes : ∀ frame ∈ ((Service.produceNow (config.services i) env
      listing clock entropy).after
        (Session.start (network.services i))).frames,
      frameTransactions frame = [] := by
    intro frame hframe
    obtain ⟨height, block, -, -, hnone⟩ :=
      Backing.frameBlocks_of_produced hcodec hframe
    exact hnone
  generalize (Service.produceNow (config.services i) env listing clock
    entropy).after (Session.start (network.services i)) = s
    at hservice hframes
  have hcases : s.service.runtime = (network.services i).runtime ∨
      s.service.runtime = ((network.services i).runtime.produceOneBlock clock
        entropy env.saves).2 := by
    rw [hservice, NodeService.performCall]
    split
    · exact .inl rfl
    · exact .inr rfl
  refine h.update i (List.Subset.refl _)
    (fun j hj => handled_services_of_ne network hj s) ?_ ?_ ?_
  · rw [handled_services_self]
    intro tx htx
    rcases hcases with hsame | hproduced
    · exact h.pending i tx (hsame ▸ htx)
    · rw [hproduced] at htx
      exact h.pending i tx (NodeRuntime.mem_pending_produceOneBlock htx)
  · rw [handled_services_self]
    intro block hblock
    rcases hcases with hsame | hproduced
    · exact .inl (hsame ▸ hblock)
    · rw [hproduced] at hblock
      refine (NodeRuntime.transactions_of_produceOneBlock hblock).imp_right ?_
      intro hpending _ tx htx
      exact h.pending i tx (hpending ▸ htx)
  · intro frame hframe
    rcases List.mem_append.mp hframe with hnew | hold
    · rw [hframes frame hnew]
      exact .inr fun tx htx => absurd htx List.not_mem_nil
    · exact .inl hold

/-- A frame is handled as its message is, if it holds one. -/
theorem deliver (hcodec : WireCodec.RoundTrips) (h : config.Sourced network)
    (hbacking : config.Backing network cluster) (env : Environment)
    (source : SocketAddr) {frame : Bytes} (hsent : frame ∈ network.frames) :
    config.Sourced (network.handled i
      ((network.services i).handleFrame (config.services i) env source
        frame)) := by
  have hblocks := hbacking.carried frame hsent
  have htransactions := h.carried frame hsent
  rw [frameBlocks] at hblocks
  rw [frameTransactions] at htransactions
  rw [NodeService.handleFrame, Service.handleFrame]
  split
  · change config.Sourced (network.handled i
      (Session.start (network.services i)))
    rwa [handled_start]
  · split
    · change config.Sourced (network.handled i
        (Session.start (network.services i)))
      rwa [handled_start]
    · rename_i message hmessage
      rw [hmessage] at hblocks htransactions
      exact h.session hcodec hbacking hblocks htransactions
        Service.handleMessage_moves

variable [BlockCodec]

theorem step (hcodec : WireCodec.RoundTrips) {after : Network ι}
    (h : config.Sourced network) (hbacking : config.Backing network cluster)
    (hstep : config.Step network after) : config.Sourced after := by
  have hblocks : ∀ block ∈ WireMessage.presenceAnnounce.blocks,
      block ∈ cluster.inFlight := by
    simp [WireMessage.blocks]
  have htransactions : ∀ tx ∈ WireMessage.presenceAnnounce.transactions,
      tx ∈ network.submitted := by
    simp [WireMessage.transactions]
  cases hstep with
  | deliver i env source hsent =>
      exact h.deliver hcodec hbacking env source hsent
  | request i info saves request hgenuine =>
      exact h.request hbacking info saves hgenuine
  | @produce i env listing clock entropy height block hproduces =>
      have hproduced := h.produce hcodec i env listing clock entropy
      exact ⟨hproduced.pending, hproduced.carried, hproduced.own⟩
  | @attempt i env listing clock entropy hnothing =>
      exact h.produce hcodec i env listing clock entropy
  | requestTips i env listing =>
      exact h.session hcodec hbacking hblocks htransactions
        Service.broadcastTipRequests_moves
  | announcePresence i env =>
      exact h.session hcodec hbacking hblocks htransactions
        Service.broadcastPresenceAnnounces_moves
  | lose frame =>
      exact { h with
        carried := fun other hother =>
          h.carried other (List.mem_of_mem_erase hother) }
  | @inject frame hgenuine =>
      refine ⟨fun j tx htx => ?_, fun other hother tx htx => ?_,
        fun j block hblock hproposes tx htx => ?_⟩
      · exact List.mem_append_right _ (h.pending j tx htx)
      · rcases List.mem_cons.mp hother with rfl | hold
        · exact List.mem_append_left _ htx
        · exact List.mem_append_right _ (h.carried other hold tx htx)
      · exact List.mem_append_right _ (h.own j block hblock hproposes tx htx)

end Sourced

theorem Reachable.sourced [BlockCodec] (hcodec : WireCodec.RoundTrips)
    (h : config.Reachable network) : config.Sourced network := by
  induction h with
  | @start nodes fresh =>
      have hnodes : ∀ i, (nodes i).pendingTransactions = [] ∧
          (nodes i).blocks = [] := by
        intro i
        have hfresh := fresh i
        simp only [NodeConfig.runtime, bind_eq_ok, pure_eq_ok] at hfresh
        obtain ⟨consensus, -, hruntime⟩ := hfresh
        rw [← hruntime]
        exact ⟨rfl, rfl⟩
      refine ⟨fun i tx htx => ?_, fun frame hframe => ?_,
        fun i block hblock => ?_⟩
      · change tx ∈ (nodes i).pendingTransactions at htx
        rw [(hnodes i).1] at htx
        exact htx
      · exact absurd hframe List.not_mem_nil
      · change block ∈ (nodes i).blocks at hblock
        rw [(hnodes i).2] at hblock
        exact absurd hblock List.not_mem_nil
  | step past event ih =>
      obtain ⟨cluster, hbacking⟩ := past.backing hcodec
      exact ih.step hcodec hbacking event

/-- Every pending transaction was submitted from outside, and so was, up to its
witness, every transaction of every block of every node. -/
theorem transaction_provenance [BlockCodec] (hcodec : WireCodec.RoundTrips)
    (h : config.Reachable network) :
    (∀ i, ∀ tx ∈ (network.services i).runtime.pendingTransactions,
      tx ∈ network.submitted) ∧
    (CollisionFree {x | ∃ i, x ∈ hashedBy
        (network.services i).runtime.blocks} →
      ∀ i, ∀ block ∈ (network.services i).runtime.blocks,
        ∀ tx ∈ block.transactions,
          ∃ received ∈ network.submitted, received.core = tx.core) := by
  have hsourced := h.sourced hcodec
  refine ⟨hsourced.pending, fun hfree i block hblock tx htx => ?_⟩
  obtain ⟨cluster, hbacking⟩ := h.backing hcodec
  have hinv := hbacking.reachable.inv
  rw [← hbacking.nodes i] at hblock
  obtain ⟨n, hn⟩ := List.mem_iff_getElem?.mp hblock
  have hheader : (cluster.nodes i).headers[n]? = some block.header := by
    rw [NodeRuntime.headers, List.getElem?_map, hn, Option.map_some]
  -- The node whose turn it was made a block with the same header.
  obtain ⟨j, hproposes, howned⟩ := hinv.owned i n block.header hheader
  rw [NodeRuntime.headers, List.getElem?_map, Option.map_eq_some_iff] at howned
  obtain ⟨original, horiginal, hsame⟩ := howned
  have hmem := List.mem_of_getElem? horiginal
  have hcores := hinv.cores_eq (hfree.mono ?_) hblock hmem hsame.symm
  · have hcore := List.mem_map_of_mem (f := Transaction.core) htx
    rw [hcores] at hcore
    obtain ⟨received, hreceived, hcore⟩ := List.mem_map.mp hcore
    rw [← hsame] at hproposes
    rw [hbacking.nodes j] at hmem
    exact ⟨received, hsourced.own j original hmem hproposes received hreceived,
      hcore⟩
  · rintro x (hx | hx)
    · exact ⟨i, hbacking.nodes i ▸ hx⟩
    · exact ⟨j, hbacking.nodes j ▸ hx⟩

end Deployment

/-! ## A submitted transaction -/

section SubmittedTransfer

open scoped StandIns

local instance provenanceCodec : WireCodec := submissionCodec

/-- The first validator takes the frame of a client as its transaction. -/
theorem freshService_runtime :
    ((NodeService.new (freshNodes true)).handleFrame (twoServices.services true)
      StandIns.workingEnvironment secondPeerAddr submissionFrame).runtime =
        ((freshNodes true).acceptTransaction emptyTransfer).2 := by
  have hframe : (NodeService.new (freshNodes true)).handleFrame
      (twoServices.services true) StandIns.workingEnvironment secondPeerAddr
        submissionFrame =
      (Service.handleMessage (twoServices.services true)
        StandIns.workingEnvironment secondPeerAddr
          (.submitTransaction emptyTransfer)).after
        (Session.start (NodeService.new (freshNodes true))) := by
    rw [NodeService.handleFrame, Service.handleFrame, decode_submissionFrame]
    rfl
  rw [hframe]
  exact Service.runtime_of_submitted (twoServices.services true)
    StandIns.workingEnvironment secondPeerAddr freshService_acceptsNew

theorem freshService_submission :
    ((NodeService.new (freshNodes true)).handleFrame (twoServices.services true)
      StandIns.workingEnvironment secondPeerAddr
        submissionFrame).runtime.pendingTransactions = [emptyTransfer] := by
  rw [freshService_runtime]
  decide +kernel

/-- A client submits a transaction to the first validator, and the second one
does not learn of it. -/
theorem submittedTransfer_provenance :
    ∃ network, twoServices.Reachable network ∧
      network.submitted = [emptyTransfer] ∧
      (network.services true).runtime.pendingTransactions = [emptyTransfer] ∧
      ∀ first, ∀ tx ∈ (network.services first).runtime.pendingTransactions,
        tx = emptyTransfer := by
  have htransactions : frameTransactions submissionFrame = [emptyTransfer] := by
    rw [frameTransactions, decode_submissionFrame]
    rfl
  have hgenuine : ∀ block ∈ frameBlocks submissionFrame,
      twoServices.cluster.Genuine [] block := by
    rw [frameBlocks, decode_submissionFrame]
    exact fun block hblock => absurd hblock List.not_mem_nil
  have hsent := (twoServices_start.step (.inject hgenuine)).step (.deliver true
    StandIns.workingEnvironment secondPeerAddr List.mem_cons_self)
  have hprovenance := (Deployment.transaction_provenance
    submissionTable_roundTrips hsent).1
  generalize hnetwork : Network.handled _ true _ = network at hsent hprovenance
  have hsubmitted : network.submitted = [emptyTransfer] := by
    rw [← hnetwork, ← htransactions]
    exact List.append_nil _
  rw [hsubmitted] at hprovenance
  refine ⟨network, hsent, hsubmitted, ?_, fun first tx htx =>
    List.mem_singleton.mp (hprovenance first tx htx)⟩
  rw [← hnetwork, Deployment.handled_services_self]
  exact freshService_submission

end SubmittedTransfer

end QCoin
