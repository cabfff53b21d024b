import QCoin.Node.Contents
import QCoin.Node.Events
import QCoin.Node.HttpSync

/-!
# A network of services

The services of a cluster exchange frames over a network which may lose,
duplicate, delay and reorder them, misstate their source, and carry frames of
its own; HTTP requests and timers come at any time.  A network refines the
cluster of its runtimes: what a service does with a frame is a sequence of
cluster steps on blocks which are in flight there.
-/

namespace QCoin

open Support
open Support.Result
open Support.Stateful

/-! ## Networks -/

/-- A cluster whose nodes run as services. -/
structure Deployment (ι : Type) where
  cluster : ClusterConfig ι
  services : ι → ServiceConfig

/-- The services, the headers which nodes released by sending a block they
produced, the transactions which came from outside, and the frames in
flight. -/
structure Network (ι : Type) where
  services : ι → NodeService
  released : List (ι × BlockHeader)
  submitted : List Transaction
  frames : List Bytes

section Frames

variable [WireCodec]

/-- The frames of a session, whatever the network reported about them. -/
def Session.frames (s : Session) : List Bytes :=
  s.sent.filterMap fun transmission => transmission.message.encode.toOption

/-- What a frame carries is what its message carries. -/
theorem frame_payloads (hcodec : WireCodec.RoundTrips)
    {message : WireMessage} {frame : Bytes} (h : message.encode = .ok frame) :
    frameBlocks frame = message.blocks ∧
      frameTransactions frame = message.transactions := by
  rw [frameBlocks, frameTransactions, WireMessage.decode_encode hcodec h]
  exact ⟨rfl, rfl⟩

theorem Session.exists_message_of_mem_frames (hcodec : WireCodec.RoundTrips)
    {s : Session} {frame : Bytes} (h : frame ∈ s.frames) :
    ∃ transmission ∈ s.sent,
      frameBlocks frame = transmission.message.blocks ∧
      frameTransactions frame = transmission.message.transactions := by
  obtain ⟨transmission, hsent, hframe⟩ := List.mem_filterMap.mp h
  refine ⟨transmission, hsent, ?_⟩
  cases hencode : transmission.message.encode with
  | error err => simp [hencode, Except.toOption] at hframe
  | ok encoded =>
      rw [hencode] at hframe
      obtain rfl : encoded = frame := Option.some.inj hframe
      exact frame_payloads hcodec hencode

/-- A transmission adds at most its own frame. -/
theorem Session.mem_frames_record (hcodec : WireCodec.RoundTrips)
    {s : Session} {transmission : Transmission} {frame : Bytes}
    (h : frame ∈ (s.record transmission).frames) :
    frame ∈ s.frames ∨
      (frameBlocks frame = transmission.message.blocks ∧
        frameTransactions frame = transmission.message.transactions) := by
  rw [frames, record, List.filterMap_append, List.mem_append] at h
  refine h.imp_right fun hnew => ?_
  cases hencode : transmission.message.encode with
  | error err => simp [hencode, Except.toOption] at hnew
  | ok encoded =>
      have hsame : frame = encoded := by
        simpa [hencode, Except.toOption] using hnew
      exact hsame ▸ frame_payloads hcodec hencode

end Frames

namespace Network

variable {ι : Type} [DecidableEq ι]

def setService (network : Network ι) (i : ι) (service : NodeService) :
    Network ι :=
  { network with services := Function.update network.services i service }

@[simp] theorem setService_services_self (network : Network ι) (i : ι)
    (service : NodeService) :
    (network.setService i service).services i = service := by
  simp [setService]

theorem setService_services_of_ne (network : Network ι) {i j : ι}
    (h : j ≠ i) (service : NodeService) :
    (network.setService i service).services j = network.services j := by
  simp [setService, h]

/-- The network after a session of service `i`. -/
def handled [WireCodec] (network : Network ι) (i : ι) (s : Session) :
    Network ι :=
  { network.setService i s.service with
    frames := s.frames ++ network.frames }

end Network

namespace Deployment

variable [Blake3] [Bincode] [PqCrypto] [WireCodec] [BlockCodec]
  {ι : Type} [DecidableEq ι]

/-- One event of the network. -/
inductive Step (config : Deployment ι) : Network ι → Network ι → Prop where
  /-- The frame stays in flight and may arrive again, from any source. -/
  | deliver {network : Network ι} (i : ι) (env : Environment)
      (source : SocketAddr) {frame : Bytes} (sent : frame ∈ network.frames) :
      Step config network (network.handled i
        ((network.services i).handleFrame (config.services i) env source
          frame))
  | request {network : Network ι} (i : ι) (info : NodeInfo)
      (saves : SaveOutcomes) (request : HttpRequest)
      (genuine : ∀ block ∈ request.submitted,
        config.cluster.Genuine network.released block) :
      Step config network (network.setService i
        ((network.services i).handleRequest info saves request).2)
  /-- A block is sent after it was produced, and its header is thereby
  released. -/
  | produce {network : Network ι} (i : ι) (env : Environment)
      (listing : PeerListing) {clock : Except String UInt64} {entropy : ℕ}
      {height : UInt64} {block : Block}
      (produced : (network.services i).Produces env clock entropy height
        block) :
      Step config network
        { network.handled i ((Service.produceNow (config.services i) env
            listing clock entropy).after
              (Session.start (network.services i))) with
          released := (i, block.header) :: network.released }
  | attempt {network : Network ι} (i : ι) (env : Environment)
      (listing : PeerListing) {clock : Except String UInt64} {entropy : ℕ}
      (nothing : ∀ height block,
        ¬(network.services i).Produces env clock entropy height block) :
      Step config network (network.handled i
        ((Service.produceNow (config.services i) env listing clock
          entropy).after (Session.start (network.services i))))
  | requestTips {network : Network ι} (i : ι) (env : Environment)
      (listing : PeerListing) :
      Step config network (network.handled i
        ((Service.broadcastTipRequests (config.services i) env listing).after
          (Session.start (network.services i))))
  | announcePresence {network : Network ι} (i : ι) (env : Environment) :
      Step config network (network.handled i
        ((Service.broadcastPresenceAnnounces (config.services i) env).after
          (Session.start (network.services i))))
  | lose {network : Network ι} (frame : Bytes) :
      Step config network { network with
        frames := network.frames.erase frame }
  /-- A frame from elsewhere; its transactions count as submitted. -/
  | inject {network : Network ι} {frame : Bytes}
      (genuine : ∀ block ∈ frameBlocks frame,
        config.cluster.Genuine network.released block) :
      Step config network { network with
        frames := frame :: network.frames
        submitted := frameTransactions frame ++ network.submitted }

/-- Networks reached from services whose nodes have no blocks. -/
inductive Reachable (config : Deployment ι) : Network ι → Prop where
  | start {nodes : ι → NodeRuntime}
      (fresh : ∀ i, (config.cluster.members i).runtime
        (defaultChainStateWithId config.cluster.chainId) [] =
          .ok (nodes i)) :
      Reachable config ⟨fun i => NodeService.new (nodes i), [], [], []⟩
  | step {network after : Network ι} (past : Reachable config network)
      (event : config.Step network after) : Reachable config after

/-! ## Refinement -/

variable {config : Deployment ι}

/-- The cluster of the runtimes.  Its blocks in flight are never lost: a block
which is held or carried can still be sent. -/
structure Backing (config : Deployment ι) (network : Network ι)
    (cluster : Cluster ι) : Prop where
  reachable : config.cluster.Reachable cluster
  nodes : ∀ i, cluster.nodes i = (network.services i).runtime
  released : cluster.released = network.released
  held : ∀ i, (network.services i).runtimePoisoned = false →
    ∀ block ∈ (network.services i).runtime.blocks, block ∈ cluster.inFlight
  carried : ∀ frame ∈ network.frames, ∀ block ∈ frameBlocks frame,
    block ∈ cluster.inFlight

section Refinement

omit [BlockCodec]

section Handled

omit [Blake3] [Bincode] [PqCrypto]

/-- Nothing has happened at the start of a session. -/
theorem handled_start (network : Network ι) (i : ι) :
    network.handled i (Session.start (network.services i)) = network := by
  rw [Network.handled, Network.setService]
  simp [Session.frames, Session.start]

@[simp] theorem handled_services_self (network : Network ι) (i : ι)
    (s : Session) : (network.handled i s).services i = s.service := by
  simp [Network.handled, Network.setService]

theorem handled_services_of_ne (network : Network ι) {i j : ι}
    (h : j ≠ i) (s : Session) :
    (network.handled i s).services j = network.services j := by
  simp [Network.handled, Network.setService, h]

end Handled

namespace Backing

variable {network network' : Network ι} {cluster : Cluster ι} {i : ι}

/-- The runtime of one service moves by a step of the cluster, or it stays. -/
theorem update (h : config.Backing network cluster)
    (runtime : NodeRuntime)
    (hstep : runtime = cluster.nodes i ∨
      config.cluster.Step cluster (cluster.setNode i runtime))
    (hself : (network'.services i).runtime = runtime)
    (hothers : ∀ j, j ≠ i → network'.services j = network.services j)
    (hreleased : network'.released = network.released)
    (hheld : (network'.services i).runtimePoisoned = false →
      ∀ block ∈ runtime.blocks, block ∈ cluster.inFlight)
    (hframes : ∀ frame ∈ network'.frames, frame ∈ network.frames ∨
      ∀ block ∈ frameBlocks frame, block ∈ cluster.inFlight) :
    config.Backing network' (cluster.setNode i runtime) := by
  refine ⟨?_, fun j => ?_, h.released.trans hreleased.symm, fun j => ?_, ?_⟩
  · rcases hstep with rfl | hstep
    · have hsame : cluster.setNode i (cluster.nodes i) = cluster := by
        rw [Cluster.setNode, Function.update_eq_self]
      rw [hsame]
      exact h.reachable
    · exact h.reachable.step hstep
  · by_cases hj : j = i
    · rw [hj, Cluster.setNode_nodes_self, hself]
    · rw [Cluster.setNode_nodes_of_ne cluster hj, hothers j hj, h.nodes j]
  · by_cases hj : j = i
    · rw [hj, hself]
      exact hheld
    · rw [hothers j hj]
      exact h.held j
  · intro frame hframe
    rcases hframes frame hframe with hold | hnew
    · exact h.carried frame hold
    · exact hnew

/-- One step of a session on a message whose blocks are in flight. -/
theorem moves (hcodec : WireCodec.RoundTrips) {message : WireMessage}
    {s s' : Session} (h : config.Backing (network.handled i s) cluster)
    (hmessage : ∀ block ∈ message.blocks, block ∈ cluster.inFlight)
    (hmoves : Session.Moves message s s') :
    ∃ cluster', config.Backing (network.handled i s') cluster' ∧
      cluster'.inFlight = cluster.inFlight := by
  have hnode : cluster.nodes i = s.runtime := by
    rw [h.nodes i, handled_services_self]
    rfl
  have hothers : ∀ j, j ≠ i → (network.handled i s').services j =
      (network.handled i s).services j := by
    intro j hj
    rw [handled_services_of_ne network hj, handled_services_of_ne network hj]
  have hheld : s.service.runtimePoisoned = false →
      ∀ block ∈ s.runtime.blocks, block ∈ cluster.inFlight := by
    have hself := h.held i
    rwa [handled_services_self] at hself
  cases hmoves with
  | quiet hruntime hsent hpoisoned =>
      refine ⟨_, h.update s.runtime (.inl hnode.symm)
        (by rw [handled_services_self]; exact hruntime) hothers rfl ?_ ?_, rfl⟩
      · rw [handled_services_self, hpoisoned]
        exact hheld
      · intro frame hframe
        rw [Network.handled, Session.frames, hsent] at hframe
        exact .inl hframe
  | searchPanicked _ =>
      refine ⟨_, h.update s.runtime (.inl hnode.symm)
        (by rw [handled_services_self]; rfl) hothers rfl ?_
        fun _ hframe => .inl hframe, rfl⟩
      rw [handled_services_self]
      exact fun hpoison => nomatch hpoison
  | transmitted transmission has =>
      refine ⟨_, h.update s.runtime (.inl hnode.symm)
        (by rw [handled_services_self]; rfl) hothers rfl ?_ ?_, rfl⟩
      · rw [handled_services_self]
        exact hheld
      · intro frame hframe
        rcases List.mem_append.mp hframe with hsession | hold
        · refine (Session.mem_frames_record hcodec hsession).imp
            (fun hbefore => List.mem_append_left _ hbefore) ?_
          rintro ⟨hblocks, -⟩ block hblock
          obtain ⟨hhealthy, hmem⟩ := has.blocks block (hblocks ▸ hblock)
          exact hheld hhealthy block hmem
        · exact .inl (List.mem_append_right _ hold)
  | @blockApplied block saves received healthy =>
      refine ⟨_, h.update
        (s.runtime.applyBlock block saves).2 (.inr ?_)
        (by rw [handled_services_self]; rfl) hothers rfl ?_
        fun _ hframe => .inl hframe, rfl⟩
      · rw [← hnode]
        exact .deliver i saves (hmessage block received)
      · intro _ other hother
        rcases NodeRuntime.mem_blocks_applyBlock hother with hold | rfl
        · exact hheld healthy other hold
        · exact hmessage other received
  | @transactionAccepted tx received healthy =>
      refine ⟨_, h.update
        (s.runtime.acceptTransaction tx).2 (.inr ?_)
        (by rw [handled_services_self]; rfl) hothers rfl ?_
        fun _ hframe => .inl hframe, rfl⟩
      · rw [← hnode]
        exact .acceptTransaction i tx
      · intro _ other hother
        rw [NodeRuntime.acceptTransaction_blocks] at hother
        exact hheld healthy other hother

/-- A whole session. -/
theorem session (hcodec : WireCodec.RoundTrips) {message : WireMessage}
    {α : Type} {x : ServiceM α} (h : config.Backing network cluster)
    (hmessage : ∀ block ∈ message.blocks, block ∈ cluster.inFlight)
    (hmoving : Service.Moving message x
      (Session.start (network.services i))) :
    ∃ cluster', config.Backing (network.handled i
        (x.after (Session.start (network.services i)))) cluster' ∧
      cluster'.inFlight = cluster.inFlight := by
  refine hmoving.invariant (fun s => ∃ cluster',
    config.Backing (network.handled i s) cluster' ∧
      cluster'.inFlight = cluster.inFlight) ?_ ?_
  · rintro s s' hmoves ⟨before, hbefore, hinFlight⟩
    obtain ⟨after, hafter, hsame⟩ := hbefore.moves hcodec
      (by rw [hinFlight]; exact hmessage) hmoves
    exact ⟨after, hafter, hsame.trans hinFlight⟩
  · rw [handled_start]
    exact ⟨cluster, h, rfl⟩

/-- A genuine block may be in flight. -/
theorem inject (h : config.Backing network cluster) {block : Block}
    (hgenuine : config.cluster.Genuine network.released block) :
    config.Backing network
      { cluster with inFlight := block :: cluster.inFlight } where
  reachable := h.reachable.step (.inject (h.released ▸ hgenuine))
  nodes := h.nodes
  released := h.released
  held j hhealthy other hother := List.mem_cons_of_mem _
    (h.held j hhealthy other hother)
  carried frame hframe other hother := List.mem_cons_of_mem _
    (h.carried frame hframe other hother)

theorem injectAll (h : config.Backing network cluster) {blocks : List Block}
    (hgenuine : ∀ block ∈ blocks,
      config.cluster.Genuine network.released block) :
    config.Backing network
      { cluster with inFlight := blocks.reverse ++ cluster.inFlight } := by
  induction blocks generalizing cluster with
  | nil => exact h
  | cons block blocks ih =>
      have hrest := ih (h.inject (hgenuine block List.mem_cons_self))
        fun other hother => hgenuine other (List.mem_cons_of_mem block hother)
      rw [List.reverse_cons, List.append_assoc, List.singleton_append]
      exact hrest

/-- An HTTP request at a service. -/
theorem request [BlockCodec] (h : config.Backing network cluster)
    (info : NodeInfo) (saves : SaveOutcomes) {request : HttpRequest}
    (hgenuine : ∀ block ∈ request.submitted,
      config.cluster.Genuine network.released block) :
    ∃ cluster', config.Backing (network.setService i
      ((network.services i).handleRequest info saves request).2) cluster' := by
  have hothers : ∀ service, ∀ j, j ≠ i →
      (network.setService i service).services j = network.services j := by
    intro service j hj
    simp [Network.setService, hj]
  rw [NodeService.handleRequest]
  split
  · refine ⟨_, h.update (network.services i).runtime
      (.inl (h.nodes i).symm) (by simp [Network.setService]) (hothers _) rfl ?_
      fun _ hframe => .inl hframe⟩
    simp only [Network.setService, Function.update_self]
    exact h.held i
  · rename_i hpoison
    have hheld := h.held i (Bool.eq_false_of_not_eq_true hpoison)
    rcases (network.services i).runtime.handleRequest_submitted info saves
      request with hsame | ⟨block, hblock, hchanged⟩
    · refine ⟨_, h.update (network.services i).runtime
        (.inl (h.nodes i).symm) ?_ (hothers _) rfl (fun _ => hheld)
        fun _ hframe => .inl hframe⟩
      simpa [Network.setService] using hsame
    · refine ⟨_, (h.inject (hgenuine block hblock)).update
        ((network.services i).runtime.applyBlock block saves).2
        (.inr ?_) ?_ (hothers _) rfl ?_ fun _ hframe => .inl hframe⟩
      · rw [← h.nodes i]
        exact .deliver i saves List.mem_cons_self
      · simpa [Network.setService] using hchanged
      · intro _ other hother
        rcases NodeRuntime.mem_blocks_applyBlock hother with hold | rfl
        · exact List.mem_cons_of_mem _ (hheld other hold)
        · exact List.mem_cons_self

/-- The frames of a production carry the produced block. -/
theorem frameBlocks_of_produced (hcodec : WireCodec.RoundTrips)
    {serviceConfig : ServiceConfig} {env : Environment}
    {listing : PeerListing} {service : NodeService}
    {clock : Except String UInt64} {entropy : ℕ} {frame : Bytes}
    (hframe : frame ∈ ((Service.produceNow serviceConfig env listing clock
      entropy).after (Session.start service)).frames) :
    ∃ height block, service.Produces env clock entropy height block ∧
      frameBlocks frame = [block] ∧ frameTransactions frame = [] := by
  obtain ⟨transmission, hsent, hblocks, htransactions⟩ :=
    Session.exists_message_of_mem_frames hcodec hframe
  obtain ⟨height, block, hproduces, hmessage⟩ :=
    (Service.produceNow_spec serviceConfig env service listing clock
      entropy).2 transmission hsent
  refine ⟨height, block, hproduces, ?_, ?_⟩
  · rw [hblocks, hmessage]
    rfl
  · rw [htransactions, hmessage]
    rfl

theorem produce (hcodec : WireCodec.RoundTrips)
    (h : config.Backing network cluster) (env : Environment)
    (listing : PeerListing) {clock : Except String UInt64} {entropy : ℕ}
    {height : UInt64} {block : Block}
    (hproduces : (network.services i).Produces env clock entropy height
      block) :
    ∃ cluster', config.Backing
      { network.handled i ((Service.produceNow (config.services i) env
          listing clock entropy).after
            (Session.start (network.services i))) with
        released := (i, block.header) :: network.released } cluster' := by
  obtain ⟨hhealthy, hresult⟩ := hproduces
  have hservice := (Service.produceNow_spec (config.services i) env
    (network.services i) listing clock entropy).1
  rw [NodeService.performCall, hhealthy, if_neg Bool.false_ne_true] at hservice
  generalize hs : (Service.produceNow (config.services i) env listing clock
    entropy).after (Session.start (network.services i)) = s at hservice
  have hproduced : (cluster.nodes i).produceOneBlock clock entropy env.saves =
      (.ok (some (height, block)), s.service.runtime) := by
    rw [h.nodes i, hservice, ← hresult]
    rfl
  refine ⟨_, ⟨h.reachable.step (.produce i hproduced), fun j => ?_, ?_,
    fun j => ?_, ?_⟩⟩
  · by_cases hj : j = i
    · subst hj
      change (cluster.setNode j s.service.runtime).nodes j =
        ((network.handled j s).services j).runtime
      rw [Cluster.setNode_nodes_self, handled_services_self]
    · change (cluster.setNode i s.service.runtime).nodes j =
        ((network.handled i s).services j).runtime
      rw [Cluster.setNode_nodes_of_ne cluster hj,
        handled_services_of_ne network hj, h.nodes j]
  · exact congrArg ((i, block.header) :: ·) h.released
  · by_cases hj : j = i
    · subst hj
      change ((network.handled j s).services j).runtimePoisoned = false →
        ∀ other ∈ ((network.handled j s).services j).runtime.blocks,
          other ∈ block :: cluster.inFlight
      rw [handled_services_self, hservice]
      intro _ other hother
      rcases NodeRuntime.mem_blocks_produceOneBlock hresult hother with
        hold | rfl
      · exact List.mem_cons_of_mem _ (h.held j hhealthy other hold)
      · exact List.mem_cons_self
    · change ((network.handled i s).services j).runtimePoisoned = false →
        ∀ other ∈ ((network.handled i s).services j).runtime.blocks,
          other ∈ block :: cluster.inFlight
      rw [handled_services_of_ne network hj]
      exact fun hother other hmem => List.mem_cons_of_mem _
        (h.held j hother other hmem)
  · intro frame hframe other hother
    rcases List.mem_append.mp hframe with hnew | hold
    · rw [← hs] at hnew
      obtain ⟨height', block', hproduces', hblocks, -⟩ :=
        frameBlocks_of_produced hcodec hnew
      have hsame := hproduces'.2.symm.trans hresult
      rw [Except.ok.injEq, Option.some.injEq, Prod.mk.injEq] at hsame
      rw [hblocks, List.mem_singleton] at hother
      rw [hother, hsame.2]
      exact List.mem_cons_self
    · exact List.mem_cons_of_mem _ (h.carried frame hold other hother)

/-- An attempt which gives no block. -/
theorem attempt (hcodec : WireCodec.RoundTrips)
    (h : config.Backing network cluster) (env : Environment)
    (listing : PeerListing) {clock : Except String UInt64} {entropy : ℕ}
    (hnothing : ∀ height block,
      ¬(network.services i).Produces env clock entropy height block) :
    ∃ cluster', config.Backing (network.handled i
      ((Service.produceNow (config.services i) env listing clock
        entropy).after (Session.start (network.services i)))) cluster' := by
  have hservice := (Service.produceNow_spec (config.services i) env
    (network.services i) listing clock entropy).1
  have hframes : ∀ frame ∈ ((Service.produceNow (config.services i) env
      listing clock entropy).after
        (Session.start (network.services i))).frames, False := by
    intro frame hframe
    obtain ⟨height, block, hproduces, -⟩ :=
      frameBlocks_of_produced hcodec hframe
    exact hnothing height block hproduces
  generalize (Service.produceNow (config.services i) env listing clock
    entropy).after (Session.start (network.services i)) = s
    at hservice hframes
  have hothers : ∀ j, j ≠ i → (network.handled i s).services j =
      network.services j := fun j hj => handled_services_of_ne network hj s
  have hcarried : ∀ frame ∈ (network.handled i s).frames,
      frame ∈ network.frames ∨
        ∀ block ∈ frameBlocks frame, block ∈ cluster.inFlight := by
    intro frame hframe
    rcases List.mem_append.mp hframe with hnew | hold
    · exact absurd hnew (hframes frame)
    · exact .inl hold
  rw [NodeService.performCall] at hservice
  split at hservice
  · refine ⟨_, h.update s.service.runtime (.inl ?_)
      (by rw [handled_services_self]) hothers rfl ?_ hcarried⟩
    · rw [hservice, h.nodes i]
    · rw [handled_services_self, hservice]
      exact h.held i
  · rename_i hpoison
    have hhealthy := Bool.eq_false_of_not_eq_true hpoison
    have hnone : ∀ produced, ((network.services i).runtime.produceOneBlock
        clock entropy env.saves).1 ≠ .ok (some produced) :=
      fun produced hproduced =>
        hnothing produced.1 produced.2 ⟨hhealthy, hproduced⟩
    refine ⟨_, h.update s.service.runtime (.inr ?_)
      (by rw [handled_services_self]) hothers rfl ?_ hcarried⟩
    · have hattempted : (cluster.nodes i).produceOneBlock clock entropy
          env.saves = (((network.services i).runtime.produceOneBlock clock
            entropy env.saves).1, s.service.runtime) := by
        rw [h.nodes i, hservice]
        rfl
      exact .attempt i hattempted hnone
    · rw [handled_services_self, hservice]
      intro hsurvived block hblock
      change block ∈ ((network.services i).runtime.produceOneBlock clock
        entropy env.saves).2.blocks at hblock
      rw [NodeRuntime.produceOneBlock_blocks hnone hsurvived] at hblock
      exact h.held i hhealthy block hblock

/-- A frame is handled as its message is, if it holds one. -/
theorem deliver (hcodec : WireCodec.RoundTrips)
    (h : config.Backing network cluster) (env : Environment)
    (source : SocketAddr) {frame : Bytes} (hsent : frame ∈ network.frames) :
    ∃ cluster', config.Backing (network.handled i
      ((network.services i).handleFrame (config.services i) env source
        frame)) cluster' := by
  have hcarried := h.carried frame hsent
  rw [frameBlocks] at hcarried
  rw [NodeService.handleFrame, Service.handleFrame]
  split
  · refine ⟨cluster, ?_⟩
    change config.Backing (network.handled i
      (Session.start (network.services i))) cluster
    rwa [handled_start]
  · split
    · refine ⟨cluster, ?_⟩
      change config.Backing (network.handled i
        (Session.start (network.services i))) cluster
      rwa [handled_start]
    · rename_i message hmessage
      rw [hmessage] at hcarried
      obtain ⟨after, hafter, -⟩ := h.session hcodec hcarried
        Service.handleMessage_moves
      exact ⟨after, hafter⟩

end Backing

end Refinement

/-- Every event of the network is backed by steps of the cluster. -/
theorem Backing.step (hcodec : WireCodec.RoundTrips)
    {network after : Network ι} {cluster : Cluster ι}
    (h : config.Backing network cluster) (hstep : config.Step network after) :
    ∃ cluster', config.Backing after cluster' := by
  have hquiet : ∀ block ∈ WireMessage.presenceAnnounce.blocks,
      block ∈ cluster.inFlight := by
    simp [WireMessage.blocks]
  cases hstep with
  | deliver i env source hsent => exact h.deliver hcodec env source hsent
  | request i info saves request hgenuine =>
      exact h.request info saves hgenuine
  | produce i env listing hproduces =>
      exact h.produce hcodec env listing hproduces
  | attempt i env listing hnothing =>
      exact h.attempt hcodec env listing hnothing
  | requestTips i env listing =>
      obtain ⟨cluster', hafter, -⟩ := h.session hcodec hquiet
        Service.broadcastTipRequests_moves
      exact ⟨cluster', hafter⟩
  | announcePresence i env =>
      obtain ⟨cluster', hafter, -⟩ := h.session hcodec hquiet
        Service.broadcastPresenceAnnounces_moves
      exact ⟨cluster', hafter⟩
  | lose frame =>
      exact ⟨cluster, { h with
        carried := fun other hother =>
          h.carried other (List.mem_of_mem_erase hother) }⟩
  | @inject frame hgenuine =>
      have hinjected := h.injectAll hgenuine
      refine ⟨_, ⟨hinjected.reachable, hinjected.nodes, hinjected.released,
        hinjected.held, fun other hother => ?_⟩⟩
      rcases List.mem_cons.mp hother with rfl | hold
      · exact fun block hblock => List.mem_append_left _
          (List.mem_reverse.mpr hblock)
      · exact hinjected.carried other hold

/-- A network refines the cluster of its runtimes. -/
theorem Reachable.backing (hcodec : WireCodec.RoundTrips)
    {network : Network ι} (h : config.Reachable network) :
    ∃ cluster, config.Backing network cluster := by
  induction h with
  | @start nodes fresh =>
      have hblocks : ∀ i, (nodes i).blocks = [] := by
        intro i
        have hfresh := fresh i
        simp only [NodeConfig.runtime, bind_eq_ok, pure_eq_ok] at hfresh
        obtain ⟨consensus, -, hruntime⟩ := hfresh
        rw [← hruntime]
      refine ⟨⟨nodes, [], []⟩, .start fresh, fun _ => rfl, rfl, ?_, ?_⟩
      · intro i _ block hblock
        change block ∈ (nodes i).blocks at hblock
        rw [hblocks i] at hblock
        exact absurd hblock List.not_mem_nil
      · exact fun _ hframe => absurd hframe List.not_mem_nil
  | step past event ih =>
      obtain ⟨cluster, hcluster⟩ := ih
      exact hcluster.step hcodec event

end Deployment

/-! ## Agreement -/

section Agreement

variable [Blake3] [Bincode] [PqCrypto]

/-- The transaction root of a block is that of its transactions. -/
theorem txRoot_of_rebuild {chainId : UInt32} {validators : List PublicKey}
    {chain : ChainState} {blocks : List Block} {block : Block}
    (h : rebuildChainStateFromBlocks blocks chainId validators = .ok chain)
    (hblock : block ∈ blocks) :
    computeTxRoot block.transactions = some block.header.txRoot := by
  obtain ⟨n, hn⟩ := List.mem_iff_getElem?.mp hblock
  obtain ⟨before, after, -, hvalid, -, -⟩ := rebuild_take h hn
  exact hvalid.txRoot

variable {ι : Type} {config : ClusterConfig ι} {cluster : Cluster ι} {i j : ι}

namespace ClusterConfig

/-- Blocks with one header have the same cores. -/
theorem Inv.cores_eq (h : config.Inv cluster)
    (hfree : CollisionFree (hashedBy (cluster.nodes i).blocks ∪
      hashedBy (cluster.nodes j).blocks))
    {block₁ block₂ : Block} (hi : block₁ ∈ (cluster.nodes i).blocks)
    (hj : block₂ ∈ (cluster.nodes j).blocks)
    (hheader : block₁.header = block₂.header) :
    block₁.transactions.map Transaction.core =
      block₂.transactions.map Transaction.core := by
  have hroot₁ := txRoot_of_rebuild (h.replayable i).rebuilt hi
  have hroot₂ := txRoot_of_rebuild (h.replayable j).rebuilt hj
  have hhashed : CollisionFree (block₁.hashed ∪ block₂.hashed) := by
    apply hfree.mono
    rintro x (hx | hx)
    · exact .inl ⟨block₁, hi, hx⟩
    · exact .inr ⟨block₂, hj, hx⟩
  exact cores_eq_of_txRoot_eq hhashed hroot₁ (hheader ▸ hroot₂)

/-- What two nodes commit to at one position is the same. -/
theorem Inv.commitments_agree (h : config.Inv cluster)
    (hfree : CollisionFree (hashedBy (cluster.nodes i).blocks ∪
      hashedBy (cluster.nodes j).blocks))
    {n : ℕ} {x y : BlockHeader × List TransactionCore}
    (hi : (commitments (cluster.nodes i).blocks)[n]? = some x)
    (hj : (commitments (cluster.nodes j).blocks)[n]? = some y) : x = y := by
  rw [commitments, List.getElem?_map, Option.map_eq_some_iff] at hi hj
  obtain ⟨block₁, hblock₁, rfl⟩ := hi
  obtain ⟨block₂, hblock₂, rfl⟩ := hj
  have hheader : block₁.header = block₂.header := by
    apply h.agree (i := i) (j := j) (n := n)
    · rw [NodeRuntime.headers, List.getElem?_map, hblock₁, Option.map_some]
    · rw [NodeRuntime.headers, List.getElem?_map, hblock₂, Option.map_some]
  rw [hheader, h.cores_eq hfree (List.mem_of_getElem? hblock₁)
    (List.mem_of_getElem? hblock₂) hheader]

/-- Nodes of one height whose histories commit to the same have one chain. -/
theorem Inv.chain_eq (h : config.Inv cluster)
    (hcommitments : commitments (cluster.nodes i).blocks =
      commitments (cluster.nodes j).blocks) :
    (cluster.nodes i).chain = (cluster.nodes j).chain := by
  have hrebuilt : ∀ k, rebuildChainStateFromBlocks (cluster.nodes k).blocks
      config.chainId config.validators = .ok (cluster.nodes k).chain := by
    intro k
    rw [← config.chainId_eq k, ← config.validators_eq k]
    exact (h.replayable k).rebuilt
  exact rebuild_eq_of_commitments_eq (hrebuilt i) (hrebuilt j) hcommitments

theorem Inv.length_commitments (h : config.Inv cluster) (i : ι) :
    (commitments (cluster.nodes i).blocks).length =
      (cluster.nodes i).chain.height.toNat := by
  rw [commitments, List.length_map, (h.replayable i).length_blocks]

end ClusterConfig

/-- The nodes of a network do not fork.  Without collisions their histories
commit to the same, and nodes of one height have one chain state. -/
theorem Deployment.network_agreement [WireCodec] [BlockCodec] [DecidableEq ι]
    {config : Deployment ι} {network : Network ι}
    (hcodec : WireCodec.RoundTrips) (h : config.Reachable network) (i j : ι) :
    let left := (network.services i).runtime
    let right := (network.services j).runtime
    (left.headers <+: right.headers ∨ right.headers <+: left.headers) ∧
    (CollisionFree (hashedBy left.blocks ∪ hashedBy right.blocks) →
      (commitments left.blocks <+: commitments right.blocks ∨
        commitments right.blocks <+: commitments left.blocks) ∧
      (left.chain.height = right.chain.height →
        left.chain = right.chain)) := by
  intro left right
  obtain ⟨cluster, hbacking⟩ := h.backing hcodec
  have hinv := hbacking.reachable.inv
  have hleft : cluster.nodes i = left := hbacking.nodes i
  have hright : cluster.nodes j = right := hbacking.nodes j
  rw [← hleft, ← hright]
  refine ⟨prefix_or_prefix_of_agree fun _ _ _ hi hj => hinv.agree hi hj, ?_⟩
  intro hfree
  have hcomparable := prefix_or_prefix_of_agree fun _ _ _ hi hj =>
    hinv.commitments_agree hfree hi hj
  refine ⟨hcomparable, fun hheight => hinv.chain_eq ?_⟩
  have hlength : (commitments (cluster.nodes i).blocks).length =
      (commitments (cluster.nodes j).blocks).length := by
    rw [hinv.length_commitments, hinv.length_commitments, hheight]
  rcases hcomparable with hle | hle
  · exact hle.eq_of_length hlength
  · exact (hle.eq_of_length hlength.symm).symm

end Agreement

/-! ## Two validators on a network -/

section TwoServices

open scoped StandIns

/-- The messages of the first block, from the validator to its only target. -/
def blockTable : List (WireMessage × Bytes) :=
  [(.presenceAnnounce, leBytes 4 0), (.tipRequest, leBytes 4 2),
    (.submitBlock (StandIns.emptyBlock 1),
      leBytes 4 6 ++ encodeEmptyBlock (StandIns.emptyBlock 1))]

local instance blockTableCodec : WireCodec := StandIns.tableCodec blockTable

theorem blockTable_roundTrips : WireCodec.RoundTrips :=
  StandIns.tableCodec_roundTrips (by decide)

def twoServices : Deployment Bool where
  cluster := twoValidators
  services _ := { StandIns.plainConfig with
    bootstrapTargets := [StandIns.peerAddr] }

theorem twoServices_start [WireCodec] : twoServices.Reachable
    ⟨fun first => NodeService.new (freshNodes first), [], [], []⟩ :=
  .start fun first => by cases first <;> rfl

theorem firstRequest_genuine {released : List (Bool × BlockHeader)}
    (h : (true, (StandIns.emptyBlock 1).header) ∈ released) :
    ∀ block ∈ firstRequest.submitted,
      twoServices.cluster.Genuine released block := by
  rintro block hblock i - hkey -
  obtain rfl : StandIns.emptyBlock 1 = block := Option.some.inj hblock
  cases i with
  | true => exact h
  | false => exact absurd hkey (by decide)

theorem freshService_produces (env : Environment)
    (hsaves : env.saves = StandIns.savesOk) :
    (NodeService.new (freshNodes true)).Produces env (.ok 1) 0 1
      (StandIns.emptyBlock 1) := by
  refine ⟨rfl, ?_⟩
  rw [hsaves]
  exact congrArg Prod.fst freshNodes_produce

/-- The second node accepts the block which the request submits. -/
theorem freshService_firstRequest :
    ((NodeService.new (freshNodes false)).handleRequest StandIns.peerInfo
      StandIns.savesOk firstRequest).2.runtime = firstNodes false := by
  have hfresh : freshNodes false = StandIns.freshRuntime 2 twoKeys := rfl
  rw [hfresh, freshService_handleRequest 2 twoKeys rfl]
  rfl

/-- The first validator sends the first block, and the second one gets it over
HTTP. -/
theorem twoServices_agreement :
    ∃ network, twoServices.Reachable network ∧
      (∀ first, (network.services first).runtime = firstNodes first) ∧
      (firstNodes true).chain = (firstNodes false).chain := by
  have hproduced := twoServices_start.step (.produce true
    StandIns.workingEnvironment plainListing (freshService_produces _ rfl))
  have hservice := (Service.produceNow_spec (twoServices.services true)
    StandIns.workingEnvironment (NodeService.new (freshNodes true))
    plainListing (.ok 1) 0).1
  generalize (Service.produceNow (twoServices.services true)
    StandIns.workingEnvironment plainListing (.ok 1) 0).after _ = session
    at hproduced hservice
  have hsent := hproduced.step (.request false StandIns.peerInfo
    StandIns.savesOk firstRequest
    (firstRequest_genuine List.mem_cons_self))
  have hnode : session.service.runtime = firstNodes true := by
    rw [hservice, NodeService.runtime_performCall rfl, NodeRuntime.perform]
    exact congrArg Prod.snd freshNodes_produce
  have hfree : CollisionFree (hashedBy [StandIns.emptyBlock 1] ∪
      hashedBy [StandIns.emptyBlock 1]) := by
    apply StandIns.emptyBlock_collisionFree.mono
    rw [Set.union_self]
    rintro x ⟨block, hblock, hx⟩
    exact emptyBlock_hashed (List.mem_singleton.mp hblock ▸ hx)
  generalize hnetwork : Network.setService _ false _ = network at hsent
  have hruntimes : ∀ first, (network.services first).runtime =
      firstNodes first := by
    intro first
    rw [← hnetwork]
    cases first with
    | true => exact hnode
    | false =>
        rw [Network.setService_services_self,
          Deployment.handled_services_of_ne _ Bool.false_ne_true,
          freshService_firstRequest]
  have hagree := Deployment.network_agreement blockTable_roundTrips hsent true
    false
  simp only [hruntimes] at hagree
  exact ⟨network, hsent, hruntimes, (hagree.2 hfree).2 rfl⟩

end TwoServices

end QCoin
