import QCoin.Node.Marker
import QCoin.Node.StandIns

/-!
# Synchronization with a peer

A node and a compatible peer joined by a network which drops, delays,
duplicates and reorders what it carries.  The node asks for a block once and
keeps a marker until a response comes, so a request or a response which is
lost while the marker stands is never made up for.
-/

namespace QCoin

open Support
open Support.Stateful

section Peers

variable [WireCodec]

/-! ## The node and its peer -/

/-- The node, the messages to the peer in transit and the frames of the peer
in transit. -/
structure World where
  service : NodeService
  toPeer : Multiset WireMessage
  fromPeer : Multiset Bytes

namespace World

def start (runtime : NodeRuntime) : World where
  service := NodeService.new runtime
  toPeer := 0
  fromPeer := 0

def height (world : World) : UInt64 :=
  world.service.runtime.chain.height

/-- The height of the block the node waits for. -/
def marker (world : World) (peer : SocketAddr) : Option UInt64 :=
  world.service.syncState.inFlightBlocks.lookup peer

def Known (world : World) (peer : SocketAddr) : Prop :=
  peer ∈ world.service.syncState.knownPeers

/-- A request of the node or a response of the peer is in transit. -/
def Busy (world : World) : Prop :=
  (∃ height, .blockRequest height ∈ world.toPeer) ∨
  ∃ frame ∈ world.fromPeer, ∃ height block,
    WireMessage.decode frame = .ok (.blockResponse height block)

inductive Event where
  /-- The peer sends a frame. -/
  | emit (frame : Bytes)
  /-- The peer takes a request and sends a response. -/
  | answer (height : UInt64) (frame : Bytes)
  | dropToPeer (message : WireMessage)
  | dropFromPeer (frame : Bytes)
  | duplicateToPeer (message : WireMessage)
  | duplicateFromPeer (frame : Bytes)
  /-- The node handles a frame of the peer. -/
  | deliver (env : Environment) (frame : Bytes)
  /-- The node handles a frame of another source. -/
  | other (env : Environment) (source : SocketAddr) (frame : Bytes)
  /-- Another part of the node calls the runtime. -/
  | call (call : NodeRuntime.Call)
  /-- The timers send presence announces, tip requests and produced blocks. -/
  | timer (message : WireMessage)

/-- The frame does not hold node information the node rejects. -/
def Compatible (world : World) (frame : Bytes) : Prop :=
  ∀ info, WireMessage.decode frame = .ok (.nodeInfo info) →
    ensureNodeInfoCompatible world.service.runtime.chain.chainId info = .ok ()

def Enabled (world : World) (peer : SocketAddr) : Event → Prop
  | .emit frame => world.Compatible frame
  | .answer height frame => .blockRequest height ∈ world.toPeer ∧
      ∃ block, WireMessage.decode frame = .ok (.blockResponse height block)
  | .dropToPeer message => message ∈ world.toPeer
  | .dropFromPeer frame => frame ∈ world.fromPeer
  | .duplicateToPeer message => message ∈ world.toPeer
  | .duplicateFromPeer frame => frame ∈ world.fromPeer
  | .deliver _ frame => frame ∈ world.fromPeer
  | .other _ source _ => source ≠ peer
  | .call _ => True
  | .timer message => message = .presenceAnnounce ∨ message = .tipRequest ∨
      ∃ block, message = .submitBlock block

end World

/-- The messages a session handed to the network for a peer. -/
def Session.sentTo (session : Session) (peer : SocketAddr) :
    Multiset WireMessage :=
  (session.sent.filter fun transmission =>
    transmission.target = peer ∧ transmission.outcome.isOk).map
      Transmission.message

namespace World

variable [Blake3] [Bincode] [PqCrypto]

/-- The node handles a frame and its messages get under way. -/
def handle (world : World) (config : ServiceConfig) (peer : SocketAddr)
    (env : Environment) (source : SocketAddr) (frame : Bytes) : World :=
  let session := world.service.handleFrame config env source frame
  { world with
    service := session.service
    toPeer := world.toPeer + session.sentTo peer }

def next (world : World) (config : ServiceConfig) (peer : SocketAddr) :
    Event → World
  | .emit frame => { world with fromPeer := frame ::ₘ world.fromPeer }
  | .answer height frame => { world with
      toPeer := world.toPeer.erase (.blockRequest height)
      fromPeer := frame ::ₘ world.fromPeer }
  | .dropToPeer message =>
      { world with toPeer := world.toPeer.erase message }
  | .dropFromPeer frame =>
      { world with fromPeer := world.fromPeer.erase frame }
  | .duplicateToPeer message =>
      { world with toPeer := message ::ₘ world.toPeer }
  | .duplicateFromPeer frame =>
      { world with fromPeer := frame ::ₘ world.fromPeer }
  | .deliver env frame =>
      { world with fromPeer := world.fromPeer.erase frame }.handle config peer
        env peer frame
  | .other env source frame => world.handle config peer env source frame
  | .call call => { world with service := world.service.performCall call }
  | .timer message => { world with toPeer := message ::ₘ world.toPeer }

/-- The worlds of the runs whose events are all admitted. -/
inductive Reaches (config : ServiceConfig) (peer : SocketAddr)
    (admits : World → Event → Prop) : World → Prop where
  | start (runtime : NodeRuntime) :
      Reaches config peer admits (World.start runtime)
  | step {world : World} (past : Reaches config peer admits world)
      (event : Event) (enabled : world.Enabled peer event)
      (admitted : admits world event) :
      Reaches config peer admits (world.next config peer event)

abbrev Reachable (config : ServiceConfig) (peer : SocketAddr) :
    World → Prop :=
  Reaches config peer fun _ _ => True

/-- No block request and no block response is lost, neither on the network nor
by a send which fails. -/
def Lossless (config : ServiceConfig) (peer : SocketAddr) (world : World) :
    Event → Prop
  | .dropToPeer message => ∀ height, message ≠ .blockRequest height
  | .dropFromPeer frame => ∀ height block,
      WireMessage.decode frame ≠ .ok (.blockResponse height block)
  | .deliver env frame =>
      ∀ transmission ∈ (world.service.handleFrame config env peer frame).sent,
        transmission.target = peer →
        (∃ height, transmission.message = .blockRequest height) →
          transmission.outcome = .ok ()
  | _ => True

end World

/-! ## Invariants of the runs -/

namespace World

variable [Blake3] [Bincode] [PqCrypto] {config : ServiceConfig}
  {peer : SocketAddr} {world : World}

/-- What holds in every world, whatever the network loses. -/
structure Inv (config : ServiceConfig) (peer : SocketAddr) (world : World) :
    Prop where
  gated : world.service.Gated config
  compatible : ∀ frame ∈ world.fromPeer, world.Compatible frame
  known : ∀ height, world.marker peer = some height → world.Known peer

/-- A marker of the peer stands only while a request or a response is in
transit. -/
def Tracked (peer : SocketAddr) (world : World) : Prop :=
  ∀ height, world.marker peer = some height → world.Busy

omit [WireCodec] [Blake3] [Bincode] [PqCrypto] in
theorem marker_start (runtime : NodeRuntime) :
    (World.start runtime).marker peer = none :=
  Finmap.lookup_empty peer

omit [Blake3] [Bincode] [PqCrypto] in
theorem inv_start (runtime : NodeRuntime) :
    (World.start runtime).Inv config peer where
  gated := SyncState.gate_new
  compatible _ h := absurd h (Multiset.notMem_zero _)
  known height h := by
    rw [marker_start] at h
    cases h

omit [Blake3] [Bincode] [PqCrypto] in
/-- The network changes and the node does not. -/
theorem Inv.carry {world' : World} (h : world.Inv config peer)
    (hservice : world'.service = world.service)
    (hframes : ∀ frame ∈ world'.fromPeer, world.Compatible frame) :
    world'.Inv config peer where
  gated := hservice ▸ h.gated
  compatible frame hframe := by
    rw [Compatible, hservice]
    exact hframes frame hframe
  known := by
    rw [marker, Known, hservice]
    exact h.known

theorem Inv.handle (h : world.Inv config peer) (env : Environment)
    {source : SocketAddr} {frame : Bytes}
    (hcompatible : source = peer → world.Compatible frame) :
    (world.handle config peer env source frame).Inv config peer where
  gated := NodeService.handleFrame_gated h.gated env source frame
  compatible frame' hframe' := by
    have hchain := world.service.handleFrame_chainId config env source frame
    intro info hinfo
    have hcompat := h.compatible frame' hframe' info hinfo
    rw [← hchain] at hcompat
    exact hcompat
  known height hmarker := by
    have hknown : world.Known peer := by
      have htracks :=
        world.service.handleFrame_tracks config peer env source frame
      rcases htracks.2 height hmarker with hold | ⟨rfl, hsource, -⟩
      · exact h.known height hold
      · exact hsource
    exact NodeService.handleFrame_stays_known env hknown hcompatible

theorem Inv.call (h : world.Inv config peer) (call : NodeRuntime.Call) :
    { world with service := world.service.performCall call }.Inv
      config peer where
  gated := NodeService.performCall_gated h.gated call
  compatible frame hframe info hinfo := by
    have hcompat := h.compatible frame hframe info hinfo
    rw [← world.service.performCall_chainId call] at hcompat
    exact hcompat
  known := by
    simp only [marker, Known, NodeService.performCall_syncState]
    exact h.known

theorem Inv.next {event : Event} (h : world.Inv config peer)
    (henabled : world.Enabled peer event) :
    (world.next config peer event).Inv config peer := by
  cases event with
  | emit frame =>
      refine h.carry rfl fun frame' hframe' => ?_
      rcases Multiset.mem_cons.mp hframe' with rfl | hold
      · exact henabled
      · exact h.compatible frame' hold
  | answer height frame =>
      refine h.carry rfl fun frame' hframe' => ?_
      rcases Multiset.mem_cons.mp hframe' with rfl | hold
      · obtain ⟨-, block, hdecode⟩ := henabled
        intro info hinfo
        rw [hdecode] at hinfo
        cases hinfo
      · exact h.compatible frame' hold
  | dropToPeer message => exact h.carry rfl h.compatible
  | dropFromPeer frame =>
      exact h.carry rfl fun frame' hframe' =>
        h.compatible frame' (Multiset.mem_of_mem_erase hframe')
  | duplicateToPeer message => exact h.carry rfl h.compatible
  | duplicateFromPeer frame =>
      refine h.carry rfl fun frame' hframe' => ?_
      rcases Multiset.mem_cons.mp hframe' with rfl | hold
      · exact h.compatible frame' henabled
      · exact h.compatible frame' hold
  | deliver env frame =>
      have herased : { world with
          fromPeer := world.fromPeer.erase frame }.Inv config peer :=
        h.carry rfl fun frame' hframe' =>
          h.compatible frame' (Multiset.mem_of_mem_erase hframe')
      exact herased.handle env fun _ => h.compatible frame henabled
  | other env source frame =>
      exact h.handle env fun heq => absurd heq henabled
  | call call => exact h.call call
  | timer message => exact h.carry rfl h.compatible

theorem Reaches.inv {admits : World → Event → Prop}
    (h : Reaches config peer admits world) : world.Inv config peer := by
  induction h with
  | start runtime => exact inv_start runtime
  | step past event enabled admitted ih => exact ih.next enabled

theorem Reaches.mono {admits admits' : World → Event → Prop}
    (h : Reaches config peer admits world)
    (hsub : ∀ world event, admits world event → admits' world event) :
    Reaches config peer admits' world := by
  induction h with
  | start runtime => exact .start runtime
  | step past event enabled admitted ih =>
      exact .step ih event enabled (hsub _ _ admitted)

/-! ## Runs without loss -/

omit [Blake3] [Bincode] [PqCrypto] [WireCodec] in
theorem mem_sentTo {session : Session} {transmission : Transmission}
    (hmem : transmission ∈ session.sent) (htarget : transmission.target = peer)
    (hsent : transmission.outcome = .ok ()) :
    transmission.message ∈ session.sentTo peer := by
  refine Multiset.mem_coe.mpr (List.mem_map_of_mem ?_)
  refine List.mem_filter.mpr ⟨hmem, ?_⟩
  rw [hsent]
  simpa [Except.isOk, Except.toBool] using htarget

omit [Blake3] [Bincode] [PqCrypto] in
/-- More in transit to the peer and the same frames from it. -/
theorem Busy.mono {world' : World} (h : world.Busy)
    (hto : ∀ message ∈ world.toPeer, message ∈ world'.toPeer)
    (hfrom : ∀ frame ∈ world.fromPeer, ∀ height block,
      WireMessage.decode frame = .ok (.blockResponse height block) →
        frame ∈ world'.fromPeer) : world'.Busy := by
  rcases h with ⟨height, hmem⟩ | ⟨frame, hmem, height, block, hdecode⟩
  · exact .inl ⟨height, hto _ hmem⟩
  · exact .inr ⟨frame, hfrom frame hmem height block hdecode,
      height, block, hdecode⟩

/-- A request which was sent is in transit. -/
theorem busy_of_requests (world : World) {env : Environment}
    {source : SocketAddr} {frame : Bytes} {transmission : Transmission}
    (hmem : transmission ∈
      (world.service.handleFrame config env source frame).sent)
    (hrequests : transmission.Requests peer)
    (hsent : transmission.outcome = .ok ()) :
    (world.handle config peer env source frame).Busy := by
  obtain ⟨htarget, height, hmessage⟩ := hrequests
  refine .inl ⟨height, Multiset.mem_add.mpr (.inr ?_)⟩
  rw [← hmessage]
  exact mem_sentTo hmem htarget hsent

theorem Tracked.deliver {env : Environment} {frame : Bytes}
    (h : Tracked peer world) (hinv : world.Inv config peer)
    (hlossless : world.Lossless config peer (.deliver env frame)) :
    Tracked peer (world.next config peer (.deliver env frame)) := by
  intro height hmarker
  have htracks := world.service.handleFrame_tracks config peer env peer frame
  have hknown : world.Known peer := by
    rcases htracks.2 height hmarker with hold | ⟨-, hknown, -⟩
    · exact hinv.known height hold
    · exact hknown
  have hrequested : (∃ transmission ∈
      (world.service.handleFrame config env peer frame).sent,
        transmission.Requests peer) →
      (world.next config peer (.deliver env frame)).Busy := by
    rintro ⟨transmission, hmem, hrequests⟩
    exact busy_of_requests
      { world with fromPeer := world.fromPeer.erase frame } hmem hrequests
      (hlossless transmission hmem hrequests.1 hrequests.2)
  by_cases hresponse : ∃ height block,
      WireMessage.decode frame = .ok (.blockResponse height block)
  · obtain ⟨_, _, hdecode⟩ := hresponse
    have hlocal : peer ∉ config.localAddrs := hinv.gated.notLocal peer hknown
    exact hrequested
      (NodeService.handleFrame_response hlocal hknown hdecode hmarker)
  · rcases htracks.2 height hmarker with hold | ⟨-, -, hnew⟩
    · refine (h height hold).mono
        (fun _ hmem => Multiset.mem_add.mpr (.inl hmem)) ?_
      -- The frame which was handled is not a response.
      intro frame' hmem height' block' hdecode'
      have hne : frame' ≠ frame := by
        rintro rfl
        exact hresponse ⟨height', block', hdecode'⟩
      exact (Multiset.mem_erase_of_ne hne).mpr hmem
    · exact hrequested hnew

theorem Tracked.next {event : Event} (h : Tracked peer world)
    (hinv : world.Inv config peer) (henabled : world.Enabled peer event)
    (hlossless : world.Lossless config peer event) :
    Tracked peer (world.next config peer event) := by
  cases event with
  | emit frame =>
      exact fun height hmarker => (h height hmarker).mono (fun _ hm => hm)
        fun _ hm _ _ _ => Multiset.mem_cons_of_mem hm
  | answer height frame =>
      obtain ⟨-, block, hdecode⟩ := henabled
      exact fun _ _ => .inr ⟨frame, Multiset.mem_cons_self _ _,
        height, block, hdecode⟩
  | dropToPeer message =>
      intro height hmarker
      rcases h height hmarker with ⟨requested, hmem⟩ | hresponse
      · refine .inl ⟨requested, ?_⟩
        exact (Multiset.mem_erase_of_ne (hlossless requested).symm).mpr hmem
      · exact .inr hresponse
  | dropFromPeer frame =>
      refine fun height hmarker => (h height hmarker).mono (fun _ hm => hm) ?_
      intro frame' hm requested block hdecode
      have hne : frame' ≠ frame := by
        rintro rfl
        exact hlossless requested block hdecode
      exact (Multiset.mem_erase_of_ne hne).mpr hm
  | duplicateToPeer message =>
      exact fun height hmarker => (h height hmarker).mono
        (fun _ hm => Multiset.mem_cons_of_mem hm) fun _ hm _ _ _ => hm
  | duplicateFromPeer frame =>
      exact fun height hmarker => (h height hmarker).mono (fun _ hm => hm)
        fun _ hm _ _ _ => Multiset.mem_cons_of_mem hm
  | deliver env frame => exact h.deliver hinv hlossless
  | other env source frame =>
      intro height hmarker
      have htracks :=
        world.service.handleFrame_tracks config peer env source frame
      rcases htracks.2 height hmarker with hold | ⟨heq, -, -⟩
      · exact (h height hold).mono
          (fun _ hm => Multiset.mem_add.mpr (.inl hm)) fun _ hm _ _ _ => hm
      · exact absurd heq henabled
  | call call =>
      intro height hmarker
      rw [marker, World.next, NodeService.performCall_syncState] at hmarker
      exact (h height hmarker).mono (fun _ hm => hm) fun _ hm _ _ _ => hm
  | timer message =>
      exact fun height hmarker => (h height hmarker).mono
        (fun _ hm => Multiset.mem_cons_of_mem hm) fun _ hm _ _ _ => hm

theorem Reaches.tracked (h : Reaches config peer (Lossless config peer) world) :
    Tracked peer world := by
  induction h with
  | start runtime =>
      intro height hmarker
      rw [marker_start] at hmarker
      cases hmarker
  | step past event enabled admitted ih =>
      exact ih.next past.inv enabled admitted

end World

namespace World

/-- A node asks its peer for the next block whenever a tip shows that there is
one and nothing is in transit between them. -/
def NeverWedges [Blake3] [Bincode] [PqCrypto] (config : ServiceConfig)
    (peer : SocketAddr) : Prop :=
  ∀ world, Reachable config peer world → ¬world.Busy → world.Known peer →
    ∀ (env : Environment) (frame : Bytes) (tip : TipResponse),
      WireMessage.decode frame = .ok (.tipResponse tip) →
      world.height < tip.height → world.service.Asks config env peer frame

end World

end Peers

namespace StandIns

def peerTip : TipResponse := ⟨1, "", "", 1⟩

def tipFrame : Bytes :=
  QCOIN_WIRE_MAGIC ++ (leBytes 4 3 ++ encodeTip peerTip)

/-- A fresh node which met its peer. -/
def met : World :=
  ((World.start (freshRuntime 1 [])).next plainConfig peerAddr
    (.emit infoFrame)).next plainConfig peerAddr
      (.deliver workingEnvironment infoFrame)

/-- Then it asked the peer for the first block. -/
def asked : World :=
  (met.next plainConfig peerAddr (.emit tipFrame)).next plainConfig peerAddr
    (.deliver workingEnvironment tipFrame)

/-- Then the request was lost. -/
def wedged : World :=
  asked.next plainConfig peerAddr (.dropToPeer (.blockRequest 1))

theorem decode_frames :
    WireMessage.decode infoFrame = .ok (.nodeInfo peerInfo) ∧
      WireMessage.decode tipFrame = .ok (.tipResponse peerTip) := by
  decide +kernel

/-- Meeting the peer makes the node send nothing. -/
theorem met_facts :
    (((World.start (freshRuntime 1 [])).next plainConfig peerAddr
      (.emit infoFrame)).service.handleFrame plainConfig workingEnvironment
        peerAddr infoFrame).sent.length = 0 ∧
    met.toPeer = 0 ∧ met.fromPeer = 0 ∧
    peerAddr ∈ met.service.syncState.knownPeers ∧
    met.service.runtimePoisoned = false ∧ met.height < peerTip.height := by
  decide +kernel

/-- Only the marker is left of the lost request. -/
theorem wedged_facts :
    .blockRequest 1 ∈ asked.toPeer ∧ wedged.toPeer = 0 ∧
    wedged.fromPeer = 0 ∧ peerAddr ∈ wedged.service.syncState.knownPeers ∧
    wedged.height < peerTip.height ∧
    wedged.marker peerAddr = some (wedged.height + 1) := by
  decide +kernel

theorem infoFrame_compatible (world : World)
    (h : world.service.runtime.chain.chainId = 0) :
    world.Compatible infoFrame := by
  intro info hinfo
  have hboth := decode_frames.1.symm.trans hinfo
  have heq : peerInfo = info := WireMessage.nodeInfo.inj (Except.ok.inj hboth)
  rw [← heq, h]
  exact localNodeInfo_compatible 0 false "" true false

theorem tipFrame_compatible (world : World) : world.Compatible tipFrame := by
  intro info hinfo
  cases decode_frames.2.symm.trans hinfo

theorem emitted_enabled (world : World) (env : Environment) (frame : Bytes) :
    (world.next plainConfig peerAddr (.emit frame)).Enabled peerAddr
      (.deliver env frame) :=
  Multiset.mem_cons_self _ _

theorem met_reaches :
    World.Reaches plainConfig peerAddr
      (World.Lossless plainConfig peerAddr) met := by
  let start := World.start (freshRuntime 1 [])
  have harrived : World.Reaches plainConfig peerAddr
      (World.Lossless plainConfig peerAddr)
      (start.next plainConfig peerAddr (.emit infoFrame)) :=
    (World.Reaches.start _).step (.emit infoFrame)
      (infoFrame_compatible start rfl) trivial
  refine harrived.step (.deliver workingEnvironment infoFrame)
    (emitted_enabled start _ _) ?_
  intro transmission hmem
  rw [List.length_eq_zero_iff.mp met_facts.1] at hmem
  cases hmem

theorem met_reachable : World.Reachable plainConfig peerAddr met :=
  met_reaches.mono fun _ _ _ => trivial

theorem wedged_reachable : World.Reachable plainConfig peerAddr wedged := by
  have harrived := met_reachable.step (.emit tipFrame)
    (tipFrame_compatible met) trivial
  have hasked : World.Reachable plainConfig peerAddr asked :=
    harrived.step (.deliver workingEnvironment tipFrame)
      (emitted_enabled met _ _) trivial
  exact hasked.step (.dropToPeer (.blockRequest 1)) wedged_facts.1 trivial

theorem not_busy_of_empty {world : World} (hto : world.toPeer = 0)
    (hfrom : world.fromPeer = 0) : ¬world.Busy := by
  rintro (⟨height, hmem⟩ | ⟨frame, hmem, -⟩)
  · rw [hto] at hmem
    exact Multiset.notMem_zero _ hmem
  · rw [hfrom] at hmem
    exact Multiset.notMem_zero _ hmem

theorem met_quiet : ¬met.Busy :=
  not_busy_of_empty met_facts.2.1 met_facts.2.2.1

theorem wedged_quiet : ¬wedged.Busy :=
  not_busy_of_empty wedged_facts.2.1 wedged_facts.2.2.1

-- The elaborator should not evaluate the two worlds.
attribute [irreducible] met wedged

end StandIns

open scoped StandIns
open StandIns

end QCoin
