import Mathlib.Order.Monotone.Defs
import QCoin.Node.Admission
import QCoin.Node.StandIns
import QCoin.Support.Throttle

/-!
# Replies to announcements

A node answers a `PresenceAnnounce` with its `NodeInfo`.  To a known peer it
does so when the minimal interval has passed since it last sent its `NodeInfo`
there, whatever made it do so; to an unknown source it always does.
-/

namespace QCoin

open Support
open Support.Stateful

/-! ## What the handler does -/

section Handler

variable [WireCodec] {config : ServiceConfig} {env : Environment}
  {source : SocketAddr} {s : Session}

namespace Service

/-- The description a node gives of itself. -/
def ownInfo (config : ServiceConfig) (s : Session) : NodeInfo :=
  QCoin.localNodeInfo s.runtime.chain.chainId config.multicastEnabled
    config.nodePublicKeyHex config.nodeIsValidator config.produceEnabled

/-- The time is noted first; nothing is sent when the lock is poisoned. -/
theorem sendLocalNodeInfo_after :
    (sendLocalNodeInfo config env source).after s =
      let noted := { s with clockReads := s.clockReads + 1 }.setSync
        (s.sync.infoSent source (env.clock s.clockReads))
      if s.service.runtimePoisoned then noted
      else noted.record ⟨source, .nodeInfo (ownInfo config s),
        sendOutcome env s.sent.length source (.nodeInfo (ownInfo config s))⟩ := by
  obtain ⟨⟨runtime, poisoned, state⟩, sent, reads⟩ := s
  cases poisoned with
  | true => rfl
  | false => rfl

theorem handlePresenceAnnounce_after :
    (handlePresenceAnnounce config env source).after s =
      let seen := { s with clockReads := s.clockReads + 1 }.setSync
        (s.sync.seen source (env.clock s.clockReads))
      if source ∉ s.sync.knownPeers ∨
          isDue (s.sync.peerLastNodeInfoSentAt.lookup source)
            (env.clock s.clockReads) NODE_INFO_RESPONSE_MIN_INTERVAL then
        (sendLocalNodeInfo config env source).after seen
      else seen := by
  have hnow : (now env).exec s = (.ok (env.clock s.clockReads),
      { s with clockReads := s.clockReads + 1 }) := rfl
  rw [after, handlePresenceAnnounce, exec_bind_of_ok hnow, updateSync,
    exec_bind_of_ok (exec_update _ _), sync,
    exec_bind_of_ok (exec_inspect _ _)]
  exact apply_ite (fun x : ServiceM Unit => (x.exec _).2) _ _ _

end Service

end Handler

/-! ## Replies -/

/-- A `NodeInfo` sent in answer to a `PresenceAnnounce`. -/
structure PresenceReply where
  source : SocketAddr
  sentAt : Instant
  /-- Whether the source was a known peer when its announcement came. -/
  known : Bool
  outcome : Except String Unit

def Transmission.isNodeInfoTo (source : SocketAddr)
    (transmission : Transmission) : Bool :=
  match transmission.message with
  | .nodeInfo _ => decide (transmission.target = source)
  | _ => false

theorem Transmission.isNodeInfoTo_reply (source : SocketAddr)
    (info : NodeInfo) (outcome : Except String Unit) :
    Transmission.isNodeInfoTo source ⟨source, .nodeInfo info, outcome⟩ =
      true :=
  decide_eq_true rfl

namespace ServiceEvent

/-- What the clock shows during the event. -/
def readings : ServiceEvent → Set Instant
  | .frame env _ _ => Set.range env.clock
  | .call _ => ∅

def orderly : ServiceEvent → Prop
  | .frame env _ _ => Monotone env.clock
  | .call _ => True

end ServiceEvent

/-- The clock runs backwards neither during an event nor from one event to a
later one. -/
structure Nondecreasing (events : List ServiceEvent) : Prop where
  within : ∀ event ∈ events, event.orderly
  between : events.Pairwise fun event event' =>
    ∀ t ∈ event.readings, ∀ t' ∈ event'.readings, t ≤ t'

section Replies

variable [WireCodec] [Blake3] [Bincode] [PqCrypto]

namespace NodeService

def presenceReplies (config : ServiceConfig) (service : NodeService) :
    ServiceEvent → List PresenceReply
  | .call _ => []
  | .frame env source bytes =>
      match WireMessage.decode bytes with
      | .ok .presenceAnnounce =>
          let session := service.handleFrame config env source bytes
          (session.sent.filter (Transmission.isNodeInfoTo source)).map
            fun transmission => {
              source := source
              -- The clock was last read as the reply was sent.
              sentAt := env.clock (session.clockReads - 1)
              known := decide (source ∈ service.syncState.knownPeers)
              outcome := transmission.outcome }
      | _ => []

/-- When the node last noted that it sent its description to the peer. -/
def notedAt (service : NodeService) (peer : SocketAddr) : Option Instant :=
  service.syncState.peerLastNodeInfoSentAt.lookup peer

/-- The service as a system which notes when it sent its description. -/
def presenceThrottle (config : ServiceConfig) :
    Throttle NodeService ServiceEvent SocketAddr PresenceReply where
  step := perform config
  emit := presenceReplies config
  last := notedAt
  readings := ServiceEvent.readings
  key := PresenceReply.source
  time := PresenceReply.sentAt
  limited reply := reply.known = true

/-- The replies of a run, in order. -/
def replies (config : ServiceConfig) (service : NodeService)
    (events : List ServiceEvent) : List PresenceReply :=
  (presenceThrottle config).emissions service events

variable {config : ServiceConfig} {env : Environment} {source : SocketAddr}
  {bytes : Bytes} {service : NodeService}

/-- A known peer has to wait, an unknown source has not.  Nobody is answered
when the lock is poisoned. -/
abbrev Answers (service : NodeService) (env : Environment)
    (source : SocketAddr) : Prop :=
  service.runtimePoisoned = false ∧
  (source ∉ service.syncState.knownPeers ∨
    Service.isDue (service.notedAt source) (env.clock 0)
      NODE_INFO_RESPONSE_MIN_INTERVAL = true)

/-- The reply to an announcement which is handled next. -/
def reply (service : NodeService) (env : Environment) (source : SocketAddr)
    (info : NodeInfo) : PresenceReply where
  source := source
  sentAt := env.clock 1
  known := decide (source ∈ service.syncState.knownPeers)
  outcome := Service.sendOutcome env 0 source (.nodeInfo info)

/-- The service after a reply. -/
def afterReply (service : NodeService) (env : Environment)
    (source : SocketAddr) : NodeService :=
  { service with
    syncState := (service.syncState.seen source (env.clock 0)).infoSent source
      (env.clock 1) }

omit [Blake3] [Bincode] [PqCrypto] in
theorem handlePresenceAnnounce_cases (service : NodeService) :
    let session := (Service.handlePresenceAnnounce config env source).after
      (Session.start service)
    (¬service.Answers env source ∧ session.sent = []) ∨
    ∃ info, service.Answers env source ∧
      session.sent = [⟨source, .nodeInfo info,
        Service.sendOutcome env 0 source (.nodeInfo info)⟩] ∧
      session.clockReads = 2 ∧
      session.service = service.afterReply env source := by
  intro session
  have hafter : session = if source ∉ service.syncState.knownPeers ∨
      Service.isDue (service.notedAt source) (env.clock 0)
        NODE_INFO_RESPONSE_MIN_INTERVAL then _ else _ :=
    Service.handlePresenceAnnounce_after
  by_cases hdue : source ∉ service.syncState.knownPeers ∨
      Service.isDue (service.notedAt source) (env.clock 0)
        NODE_INFO_RESPONSE_MIN_INTERVAL = true
  · have hreply : session = if service.runtimePoisoned = true then _ else _ :=
      (hafter.trans (if_pos hdue)).trans Service.sendLocalNodeInfo_after
    by_cases hpoison : service.runtimePoisoned = true
    · rw [hreply.trans (if_pos hpoison)]
      exact Or.inl ⟨fun h => Bool.false_ne_true (h.1.symm.trans hpoison), rfl⟩
    · rw [hreply.trans (if_neg hpoison)]
      exact Or.inr ⟨_, ⟨Bool.eq_false_of_not_eq_true hpoison, hdue⟩, rfl,
        rfl, rfl⟩
  · rw [hafter.trans (if_neg hdue)]
    exact Or.inl ⟨fun h => hdue h.2, rfl⟩

theorem handleFrame_announce (hlocal : source ∉ config.localAddrs)
    (hdecode : WireMessage.decode bytes = .ok .presenceAnnounce)
    (service : NodeService) :
    service.handleFrame config env source bytes =
      (Service.handlePresenceAnnounce config env source).after
        (Session.start service) := by
  rw [handleFrame, Service.handleFrame, if_neg hlocal, hdecode]
  rfl

/-- An announcement which a node answers is replied to once. -/
theorem presenceReplies_of_answers {service : NodeService}
    (hlocal : source ∉ config.localAddrs)
    (hdecode : WireMessage.decode bytes = .ok .presenceAnnounce)
    (hanswers : service.Answers env source) :
    (∃ info, service.presenceReplies config (.frame env source bytes) =
        [service.reply env source info]) ∧
      (service.handleFrame config env source bytes).service =
        service.afterReply env source := by
  have hhandle : service.handleFrame config env source bytes = _ :=
    service.handleFrame_announce hlocal hdecode
  rcases service.handlePresenceAnnounce_cases with ⟨hnot, -⟩ |
    ⟨info, -, hsent, hreads, hservice⟩
  · exact absurd hanswers hnot
  · refine ⟨⟨info, ?_⟩, hhandle ▸ hservice⟩
    rw [presenceReplies, hdecode]
    dsimp only
    rw [hhandle, hsent, hreads,
      List.filter_cons_of_pos (Transmission.isNodeInfoTo_reply _ _ _)]
    rfl

/-- No other frame is replied to. -/
theorem presenceReplies_frame (service : NodeService) :
    service.presenceReplies config (.frame env source bytes) = [] ∨
    ((∃ info, service.presenceReplies config (.frame env source bytes) =
        [service.reply env source info]) ∧
      service.Answers env source ∧
      (service.handleFrame config env source bytes).service =
        service.afterReply env source) := by
  by_cases hdecode : WireMessage.decode bytes = .ok .presenceAnnounce
  · by_cases hlocal : source ∈ config.localAddrs
    · rw [presenceReplies, hdecode, handleFrame, Service.handleFrame,
        if_pos hlocal]
      exact Or.inl rfl
    · by_cases hanswers : service.Answers env source
      · obtain ⟨hreply, hservice⟩ :=
          presenceReplies_of_answers hlocal hdecode hanswers
        exact Or.inr ⟨hreply, hanswers, hservice⟩
      · rcases service.handlePresenceAnnounce_cases with ⟨-, hsilent⟩ |
          ⟨info, hyes, -⟩
        · rw [presenceReplies, hdecode]
          dsimp only
          rw [service.handleFrame_announce hlocal hdecode, hsilent]
          exact Or.inl rfl
        · exact absurd hyes hanswers
  · rw [presenceReplies]
    split
    · rename_i hpresence
      exact absurd hpresence hdecode
    · exact Or.inl rfl

theorem of_mem_presenceReplies (service : NodeService) {reply : PresenceReply}
    (h : reply ∈ service.presenceReplies config (.frame env source bytes)) :
    (∃ info, reply = service.reply env source info) ∧
      service.Answers env source ∧
      (service.handleFrame config env source bytes).service =
        service.afterReply env source := by
  rcases service.presenceReplies_frame with hnone |
    ⟨⟨info, hreply⟩, hanswers, hservice⟩
  · rw [hnone] at h
    exact absurd h List.not_mem_nil
  · rw [hreply, List.mem_singleton] at h
    exact ⟨⟨info, h⟩, hanswers, hservice⟩

/-- The noted times change to readings of the clock only. -/
theorem handleFrame_noted (service : NodeService) (peer : SocketAddr) :
    (service.handleFrame config env source bytes).service.notedAt peer =
      service.notedAt peer ∨
    ∃ reading,
      (service.handleFrame config env source bytes).service.notedAt peer =
        some (env.clock reading) := by
  rcases service.handleFrame_cases config env source bytes with hsame |
    ⟨message, -, -, hafter, -⟩
  · rw [hsame]
    exact Or.inl rfl
  · rw [hafter]
    have hacts : Service.ActsTimed env source
        (source ∈ service.syncState.knownPeers) message
        (Service.handleMessage config env source message)
        (Session.start service) := Service.handleMessage_timed fun h => h
    refine hacts.invariant (fun s =>
      s.service.notedAt peer = service.notedAt peer ∨
      ∃ reading, s.service.notedAt peer = some (env.clock reading)) ?_
        (Or.inl rfl)
    intro s s' heffect hs
    cases heffect with
    | untimed effect kept =>
        have hsame : s'.service.notedAt peer = s.service.notedAt peer :=
          congrArg (fun noted => Finmap.lookup peer noted) kept
        rwa [hsame]
    | infoNoted reading =>
        by_cases hpeer : peer = source
        · subst hpeer
          exact Or.inr ⟨reading, Finmap.lookup_insert _⟩
        · have hother := Finmap.lookup_insert_of_ne
            s.sync.peerLastNodeInfoSentAt (b := env.clock reading) hpeer
          exact hs.imp hother.trans fun ⟨n, hn⟩ => ⟨n, hother.trans hn⟩

/-- A known peer waits for the interval. -/
theorem presenceThrottle_spaces (config : ServiceConfig) :
    (presenceThrottle config).Spaces NODE_INFO_RESPONSE_MIN_INTERVAL
      ServiceEvent.orderly where
  noted service event peer := by
    cases event with
    | call call =>
        refine Or.inl ?_
        change (service.performCall call).notedAt peer = service.notedAt peer
        rw [notedAt, performCall_syncState, notedAt]
    | frame env source bytes =>
        exact (service.handleFrame_noted peer).imp id fun ⟨reading, h⟩ =>
          ⟨_, ⟨reading, rfl⟩, h⟩
  single service event := by
    cases event with
    | call call => exact Nat.zero_le 1
    | frame env source bytes =>
        rcases service.presenceReplies_frame with hnone | ⟨⟨info, hreply⟩, -, -⟩
        · exact (congrArg List.length hnone).le.trans (Nat.zero_le 1)
        · exact (congrArg List.length hreply).le
  served service event reply hreply := by
    cases event with
    | call call => exact absurd hreply List.not_mem_nil
    | frame env source bytes =>
        obtain ⟨⟨info, rfl⟩, -, hservice⟩ := service.of_mem_presenceReplies hreply
        change (service.handleFrame config env source bytes).service.notedAt
          source = some (env.clock 1)
        rw [hservice]
        exact Finmap.lookup_insert _
  due service event horderly reply hreply hlimited last hlast := by
    cases event with
    | call call => exact absurd hreply List.not_mem_nil
    | frame env source bytes =>
        obtain ⟨⟨info, rfl⟩, hanswers, -⟩ := service.of_mem_presenceReplies hreply
        have hknown : source ∈ service.syncState.knownPeers :=
          of_decide_eq_true hlimited
        have hdue := hanswers.2.resolve_left fun h => h hknown
        change service.notedAt source = some last at hlast
        rw [hlast] at hdue
        have hwait : NODE_INFO_RESPONSE_MIN_INTERVAL ≤ env.clock 0 - last :=
          of_decide_eq_true hdue
        have hgap : last + NODE_INFO_RESPONSE_MIN_INTERVAL ≤ env.clock 0 := by
          rw [NODE_INFO_RESPONSE_MIN_INTERVAL] at hwait ⊢
          omega
        exact hgap.trans (horderly (Nat.zero_le 1))

end NodeService

/-- Two replies to one source are the minimal interval apart when the source
was a known peer at the time of the second announcement. -/
theorem presenceReplies_spaced (config : ServiceConfig)
    (runtime : NodeRuntime) {events : List ServiceEvent}
    (hclock : Nondecreasing events) :
    ((NodeService.new runtime).replies config events).Pairwise
      fun earlier later => earlier.source = later.source →
        later.known = true →
        earlier.sentAt + NODE_INFO_RESPONSE_MIN_INTERVAL ≤ later.sentAt := by
  refine Throttle.pairwise_emissions
    (NodeService.presenceThrottle_spaces config) hclock.within hclock.between ?_
  -- A fresh service has noted nothing.
  intro peer last hlast
  change (∅ : FinMap SocketAddr Instant).lookup peer = some last at hlast
  rw [Finmap.lookup_empty] at hlast
  cases hlast

end Replies

/-! ## Announcements of one peer -/

section Announcements

open scoped StandIns
open StandIns

/-- A frame of the peer, handled at the given time. -/
def frameAt (time : Instant) (bytes : Bytes) : ServiceEvent :=
  .frame { workingEnvironment with clock := fun _ => time } peerAddr bytes

theorem nondecreasing_frameAt (frames : List (Instant × Bytes))
    (h : frames.Pairwise fun a b => a.1 ≤ b.1) :
    Nondecreasing (frames.map fun frame => frameAt frame.1 frame.2) where
  within event hevent := by
    obtain ⟨frame, -, rfl⟩ := List.mem_map.mp hevent
    exact monotone_const
  between := by
    refine List.pairwise_map.mpr (h.imp ?_)
    rintro a b hle - ⟨n, rfl⟩ - ⟨m, rfl⟩
    exact hle

/-- The peer introduces itself and then announces itself twice, 42 seconds
apart. -/
theorem introduced_spaced :
    ((NodeService.new (freshRuntime 1 [])).replies plainConfig
      [frameAt 0 infoFrame, frameAt 0 announceFrame,
        frameAt (42 * 10 ^ 9) announceFrame]).Pairwise
      fun earlier later => earlier.source = later.source →
        later.known = true →
        earlier.sentAt + NODE_INFO_RESPONSE_MIN_INTERVAL ≤ later.sentAt :=
  presenceReplies_spaced plainConfig (freshRuntime 1 [])
    (nondecreasing_frameAt [(0, infoFrame), (0, announceFrame),
      (42 * 10 ^ 9, announceFrame)] (by simp))

theorem reply_to_unknown {service : NodeService} (time : Instant)
    (hpoison : service.runtimePoisoned = false)
    (hunknown : peerAddr ∉ service.syncState.knownPeers) :
    service.presenceReplies plainConfig (frameAt time announceFrame) =
        [⟨peerAddr, time, false, .ok ()⟩] ∧
      (service.perform plainConfig (frameAt time announceFrame)
        ).runtimePoisoned = false ∧
      peerAddr ∉ (service.perform plainConfig (frameAt time announceFrame)
        ).syncState.knownPeers := by
  have hlocal : peerAddr ∉ plainConfig.localAddrs := Finset.notMem_empty _
  have hanswers : service.Answers
      { workingEnvironment with clock := fun _ => time } peerAddr :=
    ⟨hpoison, Or.inl hunknown⟩
  obtain ⟨⟨info, hreply⟩, hservice⟩ :=
    NodeService.presenceReplies_of_answers hlocal decode_announceFrame hanswers
  rw [NodeService.reply, decide_eq_false hunknown] at hreply
  rw [frameAt, NodeService.perform, hservice]
  exact ⟨hreply, hpoison, hunknown⟩

/-- A peer which does not introduce itself is answered twice at once. -/
theorem unknown_answered_twice :
    Nondecreasing [frameAt 0 announceFrame, frameAt 0 announceFrame] ∧
    ¬((NodeService.new (freshRuntime 1 [])).replies plainConfig
      [frameAt 0 announceFrame, frameAt 0 announceFrame]).Pairwise
      fun earlier later => earlier.source = later.source →
        earlier.outcome = .ok () → later.outcome = .ok () →
        earlier.sentAt + NODE_INFO_RESPONSE_MIN_INTERVAL ≤ later.sentAt := by
  refine ⟨nondecreasing_frameAt [(0, announceFrame), (0, announceFrame)]
    (by simp), ?_⟩
  have hnew : peerAddr ∉
      (NodeService.new (freshRuntime 1 [])).syncState.knownPeers :=
    Finset.notMem_empty _
  obtain ⟨hfirst, hpoison, hunknown⟩ := reply_to_unknown 0 rfl hnew
  obtain ⟨hsecond, -, -⟩ := reply_to_unknown 0 hpoison hunknown
  have hreplies : (NodeService.new (freshRuntime 1 [])).replies plainConfig
      [frameAt 0 announceFrame, frameAt 0 announceFrame] =
        [⟨peerAddr, 0, false, .ok ()⟩] ++
          ([⟨peerAddr, 0, false, .ok ()⟩] ++ []) :=
    congrArg₂ _ hfirst (congrArg₂ _ hsecond rfl)
  rw [hreplies]
  intro hspaced
  have hgap := (List.pairwise_cons.mp hspaced).1 _ List.mem_cons_self rfl
    rfl rfl
  exact absurd hgap (by decide)

end Announcements

end QCoin
