import QCoin.Node.Admission

/-!
# The marker of a requested block

The node marks the block it asks a peer for and removes the marker when the
peer responds.  A tip makes it ask only if the next block is not marked, and
whatever a frame does, a new marker goes with an attempt to send a request.
-/

namespace QCoin

open Support
open Support.Stateful

variable [WireCodec]

/-! ## What a tip makes the node do -/

namespace Service

variable {config : ServiceConfig} {env : Environment} {source : SocketAddr}
  {s : Session}

omit [WireCodec] in
theorem currentHeight_of_poisoned (h : s.service.runtimePoisoned = true) :
    currentHeight.exec s = (.error (.err runtimeLockError), s) := by
  rw [currentHeight, withRuntime_exec, if_pos h]

omit [WireCodec] in
theorem currentHeight_of_unpoisoned (h : s.service.runtimePoisoned = false) :
    currentHeight.exec s = (.ok s.runtime.chain.height, s) := by
  rw [currentHeight, withRuntime_exec, if_neg (by simp [h])]

/-- When the remote chain is longer, the next block is requested exactly if
the lock works and no request for this block is marked. -/
theorem requestNextMissingBlock_requests {remoteTipHeight : UInt64}
    (htip : s.runtime.chain.height < remoteTipHeight) (hnone : s.sent = []) :
    (∃ outcome, ⟨source, .blockRequest (s.runtime.chain.height + 1),
        outcome⟩ ∈
        ((requestNextMissingBlock env source remoteTipHeight).after s).sent) ↔
      s.service.runtimePoisoned = false ∧
        s.sync.inFlightBlocks.lookup source ≠
          some (s.runtime.chain.height + 1) := by
  have hsync : sync.exec s = (.ok s.sync, s) := exec_inspect _ _
  have hmore : ¬remoteTipHeight ≤ s.runtime.chain.height :=
    UInt64.not_le.mpr htip
  rw [after, requestNextMissingBlock]
  by_cases hpoison : s.service.runtimePoisoned = true
  · rw [exec_bind_of_error (currentHeight_of_poisoned hpoison), hnone]
    simp [hpoison]
  · rw [Bool.not_eq_true] at hpoison
    rw [exec_bind_of_ok (currentHeight_of_unpoisoned hpoison), if_neg hmore,
      exec_bind_of_ok hsync]
    by_cases hmarker : s.sync.inFlightBlocks.lookup source =
        some (s.runtime.chain.height + 1)
    · rw [if_pos hmarker, exec_pure, hnone]
      simp [hmarker]
    · rw [if_neg hmarker]
      let request : WireMessage := .blockRequest (s.runtime.chain.height + 1)
      refine iff_of_true
        ⟨sendOutcome env s.sent.length source request, ?_⟩
        ⟨hpoison, hmarker⟩
      exact List.mem_append_right _ List.mem_cons_self

end Service

section Frames

variable [Blake3] [Bincode] [PqCrypto] {config : ServiceConfig}
  {env : Environment} {source : SocketAddr} {frame : Bytes}

theorem NodeService.handleFrame_of_decode {service : NodeService}
    {message : WireMessage} (hlocal : source ∉ config.localAddrs)
    (hdecode : WireMessage.decode frame = .ok message) :
    service.handleFrame config env source frame =
      (Service.handleMessage config env source message).after
        (Session.start service) := by
  rw [handleFrame, Service.handleFrame, if_neg hlocal, hdecode]

theorem NodeService.handleFrame_tip {service : NodeService}
    {tip : TipResponse} (hlocal : source ∉ config.localAddrs)
    (hknown : source ∈ service.syncState.knownPeers)
    (hdecode : WireMessage.decode frame = .ok (.tipResponse tip)) :
    service.handleFrame config env source frame =
      (Service.requestNextMissingBlock env source tip.height).after
        ((Session.start service).setSync
          (service.syncState.setTip source tip.height)) := by
  rw [handleFrame_of_decode hlocal hdecode, Service.handleMessage, after,
    Service.handleTipResponse, Service.ifCompatible_of_known hknown]
  have hnoted : (Service.updateSync fun sync =>
      sync.setTip source tip.height).exec (Session.start service) =
        (.ok (), (Session.start service).setSync
          (service.syncState.setTip source tip.height)) := exec_update _ _
  rw [exec_bind_of_ok hnoted]
  rfl

/-- Handling the frame makes the node ask its source for the next block. -/
def NodeService.Asks (service : NodeService) (config : ServiceConfig)
    (env : Environment) (source : SocketAddr) (frame : Bytes) : Prop :=
  ∃ outcome, ⟨source, .blockRequest (service.runtime.chain.height + 1),
    outcome⟩ ∈ (service.handleFrame config env source frame).sent

/-- A tip above the own height makes the node ask a known peer for the next
block exactly when the runtime lock works and no request for this block is
marked as in flight. -/
theorem NodeService.asks_iff {service : NodeService} {tip : TipResponse}
    (hgate : service.Gated config)
    (hknown : source ∈ service.syncState.knownPeers)
    (hdecode : WireMessage.decode frame = .ok (.tipResponse tip))
    (htip : service.runtime.chain.height < tip.height) :
    service.Asks config env source frame ↔
      service.runtimePoisoned = false ∧
        service.syncState.inFlightBlocks.lookup source ≠
          some (service.runtime.chain.height + 1) := by
  have hlocal : source ∉ config.localAddrs := hgate.notLocal source hknown
  rw [Asks, handleFrame_tip hlocal hknown hdecode]
  exact Service.requestNextMissingBlock_requests htip rfl

end Frames

/-! ## The marker -/

/-- The transmission is a block request to the peer. -/
def Transmission.Requests (transmission : Transmission) (peer : SocketAddr) :
    Prop :=
  transmission.target = peer ∧
    ∃ height, transmission.message = .blockRequest height

/-- Whatever a session does, a marker it leaves for the peer was there before
or goes with an attempt to send the peer a request. -/
def Session.Tracks (peer source : SocketAddr) (known : Prop)
    (s s' : Session) : Prop :=
  s.sent ⊆ s'.sent ∧
  ∀ height, s'.sync.inFlightBlocks.lookup peer = some height →
    s.sync.inFlightBlocks.lookup peer = some height ∨
    (source = peer ∧ known ∧
      ∃ transmission ∈ s'.sent, transmission.Requests peer)

namespace Session

variable {peer source : SocketAddr} {known : Prop} {message : WireMessage}

omit [WireCodec] in
theorem Tracks.refl (s : Session) : s.Tracks peer source known s :=
  ⟨List.Subset.refl _, fun _ h => .inl h⟩

omit [WireCodec] in
theorem Tracks.trans (s₁ s₂ s₃ : Session)
    (h₁₂ : s₁.Tracks peer source known s₂)
    (h₂₃ : s₂.Tracks peer source known s₃) :
    s₁.Tracks peer source known s₃ := by
  refine ⟨List.Subset.trans h₁₂.1 h₂₃.1, fun height hmarker => ?_⟩
  rcases h₂₃.2 height hmarker with hmarker₂ | hrequested
  · rcases h₁₂.2 height hmarker₂ with hmarker₁ | ⟨heq, hknown, t, ht, hreq⟩
    · exact .inl hmarker₁
    · exact .inr ⟨heq, hknown, t, h₂₃.1 ht, hreq⟩
  · exact .inr hrequested

omit [WireCodec] in
/-- Effects which leave the markers alone. -/
theorem Tracks.of_marker {s s' : Session} (hsent : s.sent ⊆ s'.sent)
    (hmarker : s'.sync.inFlightBlocks = s.sync.inFlightBlocks) :
    s.Tracks peer source known s' :=
  ⟨hsent, fun _ h => .inl (hmarker ▸ h)⟩

variable [Blake3] [Bincode] [PqCrypto]

omit [WireCodec] in
theorem Effect.tracks {s s' : Session}
    (h : Session.Effect source known message s s') :
    s.Tracks peer source known s' := by
  cases h with
  | transmitted transmission =>
      exact .of_marker (List.subset_append_left _ _) rfl
  | responseNoted trusted =>
      refine ⟨List.Subset.refl _, fun height hmarker => .inl ?_⟩
      change (s.sync.inFlightBlocks.erase source).lookup peer =
        some height at hmarker
      by_cases hpeer : peer = source
      · rw [hpeer, Finmap.lookup_erase] at hmarker
        cases hmarker
      · rwa [Finmap.lookup_erase_ne hpeer] at hmarker
  | blockRequested requested outcome trusted =>
      refine ⟨List.subset_append_left _ _, fun height hmarker => ?_⟩
      change (s.sync.inFlightBlocks.insert source requested).lookup peer =
        some height at hmarker
      by_cases hpeer : peer = source
      · exact .inr ⟨hpeer.symm, trusted, _,
          List.mem_append_right _ List.mem_cons_self,
          hpeer.symm, requested, rfl⟩
      · rw [Finmap.lookup_insert_of_ne _ hpeer] at hmarker
        exact .inl hmarker
  | _ => exact .of_marker (List.Subset.refl _) rfl

omit [WireCodec] in
/-- A peer stays known unless it tells something incompatible about itself. -/
theorem Effect.stays_known {s s' : Session}
    (h : Session.Effect source known message s s')
    (hcompatible : source = peer → ∀ info, message = .nodeInfo info →
      ensureNodeInfoCompatible s.runtime.chain.chainId info = .ok ())
    (hpeer : peer ∈ s.sync.knownPeers) : peer ∈ s'.sync.knownPeers := by
  cases h with
  | rejected received incompatible =>
      have hne : peer ≠ source := by
        intro heq
        rw [hcompatible heq.symm _ received] at incompatible
        cases incompatible
      exact Finset.mem_erase.mpr ⟨hne, hpeer⟩
  | admitted time received compatible => exact Finset.mem_insert_of_mem hpeer
  | _ => exact hpeer

end Session

namespace NodeService

variable [Blake3] [Bincode] [PqCrypto] {config : ServiceConfig}
  {source peer : SocketAddr}

theorem handleFrame_tracks (service : NodeService) (config : ServiceConfig)
    (peer : SocketAddr) (env : Environment) (source : SocketAddr)
    (frame : Bytes) :
    (Session.start service).Tracks peer source
      (source ∈ service.syncState.knownPeers)
      (service.handleFrame config env source frame) :=
  handleFrame_invariant
    (fun s => (Session.start service).Tracks peer source
      (source ∈ service.syncState.knownPeers) s)
    (fun _ _ _ s s' heffect hs => .trans _ s s' hs heffect.tracks) (.refl _)

/-- After a response of a known peer a marker goes with a new request. -/
theorem handleFrame_response {service : NodeService} {env : Environment}
    {frame : Bytes} {height : UInt64} {block : Option Block}
    (hlocal : peer ∉ config.localAddrs)
    (hknown : peer ∈ service.syncState.knownPeers)
    (hdecode : WireMessage.decode frame = .ok (.blockResponse height block))
    {marked : UInt64}
    (hmarker : (service.handleFrame config env peer
      frame).sync.inFlightBlocks.lookup peer = some marked) :
    ∃ transmission ∈ (service.handleFrame config env peer frame).sent,
      transmission.Requests peer := by
  let cleared := (Session.start service).setSync
    (service.syncState.clearInFlight peer)
  have hcleared : (Service.updateSync fun sync =>
      sync.clearInFlight peer).exec (Session.start service) =
        (.ok (), cleared) := exec_update _ _
  have hafter : service.handleFrame config env peer frame =
      (Service.handleReceivedBlock env peer height block).after cleared := by
    rw [handleFrame_of_decode hlocal hdecode, Service.handleMessage, after,
      Service.handleBlockResponse, Service.ifCompatible_of_known hknown,
      exec_bind_of_ok hcleared]
    rfl
  have hacts : Service.Acts peer True (.blockResponse height block)
      (Service.handleReceivedBlock env peer height block) cleared :=
    Service.handleReceivedBlock_acts height block trivial
  have htracks : cleared.Tracks peer peer True
      ((Service.handleReceivedBlock env peer height block).after cleared) :=
    hacts.related .refl .trans fun _ _ heffect => heffect.tracks
  rw [hafter] at hmarker ⊢
  rcases htracks.2 marked hmarker with hold | ⟨-, -, hrequested⟩
  · -- The marker was removed before the block was looked at.
    change (service.syncState.inFlightBlocks.erase peer).lookup peer =
      some marked at hold
    rw [Finmap.lookup_erase] at hold
    cases hold
  · exact hrequested

theorem handleFrame_stays_known {service : NodeService} (env : Environment)
    {frame : Bytes} (hknown : peer ∈ service.syncState.knownPeers)
    (hcompatible : source = peer → ∀ info,
      WireMessage.decode frame = .ok (.nodeInfo info) →
      ensureNodeInfoCompatible service.runtime.chain.chainId info = .ok ()) :
    peer ∈ (service.handleFrame config env source frame).sync.knownPeers := by
  -- The chain id the node information is compared with does not change.
  have hstep : ∀ message, source ∉ config.localAddrs →
      WireMessage.decode frame = .ok message → ∀ s s',
        Session.Effect source (source ∈ service.syncState.knownPeers) message
          s s' →
        s.runtime.chain.chainId = service.runtime.chain.chainId ∧
          peer ∈ s.sync.knownPeers →
        s'.runtime.chain.chainId = service.runtime.chain.chainId ∧
          peer ∈ s'.sync.knownPeers := by
    intro message _ hdecode s s' heffect hs
    refine ⟨heffect.chainId.trans hs.1, heffect.stays_known ?_ hs.2⟩
    intro heq info hinfo
    rw [hs.1]
    exact hcompatible heq info (hinfo ▸ hdecode)
  exact (handleFrame_invariant
    (fun s => s.runtime.chain.chainId = service.runtime.chain.chainId ∧
      peer ∈ s.sync.knownPeers) hstep ⟨rfl, hknown⟩).2

end NodeService

end QCoin
