import QCoin.Consensus.Chain
import QCoin.Node.Effects

/-!
# Admission of peers

The peer tables of a service over its whole life: known, rejected and
announcing peers are kept apart, a known peer is one with compatible node
information, and only known peers reach the chain.
-/

namespace QCoin

open Support
open Support.Stateful

/-! ## Runs of a service -/

/-- A frame arrives, or another part of the node calls the runtime. -/
inductive ServiceEvent where
  | frame (env : Environment) (source : SocketAddr) (bytes : Bytes)
  | call (call : NodeRuntime.Call)

section Runs

variable [WireCodec] [Blake3] [Bincode] [PqCrypto]

namespace NodeRuntime

def panics (runtime : NodeRuntime) : Call → Bool
  | .acceptTransaction tx => (runtime.acceptTransaction tx).1.isPanic
  | .applyBlock block saves => (runtime.applyBlock block saves).1.isPanic
  | .produceOneBlock clock entropy saves =>
      (runtime.produceOneBlock clock entropy saves).1.isPanic

end NodeRuntime

namespace NodeService

/-- The session after a frame, however its handler ends. -/
def handleFrame (service : NodeService) (config : ServiceConfig)
    (env : Environment) (source : SocketAddr) (frame : Bytes) : Session :=
  (Service.handleFrame config env source frame).after (Session.start service)

/-- A call locks the runtime; on a poisoned lock it fails. -/
def performCall (service : NodeService) (call : NodeRuntime.Call) :
    NodeService :=
  if service.runtimePoisoned then service
  else { service with
    runtime := service.runtime.perform call
    runtimePoisoned := service.runtime.panics call }

def perform (config : ServiceConfig) (service : NodeService) :
    ServiceEvent → NodeService
  | .frame env source bytes =>
      (service.handleFrame config env source bytes).service
  | .call call => service.performCall call

def run (config : ServiceConfig) (service : NodeService)
    (events : List ServiceEvent) : NodeService :=
  events.foldl (perform config) service

/-- Run rule: what every event preserves holds after any run. -/
theorem run_invariant {config : ServiceConfig} (Inv : NodeService → Prop)
    (hstep : ∀ service event, Inv service → Inv (service.perform config event))
    {service : NodeService} (hinit : Inv service)
    (events : List ServiceEvent) : Inv (service.run config events) := by
  induction events generalizing service with
  | nil => exact hinit
  | cons event events ih => exact ih (hstep service event hinit)

/-- A frame changes nothing, or it holds a message whose effects it has. -/
theorem handleFrame_cases (service : NodeService) (config : ServiceConfig)
    (env : Environment) (source : SocketAddr) (frame : Bytes) :
    service.handleFrame config env source frame = Session.start service ∨
    ∃ message, source ∉ config.localAddrs ∧
      WireMessage.decode frame = .ok message ∧
      service.handleFrame config env source frame =
        (Service.handleMessage config env source message).after
          (Session.start service) ∧
      Service.Acts source (source ∈ service.syncState.knownPeers) message
        (Service.handleMessage config env source message)
        (Session.start service) := by
  rw [handleFrame, Service.handleFrame]
  by_cases hlocal : source ∈ config.localAddrs
  · rw [if_pos hlocal]
    exact .inl rfl
  · rw [if_neg hlocal]
    cases hdecode : WireMessage.decode frame with
    | error err => exact .inl rfl
    | ok message =>
        exact .inr ⟨message, hlocal, rfl, rfl,
          Service.handleMessage_acts fun h => h⟩

/-- Frame rule: what every effect of the message preserves holds after the
frame. -/
theorem handleFrame_invariant {service : NodeService} {config : ServiceConfig}
    {env : Environment} {source : SocketAddr} {frame : Bytes}
    (Inv : Session → Prop)
    (hstep : ∀ message, source ∉ config.localAddrs →
      WireMessage.decode frame = .ok message → ∀ s s',
        Session.Effect source (source ∈ service.syncState.knownPeers) message
          s s' → Inv s → Inv s')
    (hinit : Inv (Session.start service)) :
    Inv (service.handleFrame config env source frame) := by
  rcases service.handleFrame_cases config env source frame with hsame |
    ⟨message, hlocal, hdecode, hafter, hacts⟩
  · rw [hsame]
    exact hinit
  · rw [hafter]
    exact hacts.invariant Inv (hstep message hlocal hdecode) hinit

end NodeService

end Runs

/-! ## The chain id -/

section ChainId

variable [Blake3] [Bincode] [PqCrypto]

theorem NodeRuntime.ChainStep.chainId {runtime after : NodeRuntime}
    (h : runtime.ChainStep after) :
    after.chain.chainId = runtime.chain.chainId := by
  rcases h with ⟨pending, rfl⟩ |
    ⟨block, nextChain, nextBlocks, pending, hprepare, rfl⟩
  · rfl
  · obtain ⟨-, happlied, -⟩ := prepareBlock_eq_ok.mp hprepare
    exact ChainState.applyBlock_chainId happlied

variable {source : SocketAddr} {known : Prop} {message : WireMessage}

theorem Session.Effect.chainId {s s' : Session}
    (h : Session.Effect source known message s s') :
    s'.runtime.chain.chainId = s.runtime.chain.chainId := by
  cases h with
  | blockApplied block saves panicked trusted =>
      exact (s.runtime.applyBlock_chainStep block saves).chainId
  | transactionAccepted tx panicked allowed =>
      exact (s.runtime.perform_chainStep (.acceptTransaction tx)).chainId
  | _ => rfl

end ChainId

/-! ## The peer tables -/

/-- The peer tables of a node of the given chain. -/
structure SyncState.Gate (localAddrs : Finset SocketAddr) (chainId : UInt32)
    (sync : SyncState) : Prop where
  notLocal : ∀ peer ∈ sync.knownPeers, peer ∉ localAddrs
  notRejected : ∀ peer ∈ sync.knownPeers, peer ∉ sync.peerRejections
  pendingUnknown : ∀ peer ∈ sync.pendingTransactionAnnouncements,
    peer ∉ sync.knownPeers
  pendingNotRejected : ∀ peer ∈ sync.pendingTransactionAnnouncements,
    peer ∉ sync.peerRejections
  described : ∀ peer, peer ∈ sync.knownPeers ↔ peer ∈ sync.peerNodeInfo
  compatible : ∀ peer info, sync.peerNodeInfo.lookup peer = some info →
    ensureNodeInfoCompatible chainId info = .ok ()

namespace SyncState

variable {localAddrs : Finset SocketAddr} {chainId : UInt32}
  {sync : SyncState} {source : SocketAddr}

theorem gate_new : SyncState.new.Gate localAddrs chainId where
  notLocal _ h := absurd h (Finset.notMem_empty _)
  notRejected _ h := absurd h (Finset.notMem_empty _)
  pendingUnknown _ h := absurd h Finmap.notMem_empty
  pendingNotRejected _ h := absurd h Finmap.notMem_empty
  described peer := by
    change peer ∈ (∅ : Finset SocketAddr) ↔
      peer ∈ (∅ : FinMap SocketAddr NodeInfo)
    simp only [Finset.notMem_empty, Finmap.notMem_empty]
  compatible peer info h := by
    change (∅ : FinMap SocketAddr NodeInfo).lookup peer = some info at h
    rw [Finmap.lookup_empty] at h
    cases h

/-- Only four of the tables matter. -/
theorem Gate.untouched {sync' : SyncState} (h : sync.Gate localAddrs chainId)
    (hknown : sync'.knownPeers = sync.knownPeers)
    (hinfo : sync'.peerNodeInfo = sync.peerNodeInfo)
    (hrejections : sync'.peerRejections = sync.peerRejections)
    (hpending : sync'.pendingTransactionAnnouncements =
      sync.pendingTransactionAnnouncements) :
    sync'.Gate localAddrs chainId where
  notLocal := hknown ▸ h.notLocal
  notRejected := hknown ▸ hrejections ▸ h.notRejected
  pendingUnknown := hknown ▸ hpending ▸ h.pendingUnknown
  pendingNotRejected := hpending ▸ hrejections ▸ h.pendingNotRejected
  described := hknown ▸ hinfo ▸ h.described
  compatible := hinfo ▸ h.compatible

/-- A rejected peer leaves all tables but the one of rejections. -/
theorem Gate.reject (h : sync.Gate localAddrs chainId) (err : String) :
    (sync.reject source err).Gate localAddrs chainId where
  notLocal peer hpeer := h.notLocal peer (Finset.mem_of_mem_erase hpeer)
  notRejected peer hpeer := by
    obtain ⟨hne, hknown⟩ := Finset.mem_erase.mp hpeer
    rw [SyncState.reject, Finmap.mem_insert, not_or]
    exact ⟨hne, h.notRejected peer hknown⟩
  pendingUnknown peer hpeer hknown :=
    h.pendingUnknown peer (Finmap.mem_erase.mp hpeer).2
      (Finset.mem_of_mem_erase hknown)
  pendingNotRejected peer hpeer := by
    obtain ⟨hne, hpending⟩ := Finmap.mem_erase.mp hpeer
    rw [SyncState.reject, Finmap.mem_insert, not_or]
    exact ⟨hne, h.pendingNotRejected peer hpending⟩
  described peer := by
    rw [SyncState.reject, Finset.mem_erase, Finmap.mem_erase, h.described]
  compatible peer info hinfo := by
    by_cases hpeer : peer = source
    · rw [SyncState.reject, hpeer, Finmap.lookup_erase] at hinfo
      cases hinfo
    · rw [SyncState.reject, Finmap.lookup_erase_ne hpeer] at hinfo
      exact h.compatible peer info hinfo

/-- A peer is admitted with compatible information. -/
theorem Gate.accept (h : sync.Gate localAddrs chainId) {info : NodeInfo}
    (time : Instant) (hlocal : source ∉ localAddrs)
    (hcompatible : ensureNodeInfoCompatible chainId info = .ok ()) :
    (sync.accept source info time).Gate localAddrs chainId where
  notLocal peer hpeer := by
    rcases Finset.mem_insert.mp hpeer with rfl | hknown
    · exact hlocal
    · exact h.notLocal peer hknown
  notRejected peer hpeer hrejected := by
    obtain ⟨hne, hrejection⟩ := Finmap.mem_erase.mp hrejected
    rcases Finset.mem_insert.mp hpeer with heq | hknown
    · exact hne heq
    · exact h.notRejected peer hknown hrejection
  pendingUnknown peer hpeer hknown := by
    obtain ⟨hne, hpending⟩ := Finmap.mem_erase.mp hpeer
    rcases Finset.mem_insert.mp hknown with heq | hold
    · exact hne heq
    · exact h.pendingUnknown peer hpending hold
  pendingNotRejected peer hpeer hrejected :=
    h.pendingNotRejected peer (Finmap.mem_erase.mp hpeer).2
      (Finmap.mem_erase.mp hrejected).2
  described peer := by
    rw [SyncState.accept, Finset.mem_insert, Finmap.mem_insert, h.described]
  compatible peer info' hinfo := by
    by_cases hpeer : peer = source
    · rw [SyncState.accept, hpeer, Finmap.lookup_insert] at hinfo
      rw [← Option.some.inj hinfo]
      exact hcompatible
    · rw [SyncState.accept, Finmap.lookup_insert_of_ne _ hpeer] at hinfo
      exact h.compatible peer info' hinfo

theorem Gate.announce (h : sync.Gate localAddrs chainId) (txId : Hash256)
    (hunknown : source ∉ sync.knownPeers)
    (hnotRejected : source ∉ sync.peerRejections) :
    (sync.announce source txId).Gate localAddrs chainId where
  notLocal := h.notLocal
  notRejected := h.notRejected
  pendingUnknown peer hpeer := by
    rcases Finmap.mem_insert.mp hpeer with rfl | hpending
    · exact hunknown
    · exact h.pendingUnknown peer hpending
  pendingNotRejected peer hpeer := by
    rcases Finmap.mem_insert.mp hpeer with rfl | hpending
    · exact hnotRejected
    · exact h.pendingNotRejected peer hpending
  described := h.described
  compatible := h.compatible

end SyncState

section Gate

variable [Blake3] [Bincode] [PqCrypto]

/-- The tables of a service fit the chain it holds. -/
def NodeService.Gated (config : ServiceConfig) (service : NodeService) :
    Prop :=
  service.syncState.Gate config.localAddrs service.runtime.chain.chainId

variable {config : ServiceConfig} {source : SocketAddr} {known : Prop}
  {message : WireMessage}

/-- Every effect of a message of another node keeps the tables in order. -/
theorem Session.Effect.gated {s s' : Session}
    (h : Session.Effect source known message s s')
    (hlocal : source ∉ config.localAddrs) (hgate : s.service.Gated config) :
    s'.service.Gated config := by
  have hchain := h.chainId
  rw [NodeService.Gated] at hgate ⊢
  rw [Session.runtime, Session.runtime] at hchain
  rw [hchain]
  cases h with
  | rejected received incompatible => exact hgate.reject _
  | admitted time received compatible =>
      exact hgate.accept time hlocal compatible
  | announced txId unknown notRejected =>
      exact hgate.announce txId unknown notRejected
  | timesNoted seen sent probed => exact hgate.untouched rfl rfl rfl rfl
  | tipNoted height trusted => exact hgate.untouched rfl rfl rfl rfl
  | responseNoted trusted => exact hgate.untouched rfl rfl rfl rfl
  | blockRequested height outcome trusted =>
      exact hgate.untouched rfl rfl rfl rfl
  | _ => exact hgate

/-- What an unknown source cannot reach. -/
theorem Session.Effect.chain_of_unknown {s s' : Session}
    (h : Session.Effect source known message s s') (hunknown : ¬known) :
    s'.runtime.chain = s.runtime.chain ∧
      s'.runtime.blocks = s.runtime.blocks := by
  cases h with
  | blockApplied block saves panicked trusted => exact absurd trusted hunknown
  | transactionAccepted tx panicked allowed =>
      change (s.runtime.acceptTransaction tx).2.chain = s.runtime.chain ∧
        (s.runtime.acceptTransaction tx).2.blocks = s.runtime.blocks
      rcases s.runtime.acceptTransaction_cases tx with hsame |
        ⟨txId, -, haccept⟩
      · rw [hsame]
        exact ⟨rfl, rfl⟩
      · rw [haccept]
        exact ⟨rfl, rfl⟩
  | _ => exact ⟨rfl, rfl⟩

theorem Session.Effect.runtime_of_unknown {s s' : Session}
    (h : Session.Effect source known message s s') (hunknown : ¬known)
    (hmessage : ∀ tx, message ≠ .submitTransaction tx) :
    s'.runtime = s.runtime := by
  cases h with
  | blockApplied block saves panicked trusted => exact absurd trusted hunknown
  | transactionAccepted tx panicked allowed =>
      rcases allowed with trusted | received
      · exact absurd trusted hunknown
      · exact absurd received (hmessage tx)
  | _ => rfl

namespace NodeService

variable [WireCodec]

theorem handleFrame_chainId (service : NodeService) (config : ServiceConfig)
    (env : Environment) (source : SocketAddr) (frame : Bytes) :
    (service.handleFrame config env source frame).runtime.chain.chainId =
      service.runtime.chain.chainId :=
  handleFrame_invariant
    (fun s => s.runtime.chain.chainId = service.runtime.chain.chainId)
    (fun _ _ _ _ _ heffect hs => heffect.chainId.trans hs) rfl

omit [WireCodec] in
theorem performCall_chainId (service : NodeService)
    (call : NodeRuntime.Call) :
    (service.performCall call).runtime.chain.chainId =
      service.runtime.chain.chainId := by
  rw [performCall]
  by_cases hpoison : service.runtimePoisoned = true
  · rw [if_pos hpoison]
  · rw [if_neg hpoison]
    exact (service.runtime.perform_chainStep call).chainId

omit [WireCodec] in
theorem performCall_syncState (service : NodeService)
    (call : NodeRuntime.Call) :
    (service.performCall call).syncState = service.syncState := by
  rw [performCall]
  by_cases hpoison : service.runtimePoisoned = true
  · rw [if_pos hpoison]
  · rw [if_neg hpoison]

theorem handleFrame_gated {service : NodeService}
    (hgate : service.Gated config) (env : Environment) (source : SocketAddr)
    (frame : Bytes) :
    (service.handleFrame config env source frame).service.Gated config :=
  handleFrame_invariant (fun s => s.service.Gated config)
    (fun _ hlocal _ _ _ heffect hs => heffect.gated hlocal hs) hgate

omit [WireCodec] in
theorem performCall_gated {service : NodeService}
    (hgate : service.Gated config) (call : NodeRuntime.Call) :
    (service.performCall call).Gated config := by
  rw [performCall]
  by_cases hpoison : service.runtimePoisoned = true
  · rw [if_pos hpoison]
    exact hgate
  · rw [if_neg hpoison, Gated,
      (service.runtime.perform_chainStep call).chainId]
    exact hgate

theorem run_gated {service : NodeService} (hgate : service.Gated config)
    (events : List ServiceEvent) : (service.run config events).Gated config :=
  run_invariant (Gated config) (fun service event h => by
    cases event with
    | frame env source bytes => exact handleFrame_gated h env source bytes
    | call call => exact performCall_gated h call) hgate events

theorem handleFrame_chain_of_unknown {service : NodeService}
    {source : SocketAddr}
    (hunknown : source ∉ service.syncState.knownPeers)
    (config : ServiceConfig) (env : Environment) (frame : Bytes) :
    let after := (service.handleFrame config env source frame).service
    after.runtime.chain = service.runtime.chain ∧
      after.runtime.blocks = service.runtime.blocks := by
  refine handleFrame_invariant
    (fun s => s.runtime.chain = service.runtime.chain ∧
      s.runtime.blocks = service.runtime.blocks) ?_ ⟨rfl, rfl⟩
  intro message _ _ s s' heffect hs
  obtain ⟨hchain, hblocks⟩ := heffect.chain_of_unknown hunknown
  exact ⟨hchain.trans hs.1, hblocks.trans hs.2⟩

theorem handleFrame_runtime_of_unknown {service : NodeService}
    {source : SocketAddr}
    (hunknown : source ∉ service.syncState.knownPeers) (env : Environment)
    {frame : Bytes}
    (hframe : ∀ tx, WireMessage.decode frame ≠ .ok (.submitTransaction tx)) :
    (service.handleFrame config env source frame).service.runtime =
      service.runtime := by
  refine handleFrame_invariant (fun s => s.runtime = service.runtime) ?_ rfl
  intro message _ hdecode s s' heffect hs
  have hmessage : ∀ tx, message ≠ .submitTransaction tx := by
    rintro tx rfl
    exact hframe tx hdecode
  exact (heffect.runtime_of_unknown hunknown hmessage).trans hs

end NodeService

/-- Peer admission.  In every state a service reaches from empty tables,
whatever the frames and the other calls on its runtime, the tables agree about
every peer, and a frame of an unknown source leaves the chain alone and, unless
it submits a transaction, the pending transactions too. -/
theorem admission_gate [WireCodec] (config : ServiceConfig)
    (runtime : NodeRuntime) (events : List ServiceEvent) :
    let service := (NodeService.new runtime).run config events
    let tables := service.syncState
    (∀ peer ∈ tables.knownPeers, peer ∉ tables.peerRejections) ∧
    (∀ peer ∈ tables.pendingTransactionAnnouncements,
      peer ∉ tables.knownPeers ∧ peer ∉ tables.peerRejections) ∧
    (∀ peer, peer ∈ tables.knownPeers ↔ peer ∈ tables.peerNodeInfo) ∧
    (∀ peer info, tables.peerNodeInfo.lookup peer = some info →
      ensureNodeInfoCompatible service.runtime.chain.chainId info = .ok ()) ∧
    ∀ (env : Environment) (source : SocketAddr) (frame : Bytes),
      let after := (service.handleFrame config env source frame).service
      (after.runtime.chain ≠ service.runtime.chain ∨
        after.runtime.blocks ≠ service.runtime.blocks →
          source ∈ tables.knownPeers) ∧
      (after.runtime.pendingTransactions ≠
          service.runtime.pendingTransactions →
        source ∈ tables.knownPeers ∨
          ∃ tx, WireMessage.decode frame = .ok (.submitTransaction tx)) := by
  intro service tables
  have hnew : (NodeService.new runtime).Gated config := SyncState.gate_new
  have hgate : service.Gated config := NodeService.run_gated hnew events
  refine ⟨hgate.notRejected, fun peer hpeer =>
    ⟨hgate.pendingUnknown peer hpeer, hgate.pendingNotRejected peer hpeer⟩,
    hgate.described, hgate.compatible, fun env source frame => ⟨?_, ?_⟩⟩
  · intro hchanged
    by_contra hunknown
    obtain ⟨hchain, hblocks⟩ :=
      NodeService.handleFrame_chain_of_unknown hunknown config env frame
    exact hchanged.elim (fun h => h hchain) fun h => h hblocks
  · intro hchanged
    by_contra hnone
    rw [not_or] at hnone
    apply hchanged
    rw [NodeService.handleFrame_runtime_of_unknown hnone.1 env
      fun tx htx => hnone.2 ⟨tx, htx⟩]

end Gate

end QCoin
