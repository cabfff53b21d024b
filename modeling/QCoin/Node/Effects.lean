import QCoin.Node.Service

/-!
# What a frame can do

The effects a message can have on the service, each with the condition under
which its handler brings it about.  Every handler acts by these effects only,
so a fact about all frames is a fact about each effect.
-/

namespace QCoin

open Support
open Support.Stateful

/-! ## Reading the runtime -/

theorem Session.setRuntime_same {s : Session}
    (hpoison : s.service.runtimePoisoned = false) :
    s.setRuntime s.runtime false = s := by
  obtain ⟨⟨runtime, poisoned, state⟩, sent, reads⟩ := s
  dsimp only at hpoison
  rw [hpoison]
  rfl

namespace Service

variable {s : Session}

/-- Reading the runtime fails on a poisoned lock, panics or changes
nothing. -/
theorem withRuntime_exec {α : Type} (f : NodeRuntime → Option α) :
    (withRuntime f).exec s =
      if s.service.runtimePoisoned then
        (.error (.err runtimeLockError), s)
      else
        match f s.runtime with
        | some a => (.ok a, s)
        | none => (.error .panic, s.setRuntime s.runtime true) := by
  rw [withRuntime, withRuntimeMut, exec_call]
  by_cases hpoison : s.service.runtimePoisoned = true
  · rw [if_pos hpoison, if_pos hpoison]
  · rw [if_neg hpoison, if_neg hpoison]
    cases f s.runtime with
    | none => rfl
    | some a =>
        rw [Bool.not_eq_true] at hpoison
        change (Except.ok a, s.setRuntime s.runtime false) = (Except.ok a, s)
        rw [Session.setRuntime_same hpoison]

theorem withRuntime_eq_ok {α : Type} {f : NodeRuntime → Option α} {a : α}
    (h : (withRuntime f).result s = .ok a) :
    f s.runtime = some a ∧ (withRuntime f).after s = s := by
  rw [result, withRuntime_exec] at h
  rw [after, withRuntime_exec]
  by_cases hpoison : s.service.runtimePoisoned = true
  · rw [if_pos hpoison] at h
    cases h
  · rw [if_neg hpoison] at h ⊢
    cases hf : f s.runtime with
    | none =>
        rw [hf] at h
        cases h
    | some b =>
        rw [hf] at h
        exact ⟨congrArg some (Except.ok.inj h), rfl⟩

end Service

/-! ## Effects -/

variable [Blake3] [Bincode] [PqCrypto]

/-- One effect of a `message` from `source`.  Whether the source was a known
peer when the frame arrived is `known`. -/
inductive Session.Effect (source : SocketAddr) (known : Prop)
    (message : WireMessage) : Session → Session → Prop where
  | clockRead {s : Session} :
      Effect source known message s { s with clockReads := s.clockReads + 1 }
  | timesNoted {s : Session} (seen sent probed : FinMap SocketAddr Instant) :
      Effect source known message s (s.setSync { s.sync with
        peerLastPresenceSeenAt := seen
        peerLastNodeInfoSentAt := sent
        peerLastNodeInfoProbeAt := probed })
  | transmitted {s : Session} (transmission : Transmission) :
      Effect source known message s (s.record transmission)
  | tipNoted {s : Session} (height : UInt64) (trusted : known) :
      Effect source known message s (s.setSync (s.sync.setTip source height))
  | responseNoted {s : Session} (trusted : known) :
      Effect source known message s (s.setSync (s.sync.clearInFlight source))
  | blockRequested {s : Session} (height : UInt64)
      (outcome : Except String Unit) (trusted : known) :
      Effect source known message s
        ((s.setSync (s.sync.setInFlight source height)).record
          ⟨source, .blockRequest height, outcome⟩)
  | rejected {s : Session} {info : NodeInfo} {err : String}
      (received : message = .nodeInfo info)
      (incompatible : ensureNodeInfoCompatible s.runtime.chain.chainId info =
        .error err) :
      Effect source known message s (s.setSync (s.sync.reject source err))
  | admitted {s : Session} {info : NodeInfo} (time : Instant)
      (received : message = .nodeInfo info)
      (compatible : ensureNodeInfoCompatible s.runtime.chain.chainId info =
        .ok ()) :
      Effect source known message s
        (s.setSync (s.sync.accept source info time))
  | announced {s : Session} (txId : Hash256)
      (unknown : source ∉ s.sync.knownPeers)
      (notRejected : source ∉ s.sync.peerRejections) :
      Effect source known message s (s.setSync (s.sync.announce source txId))
  | blockApplied {s : Session} (block : Block) (saves : SaveOutcomes)
      (panicked : Bool) (trusted : known) :
      Effect source known message s
        (s.setRuntime (s.runtime.applyBlock block saves).2 panicked)
  | transactionAccepted {s : Session} (tx : Transaction) (panicked : Bool)
      (allowed : known ∨ message = .submitTransaction tx) :
      Effect source known message s
        (s.setRuntime (s.runtime.acceptTransaction tx).2 panicked)
  | panicked {s : Session} :
      Effect source known message s (s.setRuntime s.runtime true)

/-- The effects again, with the times at which a node notes that it sent its
node information: these are readings of the clock. -/
inductive Session.TimedEffect (env : Environment) (source : SocketAddr)
    (known : Prop) (message : WireMessage) : Session → Session → Prop where
  | untimed {s s' : Session} (effect : Session.Effect source known message s s')
      (kept : s'.sync.peerLastNodeInfoSentAt =
        s.sync.peerLastNodeInfoSentAt) :
      TimedEffect env source known message s s'
  | infoNoted {s : Session} (reading : ℕ) :
      TimedEffect env source known message s
        (s.setSync (s.sync.infoSent source (env.clock reading)))

theorem Session.TimedEffect.effect {env : Environment} {source : SocketAddr}
    {known : Prop} {message : WireMessage} {s s' : Session}
    (h : Session.TimedEffect env source known message s s') :
    Session.Effect source known message s s' := by
  cases h with
  | untimed effect kept => exact effect
  | infoNoted reading => exact .timesNoted _ _ _

namespace Service

/-- The call acts by effects of the message. -/
abbrev Acts {α : Type} (source : SocketAddr) (known : Prop)
    (message : WireMessage) (x : ServiceM α) (s : Session) : Prop :=
  Takes (Session.Effect source known message) x s

abbrev ActsTimed {α : Type} (env : Environment) (source : SocketAddr)
    (known : Prop) (message : WireMessage) (x : ServiceM α) (s : Session) :
    Prop :=
  Takes (Session.TimedEffect env source known message) x s

variable {config : ServiceConfig} {env : Environment} {source : SocketAddr}
  {known : Prop} {message : WireMessage} {s : Session}

/-! ## Calls on the runtime -/

theorem now_timed : ActsTimed env source known message (now env) s :=
  .step (.untimed .clockRead rfl)

theorem withRuntime_timed {α : Type} (f : NodeRuntime → Option α) :
    ActsTimed env source known message (withRuntime f) s := by
  by_cases hpoison : s.service.runtimePoisoned = true
  · apply Takes.still
    rw [after, withRuntime_exec, if_pos hpoison]
  · cases hf : f s.runtime with
    | none =>
        apply Takes.step
        rw [after, withRuntime_exec, if_neg hpoison, hf]
        exact .untimed .panicked rfl
    | some a =>
        apply Takes.still
        rw [after, withRuntime_exec, if_neg hpoison, hf]

theorem withRuntimeMut_timed {α : Type}
    {f : NodeRuntime → Result String α × NodeRuntime}
    (h : ∀ panicked, Session.Effect source known message s
      (s.setRuntime (f s.runtime).2 panicked)) :
    ActsTimed env source known message (withRuntimeMut f) s := by
  by_cases hpoison : s.service.runtimePoisoned = true
  · apply Takes.still
    rw [after, withRuntimeMut, exec_call, if_pos hpoison]
  · apply Takes.step
    rw [after, withRuntimeMut, exec_call, if_neg hpoison]
    split
    · rename_i runtime hf
      have hafter := h true
      rw [hf] at hafter
      exact .untimed hafter rfl
    · rename_i runtime _ hf
      have hafter := h false
      rw [hf] at hafter
      exact .untimed hafter rfl

theorem applyRemoteBlock_timed (block : Block) (trusted : known) :
    ActsTimed env source known message (applyRemoteBlock env block) s :=
  withRuntimeMut_timed fun panicked =>
    .blockApplied block env.saves panicked trusted

theorem acceptTransaction_timed (tx : Transaction)
    (allowed : known ∨ message = .submitTransaction tx) :
    ActsTimed env source known message (acceptTransaction tx) s :=
  withRuntimeMut_timed fun panicked =>
    .transactionAccepted tx panicked allowed

/-! ## Admission of peers -/

variable [WireCodec]

theorem sendWire_timed (target : SocketAddr) (sent : WireMessage) :
    ActsTimed env source known message (sendWire env target sent) s :=
  .step (.untimed (.transmitted _) rfl)

theorem sendLocalNodeInfo_timed :
    ActsTimed env source known message (sendLocalNodeInfo config env source) s := by
  refine now_timed.bind fun time htime => ?_
  obtain rfl : env.clock s.clockReads = time := Except.ok.inj htime
  refine (Takes.update (.infoNoted s.clockReads)).bind fun _ _ => ?_
  exact (withRuntime_timed _).bind fun _ _ => sendWire_timed _ _

theorem requestNodeInfoExchange_timed :
    ActsTimed env source known message (requestNodeInfoExchange config env source)
      s := by
  refine now_timed.bind fun _ _ => ?_
  refine (Takes.update (.untimed (.timesNoted _ _ _) rfl)).bind fun _ _ => ?_
  refine (Takes.inspect _).bind fun _ _ => .ite (fun _ => ?_) fun _ => .pure _
  refine (Takes.update (.untimed (.timesNoted _ _ _) rfl)).bind fun _ _ => ?_
  exact (sendWire_timed _ _).attempt.bind fun _ _ => sendLocalNodeInfo_timed

theorem handlePresenceAnnounce_timed :
    ActsTimed env source known message (handlePresenceAnnounce config env source)
      s := by
  refine now_timed.bind fun _ _ => ?_
  refine (Takes.update (.untimed (.timesNoted _ _ _) rfl)).bind fun _ _ => ?_
  refine (Takes.inspect _).bind fun _ _ => .ite (fun _ => ?_) fun _ => .pure _
  exact sendLocalNodeInfo_timed

omit [Blake3] [Bincode] [PqCrypto] in
theorem ensureCompatiblePeer_of_known (h : source ∈ s.sync.knownPeers) :
    (ensureCompatiblePeer config env source).exec s = (.ok true, s) := by
  have hsync : sync.exec s = (.ok s.sync, s) := exec_inspect _ _
  rw [ensureCompatiblePeer, exec_bind_of_ok hsync, if_pos h, exec_pure]

theorem ensureCompatiblePeer_timed :
    ActsTimed env source known message (ensureCompatiblePeer config env source)
      s := by
  refine (Takes.inspect _).bind fun state _ => .ite (fun _ => .pure _) ?_
  intro _
  cases state.peerRejections.lookup source with
  | some rejection => exact .fail _
  | none =>
      exact requestNodeInfoExchange_timed.attempt.bind fun _ _ => .pure _

omit [Blake3] [Bincode] [PqCrypto] in
theorem known_of_ensureCompatiblePeer
    (h : (ensureCompatiblePeer config env source).result s = .ok true) :
    source ∈ s.sync.knownPeers := by
  by_contra hunknown
  have hsync : sync.exec s = (.ok s.sync, s) := exec_inspect _ _
  rw [result, ensureCompatiblePeer, exec_bind_of_ok hsync,
    if_neg hunknown] at h
  cases hrejection : s.sync.peerRejections.lookup source with
  | some rejection =>
      simp [hrejection] at h
  | none =>
      simp only [hrejection, exec_bind] at h
      split at h
      · simp at h
      · simp at h

omit [Blake3] [Bincode] [PqCrypto] in
theorem ifCompatible_of_known {handler : ServiceM Unit}
    (h : source ∈ s.sync.knownPeers) :
    (ifCompatible config env source handler).exec s = handler.exec s := by
  rw [ifCompatible, exec_bind_of_ok (ensureCompatiblePeer_of_known h),
    if_pos rfl]

/-- A guarded handler runs for a known peer only. -/
theorem ifCompatible_timed {handler : ServiceM Unit}
    (h : source ∈ s.sync.knownPeers →
      ActsTimed env source known message handler s) :
    ActsTimed env source known message (ifCompatible config env source handler)
      s := by
  by_cases hknown : source ∈ s.sync.knownPeers
  · rw [ActsTimed, Takes, after, ifCompatible_of_known hknown]
    exact h hknown
  · refine ensureCompatiblePeer_timed.bind fun compatible hresult => ?_
    refine .ite (fun htrue => ?_) fun _ => .pure _
    rw [htrue] at hresult
    exact absurd (known_of_ensureCompatiblePeer hresult) hknown

/-- Answers which only read the runtime. -/
theorem answer_timed {α : Type} (f : NodeRuntime → Option α)
    (reply : α → WireMessage) :
    ActsTimed env source known message (ifCompatible config env source do
      let a ← withRuntime f
      sendWire env source (reply a)) s :=
  ifCompatible_timed fun _ => (withRuntime_timed f).bind fun _ _ =>
    sendWire_timed _ _

/-! ## Synchronization of blocks -/

theorem requestNextMissingBlock_timed (remoteTipHeight : UInt64)
    (trusted : known) :
    ActsTimed env source known message
      (requestNextMissingBlock env source remoteTipHeight) s := by
  refine (withRuntime_timed _).bind fun localHeight _ => ?_
  refine .ite (fun _ => .pure _) fun _ => ?_
  refine (Takes.inspect _).bind fun _ _ => .ite (fun _ => .pure _) fun _ => ?_
  -- The marker and the attempt to send are one effect.
  exact .step (.untimed (.blockRequested (localHeight + 1) _ trusted) rfl)

theorem requestFollowUpBlock_timed (trusted : known) :
    ActsTimed env source known message (requestFollowUpBlock env source) s :=
  (Takes.inspect _).bind fun _ _ => requestNextMissingBlock_timed _ trusted

theorem handleTipResponse_timed (tip : TipResponse)
    (h : source ∈ s.sync.knownPeers → known) :
    ActsTimed env source known message (handleTipResponse config env source tip)
      s := by
  refine ifCompatible_timed fun hknown => ?_
  refine (Takes.update (.untimed (.tipNoted _ (h hknown)) rfl)).bind fun _ _ => ?_
  exact requestNextMissingBlock_timed _ (h hknown)

theorem handleReceivedBlock_timed (height : UInt64) (block : Option Block)
    (trusted : known) :
    ActsTimed env source known message (handleReceivedBlock env source height block)
      s := by
  cases block with
  | none => exact .pure _
  | some block =>
      refine (withRuntime_timed _).bind fun _ _ => ?_
      refine .ite (fun _ => requestFollowUpBlock_timed trusted) fun _ => ?_
      refine (applyRemoteBlock_timed block trusted).attempt.bind ?_
      intro outcome _
      cases outcome with
      | ok _ => exact requestFollowUpBlock_timed trusted
      | error _ => exact .pure _

theorem handleBlockResponse_timed (height : UInt64) (block : Option Block)
    (h : source ∈ s.sync.knownPeers → known) :
    ActsTimed env source known message
      (handleBlockResponse config env source height block) s := by
  refine ifCompatible_timed fun hknown => ?_
  refine (Takes.update (.untimed (.responseNoted (h hknown)) rfl)).bind fun _ _ => ?_
  exact handleReceivedBlock_timed height block (h hknown)

theorem handleSubmitBlock_timed (block : Block)
    (h : source ∈ s.sync.knownPeers → known) :
    ActsTimed env source known message (handleSubmitBlock config env source block)
      s := by
  refine ifCompatible_timed fun hknown => ?_
  refine (applyRemoteBlock_timed block (h hknown)).attempt.bind ?_
  intro outcome _
  cases outcome with
  | ok _ => exact sendWire_timed _ _
  | error _ => exact (withRuntime_timed _).bind fun _ _ => sendWire_timed _ _

/-! ## Exchange of transactions -/

theorem broadcastTransactionAnnounce_timed (txId : Hash256) :
    ActsTimed env source known message (broadcastTransactionAnnounce config env txId)
      s := by
  refine .forM fun target _ s => (sendWire_timed _ _).attempt.bind ?_
  intro outcome _
  cases outcome with
  | ok _ => exact .pure _
  | error _ => exact .ite (fun _ => .pure _) fun _ => .fail _

theorem requestUnlessKnown_timed (txId : Hash256) :
    ActsTimed env source known message (requestUnlessKnown env source txId) s :=
  (withRuntime_timed _).bind fun _ _ =>
    .ite (fun _ => .pure _) fun _ => sendWire_timed _ _

theorem handleNodeInfo_timed {info : NodeInfo}
    (received : message = .nodeInfo info) :
    ActsTimed env source known message (handleNodeInfo env source info) s := by
  refine (withRuntime_timed _).bind fun chainId hresult => ?_
  obtain ⟨hchain, hafter⟩ := withRuntime_eq_ok hresult
  have hchainId : s.runtime.chain.chainId = chainId := Option.some.inj hchain
  rw [hafter, ← hchainId]
  cases hinfo : ensureNodeInfoCompatible s.runtime.chain.chainId info with
  | error err => exact .update (.untimed (.rejected received hinfo) rfl)
  | ok _ =>
      refine (Takes.inspect _).bind fun _ _ => ?_
      refine now_timed.bind fun time _ => ?_
      refine (Takes.update (.untimed (.admitted time received hinfo) rfl)).bind ?_
      exact fun _ _ => .forM fun txId _ _ => requestUnlessKnown_timed txId

theorem handleTransactionAnnounce_timed (txId : Hash256) :
    ActsTimed env source known message
      (handleTransactionAnnounce config env source txId) s := by
  refine (withRuntime_timed _).bind fun _ _ => ?_
  refine .ite (fun _ => .pure _) fun _ => ?_
  refine (Takes.inspect _).bind fun state hresult => ?_
  refine .ite (fun _ => sendWire_timed _ _) fun hunknown => ?_
  refine .ite (fun _ => .pure _) fun hnotRejected => ?_
  have hstate := Except.ok.inj hresult
  rw [← hstate] at hunknown hnotRejected
  refine (Takes.update
    (.untimed (.announced txId hunknown hnotRejected) rfl)).bind ?_
  exact fun _ _ => requestNodeInfoExchange_timed.attempt.bind fun _ _ => .pure _

theorem handleTransactionResponse_timed (txId : Hash256)
    (transaction : Option Transaction)
    (h : source ∈ s.sync.knownPeers → known) :
    ActsTimed env source known message
      (handleTransactionResponse config env source txId transaction) s := by
  refine ifCompatible_timed fun hknown => ?_
  cases transaction with
  | none => exact .pure _
  | some transaction =>
      refine (Takes.still rfl).bind fun _ _ => ?_
      refine .ite (fun _ => .fail _) fun _ => ?_
      refine (acceptTransaction_timed _ (.inl (h hknown))).bind ?_
      intro status _
      cases status with
      | acceptedNew _ => exact broadcastTransactionAnnounce_timed _
      | alreadyPending _ => exact .pure _

theorem handleSubmittedTransaction_timed {transaction : Transaction}
    (received : message = .submitTransaction transaction) :
    ActsTimed env source known message
      (handleSubmittedTransaction config env source transaction) s := by
  refine (Takes.still rfl).bind fun txId _ => ?_
  refine (acceptTransaction_timed _ (.inr received)).attempt.bind ?_
  refine fun status _ => (sendWire_timed _ _).bind fun _ _ => ?_
  cases (submitResponse txId status).2 with
  | none => exact .pure _
  | some _ =>
      exact (broadcastTransactionAnnounce_timed _).attempt.bind fun _ _ =>
        .pure _

/-! ## Messages -/

/-- Every message acts by its effects, at the times of the clock. -/
theorem handleMessage_timed (h : source ∈ s.sync.knownPeers → known) :
    ActsTimed env source known message (handleMessage config env source message)
      s := by
  cases message with
  | presenceAnnounce => exact handlePresenceAnnounce_timed
  | nodeInfo info => exact handleNodeInfo_timed rfl
  | tipRequest => exact answer_timed _ _
  | tipResponse tip => exact handleTipResponse_timed tip h
  | blockRequest height => exact answer_timed _ _
  | blockResponse height block => exact handleBlockResponse_timed height block h
  | submitBlock block => exact handleSubmitBlock_timed block h
  | submitBlockResponse _ => exact .pure _
  | transactionAnnounce txId => exact handleTransactionAnnounce_timed txId
  | transactionRequest txId => exact answer_timed _ _
  | transactionResponse txId transaction =>
      exact handleTransactionResponse_timed txId transaction h
  | submitTransaction transaction => exact handleSubmittedTransaction_timed rfl
  | submitTransactionResponse _ => exact .pure _

theorem handleReceivedBlock_acts (height : UInt64) (block : Option Block)
    (trusted : known) :
    Acts source known message (handleReceivedBlock env source height block)
      s :=
  (handleReceivedBlock_timed height block trusted).mono fun _ _ h => h.effect

theorem handleMessage_acts (h : source ∈ s.sync.knownPeers → known) :
    Acts source known message (handleMessage config env source message)
      s :=
  (handleMessage_timed h).mono fun _ _ h => h.effect

end Service

end QCoin
