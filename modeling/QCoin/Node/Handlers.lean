import QCoin.Node.Calls

/-!
# What stops a handler

For every message the states in which its handler fails or panics.  Everywhere
else the handler returns.
-/

namespace QCoin

open Support
open Support.Stateful

/-! ## Conditions -/

/-- The lookup of `has_transaction`. -/
def NodeRuntime.hasTransaction [Blake3] [Bincode] (runtime : NodeRuntime)
    (txId : Hash256) : Option Bool := do
  if ← anyTxId txId runtime.pendingTransactions then return true
  else anyTxId txId (committedTransactions runtime.blocks)

section Conditions

variable [WireCodec]

namespace NodeService

variable (service : NodeService) (config : ServiceConfig) (env : Environment)
  (source : SocketAddr)

/-- The peer was rejected and has not been accepted since. -/
def TurnedAway : Prop :=
  source ∉ service.syncState.knownPeers ∧
    source ∈ service.syncState.peerRejections

/-- A message for accepted peers only comes from a rejected one, or from an
accepted one in a state which stops its handler. -/
def Guarded (stops : Prop) : Prop :=
  service.TurnedAway source ∨
    source ∈ service.syncState.knownPeers ∧ stops

/-- An answer which is read from the runtime does not get out. -/
def Unanswered {α : Type} (f : NodeRuntime → Option α)
    (reply : α → WireMessage) : Prop :=
  service.runtimePoisoned = true ∨
    ∀ a, f service.runtime = some a → env.Unsent 0 source (reply a)

/-- The node is behind the peer and the request for the next block is not
sent. -/
def RequestLost (runtime : NodeRuntime) (inFlight : Option UInt64)
    (remoteTipHeight : UInt64) : Prop :=
  runtime.chain.height < remoteTipHeight ∧
    inFlight ≠ some (runtime.chain.height + 1) ∧
    env.Unsent 0 source (.blockRequest (runtime.chain.height + 1))

variable [Blake3] [Bincode] [PqCrypto]

/-- After a received block the follow-up request is lost, or the block makes
the node panic.  A block which is refused does no harm. -/
def BlockStops (height : UInt64) (block : Block) : Prop :=
  let remoteTipHeight :=
    (service.syncState.peerTipHeights.lookup source).getD 0
  service.runtimePoisoned = true ∨
    if height ≤ service.runtime.chain.height then
      RequestLost env source service.runtime none remoteTipHeight
    else
      match service.runtime.applyBlock block env.saves with
      | (.ok _, runtime) => RequestLost env source runtime none remoteTipHeight
      | (.error (.err _), _) => False
      | (.error .panic, _) => True

/-- A submitted block makes the node panic or its answer does not get out. -/
def SubmittedBlockStops (block : Block) : Prop :=
  service.runtimePoisoned = true ∨
    match service.runtime.applyBlock block env.saves with
    | (.ok height, _) => env.Unsent 0 source
        (.submitBlockResponse ⟨true, height, "block accepted"⟩)
    | (.error (.err err), runtime) => env.Unsent 0 source
        (.submitBlockResponse ⟨false, runtime.chain.height, err.display⟩)
    | (.error .panic, _) => True

/-- Among the transactions the peer announced before it was accepted there is
one whose lookup panics or whose request is not sent. -/
def PendingRequestLost : Prop :=
  ∃ before txId after,
    ((service.syncState.pendingTransactionAnnouncements.lookup source).map
      env.iterate).getD [] = before ++ txId :: after ∧
    (service.runtime.hasTransaction txId = none ∨
      service.runtime.hasTransaction txId = some false ∧
        env.Unsent
          (before.countP fun id =>
            service.runtime.hasTransaction id == some false)
          source (.transactionRequest txId))

/-- A transaction which was asked for is another one, is not accepted, or its
announcement is given up. -/
def ReceivedTransactionStops (txId : Hash256) (tx : Transaction) : Prop :=
  tx.txId ≠ some txId ∨ service.runtimePoisoned = true ∨
    match (service.runtime.acceptTransaction tx).1 with
    | .ok (.acceptedNew acceptedTxId) =>
        env.Unannounced 0 config.bootstrapTargets acceptedTxId
    | .ok (.alreadyPending _) => False
    | .error _ => True

/-- How a submission ends, unless it panics. -/
def submission (tx : Transaction) :
    Option (Except String TransactionAcceptStatus) :=
  if service.runtimePoisoned then some (.error Service.runtimeLockError)
  else
    match (service.runtime.acceptTransaction tx).1 with
    | .ok status => some (.ok status)
    | .error (.err err) => some (.error err.display)
    | .error .panic => none

/-- A submitted transaction makes the node panic or its answer does not get
out. -/
def SubmissionStops (tx : Transaction) : Prop :=
  ∀ txId, tx.txId = some txId →
    ∀ status, service.submission tx = some status →
      env.Unsent 0 source
        (.submitTransactionResponse (Service.submitResponse txId status).1)

/-- The state in which the handler of a message fails or panics. -/
def Stops : WireMessage → Prop
  | .presenceAnnounce =>
      (source ∉ service.syncState.knownPeers ∨
        Service.isDue
          (service.syncState.peerLastNodeInfoSentAt.lookup source)
          (env.clock 0) NODE_INFO_RESPONSE_MIN_INTERVAL = true) ∧
      service.Unanswered env source
        (fun runtime => some (localNodeInfo runtime.chain.chainId
          config.multicastEnabled config.nodePublicKeyHex
          config.nodeIsValidator config.produceEnabled))
        .nodeInfo
  | .nodeInfo info =>
      service.runtimePoisoned = true ∨
        ensureNodeInfoCompatible service.runtime.chain.chainId info = .ok () ∧
        service.PendingRequestLost env source
  | .tipRequest => service.Guarded source
      (service.Unanswered env source
        (fun runtime => some runtime.tipResponse) .tipResponse)
  | .tipResponse tip => service.Guarded source
      (service.runtimePoisoned = true ∨
        RequestLost env source service.runtime
          (service.syncState.inFlightBlocks.lookup source) tip.height)
  | .blockRequest height => service.Guarded source
      (service.Unanswered env source
        (fun runtime => some runtime.blocks[height.toNat - 1]?)
        (.blockResponse height))
  | .blockResponse height block => service.Guarded source
      (∃ received, block = some received ∧
        service.BlockStops env source height received)
  | .submitBlock block => service.Guarded source
      (service.SubmittedBlockStops env source block)
  | .submitBlockResponse _ => False
  | .transactionAnnounce txId =>
      service.runtimePoisoned = true ∨
        service.runtime.hasTransaction txId = none ∨
        service.runtime.hasTransaction txId = some false ∧
          source ∈ service.syncState.knownPeers ∧
          env.Unsent 0 source (.transactionRequest txId)
  | .transactionRequest txId => service.Guarded source
      (service.Unanswered env source
        (fun runtime => Service.findTxId txId runtime.pendingTransactions)
        (.transactionResponse txId))
  | .transactionResponse txId transaction => service.Guarded source
      (∃ tx, transaction = some tx ∧
        service.ReceivedTransactionStops config env txId tx)
  | .submitTransaction transaction =>
      service.SubmissionStops env source transaction
  | .submitTransactionResponse _ => False

end NodeService

end Conditions

/-! ## Every handler -/

namespace Service

variable [WireCodec]

variable {config : ServiceConfig} {env : Environment} {source : SocketAddr}
  {s : Session}

theorem survives_sendLocalNodeInfo :
    Survives (sendLocalNodeInfo config env source) s := by
  refine Survives.bind trivial fun _ _ => ?_
  refine Survives.bind trivial fun _ _ => ?_
  exact (survives_withRuntime fun _ => rfl).bind fun _ _ => survives_sendWire

theorem survives_requestNodeInfoExchange :
    Survives (requestNodeInfoExchange config env source) s := by
  refine Survives.bind trivial fun _ _ => ?_
  refine Survives.bind trivial fun _ _ => ?_
  refine Survives.bind trivial fun _ _ => .ite ?_ trivial
  refine Survives.bind trivial fun _ _ => ?_
  exact survives_sendWire.attempt.bind fun _ _ => survives_sendLocalNodeInfo

theorem returns_sendLocalNodeInfo :
    Returns (sendLocalNodeInfo config env source) s ↔
      s.service.runtimePoisoned = false ∧
        ¬env.Unsent s.sent.length source (.nodeInfo
          (QCoin.localNodeInfo s.runtime.chain.chainId config.multicastEnabled
            config.nodePublicKeyHex config.nodeIsValidator
            config.produceEnabled)) := by
  simp only [sendLocalNodeInfo, localNodeInfo, Returns, Ends.bind_iff,
    ends_now, ends_updateSync, returns_withRuntime, Option.some.injEq,
    exists_eq_left']
  rw [returns_sendWire, and_true]
  rfl

theorem ends_ensureCompatiblePeer {Q : Bool → Session → Prop}
    (hQ : ∀ s, Q false s) :
    Ends (ensureCompatiblePeer config env source) Q (fun _ _ => False) s ↔
      (source ∈ s.sync.knownPeers → Q true s) ∧
      (source ∉ s.sync.knownPeers → source ∉ s.sync.peerRejections) := by
  simp only [ensureCompatiblePeer, Ends.bind_iff, ends_sync, Ends.ite_iff]
  refine and_congr_right fun _ => imp_congr_right fun _ => ?_
  rw [← Finmap.lookup_eq_none]
  cases s.sync.peerRejections.lookup source with
  | some rejection =>
      constructor
      · rintro ⟨⟩
      · rintro ⟨⟩
  | none =>
      refine iff_of_true ?_ rfl
      refine Ends.bind_iff.mpr (Ends.attempt_iff.mpr ?_)
      exact survives_requestNodeInfoExchange.mono (fun _ s _ => hQ s)
        fun _ s _ => hQ s

/-- A guarded handler is reached by accepted peers only, and a peer which is
neither accepted nor rejected is asked for its node information. -/
theorem returns_ifCompatible {handler : ServiceM Unit} :
    Returns (ifCompatible config env source handler) s ↔
      (source ∈ s.sync.knownPeers → Returns handler s) ∧
      (source ∉ s.sync.knownPeers → source ∉ s.sync.peerRejections) := by
  rw [Returns, ifCompatible, Ends.bind_iff, ends_ensureCompatiblePeer]
  · rfl
  · exact fun _ => trivial

/-- What stops a guarded handler. -/
theorem returns_guarded {service : NodeService} {handler : ServiceM Unit}
    {stops : Prop}
    (h : Returns handler (Session.start service) ↔ ¬stops) :
    Returns (ifCompatible config env source handler) (Session.start service) ↔
      ¬service.Guarded source stops := by
  rw [returns_ifCompatible, h, NodeService.Guarded, NodeService.TurnedAway,
    not_or, not_and, not_and, and_comm]
  rfl

/-- Answers which are read from the runtime. -/
theorem returns_answer {service : NodeService} {α : Type}
    {f : NodeRuntime → Option α} {reply : α → WireMessage} :
    Returns (do
      let a ← withRuntime f
      sendWire env source (reply a)) (Session.start service) ↔
      ¬service.Unanswered env source f reply := by
  simp only [Returns, Ends.bind_iff, returns_withRuntime,
    NodeService.Unanswered, not_or, Bool.not_eq_true, not_forall, exists_prop]
  refine and_congr_right fun _ => exists_congr fun a => ?_
  refine and_congr_right fun _ => ?_
  rw [returns_sendWire, and_true]
  rfl

/-! ## Synchronization of blocks -/

theorem returns_requestNextMissingBlock {remoteTipHeight : UInt64}
    (hsent : s.sent = []) :
    Returns (requestNextMissingBlock env source remoteTipHeight) s ↔
      s.service.runtimePoisoned = false ∧
        ¬NodeService.RequestLost env source s.runtime
          (s.sync.inFlightBlocks.lookup source) remoteTipHeight := by
  have hfirst : (s.setSync (s.sync.setInFlight source
      (s.runtime.chain.height + 1))).sent.length = 0 :=
    List.length_eq_zero_iff.mpr hsent
  simp only [requestNextMissingBlock, currentHeight, Returns, Ends.bind_iff,
    returns_withRuntime, Ends.ite_iff, Ends.pure_iff, ends_sync,
    ends_updateSync, Option.some.injEq, exists_eq_left', returns_sendWire,
    hfirst, NodeService.RequestLost, implies_true, true_and, and_true, not_and,
    UInt64.not_le, ne_eq]

theorem returns_requestFollowUpBlock (hsent : s.sent = []) :
    Returns (requestFollowUpBlock env source) s ↔
      s.service.runtimePoisoned = false ∧
        ¬NodeService.RequestLost env source s.runtime
          (s.sync.inFlightBlocks.lookup source)
          ((s.sync.peerTipHeights.lookup source).getD 0) := by
  rw [Returns, requestFollowUpBlock, Ends.bind_iff, ends_sync, ← Returns]
  exact returns_requestNextMissingBlock hsent

theorem returns_handleTipResponse {service : NodeService}
    {tip : TipResponse} :
    Returns (handleTipResponse config env source tip)
        (Session.start service) ↔
      ¬service.Guarded source
        (service.runtimePoisoned = true ∨
          NodeService.RequestLost env source service.runtime
            (service.syncState.inFlightBlocks.lookup source) tip.height) := by
  refine returns_guarded ?_
  rw [Returns, Ends.bind_iff, ends_updateSync, ← Returns, not_or,
    Bool.not_eq_true]
  exact returns_requestNextMissingBlock rfl

section Chain

variable [Blake3] [Bincode] [PqCrypto]

theorem returns_handleReceivedBlock {height : UInt64} {block : Block}
    (hsent : s.sent = [])
    (hcleared : s.sync.inFlightBlocks.lookup source = none) :
    Returns (handleReceivedBlock env source height (some block)) s ↔
      ¬s.service.BlockStops env source height block := by
  cases hpoison : s.service.runtimePoisoned with
  | true =>
      simp [handleReceivedBlock, currentHeight, Ends.bind_iff,
        returns_withRuntime, NodeService.BlockStops, hpoison]
  | false =>
      -- The follow-up request is made from the runtime the block leaves.
      have hfollow (runtime : NodeRuntime) :
          Returns (requestFollowUpBlock env source)
            (s.setRuntime runtime false) ↔
          ¬NodeService.RequestLost env source runtime none
            ((s.service.syncState.peerTipHeights.lookup source).getD 0) := by
        have hunsent : (s.setRuntime runtime false).sent = [] := hsent
        rw [returns_requestFollowUpBlock hunsent]
        change false = false ∧ ¬NodeService.RequestLost env source runtime
          (s.sync.inFlightBlocks.lookup source) _ ↔ _
        rw [hcleared]
        exact and_iff_right rfl
      have hsame := hfollow s.runtime
      rw [Session.setRuntime_same hpoison] at hsame
      simp only [handleReceivedBlock, currentHeight, Returns, Ends.bind_iff,
        returns_withRuntime, Ends.ite_iff, Ends.attempt_iff,
        ends_applyRemoteBlock, Option.some.injEq, exists_eq_left', hpoison,
        NodeService.BlockStops, Bool.false_eq_true, true_and, false_and,
        false_or, Session.runtime]
      by_cases hknown : height ≤ s.service.runtime.chain.height
      · simp only [hknown, true_implies, not_true, false_implies, and_true,
          if_true]
        exact hsame
      · simp only [hknown, false_implies, not_false_iff, true_implies,
          true_and, if_false]
        obtain ⟨result, runtime⟩ :=
          s.service.runtime.applyBlock block env.saves
        cases result with
        | ok _ => exact hfollow runtime
        | error e => cases e with
          | err err => exact iff_of_true trivial not_false
          | panic => exact iff_of_false not_false (not_not.mpr trivial)

theorem returns_handleBlockResponse {service : NodeService} {height : UInt64}
    {block : Option Block} :
    Returns (handleBlockResponse config env source height block)
        (Session.start service) ↔
      ¬service.Guarded source (∃ received, block = some received ∧
        service.BlockStops env source height received) := by
  refine returns_guarded ?_
  rw [Returns, Ends.bind_iff, ends_updateSync, ← Returns]
  cases block with
  | none =>
      refine iff_of_true trivial ?_
      rintro ⟨received, ⟨⟩, -⟩
  | some block =>
      rw [returns_handleReceivedBlock rfl (Finmap.lookup_erase _ _)]
      simp only [Option.some.injEq, exists_eq_left']
      rfl

theorem returns_handleSubmitBlock {service : NodeService} {block : Block} :
    Returns (handleSubmitBlock config env source block)
        (Session.start service) ↔
      ¬service.Guarded source
        (service.SubmittedBlockStops env source block) := by
  refine returns_guarded ?_
  simp only [Returns, Ends.bind_iff, Ends.attempt_iff, ends_applyRemoteBlock,
    currentHeight, returns_withRuntime, returns_sendWire, Option.some.injEq,
    exists_eq_left', NodeService.SubmittedBlockStops, Session.runtime,
    Session.start_service]
  cases hpoison : service.runtimePoisoned with
  | true => simp
  | false =>
      obtain ⟨result, runtime⟩ := service.runtime.applyBlock block env.saves
      cases result with
      | ok height => simp [Changed]
      | error e => cases e <;> simp [Changed]

end Chain

/-! ## Exchange of transactions -/

section Chain

variable [Blake3] [Bincode] [PqCrypto]

theorem returns_handleTransactionResponse {service : NodeService}
    {txId : Hash256} {transaction : Option Transaction} :
    Returns (handleTransactionResponse config env source txId transaction)
        (Session.start service) ↔
      ¬service.Guarded source (∃ tx, transaction = some tx ∧
        service.ReceivedTransactionStops config env txId tx) := by
  refine returns_guarded ?_
  cases transaction with
  | none =>
      refine iff_of_true trivial ?_
      rintro ⟨tx, ⟨⟩, -⟩
  | some tx =>
      simp only [Returns, Ends.bind_iff, ends_lift_orPanic, Ends.ite_iff,
        Ends.fail_iff, ends_acceptTransaction, and_false, false_or,
        Option.some.injEq, exists_eq_left', Session.runtime,
        Session.start_service, NodeService.ReceivedTransactionStops]
      cases hid : tx.txId with
      | none => simp
      | some received =>
          by_cases hmatch : received = txId
          · subst hmatch
            simp only [Option.some.injEq, exists_eq_left', ne_eq,
              not_true, false_implies, true_and, not_false_iff, true_implies,
              false_or, not_or, Bool.not_eq_true]
            refine and_congr_right fun _ => ?_
            obtain ⟨result, runtime⟩ := service.runtime.acceptTransaction tx
            cases result with
            | ok status => cases status with
              | acceptedNew accepted =>
                  exact ends_broadcastTransactionAnnounce.trans
                    (and_iff_left trivial)
              | alreadyPending pending => exact iff_of_true trivial not_false
            | error e => cases e <;> simp [Changed]
          · simp [hmatch]

omit [Blake3] [Bincode] [PqCrypto] in
/-- The announcement of a submitted transaction cannot fail its handler. -/
theorem returns_submitAnswer {txId : Hash256}
    {status : Except String TransactionAcceptStatus} :
    Returns (do
      sendWire env source
        (.submitTransactionResponse (submitResponse txId status).1)
      match (submitResponse txId status).2 with
      | none => return ()
      | some txId => do
          let _ ← attempt (broadcastTransactionAnnounce config env txId)
          return ()) s ↔
      ¬env.Unsent s.sent.length source
        (.submitTransactionResponse (submitResponse txId status).1) := by
  have hsend : Returns (sendWire env source
      (.submitTransactionResponse (submitResponse txId status).1)) s ↔ _ :=
    returns_sendWire.trans (and_iff_left trivial)
  rw [← hsend, Returns, Ends.bind_iff]
  constructor
  · exact fun h => h.mono (fun _ _ _ => trivial) fun _ _ h => h
  · intro h
    refine h.mono (fun _ s _ => ?_) fun _ _ h => h
    cases (submitResponse txId status).2 with
    | none => exact trivial
    | some accepted =>
        refine Ends.bind_iff.mpr (Ends.attempt_iff.mpr ?_)
        exact survives_broadcastTransactionAnnounce

theorem returns_handleSubmittedTransaction {service : NodeService}
    {tx : Transaction} :
    Returns (handleSubmittedTransaction config env source tx)
        (Session.start service) ↔
      ¬service.SubmissionStops env source tx := by
  rw [Returns, handleSubmittedTransaction, Ends.bind_iff, ends_lift_orPanic,
    NodeService.SubmissionStops]
  cases tx.txId with
  | none => simp
  | some txId =>
      simp only [Option.some.injEq, exists_eq_left', forall_eq']
      rw [Ends.bind_iff, Ends.attempt_iff, ends_acceptTransaction,
        NodeService.submission]
      simp only [Session.runtime, Session.start_service]
      cases service.runtimePoisoned with
      | true =>
          simp only [true_and, Bool.true_eq_false, false_and, or_false,
            if_true, Option.some.injEq, forall_eq']
          exact @returns_submitAnswer _ config _ _ _ _ _
      | false =>
          simp only [Bool.false_eq_true, false_and, false_or, true_and,
            if_false]
          obtain ⟨result, runtime⟩ := service.runtime.acceptTransaction tx
          cases result with
          | ok status =>
              simp only [Option.some.injEq, forall_eq']
              exact @returns_submitAnswer _ config _ _ _ _ _
          | error e => cases e with
            | err err =>
                simp only [Option.some.injEq, forall_eq']
                exact @returns_submitAnswer _ config _ _ _ _ _
            | panic => simp [Changed]

/-! ## Node information and announcements -/

theorem returns_handlePresenceAnnounce {service : NodeService} :
    Returns (handlePresenceAnnounce config env source)
        (Session.start service) ↔
      ¬service.Stops config env source .presenceAnnounce := by
  simp only [handlePresenceAnnounce, Returns, Ends.bind_iff, ends_now,
    ends_updateSync, ends_sync, Ends.ite_iff, Ends.pure_iff,
    returns_sendLocalNodeInfo, NodeService.Stops, NodeService.Unanswered,
    Option.some.injEq, forall_eq', not_and, not_or, Bool.not_eq_true,
    implies_true, and_true]
  exact Iff.rfl

theorem returns_handleTransactionAnnounce {service : NodeService}
    {txId : Hash256} :
    Returns (handleTransactionAnnounce config env source txId)
        (Session.start service) ↔
      ¬service.Stops config env source (.transactionAnnounce txId) := by
  have hexchange (s : Session) :
      Ends (requestNodeInfoExchange config env source) (fun _ _ => True)
        (fun _ _ => True) s ↔ True :=
    iff_true_intro survives_requestNodeInfoExchange
  simp only [handleTransactionAnnounce, hasTransaction, Returns,
    Ends.bind_iff, returns_withRuntime, ends_updateSync, ends_sync,
    Ends.ite_iff, Ends.pure_iff, Ends.attempt_iff, returns_sendWire,
    hexchange, implies_true, and_true, true_and, NodeService.Stops]
  change service.runtimePoisoned = false ∧
    (∃ known, service.runtime.hasTransaction txId = some known ∧
      (¬known = true → source ∈ service.syncState.knownPeers →
        ¬env.Unsent 0 source (.transactionRequest txId))) ↔ _
  cases service.runtimePoisoned with
  | true => simp
  | false =>
      cases service.runtime.hasTransaction txId with
      | none => simp
      | some known => cases known <;> simp

/-- Asking for a transaction leaves the runtime alone. -/
def asked (env : Environment) (source : SocketAddr) (s : Session)
    (txId : Hash256) : Session :=
  if s.runtime.hasTransaction txId = some false then
    tried env (.transactionRequest txId) s source
  else s

omit [PqCrypto] in
theorem ends_requestUnlessKnown {txId : Hash256} {Q : PUnit → Session → Prop} :
    Ends (requestUnlessKnown env source txId) Q (fun _ _ => False) s ↔
      (s.service.runtimePoisoned = false ∧
        s.runtime.hasTransaction txId ≠ none ∧
        (s.runtime.hasTransaction txId = some false →
          ¬env.Unsent s.sent.length source (.transactionRequest txId))) ∧
        Q ⟨⟩ (asked env source s txId) := by
  rw [requestUnlessKnown, hasTransaction, Ends.bind_iff, returns_withRuntime,
    asked]
  change s.service.runtimePoisoned = false ∧
    (∃ known, s.runtime.hasTransaction txId = some known ∧ _) ↔ _
  cases s.service.runtimePoisoned with
  | true => simp
  | false =>
      cases s.runtime.hasTransaction txId with
      | none => simp
      | some known =>
          cases known <;> simp [returns_sendWire, Ends.pure_iff]

omit [PqCrypto] in
theorem foldl_asked (env : Environment) (source : SocketAddr) (s : Session)
    (ids : List Hash256) :
    (ids.foldl (asked env source) s).service = s.service ∧
    (ids.foldl (asked env source) s).sent.length = s.sent.length +
      ids.countP fun id =>
        s.service.runtime.hasTransaction id == some false := by
  induction ids generalizing s with
  | nil => exact ⟨rfl, rfl⟩
  | cons id ids ih =>
      obtain ⟨hservice, hlength⟩ := ih (asked env source s id)
      have hkept : (asked env source s id).service = s.service := by
        rw [asked]
        split <;> rfl
      rw [List.foldl_cons, List.countP_cons]
      rw [hkept] at hservice hlength
      refine ⟨hservice, hlength.trans ?_⟩
      rw [asked]
      by_cases hmissing : s.runtime.hasTransaction id = some false
      · have hcount : (s.service.runtime.hasTransaction id == some false) =
            true := beq_iff_eq.mpr hmissing
        rw [if_pos hmissing, if_pos hcount]
        simp only [tried, Session.record, List.length_append,
          List.length_singleton]
        omega
      · have hcount : ¬(s.service.runtime.hasTransaction id == some false) =
            true := mt beq_iff_eq.mp hmissing
        rw [if_neg hmissing, if_neg hcount, Nat.add_zero]

omit [PqCrypto] in
/-- The requests for announced transactions: each one follows those for the
missing transactions before it. -/
theorem returns_requests {ids : List Hash256} (hsent : s.sent = [])
    (hpoison : s.service.runtimePoisoned = false) :
    Returns (ids.forM (requestUnlessKnown env source)) s ↔
      ∀ before txId after, ids = before ++ txId :: after →
        ¬(s.service.runtime.hasTransaction txId = none ∨
          s.service.runtime.hasTransaction txId = some false ∧
            env.Unsent
              (before.countP fun id =>
                s.service.runtime.hasTransaction id == some false)
              source (.transactionRequest txId)) := by
  refine (Ends.forM_iff (fun _ _ _ => ends_requestUnlessKnown) ids).trans ?_
  rw [and_iff_left trivial]
  refine forall_congr' fun before => forall_congr' fun txId =>
    forall_congr' fun after => imp_congr_right fun _ => ?_
  obtain ⟨hservice, hlength⟩ := foldl_asked env source s before
  rw [hsent, List.length_nil, Nat.zero_add] at hlength
  rw [Session.runtime, hservice, hlength, not_or, not_and]
  exact and_iff_right hpoison

theorem returns_handleNodeInfo {service : NodeService}
    {info : NodeInfo} :
    Returns (handleNodeInfo env source info)
        (Session.start service) ↔
      ¬service.Stops config env source (.nodeInfo info) := by
  simp only [handleNodeInfo, currentChainId, Returns, Ends.bind_iff,
    returns_withRuntime, Option.some.injEq, exists_eq_left',
    NodeService.Stops, Session.runtime, Session.start_service]
  cases hpoison : service.runtimePoisoned with
  | true => simp
  | false =>
      cases ensureNodeInfoCompatible service.runtime.chain.chainId info with
      | error err => exact iff_of_true ⟨rfl, trivial⟩ (by simp)
      | ok u =>
          simp only [Ends.bind_iff, ends_sync, ends_now, ends_updateSync,
            true_and, Bool.false_eq_true, false_or]
          refine (returns_requests rfl hpoison).trans ?_
          simp only [NodeService.PendingRequestLost, not_exists, not_and]
          exact Iff.rfl

/-! ## Frames -/

/-- A message is handled to its end unless it meets a state which stops its
handler. -/
theorem returns_handleMessage {service : NodeService} {message : WireMessage} :
    Returns (handleMessage config env source message)
        (Session.start service) ↔
      ¬service.Stops config env source message := by
  cases message with
  | presenceAnnounce => exact returns_handlePresenceAnnounce
  | nodeInfo info => exact returns_handleNodeInfo
  | tipRequest => exact returns_guarded returns_answer
  | tipResponse tip => exact returns_handleTipResponse
  | blockRequest height => exact returns_guarded returns_answer
  | blockResponse height block => exact returns_handleBlockResponse
  | submitBlock block => exact returns_handleSubmitBlock
  | submitBlockResponse _ => exact iff_of_true trivial not_false
  | transactionAnnounce txId => exact returns_handleTransactionAnnounce
  | transactionRequest txId => exact returns_guarded returns_answer
  | transactionResponse txId transaction =>
      exact returns_handleTransactionResponse
  | submitTransaction transaction => exact returns_handleSubmittedTransaction
  | submitTransactionResponse _ => exact iff_of_true trivial not_false

end Chain

end Service

end QCoin
