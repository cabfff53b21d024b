import QCoin.Node.Handlers
import QCoin.Node.Payloads

/-!
# Responses to submissions

What a node tells a client which submits a transaction, and that nobody else
is told so.
-/

namespace QCoin

open Support
open Support.Result
open Support.Stateful

/-! ## Responses of a session -/

/-- The response which a message holds. -/
def WireMessage.responses : WireMessage → List SubmitTransactionResponse
  | .submitTransactionResponse response => [response]
  | _ => []

/-- The responses which were tried for the target so far. -/
def Session.responsesTo (s : Session) (target : SocketAddr) :
    List SubmitTransactionResponse :=
  (s.sent.filter fun transmission => transmission.target = target).flatMap
    fun transmission => transmission.message.responses

theorem Session.responsesTo_record (s : Session) (transmission : Transmission)
    (target : SocketAddr) :
    (s.record transmission).responsesTo target = s.responsesTo target ++
      if transmission.target = target then transmission.message.responses
      else [] := by
  rw [responsesTo, record, List.filter_append, List.flatMap_append]
  by_cases htarget : transmission.target = target <;>
    simp [responsesTo, htarget]

/-- A message without a response. -/
theorem Session.responsesTo_record_of_nil (s : Session)
    {transmission : Transmission}
    (h : transmission.message.responses = []) (target : SocketAddr) :
    (s.record transmission).responsesTo target = s.responsesTo target := by
  rw [responsesTo_record, h, ite_self, List.append_nil]

/-- The runtime after a transaction was submitted. -/
def NodeService.runtimeAfter [Blake3] [Bincode] [PqCrypto]
    (service : NodeService) (tx : Transaction) : NodeRuntime :=
  if service.runtimePoisoned then service.runtime
  else (service.runtime.acceptTransaction tx).2

namespace Service

/-- The call sends no response to the client. -/
abbrev Unresponsive {α : Type} (client : SocketAddr) (x : ServiceM α)
    (s : Session) : Prop :=
  Takes (fun s s' => s'.responsesTo client = s.responsesTo client) x s

theorem responsesTo_of_unresponsive {α : Type} {client : SocketAddr}
    {x : ServiceM α} {s : Session} (h : Unresponsive client x s) :
    (x.after s).responsesTo client = s.responsesTo client :=
  h.invariant (fun s' => s'.responsesTo client = s.responsesTo client)
    (fun _ _ hstep hs => hstep.trans hs) rfl

variable {config : ServiceConfig} {env : Environment} {source : SocketAddr}
  {client : SocketAddr} {s : Session}

theorem now_unresponsive : Unresponsive client (now env) s :=
  .step rfl

theorem updateSync_unresponsive (f : SyncState → SyncState) :
    Unresponsive client (updateSync f) s :=
  .update rfl

theorem withRuntimeMut_unresponsive {α : Type}
    (f : NodeRuntime → Result String α × NodeRuntime) :
    Unresponsive client (withRuntimeMut f) s := by
  refine .step ?_
  rw [after, withRuntimeMut, exec_call]
  split
  · rfl
  · rcases f s.runtime with ⟨(err | _) | a, runtime⟩ <;> rfl

theorem read_unresponsive {α : Type} (f : NodeRuntime → α) :
    Unresponsive client (withRuntime fun runtime => some (f runtime)) s :=
  withRuntimeMut_unresponsive _

variable [WireCodec]

theorem sendWire_unresponsive {target : SocketAddr} {message : WireMessage}
    (h : message.responses = []) :
    Unresponsive client (sendWire env target message) s :=
  .step (s.responsesTo_record_of_nil h client)

/-- What is sent to another target is no response to the client. -/
theorem sendWire_elsewhere {target : SocketAddr} {message : WireMessage}
    (h : target ≠ client) :
    Unresponsive client (sendWire env target message) s := by
  refine .step ((Session.responsesTo_record _ _ _).trans ?_)
  rw [if_neg h, List.append_nil]

/-! ## Handlers without a response -/

theorem sendLocalNodeInfo_unresponsive :
    Unresponsive client (sendLocalNodeInfo config env source) s := by
  refine now_unresponsive.bind fun _ _ =>
    (updateSync_unresponsive _).bind fun _ _ => ?_
  exact (read_unresponsive _).bind fun _ _ =>
    sendWire_unresponsive rfl

theorem requestNodeInfoExchange_unresponsive :
    Unresponsive client (requestNodeInfoExchange config env source) s := by
  refine now_unresponsive.bind fun _ _ =>
    (updateSync_unresponsive _).bind fun _ _ => ?_
  refine (Takes.inspect _).bind fun _ _ => .ite (fun _ => ?_) fun _ => .pure _
  refine (updateSync_unresponsive _).bind fun _ _ => ?_
  exact (sendWire_unresponsive rfl).attempt.bind
    fun _ _ => sendLocalNodeInfo_unresponsive

theorem handlePresenceAnnounce_unresponsive :
    Unresponsive client (handlePresenceAnnounce config env source) s := by
  refine now_unresponsive.bind fun _ _ =>
    (updateSync_unresponsive _).bind fun _ _ => ?_
  exact (Takes.inspect _).bind fun _ _ =>
    .ite (fun _ => sendLocalNodeInfo_unresponsive) fun _ => .pure _

theorem ifCompatible_unresponsive {handler : ServiceM Unit}
    (h : ∀ s, Unresponsive client handler s) :
    Unresponsive client (ifCompatible config env source handler) s := by
  refine Takes.bind ?_ fun _ _ => .ite (fun _ => h _) fun _ => .pure _
  refine (Takes.inspect _).bind fun state _ => .ite (fun _ => .pure _) ?_
  intro _
  cases state.peerRejections.lookup source with
  | some rejection => exact .fail _
  | none =>
      exact requestNodeInfoExchange_unresponsive.attempt.bind
        fun _ _ => .pure _

/-- What is read from the runtime is sent to the source. -/
theorem answer_unresponsive {α : Type} {f : NodeRuntime → Option α}
    {reply : α → WireMessage} (h : ∀ a, (reply a).responses = []) :
    Unresponsive client (ifCompatible config env source do
      let a ← withRuntime f
      sendWire env source (reply a)) s :=
  ifCompatible_unresponsive fun _ =>
    (withRuntimeMut_unresponsive _).bind fun a _ =>
      sendWire_unresponsive (h a)

theorem requestNextMissingBlock_unresponsive (remoteTipHeight : UInt64) :
    Unresponsive client (requestNextMissingBlock env source remoteTipHeight)
      s := by
  refine (read_unresponsive _).bind fun localHeight _ => ?_
  refine .ite (fun _ => .pure _) fun _ => ?_
  refine (Takes.inspect _).bind fun _ _ => .ite (fun _ => .pure _) fun _ => ?_
  exact (updateSync_unresponsive _).bind fun _ _ => sendWire_unresponsive rfl

theorem requestFollowUpBlock_unresponsive :
    Unresponsive client (requestFollowUpBlock env source) s :=
  (Takes.inspect _).bind fun _ _ => requestNextMissingBlock_unresponsive _

/-- Errors of a broadcast end it. -/
theorem sendUnlessIgnored_unresponsive {message : WireMessage}
    {target : SocketAddr} (h : message.responses = []) :
    Unresponsive client (sendUnlessIgnored env message target) s := by
  refine (sendWire_unresponsive h).attempt.bind fun outcome _ => ?_
  cases outcome with
  | ok _ => exact .pure _
  | error _ => exact .ite (fun _ => .pure _) fun _ => .fail _

theorem broadcastTransactionAnnounce_unresponsive (txId : Hash256) :
    Unresponsive client (broadcastTransactionAnnounce config env txId) s :=
  .forM fun _ _ _ => sendUnlessIgnored_unresponsive rfl

/-- What follows the answer to a submitted transaction. -/
def announceSubmitted (config : ServiceConfig) (env : Environment) :
    Option Hash256 → ServiceM Unit
  | none => return ()
  | some txId => do
      let _ ← attempt (broadcastTransactionAnnounce config env txId)
      return ()

theorem announceSubmitted_unresponsive (txId : Option Hash256) :
    Unresponsive client (announceSubmitted config env txId) s := by
  cases txId with
  | none => exact .pure _
  | some txId =>
      exact (broadcastTransactionAnnounce_unresponsive txId).attempt.bind
        fun _ _ => .pure _

theorem broadcastPresenceAnnounces_unresponsive :
    Unresponsive client (broadcastPresenceAnnounces config env) s :=
  .forM fun _ _ _ => sendUnlessIgnored_unresponsive rfl

theorem broadcastTipRequests_unresponsive {listing : PeerListing} :
    Unresponsive client (broadcastTipRequests config env listing) s := by
  rw [Unresponsive, Takes, after_broadcastTipRequests]
  generalize listing.knownPeers config s.sync = peers
  induction peers generalizing s with
  | nil => exact .refl
  | cons peer peers ih =>
      exact .head (s.responsesTo_record_of_nil rfl client) ih

variable [Blake3] [Bincode] [PqCrypto]

theorem handleBlockResponse_unresponsive {height : UInt64}
    {block : Option Block} :
    Unresponsive client (handleBlockResponse config env source height block)
      s := by
  refine ifCompatible_unresponsive fun _ =>
    (updateSync_unresponsive _).bind fun _ _ => ?_
  cases block with
  | none => exact .pure _
  | some block =>
      refine (read_unresponsive _).bind fun _ _ => ?_
      refine .ite (fun _ => requestFollowUpBlock_unresponsive) fun _ => ?_
      refine (withRuntimeMut_unresponsive _).attempt.bind fun outcome _ => ?_
      cases outcome with
      | ok _ => exact requestFollowUpBlock_unresponsive
      | error _ => exact .pure _

theorem handleSubmitBlock_unresponsive {block : Block} :
    Unresponsive client (handleSubmitBlock config env source block) s := by
  refine ifCompatible_unresponsive fun _ => ?_
  refine (withRuntimeMut_unresponsive _).attempt.bind fun outcome _ => ?_
  cases outcome with
  | ok _ => exact sendWire_unresponsive rfl
  | error _ =>
      exact (read_unresponsive _).bind fun _ _ =>
        sendWire_unresponsive rfl

omit [Bincode] [PqCrypto] in
theorem handleNodeInfo_unresponsive (info : NodeInfo) :
    Unresponsive client (handleNodeInfo env source info) s := by
  refine (read_unresponsive _).bind fun chainId _ => ?_
  cases ensureNodeInfoCompatible chainId info with
  | error err => exact updateSync_unresponsive _
  | ok _ =>
      refine (Takes.inspect _).bind fun _ _ =>
        now_unresponsive.bind fun _ _ => ?_
      refine (updateSync_unresponsive _).bind fun _ _ =>
        .forM fun txId _ _ => ?_
      exact (withRuntimeMut_unresponsive _).bind fun _ _ =>
        .ite (fun _ => .pure _) fun _ => sendWire_unresponsive rfl

omit [Bincode] [PqCrypto] in
theorem handleTransactionAnnounce_unresponsive (txId : Hash256) :
    Unresponsive client (handleTransactionAnnounce config env source txId)
      s := by
  refine (withRuntimeMut_unresponsive _).bind fun _ _ =>
    .ite (fun _ => .pure _) fun _ => ?_
  refine (Takes.inspect _).bind fun _ _ =>
    .ite (fun _ => sendWire_unresponsive rfl) fun _ => ?_
  refine .ite (fun _ => .pure _) fun _ => ?_
  exact (updateSync_unresponsive _).bind fun _ _ =>
    requestNodeInfoExchange_unresponsive.attempt.bind fun _ _ => .pure _

theorem handleTransactionResponse_unresponsive {txId : Hash256}
    {transaction : Option Transaction} :
    Unresponsive client
      (handleTransactionResponse config env source txId transaction) s := by
  refine ifCompatible_unresponsive fun _ => ?_
  cases transaction with
  | none => exact .pure _
  | some transaction =>
      refine (Takes.still rfl).bind fun _ _ => ?_
      refine .ite (fun _ => .fail _) fun _ => ?_
      refine (withRuntimeMut_unresponsive _).bind fun status _ => ?_
      cases status with
      | acceptedNew _ => exact broadcastTransactionAnnounce_unresponsive _
      | alreadyPending _ => exact .pure _

theorem handleSubmittedTransaction_elsewhere {transaction : Transaction}
    (h : source ≠ client) :
    Unresponsive client
      (handleSubmittedTransaction config env source transaction) s := by
  refine (Takes.still rfl).bind fun txId _ => ?_
  refine (withRuntimeMut_unresponsive _).attempt.bind fun status _ => ?_
  exact (sendWire_elsewhere h).bind fun _ _ =>
    announceSubmitted_unresponsive _

/-- Only a client which submits a transaction is responded to. -/
theorem handleMessage_unresponsive {message : WireMessage}
    (h : source = client → ∀ tx, message ≠ .submitTransaction tx) :
    Unresponsive client (handleMessage config env source message) s := by
  cases message with
  | presenceAnnounce => exact handlePresenceAnnounce_unresponsive
  | nodeInfo info => exact handleNodeInfo_unresponsive info
  | tipRequest => exact answer_unresponsive fun _ => rfl
  | tipResponse tip =>
      exact ifCompatible_unresponsive fun _ =>
        (updateSync_unresponsive _).bind fun _ _ =>
          requestNextMissingBlock_unresponsive _
  | blockRequest height => exact answer_unresponsive fun _ => rfl
  | blockResponse height block => exact handleBlockResponse_unresponsive
  | submitBlock block => exact handleSubmitBlock_unresponsive
  | submitBlockResponse _ => exact .pure _
  | transactionAnnounce txId =>
      exact handleTransactionAnnounce_unresponsive txId
  | transactionRequest txId => exact answer_unresponsive fun _ => rfl
  | transactionResponse txId transaction =>
      exact handleTransactionResponse_unresponsive
  | submitTransaction transaction =>
      exact handleSubmittedTransaction_elsewhere fun hsource =>
        h hsource transaction rfl
  | submitTransactionResponse _ => exact .pure _

/-- Blocks are produced and broadcast without a response. -/
theorem produceNow_unresponsive {listing : PeerListing}
    {clock : Except String UInt64} {entropy : ℕ} :
    Unresponsive client (produceNow config env listing clock entropy) s := by
  refine Takes.bind ?_ fun produced _ => ?_
  · exact (Takes.inspect _).bind fun _ _ =>
      .ite (fun _ => .fail _) fun _ => withRuntimeMut_unresponsive _
  · rcases produced with _ | ⟨height, block⟩
    · exact .pure _
    · refine ((broadcastBlock_sends block).mono ?_).bind fun _ _ => .pure _
      rintro s s' ⟨peer, outcome, rfl⟩
      exact s.responsesTo_record_of_nil rfl client

/-! ## The answer to a submission -/

theorem announceSubmitted_moves {message : WireMessage}
    (txId : Option Hash256) :
    Moving message (announceSubmitted config env txId) s := by
  cases txId with
  | none => exact .pure _
  | some txId =>
      exact (broadcastTransactionAnnounce_moves txId).attempt.bind
        fun _ _ => .pure _

/-- Answering and announcing changes nothing else. -/
theorem after_submitAnswer (txId : Hash256)
    (status : Except String TransactionAcceptStatus) (s : Session) :
    let rest : ServiceM Unit := do
      sendWire env source
        (.submitTransactionResponse (submitResponse txId status).1)
      announceSubmitted config env (submitResponse txId status).2
    (rest.after s).responsesTo source =
        s.responsesTo source ++ [(submitResponse txId status).1] ∧
      (rest.after s).runtime = s.runtime := by
  intro rest
  have hexec : (sendWire env source (.submitTransactionResponse
      (submitResponse txId status).1)).exec s =
        ((sendOutcome env s.sent.length source (.submitTransactionResponse
            (submitResponse txId status).1)).mapError Abort.err,
          tried env (.submitTransactionResponse
            (submitResponse txId status).1) s source) := rfl
  have hresponses : (tried env (.submitTransactionResponse
      (submitResponse txId status).1) s source).responsesTo source =
        s.responsesTo source ++ [(submitResponse txId status).1] := by
    rw [tried, Session.responsesTo_record, if_pos rfl]
    rfl
  have hruntime : (tried env (.submitTransactionResponse
      (submitResponse txId status).1) s source).runtime = s.runtime := rfl
  generalize tried env (.submitTransactionResponse
    (submitResponse txId status).1) s source = answered
    at hexec hresponses hruntime
  generalize sendOutcome env s.sent.length source (.submitTransactionResponse
    (submitResponse txId status).1) = outcome at hexec
  cases outcome with
  | error err =>
      have hafter : rest.after s = answered := by
        rw [after, exec_bind_of_error hexec]
      rw [hafter]
      exact ⟨hresponses, hruntime⟩
  | ok u =>
      have hafter : rest.after s = (announceSubmitted config env
          (submitResponse txId status).2).after answered := by
        rw [after, exec_bind_of_ok hexec]
        rfl
      rw [hafter]
      refine ⟨?_, ?_⟩
      · rw [responsesTo_of_unresponsive (announceSubmitted_unresponsive _),
          hresponses]
      · rw [runtime_of_moving (announceSubmitted_moves _), hruntime]

/-- The session after a transaction was submitted and before the answer. -/
def sessionAfter (service : NodeService) (tx : Transaction) : Session :=
  (Session.start service).setRuntime (service.runtimeAfter tx)
    (service.runtimePoisoned ||
      (service.runtime.acceptTransaction tx).1.isPanic)

omit [WireCodec] in
theorem exec_attempt_acceptTransaction (service : NodeService)
    (tx : Transaction) :
    (attempt (acceptTransaction tx)).exec (Session.start service) =
      (match service.submission tx with
        | some status => .ok status
        | none => .error .panic, sessionAfter service tx) := by
  obtain ⟨runtime, poisoned, syncState⟩ := service
  cases poisoned with
  | true => rfl
  | false =>
      rw [attempt, exec_call, acceptTransaction, exec_withRuntimeMut rfl,
        NodeService.submission, sessionAfter, NodeService.runtimeAfter]
      simp only [Session.runtime, Session.start_service, Bool.false_eq_true,
        if_false, Bool.false_or]
      rcases runtime.acceptTransaction tx with ⟨(err | _) | a, runtime⟩ <;> rfl

theorem after_submission_of_none {service : NodeService} {tx : Transaction}
    (h : tx.txId = none ∨ service.submission tx = none) :
    ((handleSubmittedTransaction config env source tx).after
      (Session.start service)).responsesTo client = [] := by
  cases htxId : tx.txId with
  | none =>
      rw [after, handleSubmittedTransaction, htxId]
      rfl
  | some txId =>
      have hattempt := exec_attempt_acceptTransaction service tx
      rw [h.resolve_left (by simp [htxId])] at hattempt
      have hpanic : (handleSubmittedTransaction config env source tx).exec
          (Session.start service) =
            (.error .panic, sessionAfter service tx) := by
        rw [handleSubmittedTransaction, htxId]
        exact (exec_bind_of_ok rfl).trans (exec_bind_of_error hattempt)
      rw [after, hpanic]
      rfl

/-- A submission which does not panic is answered and announced. -/
theorem after_submission_of_some {service : NodeService} {tx : Transaction}
    {txId : Hash256} {status : Except String TransactionAcceptStatus}
    (htxId : tx.txId = some txId)
    (hstatus : service.submission tx = some status) :
    (handleSubmittedTransaction config env source tx).after
        (Session.start service) =
      (do
        sendWire env source
          (.submitTransactionResponse (submitResponse txId status).1)
        announceSubmitted config env
          (submitResponse txId status).2 : ServiceM Unit).after
        (sessionAfter service tx) := by
  have hattempt := exec_attempt_acceptTransaction service tx
  rw [hstatus] at hattempt
  rw [after, handleSubmittedTransaction, htxId]
  exact congrArg Prod.snd
    ((exec_bind_of_ok rfl).trans (exec_bind_of_ok hattempt))

/-- The response which a submission was given, and the runtime it left. -/
theorem responses_handleSubmittedTransaction {service : NodeService}
    {tx : Transaction} {response : SubmitTransactionResponse}
    (h : response ∈ ((handleSubmittedTransaction config env source tx).after
      (Session.start service)).responsesTo source) :
    ∃ txId status, tx.txId = some txId ∧
      service.submission tx = some status ∧
      response = (submitResponse txId status).1 ∧
      ((handleSubmittedTransaction config env source tx).after
        (Session.start service)).runtime = service.runtimeAfter tx := by
  cases htxId : tx.txId with
  | none =>
      rw [after_submission_of_none (.inl htxId)] at h
      cases h
  | some txId =>
      cases hstatus : service.submission tx with
      | none =>
          rw [after_submission_of_none (.inr hstatus)] at h
          cases h
      | some status =>
          rw [after_submission_of_some htxId hstatus] at h ⊢
          obtain ⟨hresponses, hruntime⟩ :=
            @after_submitAnswer config env source _ _ _ _ txId status
              (sessionAfter service tx)
          rw [hresponses] at h
          rw [hruntime]
          refine ⟨txId, status, rfl, rfl, ?_, rfl⟩
          simpa [sessionAfter, Session.responsesTo] using h

end Service

section Runtime

variable [Blake3] [Bincode] [PqCrypto]

omit [Bincode] [PqCrypto] in
theorem exists_of_anyTxId_eq_true {txId : Hash256} {txs : List Transaction}
    (h : anyTxId txId txs = some true) : ∃ tx ∈ txs, tx.txId = some txId := by
  induction txs with
  | nil => cases h
  | cons tx txs ih =>
      rw [anyTxId] at h
      cases hid : tx.txId with
      | none => simp [hid] at h
      | some other =>
          simp only [hid, Option.bind_eq_bind, Option.bind_some] at h
          split at h
          · rename_i heq
            exact ⟨tx, List.mem_cons_self, hid.trans (congrArg some heq)⟩
          · obtain ⟨found, hfound, hsome⟩ := ih h
            exact ⟨found, List.mem_cons_of_mem tx hfound, hsome⟩

namespace NodeRuntime

variable {runtime : NodeRuntime} {tx : Transaction}

/-- A transaction is pending already under its own id. -/
theorem checkAdmission_alreadyPending {txId : Hash256}
    (h : runtime.checkAdmission tx = .ok (.alreadyPending txId)) :
    tx.txId = some txId ∧
      ∃ pending ∈ runtime.pendingTransactions, pending.txId = some txId := by
  simp only [checkAdmission, bind_eq_ok, orPanic_eq_ok, require_eq_ok] at h
  obtain ⟨id, hid, committed, -, -, -, already, halready, h⟩ := h
  split at h
  · rename_i hpending
    simp only [pure_eq_ok, TransactionAcceptStatus.alreadyPending.injEq] at h
    subst h
    rw [hpending] at halready
    exact ⟨hid, exists_of_anyTxId_eq_true halready⟩
  · simp only [bind_eq_ok, pure_eq_ok, reduceCtorEq, and_false,
      exists_false] at h

/-- A transaction with the id of an accepted one is pending. -/
theorem pending_of_acceptTransaction {status : TransactionAcceptStatus}
    (h : (runtime.acceptTransaction tx).1 = .ok status) :
    ∃ txId, tx.txId = some txId ∧
      (status = .acceptedNew txId ∨ status = .alreadyPending txId) ∧
      ∃ pending ∈ (runtime.acceptTransaction tx).2.pendingTransactions,
        pending.txId = some txId := by
  rw [acceptTransaction] at h ⊢
  cases hcheck : runtime.checkAdmission tx with
  | error abort => simp [hcheck] at h
  | ok checked =>
      rw [hcheck] at h
      cases checked with
      | acceptedNew txId =>
          have hid := (MempoolValid.checkAdmission_acceptedNew hcheck).1
          refine ⟨txId, hid, .inl (Except.ok.inj h).symm, tx, ?_, hid⟩
          exact List.mem_append_right _ (List.mem_singleton_self tx)
      | alreadyPending txId =>
          obtain ⟨hid, hpending⟩ := checkAdmission_alreadyPending hcheck
          exact ⟨txId, hid, .inr (Except.ok.inj h).symm, hpending⟩

end NodeRuntime

/-- A transaction which is refused changes nothing. -/
theorem NodeRuntime.acceptTransaction_refused {runtime : NodeRuntime}
    {tx : Transaction} {abort : Abort NodeError}
    (h : (runtime.acceptTransaction tx).1 = .error abort) :
    (runtime.acceptTransaction tx).2 = runtime := by
  rcases runtime.acceptTransaction_cases tx with hsame |
    ⟨txId, hcheck, haccept⟩
  · exact hsame
  · rw [haccept] at h
    cases h

end Runtime

end QCoin
