import QCoin.Node.Events
import QCoin.Node.Gossip
import QCoin.Node.Responses

/-!
# A client which submits a transaction

`submit_transaction_via_udp` of `qcoin-node` and the node which it talks to.
The network between them loses, repeats and reorders datagrams, other senders
reach both of them, and the node goes on with its own work.
-/

namespace QCoin

open Relation
open Support
open Support.Result
open Support.Stateful

/-! ## The client -/

/-- A datagram as `recv_from` returns it. -/
structure Datagram where
  source : SocketAddr
  bytes : Bytes
deriving DecidableEq

/-- What the client reads from outside.  The last receive fails. -/
structure ClientEnvironment where
  transaction : Except String Transaction
  targetAddr : Except String SocketAddr
  bind : SocketAddr → Except String Unit
  setReadTimeout : Except String Unit
  send : Except String Unit
  received : List Datagram
  receiveError : String

section Client

variable [WireCodec]

/-- The address of any interface and any port. -/
def wildcardAddr : SocketAddr → SocketAddr
  | .v4 .. => .v4 0 0
  | .v6 .. => .v6 0 0 0 0

/-- The loop of `submit_transaction_via_udp`.  Frames which do not come from
the target, which cannot be decoded or which hold another message are passed
over. -/
def awaitSubmitResponse (targetAddr : SocketAddr) (receiveError : String) :
    List Datagram → Except String SubmitTransactionResponse
  | [] => .error ("Timed out waiting for transaction response from " ++
      targetAddr.display ++ ": " ++ receiveError)
  | datagram :: datagrams =>
      if datagram.source ≠ targetAddr then
        awaitSubmitResponse targetAddr receiveError datagrams
      else
        match WireMessage.decode datagram.bytes with
        | .ok (.submitTransactionResponse response) => .ok response
        | _ => awaitSubmitResponse targetAddr receiveError datagrams

/-- The response which is printed, or the error. -/
def submitTransactionViaUdp (env : ClientEnvironment) :
    Except String SubmitTransactionResponse := do
  let transaction ← env.transaction
  let targetAddr ← env.targetAddr
  let bindAddr := wildcardAddr targetAddr
  (env.bind bindAddr).mapError fun err =>
    "Failed to bind UDP submit socket on " ++ bindAddr.display ++ ": " ++ err
  env.setReadTimeout.mapError fun err =>
    "Failed to set UDP submit timeout: " ++ err
  let _frame ← (WireMessage.submitTransaction transaction).encode.mapError
    fun err => "Failed to encode transaction submission: " ++ err
  env.send.mapError fun err =>
    "Failed to submit transaction to " ++ targetAddr.display ++ ": " ++ err
  awaitSubmitResponse targetAddr env.receiveError env.received

/-- The client ends with the first response of its target. -/
theorem mem_of_awaitSubmitResponse {targetAddr : SocketAddr}
    {receiveError : String} {datagrams : List Datagram}
    {response : SubmitTransactionResponse}
    (h : awaitSubmitResponse targetAddr receiveError datagrams =
      .ok response) :
    ∃ datagram ∈ datagrams, datagram.source = targetAddr ∧
      WireMessage.decode datagram.bytes =
        .ok (.submitTransactionResponse response) := by
  induction datagrams with
  | nil => cases h
  | cons datagram datagrams ih =>
      have hlater (hrest : awaitSubmitResponse targetAddr receiveError
          datagrams = .ok response) :
          ∃ found ∈ datagram :: datagrams, found.source = targetAddr ∧
            WireMessage.decode found.bytes =
              .ok (.submitTransactionResponse response) := by
        obtain ⟨found, hfound, hreads⟩ := ih hrest
        exact ⟨found, List.mem_cons_of_mem _ hfound, hreads⟩
      rw [awaitSubmitResponse] at h
      split at h
      · exact hlater h
      · rename_i hsource
        split at h
        · rename_i found hdecode
          obtain rfl := Except.ok.inj h
          exact ⟨datagram, List.mem_cons_self, not_not.mp hsource, hdecode⟩
        · exact hlater h

/-- A response of its target, once received, ends the client. -/
theorem awaitSubmitResponse_isOk {targetAddr : SocketAddr}
    {receiveError : String} {datagrams : List Datagram} {datagram : Datagram}
    {response : SubmitTransactionResponse} (hmem : datagram ∈ datagrams)
    (hsource : datagram.source = targetAddr)
    (hdecode : WireMessage.decode datagram.bytes =
      .ok (.submitTransactionResponse response)) :
    ∃ response, awaitSubmitResponse targetAddr receiveError datagrams =
      .ok response := by
  induction datagrams with
  | nil => cases hmem
  | cons first datagrams ih =>
      rw [awaitSubmitResponse]
      rcases List.mem_cons.mp hmem with rfl | hrest
      · rw [if_neg (not_not.mpr hsource), hdecode]
        exact ⟨response, rfl⟩
      · have hlater := ih hrest
        split
        · exact hlater
        · split
          · exact ⟨_, rfl⟩
          · exact hlater

end Client

/-! ## The exchange -/

/-- A client, the node which it talks to and what it submits. -/
structure Submitter where
  config : ServiceConfig
  nodeAddr : SocketAddr
  clientAddr : SocketAddr
  transaction : Transaction

/-- The node, the datagrams on their way to the client and those which it has
received, and the node before and after each time that it had the submission of
the client. -/
structure Exchange where
  service : NodeService
  inFlight : List Datagram
  received : List Datagram
  served : List (NodeService × NodeService)

/-- The sender of the frame which is handled. -/
def NodeEvent.source [BlockCodec] : NodeEvent → Option SocketAddr
  | .frame _ source _ => some source
  | _ => none

section Exchange

variable [Blake3] [Bincode] [PqCrypto] [WireCodec] [BlockCodec]

/-- An event without a frame of the client brings no response to it. -/
theorem NodeService.responsesTo_react {config : ServiceConfig}
    {service : NodeService} {event : NodeEvent} {client : SocketAddr}
    (h : event.source ≠ some client) :
    (service.react config event).responsesTo client = [] := by
  cases event with
  | frame env source bytes =>
      have hsource : source ≠ client := fun hsame => h (congrArg some hsame)
      rw [react, handleFrame, Service.handleFrame]
      split
      · rfl
      · split
        · rfl
        · exact Service.responsesTo_of_unresponsive
            (Service.handleMessage_unresponsive fun hsame =>
              absurd hsame hsource)
  | request info saves request => rfl
  | produce env listing clock entropy =>
      exact Service.responsesTo_of_unresponsive Service.produceNow_unresponsive
  | requestTips env listing =>
      exact Service.responsesTo_of_unresponsive
        Service.broadcastTipRequests_unresponsive
  | announcePresence env =>
      exact Service.responsesTo_of_unresponsive
        Service.broadcastPresenceAnnounces_unresponsive

namespace Submitter

variable (submitter : Submitter)

/-- The datagrams of a session which the client may receive. -/
def datagrams (s : Session) : List Datagram :=
  (s.framesTo submitter.clientAddr).map (Datagram.mk submitter.nodeAddr)

/-- What happens at the node and on the network.  Nothing but the node sends
responses from its address. -/
inductive Step (exchange : Exchange) : Exchange → Prop where
  | event (event : NodeEvent)
      (foreign : event.source ≠ some submitter.clientAddr) :
      Step exchange { exchange with
        service := exchange.service.handle submitter.config event
        inFlight := submitter.datagrams
          (exchange.service.react submitter.config event) ++
            exchange.inFlight }
  | submit (env : Environment) {frame : Bytes}
      (encoded : (WireMessage.submitTransaction
        submitter.transaction).encode = .ok frame) :
      Step exchange
        { service := (exchange.service.handleFrame submitter.config env
            submitter.clientAddr frame).service
          inFlight := submitter.datagrams (exchange.service.handleFrame
            submitter.config env submitter.clientAddr frame) ++
              exchange.inFlight
          received := exchange.received
          served := (exchange.service, (exchange.service.handleFrame
            submitter.config env submitter.clientAddr frame).service) ::
              exchange.served }
  | stray (datagram : Datagram)
      (harmless : datagram.source = submitter.nodeAddr → ∀ response,
        WireMessage.decode datagram.bytes ≠
          .ok (.submitTransactionResponse response)) :
      Step exchange { exchange with
        inFlight := datagram :: exchange.inFlight }
  | receive {datagram : Datagram} (sent : datagram ∈ exchange.inFlight) :
      Step exchange { exchange with
        received := exchange.received ++ [datagram] }

inductive Reachable : Exchange → Prop where
  | start (service : NodeService) : Reachable ⟨service, [], [], []⟩
  | step {before after : Exchange} (past : Reachable before)
      (next : submitter.Step before after) : Reachable after

theorem Reachable.reaches {submitter : Submitter} {before after : Exchange}
    (past : submitter.Reachable before)
    (h : ReflTransGen submitter.Step before after) :
    submitter.Reachable after := by
  induction h with
  | refl => exact past
  | tail _ next ih => exact ih.step next

/-- The node was in the one state before it took the submission and in the
other one after it, and gave the response. -/
def Answered (served : NodeService × NodeService)
    (response : SubmitTransactionResponse) : Prop :=
  ∃ txId status, submitter.transaction.txId = some txId ∧
    served.1.submission submitter.transaction = some status ∧
    response = (Service.submitResponse txId status).1 ∧
    served.2.runtime = served.1.runtimeAfter submitter.transaction

variable {submitter} {exchange exchange' : Exchange}

omit [Blake3] [Bincode] [PqCrypto] [BlockCodec] in
/-- The responses among the datagrams of a session. -/
theorem responses_of_datagrams (hcodec : WireCodec.RoundTrips) {s : Session}
    {datagram : Datagram} (h : datagram ∈ submitter.datagrams s)
    {response : SubmitTransactionResponse}
    (hdecode : WireMessage.decode datagram.bytes =
      .ok (.submitTransactionResponse response)) :
    response ∈ s.responsesTo submitter.clientAddr := by
  obtain ⟨frame, hframe, rfl⟩ := List.mem_map.mp h
  obtain ⟨transmission, htransmission, hencode⟩ :=
    List.mem_filterMap.mp hframe
  obtain ⟨hsent, htarget⟩ := List.mem_filter.mp htransmission
  refine List.mem_flatMap.mpr ⟨transmission, ?_, ?_⟩
  · refine List.mem_filter.mpr ⟨hsent, ?_⟩
    exact decide_eq_true (of_decide_eq_true htarget).1
  · cases hsent : transmission.message.encode with
    | error err => simp [hsent, Except.toOption] at hencode
    | ok encoded =>
        rw [hsent] at hencode
        obtain rfl : encoded = frame := Option.some.inj hencode
        rw [WireMessage.decode_encode hcodec hsent] at hdecode
        rw [Except.ok.inj hdecode]
        exact List.mem_singleton_self response

omit [BlockCodec] in
/-- The response to a copy of the submission. -/
theorem answered_of_submit (hcodec : WireCodec.RoundTrips)
    {service : NodeService} {env : Environment} {frame : Bytes}
    (hframe : (WireMessage.submitTransaction submitter.transaction).encode =
      .ok frame) {response : SubmitTransactionResponse}
    (h : response ∈ (service.handleFrame submitter.config env
      submitter.clientAddr frame).responsesTo submitter.clientAddr) :
    submitter.Answered (service, (service.handleFrame submitter.config env
      submitter.clientAddr frame).service) response := by
  rw [NodeService.handleFrame, Service.handleFrame] at h ⊢
  split at h
  · cases h
  · rename_i hremote
    rw [if_neg hremote]
    rw [WireMessage.decode_encode hcodec hframe] at h ⊢
    exact Service.responses_handleSubmittedTransaction h

/-- Every response on its way is the answer to a submission. -/
structure Honest (submitter : Submitter) (exchange : Exchange) : Prop where
  answered : ∀ datagram ∈ exchange.inFlight,
    datagram.source = submitter.nodeAddr → ∀ response,
      WireMessage.decode datagram.bytes =
        .ok (.submitTransactionResponse response) →
      ∃ served ∈ exchange.served, submitter.Answered served response
  sent : exchange.received ⊆ exchange.inFlight

theorem Honest.step (hcodec : WireCodec.RoundTrips)
    (h : submitter.Honest exchange)
    (hstep : submitter.Step exchange exchange') :
    submitter.Honest exchange' := by
  cases hstep with
  | event event foreign =>
      refine ⟨fun datagram hdatagram hsource response hdecode => ?_, ?_⟩
      · rcases List.mem_append.mp hdatagram with hnew | hold
        · have hresponse := responses_of_datagrams hcodec hnew hdecode
          rw [NodeService.responsesTo_react foreign] at hresponse
          cases hresponse
        · exact h.answered datagram hold hsource response hdecode
      · exact fun _ hdatagram => List.mem_append_right _ (h.sent hdatagram)
  | @submit env frame encoded =>
      refine ⟨fun datagram hdatagram hsource response hdecode => ?_, ?_⟩
      · rcases List.mem_append.mp hdatagram with hnew | hold
        · have hresponse := responses_of_datagrams hcodec hnew hdecode
          exact ⟨_, List.mem_cons_self,
            answered_of_submit hcodec encoded hresponse⟩
        · obtain ⟨served, hserved, hanswered⟩ :=
            h.answered datagram hold hsource response hdecode
          exact ⟨served, List.mem_cons_of_mem _ hserved, hanswered⟩
      · exact fun _ hdatagram => List.mem_append_right _ (h.sent hdatagram)
  | stray datagram harmless =>
      refine ⟨fun other hother hsource response hdecode => ?_, ?_⟩
      · rcases List.mem_cons.mp hother with rfl | hold
        · exact absurd hdecode (harmless hsource response)
        · exact h.answered other hold hsource response hdecode
      · exact fun _ hother => List.mem_cons_of_mem _ (h.sent hother)
  | @receive datagram sent =>
      refine ⟨h.answered, fun other hother => ?_⟩
      rcases List.mem_append.mp hother with hold | hnew
      · exact h.sent hold
      · exact List.mem_singleton.mp hnew ▸ sent

theorem Reachable.honest (hcodec : WireCodec.RoundTrips)
    (h : submitter.Reachable exchange) : submitter.Honest exchange := by
  induction h with
  | start service => exact ⟨fun _ h => (List.not_mem_nil h).elim, fun _ h => h⟩
  | step past next ih => exact ih.step hcodec next

omit [WireCodec] [BlockCodec] in
/-- What the client is told about a submission. -/
theorem Answered.truthful {served : NodeService × NodeService}
    {response : SubmitTransactionResponse}
    (h : submitter.Answered served response) :
    ∃ txId, submitter.transaction.txId = some txId ∧
      response.txIdHex = toHex txId.bytes ∧
      (response.accepted = true →
        ∃ pending ∈ served.2.runtime.pendingTransactions,
          pending.txId = some txId) ∧
      (response.accepted = false →
        served.2.runtime = served.1.runtime) := by
  obtain ⟨txId, status, htxId, hstatus, rfl, hruntime⟩ := h
  rw [hruntime]
  refine ⟨txId, htxId, ?_⟩
  rw [NodeService.submission] at hstatus
  rw [NodeService.runtimeAfter]
  split at hstatus
  · rename_i hpoison
    rw [if_pos hpoison]
    obtain rfl := Option.some.inj hstatus
    exact ⟨rfl, fun haccepted => absurd haccepted Bool.false_ne_true,
      fun _ => rfl⟩
  · rename_i hhealthy
    rw [if_neg hhealthy]
    split at hstatus
    · rename_i accepted haccept
      obtain rfl := Option.some.inj hstatus
      obtain ⟨id, hid, hcases, hpending⟩ :=
        NodeRuntime.pending_of_acceptTransaction haccept
      obtain rfl : txId = id := Option.some.inj (htxId.symm.trans hid)
      have hnotRefused : (Service.submitResponse txId
          (.ok accepted)).1.accepted ≠ false := by
        rcases hcases with rfl | rfl <;> exact Bool.noConfusion
      refine ⟨?_, fun _ => hpending, fun hrefused =>
        absurd hrefused hnotRefused⟩
      rcases hcases with rfl | rfl <;> rfl
    · rename_i err hrefuse
      obtain rfl := Option.some.inj hstatus
      exact ⟨rfl, fun haccepted => absurd haccepted Bool.false_ne_true,
        fun _ => NodeRuntime.acceptTransaction_refused hrefuse⟩
    · cases hstatus

/-! ## Answers which arrive -/

omit [WireCodec] [BlockCodec] in
/-- A session keeps what it has sent. -/
theorem sent_prefix_of_moving {α : Type} {message : WireMessage}
    {x : ServiceM α} {s : Session} (h : Service.Moving message x s) :
    s.sent <+: (x.after s).sent := by
  refine h.related (R := fun s s' => s.sent <+: s'.sent)
    (fun _ => List.prefix_rfl) (fun _ _ _ => List.IsPrefix.trans) ?_
  rintro s s' (⟨-, hsent, -⟩ | _ | _ | _ | _)
  · exact hsent ▸ List.prefix_rfl
  · exact List.prefix_append _ _
  · exact List.prefix_rfl
  · exact List.prefix_rfl
  · exact List.prefix_rfl

omit [BlockCodec] in
/-- Where sends succeed the answer to a submission reaches the network. -/
theorem frame_of_submission {config : ServiceConfig} {env : Environment}
    (henv : env.Reliable) {source : SocketAddr} {service : NodeService}
    {tx : Transaction} {txId : Hash256}
    {status : Except String TransactionAcceptStatus}
    (htxId : tx.txId = some txId)
    (hstatus : service.submission tx = some status) {frame : Bytes}
    (hframe : (WireMessage.submitTransactionResponse
      (Service.submitResponse txId status).1).encode = .ok frame) :
    frame ∈ ((Service.handleSubmittedTransaction config env source tx).after
      (Session.start service)).framesTo source := by
  rw [Service.after_submission_of_some htxId hstatus, after,
    exec_bind_of_ok (Service.exec_sendWire henv hframe source)]
  generalize hanswered : Session.record _ _ = answered
  have hsent : ⟨source, .submitTransactionResponse
      (Service.submitResponse txId status).1, .ok ()⟩ ∈ answered.sent :=
    hanswered ▸ List.mem_append_right _ (List.mem_singleton_self _)
  have hmoving : Service.Moving .presenceAnnounce
      (Service.announceSubmitted config env
        (Service.submitResponse txId status).2) answered :=
    Service.announceSubmitted_moves _
  have hkept := (sent_prefix_of_moving hmoving).subset hsent
  refine List.mem_filterMap.mpr ⟨_, List.mem_filter.mpr ⟨hkept, ?_⟩, ?_⟩
  · simp [Except.isOk, Except.toBool]
  · simp [hframe, Except.toOption]

end Submitter

/-- The client gets as far as to its socket. -/
structure ClientEnvironment.Submits (env : ClientEnvironment)
    (submitter : Submitter) : Prop where
  transaction : env.transaction = .ok submitter.transaction
  targetAddr : env.targetAddr = .ok submitter.nodeAddr
  bind : env.bind (wildcardAddr submitter.nodeAddr) = .ok ()
  setReadTimeout : env.setReadTimeout = .ok ()
  encoded : ∃ frame,
    (WireMessage.submitTransaction submitter.transaction).encode = .ok frame
  send : env.send = .ok ()

omit [Blake3] [Bincode] [PqCrypto] [BlockCodec] in
theorem ClientEnvironment.Submits.awaits {env : ClientEnvironment}
    {submitter : Submitter} (h : env.Submits submitter)
    (received : List Datagram) :
    submitTransactionViaUdp { env with received := received } =
      awaitSubmitResponse submitter.nodeAddr env.receiveError received := by
  obtain ⟨frame, hframe⟩ := h.encoded
  simp only [submitTransactionViaUdp, h.transaction, h.targetAddr, Bind.bind,
    Except.bind, h.bind, h.setReadTimeout, hframe, h.send, Except.mapError]

end Exchange

/-! ## An exchange -/

section EmptyTransfer

open scoped StandIns

local instance clientCodec : WireCodec := submissionCodec

def localSubmitter : Submitter where
  config := StandIns.plainConfig
  nodeAddr := StandIns.peerAddr
  clientAddr := secondPeerAddr
  transaction := emptyTransfer

def localClient : ClientEnvironment where
  transaction := .ok emptyTransfer
  targetAddr := .ok StandIns.peerAddr
  bind _ := .ok ()
  setReadTimeout := .ok ()
  send := .ok ()
  received := []
  receiveError := "timed out"

theorem localClient_submits : localClient.Submits localSubmitter where
  transaction := rfl
  targetAddr := rfl
  bind := rfl
  setReadTimeout := rfl
  encoded := ⟨submissionFrame, rfl⟩
  send := rfl

end EmptyTransfer

end QCoin
