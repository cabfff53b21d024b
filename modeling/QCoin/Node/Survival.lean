import QCoin.Node.Events
import QCoin.Node.PanicFree

/-!
# Running without a panic

A handler whose message is not too long to be encoded does not panic on a
runtime which holds nothing that is, and leaves such a runtime behind.  So no
event of that kind ever poisons the lock of the runtime.
-/

namespace QCoin

open Support
open Support.Stateful

section Survival

variable [Bincode]

/-- The runtime can be locked and holds nothing that is too long. -/
structure NodeService.Healthy (service : NodeService) : Prop where
  unpoisoned : service.runtimePoisoned = false
  fits : service.runtime.Fits

/-- Nothing which the message brings is too long to be encoded. -/
structure WireMessage.Fits (message : WireMessage) : Prop where
  blocks : ∀ block ∈ message.blocks, block.Fits
  transactions : ∀ tx ∈ message.transactions, tx.Fits

abbrev Session.Healthy (s : Session) : Prop := s.service.Healthy

namespace Service

variable {config : ServiceConfig} {env : Environment} {source : SocketAddr}

/-! ## Calls -/

theorem now_keeps : Keeps Session.Healthy (now env) :=
  fun _ h => h

theorem updateSync_keeps (f : SyncState → SyncState) :
    Keeps Session.Healthy (updateSync f) :=
  .update fun _ h => ⟨h.unpoisoned, h.fits⟩

theorem withRuntimeMut_keeps {α : Type}
    {f : NodeRuntime → Result String α × NodeRuntime}
    (hfree : ∀ runtime : NodeRuntime, runtime.Fits → PanicFree (f runtime).1)
    (hfits : ∀ runtime : NodeRuntime, runtime.Fits → (f runtime).2.Fits) :
    Keeps Session.Healthy (withRuntimeMut f) := by
  intro s h
  have hsurvives := hfree s.runtime h.fits
  have hafter : ∀ panicked, panicked = false →
      (s.setRuntime (f s.runtime).2 panicked).Healthy :=
    fun panicked hpanicked => ⟨hpanicked, hfits s.runtime h.fits⟩
  rw [Ends, exec_withRuntimeMut h.unpoisoned]
  generalize (f s.runtime).1 = result at hsurvives
  rcases result with (err | _) | a
  · exact hafter _ rfl
  · exact absurd rfl hsurvives
  · exact hafter _ rfl

theorem withRuntime_keeps {α : Type} {f : NodeRuntime → Option α}
    (h : ∀ runtime : NodeRuntime, runtime.Fits → (f runtime).isSome) :
    Keeps Session.Healthy (withRuntime f) :=
  withRuntimeMut_keeps (fun runtime hfits => .orPanic (h runtime hfits))
    fun _ hfits => hfits

theorem read_keeps {α : Type} (f : NodeRuntime → α) :
    Keeps Session.Healthy (withRuntime fun runtime => some (f runtime)) :=
  withRuntime_keeps fun _ _ => rfl

section Chain

variable [Blake3]

theorem hasTransaction_keeps (txId : Hash256) :
    Keeps Session.Healthy (hasTransaction txId) := by
  refine withRuntime_keeps fun runtime h => ?_
  have hpending := NodeRuntime.Fits.anyTxId_isSome
    (fun tx htx => (h.pending tx htx).core) txId
  have hcommitted := NodeRuntime.Fits.anyTxId_isSome h.committed txId
  obtain ⟨found, hfound⟩ := Option.isSome_iff_exists.mp hpending
  rw [hfound, Option.bind_eq_bind, Option.bind_some]
  split
  · rfl
  · exact hcommitted

theorem transactionById_keeps (txId : Hash256) :
    Keeps Session.Healthy (transactionById txId) := by
  refine withRuntime_keeps fun runtime h => ?_
  by_contra hnone
  obtain ⟨tx, htx, hid⟩ := exists_of_findTxId_eq_none
    (Option.not_isSome_iff_eq_none.mp hnone)
  obtain ⟨id, hsome⟩ := Transaction.exists_txId (h.pending tx htx).core
  rw [hid] at hsome
  cases hsome

theorem txId_keeps {tx : Transaction} (htx : tx.Fits) :
    Keeps Session.Healthy
      (lift (Result.orPanic tx.txId) : ServiceM Hash256) := by
  intro s h
  obtain ⟨txId, htxId⟩ := Transaction.exists_txId htx.core
  exact ends_lift_orPanic.mpr ⟨txId, htxId, h⟩

variable [PqCrypto]

theorem applyRemoteBlock_keeps {block : Block} (hblock : block.Fits) :
    Keeps Session.Healthy (applyRemoteBlock env block) :=
  withRuntimeMut_keeps
    (fun _ h => (h.applyBlock_panicFree hblock).mapErr)
    fun _ h => h.applyBlock block env.saves

theorem acceptTransaction_keeps {tx : Transaction} (htx : tx.Fits) :
    Keeps Session.Healthy (acceptTransaction tx) :=
  withRuntimeMut_keeps (fun _ h => (h.acceptTransaction_panicFree htx).mapErr)
    fun _ h => h.acceptTransaction tx

theorem produceOneBlock_keeps (clock : Except String UInt64) (entropy : ℕ) :
    Keeps Session.Healthy (produceOneBlock env clock entropy) := by
  refine (Keeps.inspect _).bind fun _ => .ite (.fail _) ?_
  exact withRuntimeMut_keeps
    (fun _ h => (h.produceOneBlock_panicFree clock entropy).mapErr)
    fun runtime h => h.perform (.produceOneBlock clock entropy env.saves)

end Chain

variable [WireCodec]

theorem sendWire_keeps (target : SocketAddr) (message : WireMessage) :
    Keeps Session.Healthy (sendWire env target message) := by
  intro s h
  rw [ends_sendWire]
  cases sendOutcome env s.sent.length target message with
  | ok _ => exact .inl ⟨rfl, h⟩
  | error err => exact .inr ⟨err, rfl, h⟩

/-! ## Admission of peers -/

theorem sendLocalNodeInfo_keeps :
    Keeps Session.Healthy (sendLocalNodeInfo config env source) :=
  now_keeps.bind fun _ => (updateSync_keeps _).bind fun _ =>
    (read_keeps _).bind fun _ => sendWire_keeps _ _

theorem requestNodeInfoExchange_keeps :
    Keeps Session.Healthy (requestNodeInfoExchange config env source) := by
  refine now_keeps.bind fun _ => (updateSync_keeps _).bind fun _ => ?_
  refine (Keeps.inspect _).bind fun _ => .ite ?_ (.pure _)
  refine (updateSync_keeps _).bind fun _ => ?_
  exact (sendWire_keeps _ _).attempt.bind fun _ => sendLocalNodeInfo_keeps

theorem handlePresenceAnnounce_keeps :
    Keeps Session.Healthy (handlePresenceAnnounce config env source) :=
  now_keeps.bind fun _ => (updateSync_keeps _).bind fun _ =>
    (Keeps.inspect _).bind fun _ => .ite sendLocalNodeInfo_keeps (.pure _)

theorem ifCompatible_keeps {handler : ServiceM Unit}
    (h : Keeps Session.Healthy handler) :
    Keeps Session.Healthy (ifCompatible config env source handler) := by
  refine Keeps.bind ?_ fun _ => .ite h (.pure _)
  refine (Keeps.inspect _).bind fun state => .ite (.pure _) ?_
  cases state.peerRejections.lookup source with
  | some rejection => exact .fail _
  | none => exact requestNodeInfoExchange_keeps.attempt.bind fun _ => .pure _

/-! ## Requests and announcements -/

theorem broadcastTipRequests_keeps (listing : PeerListing) :
    Keeps Session.Healthy (broadcastTipRequests config env listing) := by
  refine (Keeps.inspect _).bind fun peers => ?_
  refine Keeps.bind (.foldlM (fun tally peer => ?_) _ _) fun tally =>
    .ite (.fail _) (.pure _)
  exact (sendWire_keeps _ _).attempt.bind fun _ => .pure _

theorem broadcastPresenceAnnounces_keeps :
    Keeps Session.Healthy (broadcastPresenceAnnounces config env) := by
  refine .forM (fun target => ?_) _
  refine (sendWire_keeps _ _).attempt.bind fun outcome => ?_
  cases outcome with
  | ok _ => exact .pure _
  | error _ => exact .ite (.pure _) (.fail _)

theorem broadcastTransactionAnnounce_keeps (txId : Hash256) :
    Keeps Session.Healthy (broadcastTransactionAnnounce config env txId) := by
  refine .forM (fun target => ?_) _
  refine (sendWire_keeps _ _).attempt.bind fun outcome => ?_
  cases outcome with
  | ok _ => exact .pure _
  | error _ => exact .ite (.pure _) (.fail _)

/-! ## Synchronization of blocks -/

theorem requestNextMissingBlock_keeps (remoteTipHeight : UInt64) :
    Keeps Session.Healthy
      (requestNextMissingBlock env source remoteTipHeight) := by
  refine (read_keeps _).bind fun _ => .ite (.pure _) ?_
  refine (Keeps.inspect _).bind fun _ => .ite (.pure _) ?_
  exact (updateSync_keeps _).bind fun _ => sendWire_keeps _ _

theorem requestFollowUpBlock_keeps :
    Keeps Session.Healthy (requestFollowUpBlock env source) :=
  (Keeps.inspect _).bind fun _ => requestNextMissingBlock_keeps _

variable [Blake3] [PqCrypto]

theorem handleReceivedBlock_keeps {height : UInt64} {block : Option Block}
    (hblock : ∀ b ∈ block, b.Fits) :
    Keeps Session.Healthy (handleReceivedBlock env source height block) := by
  cases block with
  | none => exact .pure _
  | some block =>
      refine (read_keeps _).bind fun _ => .ite requestFollowUpBlock_keeps ?_
      refine (applyRemoteBlock_keeps (hblock block rfl)).attempt.bind ?_
      intro outcome
      cases outcome with
      | ok _ => exact requestFollowUpBlock_keeps
      | error _ => exact .pure _

theorem handleSubmitBlock_keeps {block : Block} (hblock : block.Fits) :
    Keeps Session.Healthy (handleSubmitBlock config env source block) := by
  refine ifCompatible_keeps ?_
  refine (applyRemoteBlock_keeps hblock).attempt.bind fun outcome => ?_
  cases outcome with
  | ok _ => exact sendWire_keeps _ _
  | error _ => exact (read_keeps _).bind fun _ => sendWire_keeps _ _

/-! ## Exchange of transactions -/

omit [PqCrypto] in
theorem handleNodeInfo_keeps (info : NodeInfo) :
    Keeps Session.Healthy (handleNodeInfo env source info) := by
  refine (read_keeps _).bind fun chainId => ?_
  cases ensureNodeInfoCompatible chainId info with
  | error err => exact updateSync_keeps _
  | ok _ =>
      refine (Keeps.inspect _).bind fun _ => now_keeps.bind fun _ => ?_
      refine (updateSync_keeps _).bind fun _ => .forM (fun txId => ?_) _
      exact (hasTransaction_keeps txId).bind fun _ =>
        .ite (.pure _) (sendWire_keeps _ _)

omit [PqCrypto] in
theorem handleTransactionAnnounce_keeps (txId : Hash256) :
    Keeps Session.Healthy
      (handleTransactionAnnounce config env source txId) := by
  refine (hasTransaction_keeps txId).bind fun _ => .ite (.pure _) ?_
  refine (Keeps.inspect _).bind fun _ => .ite (sendWire_keeps _ _) ?_
  refine .ite (.pure _) ((updateSync_keeps _).bind fun _ => ?_)
  exact requestNodeInfoExchange_keeps.attempt.bind fun _ => .pure _

theorem handleTransactionResponse_keeps {txId : Hash256}
    {transaction : Option Transaction}
    (htransaction : ∀ tx ∈ transaction, tx.Fits) :
    Keeps Session.Healthy
      (handleTransactionResponse config env source txId transaction) := by
  refine ifCompatible_keeps ?_
  cases transaction with
  | none => exact .pure _
  | some tx =>
      have htx := htransaction tx rfl
      refine (txId_keeps htx).bind fun _ => .ite (.fail _) ?_
      refine (acceptTransaction_keeps htx).bind fun status => ?_
      cases status with
      | acceptedNew _ => exact broadcastTransactionAnnounce_keeps _
      | alreadyPending _ => exact .pure _

theorem handleSubmittedTransaction_keeps {tx : Transaction} (htx : tx.Fits) :
    Keeps Session.Healthy
      (handleSubmittedTransaction config env source tx) := by
  refine (txId_keeps htx).bind fun txId => ?_
  refine (acceptTransaction_keeps htx).attempt.bind fun status => ?_
  refine (sendWire_keeps _ _).bind fun _ => ?_
  cases (submitResponse txId status).2 with
  | none => exact .pure _
  | some _ =>
      exact (broadcastTransactionAnnounce_keeps _).attempt.bind fun _ =>
        .pure _

/-! ## Messages -/

theorem handleMessage_keeps {message : WireMessage} (h : message.Fits) :
    Keeps Session.Healthy (handleMessage config env source message) := by
  cases message with
  | presenceAnnounce => exact handlePresenceAnnounce_keeps
  | nodeInfo info => exact handleNodeInfo_keeps info
  | tipRequest =>
      exact ifCompatible_keeps ((read_keeps _).bind fun _ =>
        sendWire_keeps _ _)
  | tipResponse tip =>
      exact ifCompatible_keeps ((updateSync_keeps _).bind fun _ =>
        requestNextMissingBlock_keeps _)
  | blockRequest height =>
      exact ifCompatible_keeps ((read_keeps _).bind fun _ =>
        sendWire_keeps _ _)
  | blockResponse height block =>
      refine ifCompatible_keeps ((updateSync_keeps _).bind fun _ =>
        handleReceivedBlock_keeps ?_)
      rintro b rfl
      exact h.blocks b (List.mem_singleton_self b)
  | submitBlock block =>
      exact handleSubmitBlock_keeps
        (h.blocks block (List.mem_singleton_self block))
  | submitBlockResponse _ => exact .pure _
  | transactionAnnounce txId => exact handleTransactionAnnounce_keeps txId
  | transactionRequest txId =>
      exact ifCompatible_keeps ((transactionById_keeps txId).bind fun _ =>
        sendWire_keeps _ _)
  | transactionResponse txId transaction =>
      refine handleTransactionResponse_keeps ?_
      rintro tx rfl
      exact h.transactions tx (List.mem_singleton_self tx)
  | submitTransaction tx =>
      exact handleSubmittedTransaction_keeps
        (h.transactions tx (List.mem_singleton_self tx))
  | submitTransactionResponse _ => exact .pure _

theorem handleFrame_keeps {frame : Bytes}
    (hblocks : ∀ block ∈ frameBlocks frame, block.Fits)
    (htransactions : ∀ tx ∈ frameTransactions frame, tx.Fits) :
    Keeps Session.Healthy (handleFrame config env source frame) := by
  rw [frameBlocks] at hblocks
  rw [frameTransactions] at htransactions
  refine .ite (.pure _) ?_
  cases hdecode : WireMessage.decode frame with
  | error err => exact .pure _
  | ok message =>
      rw [hdecode] at hblocks htransactions
      exact handleMessage_keeps ⟨hblocks, htransactions⟩

/-! ## Production of blocks -/

theorem produceNow_keeps (listing : PeerListing) (clock : Except String UInt64)
    (entropy : ℕ) :
    Keeps Session.Healthy (produceNow config env listing clock entropy) := by
  refine (produceOneBlock_keeps clock entropy).bind fun produced => ?_
  rcases produced with _ | ⟨height, block⟩
  · exact .pure _
  · refine Keeps.bind ?_ fun _ => .pure _
    refine (Keeps.inspect _).bind fun peers => .ite (.pure _) ?_
    cases (WireMessage.submitBlock block).encode with
    | error err => exact .fail err
    | ok frame =>
        refine .forM (fun peer s h => ?_) _
        rw [Ends, sendBlock, exec_call]
        cases blockOutcome env s.sent.length peer with
        | ok _ => exact h
        | error err => exact h

end Service

/-! ## Events -/

variable [WireCodec] [BlockCodec]

/-- Nothing which the event brings is too long to be encoded. -/
def NodeEvent.Fits : NodeEvent → Prop
  | .frame _ _ bytes =>
      (∀ block ∈ frameBlocks bytes, block.Fits) ∧
        ∀ tx ∈ frameTransactions bytes, tx.Fits
  | .request _ _ sent => ∀ block ∈ sent.submitted, block.Fits
  | .produce .. => True
  | .requestTips .. => True
  | .announcePresence _ => True

variable [Blake3] [PqCrypto]

/-- The handler of the event panics, or the server thread ends. -/
def NodeService.Panics (config : ServiceConfig) (service : NodeService) :
    NodeEvent → Prop
  | .frame env source bytes =>
      (Service.handleFrame config env source bytes).result
        (Session.start service) = .error .panic
  | .request info saves request =>
      (service.handleRequest info saves request).1 = none
  | .produce env listing clock entropy =>
      (Service.produceNow config env listing clock entropy).result
        (Session.start service) = .error .panic
  | .requestTips env listing =>
      (Service.broadcastTipRequests config env listing).result
        (Session.start service) = .error .panic
  | .announcePresence env =>
      (Service.broadcastPresenceAnnounces config env).result
        (Session.start service) = .error .panic

omit [WireCodec] in
/-- A request which is answered leaves a runtime behind which holds nothing
that is too long. -/
theorem NodeRuntime.Fits.handleRequest {runtime : NodeRuntime}
    (h : runtime.Fits) (info : NodeInfo) (saves : SaveOutcomes)
    {request : HttpRequest} (hfits : ∀ block ∈ request.submitted, block.Fits) :
    (runtime.handleRequest info saves request).1.isSome ∧
      (runtime.handleRequest info saves request).2.Fits := by
  have hposted : (runtime.postBlock saves request.body).1.isSome ∧
      (runtime.postBlock saves request.body).2.Fits := by
    rw [HttpRequest.submitted] at hfits
    unfold NodeRuntime.postBlock
    cases hbody : request.body with
    | error err => exact ⟨rfl, h⟩
    | ok payload =>
        rw [hbody] at hfits
        dsimp only at hfits ⊢
        cases hread : BlockCodec.deserialize payload with
        | error err => exact ⟨rfl, h⟩
        | ok block =>
            dsimp only
            have hblock : block.Fits := hfits block (by simp [hread,
              Except.toOption])
            have hafter := h.applyBlock block saves
            have hfree : PanicFree (runtime.applyBlock block saves).1 :=
              h.applyBlock_panicFree hblock
            generalize runtime.applyBlock block saves = outcome
              at hafter hfree
            rcases outcome with ⟨(err | _) | height, next⟩
            · exact ⟨rfl, hafter⟩
            · exact absurd rfl hfree
            · exact ⟨rfl, hafter⟩
  unfold NodeRuntime.handleRequest
  split_ifs
  · exact ⟨rfl, h⟩
  · exact ⟨rfl, h⟩
  · exact ⟨rfl, h⟩
  · exact hposted
  · exact ⟨rfl, h⟩

namespace NodeService.Healthy

variable {config : ServiceConfig} {service : NodeService}

theorem handle (h : service.Healthy) {event : NodeEvent} (hfits : event.Fits) :
    (service.handle config event).Healthy := by
  have hstart : (Session.start service).Healthy := h
  cases event with
  | frame env source bytes =>
      exact (Service.handleFrame_keeps hfits.1 hfits.2).after hstart
  | request info saves request =>
      obtain ⟨hanswered, hafter⟩ := h.fits.handleRequest info saves hfits
      rw [NodeService.handle, NodeService.react, Session.start,
        NodeService.handleRequest, if_neg (by simp [h.unpoisoned])]
      refine ⟨?_, hafter⟩
      rwa [Option.isSome_iff_ne_none, ne_eq, ← Option.isNone_iff_eq_none,
        Bool.not_eq_true] at hanswered
  | produce env listing clock entropy =>
      exact (Service.produceNow_keeps listing clock entropy).after hstart
  | requestTips env listing =>
      exact (Service.broadcastTipRequests_keeps listing).after hstart
  | announcePresence env =>
      exact Service.broadcastPresenceAnnounces_keeps.after hstart

theorem handleAll (h : service.Healthy) {events : List NodeEvent}
    (hfits : ∀ event ∈ events, event.Fits) :
    (service.handleAll config events).Healthy := by
  induction events generalizing service with
  | nil => exact h
  | cons event events ih =>
      exact ih (h.handle (hfits event List.mem_cons_self))
        fun other hother => hfits other (List.mem_cons_of_mem event hother)

theorem not_panics (h : service.Healthy) {event : NodeEvent}
    (hfits : event.Fits) : ¬service.Panics config event := by
  have hstart : (Session.start service).Healthy := h
  cases event with
  | frame env source bytes =>
      exact (Service.handleFrame_keeps hfits.1 hfits.2).result_ne_panic hstart
  | request info saves request =>
      obtain ⟨hanswered, -⟩ := h.fits.handleRequest info saves hfits
      rw [NodeService.Panics, NodeService.handleRequest,
        if_neg (by simp [h.unpoisoned])]
      exact Option.isSome_iff_ne_none.mp hanswered
  | produce env listing clock entropy =>
      exact (Service.produceNow_keeps listing clock entropy).result_ne_panic
        hstart
  | requestTips env listing =>
      exact (Service.broadcastTipRequests_keeps listing).result_ne_panic hstart
  | announcePresence env =>
      exact Service.broadcastPresenceAnnounces_keeps.result_ne_panic hstart

end NodeService.Healthy

/-- Whatever files a node starts from and whatever reaches it, if nothing that
reaches it is too long to be encoded, no handler panics and the lock of the
runtime is never poisoned. -/
theorem running_node_never_panics [SerdeJson] {config : NodeConfig}
    {stateFile blocksFile : FileRead SerdeJson.Text}
    {save : Except String Unit} {start : NodeRuntime}
    (hstart : config.start stateFile blocksFile save = .ok start)
    (hscheme : (defaultRegistry config.publicKey.scheme).isSome)
    (serviceConfig : ServiceConfig) {events : List NodeEvent}
    (hfits : ∀ event ∈ events, event.Fits) :
    let service := (NodeService.new start).handleAll serviceConfig events
    service.runtimePoisoned = false ∧
      ∀ event : NodeEvent, event.Fits →
        ¬service.Panics serviceConfig event := by
  intro service
  have hnew : (NodeService.new start).Healthy :=
    ⟨rfl, (NodeConfig.start_replayable hstart).fits hscheme
      (NodeConfig.start_pendingTransactions hstart)⟩
  have hservice : service.Healthy := hnew.handleAll hfits
  exact ⟨hservice.unpoisoned, fun _ hevent => hservice.not_panics hevent⟩

end Survival

section OneRequest

open scoped StandIns

/-- A block whose second transaction spends an output of the first one. -/
def spendingRequest : NodeEvent :=
  .request StandIns.peerInfo StandIns.savesOk
    ⟨.post, "/blocks", .ok (StandIns.spendingBlock 1)⟩

theorem spendingBlock_fits : (StandIns.spendingBlock 1).Fits := by
  have hfits : ∀ (ledger : LedgerState) (tx : Transaction),
      (ledger.applyTransaction tx StandIns.acceptAll 1 0).1 = .ok () →
        tx.Fits := by
    intro ledger tx happly
    obtain ⟨haccepts, txId, htxId, -⟩ :=
      LedgerState.applyTransaction_eq_ok.mp (Prod.ext happly rfl)
    exact haccepts.fits htxId
  intro tx htx
  rcases List.mem_pair.mp htx with rfl | rfl
  · exact hfits LedgerState.empty _ (by decide +kernel)
  · exact hfits (LedgerState.empty.applyTransaction (StandIns.openTransfer [])
      StandIns.acceptAll 1 0).2 _ (by decide +kernel)

theorem spendingRequest_blocks :
    ((NodeService.new (StandIns.freshRuntime 2
      [StandIns.validatorKey 1])).handleAll StandIns.plainConfig
        [spendingRequest]).runtime.blocks = [StandIns.spendingBlock 1] := by
  decide +kernel

/-- An observer takes the block and survives when it comes again. -/
theorem spendingRequest_never_panics :
    ∃ service, service = (NodeService.new (StandIns.freshRuntime 2
        [StandIns.validatorKey 1])).handleAll StandIns.plainConfig
          [spendingRequest] ∧
      service.runtime.blocks = [StandIns.spendingBlock 1] ∧
      service.runtimePoisoned = false ∧
      ¬service.Panics StandIns.plainConfig spendingRequest := by
  have hevent : spendingRequest.Fits := by
    rintro block ⟨⟩
    exact spendingBlock_fits
  have hsurvives := running_node_never_panics
    (StandIns.start_fresh 2 [StandIns.validatorKey 1]) rfl
    StandIns.plainConfig (List.forall_mem_singleton.mpr hevent)
  exact ⟨_, rfl, spendingRequest_blocks, hsurvives.1, hsurvives.2 _ hevent⟩

end OneRequest

end QCoin
