import QCoin.Node.Admission
import QCoin.Node.Broadcast

/-!
# What messages carry

The blocks and transactions which a handler sends are those of its runtime, and
the ones it hands to the runtime are those of the message it handles.
-/

namespace QCoin

open Support
open Support.Stateful

/-! ## Payloads -/

namespace WireMessage

def blocks : WireMessage → List Block
  | .submitBlock block => [block]
  | .blockResponse _ (some block) => [block]
  | _ => []

def transactions : WireMessage → List Transaction
  | .submitTransaction transaction => [transaction]
  | .transactionResponse _ (some transaction) => [transaction]
  | _ => []

end WireMessage

section Frames

variable [WireCodec]

def frameBlocks (frame : Bytes) : List Block :=
  match WireMessage.decode frame with
  | .ok message => message.blocks
  | .error _ => []

def frameTransactions (frame : Bytes) : List Transaction :=
  match WireMessage.decode frame with
  | .ok message => message.transactions
  | .error _ => []

end Frames

/-- The session has what the message carries, and can still read it. -/
structure Session.Has (s : Session) (message : WireMessage) : Prop where
  blocks : ∀ block ∈ message.blocks,
    s.service.runtimePoisoned = false ∧ block ∈ s.runtime.blocks
  transactions : ∀ tx ∈ message.transactions,
    s.service.runtimePoisoned = false ∧ tx ∈ s.runtime.pendingTransactions

/-- A message without blocks and transactions. -/
theorem Session.has_of_empty {s : Session} {message : WireMessage}
    (hblocks : message.blocks = []) (htransactions : message.transactions = []) :
    s.Has message where
  blocks := by simp [hblocks]
  transactions := by simp [htransactions]

variable [Blake3] [Bincode] [PqCrypto]

/-- One of the transactions of the runtime has no id. -/
def NodeRuntime.LacksId (runtime : NodeRuntime) : Prop :=
  ∃ tx ∈ runtime.pendingTransactions ++ committedTransactions runtime.blocks,
    tx.txId = none

/-- One step of handling a message, as far as blocks and transactions are
concerned. -/
inductive Session.Moves (message : WireMessage) : Session → Session → Prop where
  | quiet {s s' : Session} (runtime : s'.runtime = s.runtime)
      (sent : s'.sent = s.sent)
      (poisoned : s'.service.runtimePoisoned = s.service.runtimePoisoned) :
      Moves message s s'
  | transmitted {s : Session} (transmission : Transmission)
      (has : s.Has transmission.message) :
      Moves message s (s.record transmission)
  /-- A search among the transactions panics. -/
  | searchPanicked {s : Session} (lacks : s.runtime.LacksId) :
      Moves message s (s.setRuntime s.runtime true)
  | blockApplied {s : Session} {block : Block} (saves : SaveOutcomes)
      (received : block ∈ message.blocks)
      (healthy : s.service.runtimePoisoned = false) :
      Moves message s (s.setRuntime (s.runtime.applyBlock block saves).2
        (s.runtime.applyBlock block saves).1.isPanic)
  | transactionAccepted {s : Session} {tx : Transaction}
      (received : tx ∈ message.transactions)
      (healthy : s.service.runtimePoisoned = false) :
      Moves message s (s.setRuntime (s.runtime.acceptTransaction tx).2
        (s.runtime.acceptTransaction tx).1.isPanic)

namespace Service

abbrev Moving {α : Type} (message : WireMessage) (x : ServiceM α)
    (s : Session) : Prop :=
  Takes (Session.Moves message) x s

variable {config : ServiceConfig} {env : Environment} {source : SocketAddr}
  {message : WireMessage} {s : Session}

/-- Without a block or a transaction to accept the runtime stays. -/
theorem runtime_of_moving {α : Type} {x : ServiceM α}
    (h : Moving .presenceAnnounce x s) : (x.after s).runtime = s.runtime := by
  refine h.invariant (fun s' => s'.runtime = s.runtime) ?_ rfl
  rintro s₁ s₂ (⟨hruntime, -, -⟩ | _ | _ | ⟨-, hreceived⟩ | hreceived) hs
  · exact hruntime.trans hs
  · exact hs
  · exact hs
  · exact absurd hreceived List.not_mem_nil
  · exact absurd hreceived List.not_mem_nil

/-! ## Calls -/

theorem now_moves : Moving message (now env) s :=
  .step (.quiet rfl rfl rfl)

theorem updateSync_moves (f : SyncState → SyncState) :
    Moving message (updateSync f) s :=
  .update (.quiet rfl rfl rfl)

omit [Blake3] [Bincode] [PqCrypto] in
/-- A panic inside the lock poisons it. -/
theorem exec_withRuntimeMut {α : Type}
    {f : NodeRuntime → Result String α × NodeRuntime}
    (hhealthy : s.service.runtimePoisoned = false) :
    (withRuntimeMut f).exec s =
      ((f s.runtime).1,
        s.setRuntime (f s.runtime).2 (f s.runtime).1.isPanic) := by
  rw [withRuntimeMut, exec_call, hhealthy]
  rcases f s.runtime with ⟨(err | _) | a, runtime⟩ <;> rfl

theorem withRuntimeMut_moves {α : Type}
    {f : NodeRuntime → Result String α × NodeRuntime}
    (h : s.service.runtimePoisoned = false → Session.Moves message s
      (s.setRuntime (f s.runtime).2 (f s.runtime).1.isPanic)) :
    Moving message (withRuntimeMut f) s := by
  by_cases hpoison : s.service.runtimePoisoned = true
  · apply Takes.still
    rw [after, withRuntimeMut, exec_call, if_pos hpoison]
  · have hhealthy := Bool.eq_false_of_not_eq_true hpoison
    apply Takes.step
    rw [after, exec_withRuntimeMut hhealthy]
    exact h hhealthy

omit [Blake3] [Bincode] [PqCrypto] in
/-- A value read from the runtime was read while it could be. -/
theorem withRuntime_read {α : Type} {f : NodeRuntime → Option α} {a : α}
    (h : (withRuntime f).result s = .ok a) :
    f s.runtime = some a ∧ (withRuntime f).after s = s ∧
      s.service.runtimePoisoned = false := by
  obtain ⟨hread, hafter⟩ := withRuntime_eq_ok h
  refine ⟨hread, hafter, ?_⟩
  by_contra hpoison
  rw [Bool.not_eq_false] at hpoison
  rw [result, withRuntime_exec, if_pos hpoison] at h
  cases h

/-- Reading the runtime panics only in a search. -/
theorem withRuntime_moves {α : Type} (f : NodeRuntime → Option α)
    (h : f s.runtime = none → s.runtime.LacksId) :
    Moving message (withRuntime f) s := by
  refine withRuntimeMut_moves fun hhealthy => ?_
  cases hread : f s.runtime with
  | none => exact .searchPanicked (h hread)
  | some a => exact .quiet rfl rfl hhealthy.symm

theorem read_moves {α : Type} (f : NodeRuntime → α) :
    Moving message (withRuntime fun runtime => some (f runtime)) s :=
  withRuntime_moves _ fun h => nomatch h

omit [Bincode] [PqCrypto] in
theorem exists_of_anyTxId_eq_none {txId : Hash256} {txs : List Transaction}
    (h : anyTxId txId txs = none) : ∃ tx ∈ txs, tx.txId = none := by
  induction txs with
  | nil => cases h
  | cons tx txs ih =>
      rw [anyTxId] at h
      cases hid : tx.txId with
      | none => exact ⟨tx, List.mem_cons_self, hid⟩
      | some other =>
          simp only [hid, Option.bind_eq_bind, Option.bind_some] at h
          split at h
          · cases h
          · obtain ⟨found, hfound, hnone⟩ := ih h
            exact ⟨found, List.mem_cons_of_mem tx hfound, hnone⟩

omit [Bincode] [PqCrypto] in
theorem exists_of_findTxId_eq_none {txId : Hash256} {txs : List Transaction}
    (h : findTxId txId txs = none) : ∃ tx ∈ txs, tx.txId = none := by
  induction txs with
  | nil => cases h
  | cons tx txs ih =>
      rw [findTxId] at h
      cases hid : tx.txId with
      | none => exact ⟨tx, List.mem_cons_self, hid⟩
      | some other =>
          simp only [hid, Option.bind_eq_bind, Option.bind_some] at h
          split at h
          · cases h
          · obtain ⟨found, hfound, hnone⟩ := ih h
            exact ⟨found, List.mem_cons_of_mem tx hfound, hnone⟩

theorem hasTransaction_moves (txId : Hash256) :
    Moving message (hasTransaction txId) s := by
  refine withRuntime_moves _ fun h => ?_
  cases hpending : anyTxId txId s.runtime.pendingTransactions with
  | none =>
      obtain ⟨tx, htx, hnone⟩ := exists_of_anyTxId_eq_none hpending
      exact ⟨tx, List.mem_append_left _ htx, hnone⟩
  | some found =>
      simp only [hpending, Option.bind_eq_bind, Option.bind_some] at h
      split at h
      · cases h
      · obtain ⟨tx, htx, hnone⟩ := exists_of_anyTxId_eq_none h
        exact ⟨tx, List.mem_append_right _ htx, hnone⟩

omit [Blake3] [Bincode] [PqCrypto] in
theorem isPanic_mapErr {ε ε' α : Type} (f : ε → ε') (x : Result ε α) :
    (Result.mapErr f x).isPanic = x.isPanic := by
  rcases x with (err | _) | a <;> rfl

theorem applyRemoteBlock_moves {block : Block}
    (received : block ∈ message.blocks) :
    Moving message (applyRemoteBlock env block) s := by
  refine withRuntimeMut_moves fun healthy => ?_
  dsimp only
  rw [isPanic_mapErr]
  exact .blockApplied env.saves received healthy

theorem acceptTransaction_moves {tx : Transaction}
    (received : tx ∈ message.transactions) :
    Moving message (acceptTransaction tx) s := by
  refine withRuntimeMut_moves fun healthy => ?_
  dsimp only
  rw [isPanic_mapErr]
  exact .transactionAccepted received healthy

variable [WireCodec]

theorem sendWire_moves {target : SocketAddr} {sent : WireMessage}
    (has : s.Has sent) : Moving message (sendWire env target sent) s :=
  .step (.transmitted _ has)

/-! ## Admission of peers -/

theorem sendLocalNodeInfo_moves :
    Moving message (sendLocalNodeInfo config env source) s := by
  refine now_moves.bind fun _ _ => (updateSync_moves _).bind fun _ _ => ?_
  exact (read_moves _).bind fun _ _ =>
    sendWire_moves (Session.has_of_empty rfl rfl)

theorem requestNodeInfoExchange_moves :
    Moving message (requestNodeInfoExchange config env source) s := by
  refine now_moves.bind fun _ _ => (updateSync_moves _).bind fun _ _ => ?_
  refine (Takes.inspect _).bind fun _ _ => .ite (fun _ => ?_) fun _ => .pure _
  refine (updateSync_moves _).bind fun _ _ => ?_
  exact (sendWire_moves (Session.has_of_empty rfl rfl)).attempt.bind
    fun _ _ => sendLocalNodeInfo_moves

theorem handlePresenceAnnounce_moves :
    Moving message (handlePresenceAnnounce config env source) s := by
  refine now_moves.bind fun _ _ => (updateSync_moves _).bind fun _ _ => ?_
  exact (Takes.inspect _).bind fun _ _ =>
    .ite (fun _ => sendLocalNodeInfo_moves) fun _ => .pure _

theorem ifCompatible_moves {handler : ServiceM Unit}
    (h : ∀ s, Moving message handler s) :
    Moving message (ifCompatible config env source handler) s := by
  refine Takes.bind ?_ fun _ _ => .ite (fun _ => h _) fun _ => .pure _
  refine (Takes.inspect _).bind fun state _ => .ite (fun _ => .pure _) ?_
  intro _
  cases state.peerRejections.lookup source with
  | some rejection => exact .fail _
  | none =>
      exact requestNodeInfoExchange_moves.attempt.bind fun _ _ => .pure _

/-- Answers with what was read from the runtime. -/
theorem answer_moves {α : Type} {f : NodeRuntime → Option α}
    {reply : α → WireMessage}
    (hpanic : ∀ runtime, f runtime = none → runtime.LacksId)
    (h : ∀ (s : Session) a, f s.runtime = some a →
      s.service.runtimePoisoned = false → s.Has (reply a)) :
    Moving message (ifCompatible config env source do
      let a ← withRuntime f
      sendWire env source (reply a)) s := by
  refine ifCompatible_moves fun s => (withRuntime_moves f (hpanic _)).bind ?_
  intro a hresult
  obtain ⟨hread, hafter, hhealthy⟩ := withRuntime_read hresult
  rw [hafter]
  exact sendWire_moves (h s a hread hhealthy)

/-! ## Synchronization of blocks -/

theorem requestNextMissingBlock_moves (remoteTipHeight : UInt64) :
    Moving message (requestNextMissingBlock env source remoteTipHeight) s := by
  refine (read_moves _).bind fun localHeight _ => ?_
  refine .ite (fun _ => .pure _) fun _ => ?_
  refine (Takes.inspect _).bind fun _ _ => .ite (fun _ => .pure _) fun _ => ?_
  exact (updateSync_moves _).bind fun _ _ =>
    sendWire_moves (Session.has_of_empty rfl rfl)

theorem requestFollowUpBlock_moves :
    Moving message (requestFollowUpBlock env source) s :=
  (Takes.inspect _).bind fun _ _ => requestNextMissingBlock_moves _

theorem handleTipResponse_moves (tip : TipResponse) :
    Moving message (handleTipResponse config env source tip) s :=
  ifCompatible_moves fun _ => (updateSync_moves _).bind fun _ _ =>
    requestNextMissingBlock_moves _

theorem handleBlockResponse_moves {height : UInt64} {block : Option Block}
    (received : ∀ b ∈ block, b ∈ message.blocks) :
    Moving message (handleBlockResponse config env source height block) s := by
  refine ifCompatible_moves fun _ => (updateSync_moves _).bind fun _ _ => ?_
  cases block with
  | none => exact .pure _
  | some block =>
      refine (read_moves _).bind fun _ _ => ?_
      refine .ite (fun _ => requestFollowUpBlock_moves) fun _ => ?_
      refine (applyRemoteBlock_moves (received block rfl)).attempt.bind ?_
      intro outcome _
      cases outcome with
      | ok _ => exact requestFollowUpBlock_moves
      | error _ => exact .pure _

theorem handleSubmitBlock_moves {block : Block}
    (received : block ∈ message.blocks) :
    Moving message (handleSubmitBlock config env source block) s := by
  refine ifCompatible_moves fun _ => ?_
  refine (applyRemoteBlock_moves received).attempt.bind fun outcome _ => ?_
  cases outcome with
  | ok _ => exact sendWire_moves (Session.has_of_empty rfl rfl)
  | error _ =>
      exact (read_moves _).bind fun _ _ =>
        sendWire_moves (Session.has_of_empty rfl rfl)

/-! ## Exchange of transactions -/

theorem broadcastTransactionAnnounce_moves (txId : Hash256) :
    Moving message (broadcastTransactionAnnounce config env txId) s := by
  refine .forM fun target _ s => ?_
  refine (sendWire_moves (Session.has_of_empty rfl rfl)).attempt.bind ?_
  intro outcome _
  cases outcome with
  | ok _ => exact .pure _
  | error _ => exact .ite (fun _ => .pure _) fun _ => .fail _

theorem requestUnlessKnown_moves (txId : Hash256) :
    Moving message (requestUnlessKnown env source txId) s :=
  (hasTransaction_moves txId).bind fun _ _ => .ite (fun _ => .pure _) fun _ =>
    sendWire_moves (Session.has_of_empty rfl rfl)

theorem handleNodeInfo_moves (info : NodeInfo) :
    Moving message (handleNodeInfo env source info) s := by
  refine (read_moves _).bind fun chainId _ => ?_
  cases ensureNodeInfoCompatible chainId info with
  | error err => exact updateSync_moves _
  | ok _ =>
      refine (Takes.inspect _).bind fun _ _ => now_moves.bind fun _ _ => ?_
      exact (updateSync_moves _).bind fun _ _ =>
        .forM fun txId _ _ => requestUnlessKnown_moves txId

theorem handleTransactionAnnounce_moves (txId : Hash256) :
    Moving message (handleTransactionAnnounce config env source txId) s := by
  refine (hasTransaction_moves txId).bind fun _ _ => .ite (fun _ => .pure _) ?_
  refine fun _ => (Takes.inspect _).bind fun _ _ => ?_
  refine .ite (fun _ => sendWire_moves (Session.has_of_empty rfl rfl)) ?_
  refine fun _ => .ite (fun _ => .pure _) fun _ => ?_
  exact (updateSync_moves _).bind fun _ _ =>
    requestNodeInfoExchange_moves.attempt.bind fun _ _ => .pure _

theorem handleTransactionResponse_moves {txId : Hash256}
    {transaction : Option Transaction}
    (received : ∀ tx ∈ transaction, tx ∈ message.transactions) :
    Moving message
      (handleTransactionResponse config env source txId transaction) s := by
  refine ifCompatible_moves fun _ => ?_
  cases transaction with
  | none => exact .pure _
  | some transaction =>
      refine (Takes.still rfl).bind fun _ _ => ?_
      refine .ite (fun _ => .fail _) fun _ => ?_
      refine (acceptTransaction_moves (received transaction rfl)).bind ?_
      intro status _
      cases status with
      | acceptedNew _ => exact broadcastTransactionAnnounce_moves _
      | alreadyPending _ => exact .pure _

theorem handleSubmittedTransaction_moves {transaction : Transaction}
    (received : transaction ∈ message.transactions) :
    Moving message
      (handleSubmittedTransaction config env source transaction) s := by
  refine (Takes.still rfl).bind fun txId _ => ?_
  refine (acceptTransaction_moves received).attempt.bind fun status _ => ?_
  refine (sendWire_moves (Session.has_of_empty rfl rfl)).bind fun _ _ => ?_
  cases (submitResponse txId status).2 with
  | none => exact .pure _
  | some _ =>
      exact (broadcastTransactionAnnounce_moves _).attempt.bind fun _ _ =>
        .pure _

omit [WireCodec] [Bincode] [PqCrypto] in
theorem mem_of_findTxId {txId : Hash256} {txs : List Transaction}
    {tx : Transaction} (h : findTxId txId txs = some (some tx)) : tx ∈ txs := by
  induction txs with
  | nil => cases h
  | cons first txs ih =>
      rw [findTxId] at h
      cases hid : first.txId with
      | none => simp [hid] at h
      | some other =>
          by_cases heq : other = txId
          · simp [hid, heq] at h
            exact h ▸ List.mem_cons_self
          · simp [hid, heq] at h
            exact List.mem_cons_of_mem first (ih h)

/-! ## Messages -/

theorem handleMessage_moves :
    Moving message (handleMessage config env source message) s := by
  cases message with
  | presenceAnnounce => exact handlePresenceAnnounce_moves
  | nodeInfo info => exact handleNodeInfo_moves info
  | tipRequest =>
      refine answer_moves (fun _ h => nomatch h) fun s tip _ _ => ?_
      exact Session.has_of_empty rfl rfl
  | tipResponse tip => exact handleTipResponse_moves tip
  | blockRequest height =>
      refine answer_moves (fun _ h => nomatch h)
        fun s answer hread hhealthy => ⟨?_, by
          cases answer <;> simp [WireMessage.transactions]⟩
      intro block hblock
      have hanswer : s.runtime.blocks[height.toNat - 1]? = answer :=
        Option.some.inj hread
      refine ⟨hhealthy, ?_⟩
      cases answer with
      | none => simp [WireMessage.blocks] at hblock
      | some held =>
          simp only [WireMessage.blocks, List.mem_singleton] at hblock
          exact hblock ▸ List.mem_of_getElem? hanswer
  | blockResponse height block =>
      refine handleBlockResponse_moves ?_
      rintro block rfl
      exact List.mem_singleton_self block
  | submitBlock block =>
      exact handleSubmitBlock_moves (List.mem_singleton_self block)
  | submitBlockResponse _ => exact .pure _
  | transactionAnnounce txId => exact handleTransactionAnnounce_moves txId
  | transactionRequest txId =>
      have hpanic : ∀ runtime : NodeRuntime,
          findTxId txId runtime.pendingTransactions = none →
            runtime.LacksId := by
        intro runtime hnone
        obtain ⟨tx, htx, hid⟩ := exists_of_findTxId_eq_none hnone
        exact ⟨tx, List.mem_append_left _ htx, hid⟩
      refine answer_moves hpanic fun s answer hread hhealthy => ⟨by
        cases answer <;> simp [WireMessage.blocks], ?_⟩
      intro tx htx
      cases answer with
      | none => simp [WireMessage.transactions] at htx
      | some found =>
          obtain rfl := List.mem_singleton.mp htx
          exact ⟨hhealthy, mem_of_findTxId hread⟩
  | transactionResponse txId transaction =>
      refine handleTransactionResponse_moves ?_
      rintro transaction rfl
      exact List.mem_singleton_self transaction
  | submitTransaction transaction =>
      exact handleSubmittedTransaction_moves
        (List.mem_singleton_self transaction)
  | submitTransactionResponse _ => exact .pure _

/-! ## Timers -/

theorem broadcastPresenceAnnounces_moves :
    Moving message (broadcastPresenceAnnounces config env) s := by
  refine .forM fun target _ s => ?_
  refine (sendWire_moves (Session.has_of_empty rfl rfl)).attempt.bind ?_
  intro outcome _
  cases outcome with
  | ok _ => exact .pure _
  | error _ => exact .ite (fun _ => .pure _) fun _ => .fail _

theorem broadcastTipRequests_moves {listing : PeerListing} :
    Moving message (broadcastTipRequests config env listing) s := by
  rw [Moving, Takes, after_broadcastTipRequests]
  generalize listing.knownPeers config s.sync = peers
  induction peers generalizing s with
  | nil => exact .refl
  | cons peer peers ih =>
      exact .head (.transmitted _ (Session.has_of_empty rfl rfl)) ih

omit [Blake3] [Bincode] [PqCrypto] in
/-- A block is sent to peers, and nothing else is done. -/
theorem broadcastBlock_sends {listing : PeerListing} (block : Block) :
    Takes (fun s s' => ∃ peer outcome,
        s' = s.record ⟨peer, .submitBlock block, outcome⟩)
      (broadcastBlock config env listing block) s := by
  refine (Takes.inspect _).bind fun peers _ => .ite (fun _ => .pure _) ?_
  intro _
  cases (WireMessage.submitBlock block).encode with
  | error err => exact .fail err
  | ok frame => exact .forM fun peer _ _ => .step ⟨peer, _, rfl⟩

omit [WireCodec] in
theorem exec_produceOneBlock (env : Environment) (service : NodeService)
    (clock : Except String UInt64) (entropy : ℕ) :
    (produceOneBlock env clock entropy).exec (Session.start service) =
      if service.runtimePoisoned then
        (.error (.err productionLockError), Session.start service)
      else
        let produced :=
          service.runtime.produceOneBlock clock entropy env.saves
        (Result.mapErr NodeError.display produced.1,
          (Session.start service).setRuntime produced.2
            produced.1.isPanic) := by
  rw [produceOneBlock, exec_bind_of_ok (exec_inspect _ _),
    Session.start_service]
  by_cases hpoison : service.runtimePoisoned = true
  · rw [if_pos hpoison, if_pos hpoison]
    rfl
  · rw [if_neg hpoison, if_neg hpoison,
      exec_withRuntimeMut (Bool.eq_false_of_not_eq_true hpoison)]
    rcases hproduced : service.runtime.produceOneBlock clock entropy env.saves
      with ⟨(err | _) | produced, next⟩ <;>
      simp [Session.runtime, hproduced, Result.mapErr, Result.isPanic]

/-- The production of a block calls the runtime, and sends nothing but a
block which was produced. -/
theorem produceNow_spec (config : ServiceConfig) (env : Environment)
    (service : NodeService) (listing : PeerListing)
    (clock : Except String UInt64) (entropy : ℕ) :
    let produced := (produceNow config env listing clock entropy).after
      (Session.start service)
    produced.service =
        service.performCall (.produceOneBlock clock entropy env.saves) ∧
      ∀ transmission ∈ produced.sent, ∃ height block,
        service.Produces env clock entropy height block ∧
          transmission.message = .submitBlock block := by
  intro produced
  have hexec := exec_produceOneBlock env service clock entropy
  by_cases hpoison : service.runtimePoisoned = true
  · rw [if_pos hpoison] at hexec
    have hafter : produced = Session.start service := by
      change (produceNow config env listing clock entropy).after _ = _
      rw [after, produceNow, exec_bind_of_error hexec]
    rw [hafter, NodeService.performCall, if_pos hpoison]
    exact ⟨rfl, by simp⟩
  · rw [if_neg hpoison] at hexec
    have hhealthy := Bool.eq_false_of_not_eq_true hpoison
    have hservice : service.performCall
        (.produceOneBlock clock entropy env.saves) =
          ((Session.start service).setRuntime
            (service.runtime.produceOneBlock clock entropy env.saves).2
            (service.runtime.produceOneBlock clock entropy
              env.saves).1.isPanic).service := by
      rw [NodeService.performCall, if_neg hpoison]
      rfl
    rw [hservice]
    generalize hproduced : service.runtime.produceOneBlock clock entropy
      env.saves = outcome at hexec
    obtain ⟨result, next⟩ := outcome
    dsimp only at hexec
    have hquiet : (∀ pair, result ≠ .ok (some pair)) →
        produced = (Session.start service).setRuntime next result.isPanic := by
      intro hnone
      change (produceNow config env listing clock entropy).after _ = _
      rcases result with (err | _) | _ | pair
      · rw [after, produceNow, exec_bind_of_error hexec]
      · rw [after, produceNow, exec_bind_of_error hexec]
      · rw [after, produceNow, exec_bind_of_ok hexec]
        rfl
      · exact absurd rfl (hnone pair)
    by_cases hsome : ∃ height block, result = .ok (some (height, block))
    · obtain ⟨height, block, rfl⟩ := hsome
      have h : service.Produces env clock entropy height block :=
        ⟨hhealthy, by rw [hproduced]⟩
      have hafter : produced =
          (broadcastBlock config env listing block).after
            ((Session.start service).setRuntime next false) := by
        change (produceNow config env listing clock entropy).after _ = _
        rw [after_produceNow h, hproduced]
      rw [hafter]
      refine (broadcastBlock_sends block).invariant (fun s =>
        s.service = _ ∧ ∀ transmission ∈ s.sent, ∃ height block,
          service.Produces env clock entropy height block ∧
            transmission.message = .submitBlock block) ?_ ⟨rfl, by simp⟩
      rintro s _ ⟨peer, outcome, rfl⟩ ⟨hsame, hsent⟩
      refine ⟨hsame, fun transmission htransmission => ?_⟩
      rcases List.mem_append.mp htransmission with hold | hnew
      · exact hsent transmission hold
      · rw [List.mem_singleton] at hnew
        exact ⟨height, block, h, by rw [hnew]⟩
    · rw [hquiet fun pair hpair => hsome ⟨pair.1, pair.2, hpair⟩]
      exact ⟨rfl, by simp⟩

end Service

end QCoin
