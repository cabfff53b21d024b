import QCoin.Node.Contents
import QCoin.Node.Http
import QCoin.Node.Payloads

/-!
# A running node

Frames, HTTP requests and timers reach a node in any order.  The runtime of a
node is changed by calls only, each of which an event causes, so whatever
holds along every sequence of calls holds of a running node.
-/

namespace QCoin

open Support
open Support.Result
open Support.Stateful

/-! ## The HTTP server of a service -/

section Server

variable [Blake3] [Bincode] [PqCrypto] [BlockCodec]

/-- One round of the server thread: it ends when the lock of the runtime is
poisoned, and a panic poisons the lock. -/
def NodeService.handleRequest (service : NodeService) (info : NodeInfo)
    (saves : SaveOutcomes) (request : HttpRequest) :
    Option HttpResponse × NodeService :=
  if service.runtimePoisoned then (none, service)
  else
    let (response, runtime) :=
      service.runtime.handleRequest info saves request
    (response, { service with
      runtime := runtime
      runtimePoisoned := response.isNone })

omit [BlockCodec] in
/-- A call to a runtime which is not poisoned is made. -/
theorem NodeService.runtime_performCall {service : NodeService}
    {call : NodeRuntime.Call} (h : service.runtimePoisoned = false) :
    (service.performCall call).runtime = service.runtime.perform call := by
  rw [performCall, h, if_neg Bool.false_ne_true]

/-- The block which a request submits. -/
def HttpRequest.submitted (request : HttpRequest) : Option Block :=
  match request.body with
  | .error _ => none
  | .ok payload => (BlockCodec.deserialize payload).toOption

/-- A block which is accepted is answered with its height. -/
theorem NodeRuntime.postBlock_accepted {runtime next : NodeRuntime}
    {saves : SaveOutcomes} {payload : BlockCodec.Payload} {block : Block}
    {height : UInt64} (hread : BlockCodec.deserialize payload = .ok block)
    (happly : runtime.applyBlock block saves = (.ok height, next)) :
    runtime.postBlock saves (.ok payload) =
      (some ⟨200, .submitBlock ⟨true, height, "block accepted"⟩⟩, next) := by
  unfold postBlock
  simp only [hread, happly]

theorem NodeRuntime.postBlock_submitted (runtime : NodeRuntime)
    (saves : SaveOutcomes) (request : HttpRequest) :
    (runtime.postBlock saves request.body).2 = runtime ∨
    ∃ block ∈ request.submitted,
      (runtime.postBlock saves request.body).2 =
        (runtime.applyBlock block saves).2 := by
  unfold HttpRequest.submitted postBlock
  cases request.body with
  | error err => exact .inl rfl
  | ok payload =>
      dsimp only
      cases BlockCodec.deserialize payload with
      | error err => exact .inl rfl
      | ok block =>
          refine .inr ⟨block, rfl, ?_⟩
          dsimp only
          rcases runtime.applyBlock block saves with
            ⟨(err | _) | height, next⟩ <;> rfl

/-- A request changes the runtime by the block it submits. -/
theorem NodeRuntime.handleRequest_submitted (runtime : NodeRuntime)
    (info : NodeInfo) (saves : SaveOutcomes) (request : HttpRequest) :
    (runtime.handleRequest info saves request).2 = runtime ∨
    ∃ block ∈ request.submitted,
      (runtime.handleRequest info saves request).2 =
        (runtime.applyBlock block saves).2 := by
  unfold handleRequest
  split_ifs
  · exact .inl rfl
  · exact .inl rfl
  · exact .inl rfl
  · exact runtime.postBlock_submitted saves request
  · exact .inl rfl

end Server

/-! ## Events -/

/-- What happens at a node, with what its handler reads from outside. -/
inductive NodeEvent [BlockCodec] where
  | frame (env : Environment) (source : SocketAddr) (bytes : Bytes)
  | request (info : NodeInfo) (saves : SaveOutcomes) (request : HttpRequest)
  | produce (env : Environment) (listing : PeerListing)
      (clock : Except String UInt64) (entropy : ℕ)
  | requestTips (env : Environment) (listing : PeerListing)
  | announcePresence (env : Environment)

section Running

variable [Blake3] [Bincode] [PqCrypto] [WireCodec] [BlockCodec]

namespace NodeService

/-- The session in which an event is handled. -/
def react (config : ServiceConfig) (service : NodeService) :
    NodeEvent → Session
  | .frame env source bytes => service.handleFrame config env source bytes
  | .request info saves request =>
      Session.start (service.handleRequest info saves request).2
  | .produce env listing clock entropy =>
      (Service.produceNow config env listing clock entropy).after
        (Session.start service)
  | .requestTips env listing =>
      (Service.broadcastTipRequests config env listing).after
        (Session.start service)
  | .announcePresence env =>
      (Service.broadcastPresenceAnnounces config env).after
        (Session.start service)

def handle (config : ServiceConfig) (service : NodeService)
    (event : NodeEvent) : NodeService :=
  (service.react config event).service

def handleAll (config : ServiceConfig) (service : NodeService)
    (events : List NodeEvent) : NodeService :=
  events.foldl (handle config) service

end NodeService

/-- The calls which an event may make. -/
inductive NodeEvent.Causes : NodeEvent → NodeRuntime.Call → Prop where
  | frameBlock {env : Environment} {source : SocketAddr} {bytes : Bytes}
      {block : Block} (saves : SaveOutcomes)
      (carried : block ∈ frameBlocks bytes) :
      Causes (.frame env source bytes) (.applyBlock block saves)
  | frameTransaction {env : Environment} {source : SocketAddr} {bytes : Bytes}
      {tx : Transaction} (carried : tx ∈ frameTransactions bytes) :
      Causes (.frame env source bytes) (.acceptTransaction tx)
  | requestBlock {info : NodeInfo} {saves : SaveOutcomes}
      {request : HttpRequest} {block : Block}
      (submitted : block ∈ request.submitted) :
      Causes (.request info saves request) (.applyBlock block saves)
  | produce {env : Environment} {listing : PeerListing}
      {clock : Except String UInt64} {entropy : ℕ} :
      Causes (.produce env listing clock entropy)
        (.produceOneBlock clock entropy env.saves)

/-! ## Refinement -/

/-- The runtime moves by calls which the event causes. -/
def NodeEvent.Moves (event : NodeEvent) (runtime runtime' : NodeRuntime) :
    Prop :=
  ∃ calls, (∀ call ∈ calls, event.Causes call) ∧
    runtime' = runtime.performAll calls

namespace NodeEvent.Moves

variable {event : NodeEvent} {runtime₁ runtime₂ runtime₃ : NodeRuntime}

theorem refl : event.Moves runtime₁ runtime₁ :=
  ⟨[], by simp, rfl⟩

theorem single {call : NodeRuntime.Call} (h : event.Causes call) :
    event.Moves runtime₁ (runtime₁.perform call) :=
  ⟨[call], by simpa using h, rfl⟩

theorem trans (h₁₂ : event.Moves runtime₁ runtime₂)
    (h₂₃ : event.Moves runtime₂ runtime₃) :
    event.Moves runtime₁ runtime₃ := by
  obtain ⟨calls, hcalls, rfl⟩ := h₁₂
  obtain ⟨others, hothers, rfl⟩ := h₂₃
  refine ⟨calls ++ others, fun call hcall => ?_, ?_⟩
  · exact (List.mem_append.mp hcall).elim (hcalls call) (hothers call)
  · rw [NodeRuntime.performAll, NodeRuntime.performAll,
      NodeRuntime.performAll, List.foldl_append]

/-- A message moves the runtime by what it carries. -/
theorem of_moving {message : WireMessage} {s : Session} {α : Type}
    {x : ServiceM α} (h : Service.Moving message x s)
    (hblock : ∀ block ∈ message.blocks, ∀ saves,
      event.Causes (.applyBlock block saves))
    (htransaction : ∀ tx ∈ message.transactions,
      event.Causes (.acceptTransaction tx)) :
    event.Moves s.runtime (x.after s).runtime := by
  refine h.related (R := fun s s' => event.Moves s.runtime s'.runtime)
    (fun _ => refl) (fun _ _ _ => trans) ?_
  rintro s s' (⟨hruntime, -, -⟩ | _ | _ | ⟨saves, hreceived⟩ | hreceived)
  · rw [hruntime]
    exact refl
  · exact refl
  · exact refl
  · exact single (hblock _ hreceived saves)
  · exact single (htransaction _ hreceived)

end NodeEvent.Moves

/-- An event changes the runtime by calls which it causes. -/
theorem NodeService.handle_moves (config : ServiceConfig)
    (service : NodeService) (event : NodeEvent) :
    event.Moves service.runtime (service.handle config event).runtime := by
  have hquiet : ∀ {x : ServiceM Unit},
      Service.Moving .presenceAnnounce x (Session.start service) →
        event.Moves service.runtime
          (x.after (Session.start service)).service.runtime := by
    intro x hmoving
    have hruntime : (x.after (Session.start service)).service.runtime =
        service.runtime := Service.runtime_of_moving hmoving
    rw [hruntime]
    exact .refl
  cases event with
  | frame env source bytes =>
      rw [handle, react, handleFrame, Service.handleFrame]
      split
      · exact .refl
      · split
        · exact .refl
        · rename_i message hmessage
          have hblocks : frameBlocks bytes = message.blocks := by
            rw [frameBlocks, hmessage]
          have htransactions :
              frameTransactions bytes = message.transactions := by
            rw [frameTransactions, hmessage]
          exact .of_moving Service.handleMessage_moves
            (fun block hblock saves => .frameBlock saves (hblocks ▸ hblock))
            (fun tx htx => .frameTransaction (htransactions ▸ htx))
  | request info saves request =>
      rw [handle, react, Session.start, handleRequest]
      split
      · exact .refl
      · rcases service.runtime.handleRequest_submitted info saves request with
          hsame | ⟨block, hblock, hchanged⟩
        · dsimp only
          rw [hsame]
          exact .refl
        · dsimp only
          rw [hchanged]
          exact .single (.requestBlock hblock)
  | produce env listing clock entropy =>
      rw [handle, react, (Service.produceNow_spec config env service listing
        clock entropy).1, performCall]
      split
      · exact .refl
      · exact .single .produce
  | requestTips env listing => exact hquiet Service.broadcastTipRequests_moves
  | announcePresence env =>
      exact hquiet Service.broadcastPresenceAnnounces_moves

/-- The calls of a run, event by event. -/
theorem NodeService.handleAll_calls (config : ServiceConfig)
    (service : NodeService) (events : List NodeEvent) :
    ∃ calls : List (List NodeRuntime.Call),
      List.Forall₂ (fun event caused => ∀ call ∈ caused, event.Causes call)
        events calls ∧
      (service.handleAll config events).runtime =
        service.runtime.performAll calls.flatten := by
  induction events generalizing service with
  | nil => exact ⟨[], .nil, rfl⟩
  | cons event events ih =>
      obtain ⟨caused, hcaused, hfirst⟩ := service.handle_moves config event
      obtain ⟨calls, hcalls, hrest⟩ := ih (service.handle config event)
      refine ⟨caused :: calls, .cons hcaused hcalls, ?_⟩
      rw [hfirst, NodeRuntime.performAll, NodeRuntime.performAll,
        ← List.foldl_append] at hrest
      exact hrest

/-! ## Runs from the files of a node -/

/-- What a run leaves behind: its history extends the loaded one and rebuilds
to its chain, and its blocks and pending transactions came from somewhere. -/
structure RanFrom (config : NodeConfig) (start : NodeRuntime)
    (events : List NodeEvent) (runtime : NodeRuntime) : Prop where
  replayable : Replayable config runtime
  mempool : runtime.MempoolValid
  extended : start.blocks <+: runtime.blocks
  blocks : ∀ block ∈ runtime.blocks, block ∈ start.blocks ∨
    (∃ event ∈ events, ∃ saves, event.Causes (.applyBlock block saves)) ∨
    block.proposerPublicKey = config.publicKey
  pending : ∀ tx ∈ runtime.pendingTransactions,
    ∃ event ∈ events, event.Causes (.acceptTransaction tx)

namespace RanFrom

theorem start [SerdeJson] {config : NodeConfig} {loaded : NodeRuntime}
    {events : List NodeEvent} {stateFile blocksFile : FileRead SerdeJson.Text}
    {save : Except String Unit}
    (h : config.start stateFile blocksFile save = .ok loaded) :
    RanFrom config loaded events loaded where
  replayable := NodeConfig.start_replayable h
  mempool := NodeRuntime.mempoolValid_of_nil
    (NodeConfig.start_pendingTransactions h)
  extended := List.prefix_refl _
  blocks _ hblock := .inl hblock
  pending tx htx := by
    rw [NodeConfig.start_pendingTransactions h] at htx
    exact absurd htx List.not_mem_nil

variable {config : NodeConfig} {start runtime : NodeRuntime}
  {events : List NodeEvent}

theorem extended_perform (h : RanFrom config start events runtime)
    (call : NodeRuntime.Call) :
    start.blocks <+: (runtime.perform call).blocks := by
  rcases runtime.perform_chainStep call with ⟨pending, hsame⟩ |
    ⟨block, nextChain, nextBlocks, pending, hprepare, hadvanced⟩
  · rw [hsame]
    exact h.extended
  · obtain ⟨-, -, rfl⟩ := NodeRuntime.prepareBlock_eq_ok.mp hprepare
    rw [hadvanced]
    exact h.extended.trans (List.prefix_append _ _)

/-- A block which is added was received, or the node made it. -/
theorem blocks_perform (h : RanFrom config start events runtime)
    {call : NodeRuntime.Call}
    (hcaused : ∃ event ∈ events, event.Causes call) {block : Block}
    (hblock : block ∈ (runtime.perform call).blocks) :
    block ∈ start.blocks ∨
      (∃ event ∈ events, ∃ saves, event.Causes (.applyBlock block saves)) ∨
      block.proposerPublicKey = config.publicKey := by
  cases call with
  | acceptTransaction tx =>
      rw [NodeRuntime.perform, NodeRuntime.acceptTransaction_blocks] at hblock
      exact h.blocks block hblock
  | applyBlock received saves =>
      rcases NodeRuntime.mem_blocks_applyBlock hblock with hold | rfl
      · exact h.blocks block hold
      · obtain ⟨event, hevent, hcauses⟩ := hcaused
        exact .inr (.inl ⟨event, hevent, saves, hcauses⟩)
  | produceOneBlock clock entropy saves =>
      rw [NodeRuntime.perform] at hblock
      rcases runtime.produceOneBlock_cases clock entropy saves with
        ⟨-, hsame⟩ | ⟨proposed, -, hpropose, hproduce⟩
      · rw [hsame] at hblock
        exact h.blocks block hblock
      · rw [hproduce] at hblock
        rcases NodeRuntime.mem_blocks_applyBlock hblock with hold | rfl
        · exact h.blocks block hold
        · obtain ⟨-, -, -, hproposer⟩ := proposeBlock_spec hpropose
          rw [(fromKeys_eq_ok.mp h.replayable.engine).2] at hproposer
          exact .inr (.inr hproposer)

theorem pending_perform (h : RanFrom config start events runtime)
    {call : NodeRuntime.Call}
    (hcaused : ∃ event ∈ events, event.Causes call) {tx : Transaction}
    (htx : tx ∈ (runtime.perform call).pendingTransactions) :
    ∃ event ∈ events, event.Causes (.acceptTransaction tx) := by
  cases call with
  | acceptTransaction received =>
      rcases NodeRuntime.mem_pending_acceptTransaction htx with hold | rfl
      · exact h.pending tx hold
      · exact hcaused
  | applyBlock block saves =>
      exact h.pending tx (NodeRuntime.mem_pending_applyBlock htx)
  | produceOneBlock clock entropy saves =>
      exact h.pending tx (NodeRuntime.mem_pending_produceOneBlock htx)

theorem perform (h : RanFrom config start events runtime)
    {call : NodeRuntime.Call}
    (hcaused : ∃ event ∈ events, event.Causes call) :
    RanFrom config start events (runtime.perform call) where
  replayable := h.replayable.chainStep (runtime.perform_chainStep call)
  mempool := h.mempool.perform call
  extended := h.extended_perform call
  blocks _ hblock := h.blocks_perform hcaused hblock
  pending _ htx := h.pending_perform hcaused htx

theorem performAll (h : RanFrom config start events runtime)
    {calls : List NodeRuntime.Call}
    (hcaused : ∀ call ∈ calls, ∃ event ∈ events, event.Causes call) :
    RanFrom config start events (runtime.performAll calls) := by
  induction calls generalizing runtime with
  | nil => exact h
  | cons call calls ih =>
      exact ih (h.perform (hcaused call List.mem_cons_self))
        fun other hother => hcaused other (List.mem_cons_of_mem call hother)

end RanFrom

omit [Blake3] [Bincode] [PqCrypto] in
theorem exists_cause {events : List NodeEvent}
    {calls : List (List NodeRuntime.Call)}
    (h : List.Forall₂ (fun event caused => ∀ call ∈ caused, event.Causes call)
      events calls) :
    ∀ call ∈ calls.flatten, ∃ event ∈ events, event.Causes call := by
  induction h with
  | nil => simp
  | @cons event caused events calls hcaused _ ih =>
      intro call hcall
      rw [List.flatten_cons, List.mem_append] at hcall
      rcases hcall with hnow | hlater
      · exact ⟨event, List.mem_cons_self, hcaused call hnow⟩
      · obtain ⟨other, hother, hcauses⟩ := ih call hlater
        exact ⟨other, List.mem_cons_of_mem event hother, hcauses⟩

/-- Whatever reaches a node after it has loaded its files, its runtime makes
calls in the order of the events which cause them.  The loaded history is
extended by blocks which were received or which the node made itself, it
rebuilds to the chain of the node, and the mempool stays valid. -/
theorem running_node_refines_calls [SerdeJson] {config : NodeConfig}
    {stateFile blocksFile : FileRead SerdeJson.Text}
    {save : Except String Unit} {start : NodeRuntime}
    (hstart : config.start stateFile blocksFile save = .ok start)
    (serviceConfig : ServiceConfig) (events : List NodeEvent) :
    let service := (NodeService.new start).handleAll serviceConfig events
    (∃ calls : List (List NodeRuntime.Call),
      List.Forall₂ (fun event caused => ∀ call ∈ caused, event.Causes call)
        events calls ∧
      service.runtime = start.performAll calls.flatten) ∧
    RanFrom config start events service.runtime := by
  intro service
  obtain ⟨calls, hcalls, hruntime⟩ :=
    (NodeService.new start).handleAll_calls serviceConfig events
  have hran : RanFrom config start events (start.performAll calls.flatten) :=
    (RanFrom.start hstart).performAll (exists_cause hcalls)
  refine ⟨⟨calls, hcalls, hruntime⟩, ?_⟩
  rwa [show service.runtime = start.performAll calls.flatten from hruntime]

end Running

section OneRequest

open scoped StandIns

def firstRequest : HttpRequest where
  method := .post
  url := "/blocks"
  body := .ok (StandIns.emptyBlock 1)

/-- A node without blocks takes the first one from a request. -/
theorem freshService_handleRequest (n : UInt8) (validators : List PublicKey)
    (hproposer : expectedProposerForValidators
      (StandIns.nodeEngine n validators).validators 1 =
        .ok (StandIns.validatorKey 1)) :
    (NodeService.new (StandIns.freshRuntime n validators)).handleRequest
        StandIns.peerInfo StandIns.savesOk firstRequest =
      (some ⟨200, .submitBlock ⟨true, 1, "block accepted"⟩⟩,
        NodeService.new ((StandIns.freshRuntime n validators).advance
          StandIns.emptyBlockChain [StandIns.emptyBlock 1])) := by
  have hposted : (StandIns.freshRuntime n validators).postBlock
      StandIns.savesOk firstRequest.body =
        (some ⟨200, .submitBlock ⟨true, 1, "block accepted"⟩⟩,
          (StandIns.freshRuntime n validators).advance
            StandIns.emptyBlockChain [StandIns.emptyBlock 1]) :=
    NodeRuntime.postBlock_accepted rfl
      (StandIns.applyBlock_firstBlock n 1 validators hproposer)
  have hroute : (StandIns.freshRuntime n validators).handleRequest
      StandIns.peerInfo StandIns.savesOk firstRequest =
        (StandIns.freshRuntime n validators).postBlock StandIns.savesOk
          firstRequest.body := by
    rw [NodeRuntime.handleRequest]
    rfl
  have hanswered : (NodeService.new
      (StandIns.freshRuntime n validators)).runtime.handleRequest
        StandIns.peerInfo StandIns.savesOk firstRequest = _ :=
    hroute.trans hposted
  rw [NodeService.handleRequest, if_neg (by simp [NodeService.new]),
    hanswered]
  rfl

/-- An observer which starts without files, after the request. -/
def servedObserver : NodeService :=
  (NodeService.new (StandIns.freshRuntime 2
    [StandIns.validatorKey 1])).handleAll StandIns.plainConfig
      [.request StandIns.peerInfo StandIns.savesOk firstRequest]

theorem servedObserver_blocks :
    servedObserver.runtime.blocks = [StandIns.emptyBlock 1] := by
  rw [servedObserver, NodeService.handleAll, List.foldl_cons, List.foldl_nil,
    NodeService.handle, NodeService.react, Session.start,
    freshService_handleRequest 2 _ rfl]
  rfl

theorem servedObserver_refines_calls :
    servedObserver.runtime.blocks = [StandIns.emptyBlock 1] ∧
      RanFrom (StandIns.nodeConfig 2 [StandIns.validatorKey 1])
        (StandIns.freshRuntime 2 [StandIns.validatorKey 1])
        [.request StandIns.peerInfo StandIns.savesOk firstRequest]
        servedObserver.runtime :=
  ⟨servedObserver_blocks, (running_node_refines_calls
    (StandIns.start_fresh 2 [StandIns.validatorKey 1]) _ _).2⟩

end OneRequest

end QCoin
