import QCoin.Node.Marker
import QCoin.Node.Payloads

/-!
# Conversations of two services

Two services whose sends succeed and whose frames arrive, in any order.  How
the handlers of such services end is computed forwards, call by call.
-/

namespace QCoin

open Support
open Support.Stateful

/-- Every send and every save succeeds. -/
structure Environment.Reliable (env : Environment) : Prop where
  network : ∀ number, env.network number = .ok ()
  blockHistory : env.saves.blockHistory = .ok ()
  chainState : env.saves.chainState = .ok ()

theorem workingEnvironment_reliable : StandIns.workingEnvironment.Reliable :=
  ⟨fun _ => rfl, rfl, rfl⟩

/-! ## Handlers whose sends succeed -/

namespace Service

variable {config : ServiceConfig} {env : Environment} {source : SocketAddr}
  {s : Session}

theorem exec_read {α : Type} {f : NodeRuntime → Option α} {a : α}
    (hhealthy : s.service.runtimePoisoned = false)
    (hread : f s.runtime = some a) :
    (withRuntime f).exec s = (.ok a, s) := by
  rw [withRuntime_exec, hhealthy, if_neg Bool.false_ne_true, hread]

variable [WireCodec]

theorem exec_sendWire (henv : env.Reliable) {message : WireMessage}
    {frame : Bytes} (hencode : message.encode = .ok frame)
    (target : SocketAddr) :
    (sendWire env target message).exec s =
      (.ok (), s.record ⟨target, message, .ok ()⟩) := by
  have houtcome : sendOutcome env s.sent.length target message = .ok () := by
    rw [sendOutcome, hencode, henv.network]
    rfl
  rw [sendWire, exec_call, houtcome]
  rfl

/-- An answer which is read from the runtime. -/
theorem exec_answer (henv : env.Reliable)
    (hhealthy : s.service.runtimePoisoned = false)
    (hknown : source ∈ s.sync.knownPeers) {α : Type}
    {f : NodeRuntime → Option α} {a : α} (hread : f s.runtime = some a)
    {reply : α → WireMessage} {frame : Bytes}
    (hencode : (reply a).encode = .ok frame) :
    (ifCompatible config env source do
      let a ← withRuntime f
      sendWire env source (reply a)).exec s =
        (.ok (), s.record ⟨source, reply a, .ok ()⟩) := by
  rw [ifCompatible_of_known hknown,
    exec_bind_of_ok (exec_read hhealthy hread), exec_sendWire henv hencode]

end Service

section Conversations

variable [WireCodec]

/-- The frames which reached the network for a target. -/
def Session.framesTo (s : Session) (target : SocketAddr) : List Bytes :=
  (s.sent.filter fun transmission =>
    transmission.target = target ∧ transmission.outcome.isOk).filterMap
      fun transmission => transmission.message.encode.toOption

@[simp] theorem Session.framesTo_start (service : NodeService)
    (target : SocketAddr) : (Session.start service).framesTo target = [] :=
  rfl

/-- A session which has sent nothing before. -/
theorem Session.framesTo_record {s : Session} (hsent : s.sent = [])
    {message : WireMessage} {frame : Bytes}
    (hencode : message.encode = .ok frame) (target : SocketAddr) :
    (s.record ⟨target, message, .ok ()⟩).framesTo target = [frame] := by
  rw [framesTo, record, hsent]
  simp [hencode, Except.toOption, Except.isOk, Except.toBool]

/-! ## Frames of a broadcast -/

theorem framesTo_tried {env : Environment} (henv : env.Reliable) {message : WireMessage}
    {frame : Bytes} (hencode : message.encode = .ok frame) (s : Session)
    (target peerAddr : SocketAddr) :
    (Service.tried env message s target).framesTo peerAddr =
      s.framesTo peerAddr ++ if target = peerAddr then [frame] else [] := by
  have houtcome : Service.sendOutcome env s.sent.length target message =
      .ok () := by
    rw [Service.sendOutcome, hencode, henv.network]
    rfl
  rw [Service.tried, houtcome, Session.framesTo, Session.framesTo,
    Session.record, List.filter_append, List.filterMap_append]
  congr 1
  by_cases htarget : target = peerAddr
  · simp [htarget, hencode, Except.toOption, Except.isOk, Except.toBool]
  · simp [htarget]

theorem framesTo_foldl_tried {env : Environment} (henv : env.Reliable) {message : WireMessage}
    {frame : Bytes} (hencode : message.encode = .ok frame)
    (targets : List SocketAddr) (s : Session) (peerAddr : SocketAddr) :
    (targets.foldl (Service.tried env message) s).framesTo peerAddr =
      s.framesTo peerAddr ++
        List.replicate (targets.count peerAddr) frame := by
  induction targets generalizing s with
  | nil => simp
  | cons target targets ih =>
      rw [List.foldl_cons, ih, framesTo_tried henv hencode, List.append_assoc,
        List.count_cons]
      by_cases htarget : target = peerAddr
      · simp [htarget, List.replicate_succ]
      · simp [htarget]

theorem service_foldl_tried (env : Environment) (message : WireMessage)
    (targets : List SocketAddr) (s : Session) :
    (targets.foldl (Service.tried env message) s).service = s.service := by
  induction targets generalizing s with
  | nil => rfl
  | cons target targets ih => exact ih _

/-! ## Conversations -/

/-- Two services and the addresses under which they see each other. -/
structure Line where
  config : ServiceConfig
  peerConfig : ServiceConfig
  addr : SocketAddr
  peerAddr : SocketAddr

/-- The services and the frames under way between them. -/
structure Conversation where
  node : NodeService
  peer : NodeService
  toPeer : List Bytes
  toNode : List Bytes

/-- Nothing is under way. -/
def Conversation.Quiet (talk : Conversation) : Prop :=
  talk.toPeer = [] ∧ talk.toNode = []

variable [Blake3] [Bincode] [PqCrypto]

/-- One of the frames arrives and is handled. -/
inductive Conversation.Delivers (line : Line) :
    Conversation → Conversation → Prop where
  | toPeer {talk : Conversation} {env : Environment} (reliable : env.Reliable)
      {before after : List Bytes} {frame : Bytes}
      (sent : talk.toPeer = before ++ frame :: after) :
      Delivers line talk { talk with
        peer := (talk.peer.handleFrame line.peerConfig env line.addr
          frame).service
        toPeer := before ++ after
        toNode := talk.toNode ++ (talk.peer.handleFrame line.peerConfig env
          line.addr frame).framesTo line.addr }
  | toNode {talk : Conversation} {env : Environment} (reliable : env.Reliable)
      {before after : List Bytes} {frame : Bytes}
      (sent : talk.toNode = before ++ frame :: after) :
      Delivers line talk { talk with
        node := (talk.node.handleFrame line.config env line.peerAddr
          frame).service
        toNode := before ++ after
        toPeer := talk.toPeer ++ (talk.node.handleFrame line.config env
          line.peerAddr frame).framesTo line.peerAddr }

/-- Some number of deliveries. -/
inductive Conversation.DeliversAll (line : Line) :
    ℕ → Conversation → Conversation → Prop where
  | nil {talk : Conversation} : DeliversAll line 0 talk talk
  | cons {n : ℕ} {talk next last : Conversation}
      (first : talk.Delivers line next)
      (rest : DeliversAll line n next last) :
      DeliversAll line (n + 1) talk last

/-- The only frame under way is the one for the peer. -/
theorem Conversation.Delivers.single_toPeer {line : Line}
    {talk next : Conversation} {frame : Bytes} (h : talk.Delivers line next)
    (hpeer : talk.toPeer = [frame]) (hnode : talk.toNode = []) :
    ∃ env : Environment, env.Reliable ∧
      next = { talk with
        peer := (talk.peer.handleFrame line.peerConfig env line.addr
          frame).service
        toPeer := []
        toNode := (talk.peer.handleFrame line.peerConfig env line.addr
          frame).framesTo line.addr } := by
  cases h with
  | @toPeer env reliable before after other sent =>
      rw [hpeer] at sent
      cases before with
      | nil =>
          obtain ⟨rfl, rfl⟩ := List.cons.inj sent
          refine ⟨env, reliable, ?_⟩
          rw [hnode]
          rfl
      | cons first rest => simp at sent
  | toNode reliable sent =>
      rw [hnode] at sent
      simp at sent

/-- The only frame under way is the one for the node. -/
theorem Conversation.Delivers.single_toNode {line : Line}
    {talk next : Conversation} {frame : Bytes} (h : talk.Delivers line next)
    (hpeer : talk.toPeer = []) (hnode : talk.toNode = [frame]) :
    ∃ env : Environment, env.Reliable ∧
      next = { talk with
        node := (talk.node.handleFrame line.config env line.peerAddr
          frame).service
        toNode := []
        toPeer := (talk.node.handleFrame line.config env line.peerAddr
          frame).framesTo line.peerAddr } := by
  cases h with
  | toPeer reliable sent =>
      rw [hpeer] at sent
      simp at sent
  | @toNode env reliable before after other sent =>
      rw [hnode] at sent
      cases before with
      | nil =>
          obtain ⟨rfl, rfl⟩ := List.cons.inj sent
          refine ⟨env, reliable, ?_⟩
          rw [hpeer]
          rfl
      | cons first rest => simp at sent

/-- Only copies of one frame are under way to the peer. -/
theorem Conversation.Delivers.replicate_toPeer {line : Line}
    {talk next : Conversation} {frame : Bytes} {rest : ℕ}
    (h : talk.Delivers line next)
    (hpeer : talk.toPeer = List.replicate (rest + 1) frame)
    (hnode : talk.toNode = []) :
    ∃ env : Environment, env.Reliable ∧
      next = { talk with
        peer := (talk.peer.handleFrame line.peerConfig env line.addr
          frame).service
        toPeer := List.replicate rest frame
        toNode := (talk.peer.handleFrame line.peerConfig env line.addr
          frame).framesTo line.addr } := by
  cases h with
  | @toPeer env reliable before after other sent =>
      have hcopies : ∀ f ∈ before ++ other :: after, f = frame := by
        rw [← sent, hpeer]
        exact fun f hf => List.eq_of_mem_replicate hf
      obtain rfl : other = frame := hcopies other (by simp)
      have hrest : before ++ after = List.replicate rest other := by
        refine List.eq_replicate_iff.mpr ⟨?_, fun f hf => hcopies f ?_⟩
        · have hlength := congrArg List.length (sent.symm.trans hpeer)
          simp only [List.length_append, List.length_cons,
            List.length_replicate] at hlength ⊢
          omega
        · rcases List.mem_append.mp hf with hb | ha
          · exact List.mem_append_left _ hb
          · exact List.mem_append_right _ (List.mem_cons_of_mem _ ha)
      exact ⟨env, reliable, by rw [hnode, hrest]; rfl⟩
  | toNode reliable sent =>
      rw [hnode] at sent
      simp at sent

theorem Conversation.Quiet.not_delivers {line : Line}
    {talk next : Conversation} (h : talk.Quiet) : ¬talk.Delivers line next := by
  rintro (⟨-, sent⟩ | ⟨-, sent⟩)
  · rw [h.1] at sent
    simp at sent
  · rw [h.2] at sent
    simp at sent

/-- A peer which answers what it reads from its runtime stays as it is. -/
theorem NodeService.answers {service : NodeService} {config : ServiceConfig}
    {env : Environment} {source : SocketAddr} {frame answer : Bytes}
    {message : WireMessage} {α : Type} {f : NodeRuntime → Option α} {a : α}
    {reply : α → WireMessage} (henv : env.Reliable)
    (hremote : source ∉ config.localAddrs)
    (hhealthy : service.runtimePoisoned = false)
    (hknown : source ∈ service.syncState.knownPeers)
    (hdecode : WireMessage.decode frame = .ok message)
    (hhandler : Service.handleMessage config env source message =
      Service.ifCompatible config env source do
        let a ← Service.withRuntime f
        Service.sendWire env source (reply a))
    (hread : f service.runtime = some a)
    (hencode : (reply a).encode = .ok answer) :
    (service.handleFrame config env source frame).service = service ∧
      (service.handleFrame config env source frame).framesTo source =
        [answer] := by
  have hanswered : (Service.handleMessage config env source message).exec
      (Session.start service) =
        (.ok (), (Session.start service).record
          ⟨source, reply a, .ok ()⟩) := by
    rw [hhandler]
    exact Service.exec_answer henv hhealthy hknown hread hencode
  rw [handleFrame_of_decode hremote hdecode, after, hanswered]
  exact ⟨rfl, Session.framesTo_record rfl hencode source⟩

/-! ## Phases -/

/-- A phase of a conversation counts the deliveries which are left. -/
structure Conversation.Counts (line : Line)
    (Phase : ℕ → Conversation → Prop) : Prop where
  step : ∀ left talk next, Phase left talk → talk.Delivers line next →
    ∃ rest, left = rest + 1 ∧ Phase rest next
  quiet : ∀ left talk, Phase left talk → (talk.Quiet ↔ left = 0)

namespace Conversation.Counts

variable {line : Line} {Phase : ℕ → Conversation → Prop} {left : ℕ}
  {talk : Conversation}

/-- A phase bounds every run. -/
theorem run (h : Counts line Phase) (hphase : Phase left talk) {n : ℕ}
    {last : Conversation} (hrun : DeliversAll line n talk last) :
    ∃ rest, left = n + rest ∧ Phase rest last := by
  induction hrun generalizing left with
  | nil => exact ⟨left, (Nat.zero_add left).symm, hphase⟩
  | cons first _ ih =>
      obtain ⟨m, rfl, hnext⟩ := h.step _ _ _ hphase first
      obtain ⟨rest, rfl, hlast⟩ := ih hnext
      exact ⟨rest, by omega, hlast⟩

/-- A run is carried on until no delivery is left. -/
theorem exists_run (h : Counts line Phase) (hphase : Phase left talk)
    {env : Environment} (henv : env.Reliable) :
    ∃ last, DeliversAll line left talk last := by
  induction left generalizing talk with
  | zero => exact ⟨talk, .nil⟩
  | succ left ih =>
      have hbusy : ¬talk.Quiet := fun hquiet =>
        absurd ((h.quiet _ _ hphase).mp hquiet) (Nat.succ_ne_zero left)
      have hnext : ∃ next, talk.Delivers line next := by
        cases hpeer : talk.toPeer with
        | cons frame rest =>
            have hsent : talk.toPeer = [] ++ frame :: rest := hpeer
            exact ⟨_, .toPeer henv hsent⟩
        | nil =>
            cases hnode : talk.toNode with
            | cons frame rest =>
                have hsent : talk.toNode = [] ++ frame :: rest := hnode
                exact ⟨_, .toNode henv hsent⟩
            | nil => exact absurd ⟨hpeer, hnode⟩ hbusy
      obtain ⟨next, hdelivers⟩ := hnext
      obtain ⟨rest, hrest, hphase'⟩ := h.step _ _ _ hphase hdelivers
      obtain rfl : left = rest := Nat.succ_inj.mp hrest
      obtain ⟨last, hlast⟩ := ih hphase'
      exact ⟨last, .cons hdelivers hlast⟩

/-- The conversation is over after the deliveries which its phase counts, and
not before. -/
theorem ends (h : Counts line Phase) (hphase : Phase left talk) {n : ℕ}
    {last : Conversation} (hrun : DeliversAll line n talk last) :
    n ≤ left ∧ (last.Quiet ↔ n = left) ∧ (last.Quiet → Phase 0 last) := by
  obtain ⟨rest, hleft, hlast⟩ := h.run hphase hrun
  have hquiet := h.quiet rest last hlast
  refine ⟨by omega, hquiet.trans (by omega), fun hover => ?_⟩
  obtain rfl : rest = 0 := hquiet.mp hover
  exact hlast

end Conversation.Counts

end Conversations

end QCoin
