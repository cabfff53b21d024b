import QCoin.Node.Effects

/-!
# How the calls of a handler end

The rules of `Ends` for the locks, the clock, the network and the runtime, and
for the broadcast of an announcement.
-/

namespace QCoin

open Support
open Support.Stateful

/-! ## Sessions -/

namespace Session

variable (service : NodeService) (s : Session) (runtime : NodeRuntime)
  (panicked : Bool)

@[simp] theorem start_service : (start service).service = service := rfl

@[simp] theorem start_sent : (start service).sent = [] := rfl

@[simp] theorem setRuntime_runtime :
    (s.setRuntime runtime panicked).service.runtime = runtime := rfl

@[simp] theorem setRuntime_poisoned :
    (s.setRuntime runtime panicked).service.runtimePoisoned = panicked := rfl

@[simp] theorem setRuntime_sent :
    (s.setRuntime runtime panicked).sent = s.sent := rfl

end Session

/-! ## The calls of a handler -/

section Conditions

variable [WireCodec]

/-- The message with the given number among those of the handler is not
sent. -/
def Environment.Unsent (env : Environment) (number : ℕ)
    (target : SocketAddr) (message : WireMessage) : Prop :=
  ∃ err, Service.sendOutcome env number target message = .error err

/-- A target is not reached, for a reason which is not ignored. -/
def Environment.Aborts (env : Environment) (number : ℕ)
    (message : WireMessage) (target : SocketAddr) : Prop :=
  ∃ err, Service.sendOutcome env number target message = .error err ∧
    Service.shouldIgnoreBootstrapSendError target err = false

/-- An announcement is given up on the way through its targets. -/
def Environment.Unannounced (env : Environment) (number : ℕ)
    (targets : List SocketAddr) (txId : Hash256) : Prop :=
  ∃ before target after, targets = before ++ target :: after ∧
    env.Aborts (number + before.length) (.transactionAnnounce txId) target

end Conditions

namespace Service

variable {env : Environment} {s : Session} {R : String → Session → Prop}

theorem ends_now {Q : Instant → Session → Prop} :
    Ends (now env) Q R s ↔
      Q (env.clock s.clockReads)
        { s with clockReads := s.clockReads + 1 } := Iff.rfl

theorem ends_sync {Q : SyncState → Session → Prop} :
    Ends sync Q R s ↔ Q s.sync s := Iff.rfl

theorem ends_updateSync {f : SyncState → SyncState}
    {Q : Unit → Session → Prop} :
    Ends (updateSync f) Q R s ↔ Q () (s.setSync (f s.sync)) := Iff.rfl

theorem ends_lift_orPanic {α : Type} {value : Option α}
    {Q : α → Session → Prop} :
    Ends (lift (Result.orPanic value)) Q R s ↔ ∃ a, value = some a ∧ Q a s := by
  cases value with
  | none =>
      constructor
      · rintro ⟨⟩
      · rintro ⟨a, ⟨⟩, -⟩
  | some a =>
      constructor
      · exact fun h => ⟨a, rfl, h⟩
      · rintro ⟨b, ⟨⟩, h⟩
        exact h

theorem ends_withRuntime {α : Type} {f : NodeRuntime → Option α}
    {Q : α → Session → Prop} :
    Ends (withRuntime f) Q R s ↔
      (s.service.runtimePoisoned = true ∧ R runtimeLockError s) ∨
      (s.service.runtimePoisoned = false ∧
        ∃ a, f s.runtime = some a ∧ Q a s) := by
  rw [Ends, withRuntime_exec]
  cases s.service.runtimePoisoned with
  | true => simp
  | false => cases f s.runtime <;> simp

/-- The three ways in which a change of the runtime ends. -/
theorem ends_withRuntimeMut {α : Type}
    {f : NodeRuntime → Result String α × NodeRuntime}
    {Q : α → Session → Prop} :
    Ends (withRuntimeMut f) Q R s ↔
      (s.service.runtimePoisoned = true ∧ R runtimeLockError s) ∨
      (s.service.runtimePoisoned = false ∧
        match f s.runtime with
        | (.ok a, runtime) => Q a (s.setRuntime runtime false)
        | (.error (.err err), runtime) => R err (s.setRuntime runtime false)
        | (.error .panic, _) => False) := by
  rw [Ends, withRuntimeMut, exec_call]
  cases s.service.runtimePoisoned with
  | true => simp
  | false =>
      obtain ⟨result, runtime⟩ := f s.runtime
      cases result with
      | ok a => simp
      | error e => cases e <;> simp

theorem exec_withRuntimeMut_of_ok {α : Type}
    {f : NodeRuntime → Result String α × NodeRuntime} {a : α}
    {runtime : NodeRuntime} (hpoison : s.service.runtimePoisoned = false)
    (hf : f s.runtime = (.ok a, runtime)) :
    (withRuntimeMut f).exec s = (.ok a, s.setRuntime runtime false) := by
  rw [withRuntimeMut, exec_call, hpoison, hf]
  rfl

variable [WireCodec]

/-- The session after an attempt whose outcome depends on its number and its
target. -/
def handed (outcome : ℕ → SocketAddr → Except String Unit)
    (message : WireMessage) (s : Session) (target : SocketAddr) : Session :=
  s.record ⟨target, message, outcome s.sent.length target⟩

omit [WireCodec] in
theorem length_sent_handed (outcome : ℕ → SocketAddr → Except String Unit)
    (message : WireMessage) (targets : List SocketAddr) :
    (targets.foldl (handed outcome message) s).sent.length =
      s.sent.length + targets.length := by
  induction targets generalizing s with
  | nil => rfl
  | cons target targets ih =>
      rw [List.foldl_cons, ih, List.length_cons]
      simp only [handed, Session.record, List.length_append,
        List.length_singleton]
      omega

/-- The session after an attempt to send. -/
def tried (env : Environment) (message : WireMessage) (s : Session)
    (target : SocketAddr) : Session :=
  s.record ⟨target, message, sendOutcome env s.sent.length target message⟩

theorem ends_sendWire {target : SocketAddr} {message : WireMessage}
    {Q : Unit → Session → Prop} :
    Ends (sendWire env target message) Q R s ↔
      (sendOutcome env s.sent.length target message = .ok () ∧
        Q () (tried env message s target)) ∨
      ∃ err, sendOutcome env s.sent.length target message = .error err ∧
        R err (tried env message s target) := by
  rw [Ends, sendWire, exec_call, tried]
  cases sendOutcome env s.sent.length target message with
  | ok u => simp [Except.mapError]
  | error err => simp [Except.mapError]

variable {config : ServiceConfig} {source : SocketAddr}

theorem returns_sendWire {target : SocketAddr} {message : WireMessage}
    {Q : Unit → Session → Prop} :
    Ends (sendWire env target message) Q (fun _ _ => False) s ↔
      ¬env.Unsent s.sent.length target message ∧
        Q () (tried env message s target) := by
  rw [ends_sendWire, Environment.Unsent]
  cases sendOutcome env s.sent.length target message with
  | ok u => simp
  | error err => simp

omit [WireCodec] in
theorem returns_withRuntime {α : Type} {f : NodeRuntime → Option α}
    {Q : α → Session → Prop} :
    Ends (withRuntime f) Q (fun _ _ => False) s ↔
      s.service.runtimePoisoned = false ∧ ∃ a, f s.runtime = some a ∧ Q a s := by
  rw [ends_withRuntime, and_false, false_or]

theorem survives_sendWire {target : SocketAddr} {message : WireMessage} :
    Survives (sendWire env target message) s := by
  rw [Survives, ends_sendWire]
  cases sendOutcome env s.sent.length target message with
  | ok u => exact .inl ⟨rfl, trivial⟩
  | error err => exact .inr ⟨err, rfl, trivial⟩

omit [WireCodec] in
theorem survives_withRuntime {α : Type} {f : NodeRuntime → Option α}
    (h : ∀ runtime, (f runtime).isSome) : Survives (withRuntime f) s := by
  rw [Survives, ends_withRuntime]
  obtain ⟨a, ha⟩ := Option.isSome_iff_exists.mp (h s.runtime)
  cases hpoison : s.service.runtimePoisoned with
  | true => exact .inl ⟨rfl, trivial⟩
  | false => exact .inr ⟨rfl, a, ha, trivial⟩

theorem tried_eq_handed (env : Environment) (message : WireMessage) :
    tried env message = handed (sendOutcome env · · message) message := rfl

theorem length_sent_tried (message : WireMessage)
    (targets : List SocketAddr) :
    (targets.foldl (tried env message) s).sent.length =
      s.sent.length + targets.length := by
  rw [tried_eq_handed, length_sent_handed]

/-! ## Broadcasts -/

/-- One target of a broadcast which ignores some errors. -/
def sendUnlessIgnored (env : Environment) (message : WireMessage)
    (target : SocketAddr) : ServiceM Unit := do
  match ← attempt (sendWire env target message) with
  | .ok () => return ()
  | .error err =>
      if shouldIgnoreBootstrapSendError target err then return ()
      else fail err

theorem ends_sendUnlessIgnored {message : WireMessage} {target : SocketAddr}
    {Q : PUnit → Session → Prop} :
    Ends (sendUnlessIgnored env message target) Q R s ↔
      (¬env.Aborts s.sent.length message target ∧
        Q ⟨⟩ (tried env message s target)) ∨
      ∃ err, sendOutcome env s.sent.length target message = .error err ∧
        shouldIgnoreBootstrapSendError target err = false ∧
        R err (tried env message s target) := by
  rw [sendUnlessIgnored, Ends.bind_iff, Ends.attempt_iff, ends_sendWire,
    Environment.Aborts]
  cases sendOutcome env s.sent.length target message with
  | ok u => simp [Ends.pure_iff]
  | error err =>
      cases hignored : shouldIgnoreBootstrapSendError target err with
      | true => simp [hignored, Ends.pure_iff]
      | false => simp [hignored, Ends.fail_iff]

theorem returns_sendUnlessIgnored {message : WireMessage}
    {target : SocketAddr} {Q : PUnit → Session → Prop} :
    Ends (sendUnlessIgnored env message target) Q (fun _ _ => False) s ↔
      ¬env.Aborts s.sent.length message target ∧
        Q ⟨⟩ (tried env message s target) := by
  rw [ends_sendUnlessIgnored]
  simp only [and_false, exists_false, or_false]

theorem broadcastTransactionAnnounce_eq (txId : Hash256) :
    broadcastTransactionAnnounce config env txId =
      config.bootstrapTargets.forM
        (sendUnlessIgnored env (.transactionAnnounce txId)) := rfl

theorem ends_broadcastTransactionAnnounce {txId : Hash256}
    {Q : PUnit → Session → Prop} :
    Ends (broadcastTransactionAnnounce config env txId) Q (fun _ _ => False)
        s ↔
      ¬env.Unannounced s.sent.length config.bootstrapTargets txId ∧
        Q ⟨⟩ (config.bootstrapTargets.foldl
          (tried env (.transactionAnnounce txId)) s) := by
  rw [broadcastTransactionAnnounce_eq,
    Ends.forM_iff fun _ _ _ => returns_sendUnlessIgnored]
  refine and_congr_left fun _ => ?_
  simp only [length_sent_tried, Environment.Unannounced, not_exists, not_and]

theorem survives_broadcastTransactionAnnounce {txId : Hash256} :
    Survives (broadcastTransactionAnnounce config env txId) s := by
  refine Survives.forM (fun target s => ?_) _
  refine survives_sendWire.attempt.bind fun outcome s => ?_
  cases outcome with
  | ok u => exact trivial
  | error err => exact .ite trivial trivial

/-! ## Changes of the runtime -/

/-- The ending of a change whose errors are handed on as texts. -/
def Changed {α : Type} (Q : α → Session → Prop) (R : String → Session → Prop)
    (s : Session) : Result NodeError α × NodeRuntime → Prop
  | (.ok a, runtime) => Q a (s.setRuntime runtime false)
  | (.error (.err err), runtime) => R err.display (s.setRuntime runtime false)
  | (.error .panic, _) => False

omit [WireCodec] in
theorem ends_change {α : Type}
    {f : NodeRuntime → Result NodeError α × NodeRuntime}
    {g : NodeRuntime → Result String α × NodeRuntime}
    (hg : ∀ runtime, g runtime =
      (Result.mapErr NodeError.display (f runtime).1, (f runtime).2))
    {Q : α → Session → Prop} :
    Ends (withRuntimeMut g) Q R s ↔
      (s.service.runtimePoisoned = true ∧ R runtimeLockError s) ∨
      (s.service.runtimePoisoned = false ∧ Changed Q R s (f s.runtime)) := by
  rw [ends_withRuntimeMut, hg]
  obtain ⟨result, runtime⟩ := f s.runtime
  cases result with
  | ok a => exact Iff.rfl
  | error e => cases e with
    | err err => exact Iff.rfl
    | panic => exact Iff.rfl

section Chain

variable [Blake3] [Bincode] [PqCrypto]

omit [WireCodec] in
theorem ends_applyRemoteBlock {block : Block} {Q : UInt64 → Session → Prop} :
    Ends (applyRemoteBlock env block) Q R s ↔
      (s.service.runtimePoisoned = true ∧ R runtimeLockError s) ∨
      (s.service.runtimePoisoned = false ∧
        Changed Q R s (s.runtime.applyBlock block env.saves)) :=
  ends_change fun _ => rfl

omit [WireCodec] in
theorem ends_acceptTransaction {tx : Transaction}
    {Q : TransactionAcceptStatus → Session → Prop} :
    Ends (acceptTransaction tx) Q R s ↔
      (s.service.runtimePoisoned = true ∧ R runtimeLockError s) ∨
      (s.service.runtimePoisoned = false ∧
        Changed Q R s (s.runtime.acceptTransaction tx)) :=
  ends_change fun _ => rfl

end Chain

end Service

end QCoin
