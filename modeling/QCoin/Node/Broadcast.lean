import QCoin.Node.Calls
import QCoin.Node.Cluster
import QCoin.Node.Mempool
import QCoin.Node.Startup
import QCoin.Support.AssocMap
import QCoin.Support.Rounds

/-!
# Broadcasts

What a node sends without being asked: announcements to its bootstrap targets,
and tip requests and blocks to its known peers.
-/

namespace QCoin

open Support
open Support.Stateful

/-! ## Targets -/

def SocketAddr.port : SocketAddr → UInt16
  | v4 _ port => port
  | v6 _ port .. => port

def multicastTargets (bindAddr : SocketAddr)
    (multicast : List MulticastConfig) : List SocketAddr :=
  multicast.map fun
    | .v4 group _ => .v4 group bindAddr.port
    | .v6 group interface => .v6 group bindAddr.port 0 interface

/-- The bootstrap targets of a node. -/
def discoveryTargetsFor (bindAddr : SocketAddr) (peers : List SocketAddr)
    (multicast : List MulticastConfig) : List SocketAddr :=
  distinct (peers ++ multicastTargets bindAddr multicast)

/-! ## Known peers -/

/-- What `known_peers` reads beside the state of the service. -/
structure PeerListing where
  reliableNodePublicKeyHex : Finset String
  /-- The iteration order of a hash set. -/
  iterate : Finset SocketAddr → List SocketAddr
  mem_iterate : ∀ peers peer, peer ∈ iterate peers ↔ peer ∈ peers
  nodup_iterate : ∀ peers, (iterate peers).Nodup

namespace PeerListing

variable (listing : PeerListing) (config : ServiceConfig) (sync : SyncState)

def isReliable (peer : SocketAddr) : Bool :=
  match sync.peerNodeInfo.lookup peer with
  | none => false
  | some info => info.nodePublicKeyHex ∈ listing.reliableNodePublicKeyHex

/-- Reliable peers come first, and then the order is that of the texts. -/
def compare (left right : SocketAddr) : Ordering :=
  (Ord.compare (listing.isReliable sync right)
      (listing.isReliable sync left)).then
    (Ord.compare left.display right.display)

def knownPeers : List SocketAddr :=
  sortBy (listing.compare sync)
    ((listing.iterate sync.knownPeers).filter fun peer =>
      peer ∉ config.localAddrs)

variable {listing config sync}

theorem knownPeers_perm : (listing.knownPeers config sync).Perm
    ((listing.iterate sync.knownPeers).filter fun peer =>
      peer ∉ config.localAddrs) :=
  List.perm_insertionSort _ _

theorem mem_knownPeers {peer : SocketAddr} :
    peer ∈ listing.knownPeers config sync ↔
      peer ∈ sync.knownPeers ∧ peer ∉ config.localAddrs := by
  rw [knownPeers_perm.mem_iff, List.mem_filter, listing.mem_iterate,
    decide_eq_true_iff]

theorem nodup_knownPeers : (listing.knownPeers config sync).Nodup :=
  knownPeers_perm.nodup_iff.mpr ((listing.nodup_iterate _).filter _)

theorem length_knownPeers : (listing.knownPeers config sync).length =
    (sync.knownPeers \ config.localAddrs).card := by
  rw [← List.toFinset_card_of_nodup nodup_knownPeers]
  congr 1
  ext peer
  rw [List.mem_toFinset, mem_knownPeers, Finset.mem_sdiff]

end PeerListing

/-! ## The broadcasts -/

/-- What `broadcast_best_effort` counts. -/
structure Tally where
  attempts : ℕ
  successes : ℕ
  failures : List String
  balanced : attempts = successes + failures.length

def Tally.empty : Tally := ⟨0, 0, [], rfl⟩

def Tally.count (tally : Tally) (target : SocketAddr) :
    Except String Unit → Tally
  | .ok () =>
      ⟨tally.attempts + 1, tally.successes + 1, tally.failures, by
        rw [tally.balanced, Nat.add_right_comm]⟩
  | .error err =>
      ⟨tally.attempts + 1, tally.successes,
        tally.failures ++ [target.display ++ ": " ++ err], by
          rw [tally.balanced, List.length_append]
          rfl⟩

def broadcastBestEffort {σ : Type} (targets : List SocketAddr)
    (send : SocketAddr → Stateful σ String Unit) :
    Stateful σ String Unit := do
  let tally ← targets.foldlM
    (fun (tally : Tally) target => do
      let outcome ← attempt (send target)
      return tally.count target outcome)
    Tally.empty
  if 0 < tally.attempts ∧ tally.successes = 0 ∧ tally.failures ≠ [] then
    fail ("failed to send to all " ++ toString tally.attempts ++
      " peer(s): " ++ "; ".intercalate tally.failures)
  else return ()

namespace Service

variable (config : ServiceConfig) (env : Environment) (listing : PeerListing)

section Wire

variable [WireCodec]

def broadcastPresenceAnnounces : ServiceM Unit :=
  config.bootstrapTargets.forM (sendUnlessIgnored env .presenceAnnounce)

def broadcastTipRequests : ServiceM Unit := do
  let peers ← inspect fun session => listing.knownPeers config session.sync
  broadcastBestEffort peers fun peer => sendWire env peer .tipRequest

/-- How handing an encoded block to the network ends when `attempts` were made
before. -/
def blockOutcome (attempts : ℕ) (peer : SocketAddr) : Except String Unit :=
  (env.network attempts).mapError fun err =>
    "failed to broadcast block to " ++ peer.display ++ ": " ++ err

def sendBlock (block : Block) (peer : SocketAddr) : ServiceM Unit :=
  call fun session =>
    let outcome := blockOutcome env session.sent.length peer
    (outcome.mapError Abort.err,
      session.record ⟨peer, .submitBlock block, outcome⟩)

def broadcastBlock (block : Block) : ServiceM Unit := do
  let peers ← inspect fun session => listing.knownPeers config session.sync
  if peers = [] then return ()
  else
    match (WireMessage.submitBlock block).encode with
    | .error err => fail err
    | .ok _encoded => peers.forM (sendBlock env block)

end Wire

/-! ## Production of blocks -/

/-- The text of a poisoned runtime lock in `produce_one_block`. -/
def productionLockError : String :=
  "failed to lock runtime for block production: " ++
    "poisoned lock: another task failed inside"

variable [Blake3] [Bincode] [PqCrypto]

def produceOneBlock (clock : Except String UInt64) (entropy : ℕ) :
    ServiceM (Option (UInt64 × Block)) := do
  if ← inspect fun session => session.service.runtimePoisoned then
    fail productionLockError
  else withRuntimeMut fun runtime =>
    let (result, runtime) := runtime.produceOneBlock clock entropy env.saves
    (Result.mapErr NodeError.display result, runtime)

def produceNow [WireCodec] (clock : Except String UInt64) (entropy : ℕ) :
    ServiceM (Option UInt64) := do
  match ← produceOneBlock env clock entropy with
  | none => return none
  | some (height, block) => do
      broadcastBlock config env listing block
      return some height

end Service

/-! ## Attempts -/

/-- The message was tried for the target, whatever came of it. -/
def Session.Attempted (s : Session) (target : SocketAddr)
    (message : WireMessage) : Prop :=
  ∃ outcome, ⟨target, message, outcome⟩ ∈ s.sent

namespace Service

variable {config : ServiceConfig} {env : Environment} {listing : PeerListing}
  {s : Session} {message : WireMessage} {targets : List SocketAddr}
  {outcome : ℕ → SocketAddr → Except String Unit}

theorem attempted_handed {target target' : SocketAddr}
    {message' : WireMessage} :
    (handed outcome message s target).Attempted target' message' ↔
      s.Attempted target' message' ∨ message' = message ∧ target' = target := by
  simp only [handed, Session.record, Session.Attempted, List.mem_append,
    List.mem_singleton, Transmission.mk.injEq, exists_or]
  refine or_congr_right ?_
  constructor
  · rintro ⟨_, rfl, rfl, -⟩
    exact ⟨rfl, rfl⟩
  · rintro ⟨rfl, rfl⟩
    exact ⟨_, rfl, rfl, rfl⟩

theorem attempted_foldl_handed {target : SocketAddr} {message' : WireMessage} :
    (targets.foldl (handed outcome message) s).Attempted target message' ↔
      s.Attempted target message' ∨
        message' = message ∧ target ∈ targets := by
  induction targets generalizing s with
  | nil => simp
  | cons head rest ih =>
      rw [List.foldl_cons, ih, attempted_handed, or_assoc, ← and_or_left,
        List.mem_cons]

theorem not_attempted {peer : SocketAddr} {message : WireMessage}
    (hsent : s.sent = []) : ¬s.Attempted peer message := by
  rintro ⟨outcome, hmem⟩
  rw [hsent] at hmem
  exact List.not_mem_nil hmem

/-- What a loop over the targets has attempted are the rounds it gets to. -/
theorem exists_rounds {f : SocketAddr → ServiceM PUnit}
    {stops : SocketAddr → Session → Prop}
    (hafter : ∀ target s, (f target).after s = handed outcome message s target)
    (hreturns : ∀ target s, Returns (f target) s ↔ ¬stops target s)
    (hfresh : ∀ target, ¬s.Attempted target message)
    (targets : List SocketAddr) :
    ∃ made, Rounds stops (handed outcome message) targets s made ∧
      ∀ target, ((targets.forM f).after s).Attempted target message ↔
        target ∈ made := by
  obtain ⟨made, hmade⟩ := Rounds.exists_made targets s
  refine ⟨made, hmade, fun target => ?_⟩
  rw [hmade.after_forM hafter hreturns, attempted_foldl_handed]
  simp only [hfresh target, true_and, false_or]

end Service

/-! ## Announcements -/

section Announcements

variable [WireCodec]

/-- Announcing to the targets ends at one which is not reached, in front of
one which had no turn yet. -/
def Environment.CutsOff (env : Environment) (number : ℕ)
    (targets : List SocketAddr) (message : WireMessage) : Prop :=
  ∃ before target after, targets = before ++ target :: after ∧
    env.Aborts (number + before.length) message target ∧
    ∃ later ∈ after, later ∉ before ++ [target]

/-- Among the targets of a node only the last one may fail. -/
theorem Environment.cutsOff_discoveryTargetsFor {env : Environment}
    {number : ℕ} {message : WireMessage} {bindAddr : SocketAddr}
    {peers : List SocketAddr} {multicast : List MulticastConfig} :
    env.CutsOff number (discoveryTargetsFor bindAddr peers multicast)
        message ↔
      ∃ before target after,
        discoveryTargetsFor bindAddr peers multicast =
          before ++ target :: after ∧
        env.Aborts (number + before.length) message target ∧ after ≠ [] := by
  have hnodup : (discoveryTargetsFor bindAddr peers multicast).Nodup :=
    nodup_distinct _
  refine exists_congr fun before => exists_congr fun target =>
    exists_congr fun after => and_congr_right fun hsplit =>
      and_congr_right fun _ => ?_
  rw [ne_eq, ← forall_mem_before_iff (hsplit ▸ hnodup)]
  simp only [not_forall, exists_prop]

namespace Service

variable {config : ServiceConfig} {env : Environment} {s : Session}
  {message : WireMessage} {targets : List SocketAddr}

theorem after_sendUnlessIgnored {target : SocketAddr} :
    (sendUnlessIgnored env message target).after s =
      tried env message s target := by
  refine Ends.after (P := fun s' => s' = tried env message s target) ?_
  rw [ends_sendUnlessIgnored]
  simp only [and_true]
  exact (Classical.em _).symm

theorem announced_iff (hfresh : ∀ target, ¬s.Attempted target message) :
    (∀ target ∈ targets,
        ((targets.forM (sendUnlessIgnored env message)).after s).Attempted
          target message) ↔
      ¬env.CutsOff s.sent.length targets message := by
  have hafter (target : SocketAddr) (s : Session) :
      (sendUnlessIgnored env message target).after s =
        handed (sendOutcome env · · message) message s target :=
    after_sendUnlessIgnored
  have hreturns (target : SocketAddr) (s : Session) :
      Returns (sendUnlessIgnored env message target) s ↔
        ¬env.Aborts s.sent.length message target :=
    returns_sendUnlessIgnored.trans (and_iff_left trivial)
  obtain ⟨made, hmade, hattempted⟩ :=
    exists_rounds hafter hreturns hfresh targets
  simp only [hattempted, hmade.all_iff, length_sent_handed,
    Environment.CutsOff, not_exists, not_and, not_not]

theorem presence_announced_iff {service : NodeService} :
    (∀ target ∈ config.bootstrapTargets,
        ((broadcastPresenceAnnounces config env).after
          (Session.start service)).Attempted target .presenceAnnounce) ↔
      ¬env.CutsOff 0 config.bootstrapTargets .presenceAnnounce :=
  announced_iff fun _ => not_attempted (Session.start_sent _)

end Service

end Announcements

/-! ## Best effort -/

section BestEffort

variable {σ : Type} {send : SocketAddr → Stateful σ String Unit}
  {outcome : σ → SocketAddr → Except String Unit}
  {next : σ → SocketAddr → σ}

/-- One target of a best-effort broadcast. -/
def Tally.step (outcome : σ → SocketAddr → Except String Unit)
    (next : σ → SocketAddr → σ) (counted : Tally × σ) (target : SocketAddr) :
    Tally × σ :=
  (counted.1.count target (outcome counted.2 target), next counted.2 target)

theorem Tally.foldl_step (outcome : σ → SocketAddr → Except String Unit)
    (next : σ → SocketAddr → σ) (targets : List SocketAddr)
    (counted : Tally × σ) :
    let last := targets.foldl (Tally.step outcome next) counted
    last.2 = targets.foldl next counted.2 ∧
      last.1.attempts = counted.1.attempts + targets.length ∧
      (last.1.successes = 0 ↔ counted.1.successes = 0 ∧
        ∀ before target after, targets = before ++ target :: after →
          outcome (before.foldl next counted.2) target ≠ .ok ()) := by
  induction targets generalizing counted with
  | nil => exact ⟨rfl, rfl, (and_iff_left forall_split_nil).symm⟩
  | cons target rest ih =>
      obtain ⟨hstate, hattempts, hsuccesses⟩ :=
        ih (Tally.step outcome next counted target)
      refine ⟨hstate, hattempts.trans ?_, hsuccesses.trans ?_⟩
      · rw [Tally.step, List.length_cons]
        cases outcome counted.2 target <;> simp only [Tally.count] <;> omega
      · rw [forall_split_cons, ← and_assoc]
        refine and_congr_left fun _ => ?_
        change (counted.1.count target (outcome counted.2 target)).successes =
          0 ↔ counted.1.successes = 0 ∧ outcome counted.2 target ≠ .ok ()
        cases outcome counted.2 target with
        | ok u => simp [Tally.count]
        | error err => simp [Tally.count]

variable (hsend : ∀ target s, (send target).exec s =
  ((outcome s target).mapError Abort.err, next s target))

include hsend

theorem exec_tallied (targets : List SocketAddr) (s : σ) :
    (targets.foldlM (fun (tally : Tally) target => do
        let outcome ← attempt (send target)
        return tally.count target outcome) Tally.empty).exec s =
      (.ok (targets.foldl (Tally.step outcome next) (Tally.empty, s)).1,
        (targets.foldl (Tally.step outcome next) (Tally.empty, s)).2) := by
  refine exec_foldlM (fun tally target s => ?_) targets Tally.empty s
  have hattempt : (attempt (send target)).exec s =
      (.ok (outcome s target), next s target) := by
    rw [attempt, exec_call, hsend]
    cases outcome s target <;> rfl
  rw [exec_bind_of_ok hattempt]
  rfl

/-- Every target has its turn. -/
theorem after_broadcastBestEffort (targets : List SocketAddr) (s : σ) :
    (broadcastBestEffort targets send).after s = targets.foldl next s := by
  have hstate :=
    (Tally.foldl_step outcome next targets (Tally.empty, s)).1
  rw [after, broadcastBestEffort, exec_bind_of_ok (exec_tallied hsend _ _),
    ← hstate]
  split <;> rfl

/-- It is a failure if there are targets and none of them is reached. -/
theorem returns_broadcastBestEffort (targets : List SocketAddr) (s : σ) :
    Returns (broadcastBestEffort targets send) s ↔
      targets = [] ∨ ∃ before target after,
        targets = before ++ target :: after ∧
          outcome (before.foldl next s) target = .ok () := by
  obtain ⟨-, hattempts, hsuccesses⟩ :=
    Tally.foldl_step outcome next targets (Tally.empty, s)
  rw [Returns, Ends, broadcastBestEffort,
    exec_bind_of_ok (exec_tallied hsend _ _)]
  generalize targets.foldl (Tally.step outcome next) (Tally.empty, s) = last
    at hattempts hsuccesses
  have hfails : (0 < last.1.attempts ∧ last.1.successes = 0 ∧
      last.1.failures ≠ []) ↔ ¬(targets = [] ∨ ∃ before target after,
        targets = before ++ target :: after ∧
          outcome (before.foldl next s) target = .ok ()) := by
    have hsome : 0 < last.1.attempts ↔ ¬targets = [] := by
      rw [hattempts, ← ne_eq, ← List.length_pos_iff]
      exact Nat.zero_add _ ▸ Iff.rfl
    have hnone := hsuccesses.trans (and_iff_right rfl)
    rw [not_or, ← hsome]
    refine and_congr_right fun hpos => ?_
    simp only [not_exists, not_and]
    refine (and_iff_left_of_imp fun hzero => ?_).trans hnone
    -- Without a success every attempt is among the failures.
    have hbalanced := last.1.balanced
    rw [← List.length_pos_iff]
    omega
  by_cases hcond : 0 < last.1.attempts ∧ last.1.successes = 0 ∧
      last.1.failures ≠ []
  · rw [if_pos hcond]
    exact iff_of_false not_false (hfails.mp hcond)
  · rw [if_neg hcond]
    exact iff_of_true trivial (not_not.mp (mt hfails.mpr hcond))

/-- The first of two targets fails, and the second one has its turn. -/
example (first second : SocketAddr) :
    (broadcastBestEffort [first, second] fun target => call fun tried =>
      (if tried = [] then .error (.err "down") else .ok (),
        tried ++ [target])).exec [] = (.ok (), [first, second]) := rfl

end BestEffort

namespace Service

variable [WireCodec] {config : ServiceConfig} {env : Environment}
  {listing : PeerListing} {s : Session}

theorem after_broadcastTipRequests :
    (broadcastTipRequests config env listing).after s =
      (listing.knownPeers config s.sync).foldl (tried env .tipRequest) s := by
  rw [after, broadcastTipRequests, exec_bind_of_ok (exec_inspect _ s)]
  exact after_broadcastBestEffort (fun _ _ => rfl) _ s

/-- Every known peer is asked for its tip, whatever becomes of the others. -/
theorem tipRequests_attempted {peer : SocketAddr}
    (hpeer : peer ∈ listing.knownPeers config s.sync) :
    ((broadcastTipRequests config env listing).after s).Attempted peer
      .tipRequest := by
  rw [after_broadcastTipRequests, tried_eq_handed, attempted_foldl_handed]
  exact .inr ⟨rfl, hpeer⟩

/-! ## Blocks -/

omit [WireCodec] in
theorem returns_sendBlock {block : Block} {peer : SocketAddr} :
    Returns (sendBlock env block peer) s ↔
      ¬env.network s.sent.length ≠ .ok () := by
  rw [returns_iff, not_not]
  change (∃ u, (blockOutcome env s.sent.length peer).mapError Abort.err =
    .ok u) ↔ _
  rw [blockOutcome]
  cases env.network s.sent.length with
  | ok u => exact iff_of_true ⟨u, rfl⟩ rfl
  | error err =>
      refine iff_of_false ?_ ?_
      · rintro ⟨u, ⟨⟩⟩
      · rintro ⟨⟩

omit [WireCodec] in
/-- The loop ends at the first failure. -/
theorem sendBlocks_iff {block : Block} {peers : List SocketAddr}
    (hnodup : peers.Nodup) (hsent : s.sent = []) :
    (∀ peer ∈ peers,
        ((peers.forM (sendBlock env block)).after s).Attempted peer
          (.submitBlock block)) ↔
      ∀ number, number + 1 < peers.length → env.network number = .ok () := by
  have hafter (peer : SocketAddr) (s : Session) :
      (sendBlock env block peer).after s =
        handed (blockOutcome env) (.submitBlock block) s peer := rfl
  obtain ⟨made, hmade, hattempted⟩ :=
    exists_rounds hafter (fun _ _ => returns_sendBlock)
      (fun _ => not_attempted hsent) peers
  refine (forall₂_congr fun peer _ => hattempted peer).trans ?_
  rw [hmade.all_iff_of_nodup hnodup]
  simp only [length_sent_handed, hsent, List.length_nil, Nat.zero_add]
  exact forall_split_iff_forall_lt (P := fun number =>
    env.network number = .ok ())

theorem broadcastBlock_iff {block : Block} (hsent : s.sent = []) :
    (∀ peer ∈ listing.knownPeers config s.sync,
        ((broadcastBlock config env listing block).after s).Attempted peer
          (.submitBlock block)) ↔
      (listing.knownPeers config s.sync = [] ∨
        ∃ frame, (WireMessage.submitBlock block).encode = .ok frame) ∧
      ∀ number, number + 1 < (listing.knownPeers config s.sync).length →
        env.network number = .ok () := by
  rw [after, broadcastBlock, exec_bind_of_ok (exec_inspect _ s)]
  have hnodup := @PeerListing.nodup_knownPeers listing config s.sync
  generalize listing.knownPeers config s.sync = peers at hnodup
  by_cases hempty : peers = []
  · subst hempty
    simp
  · rw [if_neg hempty]
    cases hencode : (WireMessage.submitBlock block).encode with
    | error err =>
        -- Nothing is sent.
        obtain ⟨peer, hpeer⟩ := List.exists_mem_of_ne_nil peers hempty
        refine iff_of_false (fun h => not_attempted hsent (h peer hpeer)) ?_
        simp [hempty]
    | ok frame =>
        exact (sendBlocks_iff hnodup hsent).trans
          (and_iff_right (.inr ⟨frame, rfl⟩)).symm

end Service

/-! ## A new block and a new transaction -/

section Chain

variable [Blake3] [Bincode] [PqCrypto]

namespace NodeService

/-- Producing a block succeeds. -/
def Produces (service : NodeService) (env : Environment)
    (clock : Except String UInt64) (entropy : ℕ) (height : UInt64)
    (block : Block) : Prop :=
  service.runtimePoisoned = false ∧
    (service.runtime.produceOneBlock clock entropy env.saves).1 =
      .ok (some (height, block))

/-- The transaction is accepted, and it is a new one. -/
def AcceptsNew (service : NodeService) (tx : Transaction) (txId : Hash256) :
    Prop :=
  service.runtimePoisoned = false ∧
    (service.runtime.acceptTransaction tx).1 = .ok (.acceptedNew txId)

/-- The service after it accepted the transaction. -/
def accepted (service : NodeService) (tx : Transaction) : NodeService :=
  { service with
    runtime := (service.runtime.acceptTransaction tx).2
    runtimePoisoned := false }

end NodeService

namespace Service

variable {config : ServiceConfig} {env : Environment} {listing : PeerListing}
  {service : NodeService} {source : SocketAddr} {tx : Transaction}
  {txId : Hash256}

theorem txId_of_acceptsNew (h : service.AcceptsNew tx txId) :
    tx.txId = some txId := by
  have hstatus := h.2
  rw [NodeRuntime.acceptTransaction] at hstatus
  split at hstatus
  · rename_i accepted hcheck
    have hsame : accepted = txId := by simpa using hstatus
    rw [← hsame]
    exact (NodeRuntime.MempoolValid.checkAdmission_acceptedNew hcheck).1
  · rename_i hnew
    exact absurd hstatus (hnew txId)

theorem exec_txId (h : service.AcceptsNew tx txId) :
    (lift (Result.orPanic tx.txId) : ServiceM Hash256).exec
        (Session.start service) =
      (.ok txId, Session.start service) := by
  rw [txId_of_acceptsNew h]
  rfl

theorem exec_acceptTransaction (h : service.AcceptsNew tx txId) :
    (acceptTransaction tx).exec (Session.start service) =
      (.ok (.acceptedNew txId), Session.start (service.accepted tx)) := by
  refine exec_withRuntimeMut_of_ok h.1 ?_
  change (Result.mapErr NodeError.display
    (service.runtime.acceptTransaction tx).1, _) = _
  rw [h.2]
  rfl

variable [WireCodec]

theorem after_handleTransactionResponse
    (hknown : source ∈ service.syncState.knownPeers)
    (h : service.AcceptsNew tx txId) :
    (handleMessage config env source
        (.transactionResponse txId (some tx))).after (Session.start service) =
      (broadcastTransactionAnnounce config env txId).after
        (Session.start (service.accepted tx)) := by
  rw [after, handleMessage, handleTransactionResponse,
    ifCompatible_of_known hknown, exec_bind_of_ok (exec_txId h),
    if_neg (by simp), exec_bind_of_ok (exec_acceptTransaction h)]
  rfl

/-- The answer to a submitted transaction which is accepted. -/
def acceptedResponse (txId : Hash256) : WireMessage :=
  .submitTransactionResponse
    (submitResponse txId (.ok (.acceptedNew txId))).1

theorem exec_handleSubmittedTransaction (h : service.AcceptsNew tx txId) :
    (handleMessage config env source (.submitTransaction tx)).exec
        (Session.start service) =
      (do
        sendWire env source (acceptedResponse txId)
        let _ ← attempt (broadcastTransactionAnnounce config env txId)
        return ()).exec (Session.start (service.accepted tx)) := by
  have hstatus : (attempt (acceptTransaction tx)).exec
      (Session.start service) =
        (.ok (.ok (.acceptedNew txId)),
          Session.start (service.accepted tx)) := by
    rw [attempt, exec_call, exec_acceptTransaction h]
  rw [handleMessage, handleSubmittedTransaction, exec_bind_of_ok (exec_txId h),
    exec_bind_of_ok hstatus]
  rfl

/-- The announcement of a submitted transaction follows the answer if this
one gets out. -/
theorem after_handleSubmittedTransaction (h : service.AcceptsNew tx txId) :
    (handleMessage config env source (.submitTransaction tx)).after
        (Session.start service) =
      let answered := tried env (acceptedResponse txId)
        (Session.start (service.accepted tx)) source
      match sendOutcome env 0 source (acceptedResponse txId) with
      | .ok () =>
          (broadcastTransactionAnnounce config env txId).after answered
      | .error _ => answered := by
  have hexec : (sendWire env source (acceptedResponse txId)).exec
      (Session.start (service.accepted tx)) =
        ((sendOutcome env 0 source (acceptedResponse txId)).mapError Abort.err,
          tried env (acceptedResponse txId)
            (Session.start (service.accepted tx)) source) := rfl
  rw [after, exec_handleSubmittedTransaction h]
  generalize sendOutcome env 0 source (acceptedResponse txId) = outcome
    at hexec
  cases outcome with
  | ok u =>
      rw [exec_bind_of_ok hexec]
      exact (after_bind_pure _ _ _).trans (after_attempt _ _)
  | error err => rw [exec_bind_of_error hexec]

theorem after_produceNow {clock : Except String UInt64} {entropy : ℕ}
    {height : UInt64} {block : Block}
    (h : service.Produces env clock entropy height block) :
    (produceNow config env listing clock entropy).after
        (Session.start service) =
      (broadcastBlock config env listing block).after
        ((Session.start service).setRuntime
          (service.runtime.produceOneBlock clock entropy env.saves).2
          false) := by
  have hproduced : (produceOneBlock env clock entropy).exec
      (Session.start service) = (.ok (some (height, block)),
        (Session.start service).setRuntime
          (service.runtime.produceOneBlock clock entropy env.saves).2
          false) := by
    rw [produceOneBlock, exec_bind_of_ok (exec_inspect _ _),
      Session.start_service, h.1, if_neg Bool.false_ne_true]
    refine exec_withRuntimeMut_of_ok h.1 ?_
    change (Result.mapErr NodeError.display
      (service.runtime.produceOneBlock clock entropy env.saves).1, _) = _
    rw [h.2]
    rfl
  rw [after, produceNow, exec_bind_of_ok hproduced]
  exact after_bind_pure _ _ _

end Service

/-! ## Propagation -/

section Propagation

variable [WireCodec] (config : ServiceConfig) (env : Environment)
  (listing : PeerListing)

namespace NodeService

/-- `produce_now` tries to send the block to every known peer. -/
def SpreadsBlock (service : NodeService) (clock : Except String UInt64)
    (entropy : ℕ) (block : Block) : Prop :=
  ∀ peer ∈ listing.knownPeers config service.syncState,
    ((Service.produceNow config env listing clock entropy).after
      (Session.start service)).Attempted peer (.submitBlock block)

/-- Handling the message, the node tries to announce the transaction to every
bootstrap target. -/
def SpreadsTransaction (service : NodeService) (source : SocketAddr)
    (message : WireMessage) (txId : Hash256) : Prop :=
  ∀ target ∈ config.bootstrapTargets,
    ((Service.handleMessage config env source message).after
      (Session.start service)).Attempted target (.transactionAnnounce txId)

end NodeService

variable {config env listing} {service : NodeService} {source : SocketAddr}
  {tx : Transaction} {txId : Hash256}

theorem spreadsBlock_iff {clock : Except String UInt64} {entropy : ℕ}
    {height : UInt64} {block : Block}
    (h : service.Produces env clock entropy height block) :
    service.SpreadsBlock config env listing clock entropy block ↔
      (listing.knownPeers config service.syncState = [] ∨
        ∃ frame, (WireMessage.submitBlock block).encode = .ok frame) ∧
      ∀ number,
        number + 1 < (listing.knownPeers config service.syncState).length →
          env.network number = .ok () := by
  have hsent : ((Session.start service).setRuntime
      (service.runtime.produceOneBlock clock entropy env.saves).2
      false).sent = [] := by
    rw [Session.setRuntime_sent, Session.start_sent]
  rw [NodeService.SpreadsBlock, Service.after_produceNow h]
  exact Service.broadcastBlock_iff hsent

theorem spreads_received_iff (hknown : source ∈ service.syncState.knownPeers)
    (h : service.AcceptsNew tx txId) :
    service.SpreadsTransaction config env source
        (.transactionResponse txId (some tx)) txId ↔
      ¬env.CutsOff 0 config.bootstrapTargets (.transactionAnnounce txId) := by
  rw [NodeService.SpreadsTransaction,
    Service.after_handleTransactionResponse hknown h,
    Service.broadcastTransactionAnnounce_eq]
  exact Service.announced_iff fun _ =>
    Service.not_attempted (Session.start_sent _)

theorem spreads_submitted_iff (h : service.AcceptsNew tx txId) :
    service.SpreadsTransaction config env source (.submitTransaction tx)
        txId ↔
      (config.bootstrapTargets = [] ∨
        ¬env.Unsent 0 source (Service.acceptedResponse txId)) ∧
      ¬env.CutsOff 1 config.bootstrapTargets (.transactionAnnounce txId) := by
  have hfresh (target : SocketAddr) :
      ¬(Service.tried env (Service.acceptedResponse txId)
        (Session.start (service.accepted tx)) source).Attempted target
          (.transactionAnnounce txId) := by
    rw [Service.tried_eq_handed, Service.attempted_handed]
    rintro (h | ⟨⟨⟩, -⟩)
    exact Service.not_attempted (Session.start_sent _) h
  rw [NodeService.SpreadsTransaction,
    Service.after_handleSubmittedTransaction h, Environment.Unsent]
  cases Service.sendOutcome env 0 source (Service.acceptedResponse txId) with
  | ok u =>
      simp only [reduceCtorEq, exists_false, not_false_iff, or_true, true_and]
      exact Service.announced_iff hfresh
  | error err =>
      -- The answer is lost, and nothing is announced.
      simp only [Except.error.injEq, exists_eq', not_true, or_false]
      cases config.bootstrapTargets with
      | nil =>
          refine iff_of_true (fun _ h => absurd h List.not_mem_nil) ⟨rfl, ?_⟩
          rintro ⟨before, target, after, hsplit, -⟩
          cases before <;> cases hsplit
      | cons target targets =>
          refine iff_of_false (fun hall => ?_) (by simp)
          exact hfresh target (hall target List.mem_cons_self)

/-- A new block goes to every known peer exactly if it can be encoded and no
send before the last one fails.  A new transaction is announced to every
bootstrap target exactly if no failure which is not ignored precedes a target
without a turn, and, if the transaction was submitted, the answer gets out. -/
theorem propagation_iff (config : ServiceConfig) (env : Environment)
    (listing : PeerListing) (service : NodeService) :
    (∀ clock entropy height block,
      service.Produces env clock entropy height block →
      (service.SpreadsBlock config env listing clock entropy block ↔
        (listing.knownPeers config service.syncState = [] ∨
          ∃ frame, (WireMessage.submitBlock block).encode = .ok frame) ∧
        ∀ number,
          number + 1 < (listing.knownPeers config service.syncState).length →
            env.network number = .ok ())) ∧
    ∀ source tx txId, service.AcceptsNew tx txId →
      (source ∈ service.syncState.knownPeers →
        (service.SpreadsTransaction config env source
            (.transactionResponse txId (some tx)) txId ↔
          ¬env.CutsOff 0 config.bootstrapTargets
            (.transactionAnnounce txId))) ∧
      (service.SpreadsTransaction config env source (.submitTransaction tx)
          txId ↔
        (config.bootstrapTargets = [] ∨
          ¬env.Unsent 0 source (Service.acceptedResponse txId)) ∧
        ¬env.CutsOff 1 config.bootstrapTargets
          (.transactionAnnounce txId)) := by
  refine ⟨fun clock entropy height block h => spreadsBlock_iff h, ?_⟩
  intro source tx txId h
  exact ⟨fun hknown => spreads_received_iff hknown h, spreads_submitted_iff h⟩

end Propagation

end Chain

/-! ## A peer which is gone -/

section DeadPeer

open scoped StandIns

/-- Key bytes behind their scheme and length. -/
def encodeKeyBytes (bytes : Bytes) : Bytes :=
  leBytes 8 (6 + bytes.length) ++
    (leBytes 2 1 ++ (leBytes 4 bytes.length ++ bytes))

def encodeEmptyBlock (block : Block) : Bytes :=
  encodeBlockHeader block.header ++
    (leBytes 8 0 ++ (encodeKeyBytes block.proposerPublicKey.bytes ++
      encodeKeyBytes block.signature.bytes))

/-- The stand-in format with the messages of the broadcasts, as far as blocks
carry no transactions. -/
local instance broadcastCodec : WireCodec where
  serialize
    | .submitBlock block =>
        if block.transactions = [] then
          .ok (leBytes 4 6 ++ encodeEmptyBlock block)
        else .error "left out"
    | .transactionAnnounce txId => .ok (leBytes 4 8 ++ encodeHash txId)
    | message => StandIns.wireCodec.serialize message
  deserialize := StandIns.wireCodec.deserialize

/-- The numbers of an address. -/
def SocketAddr.key : SocketAddr → List ℕ
  | v4 ip port => [ip.toNat, port.toNat]
  | v6 ip port flowinfo scopeId =>
      [ip.toNat, port.toNat, flowinfo.toNat, scopeId.toNat]

theorem SocketAddr.key_injective : Function.Injective SocketAddr.key := by
  rintro (⟨ip, port⟩ | ⟨ip, port, flowinfo, scopeId⟩)
    (⟨ip', port'⟩ | ⟨ip', port', flowinfo', scopeId'⟩) h
  · simpa [key, BitVec.toNat_inj, UInt16.toNat_inj] using h
  · simp [key] at h
  · simp [key] at h
  · simpa [key, BitVec.toNat_inj, UInt16.toNat_inj, UInt32.toNat_inj] using h

/-- No peer is reliable. -/
def plainListing : PeerListing :=
  letI : LinearOrder SocketAddr :=
    LinearOrder.lift' SocketAddr.key SocketAddr.key_injective
  ⟨∅, sortedList, fun _ _ => mem_sortedList, nodup_sortedList⟩

def secondPeerAddr : SocketAddr := .v4 0x7f000001 9801

def thirdPeerAddr : SocketAddr := .v4 0x7f000001 9802

def twoTargets : ServiceConfig :=
  { StandIns.plainConfig with
    bootstrapTargets := [StandIns.peerAddr, secondPeerAddr] }

def networkEnvironment (network : ℕ → Except String Unit) : Environment :=
  { StandIns.workingEnvironment with network := network }

/-- The first send of a handler fails. -/
def deadPeerEnvironment : Environment :=
  networkEnvironment fun number =>
    if number = 0 then .error "Connection refused (os error 111)" else .ok ()

/-- A node which knows three peers. -/
def acquainted (runtime : NodeRuntime) : NodeService :=
  { NodeService.new runtime with
    syncState := { SyncState.new with
      knownPeers := {StandIns.peerAddr, secondPeerAddr, thirdPeerAddr} } }

theorem acquainted_produces (network : ℕ → Except String Unit) :
    (acquainted (freshNodes true)).Produces (networkEnvironment network)
      (.ok 1) 0 1 (StandIns.emptyBlock 1) :=
  ⟨rfl, congrArg Prod.fst freshNodes_produce⟩

theorem acquainted_acceptsNew :
    ∃ txId, (acquainted (StandIns.freshRuntime 1 [])).AcceptsNew emptyTransfer
      txId := by
  have hpending : ((StandIns.freshRuntime 1 []).acceptTransaction
      emptyTransfer).2.pendingTransactions = [emptyTransfer] :=
    emptyTransfer_pending
  rcases (StandIns.freshRuntime 1 []).acceptTransaction_cases emptyTransfer
    with hsame | ⟨txId, -, haccept⟩
  · rw [hsame] at hpending
    cases hpending
  · exact ⟨txId, rfl, congrArg Prod.fst haccept⟩

theorem length_knownPeers_acquainted (runtime : NodeRuntime) :
    (plainListing.knownPeers twoTargets
      (acquainted runtime).syncState).length = 3 :=
  PeerListing.length_knownPeers.trans rfl

theorem third_known (runtime : NodeRuntime) :
    thirdPeerAddr ∈ (acquainted runtime).syncState.knownPeers := by
  change thirdPeerAddr ∈
    ({StandIns.peerAddr, secondPeerAddr, thirdPeerAddr} : Finset SocketAddr)
  decide

/-- With a working network the block and the announcement of a transaction go
to all. -/
theorem workingNetwork_propagates :
    ∃ txId,
      (acquainted (freshNodes true)).SpreadsBlock twoTargets
        (networkEnvironment fun _ => .ok ()) plainListing (.ok 1) 0
        (StandIns.emptyBlock 1) ∧
      (acquainted (StandIns.freshRuntime 1 [])).SpreadsTransaction twoTargets
        (networkEnvironment fun _ => .ok ()) thirdPeerAddr
        (.transactionResponse txId (some emptyTransfer)) txId := by
  obtain ⟨txId, haccepts⟩ := acquainted_acceptsNew
  have hblock := (propagation_iff twoTargets
    (networkEnvironment fun _ => .ok ()) plainListing
    (acquainted (freshNodes true))).1 _ _ _ _ (acquainted_produces _)
  have htransaction := ((propagation_iff twoTargets
    (networkEnvironment fun _ => .ok ()) plainListing
    (acquainted (StandIns.freshRuntime 1 []))).2 thirdPeerAddr emptyTransfer
    txId haccepts).1 (third_known _)
  refine ⟨txId, hblock.mpr ⟨.inr ⟨_, rfl⟩, fun _ _ => rfl⟩,
    htransaction.mpr ?_⟩
  rintro ⟨before, target, after, -, ⟨err, hfails, -⟩, -⟩
  cases hfails

/-- The first peer is gone.  The others do not get the block, and the second
one does not get the announcement of a transaction from the third. -/
theorem deadPeer_stops :
    ∃ txId,
      ((acquainted (freshNodes true)).Produces deadPeerEnvironment (.ok 1) 0 1
          (StandIns.emptyBlock 1) ∧
        ¬(acquainted (freshNodes true)).SpreadsBlock twoTargets
          deadPeerEnvironment plainListing (.ok 1) 0
          (StandIns.emptyBlock 1)) ∧
      thirdPeerAddr ∈
        (acquainted (StandIns.freshRuntime 1 [])).syncState.knownPeers ∧
      (acquainted (StandIns.freshRuntime 1 [])).AcceptsNew emptyTransfer
        txId ∧
      ¬(acquainted (StandIns.freshRuntime 1 [])).SpreadsTransaction twoTargets
        deadPeerEnvironment thirdPeerAddr
        (.transactionResponse txId (some emptyTransfer)) txId := by
  obtain ⟨txId, haccepts⟩ := acquainted_acceptsNew
  have hproduces : (acquainted (freshNodes true)).Produces deadPeerEnvironment
      (.ok 1) 0 1 (StandIns.emptyBlock 1) := acquainted_produces _
  have hknown := third_known (StandIns.freshRuntime 1 [])
  refine ⟨txId, ⟨hproduces, ?_⟩, hknown, haccepts, ?_⟩
  · rw [spreadsBlock_iff hproduces, length_knownPeers_acquainted]
    rintro ⟨-, hnetwork⟩
    cases hnetwork 0 (by decide)
  · rw [spreads_received_iff hknown haccepts, not_not]
    refine ⟨[], StandIns.peerAddr, [secondPeerAddr], rfl,
      ⟨_, rfl, rfl⟩, secondPeerAddr, List.mem_singleton_self _, ?_⟩
    decide

end DeadPeer

end QCoin
