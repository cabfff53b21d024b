import QCoin.Node.Runtime
import QCoin.Node.Wire
import QCoin.Support.Stateful

/-!
# The node service

`NodeServiceInner` of `qcoin-node`: what the node does with a UDP frame.  The
handlers are stateful calls on a session, the handling of one frame; what they
read from outside, the clock and the outcomes of sends and saves, is given by
an environment.  Printing is left out.
-/

namespace QCoin

open Support
open Support.Stateful

/-! ## State -/

/-- A reading of the monotonic clock, in nanoseconds. -/
abbrev Instant := ℕ

def NODE_INFO_RESPONSE_MIN_INTERVAL : ℕ := 42 * 10 ^ 9

def NODE_INFO_PROBE_MIN_INTERVAL : ℕ := 5 * 10 ^ 9

structure SyncState where
  peerTipHeights : FinMap SocketAddr UInt64
  inFlightBlocks : FinMap SocketAddr UInt64
  knownPeers : Finset SocketAddr
  peerNodeInfo : FinMap SocketAddr NodeInfo
  peerRejections : FinMap SocketAddr String
  pendingTransactionAnnouncements : FinMap SocketAddr (Finset Hash256)
  peerLastPresenceSeenAt : FinMap SocketAddr Instant
  peerLastNodeInfoSentAt : FinMap SocketAddr Instant
  peerLastNodeInfoProbeAt : FinMap SocketAddr Instant

namespace SyncState

def new : SyncState where
  peerTipHeights := ∅
  inFlightBlocks := ∅
  knownPeers := ∅
  peerNodeInfo := ∅
  peerRejections := ∅
  pendingTransactionAnnouncements := ∅
  peerLastPresenceSeenAt := ∅
  peerLastNodeInfoSentAt := ∅
  peerLastNodeInfoProbeAt := ∅

/-! The changes `NodeServiceInner` makes inside one lock scope. -/

def setTip (sync : SyncState) (peer : SocketAddr) (height : UInt64) :
    SyncState :=
  { sync with peerTipHeights := sync.peerTipHeights.insert peer height }

def setInFlight (sync : SyncState) (peer : SocketAddr) (height : UInt64) :
    SyncState :=
  { sync with inFlightBlocks := sync.inFlightBlocks.insert peer height }

def clearInFlight (sync : SyncState) (peer : SocketAddr) : SyncState :=
  { sync with inFlightBlocks := sync.inFlightBlocks.erase peer }

def seen (sync : SyncState) (peer : SocketAddr) (time : Instant) :
    SyncState :=
  { sync with
    peerLastPresenceSeenAt := sync.peerLastPresenceSeenAt.insert peer time }

def infoSent (sync : SyncState) (peer : SocketAddr) (time : Instant) :
    SyncState :=
  { sync with
    peerLastNodeInfoSentAt := sync.peerLastNodeInfoSentAt.insert peer time }

def probed (sync : SyncState) (peer : SocketAddr) (time : Instant) :
    SyncState :=
  { sync with
    peerLastNodeInfoProbeAt := sync.peerLastNodeInfoProbeAt.insert peer time }

def reject (sync : SyncState) (peer : SocketAddr) (err : String) :
    SyncState :=
  { sync with
    knownPeers := sync.knownPeers.erase peer
    peerNodeInfo := sync.peerNodeInfo.erase peer
    peerRejections := sync.peerRejections.insert peer err
    pendingTransactionAnnouncements :=
      sync.pendingTransactionAnnouncements.erase peer }

def accept (sync : SyncState) (peer : SocketAddr) (info : NodeInfo)
    (time : Instant) : SyncState :=
  { sync with
    knownPeers := insert peer sync.knownPeers
    pendingTransactionAnnouncements :=
      sync.pendingTransactionAnnouncements.erase peer
    peerRejections := sync.peerRejections.erase peer
    peerLastPresenceSeenAt := sync.peerLastPresenceSeenAt.insert peer time
    peerLastNodeInfoProbeAt := sync.peerLastNodeInfoProbeAt.erase peer
    peerNodeInfo := sync.peerNodeInfo.insert peer info }

def announce (sync : SyncState) (peer : SocketAddr) (txId : Hash256) :
    SyncState :=
  { sync with
    pendingTransactionAnnouncements :=
      sync.pendingTransactionAnnouncements.insert peer
        (insert txId
          ((sync.pendingTransactionAnnouncements.lookup peer).getD ∅)) }

end SyncState

/-- The tip which a node reports over UDP and over HTTP. -/
def NodeRuntime.tipResponse (runtime : NodeRuntime) : TipResponse where
  height := runtime.chain.height
  tipHashHex := toHex runtime.chain.tipHash.bytes
  stateRootHex := toHex runtime.chain.stateRoot.bytes
  lastTimestamp := runtime.chain.lastTimestamp

/-- What a service never changes. -/
structure ServiceConfig where
  bootstrapTargets : List SocketAddr
  localAddrs : Finset SocketAddr
  multicastEnabled : Bool
  produceEnabled : Bool
  nodePublicKeyHex : String
  nodeIsValidator : Bool

/-- A panic inside the lock of the runtime poisons it.  Nothing panics inside
the lock of the sync state. -/
structure NodeService where
  runtime : NodeRuntime
  runtimePoisoned : Bool
  syncState : SyncState

def NodeService.new (runtime : NodeRuntime) : NodeService where
  runtime := runtime
  runtimePoisoned := false
  syncState := SyncState.new

/-- What the handling of a frame reads from outside. -/
structure Environment where
  /-- The readings of the clock, in order. -/
  clock : ℕ → Instant
  /-- The outcomes of the frames handed to the network, in order. -/
  network : ℕ → Except String Unit
  saves : SaveOutcomes
  /-- The iteration order of a hash set. -/
  iterate : Finset Hash256 → List Hash256
  mem_iterate : ∀ ids txId, txId ∈ iterate ids ↔ txId ∈ ids

/-- An attempt to send a message. -/
structure Transmission where
  target : SocketAddr
  message : WireMessage
  outcome : Except String Unit

/-- The service while it handles a frame, the messages it tried to send so
far, and the number of times it read the clock. -/
structure Session where
  service : NodeService
  sent : List Transmission
  clockReads : ℕ

def Session.start (service : NodeService) : Session where
  service := service
  sent := []
  clockReads := 0

abbrev ServiceM (α : Type) := Stateful Session String α

namespace Session

def sync (session : Session) : SyncState :=
  session.service.syncState

def runtime (session : Session) : NodeRuntime :=
  session.service.runtime

def setSync (session : Session) (sync : SyncState) : Session :=
  { session with service := { session.service with syncState := sync } }

def setRuntime (session : Session) (runtime : NodeRuntime) (panicked : Bool) :
    Session :=
  { session with service := { session.service with
      runtime := runtime, runtimePoisoned := panicked } }

def record (session : Session) (transmission : Transmission) : Session :=
  { session with sent := session.sent ++ [transmission] }

end Session

/-! ## Locks, clock and network -/

namespace Service

def sync : ServiceM SyncState :=
  inspect Session.sync

def updateSync (f : SyncState → SyncState) : ServiceM Unit :=
  update fun session => session.setSync (f session.sync)

/-- The text of a poisoned runtime lock. -/
def runtimeLockError : String :=
  "failed to lock qcoin runtime: poisoned lock: another task failed inside"

def withRuntimeMut {α : Type}
    (f : NodeRuntime → Result String α × NodeRuntime) : ServiceM α :=
  call fun session =>
    if session.service.runtimePoisoned then
      (.error (.err runtimeLockError), session)
    else
      match f session.runtime with
      | (.error .panic, runtime) =>
          (.error .panic, session.setRuntime runtime true)
      | (result, runtime) => (result, session.setRuntime runtime false)

/-- The function may panic. -/
def withRuntime {α : Type} (f : NodeRuntime → Option α) : ServiceM α :=
  withRuntimeMut fun runtime => (Result.orPanic (f runtime), runtime)

variable (config : ServiceConfig) (env : Environment)

def now : ServiceM Instant :=
  call fun session =>
    (.ok (env.clock session.clockReads),
      { session with clockReads := session.clockReads + 1 })

section Wire

variable [WireCodec]

/-- How sending a message ends when `attempts` were made before. -/
def sendOutcome (attempts : ℕ) (target : SocketAddr) (message : WireMessage) :
    Except String Unit := do
  let _frame ← message.encode
  match env.network attempts with
  | .ok () => .ok ()
  | .error err =>
      .error ("failed to send qcoin wire message to " ++ target.display ++
        ": " ++ err)

def sendWire (target : SocketAddr) (message : WireMessage) : ServiceM Unit :=
  call fun session =>
    let outcome := sendOutcome env session.sent.length target message
    (outcome.mapError Abort.err, session.record ⟨target, message, outcome⟩)

end Wire

/-! ## Calls on the runtime -/

section Chain

def tipSnapshot : ServiceM TipResponse :=
  withRuntime fun runtime => some runtime.tipResponse

def blockAtHeight (height : UInt64) : ServiceM (Option Block) :=
  withRuntime fun runtime => some runtime.blocks[height.toNat - 1]?

def currentHeight : ServiceM UInt64 :=
  withRuntime fun runtime => some runtime.chain.height

def currentChainId : ServiceM UInt32 :=
  withRuntime fun runtime => some runtime.chain.chainId

def localNodeInfo : ServiceM NodeInfo :=
  withRuntime fun runtime => some
    (QCoin.localNodeInfo runtime.chain.chainId config.multicastEnabled
      config.nodePublicKeyHex config.nodeIsValidator config.produceEnabled)

variable [Blake3] [Bincode] [PqCrypto]

def hasTransaction (txId : Hash256) : ServiceM Bool :=
  withRuntime fun runtime => do
    if ← anyTxId txId runtime.pendingTransactions then return true
    else anyTxId txId (committedTransactions runtime.blocks)

/-- The first of the transactions which has the id. -/
def findTxId (txId : Hash256) : List Transaction → Option (Option Transaction)
  | [] => some none
  | tx :: txs => do
      let other ← tx.txId
      if other = txId then some (some tx) else findTxId txId txs

def transactionById (txId : Hash256) : ServiceM (Option Transaction) :=
  withRuntime fun runtime => findTxId txId runtime.pendingTransactions

def applyRemoteBlock (block : Block) : ServiceM UInt64 :=
  withRuntimeMut fun runtime =>
    let (result, runtime) := runtime.applyBlock block env.saves
    (Result.mapErr NodeError.display result, runtime)

def acceptTransaction (tx : Transaction) : ServiceM TransactionAcceptStatus :=
  withRuntimeMut fun runtime =>
    let (result, runtime) := runtime.acceptTransaction tx
    (Result.mapErr NodeError.display result, runtime)

end Chain

/-! ## Admission of peers -/

variable [WireCodec]

/-- Whether an interval has passed since the last time, if there was one. -/
def isDue (last : Option Instant) (time interval : Instant) : Bool :=
  match last with
  | none => true
  | some last => interval ≤ time - last

def sendLocalNodeInfo (source : SocketAddr) : ServiceM Unit := do
  let time ← now env
  updateSync fun sync => sync.infoSent source time
  let info ← localNodeInfo config
  sendWire env source (.nodeInfo info)

def requestNodeInfoExchange (source : SocketAddr) : ServiceM Unit := do
  let time ← now env
  updateSync fun sync => sync.seen source time
  let state ← sync
  if isDue (state.peerLastNodeInfoProbeAt.lookup source) time
      NODE_INFO_PROBE_MIN_INTERVAL then do
    updateSync fun sync => sync.probed source time
    let _ ← attempt (sendWire env source .presenceAnnounce)
    sendLocalNodeInfo config env source
  else return ()

def ensureCompatiblePeer (source : SocketAddr) : ServiceM Bool := do
  let state ← sync
  if source ∈ state.knownPeers then return true
  else
    match state.peerRejections.lookup source with
    | some rejection => fail rejection
    | none => do
        let _ ← attempt (requestNodeInfoExchange config env source)
        return false

/-- `if !self.ensure_compatible_peer(source)? { return Ok(()); }`. -/
def ifCompatible (source : SocketAddr) (handler : ServiceM Unit) :
    ServiceM Unit := do
  if ← ensureCompatiblePeer config env source then handler else return ()

def handlePresenceAnnounce (source : SocketAddr) : ServiceM Unit := do
  let time ← now env
  updateSync fun sync => sync.seen source time
  let state ← sync
  if source ∉ state.knownPeers ∨
      isDue (state.peerLastNodeInfoSentAt.lookup source) time
        NODE_INFO_RESPONSE_MIN_INTERVAL then
    sendLocalNodeInfo config env source
  else return ()

/-! ## Synchronization of blocks -/

def requestNextMissingBlock (source : SocketAddr) (remoteTipHeight : UInt64) :
    ServiceM Unit := do
  let localHeight ← currentHeight
  if remoteTipHeight ≤ localHeight then return ()
  else do
    let nextHeight := localHeight + 1
    let state ← sync
    if state.inFlightBlocks.lookup source = some nextHeight then return ()
    else do
      updateSync fun sync => sync.setInFlight source nextHeight
      sendWire env source (.blockRequest nextHeight)

def requestFollowUpBlock (source : SocketAddr) : ServiceM Unit := do
  let state ← sync
  requestNextMissingBlock env source
    ((state.peerTipHeights.lookup source).getD 0)

def handleTipRequest (source : SocketAddr) : ServiceM Unit :=
  ifCompatible config env source do
    let tip ← tipSnapshot
    sendWire env source (.tipResponse tip)

def handleTipResponse (source : SocketAddr) (tip : TipResponse) :
    ServiceM Unit :=
  ifCompatible config env source do
    updateSync fun sync => sync.setTip source tip.height
    requestNextMissingBlock env source tip.height

def handleBlockRequest (source : SocketAddr) (height : UInt64) :
    ServiceM Unit :=
  ifCompatible config env source do
    let block ← blockAtHeight height
    sendWire env source (.blockResponse height block)

section Handlers

variable [Blake3] [Bincode] [PqCrypto]

/-- The part of `handle_block_response` after the marker is removed. -/
def handleReceivedBlock (source : SocketAddr) (height : UInt64)
    (block : Option Block) : ServiceM Unit :=
  match block with
  | none => return ()
  | some block => do
      let localHeight ← currentHeight
      if height ≤ localHeight then requestFollowUpBlock env source
      else do
        match ← attempt (applyRemoteBlock env block) with
        | .ok _ => requestFollowUpBlock env source
        | .error _ => return ()

def handleBlockResponse (source : SocketAddr) (height : UInt64)
    (block : Option Block) : ServiceM Unit :=
  ifCompatible config env source do
    updateSync fun sync => sync.clearInFlight source
    handleReceivedBlock env source height block

def handleSubmitBlock (source : SocketAddr) (block : Block) : ServiceM Unit :=
  ifCompatible config env source do
    match ← attempt (applyRemoteBlock env block) with
    | .ok height =>
        sendWire env source
          (.submitBlockResponse ⟨true, height, "block accepted"⟩)
    | .error err => do
        let height ← currentHeight
        sendWire env source (.submitBlockResponse ⟨false, height, err⟩)

/-! ## Exchange of transactions -/

def shouldIgnoreBootstrapSendError (target : SocketAddr) (err : String) :
    Bool :=
  target.isMulticast &&
    ["No route to host", "Network is unreachable", "Host is unreachable"].any
      fun needle => needle.toList <:+: err.toList

def broadcastTransactionAnnounce (txId : Hash256) : ServiceM Unit :=
  config.bootstrapTargets.forM fun target => do
    match ← attempt (sendWire env target (.transactionAnnounce txId)) with
    | .ok () => return ()
    | .error err =>
        if shouldIgnoreBootstrapSendError target err then return ()
        else fail err

/-- Ask for a transaction unless the runtime has it. -/
def requestUnlessKnown (source : SocketAddr) (txId : Hash256) :
    ServiceM Unit := do
  if ← hasTransaction txId then return ()
  else sendWire env source (.transactionRequest txId)

def handleNodeInfo (source : SocketAddr) (info : NodeInfo) :
    ServiceM Unit := do
  let chainId ← currentChainId
  match ensureNodeInfoCompatible chainId info with
  | .error err => updateSync fun sync => sync.reject source err
  | .ok () => do
      let state ← sync
      let time ← now env
      updateSync fun sync => sync.accept source info time
      let pendingTxIds :=
        ((state.pendingTransactionAnnouncements.lookup source).map
          env.iterate).getD []
      pendingTxIds.forM (requestUnlessKnown env source)

def handleTransactionAnnounce (source : SocketAddr) (txId : Hash256) :
    ServiceM Unit := do
  if ← hasTransaction txId then return ()
  else do
    let state ← sync
    if source ∈ state.knownPeers then
      sendWire env source (.transactionRequest txId)
    else if source ∈ state.peerRejections then return ()
    else do
      updateSync fun sync => sync.announce source txId
      let _ ← attempt (requestNodeInfoExchange config env source)
      return ()

def handleTransactionRequest (source : SocketAddr) (txId : Hash256) :
    ServiceM Unit :=
  ifCompatible config env source do
    let transaction ← transactionById txId
    sendWire env source (.transactionResponse txId transaction)

def handleTransactionResponse (source : SocketAddr) (txId : Hash256)
    (transaction : Option Transaction) : ServiceM Unit :=
  ifCompatible config env source do
    match transaction with
    | none => return ()
    | some transaction => do
        let received ← lift (Result.orPanic transaction.txId)
        if received ≠ txId then
          fail ("peer " ++ source.display ++
            " sent mismatched transaction payload for " ++ toHex txId.bytes)
        else do
          match ← acceptTransaction transaction with
          | .acceptedNew acceptedTxId =>
              broadcastTransactionAnnounce config env acceptedTxId
          | .alreadyPending _ => return ()

/-- The answer to a submitted transaction, and the id to announce. -/
def submitResponse (txId : Hash256) :
    Except String TransactionAcceptStatus →
      SubmitTransactionResponse × Option Hash256
  | .ok (.acceptedNew acceptedTxId) =>
      (⟨true, toHex acceptedTxId.bytes,
        "transaction accepted into mempool"⟩, some acceptedTxId)
  | .ok (.alreadyPending existingTxId) =>
      (⟨true, toHex existingTxId.bytes, "transaction already pending"⟩, none)
  | .error err => (⟨false, toHex txId.bytes, err⟩, none)

def handleSubmittedTransaction (source : SocketAddr)
    (transaction : Transaction) : ServiceM Unit := do
  let txId ← lift (Result.orPanic transaction.txId)
  let status ← attempt (acceptTransaction transaction)
  sendWire env source
    (.submitTransactionResponse (submitResponse txId status).1)
  match (submitResponse txId status).2 with
  | none => return ()
  | some txId => do
      let _ ← attempt (broadcastTransactionAnnounce config env txId)
      return ()

/-! ## Frames -/

def handleMessage (source : SocketAddr) : WireMessage → ServiceM Unit
  | .presenceAnnounce => handlePresenceAnnounce config env source
  | .nodeInfo info => handleNodeInfo env source info
  | .tipRequest => handleTipRequest config env source
  | .tipResponse tip => handleTipResponse config env source tip
  | .blockRequest height => handleBlockRequest config env source height
  | .blockResponse height block =>
      handleBlockResponse config env source height block
  | .submitBlock block => handleSubmitBlock config env source block
  | .submitBlockResponse _ => return ()
  | .transactionAnnounce txId =>
      handleTransactionAnnounce config env source txId
  | .transactionRequest txId => handleTransactionRequest config env source txId
  | .transactionResponse txId transaction =>
      handleTransactionResponse config env source txId transaction
  | .submitTransaction transaction =>
      handleSubmittedTransaction config env source transaction
  | .submitTransactionResponse _ => return ()

def handleFrame (source : SocketAddr) (frame : Bytes) : ServiceM Unit :=
  if source ∈ config.localAddrs then return ()
  else
    match WireMessage.decode frame with
    | .error _ => return ()
    | .ok message => handleMessage config env source message

end Handlers

end Service

end QCoin
