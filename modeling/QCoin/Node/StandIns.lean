import QCoin.Consensus.StandIns
import QCoin.Node.Service

/-!
# A stand-in node

A JSON codec which keeps values as they are, a node of a stand-in validator
whose files do not exist yet, and the `bincode` format of the wire messages
which carry neither blocks nor transactions.
-/

namespace QCoin.StandIns

open Support

inductive JsonText where
  | empty
  | snapshot (state : PersistedChainState)
  | blocks (history : List Block)

scoped instance serdeJson : SerdeJson where
  Text := JsonText
  emptyText := .empty
  snapshotToString state := .ok (.snapshot state)
  snapshotFromStr
    | .snapshot state => .ok state
    | _ => .error "not a snapshot"
  legacySnapshotFromStr _ := .error "not a legacy snapshot"
  blocksToString history := .ok (.blocks history)
  blocksFromStr
    | .blocks history => .ok history
    | _ => .error "not a block history"

def nodeConfig (n : UInt8) (validators : List PublicKey) : NodeConfig where
  statePath := ⟨"data/", some "qcoin-chain-state.json"⟩
  blocksPath :=
    blocksPathFromStatePath ⟨"data/", some "qcoin-chain-state.json"⟩
  chainId := 0
  publicKey := validatorKey n
  privateKey := validatorSecret n
  validators := validators
  produceEmptyBlocks := true

def nodeEngine (n : UInt8) (validators : List PublicKey) :
    DummyConsensusEngine where
  registry := defaultRegistry
  signingScheme := .dilithium2
  signingKey := validatorSecret n
  publicKey := validatorKey n
  validators := if validators = [] then [validatorKey n] else validators

def freshRuntime (n : UInt8) (validators : List PublicKey) : NodeRuntime where
  chain := defaultChainStateWithId 0
  blocks := []
  pendingTransactions := []
  consensus := nodeEngine n validators
  scriptEngine := VmConfig.default
  statePath := (nodeConfig n validators).statePath
  blocksPath := (nodeConfig n validators).blocksPath
  produceEmptyBlocks := true

theorem runtime_fresh (n : UInt8) (validators : List PublicKey) :
    (nodeConfig n validators).runtime (defaultChainStateWithId 0) [] =
      .ok (freshRuntime n validators) := rfl

theorem start_fresh (n : UInt8) (validators : List PublicKey) :
    (nodeConfig n validators).start .notFound .notFound (.ok ()) =
      .ok (freshRuntime n validators) := rfl

/-! ## The first block -/

def savesOk : SaveOutcomes := ⟨.ok (), .ok ()⟩

def firstCall (n : UInt8) : NodeRuntime.Call :=
  .applyBlock (emptyBlock n) savesOk

/-- Node `n` accepts the first block of validator `m` if it is `m`'s turn. -/
theorem prepare_firstBlock (n m : UInt8) (validators : List PublicKey)
    (hproposer : expectedProposerForValidators
      (nodeEngine n validators).validators 1 = .ok (validatorKey m)) :
    (freshRuntime n validators).prepareBlock (emptyBlock m) =
      .ok (emptyBlockChain, [emptyBlock m]) :=
  NodeRuntime.prepareBlock_eq_ok.mpr
    ⟨emptyBlock_valid m _ fun _ => hproposer, emptyBlock_applies m, rfl⟩

theorem applyBlock_firstBlock (n m : UInt8) (validators : List PublicKey)
    (hproposer : expectedProposerForValidators
      (nodeEngine n validators).validators 1 = .ok (validatorKey m)) :
    (freshRuntime n validators).applyBlock (emptyBlock m) savesOk =
      (.ok 1, (freshRuntime n validators).advance emptyBlockChain
        [emptyBlock m]) := by
  rw [NodeRuntime.applyBlock, NodeRuntime.prepareAndSave,
    prepare_firstBlock n m validators hproposer]
  rfl

theorem performAll_firstCall (n m : UInt8) (validators : List PublicKey)
    (hproposer : expectedProposerForValidators
      (nodeEngine n validators).validators 1 = .ok (validatorKey m)) :
    (freshRuntime n validators).performAll [firstCall m] =
      (freshRuntime n validators).advance emptyBlockChain [emptyBlock m] := by
  rw [NodeRuntime.performAll, List.foldl_cons, List.foldl_nil, firstCall,
    NodeRuntime.perform, applyBlock_firstBlock n m validators hproposer]

/-! ## Wire messages -/

/-- ASCII text behind its 64-bit length. -/
def encodeText (text : String) : Bytes :=
  leBytes 8 text.length ++ asciiBytes text

def decodeText : Decoder String := fun bytes => do
  let (text, bytes) ← decodeBytes bytes
  some (String.ofList (text.map fun b => Char.ofNat b.toNat), bytes)

def decodeTexts : ℕ → Decoder (List String)
  | 0 => fun bytes => some ([], bytes)
  | n + 1 => fun bytes => do
      let (text, bytes) ← decodeText bytes
      let (texts, bytes) ← decodeTexts n bytes
      some (text :: texts, bytes)

def encodeNodeInfo (info : NodeInfo) : Bytes :=
  leBytes 2 info.wireVersion.toNat ++
    leBytes 2 info.minCompatibleWireVersion.toNat ++
    encodeText info.softwareVersion ++ leBytes 4 info.chainId.toNat ++
    encodeText info.nodePublicKeyHex ++ leBytes 8 info.capabilities.length ++
    info.capabilities.flatMap encodeText

def decodeNodeInfo : Decoder NodeInfo := fun bytes => do
  let (wireVersion, bytes) ← decodeNat 2 bytes
  let (minVersion, bytes) ← decodeNat 2 bytes
  let (softwareVersion, bytes) ← decodeText bytes
  let (chainId, bytes) ← decodeNat 4 bytes
  let (publicKeyHex, bytes) ← decodeText bytes
  let (count, bytes) ← decodeNat 8 bytes
  -- Every text takes at least eight bytes.
  if count ≤ bytes.length then
    let (capabilities, bytes) ← decodeTexts count bytes
    some (⟨UInt16.ofNat wireVersion, UInt16.ofNat minVersion,
      softwareVersion, UInt32.ofNat chainId, publicKeyHex, capabilities⟩,
      bytes)
  else none

def encodeTip (tip : TipResponse) : Bytes :=
  leBytes 8 tip.height.toNat ++ encodeText tip.tipHashHex ++
    encodeText tip.stateRootHex ++ leBytes 8 tip.lastTimestamp.toNat

def decodeTip : Decoder TipResponse := fun bytes => do
  let (height, bytes) ← decodeNat 8 bytes
  let (tipHashHex, bytes) ← decodeText bytes
  let (stateRootHex, bytes) ← decodeText bytes
  let (lastTimestamp, bytes) ← decodeNat 8 bytes
  some (⟨UInt64.ofNat height, tipHashHex, stateRootHex,
    UInt64.ofNat lastTimestamp⟩, bytes)

/-- A message behind its 32-bit variant number. -/
def decodeWireMessage (bytes : Bytes) : Option WireMessage := do
  let (variant, bytes) ← decodeNat 4 bytes
  match variant with
  | 0 => some .presenceAnnounce
  | 1 => do
      let (info, _) ← decodeNodeInfo bytes
      some (.nodeInfo info)
  | 2 => some .tipRequest
  | 3 => do
      let (tip, _) ← decodeTip bytes
      some (.tipResponse tip)
  | 4 => do
      let (height, _) ← decodeNat 8 bytes
      some (.blockRequest (UInt64.ofNat height))
  | _ => none

scoped instance wireCodec : WireCodec where
  serialize
    | .presenceAnnounce => .ok (leBytes 4 0)
    | .nodeInfo info => .ok (leBytes 4 1 ++ encodeNodeInfo info)
    | .tipRequest => .ok (leBytes 4 2)
    | .tipResponse tip => .ok (leBytes 4 3 ++ encodeTip tip)
    | .blockRequest height => .ok (leBytes 4 4 ++ leBytes 8 height.toNat)
    | _ => .error "left out"
  deserialize bytes :=
    match decodeWireMessage bytes with
    | some message => .ok message
    | none => .error "invalid wire message"

/-- The codec on messages whose payloads are listed. -/
@[reducible]
def tableCodec (table : List (WireMessage × Bytes)) : WireCodec where
  serialize message :=
    match table.find? fun entry => entry.1 = message with
    | some entry => .ok entry.2
    | none => .error "left out"
  deserialize payload :=
    match table.find? fun entry => entry.2 = payload with
    | some entry => .ok entry.1
    | none => .error "invalid wire message"

theorem tableCodec_roundTrips {table : List (WireMessage × Bytes)}
    (h : (table.map Prod.snd).Nodup) :
    @WireCodec.RoundTrips (tableCodec table) := by
  intro message payload hserialize
  simp only [WireCodec.serialize, WireCodec.deserialize] at hserialize ⊢
  split at hserialize
  · rename_i entry hentry
    obtain rfl := Except.ok.inj hserialize
    have hmessage : entry.1 = message := by
      simpa using List.find?_some hentry
    split
    · rename_i found hfound
      have hpayload : found.2 = entry.2 := by
        simpa using List.find?_some hfound
      have hsame := List.inj_on_of_nodup_map h
        (List.mem_of_find?_eq_some hfound)
        (List.mem_of_find?_eq_some hentry) hpayload
      rw [hsame, hmessage]
    · rename_i hnone
      have hmissing := List.find?_eq_none.mp hnone entry
        (List.mem_of_find?_eq_some hentry)
      simp at hmissing
  · cases hserialize

/-- Nothing else is read from a frame. -/
theorem mem_of_decode_tableCodec {table : List (WireMessage × Bytes)}
    {frame : Bytes} {message : WireMessage}
    (h : @WireMessage.decode (tableCodec table) frame = .ok message) :
    message ∈ table.map Prod.fst := by
  unfold WireMessage.decode at h
  split at h
  · cases h
  · split at h
    · cases h
    · simp only [WireCodec.deserialize] at h
      split at h
      · rename_i entry hentry
        rw [← Except.ok.inj h]
        exact List.mem_map_of_mem (List.mem_of_find?_eq_some hentry)
      · cases h

/-! ## A peer -/

def peerAddr : SocketAddr := .v4 0x7f000001 9800

def plainConfig : ServiceConfig where
  bootstrapTargets := []
  localAddrs := ∅
  multicastEnabled := false
  produceEnabled := false
  nodePublicKeyHex := ""
  nodeIsValidator := true

/-- Every send and every save succeeds. -/
def workingEnvironment : Environment where
  clock _ := 0
  network _ := .ok ()
  saves := savesOk
  iterate := sortedList
  mem_iterate _ _ := mem_sortedList

def peerInfo : NodeInfo := QCoin.localNodeInfo 0 false "" true false

def infoFrame : Bytes :=
  QCOIN_WIRE_MAGIC ++ (leBytes 4 1 ++ encodeNodeInfo peerInfo)

def announceFrame : Bytes :=
  QCOIN_WIRE_MAGIC ++ leBytes 4 0

theorem decode_announceFrame :
    WireMessage.decode announceFrame = .ok .presenceAnnounce := rfl

end QCoin.StandIns
