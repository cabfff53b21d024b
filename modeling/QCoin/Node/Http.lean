import Mathlib.Data.List.TakeWhile
import QCoin.Node.Effects
import QCoin.Node.Replay
import QCoin.Support.Text

/-!
# Serving blocks

`handle_request` of `qcoin-node`, the HTTP adapter of a node, next to the
answers to UDP block requests.  Both turn a height into an index of the block
history, each in its own way.
-/

namespace QCoin

open Support
open Support.Result

/-! ## The HTTP adapter -/

/-- The codec which `serde` derives for `Block` and `bincode` runs. -/
class BlockCodec where
  Payload : Type
  serialize : Block → Except String Payload
  deserialize : Payload → Except String Block

/-- What is encoded is read back. -/
def BlockCodec.RoundTrips [BlockCodec] : Prop :=
  ∀ {block payload}, BlockCodec.serialize block = .ok payload →
    BlockCodec.deserialize payload = .ok block

def BlockCodec.Encodable [BlockCodec] (block : Block) : Prop :=
  ∃ payload, BlockCodec.serialize block = .ok payload

/-- The key and the signature are encoded in their byte format, and nothing
else in a block can fail. -/
def BlockCodec.Encodes [PqCrypto] [BlockCodec] : Prop :=
  ∀ {block key sealed}, block.proposerPublicKey.toBytes = .ok key →
    block.signature.toBytes = .ok sealed → BlockCodec.Encodable block

/-- What serving blocks takes of the codec and of `pqcrypto`. -/
structure BlockCodec.Faithful [PqCrypto] [BlockCodec] : Prop where
  roundTrips : BlockCodec.RoundTrips
  encodes : BlockCodec.Encodes
  sizes : PqCrypto.ChecksSizes

inductive HttpMethod where
  | get
  | post
  | other
deriving DecidableEq

/-! ## A height in a url -/

def blockUrl (height : UInt64) : String :=
  "/blocks/" ++ toString height

theorem trim_blockUrl (height : UInt64) :
    trimStartMatches "/blocks/".toList
        ("/blocks/".toList ++ (toString height).toList) =
      (toString height).toList := by
  apply trimStartMatches_append (by decide)
  intro h
  have hslash : '/' ∈ (toString height).toList := h.subset (by decide)
  exact ne_of_mem_toString hslash (by decide) rfl

section Http

variable [BlockCodec]

structure HttpRequest where
  method : HttpMethod
  url : String
  /-- What reading the body to its end gives. -/
  body : Except String BlockCodec.Payload

/-- The url up to its query. -/
def HttpRequest.path (request : HttpRequest) : List Char :=
  request.url.toList.takeWhile fun c => c ≠ '?'

theorem path_blockUrl (height : UInt64)
    (body : Except String BlockCodec.Payload) :
    HttpRequest.path ⟨.get, blockUrl height, body⟩ =
      "/blocks/".toList ++ (toString height).toList := by
  rw [HttpRequest.path, blockUrl, String.toList_append,
    List.takeWhile_eq_self_iff]
  have hroute : '?' ∉ "/blocks/".toList := by decide
  intro c hc
  rcases List.mem_append.mp hc with hpattern | hdigit
  · exact decide_eq_true fun heq => hroute (heq ▸ hpattern)
  · have hne : c ≠ '?' := ne_of_mem_toString hdigit (by decide)
    exact decide_eq_true hne

/-- The first three are sent as JSON. -/
inductive HttpBody where
  | nodeInfo (info : NodeInfo)
  | tip (tip : TipResponse)
  | submitBlock (response : SubmitBlockResponse)
  | text (message : String)
  | binary (payload : BlockCodec.Payload)

structure HttpResponse where
  status : ℕ
  body : HttpBody

/-- The response once the height is known. -/
def blockResponse : Option Block → HttpResponse
  | some block =>
      match BlockCodec.serialize block with
      | .ok payload => ⟨200, .binary payload⟩
      | .error err => ⟨500, .text ("failed to encode block: " ++ err)⟩
  | none => ⟨404, .text "block not found"⟩

/-- `GET /blocks/{height}`. -/
def NodeRuntime.getBlock (runtime : NodeRuntime) (path : List Char) :
    HttpResponse :=
  match (parseU64 (trimStartMatches "/blocks/".toList path)).filter
      fun height => 0 < height with
  | none => ⟨400, .text "height must be >= 1"⟩
  | some height => blockResponse runtime.blocks[(height - 1).toNat]?

/-- The answer to a height which is not zero. -/
theorem NodeRuntime.getBlock_blockUrl (runtime : NodeRuntime)
    {height : UInt64} (hne : height ≠ 0) :
    runtime.getBlock ("/blocks/".toList ++ (toString height).toList) =
      blockResponse runtime.blocks[height.toNat - 1]? := by
  have hpos : 0 < height := UInt64.pos_iff_ne_zero.mpr hne
  have hone : (1 : UInt64) ≤ height := by
    rw [UInt64.le_iff_toNat_le]
    exact UInt64.lt_iff_toNat_lt.mp hpos
  have hindex : (height - 1).toNat = height.toNat - 1 :=
    UInt64.toNat_sub_of_le _ _ hone
  rw [getBlock, trim_blockUrl, parseU64_toString,
    Option.filter_some_pos (by simpa using hpos)]
  dsimp only
  rw [hindex]

theorem NodeRuntime.getBlock_zero (runtime : NodeRuntime) :
    runtime.getBlock ("/blocks/".toList ++ (toString (0 : UInt64)).toList) =
      ⟨400, .text "height must be >= 1"⟩ := by
  rw [getBlock, trim_blockUrl, parseU64_toString]
  rfl

variable [Blake3] [Bincode] [PqCrypto]

/-- `POST /blocks`.  There is no response when the call panics. -/
def NodeRuntime.postBlock (runtime : NodeRuntime) (saves : SaveOutcomes)
    (body : Except String BlockCodec.Payload) :
    Option HttpResponse × NodeRuntime :=
  match body with
  | .error err =>
      (some ⟨400, .text ("failed to read request body: " ++ err)⟩, runtime)
  | .ok payload =>
      match BlockCodec.deserialize payload with
      | .error err =>
          (some ⟨400, .text ("invalid block bincode payload: " ++ err)⟩,
            runtime)
      | .ok block =>
          match runtime.applyBlock block saves with
          | (.ok height, runtime) =>
              (some ⟨200, .submitBlock ⟨true, height, "block accepted"⟩⟩,
                runtime)
          | (.error (.err err), runtime) =>
              (some ⟨409, .submitBlock
                ⟨false, runtime.chain.height, err.display⟩⟩, runtime)
          | (.error .panic, runtime) => (none, runtime)

def NodeRuntime.handleRequest (runtime : NodeRuntime) (nodeInfo : NodeInfo)
    (saves : SaveOutcomes) (request : HttpRequest) :
    Option HttpResponse × NodeRuntime :=
  if request.method = .get ∧ request.path = "/node-info".toList then
    (some ⟨200, .nodeInfo nodeInfo⟩, runtime)
  else if request.method = .get ∧ request.path = "/tip".toList then
    (some ⟨200, .tip runtime.tipResponse⟩, runtime)
  else if request.method = .get ∧ "/blocks/".toList <+: request.path then
    (some (runtime.getBlock request.path), runtime)
  else if request.method = .post ∧ request.path = "/blocks".toList then
    runtime.postBlock saves request.body
  else (some ⟨404, .text "not found"⟩, runtime)

end Http

/-! ## Both answers -/

section Serving

variable [Blake3] [Bincode] [PqCrypto] [WireCodec] [BlockCodec]

namespace NodeRuntime

/-- The answer is the block of the height if the chain reaches it, and no
block otherwise. -/
structure HeldAt (runtime : NodeRuntime) (height : UInt64)
    (answer : Option Block) : Prop where
  reached : answer.isSome = true ↔
    1 ≤ height ∧ height ≤ runtime.chain.height
  ofHeight : ∀ block, answer = some block ↔
    block ∈ runtime.blocks ∧ block.header.height = height

/-- What a known peer is sent for a block request. -/
def AnswersUdp (runtime : NodeRuntime) (height : UInt64)
    (answer : Option Block) : Prop :=
  ∀ (config : ServiceConfig) (env : Environment) (source : SocketAddr)
    (sync : SyncState), source ∈ sync.knownPeers →
    ((Service.handleMessage config env source (.blockRequest height)).after
      (Session.start ⟨runtime, false, sync⟩)).sent.map Transmission.message =
        [.blockResponse height answer]

/-- What a client reads from the response to `GET /blocks/{height}`. -/
def AnswersHttp (runtime : NodeRuntime) (height : UInt64)
    (answer : Option Block) : Prop :=
  ∀ nodeInfo saves body, ∃ response,
    (runtime.handleRequest nodeInfo saves
      ⟨.get, blockUrl height, body⟩).1 = some response ∧
    match answer with
    | some block => ∃ payload, response = ⟨200, .binary payload⟩ ∧
        BlockCodec.deserialize payload = .ok block
    | none => ∃ status message, (status = 400 ∨ status = 404) ∧
        response = ⟨status, .text message⟩

/-- Both paths serve the block of the height, or no block when there is
none. -/
def ServesBlock (runtime : NodeRuntime) (height : UInt64) : Prop :=
  ∃ answer, runtime.HeldAt height answer ∧
    runtime.AnswersUdp height answer ∧ runtime.AnswersHttp height answer

variable {runtime : NodeRuntime} {height : UInt64} {answer : Option Block}

omit [BlockCodec] in
theorem answersUdp_iff : runtime.AnswersUdp height answer ↔
    answer = runtime.blocks[height.toNat - 1]? := by
  have hanswer : ∀ (config : ServiceConfig) (env : Environment)
      (source : SocketAddr) (sync : SyncState), source ∈ sync.knownPeers →
      ((Service.handleMessage config env source
        (.blockRequest height)).after
          (Session.start ⟨runtime, false, sync⟩)).sent.map
            Transmission.message =
        [.blockResponse height runtime.blocks[height.toNat - 1]?] := by
    intro config env source sync hknown
    rw [Service.handleMessage, Service.handleBlockRequest, Stateful.after,
      Service.ifCompatible_of_known hknown, Service.blockAtHeight,
      Stateful.exec_bind, Service.withRuntime_exec]
    rfl
  constructor
  · intro h
    have hknown : StandIns.peerAddr ∈ (SyncState.new.accept StandIns.peerAddr
        StandIns.peerInfo 0).knownPeers := Finset.mem_insert_self _ _
    have hsame := (h StandIns.plainConfig StandIns.workingEnvironment _ _
      hknown).symm.trans (hanswer _ _ _ _ hknown)
    rw [List.cons.injEq, WireMessage.blockResponse.injEq] at hsame
    exact hsame.1.2
  · rintro rfl
    exact hanswer

omit [WireCodec] in
theorem handleRequest_blockUrl (nodeInfo : NodeInfo) (saves : SaveOutcomes)
    (body : Except String BlockCodec.Payload) :
    (runtime.handleRequest nodeInfo saves
      ⟨.get, blockUrl height, body⟩).1 =
        some (runtime.getBlock
          ("/blocks/".toList ++ (toString height).toList)) := by
  have hroute : "/blocks/".toList <+:
      "/blocks/".toList ++ (toString height).toList :=
    List.prefix_append _ _
  have hother : ∀ route : List Char, ¬"/blocks/".toList <+: route →
      "/blocks/".toList ++ (toString height).toList ≠ route := by
    rintro route hnot rfl
    exact hnot hroute
  rw [handleRequest, path_blockUrl,
    if_neg fun h => hother "/node-info".toList (by decide) h.2,
    if_neg fun h => hother "/tip".toList (by decide) h.2,
    if_pos ⟨rfl, hroute⟩]

omit [WireCodec] in
theorem answersHttp_of_ne_zero (hcodec : BlockCodec.RoundTrips)
    (hencodable : ∀ block ∈ runtime.blocks, BlockCodec.Encodable block)
    (hne : height ≠ 0) :
    runtime.AnswersHttp height runtime.blocks[height.toNat - 1]? := by
  intro nodeInfo saves body
  refine ⟨_, handleRequest_blockUrl nodeInfo saves body, ?_⟩
  rw [getBlock_blockUrl runtime hne]
  cases hblock : runtime.blocks[height.toNat - 1]? with
  | none => exact ⟨404, "block not found", Or.inr rfl, rfl⟩
  | some block =>
      obtain ⟨payload, hpayload⟩ :=
        hencodable block (List.mem_of_getElem? hblock)
      refine ⟨payload, ?_, hcodec hpayload⟩
      rw [blockResponse, hpayload]

omit [WireCodec] in
theorem answersHttp_zero : runtime.AnswersHttp 0 none := by
  intro nodeInfo saves body
  refine ⟨_, handleRequest_blockUrl nodeInfo saves body, ?_⟩
  rw [getBlock_zero]
  exact ⟨400, "height must be >= 1", Or.inl rfl, rfl⟩

end NodeRuntime

/-! ## Heights and positions -/

section Positions

variable {config : NodeConfig} {runtime : NodeRuntime}

omit [WireCodec] [BlockCodec] in
theorem Replayable.length_blocks (h : Replayable config runtime) :
    runtime.blocks.length = runtime.chain.height.toNat := by
  obtain ⟨steps, haccepted⟩ := AcceptedChain.of_rebuild h.rebuilt
  rw [haccepted.height_eq_length.1, List.length_reverse]

omit [WireCodec] [BlockCodec] in
/-- Blocks stand at the position before their height. -/
theorem Replayable.heldAt (h : Replayable config runtime) {height : UInt64}
    (hne : height ≠ 0) :
    runtime.HeldAt height runtime.blocks[height.toNat - 1]? := by
  have hpos : 0 < height.toNat :=
    UInt64.lt_iff_toNat_lt.mp (UInt64.pos_iff_ne_zero.mpr hne)
  have hone : (1 : UInt64).toNat = 1 := rfl
  constructor
  · rw [Option.isSome_iff_ne_none, ne_eq, List.getElem?_eq_none_iff,
      h.length_blocks, UInt64.le_iff_toNat_le, UInt64.le_iff_toNat_le, hone]
    omega
  · intro block
    constructor
    · intro hblock
      have hheight := (linkedBlock_of_rebuild h.rebuilt hblock).height
      refine ⟨List.mem_of_getElem? hblock, UInt64.toNat_inj.mp ?_⟩
      omega
    · rintro ⟨hmem, rfl⟩
      obtain ⟨i, hblock⟩ := List.mem_iff_getElem?.mp hmem
      have hheight := (linkedBlock_of_rebuild h.rebuilt hblock).height
      rw [hheight, Nat.add_sub_cancel, hblock]

omit [WireCodec] in
/-- The blocks of a node can be encoded: their signatures were verified. -/
theorem Replayable.encodable (h : Replayable config runtime)
    (hcodec : BlockCodec.Faithful) {block : Block}
    (hmem : block ∈ runtime.blocks) : BlockCodec.Encodable block := by
  obtain ⟨scheme, hscheme, hverify⟩ :=
    verifyHeader_eq_ok.mp (signed_of_rebuild h.rebuilt hmem)
  obtain ⟨key, sealed, hkey, hsealed⟩ :=
    toBytes_of_verify hcodec.sizes hscheme hverify
  exact hcodec.encodes hkey hsealed

omit [WireCodec] in
theorem Replayable.answersHttp (h : Replayable config runtime)
    (hcodec : BlockCodec.Faithful) {height : UInt64} (hne : height ≠ 0) :
    runtime.AnswersHttp height runtime.blocks[height.toNat - 1]? :=
  NodeRuntime.answersHttp_of_ne_zero hcodec.roundTrips
    (fun _ hmem => h.encodable hcodec hmem) hne

/-- UDP requests for height zero are answered with the first block. -/
theorem Replayable.servesBlock_iff (h : Replayable config runtime)
    (hcodec : BlockCodec.Faithful) {height : UInt64} :
    runtime.ServesBlock height ↔
      (height = 0 → runtime.chain.height = 0) := by
  by_cases hzero : height = 0
  · subst hzero
    constructor
    · rintro ⟨answer, hheld, hudp, -⟩ -
      rw [NodeRuntime.answersUdp_iff] at hudp
      have hnone : ¬answer.isSome = true := fun hsome =>
        absurd (hheld.reached.mp hsome).1 (by decide)
      rw [hudp, Option.not_isSome_iff_eq_none, List.getElem?_eq_none_iff,
        h.length_blocks] at hnone
      exact UInt64.toNat_inj.mp (Nat.le_zero.mp hnone)
    · intro hempty
      have hblocks : runtime.blocks = [] := by
        rw [← List.length_eq_zero_iff, h.length_blocks, hempty rfl]
        rfl
      refine ⟨none, ⟨by simp, by simp [hblocks]⟩, ?_,
        NodeRuntime.answersHttp_zero⟩
      rw [NodeRuntime.answersUdp_iff, hblocks]
      rfl
  · exact ⟨fun _ hz => absurd hz hzero, fun _ =>
      ⟨_, h.heldAt hzero, NodeRuntime.answersUdp_iff.mpr rfl,
        h.answersHttp hcodec hzero⟩⟩

/-- Throughout every run of a node both paths serve the same blocks, except
for height zero on a chain which has blocks. -/
theorem blockServing_agrees_iff [SerdeJson]
    {stateFile blocksFile : FileRead SerdeJson.Text}
    {save : Except String Unit} {start : NodeRuntime}
    (hcodec : BlockCodec.Faithful)
    (hstart : config.start stateFile blocksFile save = .ok start)
    (calls : List NodeRuntime.Call) (height : UInt64) :
    (start.performAll calls).ServesBlock height ↔
      (height = 0 → (start.performAll calls).chain.height = 0) := by
  exact ((NodeConfig.start_replayable hstart).performAll calls).servesBlock_iff
    hcodec

end Positions

end Serving

/-! ## A chain of one block -/

namespace StandIns

/-- A codec of blocks which keeps values as they are. -/
scoped instance blockCodec : BlockCodec where
  Payload := Block
  serialize := .ok
  deserialize := .ok

theorem blockCodec_faithful : BlockCodec.Faithful where
  roundTrips h := h.symm
  encodes := fun _ _ => ⟨_, rfl⟩
  sizes := pqCrypto_checksSizes

end StandIns

section FirstBlock

open scoped StandIns

/-- The node of a single validator after its first block. -/
def firstBlockNode : NodeRuntime :=
  (StandIns.freshRuntime 1 []).performAll [StandIns.firstCall 1]

theorem firstBlockNode_chain : firstBlockNode.chain =
    StandIns.emptyBlockChain :=
  congrArg NodeRuntime.chain (StandIns.performAll_firstCall 1 1 [] rfl)

theorem firstBlockNode_serves_one : firstBlockNode.ServesBlock 1 :=
  (blockServing_agrees_iff StandIns.blockCodec_faithful
    (StandIns.start_fresh 1 []) [StandIns.firstCall 1] 1).mpr
      fun h => absurd h (by decide)

/-- Asked for height zero, the two paths part. -/
theorem firstBlockNode_parts_at_zero :
    (StandIns.nodeConfig 1 []).start .notFound .notFound (.ok ()) =
        .ok (StandIns.freshRuntime 1 []) ∧
      ¬firstBlockNode.ServesBlock 0 := by
  refine ⟨StandIns.start_fresh 1 [], ?_⟩
  have hreplayable : Replayable (StandIns.nodeConfig 1 []) firstBlockNode :=
    (NodeConfig.start_replayable (StandIns.start_fresh 1 [])).performAll _
  rw [hreplayable.servesBlock_iff StandIns.blockCodec_faithful,
    firstBlockNode_chain]
  intro h
  exact absurd (h rfl) (by decide)

end FirstBlock

end QCoin
