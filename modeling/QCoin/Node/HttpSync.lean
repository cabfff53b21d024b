import QCoin.Node.Contents
import QCoin.Node.Following

/-!
# Sync over HTTP

`sync_all_peers_http` of `qcoin-node`, which a node started with `--once` runs
before it produces.  The peers are arbitrary: they answer every request as they
like.  Whatever they answer, a sync is a run of `apply_block` calls, and one
peer which serves the chain is enough to catch up with it.
-/

namespace QCoin

open Support
open Support.Result

/-! ## The client -/

/-- How a request of the HTTP client ends. -/
inductive Fetched (α : Type) where
  /-- There is no response, or its status is 400 or above. -/
  | callFailed (err : String)
  | bodyFailed (err : String)
  | body (value : α)

inductive HttpSyncError where
  | nodeInfoRequest (err : String)
  | nodeInfoParse (err : String)
  | incompatible (err : String)
  | tipRequest (err : String)
  | tipParse (err : String)
  | blockFetch (height : UInt64) (err : String)
  | blockRead (height : UInt64) (err : String)
  | blockParse (height : UInt64) (err : String)
  | apply (err : NodeError)

def HttpSyncError.display : HttpSyncError → String
  | .nodeInfoRequest err => "node-info request failed: " ++ err
  | .nodeInfoParse err => "node-info parse failed: " ++ err
  | .incompatible err => err
  | .tipRequest err => "tip request failed: " ++ err
  | .tipParse err => "tip parse failed: " ++ err
  | .blockFetch height err =>
      "block fetch failed at " ++ toString height ++ ": " ++ err
  | .blockRead height err =>
      "block read failed at " ++ toString height ++ ": " ++ err
  | .blockParse height err =>
      "block parse failed at " ++ toString height ++ ": " ++ err
  | .apply err => err.display

def Fetched.get {α : Type} (call body : String → HttpSyncError) :
    Fetched α → Result HttpSyncError α
  | .callFailed err => .error (.err (call err))
  | .bodyFailed err => .error (.err (body err))
  | .body value => .ok value

theorem Fetched.get_eq_ok {α : Type} {call body : String → HttpSyncError}
    {fetched : Fetched α} {value : α} :
    fetched.get call body = .ok value ↔ fetched = .body value := by
  cases fetched <;> simp [Fetched.get]

section Client

variable [BlockCodec]

/-- A peer by its answers to requests for a url, and the ways in which the
saves of the blocks it serves end. -/
structure HttpPeer where
  peer : String
  nodeInfo : String → Fetched NodeInfo
  tip : String → Fetched TipResponse
  block : String → Fetched BlockCodec.Payload
  saves : UInt64 → SaveOutcomes

namespace HttpPeer

/-- `peer.trim_end_matches('/')`. -/
def base (peer : HttpPeer) : String :=
  String.ofList (peer.peer.toList.rdropWhile (· = '/'))

/-- The height of the tip which a compatible peer reports. -/
def tipHeight (peer : HttpPeer) (localChainId : UInt32) :
    Result HttpSyncError UInt64 := do
  let remoteNodeInfo ← (peer.nodeInfo (peer.base ++ "/node-info")).get
    .nodeInfoRequest .nodeInfoParse
  match ensureNodeInfoCompatible localChainId remoteNodeInfo with
  | .error err => .error (.err (.incompatible err))
  | .ok () =>
      let tip ← (peer.tip (peer.base ++ "/tip")).get .tipRequest .tipParse
      return tip.height

def fetchBlock (peer : HttpPeer) (height : UInt64) :
    Result HttpSyncError Block := do
  let blockBytes ← (peer.block (peer.base ++ blockUrl height)).get
    (.blockFetch height) (.blockRead height)
  match BlockCodec.deserialize blockBytes with
  | .error err => .error (.err (.blockParse height err))
  | .ok block => return block

theorem fetchBlock_eq_ok {peer : HttpPeer} {height : UInt64} {block : Block} :
    peer.fetchBlock height = .ok block ↔
      ∃ payload, peer.block (peer.base ++ blockUrl height) = .body payload ∧
        BlockCodec.deserialize payload = .ok block := by
  simp only [fetchBlock, bind_eq_ok, Fetched.get_eq_ok]
  refine exists_congr fun payload => and_congr_right fun _ => ?_
  cases BlockCodec.deserialize payload <;> simp

theorem fetchBlock_ne_panic (peer : HttpPeer) (height : UInt64) :
    peer.fetchBlock height ≠ .error .panic := by
  rw [fetchBlock]
  cases peer.block (peer.base ++ blockUrl height) with
  | callFailed err => simp [Fetched.get, bind, Except.bind]
  | bodyFailed err => simp [Fetched.get, bind, Except.bind]
  | body payload =>
      simp only [Fetched.get, bind, Except.bind]
      cases BlockCodec.deserialize payload <;> simp [pure, Except.pure]

theorem tipHeight_ne_panic (peer : HttpPeer) (chainId : UInt32) :
    peer.tipHeight chainId ≠ .error .panic := by
  rw [tipHeight]
  cases peer.nodeInfo (peer.base ++ "/node-info") with
  | callFailed err => simp [Fetched.get, bind, Except.bind]
  | bodyFailed err => simp [Fetched.get, bind, Except.bind]
  | body info =>
      simp only [Fetched.get, bind, Except.bind]
      cases ensureNodeInfoCompatible chainId info with
      | error err => simp
      | ok compatible =>
          cases peer.tip (peer.base ++ "/tip") <;> simp [pure, Except.pure]

end HttpPeer

end Client

/-! ## The sync -/

section Sync

variable [Blake3] [Bincode] [PqCrypto]

omit [Blake3] [Bincode] [PqCrypto] in
theorem toNat_add_one {n : UInt64} (h : n + 1 ≠ 0) :
    (n + 1).toNat = n.toNat + 1 := by
  have hlt : n.toNat < 2 ^ 64 := n.toNat_lt
  have hsum : (n + 1).toNat = (n.toNat + 1) % 2 ^ 64 := rfl
  have hne : (n + 1).toNat ≠ 0 := fun hzero => h (UInt64.toNat_inj.mp hzero)
  omega

omit [Blake3] [Bincode] [PqCrypto] in
/-- There is a height after one which is not the last. -/
theorem add_one_ne_zero_of_not_le {n m : UInt64} (h : ¬m ≤ n) : n + 1 ≠ 0 := by
  intro hzero
  have hsum : (n.toNat + 1) % 2 ^ 64 = 0 := congrArg UInt64.toNat hzero
  have hn : n.toNat < 2 ^ 64 := n.toNat_lt
  have hm : m.toNat < 2 ^ 64 := m.toNat_lt
  rw [UInt64.le_iff_toNat_le] at h
  omega

/-- An applied block is the next one. -/
theorem NodeRuntime.applyBlock_height {runtime next : NodeRuntime}
    {block : Block} {saves : SaveOutcomes} {height : UInt64}
    (h : runtime.applyBlock block saves = (.ok height, next)) :
    next.chain.height = runtime.chain.height + 1 := by
  rcases runtime.applyBlock_cases block saves with ⟨abort, happly⟩ |
    ⟨nextChain, nextBlocks, hprepare, -, -, happly⟩
  · simp [h] at happly
  · obtain ⟨hvalid, happlied, -⟩ := NodeRuntime.prepareBlock_eq_ok.mp hprepare
    obtain ⟨_, _, -, -, hchain⟩ := ChainState.applyBlock_eq_ok.mp happlied
    have hheight := (validateReplayedBlock_eq_ok.mp hvalid).height
    obtain ⟨pending, hpending⟩ := reconcilePendingTransactions_snd
      (runtime.advance nextChain nextBlocks)
    have hnext : next.chain = nextChain := by
      have hsnd := congrArg Prod.snd (h.symm.trans happly)
      dsimp only at hsnd
      rw [hsnd, hpending]
      rfl
    rw [hnext, hchain]
    exact hheight

/-- Below a height, an applied block is one block less to go. -/
theorem NodeRuntime.applyBlock_missing {runtime next : NodeRuntime}
    {block : Block} {saves : SaveOutcomes} {height tipHeight : UInt64}
    (hmissing : ¬tipHeight ≤ runtime.chain.height)
    (h : runtime.applyBlock block saves = (.ok height, next)) :
    tipHeight.toNat - next.chain.height.toNat <
      tipHeight.toNat - runtime.chain.height.toNat := by
  rw [applyBlock_height h, toNat_add_one (add_one_ne_zero_of_not_le hmissing)]
  rw [UInt64.le_iff_toNat_le] at hmissing
  omega

variable [BlockCodec]

namespace NodeRuntime

/-- The loop of `sync_from_peer_http`: fetch and apply the next block until
the chain is as high as the tip was. -/
def syncBlocks (peer : HttpPeer) (tipHeight : UInt64)
    (runtime : NodeRuntime) : Result HttpSyncError Unit × NodeRuntime :=
  if _ : tipHeight ≤ runtime.chain.height then (.ok (), runtime)
  else
    let nextHeight := runtime.chain.height + 1
    match peer.fetchBlock nextHeight with
    | .error abort => (.error abort, runtime)
    | .ok block =>
        match _ : runtime.applyBlock block (peer.saves nextHeight) with
        | (.ok _, next) => syncBlocks peer tipHeight next
        | (.error (.err err), next) => (.error (.err (.apply err)), next)
        | (.error .panic, next) => (.error .panic, next)
termination_by tipHeight.toNat - runtime.chain.height.toNat
decreasing_by exact applyBlock_missing ‹_› ‹_›

/-- The runtime is only locked between two requests; nothing else runs while a
node syncs in this way, so no lock fails. -/
def syncFromPeerHttp (runtime : NodeRuntime) (peer : HttpPeer) :
    Result HttpSyncError Unit × NodeRuntime :=
  match peer.tipHeight runtime.chain.chainId with
  | .error abort => (.error abort, runtime)
  | .ok tipHeight => runtime.syncBlocks peer tipHeight

/-- The failures which are reported, next to the runtime; `none` when a sync
panics. -/
def syncAllPeersHttp : NodeRuntime → List HttpPeer →
    Option (List (String × HttpSyncError)) × NodeRuntime
  | runtime, [] => (some [], runtime)
  | runtime, peer :: peers =>
      match runtime.syncFromPeerHttp peer with
      | (.ok (), next) => next.syncAllPeersHttp peers
      | (.error (.err err), next) =>
          let (failures, last) := next.syncAllPeersHttp peers
          (failures.map ((peer.peer, err) :: ·), last)
      | (.error .panic, next) => (none, next)

/-! ## What a sync does -/

/-- Run rule of the loop. -/
theorem syncBlocks_invariant {peer : HttpPeer} {tipHeight : UInt64}
    (Inv : NodeRuntime → Prop)
    (hstep : ∀ runtime block, Inv runtime →
      peer.fetchBlock (runtime.chain.height + 1) = .ok block →
      Inv (runtime.applyBlock block
        (peer.saves (runtime.chain.height + 1))).2)
    {runtime : NodeRuntime} (h : Inv runtime) :
    Inv (runtime.syncBlocks peer tipHeight).2 := by
  fun_induction syncBlocks peer tipHeight runtime with
  | case1 runtime hdone => exact h
  | case2 runtime hmissing nextHeight abort hfetch => exact h
  | case3 runtime hmissing nextHeight block hfetch height next happly ih =>
      exact ih (by simpa [nextHeight, happly] using hstep runtime block h hfetch)
  | case4 runtime hmissing nextHeight block hfetch err next happly =>
      simpa [nextHeight, happly] using hstep runtime block h hfetch
  | case5 runtime hmissing nextHeight block hfetch next happly =>
      simpa [nextHeight, happly] using hstep runtime block h hfetch

/-- Run rule of a sync with one peer. -/
theorem syncFromPeerHttp_invariant {peer : HttpPeer}
    (Inv : NodeRuntime → Prop)
    (hstep : ∀ runtime block, Inv runtime →
      peer.fetchBlock (runtime.chain.height + 1) = .ok block →
      Inv (runtime.applyBlock block
        (peer.saves (runtime.chain.height + 1))).2)
    {runtime : NodeRuntime} (h : Inv runtime) :
    Inv (runtime.syncFromPeerHttp peer).2 := by
  rw [syncFromPeerHttp]
  split
  · exact h
  · exact syncBlocks_invariant Inv hstep h

/-- Run rule of a sync with all peers. -/
theorem syncAllPeersHttp_invariant (Inv : NodeRuntime → Prop)
    {peers : List HttpPeer}
    (hstep : ∀ peer ∈ peers, ∀ runtime block, Inv runtime →
      peer.fetchBlock (runtime.chain.height + 1) = .ok block →
      Inv (runtime.applyBlock block
        (peer.saves (runtime.chain.height + 1))).2)
    {runtime : NodeRuntime} (h : Inv runtime) :
    Inv (runtime.syncAllPeersHttp peers).2 := by
  induction peers generalizing runtime with
  | nil => exact h
  | cons peer peers ih =>
      have hsynced : Inv (runtime.syncFromPeerHttp peer).2 :=
        syncFromPeerHttp_invariant Inv (hstep peer List.mem_cons_self) h
      have hrest := fun other hother => hstep other
        (List.mem_cons_of_mem peer hother)
      rw [syncAllPeersHttp]
      split
      all_goals
        rename_i next hsync
        rw [hsync] at hsynced
      · exact ih hrest hsynced
      · exact ih hrest hsynced
      · exact hsynced

/-- A sync which ends well has reached the tip. -/
theorem syncBlocks_reached {peer : HttpPeer} {tipHeight : UInt64}
    {runtime after : NodeRuntime}
    (h : runtime.syncBlocks peer tipHeight = (.ok (), after)) :
    tipHeight ≤ after.chain.height := by
  fun_induction syncBlocks peer tipHeight runtime with
  | case1 runtime hdone =>
      obtain rfl : runtime = after := congrArg Prod.snd h
      exact hdone
  | case2 runtime hmissing nextHeight abort hfetch => simp at h
  | case3 runtime hmissing nextHeight block hfetch height next happly ih =>
      exact ih h
  | case4 runtime hmissing nextHeight block hfetch err next happly =>
      simp at h
  | case5 runtime hmissing nextHeight block hfetch next happly => simp at h

theorem syncFromPeerHttp_eq_ok {peer : HttpPeer}
    {runtime after : NodeRuntime}
    (h : runtime.syncFromPeerHttp peer = (.ok (), after)) :
    ∃ tipHeight, peer.tipHeight runtime.chain.chainId = .ok tipHeight ∧
      runtime.syncBlocks peer tipHeight = (.ok (), after) := by
  rw [syncFromPeerHttp] at h
  split at h
  · simp at h
  · rename_i tipHeight htip
    exact ⟨tipHeight, htip, h⟩

end NodeRuntime

/-! ## Any peers -/

variable {config : NodeConfig}

/-- What a sync may do to a node, whatever the peers answer. -/
structure SyncedFrom (config : NodeConfig) (peers : List HttpPeer)
    (before after : NodeRuntime) : Prop where
  replayable : Replayable config after
  mempool : after.MempoolValid
  extended : before.blocks <+: after.blocks
  served : ∀ (i : ℕ) (block : Block), before.blocks.length ≤ i →
    after.blocks[i]? = some block →
    ∃ peer ∈ peers, peer.fetchBlock (UInt64.ofNat (i + 1)) = .ok block

namespace SyncedFrom

variable {peers : List HttpPeer} {before after : NodeRuntime}

theorem refl (hreplayable : Replayable config before)
    (hmempool : before.MempoolValid) :
    SyncedFrom config peers before before where
  replayable := hreplayable
  mempool := hmempool
  extended := List.prefix_refl _
  served := by
    intro i block hlength hblock
    rw [List.getElem?_eq_none hlength] at hblock
    cases hblock

/-- A fetched block which is applied is the next one. -/
theorem applyBlock (h : SyncedFrom config peers before after)
    {peer : HttpPeer} (hpeer : peer ∈ peers) {block : Block}
    (hfetch : peer.fetchBlock (after.chain.height + 1) = .ok block)
    (saves : SaveOutcomes) :
    SyncedFrom config peers before (after.applyBlock block saves).2 := by
  have hreplayable := h.replayable.chainStep
    (after.applyBlock_chainStep block saves)
  have hmempool := h.mempool.applyBlock block saves
  rcases after.applyBlock_cases block saves with ⟨abort, happly⟩ |
    ⟨nextChain, nextBlocks, hprepare, -, -, happly⟩
  · rwa [happly]
  · obtain ⟨-, -, rfl⟩ := NodeRuntime.prepareBlock_eq_ok.mp hprepare
    have hblocks : (after.applyBlock block saves).2.blocks =
        after.blocks ++ [block] := by
      obtain ⟨pending, hpending⟩ := NodeRuntime.reconcilePendingTransactions_snd
        (after.advance nextChain (after.blocks ++ [block]))
      rw [happly]
      dsimp only
      rw [hpending]
      rfl
    refine ⟨hreplayable, hmempool, ?_, ?_⟩
    · rw [hblocks]
      exact h.extended.trans (List.prefix_append _ _)
    · intro i other hlength hother
      rw [hblocks] at hother
      rcases Nat.lt_trichotomy i after.blocks.length with hold | rfl | hbeyond
      · rw [List.getElem?_append_left hold] at hother
        exact h.served i other hlength hother
      · rw [List.getElem?_concat_length, Option.some.injEq] at hother
        rw [← hother, ← h.replayable.succ_height]
        exact ⟨peer, hpeer, hfetch⟩
      · rw [List.getElem?_eq_none (by simp; omega)] at hother
        cases hother

/-- The chain has not become lower. -/
theorem height_le (h : SyncedFrom config peers before after)
    (hbefore : Replayable config before) :
    before.chain.height ≤ after.chain.height := by
  rw [UInt64.le_iff_toNat_le, ← hbefore.length_blocks,
    ← h.replayable.length_blocks]
  exact h.extended.length_le

end SyncedFrom

theorem NodeRuntime.syncAllPeersHttp_syncedFrom {runtime : NodeRuntime}
    (peers : List HttpPeer) (hreplayable : Replayable config runtime)
    (hmempool : runtime.MempoolValid) :
    SyncedFrom config peers runtime (runtime.syncAllPeersHttp peers).2 :=
  syncAllPeersHttp_invariant (SyncedFrom config peers runtime)
    (fun _ hpeer _ _ h hfetch => h.applyBlock hpeer hfetch _)
    (SyncedFrom.refl hreplayable hmempool)

theorem NodeRuntime.syncFromPeerHttp_syncedFrom {runtime : NodeRuntime}
    (peer : HttpPeer) (hreplayable : Replayable config runtime)
    (hmempool : runtime.MempoolValid) :
    SyncedFrom config [peer] runtime (runtime.syncFromPeerHttp peer).2 :=
  syncFromPeerHttp_invariant (SyncedFrom config [peer] runtime)
    (fun _ _ h hfetch => h.applyBlock List.mem_cons_self hfetch _)
    (SyncedFrom.refl hreplayable hmempool)

/-- A peer which is not reported is not ahead. -/
theorem NodeRuntime.syncAllPeersHttp_reported {runtime after : NodeRuntime}
    {peers : List HttpPeer} {failures : List (String × HttpSyncError)}
    (hreplayable : Replayable config runtime) (hmempool : runtime.MempoolValid)
    (h : runtime.syncAllPeersHttp peers = (some failures, after))
    {peer : HttpPeer} (hpeer : peer ∈ peers) :
    (∃ tipHeight, peer.tipHeight config.chainId = .ok tipHeight ∧
        tipHeight ≤ after.chain.height) ∨
      ∃ err, (peer.peer, err) ∈ failures := by
  induction peers generalizing runtime failures with
  | nil => exact absurd hpeer List.not_mem_nil
  | cons first peers ih =>
      have hfirst := runtime.syncFromPeerHttp_syncedFrom first hreplayable
        hmempool
      rw [syncAllPeersHttp] at h
      split at h
      · rename_i next hsync
        rw [hsync] at hfirst
        rcases List.mem_cons.mp hpeer with rfl | hrest
        · obtain ⟨tipHeight, htip, hloop⟩ := syncFromPeerHttp_eq_ok hsync
          have hreached := syncBlocks_reached hloop
          have hlater := next.syncAllPeersHttp_syncedFrom peers
            hfirst.replayable hfirst.mempool
          rw [h] at hlater
          rw [hreplayable.chainId_eq] at htip
          exact Or.inl ⟨tipHeight, htip, UInt64.le_trans hreached
            (hlater.height_le hfirst.replayable)⟩
        · exact ih hfirst.replayable hfirst.mempool h hrest
      · rename_i err next hsync
        rw [hsync] at hfirst
        rw [Prod.mk.injEq, Option.map_eq_some_iff] at h
        obtain ⟨⟨rest, hfailures, rfl⟩, hlast⟩ := h
        have hall : next.syncAllPeersHttp peers = (some rest, after) :=
          Prod.ext hfailures hlast
        rcases List.mem_cons.mp hpeer with rfl | hrest
        · exact Or.inr ⟨err, List.mem_cons_self⟩
        · rcases ih hfirst.replayable hfirst.mempool hall hrest with
            hreached | ⟨other, hother⟩
          · exact Or.inl hreached
          · exact Or.inr ⟨other, List.mem_cons_of_mem _ hother⟩
      · simp at h

/-- Whatever the peers answer, a sync extends the history by blocks which they
served for their height and which the node accepts, and ends at least as high
as every peer it does not report. -/
theorem http_sync_extends [SerdeJson]
    {stateFile blocksFile : FileRead SerdeJson.Text}
    {save : Except String Unit} {start : NodeRuntime}
    (hstart : config.start stateFile blocksFile save = .ok start)
    (calls : List NodeRuntime.Call) (peers : List HttpPeer) :
    let before := start.performAll calls
    let synced := before.syncAllPeersHttp peers
    SyncedFrom config peers before synced.2 ∧
      ∀ failures, synced.1 = some failures → ∀ peer ∈ peers,
        (∃ tipHeight, peer.tipHeight config.chainId = .ok tipHeight ∧
            tipHeight ≤ synced.2.chain.height) ∨
          ∃ err, (peer.peer, err) ∈ failures := by
  intro before synced
  have hreplayable : Replayable config before :=
    (NodeConfig.start_replayable hstart).performAll calls
  have hmempool : before.MempoolValid :=
    NodeRuntime.performAll_invariant NodeRuntime.MempoolValid
      (fun runtime call h => h.perform call)
      (NodeRuntime.mempoolValid_of_nil
        (NodeConfig.start_pendingTransactions hstart)) calls
  refine ⟨NodeRuntime.syncAllPeersHttp_syncedFrom peers hreplayable hmempool,
    fun failures hfailures peer hpeer => ?_⟩
  exact NodeRuntime.syncAllPeersHttp_reported hreplayable hmempool
    (Prod.ext hfailures rfl) hpeer

/-! ## Peers which serve the chain -/

def HttpBody.asNodeInfo : HttpBody → Option NodeInfo
  | .nodeInfo sent => some sent
  | _ => none

def HttpBody.asTip : HttpBody → Option TipResponse
  | .tip sent => some sent
  | _ => none

def HttpBody.asBinary : HttpBody → Option BlockCodec.Payload
  | .binary sent => some sent
  | _ => none

/-- What a client gets when a response arrives: statuses from 400 on fail the
call, and the body is read otherwise. -/
def Fetched.Carries {α : Type} (read : HttpBody → Option α)
    (sent : HttpResponse) (fetched : Fetched α) : Prop :=
  if 400 ≤ sent.status then ∃ err, fetched = .callFailed err
  else ∀ value, read sent.body = some value → fetched = .body value

/-- The peer is the HTTP adapter of a node. -/
structure HttpPeer.Serves (peer : HttpPeer) (remote : NodeRuntime)
    (info : NodeInfo) : Prop where
  nodeInfo : ∀ saves body sent,
    (remote.handleRequest info saves ⟨.get, "/node-info", body⟩).1 =
      some sent →
    (peer.nodeInfo (peer.base ++ "/node-info")).Carries HttpBody.asNodeInfo
      sent
  tip : ∀ saves body sent,
    (remote.handleRequest info saves ⟨.get, "/tip", body⟩).1 = some sent →
    (peer.tip (peer.base ++ "/tip")).Carries HttpBody.asTip sent
  block : ∀ height saves body sent,
    (remote.handleRequest info saves ⟨.get, blockUrl height, body⟩).1 =
      some sent →
    (peer.block (peer.base ++ blockUrl height)).Carries HttpBody.asBinary sent

theorem NodeRuntime.handleRequest_nodeInfo (runtime : NodeRuntime)
    (info : NodeInfo) (saves : SaveOutcomes)
    (body : Except String BlockCodec.Payload) :
    (runtime.handleRequest info saves ⟨.get, "/node-info", body⟩).1 =
      some ⟨200, .nodeInfo info⟩ := by
  have hpath : HttpRequest.path ⟨.get, "/node-info", body⟩ =
      "/node-info".toList := by
    change "/node-info".toList.takeWhile _ = _
    decide
  rw [handleRequest, if_pos ⟨rfl, hpath⟩]

theorem NodeRuntime.handleRequest_tip (runtime : NodeRuntime)
    (info : NodeInfo) (saves : SaveOutcomes)
    (body : Except String BlockCodec.Payload) :
    (runtime.handleRequest info saves ⟨.get, "/tip", body⟩).1 =
      some ⟨200, .tip runtime.tipResponse⟩ := by
  have hpath : HttpRequest.path ⟨.get, "/tip", body⟩ = "/tip".toList := by
    change "/tip".toList.takeWhile _ = _
    decide
  have hother : "/tip".toList ≠ "/node-info".toList := by decide
  rw [handleRequest, if_neg fun h => hother (hpath.symm.trans h.2),
    if_pos ⟨rfl, hpath⟩]

/-- What a `GET` is answered depends on the url only. -/
theorem NodeRuntime.handleRequest_get (runtime : NodeRuntime)
    (info : NodeInfo) (saves saves' : SaveOutcomes) (url : String)
    (body body' : Except String BlockCodec.Payload) :
    (runtime.handleRequest info saves ⟨.get, url, body⟩).1 =
      (runtime.handleRequest info saves' ⟨.get, url, body'⟩).1 := by
  have hpath : HttpRequest.path ⟨.get, url, body⟩ =
      HttpRequest.path ⟨.get, url, body'⟩ := rfl
  simp only [handleRequest, hpath, reduceCtorEq, false_and, if_false,
    apply_ite Prod.fst]

/-- The answer which arrives when the response is read. -/
def Fetched.ofResponse {α : Type} (read : HttpBody → Option α) :
    Option HttpResponse → Fetched α
  | none => .callFailed "no response"
  | some sent =>
      if 400 ≤ sent.status then .callFailed (toString sent.status)
      else
        match read sent.body with
        | some value => .body value
        | none => .bodyFailed "unexpected body"

omit [Blake3] [Bincode] [PqCrypto] in
theorem Fetched.ofResponse_carries {α : Type} (read : HttpBody → Option α)
    (sent : HttpResponse) : (Fetched.ofResponse read (some sent)).Carries read
      sent := by
  rw [Fetched.Carries, Fetched.ofResponse]
  split
  · exact ⟨_, rfl⟩
  · rintro value hvalue
    rw [hvalue]

/-- A client of the HTTP adapter of a node. -/
def NodeRuntime.httpPeer (remote : NodeRuntime) (info : NodeInfo)
    (url : String) (saves : UInt64 → SaveOutcomes) : HttpPeer :=
  let base := url.toList.rdropWhile (· = '/')
  let answer := fun request : String =>
    (remote.handleRequest info ⟨.ok (), .ok ()⟩
      ⟨.get, String.ofList (request.toList.drop base.length),
        .error ""⟩).1
  { peer := url
    nodeInfo := fun request => .ofResponse HttpBody.asNodeInfo (answer request)
    tip := fun request => .ofResponse HttpBody.asTip (answer request)
    block := fun request => .ofResponse HttpBody.asBinary (answer request)
    saves := saves }

theorem NodeRuntime.httpPeer_serves (remote : NodeRuntime) (info : NodeInfo)
    (url : String) (saves : UInt64 → SaveOutcomes) :
    (remote.httpPeer info url saves).Serves remote info := by
  have hrequest : ∀ path : String, String.ofList
      (((remote.httpPeer info url saves).base ++ path).toList.drop
        (url.toList.rdropWhile (· = '/')).length) = path := by
    intro path
    rw [HttpPeer.base, String.toList_append, String.toList_ofList]
    change String.ofList (List.drop _ (url.toList.rdropWhile (· = '/') ++ _)) = _
    rw [List.drop_left, String.ofList_toList]
  constructor
  all_goals
    intros
    rename_i hsent
    dsimp only [NodeRuntime.httpPeer] at hrequest ⊢
    rw [hrequest, remote.handleRequest_get info _ _ _ _ _, hsent]
    exact Fetched.ofResponse_carries _ _

namespace HttpPeer.Serves

variable {peer : HttpPeer} {remote : NodeRuntime} {info : NodeInfo}

theorem tipHeight_eq (h : peer.Serves remote info) {chainId : UInt32}
    (hcompatible : ensureNodeInfoCompatible chainId info = .ok ()) :
    peer.tipHeight chainId = .ok remote.chain.height := by
  have hinfo : peer.nodeInfo (peer.base ++ "/node-info") = .body info :=
    h.nodeInfo ⟨.ok (), .ok ()⟩ (.error "") _
      (remote.handleRequest_nodeInfo info _ _) info rfl
  have htip : peer.tip (peer.base ++ "/tip") = .body remote.tipResponse :=
    h.tip ⟨.ok (), .ok ()⟩ (.error "") _
      (remote.handleRequest_tip info _ _) _ rfl
  rw [HttpPeer.tipHeight, hinfo, htip]
  simp only [Fetched.get, bind, Except.bind, hcompatible]
  rfl

/-- The peer answers with the block at the position before its height. -/
theorem fetchBlock_eq (h : peer.Serves remote info)
    (hcodec : BlockCodec.Faithful) (hremote : Replayable config remote)
    {height : UInt64} (hne : height ≠ 0)
    {block : Block} (hblock : remote.blocks[height.toNat - 1]? = some block) :
    peer.fetchBlock height = .ok block := by
  have hanswers : remote.AnswersHttp height (some block) :=
    hblock ▸ hremote.answersHttp hcodec hne
  obtain ⟨sent, hsent, hpayload⟩ :=
    hanswers info ⟨.ok (), .ok ()⟩ (.error "")
  obtain ⟨payload, rfl, hread⟩ := hpayload
  have hcarries := h.block height _ _ _ hsent
  exact HttpPeer.fetchBlock_eq_ok.mpr
    ⟨payload, hcarries payload rfl, hread⟩

/-- Nothing is fetched where the node has no block. -/
theorem fetchBlock_ne_ok (h : peer.Serves remote info) {height : UInt64}
    (hnone : remote.AnswersHttp height none) (block : Block) :
    peer.fetchBlock height ≠ .ok block := by
  intro hfetch
  obtain ⟨sent, hsent, status, message, hstatus, rfl⟩ :=
    hnone info ⟨.ok (), .ok ()⟩ (.error "")
  have hcarries := h.block height _ _ _ hsent
  have hfailed : 400 ≤ status := by omega
  rw [Fetched.Carries, if_pos hfailed] at hcarries
  obtain ⟨err, hcall⟩ := hcarries
  obtain ⟨payload, hpayload, -⟩ := HttpPeer.fetchBlock_eq_ok.mp hfetch
  rw [hcall] at hpayload
  cases hpayload

/-- The peer has no other block for a height. -/
theorem getElem?_eq (h : peer.Serves remote info)
    (hcodec : BlockCodec.Faithful) (hremote : Replayable config remote)
    {height : UInt64} {block : Block}
    (hfetch : peer.fetchBlock height = .ok block) :
    height ≠ 0 ∧ remote.blocks[height.toNat - 1]? = some block := by
  have hne : height ≠ 0 := by
    rintro rfl
    exact h.fetchBlock_ne_ok NodeRuntime.answersHttp_zero block hfetch
  refine ⟨hne, ?_⟩
  have hanswers : remote.AnswersHttp height
      remote.blocks[height.toNat - 1]? :=
    hremote.answersHttp hcodec hne
  cases hblock : remote.blocks[height.toNat - 1]? with
  | some held =>
      have hheld := h.fetchBlock_eq hcodec hremote hne hblock
      rw [hfetch, Except.ok.injEq] at hheld
      rw [hheld]
  | none =>
      rw [hblock] at hanswers
      exact absurd hfetch (h.fetchBlock_ne_ok hanswers block)

end HttpPeer.Serves

/-- What the peer serves to a node on the history is the next block of the
history, or it is rejected. -/
def HttpPeer.KeepsTo (peer : HttpPeer) (config : NodeConfig)
    (history : List Block) : Prop :=
  ∀ runtime, Follows config history runtime → ∀ block,
    peer.fetchBlock (runtime.chain.height + 1) = .ok block →
    history[runtime.blocks.length]? = some block ∨
      ∃ err, runtime.consensus.validateBlock runtime.chain block =
        .error (.err err)

/-- A node on the history serves nothing else. -/
theorem HttpPeer.Serves.keepsTo {peer : HttpPeer} {config' : NodeConfig}
    {remote : NodeRuntime} {info : NodeInfo} {history : List Block}
    (h : peer.Serves remote info) (hcodec : BlockCodec.Faithful)
    (hremote : Follows config' history remote) :
    peer.KeepsTo config history := by
  intro runtime hruntime block hfetch
  obtain ⟨hne, hblock⟩ := h.getElem?_eq hcodec hremote.replayable hfetch
  rw [toNat_add_one hne, Nat.add_sub_cancel,
    ← hruntime.replayable.length_blocks] at hblock
  obtain ⟨hlength, heq⟩ := List.getElem?_eq_some_iff.mp hblock
  rw [← heq]
  exact Or.inl (List.prefix_iff_getElem?.mp hremote.held _ hlength)

/-- The saves of the blocks of the peer succeed. -/
def HttpPeer.Saved (peer : HttpPeer) : Prop :=
  ∀ height, (peer.saves height).blockHistory = .ok () ∧
    (peer.saves height).chainState = .ok ()

/-- A node which catches up with a history. -/
structure CatchesUp (config : NodeConfig) (history : List Block)
    (runtime : NodeRuntime) : Prop where
  follows : Follows config history runtime
  pending : runtime.pendingTransactions = []
  rebuilds : config.Rebuilds history
  validators : config.validators ≠ []

omit [BlockCodec] in
theorem NodeRuntime.applyBlock_of_invalid {runtime : NodeRuntime}
    {block : Block} {err : ConsensusError} (saves : SaveOutcomes)
    (hinvalid : runtime.consensus.validateBlock runtime.chain block =
      .error (.err err)) :
    runtime.applyBlock block saves =
      (.error (.err (.validateBlock err)), runtime) := by
  rw [applyBlock, prepareAndSave, prepareBlock, hinvalid]
  rfl

namespace CatchesUp

variable {history : List Block} {runtime : NodeRuntime} {peer : HttpPeer}

/-- A fetched block is applied, or it is rejected and changes nothing. -/
theorem applyBlock_cases (h : CatchesUp config history runtime)
    (hkeeps : peer.KeepsTo config history) (hsaved : peer.Saved)
    {block : Block}
    (hfetch : peer.fetchBlock (runtime.chain.height + 1) = .ok block) :
    (∃ height next, runtime.applyBlock block
          (peer.saves (runtime.chain.height + 1)) = (.ok height, next) ∧
        CatchesUp config history next) ∨
      ∃ err, runtime.applyBlock block
        (peer.saves (runtime.chain.height + 1)) =
          (.error (.err err), runtime) := by
  rcases hkeeps runtime h.follows block hfetch with hnext | ⟨err, hinvalid⟩
  · obtain ⟨hblockHistory, hchainState⟩ := hsaved (runtime.chain.height + 1)
    obtain ⟨nextChain, happly, hfollows⟩ := h.follows.applyBlock_next
      h.pending h.rebuilds h.validators hnext hblockHistory hchainState
    exact Or.inl ⟨_, _, happly, hfollows, h.pending, h.rebuilds, h.validators⟩
  · exact Or.inr ⟨_, NodeRuntime.applyBlock_of_invalid _ hinvalid⟩

/-- The loop keeps to the history, and does not panic. -/
theorem syncBlocks (h : CatchesUp config history runtime)
    (hkeeps : peer.KeepsTo config history) (hsaved : peer.Saved)
    (tipHeight : UInt64) :
    CatchesUp config history (runtime.syncBlocks peer tipHeight).2 ∧
      (runtime.syncBlocks peer tipHeight).1 ≠ .error .panic := by
  fun_induction NodeRuntime.syncBlocks peer tipHeight runtime with
  | case1 runtime hdone => exact ⟨h, by simp⟩
  | case2 runtime hmissing nextHeight abort hfetch =>
      refine ⟨h, ?_⟩
      rintro ⟨⟩
      exact peer.fetchBlock_ne_panic nextHeight hfetch
  | case3 runtime hmissing nextHeight block hfetch height next happly ih =>
      rcases h.applyBlock_cases hkeeps hsaved hfetch with
        ⟨height', next', happlied, hnext⟩ | ⟨err, hrejected⟩
      · obtain ⟨-, rfl⟩ := Prod.mk.inj (happly.symm.trans happlied)
        exact ih hnext
      · simp [nextHeight, hrejected] at happly
  | case4 runtime hmissing nextHeight block hfetch err next happly =>
      rcases h.applyBlock_cases hkeeps hsaved hfetch with
        ⟨height', next', happlied, hnext⟩ | ⟨err', hrejected⟩
      · simp [nextHeight, happlied] at happly
      · obtain ⟨-, rfl⟩ := Prod.mk.inj (happly.symm.trans hrejected)
        exact ⟨h, by simp⟩
  | case5 runtime hmissing nextHeight block hfetch next happly =>
      rcases h.applyBlock_cases hkeeps hsaved hfetch with
        ⟨height', next', happlied, hnext⟩ | ⟨err', hrejected⟩
      · simp [nextHeight, happlied] at happly
      · simp [nextHeight, hrejected] at happly

theorem syncFromPeerHttp (h : CatchesUp config history runtime)
    (hkeeps : peer.KeepsTo config history) (hsaved : peer.Saved) :
    CatchesUp config history (runtime.syncFromPeerHttp peer).2 ∧
      (runtime.syncFromPeerHttp peer).1 ≠ .error .panic := by
  rw [NodeRuntime.syncFromPeerHttp]
  split
  · rename_i abort htip
    refine ⟨h, ?_⟩
    rintro ⟨⟩
    exact peer.tipHeight_ne_panic _ htip
  · exact h.syncBlocks hkeeps hsaved _

/-- A peer which serves the history has the next block up to its own
height. -/
theorem applyBlock_served (h : CatchesUp config history runtime)
    (hsaved : peer.Saved) (hcodec : BlockCodec.Faithful)
    {config' : NodeConfig}
    {remote : NodeRuntime} {info : NodeInfo}
    (hremote : Follows config' history remote)
    (hserves : peer.Serves remote info)
    (hmissing : ¬remote.chain.height ≤ runtime.chain.height) :
    ∃ block height next,
      peer.fetchBlock (runtime.chain.height + 1) = .ok block ∧
      runtime.applyBlock block (peer.saves (runtime.chain.height + 1)) =
        (.ok height, next) ∧
      CatchesUp config history next := by
  have hne := add_one_ne_zero_of_not_le hmissing
  have hposition : (runtime.chain.height + 1).toNat - 1 =
      runtime.blocks.length := by
    rw [toNat_add_one hne, Nat.add_sub_cancel,
      h.follows.replayable.length_blocks]
  have hlength : runtime.blocks.length < remote.blocks.length := by
    rw [UInt64.le_iff_toNat_le] at hmissing
    rw [h.follows.replayable.length_blocks, hremote.replayable.length_blocks]
    omega
  have hheld : remote.blocks[runtime.blocks.length]? =
      some remote.blocks[runtime.blocks.length] :=
    List.getElem?_eq_getElem hlength
  have hnext : history[runtime.blocks.length]? =
      some remote.blocks[runtime.blocks.length] :=
    List.prefix_iff_getElem?.mp hremote.held _ hlength
  obtain ⟨hblockHistory, hchainState⟩ := hsaved (runtime.chain.height + 1)
  obtain ⟨nextChain, happly, hfollows⟩ := h.follows.applyBlock_next
    h.pending h.rebuilds h.validators hnext hblockHistory hchainState
  exact ⟨_, _, _, hserves.fetchBlock_eq hcodec hremote.replayable hne
    (by rw [hposition, hheld]), happly, hfollows, h.pending, h.rebuilds,
    h.validators⟩

/-- With a peer which serves the history, the loop ends well. -/
theorem syncBlocks_served (h : CatchesUp config history runtime)
    (hsaved : peer.Saved) (hcodec : BlockCodec.Faithful)
    {config' : NodeConfig}
    {remote : NodeRuntime} {info : NodeInfo}
    (hremote : Follows config' history remote)
    (hserves : peer.Serves remote info) :
    (runtime.syncBlocks peer remote.chain.height).1 = .ok () := by
  fun_induction NodeRuntime.syncBlocks peer remote.chain.height runtime with
  | case1 runtime hdone => rfl
  | case2 runtime hmissing nextHeight abort hfetch =>
      obtain ⟨block, height, next, hserved, -, -⟩ := h.applyBlock_served hsaved
        hcodec hremote hserves hmissing
      cases hfetch.symm.trans hserved
  | case3 runtime hmissing nextHeight block hfetch height next happly ih =>
      obtain ⟨block', height', next', hserved, happlied, hnext⟩ :=
        h.applyBlock_served hsaved hcodec hremote hserves hmissing
      obtain rfl : block = block' := Except.ok.inj (hfetch.symm.trans hserved)
      obtain ⟨-, rfl⟩ := Prod.mk.inj (happly.symm.trans happlied)
      exact ih hnext
  | case4 runtime hmissing nextHeight block hfetch err next happly =>
      obtain ⟨block', height', next', hserved, happlied, -⟩ :=
        h.applyBlock_served hsaved hcodec hremote hserves hmissing
      obtain rfl : block = block' := Except.ok.inj (hfetch.symm.trans hserved)
      cases happly.symm.trans happlied
  | case5 runtime hmissing nextHeight block hfetch next happly =>
      obtain ⟨block', height', next', hserved, happlied, -⟩ :=
        h.applyBlock_served hsaved hcodec hremote hserves hmissing
      obtain rfl : block = block' := Except.ok.inj (hfetch.symm.trans hserved)
      cases happly.symm.trans happlied

/-- Afterwards the node is at least as high. -/
theorem syncFromPeerHttp_served (h : CatchesUp config history runtime)
    (hsaved : peer.Saved) (hcodec : BlockCodec.Faithful)
    {config' : NodeConfig}
    {remote : NodeRuntime} {info : NodeInfo}
    (hremote : Follows config' history remote)
    (hserves : peer.Serves remote info)
    (hcompatible : ensureNodeInfoCompatible config.chainId info = .ok ()) :
    remote.chain.height ≤ (runtime.syncFromPeerHttp peer).2.chain.height := by
  have htip := hserves.tipHeight_eq hcompatible
  rw [← h.follows.replayable.chainId_eq] at htip
  rw [NodeRuntime.syncFromPeerHttp, htip]
  exact NodeRuntime.syncBlocks_reached (Prod.ext
    (h.syncBlocks_served hsaved hcodec hremote hserves) rfl)

/-- No peer stops the sync with the others. -/
theorem syncAllPeersHttp (h : CatchesUp config history runtime)
    {peers : List HttpPeer}
    (hkeeps : ∀ peer ∈ peers, peer.KeepsTo config history)
    (hsaved : ∀ peer ∈ peers, peer.Saved) :
    ∃ failures after, runtime.syncAllPeersHttp peers =
        (some failures, after) ∧
      CatchesUp config history after := by
  induction peers generalizing runtime with
  | nil => exact ⟨[], runtime, rfl, h⟩
  | cons peer peers ih =>
      obtain ⟨hnext, hpanic⟩ := h.syncFromPeerHttp
        (hkeeps peer List.mem_cons_self) (hsaved peer List.mem_cons_self)
      obtain ⟨failures, after, hrest, hafter⟩ := ih hnext
        (fun other hother => hkeeps other (List.mem_cons_of_mem peer hother))
        (fun other hother => hsaved other (List.mem_cons_of_mem peer hother))
      rw [NodeRuntime.syncAllPeersHttp]
      split
      · rename_i next hsync
        rw [hsync] at hrest
        exact ⟨failures, after, hrest, hafter⟩
      · rename_i err next hsync
        rw [hsync] at hrest
        dsimp only at hrest
        rw [hrest]
        exact ⟨(peer.peer, err) :: failures, after, rfl, hafter⟩
      · rename_i next hsync
        rw [hsync] at hpanic
        exact absurd rfl hpanic

theorem extended (h : CatchesUp config history runtime)
    (peers : List HttpPeer) :
    SyncedFrom config peers runtime (runtime.syncAllPeersHttp peers).2 :=
  runtime.syncAllPeersHttp_syncedFrom peers h.follows.replayable
    (NodeRuntime.mempoolValid_of_nil h.pending)

/-- The peers before one which serves the history leave the node on it, and
the peers after it do not take it back. -/
theorem syncAllPeersHttp_served (h : CatchesUp config history runtime)
    {peers : List HttpPeer}
    (hkeeps : ∀ peer ∈ peers, peer.KeepsTo config history)
    (hsaved : ∀ peer ∈ peers, peer.Saved) (hcodec : BlockCodec.Faithful)
    {config' : NodeConfig} {remote : NodeRuntime} {info : NodeInfo}
    (hpeer : peer ∈ peers) (hremote : Follows config' history remote)
    (hserves : peer.Serves remote info)
    (hcompatible : ensureNodeInfoCompatible config.chainId info = .ok ()) :
    remote.chain.height ≤ (runtime.syncAllPeersHttp peers).2.chain.height := by
  induction peers generalizing runtime with
  | nil => exact absurd hpeer List.not_mem_nil
  | cons first peers ih =>
      obtain ⟨hnext, hpanic⟩ := h.syncFromPeerHttp
        (hkeeps first List.mem_cons_self) (hsaved first List.mem_cons_self)
      have hlast : (runtime.syncAllPeersHttp (first :: peers)).2 =
          ((runtime.syncFromPeerHttp first).2.syncAllPeersHttp peers).2 := by
        rw [NodeRuntime.syncAllPeersHttp]
        split
        all_goals
          rename_i next hsync
          rw [hsync]
        rw [hsync] at hpanic
        exact absurd rfl hpanic
      rw [hlast]
      rcases List.mem_cons.mp hpeer with rfl | hrest
      · have hreached := h.syncFromPeerHttp_served
          (hsaved peer List.mem_cons_self) hcodec hremote hserves hcompatible
        exact UInt64.le_trans hreached
          ((hnext.extended peers).height_le hnext.follows.replayable)
      · exact ih hnext
          (fun other hother => hkeeps other (List.mem_cons_of_mem _ hother))
          (fun other hother => hsaved other (List.mem_cons_of_mem _ hother))
          hrest

end CatchesUp

/-- A node on a history, one of whose peers serves a node on the same history,
ends the sync with at least the blocks of this peer, and with its chain if the
peer holds the whole history. -/
theorem http_sync_catches_up [SerdeJson]
    {stateFile blocksFile : FileRead SerdeJson.Text}
    {save : Except String Unit} {start : NodeRuntime} {history : List Block}
    {peers : List HttpPeer} {peer : HttpPeer} {config' : NodeConfig}
    {remote : NodeRuntime} {info : NodeInfo}
    (hstart : config.start stateFile blocksFile save = .ok start)
    (hvalidators : config.validators ≠ []) (hcodec : BlockCodec.Faithful)
    (hrebuilds : config.Rebuilds history) (hheld : start.blocks <+: history)
    (hkeeps : ∀ other ∈ peers, other.KeepsTo config history)
    (hsaved : ∀ other ∈ peers, other.Saved) (hpeer : peer ∈ peers)
    (hserves : peer.Serves remote info)
    (hcompatible : ensureNodeInfoCompatible config.chainId info = .ok ())
    (hremote : Follows config' history remote)
    (hsameId : config'.chainId = config.chainId)
    (hsameValidators : config'.validators = config.validators) :
    ∃ failures after, start.syncAllPeersHttp peers =
        (some failures, after) ∧
      Follows config history after ∧
      start.blocks <+: after.blocks ∧ remote.blocks <+: after.blocks ∧
      (remote.blocks = history →
        after.blocks = history ∧ after.chain = remote.chain) := by
  have hbefore : CatchesUp config history start :=
    ⟨⟨NodeConfig.start_replayable hstart, hheld⟩,
      NodeConfig.start_pendingTransactions hstart, hrebuilds, hvalidators⟩
  obtain ⟨failures, after, hsync, hafter⟩ :=
    hbefore.syncAllPeersHttp hkeeps hsaved
  have hextended := (hbefore.extended peers).extended
  have hreached := hbefore.syncAllPeersHttp_served hkeeps hsaved hcodec hpeer
    hremote hserves hcompatible
  rw [hsync] at hextended hreached
  have hremoteHeld : remote.blocks <+: after.blocks := by
    apply List.prefix_of_prefix_length_le hremote.held hafter.follows.held
    rw [hremote.replayable.length_blocks,
      hafter.follows.replayable.length_blocks]
    exact UInt64.le_iff_toNat_le.mp hreached
  refine ⟨failures, after, hsync, hafter.follows, hextended, hremoteHeld,
    fun hwhole => ?_⟩
  have hlength : after.blocks.length = remote.blocks.length :=
    Nat.le_antisymm (hwhole ▸ hafter.follows.held.length_le)
      hremoteHeld.length_le
  obtain ⟨hblocks, hchain⟩ := hafter.follows.chain_eq hremote hsameId.symm
    hsameValidators.symm hlength
  exact ⟨hblocks.trans hwhole, hchain⟩

end Sync

/-! ## An observer and a validator -/

section Observer

open scoped StandIns

/-- The single validator after its first block. -/
def servingNode : NodeRuntime :=
  (StandIns.freshRuntime 1 [StandIns.validatorKey 1]).advance
    StandIns.emptyBlockChain [StandIns.emptyBlock 1]

theorem servingNode_blocks : servingNode.blocks = [StandIns.emptyBlock 1] :=
  rfl

theorem servingNode_follows :
    Follows (StandIns.nodeConfig 1 [StandIns.validatorKey 1])
      [StandIns.emptyBlock 1] servingNode where
  replayable := by
    rw [servingNode, ← StandIns.performAll_firstCall 1 1 _ rfl]
    exact (NodeConfig.start_replayable
      (StandIns.start_fresh 1 [StandIns.validatorKey 1])).performAll _
  held := List.prefix_rfl

def servingInfo : NodeInfo := localNodeInfo 0 false "" true true

def servingPeer : HttpPeer :=
  servingNode.httpPeer servingInfo "http://validator/" fun _ => StandIns.savesOk

/-- A peer which does not answer. -/
def silentPeer : HttpPeer where
  peer := "http://silent"
  nodeInfo _ := .callFailed "timed out"
  tip _ := .callFailed "timed out"
  block _ := .callFailed "timed out"
  saves _ := StandIns.savesOk

theorem silentPeer_keepsTo (config : NodeConfig) (history : List Block) :
    silentPeer.KeepsTo config history := by
  intro runtime _ block hfetch
  obtain ⟨payload, hpayload, -⟩ := HttpPeer.fetchBlock_eq_ok.mp hfetch
  cases hpayload

theorem observer_sync_extends :
    (StandIns.nodeConfig 2 [StandIns.validatorKey 1]).start .notFound .notFound
        (.ok ()) =
      .ok (StandIns.freshRuntime 2 [StandIns.validatorKey 1]) ∧
      SyncedFrom (StandIns.nodeConfig 2 [StandIns.validatorKey 1])
        [silentPeer, servingPeer]
        (StandIns.freshRuntime 2 [StandIns.validatorKey 1])
        ((StandIns.freshRuntime 2 [StandIns.validatorKey 1]).syncAllPeersHttp
          [silentPeer, servingPeer]).2 :=
  ⟨StandIns.start_fresh 2 _, (http_sync_extends
    (StandIns.start_fresh 2 [StandIns.validatorKey 1]) []
    [silentPeer, servingPeer]).1⟩

/-- The observer gets the first block although the first peer is silent. -/
theorem observer_sync_catches_up :
    ∃ failures after,
      (StandIns.freshRuntime 2 [StandIns.validatorKey 1]).syncAllPeersHttp
        [silentPeer, servingPeer] = (some failures, after) ∧
      after.blocks = [StandIns.emptyBlock 1] ∧
      after.chain = servingNode.chain := by
  have hserves := servingNode.httpPeer_serves servingInfo "http://validator/"
    fun _ => StandIns.savesOk
  have hrebuilds : (StandIns.nodeConfig 2 [StandIns.validatorKey 1]).Rebuilds
      [StandIns.emptyBlock 1] := by
    refine ⟨servingNode.chain, ?_⟩
    have hrebuilt := servingNode_follows.replayable.rebuilt
    rwa [servingNode_blocks] at hrebuilt
  have hkeeps : ∀ other ∈ [silentPeer, servingPeer], other.KeepsTo
      (StandIns.nodeConfig 2 [StandIns.validatorKey 1])
      [StandIns.emptyBlock 1] := by
    simp only [List.forall_mem_cons, List.not_mem_nil, false_implies,
      implies_true, and_true]
    exact ⟨silentPeer_keepsTo _ _, hserves.keepsTo
      StandIns.blockCodec_faithful servingNode_follows⟩
  have hsaved : ∀ other ∈ [silentPeer, servingPeer], other.Saved := by
    simp only [List.forall_mem_cons, List.not_mem_nil, false_implies,
      implies_true, and_true]
    exact ⟨fun _ => ⟨rfl, rfl⟩, fun _ => ⟨rfl, rfl⟩⟩
  obtain ⟨failures, after, hsync, -, -, -, hwhole⟩ := http_sync_catches_up
    (StandIns.start_fresh 2 [StandIns.validatorKey 1]) (List.cons_ne_nil _ _)
    StandIns.blockCodec_faithful hrebuilds List.nil_prefix hkeeps hsaved
    (List.mem_cons_of_mem _ List.mem_cons_self) hserves
    (localNodeInfo_compatible 0 false "" true true) servingNode_follows rfl rfl
  obtain ⟨hblocks, hchain⟩ := hwhole servingNode_blocks
  exact ⟨failures, after, hsync, hblocks, hchain⟩

end Observer

end QCoin
