import QCoin.Consensus.TipCommitment
import QCoin.Node.Replay

/-!
# A cluster of nodes

Nodes with one chain id and one list of validators exchange blocks over a
network which may lose, duplicate, delay and reorder them, and may carry
blocks of its own.  Every released header is in the list of the node which
holds the key of its height, so no two lists can differ at a height.
-/

namespace QCoin

open Support
open Support.Result

/-- Lists which agree wherever both have an entry are comparable. -/
theorem prefix_or_prefix_of_agree {α : Type} {xs ys : List α}
    (h : ∀ (n : ℕ) (x y : α), xs[n]? = some x → ys[n]? = some y → x = y) :
    xs <+: ys ∨ ys <+: xs := by
  induction xs generalizing ys with
  | nil => exact Or.inl List.nil_prefix
  | cons x xs ih =>
      cases ys with
      | nil => exact Or.inr List.nil_prefix
      | cons y ys =>
          have hhead : x = y := h 0 x y rfl rfl
          have htail : xs <+: ys ∨ ys <+: xs :=
            ih fun n a b ha hb => h (n + 1) a b ha hb
          rw [hhead, List.prefix_cons_inj, List.prefix_cons_inj]
          exact htail

/-- Nodes with a common chain id and a common validator list, each key of
which is held by one node. -/
structure ClusterConfig (ι : Type) where
  chainId : UInt32
  validators : List PublicKey
  members : ι → NodeConfig
  chainId_eq : ∀ i, (members i).chainId = chainId
  validators_eq : ∀ i, (members i).validators = validators
  nonempty : validators ≠ []
  holder : ∀ key ∈ validators, ∃! i, (members i).publicKey = key

/-- The nodes, the headers which nodes released through `produce_one_block`
and the blocks on the network. -/
structure Cluster (ι : Type) where
  nodes : ι → NodeRuntime
  released : List (ι × BlockHeader)
  inFlight : List Block

namespace Cluster

variable {ι : Type} [DecidableEq ι]

def setNode (cluster : Cluster ι) (i : ι) (runtime : NodeRuntime) :
    Cluster ι :=
  { cluster with nodes := Function.update cluster.nodes i runtime }

@[simp] theorem setNode_nodes_self (cluster : Cluster ι) (i : ι)
    (runtime : NodeRuntime) :
    (cluster.setNode i runtime).nodes i = runtime := by
  simp [setNode]

theorem setNode_nodes_of_ne (cluster : Cluster ι) {i j : ι} (h : j ≠ i)
    (runtime : NodeRuntime) :
    (cluster.setNode i runtime).nodes j = cluster.nodes j := by
  simp [setNode, h]

end Cluster

/-- The headers of a node's history. -/
def NodeRuntime.headers (runtime : NodeRuntime) : List BlockHeader :=
  runtime.blocks.map Block.header

/-- A call to `apply_block` fails and changes nothing, or it adds the header
of the block. -/
theorem NodeRuntime.applyBlock_headers [Blake3] [Bincode] [PqCrypto]
    (runtime : NodeRuntime) (block : Block) (saves : SaveOutcomes) :
    ((∀ height, (runtime.applyBlock block saves).1 ≠ .ok height) ∧
      (runtime.applyBlock block saves).2 = runtime) ∨
    ∃ nextChain nextBlocks,
      runtime.prepareBlock block = .ok (nextChain, nextBlocks) ∧
      (runtime.applyBlock block saves).2.headers =
        runtime.headers ++ [block.header] := by
  rcases runtime.applyBlock_cases block saves with ⟨abort, happly⟩ |
    ⟨nextChain, nextBlocks, hprepare, -, -, happly⟩
  · rw [happly]
    exact Or.inl ⟨by simp, rfl⟩
  · refine Or.inr ⟨nextChain, nextBlocks, hprepare, ?_⟩
    obtain ⟨-, -, hblocks⟩ := prepareBlock_eq_ok.mp hprepare
    obtain ⟨pending, hpending⟩ := reconcilePendingTransactions_snd
      (runtime.advance nextChain nextBlocks)
    rw [happly]
    dsimp only
    rw [hpending, headers, advance, hblocks, List.map_append,
      List.map_singleton]
    rfl

namespace ClusterConfig

variable [Blake3] [Bincode] [PqCrypto] {ι : Type} [DecidableEq ι]

/-- A block which verifies under the key of a validator has a header which
this validator released. -/
def Genuine (config : ClusterConfig ι) (released : List (ι × BlockHeader))
    (block : Block) : Prop :=
  ∀ i, (config.members i).publicKey ∈ config.validators →
    block.proposerPublicKey = (config.members i).publicKey →
    verifyHeader defaultRegistry block = .ok () →
    (i, block.header) ∈ released

/-- One event of the cluster. -/
inductive Step (config : ClusterConfig ι) : Cluster ι → Cluster ι → Prop where
  | acceptTransaction {cluster : Cluster ι} (i : ι) (tx : Transaction) :
      Step config cluster
        (cluster.setNode i ((cluster.nodes i).acceptTransaction tx).2)
  /-- A produced block is sent, and its header is thereby released. -/
  | produce {cluster : Cluster ι} (i : ι) {clock : Except String UInt64}
      {entropy : ℕ} {saves : SaveOutcomes} {height : UInt64} {block : Block}
      {after : NodeRuntime}
      (produced : (cluster.nodes i).produceOneBlock clock entropy saves =
        (.ok (some (height, block)), after)) :
      Step config cluster { cluster.setNode i after with
        released := (i, block.header) :: cluster.released
        inFlight := block :: cluster.inFlight }
  /-- An attempt which gives no block sends nothing. -/
  | attempt {cluster : Cluster ι} (i : ι) {clock : Except String UInt64}
      {entropy : ℕ} {saves : SaveOutcomes} {after : NodeRuntime}
      {result : Result NodeError (Option (UInt64 × Block))}
      (attempted : (cluster.nodes i).produceOneBlock clock entropy saves =
        (result, after))
      (nothing : ∀ produced, result ≠ .ok (some produced)) :
      Step config cluster (cluster.setNode i after)
  /-- The block stays in flight and may arrive again. -/
  | deliver {cluster : Cluster ι} (i : ι) {block : Block}
      (saves : SaveOutcomes) (sent : block ∈ cluster.inFlight) :
      Step config cluster
        (cluster.setNode i ((cluster.nodes i).applyBlock block saves).2)
  | lose {cluster : Cluster ι} (block : Block) :
      Step config cluster { cluster with
        inFlight := cluster.inFlight.erase block }
  /-- A block from elsewhere. -/
  | inject {cluster : Cluster ι} {block : Block}
      (genuine : config.Genuine cluster.released block) :
      Step config cluster { cluster with
        inFlight := block :: cluster.inFlight }

/-- Clusters reached from nodes without blocks. -/
inductive Reachable (config : ClusterConfig ι) : Cluster ι → Prop where
  | start {nodes : ι → NodeRuntime}
      (fresh : ∀ i, (config.members i).runtime
        (defaultChainStateWithId config.chainId) [] = .ok (nodes i)) :
      Reachable config ⟨nodes, [], []⟩
  | step {cluster after : Cluster ι} (past : Reachable config cluster)
      (event : config.Step cluster after) : Reachable config after

/-! ## The invariant -/

variable {config : ClusterConfig ι}

/-- The node whose turn it is at a height. -/
def Proposes (config : ClusterConfig ι) (i : ι) (height : UInt64) : Prop :=
  expectedProposerForValidators config.validators height =
    .ok (config.members i).publicKey

omit [Blake3] [Bincode] [PqCrypto] [DecidableEq ι] in
theorem mem_of_expectedProposer {validators : List PublicKey}
    {height : UInt64} {key : PublicKey}
    (h : expectedProposerForValidators validators height = .ok key) :
    key ∈ validators := by
  simp only [expectedProposerForValidators, bind_eq_ok, okOr_eq_ok] at h
  obtain ⟨-, -, hkey⟩ := h
  exact List.mem_of_getElem? hkey

omit [Blake3] [Bincode] [PqCrypto] [DecidableEq ι] in
theorem Proposes.unique {i j : ι} {height : UInt64}
    (hi : config.Proposes i height) (hj : config.Proposes j height) :
    i = j := by
  have hkey : (config.members i).publicKey = (config.members j).publicKey :=
    Except.ok.inj (hi.symm.trans hj)
  have hmem := mem_of_expectedProposer hj
  exact (config.holder _ hmem).unique hkey rfl

/-- Every entry of a history is in the history of the node whose turn it was,
and so is every released header. -/
structure Inv (config : ClusterConfig ι) (cluster : Cluster ι) : Prop where
  replayable : ∀ i, Replayable (config.members i) (cluster.nodes i)
  owned : ∀ (i : ι) (n : ℕ) (header : BlockHeader),
    (cluster.nodes i).headers[n]? = some header →
    ∃ j, config.Proposes j header.height ∧
      (cluster.nodes j).headers[n]? = some header
  released : ∀ i header, (i, header) ∈ cluster.released →
    ∃ n : ℕ, (cluster.nodes i).headers[n]? = some header
  genuine : ∀ block ∈ cluster.inFlight,
    config.Genuine cluster.released block

omit [DecidableEq ι] in
/-- Positions and heights agree. -/
theorem Inv.height {cluster : Cluster ι} (h : config.Inv cluster) {i : ι}
    {n : ℕ} {header : BlockHeader}
    (hheader : (cluster.nodes i).headers[n]? = some header) :
    header.height.toNat = n + 1 := by
  rw [NodeRuntime.headers, List.getElem?_map,
    Option.map_eq_some_iff] at hheader
  obtain ⟨block, hblock, rfl⟩ := hheader
  exact (linkedBlock_of_rebuild (h.replayable i).rebuilt hblock).height

omit [DecidableEq ι] in
/-- What a node of the cluster checks before it extends its history. -/
theorem Inv.prepared {cluster : Cluster ι} (h : config.Inv cluster) {i : ι}
    {block : Block} {nextChain : ChainState} {nextBlocks : List Block}
    (hprepare : (cluster.nodes i).prepareBlock block =
      .ok (nextChain, nextBlocks)) :
    nextBlocks = (cluster.nodes i).blocks ++ [block] ∧
      block.header.height.toNat = (cluster.nodes i).blocks.length + 1 ∧
      expectedProposerForValidators config.validators block.header.height =
        .ok block.proposerPublicKey ∧
      verifyHeader defaultRegistry block = .ok () := by
  obtain ⟨hblocks, hrebuild⟩ := (h.replayable i).rebuild_prepared hprepare
  have hlast : nextBlocks[(cluster.nodes i).blocks.length]? = some block := by
    rw [hblocks]
    exact List.getElem?_concat_length
  have hheight := (linkedBlock_of_rebuild hrebuild hlast).height
  have hvalid := (h.replayable i).validateBlock_eq_ok.mp
    (NodeRuntime.prepareBlock_eq_ok.mp hprepare).1
  rw [config.validators_eq, if_neg config.nonempty] at hvalid
  exact ⟨hblocks, hheight, hvalid.proposer config.nonempty, hvalid.signed⟩

omit [Blake3] [Bincode] [PqCrypto] in
/-- Histories which only grow keep their entries. -/
theorem headers_setNode {cluster : Cluster ι} {i : ι} {after : NodeRuntime}
    (hgrows : (cluster.nodes i).headers <+: after.headers) {j : ι} {n : ℕ}
    {header : BlockHeader}
    (h : (cluster.nodes j).headers[n]? = some header) :
    ((cluster.setNode i after).nodes j).headers[n]? = some header := by
  by_cases hj : j = i
  · subst hj
    have hlength : n < (cluster.nodes j).headers.length :=
      (List.getElem?_eq_some_iff.mp h).1
    obtain ⟨rest, hrest⟩ := hgrows
    rw [Cluster.setNode_nodes_self, ← hrest,
      List.getElem?_append_left hlength, h]
  · rwa [Cluster.setNode_nodes_of_ne cluster hj]

omit [DecidableEq ι] in
/-- A step of the chain adds at most one header, at the next height. -/
theorem Inv.headers_chainStep {cluster : Cluster ι} (h : config.Inv cluster)
    {i : ι} {after : NodeRuntime}
    (hstep : (cluster.nodes i).ChainStep after) :
    after.headers = (cluster.nodes i).headers ∨
      ∃ header, after.headers = (cluster.nodes i).headers ++ [header] ∧
        header.height.toNat = (cluster.nodes i).headers.length + 1 := by
  rcases hstep with ⟨pending, rfl⟩ |
    ⟨block, nextChain, nextBlocks, pending, hprepare, rfl⟩
  · exact Or.inl rfl
  · obtain ⟨hblocks, hheight, -, -⟩ := h.prepared hprepare
    refine Or.inr ⟨block.header, ?_, ?_⟩
    · simp [NodeRuntime.headers, NodeRuntime.advance, hblocks]
    · rw [NodeRuntime.headers, List.length_map, hheight]

/-- An entry after the step is an old one, or the one which was just
added. -/
theorem Inv.headers_cases {cluster : Cluster ι} (h : config.Inv cluster)
    {i : ι} {after : NodeRuntime}
    (hstep : (cluster.nodes i).ChainStep after) {j : ι} {n : ℕ}
    {header : BlockHeader}
    (hheader : ((cluster.setNode i after).nodes j).headers[n]? =
      some header) :
    (cluster.nodes j).headers[n]? = some header ∨
      (after.headers = (cluster.nodes i).headers ++ [header] ∧
        n = (cluster.nodes i).headers.length ∧
        header.height.toNat = (cluster.nodes i).headers.length + 1) := by
  by_cases hj : j = i
  · subst hj
    rw [Cluster.setNode_nodes_self] at hheader
    rcases h.headers_chainStep hstep with hsame | ⟨new, hnew, hheight⟩
    · exact Or.inl (hsame ▸ hheader)
    · rw [hnew, List.getElem?_append] at hheader
      split at hheader
      · exact Or.inl hheader
      · rename_i hlength
        rw [List.getElem?_singleton] at hheader
        split at hheader
        · rename_i hzero
          obtain rfl : new = header := Option.some.inj hheader
          exact Or.inr ⟨hnew, by omega, hheight⟩
        · cases hheader
  · rw [Cluster.setNode_nodes_of_ne cluster hj] at hheader
    exact Or.inl hheader

/-- The step of a single node: nothing but its pending transactions changes,
or it adds a block whose header is in the list of its proposer. -/
theorem Inv.update {cluster : Cluster ι} (h : config.Inv cluster) {i : ι}
    {after : NodeRuntime} (hstep : (cluster.nodes i).ChainStep after)
    (howner : ∀ header,
      after.headers = (cluster.nodes i).headers ++ [header] →
      ∃ j, config.Proposes j header.height ∧
        (j = i ∨ ∃ n : ℕ, (cluster.nodes j).headers[n]? = some header)) :
    config.Inv (cluster.setNode i after) := by
  have hgrows : (cluster.nodes i).headers <+: after.headers := by
    rcases h.headers_chainStep hstep with hsame | ⟨header, hnew, -⟩
    · rw [hsame]
    · rw [hnew]
      exact List.prefix_append _ _
  refine ⟨?_, ?_, ?_, h.genuine⟩
  · intro j
    by_cases hj : j = i
    · subst hj
      rw [Cluster.setNode_nodes_self]
      exact (h.replayable j).chainStep hstep
    · rw [Cluster.setNode_nodes_of_ne cluster hj]
      exact h.replayable j
  · intro j n header hheader
    rcases h.headers_cases hstep hheader with hold | ⟨hnew, hn, hheight⟩
    · obtain ⟨k, hk, hkheader⟩ := h.owned j n header hold
      exact ⟨k, hk, headers_setNode hgrows hkheader⟩
    · obtain ⟨k, hk, rfl | ⟨m, hm⟩⟩ := howner header hnew
      · refine ⟨k, hk, ?_⟩
        rw [Cluster.setNode_nodes_self, hnew, hn]
        exact List.getElem?_concat_length
      · have hposition : m = n := by
          have hmheight := h.height hm
          omega
        exact ⟨k, hk, headers_setNode hgrows (hposition ▸ hm)⟩
  · intro j header hreleased
    obtain ⟨n, hn⟩ := h.released j header hreleased
    exact ⟨n, headers_setNode hgrows hn⟩

/-- A node's list only grows by a block whose header its proposer has. -/
theorem Inv.applyBlock {cluster : Cluster ι} (h : config.Inv cluster) (i : ι)
    {block : Block} (saves : SaveOutcomes)
    (howner : ∀ nextChain nextBlocks,
      (cluster.nodes i).prepareBlock block = .ok (nextChain, nextBlocks) →
      ∃ j, config.Proposes j block.header.height ∧
        (j = i ∨ ∃ n : ℕ,
          (cluster.nodes j).headers[n]? = some block.header)) :
    config.Inv
      (cluster.setNode i ((cluster.nodes i).applyBlock block saves).2) := by
  apply h.update ((cluster.nodes i).applyBlock_chainStep block saves)
  intro header hheader
  rcases (cluster.nodes i).applyBlock_headers block saves with
    ⟨-, hsame⟩ | ⟨nextChain, nextBlocks, hprepare, hheaders⟩
  · have hlength := congrArg List.length hheader
    simp [hsame] at hlength
  · have hnew : block.header = header := by
      rw [hheaders] at hheader
      exact List.singleton_inj.mp (List.append_cancel_left hheader)
    exact hnew ▸ howner nextChain nextBlocks hprepare

theorem Inv.deliver {cluster : Cluster ι} (h : config.Inv cluster) (i : ι)
    {block : Block} (saves : SaveOutcomes) (hsent : block ∈ cluster.inFlight) :
    config.Inv
      (cluster.setNode i ((cluster.nodes i).applyBlock block saves).2) := by
  apply h.applyBlock i saves
  intro nextChain nextBlocks hprepare
  obtain ⟨-, -, hproposer, hsigned⟩ := h.prepared hprepare
  have hvalidator := mem_of_expectedProposer hproposer
  obtain ⟨j, hj, -⟩ := config.holder _ hvalidator
  have hreleased : (j, block.header) ∈ cluster.released :=
    h.genuine block hsent j (hj.symm ▸ hvalidator) hj.symm hsigned
  have hproposes : config.Proposes j block.header.height := by
    rw [Proposes, hj]
    exact hproposer
  exact ⟨j, hproposes, Or.inr (h.released j _ hreleased)⟩

omit [DecidableEq ι] in
theorem Inv.publicKey {cluster : Cluster ι} (h : config.Inv cluster) (i : ι) :
    (cluster.nodes i).consensus.publicKey = (config.members i).publicKey := by
  rw [(fromKeys_eq_ok.mp (h.replayable i).engine).2]

/-- The node of a produced block has its header. -/
theorem Inv.produced {cluster : Cluster ι} (h : config.Inv cluster) (i : ι)
    {clock : Except String UInt64} {entropy : ℕ} (saves : SaveOutcomes)
    {block : Block}
    (hpropose : (cluster.nodes i).consensus.proposeBlock
      (cluster.nodes i).chain (cluster.nodes i).pendingTransactions clock
      entropy = .ok block) :
    config.Inv
      (cluster.setNode i ((cluster.nodes i).applyBlock block saves).2) := by
  apply h.applyBlock i saves
  intro nextChain nextBlocks hprepare
  obtain ⟨-, -, hproposer, -⟩ := h.prepared hprepare
  obtain ⟨-, -, -, hkey⟩ := proposeBlock_spec hpropose
  have hproposes : config.Proposes i block.header.height := by
    rw [Proposes, ← h.publicKey i, ← hkey]
    exact hproposer
  exact ⟨i, hproposes, Or.inl rfl⟩

theorem Inv.same {cluster : Cluster ι} (h : config.Inv cluster) (i : ι) :
    config.Inv (cluster.setNode i (cluster.nodes i)) := by
  apply h.update (Or.inl ⟨_, rfl⟩)
  intro header hheader
  have hlength := congrArg List.length hheader
  simp at hlength

omit [Blake3] [Bincode] [DecidableEq ι] in
/-- Releasing more headers keeps genuine blocks genuine. -/
theorem Genuine.mono {released released' : List (ι × BlockHeader)}
    {block : Block} (hsub : released ⊆ released')
    (h : config.Genuine released block) : config.Genuine released' block :=
  fun i hvalidator hkey hsigned => hsub (h i hvalidator hkey hsigned)

/-- A node which sends a block it produced has added its header. -/
theorem Inv.release {cluster : Cluster ι} (h : config.Inv cluster) (i : ι)
    {clock : Except String UInt64} {entropy : ℕ} (saves : SaveOutcomes)
    {block : Block} {height : UInt64}
    (hpropose : (cluster.nodes i).consensus.proposeBlock
      (cluster.nodes i).chain (cluster.nodes i).pendingTransactions clock
      entropy = .ok block)
    (happlied : ((cluster.nodes i).applyBlock block saves).1 = .ok height) :
    config.Inv {
      cluster.setNode i ((cluster.nodes i).applyBlock block saves).2 with
      released := (i, block.header) :: cluster.released
      inFlight := block :: cluster.inFlight } := by
  have hmoved := h.produced i saves hpropose
  have hsub : cluster.released ⊆ (i, block.header) :: cluster.released :=
    List.subset_cons_self _ _
  refine ⟨hmoved.replayable, hmoved.owned, ?_, ?_⟩
  · intro j header hreleased
    rcases List.mem_cons.mp hreleased with hnew | hold
    · obtain ⟨rfl, rfl⟩ := Prod.mk.inj hnew
      rcases (cluster.nodes j).applyBlock_headers block saves with
        ⟨hnone, -⟩ | ⟨nextChain, nextBlocks, -, hheaders⟩
      · exact absurd happlied (hnone height)
      · refine ⟨(cluster.nodes j).headers.length, ?_⟩
        have hlast := congrArg
          (fun headers : List BlockHeader =>
            headers[(cluster.nodes j).headers.length]?) hheaders
        simpa using hlast
    · exact hmoved.released j header hold
  · intro other hother
    rcases List.mem_cons.mp hother with rfl | hold
    · intro j hvalidator hkey _
      obtain ⟨-, -, -, hproposer⟩ := proposeBlock_spec hpropose
      have hsame : (config.members j).publicKey =
          (config.members i).publicKey := by
        rw [← hkey, hproposer, h.publicKey i]
      have hj : j = i := (config.holder _ hvalidator).unique rfl hsame.symm
      rw [hj]
      exact List.mem_cons_self
    · exact (h.genuine other hold).mono hsub

theorem Inv.step {cluster after : Cluster ι} (h : config.Inv cluster)
    (hstep : config.Step cluster after) : config.Inv after := by
  cases hstep with
  | acceptTransaction i tx =>
      rcases (cluster.nodes i).acceptTransaction_cases tx with hsame |
        ⟨txId, -, haccept⟩
      · rw [hsame]
        exact h.same i
      · rw [haccept]
        apply h.update (Or.inl ⟨_, rfl⟩)
        intro header hheader
        have hlength := congrArg List.length hheader
        simp [NodeRuntime.headers] at hlength
  | @produce i clock entropy saves height block runtime hproduced =>
      rcases (cluster.nodes i).produceOneBlock_cases clock entropy saves with
        ⟨hnone, -⟩ | ⟨proposed, -, hpropose, hproduce⟩
      · exact absurd (congrArg Prod.fst hproduced) (hnone _)
      rw [hproduce, Prod.mk.injEq] at hproduced
      obtain ⟨hresult, rfl⟩ := hproduced
      have happlied : ((cluster.nodes i).applyBlock proposed saves).1 =
          .ok height ∧ proposed = block := by
        cases hfst : ((cluster.nodes i).applyBlock proposed saves).1 with
        | error abort => simp [hfst, Except.map] at hresult
        | ok result => simpa [hfst, Except.map] using hresult
      obtain ⟨hok, rfl⟩ := happlied
      exact h.release i saves hpropose hok
  | @attempt i clock entropy saves runtime result hattempted hnothing =>
      rcases (cluster.nodes i).produceOneBlock_cases clock entropy saves with
        ⟨-, hsame⟩ | ⟨block, -, hpropose, hproduce⟩
      · have hruntime : runtime = cluster.nodes i := by
          rw [← hsame, hattempted]
        rw [hruntime]
        exact h.same i
      · have hruntime : runtime =
            ((cluster.nodes i).applyBlock block saves).2 := by
          rw [hproduce, Prod.mk.injEq] at hattempted
          exact hattempted.2.symm
        rw [hruntime]
        exact h.produced i saves hpropose
  | deliver i saves hsent => exact h.deliver i saves hsent
  | lose block =>
      exact { h with
        genuine := fun other hother =>
          h.genuine other (List.mem_of_mem_erase hother) }
  | @inject block hgenuine =>
      refine { h with genuine := fun other hother => ?_ }
      rcases List.mem_cons.mp hother with rfl | hold
      · exact hgenuine
      · exact h.genuine other hold

theorem Reachable.inv {cluster : Cluster ι}
    (h : config.Reachable cluster) : config.Inv cluster := by
  induction h with
  | @start nodes fresh =>
      have hblocks : ∀ i, (nodes i).blocks = [] := by
        intro i
        have hfresh := fresh i
        simp only [NodeConfig.runtime, bind_eq_ok, pure_eq_ok] at hfresh
        obtain ⟨consensus, -, hruntime⟩ := hfresh
        rw [← hruntime]
      refine ⟨fun i => ?_, ?_, ?_, ?_⟩
      · apply NodeConfig.runtime_replayable _ (fresh i)
        rw [config.chainId_eq]
        rfl
      · intro i n header hheader
        simp [NodeRuntime.headers, hblocks i] at hheader
      · intro i header hheader
        exact absurd hheader List.not_mem_nil
      · intro block hblock
        exact absurd hblock List.not_mem_nil
  | step past event ih => exact ih.step event

/-! ## Agreement -/

omit [DecidableEq ι] in
/-- Two nodes which have a block at one position have the same header there. -/
theorem Inv.agree {cluster : Cluster ι} (h : config.Inv cluster) {i j : ι}
    {n : ℕ} {header₁ header₂ : BlockHeader}
    (hi : (cluster.nodes i).headers[n]? = some header₁)
    (hj : (cluster.nodes j).headers[n]? = some header₂) :
    header₁ = header₂ := by
  obtain ⟨k, hk, hkheader⟩ := h.owned i n header₁ hi
  obtain ⟨l, hl, hlheader⟩ := h.owned j n header₂ hj
  have hheight : header₁.height = header₂.height := by
    rw [← UInt64.toNat_inj, h.height hi, h.height hj]
  have hholder : k = l := Proposes.unique hk (hheight ▸ hl)
  rw [hholder, hlheader] at hkheader
  exact (Option.some.inj hkheader).symm

omit [DecidableEq ι] in
theorem Inv.tip {cluster : Cluster ι} (h : config.Inv cluster) {i j : ι}
    (hheaders : (cluster.nodes i).headers = (cluster.nodes j).headers) :
    (cluster.nodes i).chain.tipHash = (cluster.nodes j).chain.tipHash := by
  have htip : ∀ k, (cluster.nodes k).chain.tipHash =
      (((cluster.nodes k).headers.getLast?).map BlockHeader.hash).getD
        (Hash256.fill 0) := by
    intro k
    rw [NodeRuntime.headers, List.getLast?_map]
    rcases tip_of_rebuild (h.replayable k).rebuilt with ⟨hnil, hchain⟩ |
      ⟨block, hlast, hhash, -⟩
    · rw [hnil, hchain]
      rfl
    · rw [hlast, hhash]
      rfl
  rw [htip i, htip j, hheaders]

/-- No fork: the header lists of two nodes are comparable by prefix, and
nodes at equal height have equal ledgers. -/
theorem no_fork {cluster : Cluster ι} (h : config.Reachable cluster)
    (i j : ι) :
    ((cluster.nodes i).headers <+: (cluster.nodes j).headers ∨
      (cluster.nodes j).headers <+: (cluster.nodes i).headers) ∧
    (CollisionFree (hashedBy (cluster.nodes i).blocks ∪
        hashedBy (cluster.nodes j).blocks) →
      (cluster.nodes i).chain.height = (cluster.nodes j).chain.height →
      (cluster.nodes i).chain.ledger = (cluster.nodes j).chain.ledger) := by
  have hinv := h.inv
  have hcomparable : (cluster.nodes i).headers <+: (cluster.nodes j).headers ∨
      (cluster.nodes j).headers <+: (cluster.nodes i).headers :=
    prefix_or_prefix_of_agree fun _ _ _ hi hj => hinv.agree hi hj
  refine ⟨hcomparable, fun hfree hheight => ?_⟩
  have hrebuilt : ∀ k, rebuildChainStateFromBlocks (cluster.nodes k).blocks
      config.chainId config.validators = .ok (cluster.nodes k).chain := by
    intro k
    rw [← config.chainId_eq k, ← config.validators_eq k]
    exact (hinv.replayable k).rebuilt
  obtain ⟨steps₁, hi⟩ := AcceptedChain.of_rebuild (hrebuilt i)
  obtain ⟨steps₂, hj⟩ := AcceptedChain.of_rebuild (hrebuilt j)
  have hlength : (cluster.nodes i).headers.length =
      (cluster.nodes j).headers.length := by
    have hlength₁ := hi.height_eq_length.1
    have hlength₂ := hj.height_eq_length.1
    rw [List.length_reverse] at hlength₁ hlength₂
    rw [NodeRuntime.headers, NodeRuntime.headers, List.length_map,
      List.length_map, ← hlength₁, ← hlength₂, hheight]
  have hheaders : (cluster.nodes i).headers = (cluster.nodes j).headers := by
    rcases hcomparable with hle | hle
    · exact hle.eq_of_length hlength
    · exact (hle.eq_of_length hlength.symm).symm
  have hreverse : ∀ blocks : List Block,
      hashedBy blocks.reverse = hashedBy blocks := by
    intro blocks
    ext x
    simp [hashedBy]
  have hsame := AcceptedChain.eq_of_tip_eq hi hj
    (by rwa [hreverse, hreverse])
    (by simpa [NodeRuntime.headers] using hlength) (hinv.tip hheaders)
  rw [hsame.2]

end ClusterConfig

section TwoValidators

open scoped StandIns

def twoKeys : List PublicKey :=
  [StandIns.validatorKey 1, StandIns.validatorKey 2]

/-- The validator whose turn it is first, and the other one. -/
def twoValidators : ClusterConfig Bool where
  chainId := 0
  validators := twoKeys
  members first := StandIns.nodeConfig (if first then 1 else 2) twoKeys
  chainId_eq _ := rfl
  validators_eq _ := rfl
  nonempty := by decide
  holder := by
    intro key hkey
    simp only [twoKeys, List.mem_cons, List.not_mem_nil, or_false] at hkey
    rcases hkey with rfl | rfl
    · exact ⟨true, rfl, by decide⟩
    · exact ⟨false, rfl, by decide⟩

def freshNodes (first : Bool) : NodeRuntime :=
  StandIns.freshRuntime (if first then 1 else 2) twoKeys

/-- Both nodes after the first block. -/
def firstNodes (first : Bool) : NodeRuntime :=
  (freshNodes first).advance StandIns.emptyBlockChain [StandIns.emptyBlock 1]

theorem freshNodes_propose :
    (freshNodes true).consensus.proposeBlock (freshNodes true).chain []
      (.ok 1) 0 = .ok (StandIns.emptyBlock 1) := by
  decide +kernel

theorem freshNodes_applyBlock (first : Bool) :
    (freshNodes first).applyBlock (StandIns.emptyBlock 1) StandIns.savesOk =
      (.ok 1, firstNodes first) := by
  cases first <;> exact StandIns.applyBlock_firstBlock _ 1 twoKeys rfl

theorem freshNodes_produce :
    (freshNodes true).produceOneBlock (.ok 1) 0 StandIns.savesOk =
      (.ok (some (1, StandIns.emptyBlock 1)), firstNodes true) := by
  have hturn : (freshNodes true).consensus.canProposeNextBlock
      (freshNodes true).chain = .ok true := by
    decide +kernel
  have hempty : (freshNodes true).produceEmptyBlocks = true := rfl
  have hpending : (freshNodes true).pendingTransactions = [] := rfl
  rw [NodeRuntime.produceOneBlock, hturn]
  simp only [mapErr, hempty, not_true_eq_false, and_false, if_false, hpending,
    freshNodes_propose, freshNodes_applyBlock]

/-- The second validator receives the block which the first one produced. -/
theorem twoValidators_no_fork :
    ∃ cluster, twoValidators.Reachable cluster ∧
      cluster.nodes = firstNodes ∧
      ((firstNodes true).headers <+: (firstNodes false).headers ∨
        (firstNodes false).headers <+: (firstNodes true).headers) ∧
      (firstNodes true).chain.ledger = (firstNodes false).chain.ledger := by
  have hstart : twoValidators.Reachable ⟨freshNodes, [], []⟩ :=
    ClusterConfig.Reachable.start fun first => by cases first <;> rfl
  have hproduced := hstart.step
    (ClusterConfig.Step.produce true freshNodes_produce)
  have hdelivered := hproduced.step
    (ClusterConfig.Step.deliver false StandIns.savesOk List.mem_cons_self)
  have hfree : CollisionFree (hashedBy [StandIns.emptyBlock 1] ∪
      hashedBy [StandIns.emptyBlock 1]) := by
    apply StandIns.emptyBlock_collisionFree.mono
    rw [Set.union_self]
    rintro x ⟨block, hblock, hx⟩
    exact emptyBlock_hashed (List.mem_singleton.mp hblock ▸ hx)
  generalize hcluster : Cluster.setNode _ false _ = cluster at hdelivered
  have hnodes : cluster.nodes = firstNodes := by
    rw [← hcluster]
    funext first
    cases first with
    | false =>
        rw [Cluster.setNode_nodes_self]
        exact congrArg Prod.snd (freshNodes_applyBlock false)
    | true => rfl
  have hagree := ClusterConfig.no_fork hdelivered true false
  rw [hnodes] at hagree
  exact ⟨cluster, hdelivered, hnodes, hagree.1, hagree.2 hfree rfl⟩

end TwoValidators

end QCoin
