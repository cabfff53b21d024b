import QCoin.Ledger.PanicFree
import QCoin.Node.Contents
import QCoin.Node.Replay

/-!
# Runtimes which do not panic

What a node has accepted can be encoded.  Its own mempool and history therefore
never make a call panic, and a block or a transaction from elsewhere does so
only by its own lengths.
-/

namespace QCoin

open Support
open Support.Result

section PanicFreedom

variable [Blake3] [Bincode] [PqCrypto]

/-! ## Blocks -/

/-- Nothing of the block is too long to be encoded. -/
def Block.Fits (block : Block) : Prop :=
  ∀ tx ∈ block.transactions, tx.Fits

namespace LedgerState.Fits

variable {ledger ledger' : LedgerState} {txs : List Transaction}
  {config : VmConfig} {currentHeight : UInt64} {chainId : UInt32}

omit [PqCrypto] in
/-- Accepted transactions have been encoded. -/
theorem applyAll (h : ledger.Fits) {engine : ScriptEngine}
    (happly : ledger.applyAll txs engine currentHeight chainId = .ok ledger') :
    ledger'.Fits ∧ ∀ tx ∈ txs, tx.core.LengthsFit := by
  induction txs generalizing ledger with
  | nil =>
      obtain rfl : ledger = ledger' := Except.ok.inj happly
      exact ⟨h, by simp⟩
  | cons tx txs ih =>
      obtain ⟨mid, hmid, hrest⟩ := applyAll_cons_eq_ok.mp happly
      have hfits : (ledger.applyTransaction tx engine currentHeight
          chainId).2.Fits := h.applyTransaction engine
      rw [hmid] at hfits
      obtain ⟨-, txId, htxId, -⟩ := applyTransaction_eq_ok.mp hmid
      obtain ⟨hfits', hrest⟩ := ih hfits hrest
      exact ⟨hfits', List.forall_mem_cons.mpr
        ⟨Transaction.lengthsFit_of_txId htxId, hrest⟩⟩

theorem applied_panicFree (h : ledger.Fits) {tx : Transaction} (htx : tx.Fits) :
    PanicFree (ledger.applied tx (deterministicScriptEngine config)
      currentHeight chainId) := by
  have hfree : PanicFree (ledger.applyTransaction tx
      (deterministicScriptEngine config) currentHeight chainId).1 :=
    h.applyTransaction_panicFree htx
  rw [applied]
  split
  · exact .ok _
  · rename_i abort _ happly
    rw [happly] at hfree
    exact PanicFree.of_error hfree

theorem applyAll_panicFree (h : ledger.Fits) (htxs : ∀ tx ∈ txs, tx.Fits) :
    PanicFree (ledger.applyAll txs (deterministicScriptEngine config)
      currentHeight chainId) := by
  refine .foldlM LedgerState.Fits h ?_ ?_
  · exact fun tx htx ledger hledger => hledger.applied_panicFree (htxs tx htx)
  · intro tx _ ledger after hledger happlied
    have hafter : (ledger.applyTransaction tx
        (deterministicScriptEngine config) currentHeight chainId).2.Fits :=
      hledger.applyTransaction _
    rw [applied_eq_ok.mp happlied] at hafter
    exact hafter

end LedgerState.Fits

omit [Bincode] [PqCrypto] in
theorem computeTxRoot_isSome {txs : List Transaction}
    (h : ∀ tx ∈ txs, tx.core.LengthsFit) : (computeTxRoot txs).isSome := by
  rw [computeTxRoot, Option.isSome_map, txRootPreimage, encodeAll_isSome]
  intro tx htx
  obtain ⟨txId, htxId⟩ := Transaction.exists_txId (h tx htx)
  rw [htxId]
  rfl

variable {chain : ChainState} {block : Block}

theorem computeStateRoot_panicFree (h : chain.ledger.Fits)
    {txs : List Transaction} (htxs : ∀ tx ∈ txs, tx.Fits) (height : UInt64) :
    PanicFree (computeStateRoot chain txs height) := by
  refine (h.applyAll_panicFree htxs).mapErr.bind fun ledger happly => ?_
  have hledger := (h.applyAll (mapErr_eq_ok.mp happly)).1
  exact .orPanic (Option.isSome_iff_exists.mpr hledger.exists_stateRoot)

omit [Blake3] [Bincode] [PqCrypto] in
theorem expectedProposer_panicFree (validators : List PublicKey)
    (height : UInt64) :
    PanicFree (expectedProposerForValidators validators height) :=
  (PanicFree.require _ _).bind fun _ _ => .okOr _ _

theorem validateReplayedBlock_panicFree (h : chain.ledger.Fits)
    (hblock : block.Fits) (registry : PqSchemeRegistry)
    (validators : List PublicKey) :
    PanicFree (validateReplayedBlock registry chain block validators) := by
  have hproposer : PanicFree (checkProposer block validators) :=
    .ite (fun _ => .ok _) fun _ =>
      (expectedProposer_panicFree _ _).bind fun _ _ => .require _ _
  have htxRoot := computeTxRoot_isSome fun tx htx => (hblock tx htx).core
  refine (PanicFree.require _ _).bind fun _ _ => ?_
  refine (PanicFree.require _ _).bind fun _ _ => ?_
  refine (PanicFree.require _ _).bind fun _ _ => ?_
  refine hproposer.bind fun _ _ => (PanicFree.orPanic htxRoot).bind ?_
  refine fun _ _ => (PanicFree.require _ _).bind fun _ _ => ?_
  refine (computeStateRoot_panicFree h hblock _).bind fun _ _ => ?_
  refine (PanicFree.require _ _).bind fun _ _ => ?_
  exact (PanicFree.okOr _ _).bind fun _ _ => .require _ _

theorem ChainState.applyBlock_panicFree (h : chain.ledger.Fits)
    (hblock : block.Fits) (config : VmConfig) :
    PanicFree (chain.applyBlock block (deterministicScriptEngine config)) := by
  refine (h.applyAll_panicFree hblock).bind fun ledger happly => ?_
  have hledger := (h.applyAll happly).1
  exact (PanicFree.orPanic (Option.isSome_iff_exists.mpr
    hledger.exists_stateRoot)).bind fun _ _ => .pure _

/-- Proposing accepted transactions does not panic if the scheme of the key is
registered. -/
theorem proposeBlock_panicFree (h : chain.ledger.Fits)
    {txs : List Transaction} (htxs : ∀ tx ∈ txs, tx.Fits)
    {consensus : DummyConsensusEngine}
    (hscheme : (consensus.registry consensus.signingScheme).isSome)
    (clock : Except String UInt64) (entropy : ℕ) :
    PanicFree (consensus.proposeBlock chain txs clock entropy) := by
  have hclock : PanicFree (DummyConsensusEngine.currentTimestamp clock) := by
    cases clock with
    | ok now => exact .ok now
    | error err => exact .err _
  have hsign : ∀ header, PanicFree (consensus.signHeader header entropy) := by
    refine fun header => (PanicFree.orPanic hscheme).bind fun scheme _ => ?_
    split
    · exact .ok _
    · exact .err _
  have htxRoot := computeTxRoot_isSome fun tx htx => (htxs tx htx).core
  refine (expectedProposer_panicFree _ _).bind fun _ _ => ?_
  refine (PanicFree.require _ _).bind fun _ _ => ?_
  refine (computeStateRoot_panicFree h htxs _).bind fun _ _ => ?_
  refine (PanicFree.orPanic htxRoot).bind fun _ _ => ?_
  refine hclock.bind fun _ _ => ?_
  exact (hsign _).bind fun _ _ => .pure _

/-- The ledger and the transactions of an accepted chain have been encoded. -/
theorem AcceptedChain.fits {chainId : UInt32} {blocks : List Block}
    {steps : List (AppliedStep chainId)}
    (h : AcceptedChain chainId blocks steps chain) :
    chain.ledger.Fits ∧
      ∀ tx ∈ committedTransactions blocks, tx.core.LengthsFit := by
  induction h with
  | genesis => exact ⟨LedgerState.empty_fits, by simp [committedTransactions]⟩
  | extend past valid applied ih =>
      obtain ⟨ledger, stateRoot, hledger, -, rfl⟩ :=
        ChainState.applyBlock_eq_ok.mp applied
      obtain ⟨hfits, hblock⟩ := ih.1.applyAll hledger
      refine ⟨hfits, fun tx htx => ?_⟩
      rw [committedTransactions, List.flatMap_cons, List.mem_append] at htx
      exact htx.elim (hblock tx) (ih.2 tx)

/-! ## Runtimes -/

/-- What the runtime holds has been encoded, and the scheme of its key is
registered. -/
structure NodeRuntime.Fits (runtime : NodeRuntime) : Prop where
  ledger : runtime.chain.ledger.Fits
  committed : ∀ tx ∈ committedTransactions runtime.blocks,
    tx.core.LengthsFit
  pending : ∀ tx ∈ runtime.pendingTransactions, tx.Fits
  scheme : (runtime.consensus.registry
    runtime.consensus.signingScheme).isSome

namespace NodeRuntime.Fits

variable {runtime : NodeRuntime} {saves : SaveOutcomes} {tx : Transaction}

omit [Bincode] [PqCrypto] in
theorem anyTxId_isSome {txs : List Transaction}
    (h : ∀ tx ∈ txs, tx.core.LengthsFit) (txId : Hash256) :
    (anyTxId txId txs).isSome := by
  induction txs with
  | nil => rfl
  | cons tx txs ih =>
      obtain ⟨other, hother⟩ := Transaction.exists_txId (h tx List.mem_cons_self)
      rw [anyTxId, hother, Option.bind_eq_bind, Option.bind_some]
      split
      · rfl
      · exact ih fun tx htx => h tx (List.mem_cons_of_mem _ htx)

theorem retain_panicFree {config : VmConfig} {height : UInt64}
    {chainId : UInt32} {committedTxIds : List Hash256} {ledger : LedgerState}
    {txs : List Transaction} (h : ledger.Fits) (htxs : ∀ tx ∈ txs, tx.Fits) :
    PanicFree (retain (deterministicScriptEngine config) height chainId
      committedTxIds ledger txs) := by
  induction txs generalizing ledger with
  | nil => exact .ok _
  | cons tx txs ih =>
      have htx := htxs tx List.mem_cons_self
      have hrest : ∀ tx ∈ txs, tx.Fits := fun tx htx =>
        htxs tx (List.mem_cons_of_mem _ htx)
      have hfree : PanicFree (ledger.applyTransaction tx
          (deterministicScriptEngine config) height chainId).1 :=
        h.applyTransaction_panicFree htx
      have hafter : (ledger.applyTransaction tx
          (deterministicScriptEngine config) height chainId).2.Fits :=
        h.applyTransaction _
      rw [retain]
      refine (PanicFree.orPanic (Option.isSome_iff_exists.mpr
        (Transaction.exists_txId htx.core))).bind fun txId _ => ?_
      refine .ite (fun _ => ih h hrest) fun _ => ?_
      split
      · rename_i ledger' happly
        rw [happly] at hafter
        exact (ih hafter hrest).bind fun _ _ => .pure _
      · rename_i err ledger' happly
        rw [happly] at hafter
        exact ih hafter hrest
      · rename_i ledger' happly
        rw [happly] at hfree
        exact absurd rfl hfree

/-- The mempool is reconciled without a panic. -/
theorem reconcile_panicFree (h : runtime.Fits) :
    PanicFree runtime.reconcilePendingTransactions.1 := by
  unfold reconcilePendingTransactions
  split
  · exact .ok ()
  · have hids : ∃ ids, txIdsOf (committedTransactions runtime.blocks) =
        some ids :=
      exists_txIdsOf.mpr fun tx htx =>
        Transaction.exists_txId (h.committed tx htx)
    obtain ⟨ids, hids⟩ := hids
    rw [hids]
    dsimp only
    have hretain : PanicFree (retain runtime.engine runtime.nextHeight
        runtime.chain.chainId ids runtime.chain.ledger
        runtime.pendingTransactions) := retain_panicFree h.ledger h.pending
    split
    · exact .ok ()
    · rename_i abort hfailed
      rw [hfailed] at hretain
      exact PanicFree.of_error hretain

theorem prepareBlock_panicFree (h : runtime.Fits) {block : Block}
    (hblock : block.Fits) : PanicFree (runtime.prepareBlock block) :=
  (validateReplayedBlock_panicFree h.ledger hblock _ _).mapErr.bind fun _ _ =>
    (ChainState.applyBlock_panicFree h.ledger hblock _).mapErr.bind
      fun _ _ => .pure _

/-- The runtime once a block has been added. -/
theorem advance (h : runtime.Fits) {block : Block} {nextChain : ChainState}
    {nextBlocks : List Block}
    (hprepare : runtime.prepareBlock block = .ok (nextChain, nextBlocks)) :
    (runtime.advance nextChain nextBlocks).Fits := by
  obtain ⟨-, happlied, rfl⟩ := prepareBlock_eq_ok.mp hprepare
  obtain ⟨ledger, stateRoot, hledger, -, rfl⟩ :=
    ChainState.applyBlock_eq_ok.mp happlied
  obtain ⟨hfits, hblock⟩ := h.ledger.applyAll hledger
  refine ⟨hfits, fun tx htx => ?_, h.pending, h.scheme⟩
  rw [NodeRuntime.advance, committedTransactions, List.flatMap_append,
    List.flatMap_singleton, List.mem_append] at htx
  exact htx.elim (h.committed tx) (hblock tx)

/-- A prepared block which can be saved is applied. -/
theorem applyBlock_of_prepared (h : runtime.Fits) {block : Block}
    {nextChain : ChainState} {nextBlocks : List Block}
    (hprepare : runtime.prepareBlock block = .ok (nextChain, nextBlocks))
    (hblockHistory : saves.blockHistory = .ok ())
    (hchainState : saves.chainState = .ok ()) :
    ∃ pending, runtime.applyBlock block saves = (.ok nextChain.height,
      { runtime.advance nextChain nextBlocks with
        pendingTransactions := pending }) := by
  have hprepared : runtime.prepareAndSave block saves =
      .ok (nextChain, nextBlocks) := by
    rw [NodeRuntime.prepareAndSave, hprepare, hblockHistory, hchainState]
    rfl
  have hfree := (h.advance hprepare).reconcile_panicFree
  obtain ⟨pending, hpending⟩ := reconcilePendingTransactions_snd
    (runtime.advance nextChain nextBlocks)
  have hreconciled :
      (runtime.advance nextChain nextBlocks).reconcilePendingTransactions =
        (.ok (), { runtime.advance nextChain nextBlocks with
          pendingTransactions := pending }) := by
    refine Prod.ext ?_ hpending
    cases hresult : (runtime.advance nextChain
        nextBlocks).reconcilePendingTransactions.1 with
    | ok u => rfl
    | error abort =>
        rw [reconcilePendingTransactions_error hresult] at hresult
        exact absurd hresult hfree
  refine ⟨pending, ?_⟩
  rw [NodeRuntime.advance] at hreconciled
  simp only [NodeRuntime.applyBlock, hprepared, hreconciled]
  rfl

/-- The call panics only on a block which is too long. -/
theorem applyBlock_panicFree (h : runtime.Fits) {block : Block}
    (hblock : block.Fits) : PanicFree (runtime.applyBlock block saves).1 := by
  have hsaved : ∀ outcome, PanicFree (saved outcome) := by
    intro outcome
    cases outcome with
    | ok u => exact .ok u
    | error err => exact .err _
  have hsave : PanicFree (runtime.prepareAndSave block saves) :=
    (h.prepareBlock_panicFree hblock).bind fun _ _ =>
      (hsaved _).bind fun _ _ => (hsaved _).bind fun _ _ => .pure _
  rw [NodeRuntime.applyBlock]
  split
  · rename_i abort hfailed
    rw [hfailed] at hsave
    exact PanicFree.of_error hsave
  · rename_i nextChain nextBlocks hprepared
    simp only [prepareAndSave, bind_eq_ok, pure_eq_ok] at hprepared
    obtain ⟨next, hprepare, -, -, -, -, rfl⟩ := hprepared
    have hreconcile := (h.advance hprepare).reconcile_panicFree
    split
    · exact .ok _
    · rename_i abort _ hfailed
      rw [NodeRuntime.advance, hfailed] at hreconcile
      exact PanicFree.of_error hreconcile

theorem acceptTransaction_panicFree (h : runtime.Fits) (htx : tx.Fits) :
    PanicFree (runtime.acceptTransaction tx).1 := by
  have hcheck : PanicFree (runtime.checkAdmission tx) := by
    refine (PanicFree.orPanic (Option.isSome_iff_exists.mpr
      (Transaction.exists_txId htx.core))).bind fun txId _ => ?_
    refine (PanicFree.orPanic (anyTxId_isSome h.committed txId)).bind ?_
    refine fun _ _ => (PanicFree.require _ _).bind fun _ _ => ?_
    refine (PanicFree.orPanic (anyTxId_isSome
      (fun tx htx => (h.pending tx htx).core) txId)).bind fun _ _ => ?_
    refine .ite (fun _ => .pure _) fun _ => ?_
    refine (h.ledger.applyAll_panicFree h.pending).mapErr.bind ?_
    intro ledger hreplayed
    have hledger := (h.ledger.applyAll (mapErr_eq_ok.mp hreplayed)).1
    exact (hledger.applied_panicFree htx).mapErr.bind fun _ _ => .pure _
  rw [NodeRuntime.acceptTransaction]
  split
  · exact .ok _
  · exact hcheck

/-- A proposed block consists of pending transactions. -/
theorem block_fits (h : runtime.Fits) {clock : Except String UInt64}
    {entropy : ℕ} {block : Block}
    (hpropose : runtime.consensus.proposeBlock runtime.chain
      runtime.pendingTransactions clock entropy = .ok block) : block.Fits := by
  obtain ⟨-, htransactions, -, -⟩ := proposeBlock_spec hpropose
  rw [Block.Fits, htransactions]
  exact h.pending

theorem produceOneBlock_panicFree (h : runtime.Fits)
    (clock : Except String UInt64) (entropy : ℕ) :
    PanicFree (runtime.produceOneBlock clock entropy saves).1 := by
  have hturn : PanicFree (runtime.consensus.canProposeNextBlock
      runtime.chain) :=
    (expectedProposer_panicFree _ _).bind fun _ _ => .pure _
  have hpropose : PanicFree (runtime.consensus.proposeBlock runtime.chain
      runtime.pendingTransactions clock entropy) :=
    proposeBlock_panicFree h.ledger h.pending h.scheme clock entropy
  rw [NodeRuntime.produceOneBlock]
  split
  · rename_i abort hfailed
    have hfree := hturn.mapErr (f := NodeError.proposerSchedule)
    rw [hfailed] at hfree
    exact PanicFree.of_error hfree
  · exact .ok _
  · split
    · exact .ok _
    · split
      · rename_i abort hfailed
        have hfree := hpropose.mapErr (f := NodeError.proposeBlock)
        rw [hfailed] at hfree
        exact PanicFree.of_error hfree
      · rename_i block hproposed
        have hfree : PanicFree (runtime.applyBlock block saves).1 :=
          h.applyBlock_panicFree (h.block_fits (mapErr_eq_ok.mp hproposed))
        split
        · exact .ok _
        · rename_i abort _ hfailed
          rw [hfailed] at hfree
          exact PanicFree.of_error hfree

/-! ## Runs -/

theorem applyBlock (h : runtime.Fits) (block : Block) (saves : SaveOutcomes) :
    (runtime.applyBlock block saves).2.Fits := by
  rcases runtime.applyBlock_cases block saves with ⟨abort, happly⟩ |
    ⟨nextChain, nextBlocks, hprepare, -, -, happly⟩
  · rwa [happly]
  · rw [happly]
    have hadvanced := h.advance hprepare
    obtain ⟨pending, hpending⟩ := reconcilePendingTransactions_snd
      (runtime.advance nextChain nextBlocks)
    dsimp only
    refine ⟨?_, ?_, fun tx htx => ?_, ?_⟩
    · rw [hpending]
      exact hadvanced.ledger
    · rw [hpending]
      exact hadvanced.committed
    · exact hadvanced.pending tx (mem_pending_reconcile htx)
    · rw [hpending]
      exact hadvanced.scheme

/-- Only an accepted transaction becomes pending. -/
theorem acceptTransaction (h : runtime.Fits) (tx : Transaction) :
    (runtime.acceptTransaction tx).2.Fits := by
  rcases runtime.acceptTransaction_cases tx with hsame |
    ⟨txId, hcheck, haccept⟩
  · rwa [hsame]
  · rw [haccept]
    obtain ⟨htxId, -, -, mid, ledger, -, happlied⟩ :=
      MempoolValid.checkAdmission_acceptedNew hcheck
    have haccepts := (LedgerState.applyTransaction_eq_ok.mp
      (LedgerState.applied_eq_ok.mp happlied)).1
    refine ⟨h.ledger, h.committed, fun other hother => ?_, h.scheme⟩
    rcases List.mem_append.mp hother with hold | hnew
    · exact h.pending other hold
    · rw [List.mem_singleton.mp hnew]
      exact haccepts.fits htxId

theorem perform (h : runtime.Fits) (call : Call) :
    (runtime.perform call).Fits := by
  cases call with
  | acceptTransaction tx => exact h.acceptTransaction tx
  | applyBlock block saves => exact h.applyBlock block saves
  | produceOneBlock clock entropy saves =>
      rcases runtime.produceOneBlock_cases clock entropy saves with
        ⟨-, hsame⟩ | ⟨block, -, -, hproduce⟩
      · rwa [NodeRuntime.perform, hsame]
      · rw [NodeRuntime.perform, hproduce]
        exact h.applyBlock block saves

end NodeRuntime.Fits

/-- A node whose history replays holds nothing that is too long. -/
theorem Replayable.fits {config : NodeConfig} {runtime : NodeRuntime}
    (h : Replayable config runtime)
    (hscheme : (defaultRegistry config.publicKey.scheme).isSome)
    (hpending : runtime.pendingTransactions = []) : runtime.Fits := by
  obtain ⟨steps, hsteps⟩ := AcceptedChain.of_rebuild h.rebuilt
  obtain ⟨hledger, hcommitted⟩ := hsteps.fits
  refine ⟨hledger, fun tx htx => hcommitted tx ?_, by simp [hpending], ?_⟩
  · obtain ⟨block, hblock, htx⟩ := List.mem_flatMap.mp htx
    exact List.mem_flatMap.mpr ⟨block, List.mem_reverse.mpr hblock, htx⟩
  · rw [(fromKeys_eq_ok.mp h.engine).2]
    exact hscheme

end PanicFreedom

end QCoin
