import QCoin.Consensus.Engine
import QCoin.Ledger.History

/-!
# Accepted chains

What a successful validation and a successful application of a block mean, and
the chains of blocks which both accept.  Blocks are listed latest first.
-/

namespace QCoin

open Support
open Support.Result

section Blocks

variable [Blake3] [Bincode]

/-! ## Applying blocks -/

theorem LedgerState.applied_eq_ok {ledger ledger' : LedgerState}
    {tx : Transaction} {engine : ScriptEngine} {currentHeight : UInt64}
    {chainId : UInt32} :
    ledger.applied tx engine currentHeight chainId = .ok ledger' ↔
      ledger.applyTransaction tx engine currentHeight chainId =
        (.ok (), ledger') := by
  rw [applied]
  cases happly : ledger.applyTransaction tx engine currentHeight chainId with
  | mk result after =>
      cases result with
      | ok u => simp
      | error abort => simp

theorem LedgerState.applyAll_cons_eq_ok {ledger ledger' : LedgerState}
    {tx : Transaction} {txs : List Transaction} {engine : ScriptEngine}
    {currentHeight : UInt64} {chainId : UInt32} :
    ledger.applyAll (tx :: txs) engine currentHeight chainId = .ok ledger' ↔
      ∃ mid, ledger.applyTransaction tx engine currentHeight chainId =
          (.ok (), mid) ∧
        mid.applyAll txs engine currentHeight chainId = .ok ledger' := by
  rw [applyAll, List.foldlM_cons, bind_eq_ok]
  simp only [applied_eq_ok]
  rfl

/-- What the effect of each core preserves between two ledgers, transactions
with the same cores preserve, whatever their witnesses and the script
engines. -/
theorem LedgerState.applyAll_rel {R : LedgerState → LedgerState → Prop}
    {ledger₁ ledger₂ after₁ after₂ : LedgerState}
    {txs₁ txs₂ : List Transaction} {engine₁ engine₂ : ScriptEngine}
    {currentHeight : UInt64} {chainId₁ chainId₂ : UInt32}
    (hstep : ∀ {ledger₁ ledger₂ : LedgerState} (core : TransactionCore)
      (txId : Hash256), R ledger₁ ledger₂ →
      R (ledger₁.afterCore core txId currentHeight chainId₁)
        (ledger₂.afterCore core txId currentHeight chainId₂))
    (hrel : R ledger₁ ledger₂)
    (hcores : txs₁.map Transaction.core = txs₂.map Transaction.core)
    (h₁ : ledger₁.applyAll txs₁ engine₁ currentHeight chainId₁ = .ok after₁)
    (h₂ : ledger₂.applyAll txs₂ engine₂ currentHeight chainId₂ =
      .ok after₂) : R after₁ after₂ := by
  induction txs₁ generalizing ledger₁ ledger₂ txs₂ with
  | nil =>
      have hnil : txs₂ = [] := by simpa using hcores.symm
      subst hnil
      rw [← Except.ok.inj h₁, ← Except.ok.inj h₂]
      exact hrel
  | cons tx₁ txs₁ ih =>
      cases txs₂ with
      | nil => simp at hcores
      | cons tx₂ txs₂ =>
          rw [List.map_cons, List.map_cons, List.cons.injEq] at hcores
          obtain ⟨mid₁, hmid₁, hrest₁⟩ := applyAll_cons_eq_ok.mp h₁
          obtain ⟨mid₂, hmid₂, hrest₂⟩ := applyAll_cons_eq_ok.mp h₂
          obtain ⟨-, id₁, hid₁, rfl⟩ := applyTransaction_eq_ok.mp hmid₁
          obtain ⟨-, id₂, hid₂, rfl⟩ := applyTransaction_eq_ok.mp hmid₂
          have hid : id₁ = id₂ := by
            rw [Transaction.txId, hcores.1] at hid₁
            exact Option.some.inj (hid₁.symm.trans hid₂)
          rw [hid, hcores.1] at hrest₁
          exact ih (hstep tx₂.core id₂ hrel) hcores.2 hrest₁ hrest₂

/-- Lists of transactions with the same cores have the same effect. -/
theorem LedgerState.applyAll_core_determined
    {ledger ledger₁ ledger₂ : LedgerState} {txs₁ txs₂ : List Transaction}
    {engine₁ engine₂ : ScriptEngine} {currentHeight : UInt64}
    {chainId : UInt32}
    (hcores : txs₁.map Transaction.core = txs₂.map Transaction.core)
    (h₁ : ledger.applyAll txs₁ engine₁ currentHeight chainId = .ok ledger₁)
    (h₂ : ledger.applyAll txs₂ engine₂ currentHeight chainId = .ok ledger₂) :
    ledger₁ = ledger₂ := by
  refine applyAll_rel (R := Eq) ?_ rfl hcores h₁ h₂
  rintro ledger _ core txId rfl
  rfl

theorem ChainState.applyBlock_eq_ok {chain chain' : ChainState}
    {block : Block} {engine : ScriptEngine} :
    chain.applyBlock block engine = .ok chain' ↔
      ∃ ledger stateRoot,
        chain.ledger.applyAll block.transactions engine block.header.height
          chain.chainId = .ok ledger ∧
        ledger.stateRoot = some stateRoot ∧
        chain' = {
          ledger := ledger
          height := block.header.height
          tipHash := block.header.hash
          stateRoot := stateRoot
          lastTimestamp := block.header.timestamp
          chainId := chain.chainId } := by
  simp only [applyBlock, bind_eq_ok, orPanic_eq_ok, pure_eq_ok]
  constructor
  · rintro ⟨ledger, hledger, stateRoot, hroot, rfl⟩
    exact ⟨ledger, stateRoot, hledger, hroot, rfl⟩
  · rintro ⟨ledger, stateRoot, hledger, hroot, rfl⟩
    exact ⟨ledger, hledger, stateRoot, hroot, rfl⟩

theorem ChainState.applyBlock_chainId {chain chain' : ChainState}
    {block : Block} {engine : ScriptEngine}
    (h : chain.applyBlock block engine = .ok chain') :
    chain'.chainId = chain.chainId := by
  obtain ⟨ledger, stateRoot, -, -, rfl⟩ := applyBlock_eq_ok.mp h
  rfl

/-! ## The trace of a block -/

section Trace

variable {chainId : UInt32}

/-- The successful applications of a list of transactions, in order; the trace
stops where one fails. -/
def LedgerState.trace (ledger : LedgerState) (engine : ScriptEngine)
    (currentHeight : UInt64) (chainId : UInt32) :
    List Transaction → List (AppliedStep chainId)
  | [] => []
  | tx :: txs =>
      if h : (ledger.applyTransaction tx engine currentHeight
          chainId).1.isOk = true then
        let after :=
          (ledger.applyTransaction tx engine currentHeight chainId).2
        ⟨ledger, tx, engine, currentHeight, after,
          Prod.ext (eq_ok_of_isOk h) rfl⟩ ::
          after.trace engine currentHeight chainId txs
      else []

theorem LedgerState.trace_cons {ledger mid : LedgerState} {tx : Transaction}
    {engine : ScriptEngine} {currentHeight : UInt64} (txs : List Transaction)
    (h : ledger.applyTransaction tx engine currentHeight chainId =
      (.ok (), mid)) :
    ledger.trace engine currentHeight chainId (tx :: txs) =
      ⟨ledger, tx, engine, currentHeight, mid, h⟩ ::
        mid.trace engine currentHeight chainId txs := by
  have hmid : (ledger.applyTransaction tx engine currentHeight chainId).2 =
      mid := by
    rw [h]
  subst hmid
  rw [trace, dif_pos (by rw [h]; rfl)]

/-- Applying a list of transactions extends a run by its trace. -/
theorem LedgerRun.applyAll {ledger ledger' : LedgerState}
    {txs : List Transaction} {engine : ScriptEngine} {currentHeight : UInt64}
    {steps : List (AppliedStep chainId)}
    (run : LedgerRun chainId steps ledger)
    (h : ledger.applyAll txs engine currentHeight chainId = .ok ledger') :
    LedgerRun chainId
        ((ledger.trace engine currentHeight chainId txs).reverse ++ steps)
        ledger' ∧
      (ledger.trace engine currentHeight chainId txs).map
        AppliedStep.tx = txs := by
  induction txs generalizing ledger steps with
  | nil =>
      have heq : ledger = ledger' := Except.ok.inj h
      subst heq
      exact ⟨run, rfl⟩
  | cons tx txs ih =>
      obtain ⟨mid, hmid, hrest⟩ := LedgerState.applyAll_cons_eq_ok.mp h
      rw [LedgerState.trace_cons txs hmid]
      let step : AppliedStep chainId :=
        ⟨ledger, tx, engine, currentHeight, mid, hmid⟩
      obtain ⟨hrun, htxs⟩ := ih (LedgerRun.apply step run) hrest
      refine ⟨?_, by rw [List.map_cons, htxs]⟩
      rw [List.reverse_cons, List.append_assoc]
      exact hrun

end Trace

/-! ## Validating blocks -/

omit [Bincode] in
/-- The preimage of a transaction root lists the ids. -/
theorem txRootPreimage_eq_some {txs : List Transaction} {x : Bytes}
    (h : txRootPreimage txs = some x) :
    ∃ ids : List Hash256, txs.map Transaction.txId = ids.map some ∧
      encodeAll (fun id => some (encodeHash id)) ids = some x := by
  induction txs generalizing x with
  | nil => exact ⟨[], rfl, h⟩
  | cons tx txs ih =>
      obtain ⟨first, rest, hfirst, hrest, rfl⟩ := encodeAppend_eq_some.mp h
      obtain ⟨id, hid, rfl⟩ := Option.map_eq_some_iff.mp hfirst
      obtain ⟨ids, hids, hencode⟩ := ih hrest
      refine ⟨id :: ids, by rw [List.map_cons, hid, hids]; rfl, ?_⟩
      exact encodeAppend_eq_some.mpr ⟨_, rest, rfl, hencode, rfl⟩


variable [PqCrypto]

theorem computeStateRoot_eq_ok {chain : ChainState} {txs : List Transaction}
    {height : UInt64} {stateRoot : Hash256} :
    computeStateRoot chain txs height = .ok stateRoot ↔
      ∃ ledger, chain.ledger.applyAll txs defaultScriptEngine height
          chain.chainId = .ok ledger ∧
        ledger.stateRoot = some stateRoot := by
  simp only [computeStateRoot, bind_eq_ok, mapErr_eq_ok, orPanic_eq_ok]

/-- The conditions checked by `validate_replayed_block`. -/
structure ReplayValid (registry : PqSchemeRegistry) (chain : ChainState)
    (block : Block) (validators : List PublicKey) : Prop where
  height : block.header.height = chain.height + 1
  parent : block.header.parentHash = chain.tipHash
  timestamp : chain.lastTimestamp < block.header.timestamp
  proposer : validators ≠ [] →
    expectedProposerForValidators validators block.header.height =
      .ok block.proposerPublicKey
  txRoot : computeTxRoot block.transactions = some block.header.txRoot
  stateRoot : computeStateRoot chain block.transactions block.header.height =
    .ok block.header.stateRoot
  signed : verifyHeader registry block = .ok ()

omit [Blake3] [Bincode] [PqCrypto] in
theorem checkProposer_eq_ok {block : Block} {validators : List PublicKey}
    {u : Unit} :
    checkProposer block validators = .ok u ↔
      (validators ≠ [] →
        expectedProposerForValidators validators block.header.height =
          .ok block.proposerPublicKey) := by
  by_cases hempty : validators = []
  · simp [checkProposer, hempty]
  · rw [checkProposer, if_neg hempty, bind_eq_ok]
    simp only [require_eq_ok, ne_eq, hempty, not_false_eq_true, true_implies]
    constructor
    · rintro ⟨expected, hexpected, rfl⟩
      exact hexpected
    · intro hexpected
      exact ⟨_, hexpected, rfl⟩

omit [Blake3] [Bincode] [PqCrypto] in
theorem verifyHeader_eq_ok {registry : PqSchemeRegistry} {block : Block}
    {u : Unit} :
    verifyHeader registry block = .ok u ↔ ∃ scheme,
      registry block.signature.scheme = some scheme ∧
      scheme.verify block.proposerPublicKey (encodeBlockHeader block.header)
        block.signature = .ok () := by
  simp only [verifyHeader, bind_eq_ok, okOr_eq_ok, require_eq_ok]
  refine exists_congr fun scheme => and_congr_right fun _ => ?_
  cases scheme.verify block.proposerPublicKey
      (encodeBlockHeader block.header) block.signature <;>
    simp [Except.isOk, Except.toBool]

theorem validateReplayedBlock_eq_ok {registry : PqSchemeRegistry}
    {chain : ChainState} {block : Block} {validators : List PublicKey}
    {u : Unit} :
    validateReplayedBlock registry chain block validators = .ok u ↔
      ReplayValid registry chain block validators := by
  simp only [validateReplayedBlock, bind_eq_ok, require_eq_ok,
    checkProposer_eq_ok, orPanic_eq_ok, UInt64.not_le]
  constructor
  · rintro ⟨-, hheight, -, hparent, -, htimestamp, -, hproposer, txRoot,
      htxRoot, -, rfl, stateRoot, hstateRoot, -, rfl, hsigned⟩
    exact ⟨hheight, hparent, htimestamp, hproposer, htxRoot, hstateRoot,
      hsigned⟩
  · intro h
    exact ⟨(), h.height, (), h.parent, (), h.timestamp, (), h.proposer, _,
      h.txRoot, (), rfl, _, h.stateRoot, (), rfl, h.signed⟩

/-! ## Proposing blocks -/

section Proposal

variable {consensus : DummyConsensusEngine} {chain : ChainState}
  {txs : List Transaction} {clock : Except String UInt64} {entropy : ℕ}

omit [Blake3] [Bincode] [PqCrypto] in
theorem fromKeys_eq_ok {registry : PqSchemeRegistry} {publicKey : PublicKey}
    {signingKey : PrivateKey} {validators : List PublicKey} :
    DummyConsensusEngine.fromKeys registry publicKey signingKey validators =
        .ok consensus ↔
      publicKey.scheme = signingKey.scheme ∧ consensus = {
        registry := registry
        signingScheme := publicKey.scheme
        signingKey := signingKey
        publicKey := publicKey
        validators := if validators = [] then [publicKey] else validators } := by
  simp only [DummyConsensusEngine.fromKeys, bind_eq_ok, require_eq_ok,
    pure_eq_ok, not_not, exists_const]
  exact and_congr_right fun _ => eq_comm

theorem proposeBlock_spec {block : Block}
    (h : consensus.proposeBlock chain txs clock entropy = .ok block) :
    consensus.expectedProposer (chain.height + 1) = .ok consensus.publicKey ∧
      block.transactions = txs ∧ block.header.height = chain.height + 1 ∧
      block.proposerPublicKey = consensus.publicKey := by
  simp only [DummyConsensusEngine.proposeBlock, bind_eq_ok, require_eq_ok,
    not_not, pure_eq_ok] at h
  obtain ⟨expected, hexpected, -, rfl, stateRoot, -, txRoot, -, timestamp, -,
    signature, -, rfl⟩ := h
  exact ⟨hexpected, rfl, rfl, rfl⟩

/-- Transactions which apply in order never make `propose_block` report a
ledger error. -/
theorem proposeBlock_ne_ledgerError {ledger : LedgerState}
    (happly : chain.ledger.applyAll txs defaultScriptEngine (chain.height + 1)
      chain.chainId = .ok ledger) (message : String) :
    consensus.proposeBlock chain txs clock entropy ≠
      .error (.err (.ledgerError message)) := by
  intro h
  rw [DummyConsensusEngine.proposeBlock, bind_eq_error] at h
  rcases h with h | ⟨expected, -, h⟩
  · rw [DummyConsensusEngine.expectedProposer, expectedProposerForValidators,
      bind_eq_error] at h
    simp [require_eq_error, okOr_eq_error] at h
  rw [bind_eq_error] at h
  rcases h with h | ⟨-, -, h⟩
  · simp [require_eq_error] at h
  rw [bind_eq_error] at h
  rcases h with h | ⟨stateRoot, -, h⟩
  · rw [computeStateRoot, happly, bind_eq_error] at h
    simp [mapErr, orPanic_eq_error] at h
  rw [bind_eq_error] at h
  rcases h with h | ⟨txRoot, -, h⟩
  · simp [orPanic_eq_error] at h
  rw [bind_eq_error] at h
  rcases h with h | ⟨timestamp, -, h⟩
  · cases clock <;> simp [DummyConsensusEngine.currentTimestamp] at h
  rw [bind_eq_error] at h
  rcases h with h | ⟨signature, -, h⟩
  · rw [DummyConsensusEngine.signHeader, bind_eq_error] at h
    rcases h with h | ⟨scheme, -, h⟩
    · simp [orPanic_eq_error] at h
    · split at h
      · exact pure_ne_error h
      · simp at h
  · exact pure_ne_error h

end Proposal

/-! ## Chains -/

/-- Chains from the default chain state, each block of which was accepted by
`validate_replayed_block` and applied by `ChainState::apply_block`.  The
validators may change from block to block. -/
inductive AcceptedChain (chainId : UInt32) :
    List Block → List (AppliedStep chainId) → ChainState → Prop where
  | genesis : AcceptedChain chainId [] [] (defaultChainStateWithId chainId)
  | extend {blocks : List Block} {steps : List (AppliedStep chainId)}
      {chain chain' : ChainState} {block : Block}
      {registry : PqSchemeRegistry} {validators : List PublicKey}
      {engine : ScriptEngine}
      (past : AcceptedChain chainId blocks steps chain)
      (valid : validateReplayedBlock registry chain block validators =
        .ok ())
      (applied : chain.applyBlock block engine = .ok chain') :
      AcceptedChain chainId (block :: blocks)
        ((chain.ledger.trace engine block.header.height chainId
          block.transactions).reverse ++ steps) chain'

namespace AcceptedChain

variable {chainId : UInt32} {blocks : List Block}
  {steps : List (AppliedStep chainId)} {chain : ChainState}

theorem chainId_eq (h : AcceptedChain chainId blocks steps chain) :
    chain.chainId = chainId := by
  induction h with
  | genesis => rfl
  | extend past valid applied ih =>
      exact (ChainState.applyBlock_chainId applied).trans ih

theorem stateRoot_eq (h : AcceptedChain chainId blocks steps chain) :
    chain.ledger.stateRoot = some chain.stateRoot := by
  cases h with
  | genesis => rfl
  | extend past valid applied =>
      obtain ⟨ledger, stateRoot, -, hroot, rfl⟩ :=
        ChainState.applyBlock_eq_ok.mp applied
      exact hroot

theorem run (h : AcceptedChain chainId blocks steps chain) :
    LedgerRun chainId steps chain.ledger ∧
      steps.map AppliedStep.tx =
        blocks.flatMap fun block => block.transactions.reverse := by
  induction h with
  | genesis => exact ⟨LedgerRun.empty, rfl⟩
  | extend past valid applied ih =>
      obtain ⟨ledger, stateRoot, hledger, -, rfl⟩ :=
        ChainState.applyBlock_eq_ok.mp applied
      rw [past.chainId_eq] at hledger
      obtain ⟨hrun, htxs⟩ := ih.1.applyAll hledger
      refine ⟨hrun, ?_⟩
      rw [List.map_append, List.map_reverse, htxs, ih.2, List.flatMap_cons]

/-- The height counts the blocks; timestamps grow strictly, so it does not
wrap. -/
theorem height_eq_length (h : AcceptedChain chainId blocks steps chain) :
    chain.height.toNat = blocks.length ∧
      blocks.length ≤ chain.lastTimestamp.toNat := by
  induction h with
  | genesis => exact ⟨rfl, Nat.zero_le _⟩
  | @extend blocks steps chain chain' block registry validators engine past
      valid applied ih =>
      obtain ⟨ledger, stateRoot, -, -, rfl⟩ :=
        ChainState.applyBlock_eq_ok.mp applied
      have hvalid := validateReplayedBlock_eq_ok.mp valid
      have htimestamp := UInt64.lt_iff_toNat_lt.mp hvalid.timestamp
      have hbound := block.header.timestamp.toNat_lt
      have hheight : block.header.height.toNat = blocks.length + 1 := by
        rw [hvalid.height, UInt64.toNat_add, ih.1]
        have hone : (1 : UInt64).toNat = 1 := rfl
        rw [hone]
        exact Nat.mod_eq_of_lt (by omega)
      refine ⟨by simpa using hheight, ?_⟩
      change blocks.length + 1 ≤ block.header.timestamp.toNat
      omega

end AcceptedChain

end Blocks

end QCoin
