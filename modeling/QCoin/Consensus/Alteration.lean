import QCoin.Consensus.TipCommitment

/-!
# Altered blocks

The signature of a block covers its header, the header covers the transaction
cores, and validation pins the script and the metadata presented for every
input.  What a block carries beyond that can be altered: witness entries
without an input, and bytes which decode to the same witness.
-/

namespace QCoin

open Support
open Support.Result

/-! ## Evaluation reads the core only -/

section Evaluation

variable [Blake3] [PqCrypto]

namespace ScriptContext

/-- The context with another witness in its transaction. -/
def withWitness (ctx : ScriptContext) (witness : TransactionWitness) :
    ScriptContext :=
  { ctx with tx := ⟨ctx.tx.core, witness⟩ }

variable (ctx : ScriptContext) (witness : TransactionWitness)
  (host : ScriptHost)

theorem verifyInput_withWitness (failure : String) (publicKey : PublicKey)
    (signature : Signature) :
    verifyInput failure (ctx.withWitness witness) host publicKey signature =
      verifyInput failure ctx host publicKey signature := rfl

theorem verifyPaired_withWitness (pubkeys : List PublicKey) (idx : ℕ)
    (signatures : List Signature) :
    verifyPaired (ctx.withWitness witness) host pubkeys idx signatures =
      verifyPaired ctx host pubkeys idx signatures := by
  induction signatures generalizing idx with
  | nil => simp only [verifyPaired]
  | cons signature signatures ih =>
      simp only [verifyPaired, ih, verifyInput_withWitness]

theorem runOp_withWitness (config : VmConfig) (stack : Stack) (op : OpCode) :
    runOp config (ctx.withWitness witness) host stack op =
      runOp config ctx host stack op := by
  cases op with
  | checkMultiSig threshold total =>
      simp only [runOp, checkMultiSig, verifyPaired_withWitness]
  | _ => rfl

theorem engine_withWitness (config : VmConfig) (script : Script) :
    deterministicScriptEngine config script (ctx.withWitness witness) host =
      deterministicScriptEngine config script ctx host := by
  have hstep : Vm.step config (ctx.withWitness witness) host =
      Vm.step config ctx host := by
    funext vm op
    simp only [Vm.step, runOp_withWitness]
  simp only [deterministicScriptEngine, hstep]

end ScriptContext

end Evaluation

/-! ## Transactions which unlock alike -/

section Unlocking

variable [Blake3] [Bincode]

/-- What is presented for the input with the given index. -/
def Transaction.presents (tx : Transaction) (inputIndex : ℕ) :
    Option InputWitness :=
  tx.witness.inputs[inputIndex]?.bind Bincode.deserializeWitness

/-- One core, and the same script and metadata for each of its inputs. -/
structure UnlocksAlike (tx tx' : Transaction) : Prop where
  core : tx.core = tx'.core
  presents : ∀ i < tx.core.inputs.length, tx.presents i = tx'.presents i

/-- The scripts and the metadata presented for the inputs. -/
def Transaction.presented (tx : Transaction) : Set Bytes :=
  {x | ∃ i < tx.core.inputs.length, ∃ witness, tx.presents i = some witness ∧
    (encodeScript witness.script = some x ∨ witness.metadata = some x)}

def Block.presented (block : Block) : Set Bytes :=
  {x | ∃ tx ∈ block.transactions, x ∈ tx.presented}

omit [Bincode] in
theorem metadata_eq_of_matches {strings : Set Bytes}
    (hfree : CollisionFree strings) {expected : Option Hash256}
    {metadata metadata' : Option Bytes}
    (hmem : ∀ x ∈ metadata, x ∈ strings)
    (hmem' : ∀ x ∈ metadata', x ∈ strings)
    (h : metadataMatches expected metadata = true)
    (h' : metadataMatches expected metadata' = true) :
    metadata = metadata' := by
  cases expected with
  | none =>
      cases metadata with
      | some x => simp [metadataMatches] at h
      | none =>
          cases metadata' with
          | some x => simp [metadataMatches] at h'
          | none => rfl
  | some hash =>
      cases metadata with
      | none => simp [metadataMatches] at h
      | some x =>
          cases metadata' with
          | none => simp [metadataMatches] at h'
          | some x' =>
              rw [metadataMatches, beq_iff_eq] at h h'
              exact congrArg some (hfree (hmem x (Option.mem_some_self x))
                (hmem' x' (Option.mem_some_self x')) (h.symm.trans h'))

namespace LedgerState

variable {ledger : LedgerState} {tx tx' : Transaction} {config : VmConfig}
  {currentHeight : UInt64} {chainId : UInt32}

theorem InputUnlocked.presents {engine : ScriptEngine}
    {input : TransactionInput} {i : ℕ} {tracked : TrackedOutput}
    {witness : InputWitness}
    (h : ledger.InputUnlocked tx engine currentHeight chainId input i tracked
      witness) : tx.presents i = some witness := by
  obtain ⟨bytes, hbytes, hdecode⟩ := h.presented
  rw [Transaction.presents, hbytes, Option.bind_some, hdecode]

/-- Two witnesses which unlock one input agree. -/
theorem InputUnlocked.witness_eq {engine engine' : ScriptEngine}
    (hfree : CollisionFree (tx.presented ∪ tx'.presented))
    (hcore : tx.core = tx'.core) {input : TransactionInput} {i : ℕ}
    (hi : i < tx.core.inputs.length) {tracked tracked' : TrackedOutput}
    {witness witness' : InputWitness}
    (h : ledger.InputUnlocked tx engine currentHeight chainId input i tracked
      witness)
    (h' : ledger.InputUnlocked tx' engine' currentHeight chainId input i
      tracked' witness') : witness = witness' := by
  obtain rfl : tracked = tracked' :=
    Option.some.inj (h.found.symm.trans h'.found)
  have hmem : ∀ x, encodeScript witness.script = some x ∨
      witness.metadata = some x → x ∈ tx.presented ∪ tx'.presented :=
    fun x hx => Or.inl ⟨i, hi, witness, h.presents, hx⟩
  have hmem' : ∀ x, encodeScript witness'.script = some x ∨
      witness'.metadata = some x → x ∈ tx.presented ∪ tx'.presented :=
    fun x hx => Or.inr ⟨i, hcore ▸ hi, witness', h'.presents, hx⟩
  obtain ⟨bytes, hbytes, hhash⟩ := h.scriptMatches
  obtain ⟨bytes', hbytes', hhash'⟩ := h'.scriptMatches
  obtain rfl : bytes = bytes' := hfree (hmem _ (Or.inl hbytes))
    (hmem' _ (Or.inl hbytes')) (hhash.trans hhash'.symm)
  have hscript : witness.script = witness'.script :=
    encodeScript_selfDelimiting.uniquelyEncoded hbytes hbytes'
  have hmetadata : witness.metadata = witness'.metadata :=
    metadata_eq_of_matches hfree (fun x hx => hmem x (Or.inr hx))
      (fun x hx => hmem' x (Or.inr hx)) h.metadataOk h'.metadataOk
  cases witness
  cases witness'
  exact InputWitness.mk.injEq .. |>.mpr ⟨hscript, hmetadata⟩

/-- Validation pins what is presented for the inputs. -/
theorem Accepts.unlocksAlike {engine engine' : ScriptEngine}
    (hfree : CollisionFree (tx.presented ∪ tx'.presented))
    (hcore : tx.core = tx'.core)
    (h : ledger.Accepts tx engine currentHeight chainId)
    (h' : ledger.Accepts tx' engine' currentHeight chainId) :
    UnlocksAlike tx tx' := by
  refine ⟨hcore, fun i hi => ?_⟩
  obtain ⟨input, hinput⟩ : ∃ input, tx.core.inputs[i]? = some input :=
    ⟨_, List.getElem?_eq_getElem hi⟩
  have hentry : (input, i) ∈ tx.core.inputs.zipIdx :=
    List.mem_zipIdx_iff_getElem?.mpr hinput
  obtain ⟨tracked, witness, hunlocked⟩ := h.unlocked _ hentry
  rw [hcore] at hentry
  obtain ⟨tracked', witness', hunlocked'⟩ := h'.unlocked _ hentry
  rw [hunlocked.presents, hunlocked'.presents,
    hunlocked.witness_eq hfree hcore hi hunlocked']

variable [PqCrypto]

theorem InputUnlocked.of_unlocksAlike {input : TransactionInput} {i : ℕ}
    {tracked : TrackedOutput} {witness : InputWitness}
    (halike : UnlocksAlike tx tx') (hi : i < tx.core.inputs.length)
    (h : ledger.InputUnlocked tx (deterministicScriptEngine config)
      currentHeight chainId input i tracked witness) :
    ledger.InputUnlocked tx' (deterministicScriptEngine config) currentHeight
      chainId input i tracked witness := by
  have hpresents : tx'.presents i = some witness := by
    rw [← halike.presents i hi, h.presents]
  obtain ⟨bytes, hbytes, hdecode⟩ := Option.bind_eq_some_iff.mp hpresents
  refine ⟨h.found, ⟨bytes, hbytes, hdecode⟩, h.scriptMatches, h.metadataOk, ?_⟩
  have hcontext : inputContext tx' i currentHeight chainId tracked =
      (inputContext tx i currentHeight chainId tracked).withWitness
        tx'.witness := by
    simp only [inputContext, ScriptContext.withWitness, halike.core]
  rw [hcontext, ScriptContext.engine_withWitness]
  exact h.evaluates

theorem Accepts.of_unlocksAlike (halike : UnlocksAlike tx tx')
    (h : ledger.Accepts tx (deterministicScriptEngine config) currentHeight
      chainId) :
    ledger.Accepts tx' (deterministicScriptEngine config) currentHeight
      chainId where
  inputsDistinct := halike.core ▸ h.inputsDistinct
  unlocked := by
    rintro ⟨input, i⟩ hentry
    rw [← halike.core] at hentry
    have hi : i < tx.core.inputs.length :=
      (List.getElem?_eq_some_iff.mp
        (List.mem_zipIdx_iff_getElem?.mp hentry)).1
    obtain ⟨tracked, witness, hunlocked⟩ := h.unlocked _ hentry
    exact ⟨tracked, witness, hunlocked.of_unlocksAlike halike hi⟩
  creation := halike.core ▸ h.creation
  conserved := halike.core ▸ h.conserved

/-- Transactions which unlock alike have the same effect. -/
theorem applyTransaction_of_unlocksAlike {ledger' : LedgerState}
    (halike : UnlocksAlike tx tx')
    (h : ledger.applyTransaction tx (deterministicScriptEngine config)
      currentHeight chainId = (.ok (), ledger')) :
    ledger.applyTransaction tx' (deterministicScriptEngine config)
      currentHeight chainId = (.ok (), ledger') := by
  obtain ⟨haccepts, txId, htxId, rfl⟩ := applyTransaction_eq_ok.mp h
  refine applyTransaction_eq_ok.mpr
    ⟨haccepts.of_unlocksAlike halike, txId, ?_, ?_⟩
  · rw [Transaction.txId, ← halike.core]
    exact htxId
  · rw [← halike.core]

end LedgerState

end Unlocking

/-! ## Blocks -/

section Blocks

variable [Blake3] [Bincode] [PqCrypto]

namespace LedgerState

variable {ledger ledger₁ ledger₂ : LedgerState}
  {txs₁ txs₂ : List Transaction} {currentHeight : UInt64} {chainId : UInt32}

theorem applyAll_of_unlocksAlike {config : VmConfig}
    (halike : List.Forall₂ UnlocksAlike txs₁ txs₂)
    (h : ledger.applyAll txs₁ (deterministicScriptEngine config) currentHeight
      chainId = .ok ledger₁) :
    ledger.applyAll txs₂ (deterministicScriptEngine config) currentHeight
      chainId = .ok ledger₁ := by
  induction halike generalizing ledger with
  | nil => exact h
  | cons hhead htail ih =>
      obtain ⟨mid, hmid, hrest⟩ := applyAll_cons_eq_ok.mp h
      exact applyAll_cons_eq_ok.mpr
        ⟨mid, applyTransaction_of_unlocksAlike hhead hmid, ih hrest⟩

omit [PqCrypto] in
/-- Lists of one list of cores which both apply unlock alike. -/
theorem unlocksAlike_of_applyAll {engine₁ engine₂ : ScriptEngine}
    (hcores : txs₁.map Transaction.core = txs₂.map Transaction.core)
    (hfree : CollisionFree
      ({x | ∃ tx ∈ txs₁, x ∈ tx.presented} ∪
        {x | ∃ tx ∈ txs₂, x ∈ tx.presented}))
    (h₁ : ledger.applyAll txs₁ engine₁ currentHeight chainId = .ok ledger₁)
    (h₂ : ledger.applyAll txs₂ engine₂ currentHeight chainId = .ok ledger₂) :
    List.Forall₂ UnlocksAlike txs₁ txs₂ := by
  induction txs₁ generalizing ledger txs₂ with
  | nil =>
      have hnil : txs₂ = [] := by simpa using hcores.symm
      rw [hnil]
      exact List.Forall₂.nil
  | cons tx₁ txs₁ ih =>
      cases txs₂ with
      | nil => simp at hcores
      | cons tx₂ txs₂ =>
          rw [List.map_cons, List.map_cons, List.cons.injEq] at hcores
          obtain ⟨mid₁, hmid₁, hrest₁⟩ := applyAll_cons_eq_ok.mp h₁
          obtain ⟨mid₂, hmid₂, hrest₂⟩ := applyAll_cons_eq_ok.mp h₂
          obtain ⟨haccepts₁, id₁, hid₁, rfl⟩ := applyTransaction_eq_ok.mp hmid₁
          obtain ⟨haccepts₂, id₂, hid₂, rfl⟩ := applyTransaction_eq_ok.mp hmid₂
          have hid : id₁ = id₂ := by
            rw [Transaction.txId, hcores.1] at hid₁
            exact Option.some.inj (hid₁.symm.trans hid₂)
          rw [hid, hcores.1] at hrest₁
          have halike := haccepts₁.unlocksAlike hfree.heads hcores.1 haccepts₂
          exact List.Forall₂.cons halike
            (ih hcores.2 hfree.tails hrest₁ hrest₂)

end LedgerState

omit [Bincode] [PqCrypto] in
theorem computeTxRoot_eq_of_cores_eq {txs₁ txs₂ : List Transaction}
    (h : txs₁.map Transaction.core = txs₂.map Transaction.core) :
    computeTxRoot txs₁ = computeTxRoot txs₂ := by
  have hpreimage : ∀ txs : List Transaction, txRootPreimage txs =
      encodeAll (fun core : TransactionCore => core.txId.map Hash256.bytes)
        (txs.map Transaction.core) := by
    intro txs
    induction txs with
    | nil => simp only [txRootPreimage, encodeAll, List.map_nil]
    | cons tx txs ih =>
        rw [txRootPreimage] at ih ⊢
        rw [encodeAll, ih, List.map_cons, encodeAll, Transaction.txId]
  rw [computeTxRoot, computeTxRoot, hpreimage, hpreimage, h]

omit [Blake3] [PqCrypto] in
theorem cores_eq_of_unlocksAlike {txs₁ txs₂ : List Transaction}
    (h : List.Forall₂ UnlocksAlike txs₁ txs₂) :
    txs₁.map Transaction.core = txs₂.map Transaction.core := by
  induction h with
  | nil => simp only [List.map_nil]
  | cons hhead htail ih => rw [List.map_cons, List.map_cons, hhead.core, ih]

/-- An altered copy of a valid block is valid exactly when every transaction
keeps its core and what it presents for its inputs. -/
theorem altered_block_rejected_iff {registry : PqSchemeRegistry}
    {chain : ChainState} {validators : List PublicKey} {block altered : Block}
    (hvalid : validateReplayedBlock registry chain block validators = .ok ())
    (hheader : altered.header = block.header)
    (hproposer : altered.proposerPublicKey = block.proposerPublicKey)
    (hsignature : altered.signature = block.signature)
    (hfree : CollisionFree (block.hashed ∪ altered.hashed ∪
      (block.presented ∪ altered.presented))) :
    validateReplayedBlock registry chain altered validators ≠ .ok () ↔
      ¬List.Forall₂ UnlocksAlike block.transactions altered.transactions := by
  apply not_congr
  have h := validateReplayedBlock_eq_ok.mp hvalid
  obtain ⟨ledger, hledger, hroot⟩ := computeStateRoot_eq_ok.mp h.stateRoot
  rw [validateReplayedBlock_eq_ok]
  constructor
  · intro haltered
    have hhashed : CollisionFree (block.hashed ∪ altered.hashed) :=
      hfree.mono fun x hx => Or.inl hx
    have htxRoot := haltered.txRoot
    rw [hheader] at htxRoot
    have hcores := cores_eq_of_txRoot_eq hhashed h.txRoot htxRoot
    obtain ⟨ledger', hledger', -⟩ :=
      computeStateRoot_eq_ok.mp haltered.stateRoot
    rw [hheader] at hledger'
    exact LedgerState.unlocksAlike_of_applyAll hcores
      (hfree.mono fun x hx => Or.inr hx) hledger hledger'
  · intro halike
    have hledger' := LedgerState.applyAll_of_unlocksAlike halike hledger
    exact {
      height := hheader ▸ h.height
      parent := hheader ▸ h.parent
      timestamp := hheader ▸ h.timestamp
      proposer := by
        rw [hheader, hproposer]
        exact h.proposer
      txRoot := by
        rw [hheader, ← computeTxRoot_eq_of_cores_eq
          (cores_eq_of_unlocksAlike halike)]
        exact h.txRoot
      stateRoot := by
        rw [hheader]
        exact computeStateRoot_eq_ok.mpr ⟨ledger, hledger', hroot⟩
      signed := by
        have hsigned := h.signed
        rw [verifyHeader] at hsigned ⊢
        rwa [hheader, hproposer, hsignature] }

end Blocks

/-! ## A witness entry without an input -/

section Padding

open scoped StandIns

/-- A transaction without inputs, with the given witness entries. -/
def paddedTransfer (entries : List Bytes) : Transaction :=
  ⟨⟨.transfer, [], []⟩, ⟨entries⟩⟩

def paddedBlock (txs : List Transaction) : Block :=
  StandIns.sealBlock 1 (defaultChainStateWithId 0) txs (Blake3.hash [])
    ((computeTxRoot [paddedTransfer []]).getD default) 1

theorem paddedTransfer_applyAll (entries : List Bytes) :
    LedgerState.empty.applyAll [paddedTransfer entries] defaultScriptEngine 1
      0 = .ok LedgerState.empty := by
  have hid : ∃ txId, (paddedTransfer entries).txId = some txId := ⟨_, rfl⟩
  obtain ⟨txId, htxId⟩ := hid
  have haccepts : LedgerState.empty.Accepts (paddedTransfer entries)
      defaultScriptEngine 1 0 := {
    inputsDistinct := List.nodup_nil
    unlocked := by
      intro entry hentry
      simp [paddedTransfer] at hentry
    creation := by
      intro created hcreated
      simp [paddedTransfer, TransactionKind.createdAsset] at hcreated
    conserved := fun id _ => rfl }
  exact LedgerState.applyAll_cons_eq_ok.mpr ⟨LedgerState.empty,
    LedgerState.applyTransaction_eq_ok.mpr ⟨haccepts, txId, htxId, rfl⟩, rfl⟩

theorem paddedBlock_valid (entries : List Bytes) :
    validateReplayedBlock defaultRegistry (defaultChainStateWithId 0)
      (paddedBlock [paddedTransfer entries]) [] = .ok () :=
  validateReplayedBlock_eq_ok.mpr
    (StandIns.sealBlock_valid 1 1 [] (paddedTransfer_applyAll entries) rfl rfl
      (by decide) (by simp))

/-- The strings which are hashed for any of the blocks. -/
def paddedStrings : List Bytes :=
  [encodeBlockHeader (paddedBlock []).header,
    (txRootPreimage [paddedTransfer []]).getD [],
    (encodeTxCore (paddedTransfer []).core).getD [], []]

theorem paddedStrings_collisionFree :
    CollisionFree {x | x ∈ paddedStrings} := by
  have hnodup : (paddedStrings.map Blake3.hash).Nodup := by
    decide +kernel
  exact fun x hx y hy => List.inj_on_of_nodup_map hnodup hx hy

theorem paddedBlock_strings {txs : List Transaction}
    (htxs : txs = [] ∨ ∃ entries, txs = [paddedTransfer entries]) :
    (paddedBlock txs).hashed ∪ (paddedBlock txs).presented ⊆
      {x | x ∈ paddedStrings} := by
  have hcore : ∀ tx ∈ txs, tx.core = (paddedTransfer []).core := by
    intro tx htx
    rcases htxs with hnil | ⟨entries, hsingle⟩
    · rw [hnil] at htx
      exact absurd htx List.not_mem_nil
    · rw [hsingle, List.mem_singleton] at htx
      rw [htx]
      rfl
  rintro x ((hheader | hroot | ⟨tx, htx, hencode⟩) | ⟨tx, htx, i, hi, -⟩)
  · rw [hheader]
    exact List.mem_cons_self
  · rcases htxs with hnil | ⟨entries, hsingle⟩
    · have hx : txRootPreimage [] = some x := hnil ▸ hroot
      rw [← Option.some.inj hx]
      simp [paddedStrings]
    · have hx : txRootPreimage [paddedTransfer []] = some x := by
        have htransactions : (paddedBlock txs).transactions = txs := rfl
        rw [htransactions, hsingle] at hroot
        exact hroot
      simp [paddedStrings, hx]
  · rw [hcore tx htx] at hencode
    simp [paddedStrings, hencode]
  · rw [hcore tx htx] at hi
    exact absurd hi (Nat.not_lt_zero i)

theorem paddedBlocks_collisionFree {txs txs' : List Transaction}
    (htxs : txs = [] ∨ ∃ entries, txs = [paddedTransfer entries])
    (htxs' : txs' = [] ∨ ∃ entries, txs' = [paddedTransfer entries]) :
    CollisionFree ((paddedBlock txs).hashed ∪ (paddedBlock txs').hashed ∪
      ((paddedBlock txs).presented ∪ (paddedBlock txs').presented)) := by
  have hstrings := paddedBlock_strings htxs
  have hstrings' := paddedBlock_strings htxs'
  apply paddedStrings_collisionFree.mono
  rintro x ((hx | hx) | (hx | hx))
  · exact hstrings (Or.inl hx)
  · exact hstrings' (Or.inl hx)
  · exact hstrings (Or.inr hx)
  · exact hstrings' (Or.inr hx)

/-- One signed header over two lists of transactions, both of which are
accepted. -/
theorem paddedBlock_accepted :
    ∃ block altered : Block,
      validateReplayedBlock defaultRegistry (defaultChainStateWithId 0) block
        [] = .ok () ∧
      altered.header = block.header ∧
      altered.proposerPublicKey = block.proposerPublicKey ∧
      altered.signature = block.signature ∧
      altered.transactions ≠ block.transactions ∧
      CollisionFree (block.hashed ∪ altered.hashed ∪
        (block.presented ∪ altered.presented)) ∧
      validateReplayedBlock defaultRegistry (defaultChainStateWithId 0)
        altered [] = .ok () := by
  refine ⟨paddedBlock [paddedTransfer []], paddedBlock [paddedTransfer [[0]]],
    paddedBlock_valid [], rfl, rfl, rfl, ?_, paddedBlocks_collisionFree
      (Or.inr ⟨_, rfl⟩) (Or.inr ⟨_, rfl⟩), paddedBlock_valid [[0]]⟩
  intro hsame
  have hentries := congrArg (List.map fun tx => tx.witness.inputs) hsame
  simp [paddedBlock, StandIns.sealBlock, paddedTransfer] at hentries

/-- Without its transaction the block is rejected. -/
theorem strippedBlock_rejected :
    validateReplayedBlock defaultRegistry (defaultChainStateWithId 0)
      (paddedBlock []) [] ≠ .ok () := by
  have hheader : (paddedBlock []).header =
      (paddedBlock [paddedTransfer []]).header := rfl
  have hfree := paddedBlocks_collisionFree
    (Or.inr ⟨[], rfl⟩ : [paddedTransfer []] = [] ∨ _) (Or.inl rfl)
  refine (altered_block_rejected_iff (paddedBlock_valid []) hheader rfl rfl
    hfree).mpr ?_
  intro halike
  cases halike

end Padding

end QCoin
