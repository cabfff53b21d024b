import QCoin.Consensus.StandIns

/-!
# Proposals and successors

A proposed block carries the reading of the proposer's clock, whatever the
chain was last stamped with.  The stamps of a chain grow strictly, so a chain
which was once stamped with the largest value has no successor.
-/

namespace QCoin

open Support
open Support.Result

section Signing

variable [PqCrypto] {registry : PqSchemeRegistry}

/-- The holder of some private key can sign any header for the public key. -/
def PqSchemeRegistry.CanSign (registry : PqSchemeRegistry)
    (publicKey : PublicKey) : Prop :=
  ∃ scheme privateKey, registry publicKey.scheme = some scheme ∧
    scheme.MatchingPair publicKey privateKey ∧
    ∀ header, ∃ entropy signature,
      scheme.sign entropy privateKey (encodeBlockHeader header) =
        .ok signature

/-- A signature which the scheme of the proposer verifies passes the check of
the header. -/
theorem verifyHeader_of_verify (hregistry : registry.InMemory) {block : Block}
    {id : SignatureSchemeId} {scheme : PqSignatureScheme}
    (hscheme : registry id = some scheme)
    (hverify : scheme.verify block.proposerPublicKey
      (encodeBlockHeader block.header) block.signature = .ok ()) :
    verifyHeader registry block = .ok () := by
  obtain ⟨m, rfl⟩ := hregistry.scheme_eq hscheme
  have hid := (moduleScheme_verify_eq_ok.mp hverify).1.2
  exact verifyHeader_eq_ok.mpr ⟨_, hid ▸ hscheme, hverify⟩

end Signing

section Proposals

variable [Blake3] [Bincode] [PqCrypto]

/-! ## Proposed blocks -/

/-- `propose_block` makes every check of `validate_block` but the one on the
timestamp. -/
theorem proposeBlock_valid_iff {registry : PqSchemeRegistry}
    {publicKey : PublicKey} {signingKey : PrivateKey}
    {validators : List PublicKey} {consensus : DummyConsensusEngine}
    (hengine : DummyConsensusEngine.fromKeys registry publicKey signingKey
      validators = .ok consensus)
    (hregistry : registry.InMemory) {scheme : PqSignatureScheme}
    (hscheme : registry publicKey.scheme = some scheme)
    (hpair : scheme.MatchingPair publicKey signingKey)
    {chain : ChainState} {txs : List Transaction}
    {clock : Except String UInt64} {entropy : ℕ} {block : Block}
    (hproposed : consensus.proposeBlock chain txs clock entropy = .ok block) :
    consensus.validateBlock chain block = .ok () ↔
      ∃ now, clock = .ok now ∧ chain.lastTimestamp < now := by
  obtain ⟨-, rfl⟩ := fromKeys_eq_ok.mp hengine
  simp only [DummyConsensusEngine.proposeBlock, bind_eq_ok, require_eq_ok,
    not_not, orPanic_eq_ok, pure_eq_ok] at hproposed
  obtain ⟨expected, hexpected, -, rfl, stateRoot, hstateRoot, txRoot, htxRoot,
    now, hnow, signature, hsignature, rfl⟩ := hproposed
  have hclock : clock = .ok now := by
    cases clock with
    | ok reading =>
        exact congrArg Except.ok (Except.ok.inj hnow)
    | error err => cases hnow
  have hsigned : scheme.sign entropy signingKey (encodeBlockHeader {
      parentHash := chain.tipHash
      stateRoot := stateRoot
      txRoot := txRoot
      height := chain.height + 1
      timestamp := now }) = .ok signature := by
    simp only [DummyConsensusEngine.signHeader, hscheme, bind_eq_ok,
      orPanic_eq_ok, Option.some.injEq, exists_eq_left'] at hsignature
    split at hsignature
    · rename_i made hmade
      rw [hmade, Except.ok.inj hsignature]
    · cases hsignature
  rw [DummyConsensusEngine.validateBlock, validateReplayedBlock_eq_ok, hclock]
  simp only [Except.ok.injEq, exists_eq_left']
  constructor
  · intro hvalid
    exact hvalid.timestamp
  · intro hlater
    exact {
      height := rfl
      parent := rfl
      timestamp := hlater
      proposer := fun _ => hexpected
      txRoot := htxRoot
      stateRoot := hstateRoot
      signed := verifyHeader_of_verify hregistry hscheme
        (hpair _ _ _ hsigned) }

/-! ## Successors -/

omit [Blake3] [Bincode] [PqCrypto] in
theorem exists_expectedProposer {validators : List PublicKey}
    (h : validators ≠ []) (height : UInt64) :
    ∃ key ∈ validators,
      expectedProposerForValidators validators height = .ok key := by
  have hindex : (height - 1).toNat % validators.length < validators.length :=
    Nat.mod_lt _ (List.length_pos_iff.mpr h)
  refine ⟨validators[(height - 1).toNat % validators.length],
    List.getElem_mem hindex, ?_⟩
  simp only [expectedProposerForValidators, bind_eq_ok, require_eq_ok,
    okOr_eq_ok]
  exact ⟨(), h, List.getElem?_eq_getElem hindex⟩

namespace AcceptedChain

variable {chainId : UInt32} {blocks : List Block}
  {steps : List (AppliedStep chainId)} {chain : ChainState}

/-- The last stamp is the largest one. -/
theorem lastTimestamp_spec (h : AcceptedChain chainId blocks steps chain) :
    (∀ block ∈ blocks, block.header.timestamp ≤ chain.lastTimestamp) ∧
      (chain.lastTimestamp = 0 ∨ ∃ block ∈ blocks,
        block.header.timestamp = chain.lastTimestamp) := by
  induction h with
  | genesis => exact ⟨by simp, Or.inl rfl⟩
  | @extend blocks _ before _ block _ _ _ past valid applied ih =>
      obtain ⟨ledger, stateRoot, -, -, rfl⟩ :=
        ChainState.applyBlock_eq_ok.mp applied
      have hlater := (validateReplayedBlock_eq_ok.mp valid).timestamp
      refine ⟨?_, Or.inr ⟨block, List.mem_cons_self, rfl⟩⟩
      rw [List.forall_mem_cons]
      refine ⟨UInt64.le_refl _, fun earlier hearlier => ?_⟩
      exact UInt64.le_of_lt (UInt64.lt_of_le_of_lt (ih.1 earlier hearlier)
        hlater)

end AcceptedChain

/-- A later stamp is all that a successor needs. -/
theorem exists_successor {registry : PqSchemeRegistry}
    {validators : List PublicKey} {chain : ChainState}
    (hregistry : registry.InMemory) (hvalidators : validators ≠ [])
    (hsign : ∀ key ∈ validators, registry.CanSign key) {stateRoot : Hash256}
    (hroot : chain.ledger.stateRoot = some stateRoot) {timestamp : UInt64}
    (hlater : chain.lastTimestamp < timestamp) :
    ∃ block, validateReplayedBlock registry chain block validators =
      .ok () := by
  obtain ⟨key, hkey, hexpected⟩ :=
    exists_expectedProposer hvalidators (chain.height + 1)
  obtain ⟨scheme, privateKey, hscheme, hpair, hsigns⟩ := hsign key hkey
  let header : BlockHeader := {
    parentHash := chain.tipHash
    stateRoot := stateRoot
    txRoot := Blake3.hash []
    height := chain.height + 1
    timestamp := timestamp }
  obtain ⟨entropy, signature, hsignature⟩ := hsigns header
  refine ⟨⟨header, [], key, signature⟩, validateReplayedBlock_eq_ok.mpr {
    height := rfl
    parent := rfl
    timestamp := hlater
    proposer := fun _ => hexpected
    txRoot := rfl
    stateRoot := computeStateRoot_eq_ok.mpr ⟨chain.ledger, rfl, hroot⟩
    signed := verifyHeader_of_verify hregistry hscheme
      (hpair _ _ _ hsignature) }⟩

/-- An accepted chain can be extended as long as none of its blocks carries
the largest timestamp. -/
theorem chain_extendable_iff {chainId : UInt32} {blocks : List Block}
    {steps : List (AppliedStep chainId)} {chain : ChainState}
    (h : AcceptedChain chainId blocks steps chain)
    {registry : PqSchemeRegistry} (hregistry : registry.InMemory)
    {validators : List PublicKey} (hvalidators : validators ≠ [])
    (hsign : ∀ key ∈ validators, registry.CanSign key) :
    (∃ block, validateReplayedBlock registry chain block validators =
        .ok ()) ↔
      ∀ block ∈ blocks, block.header.timestamp.toNat ≠ 2 ^ 64 - 1 := by
  obtain ⟨hlargest, hlast⟩ := h.lastTimestamp_spec
  constructor
  · rintro ⟨next, hvalid⟩ block hblock hmax
    have hlater := UInt64.lt_iff_toNat_lt.mp
      (validateReplayedBlock_eq_ok.mp hvalid).timestamp
    have hle := UInt64.le_iff_toNat_le.mp (hlargest block hblock)
    have hbound := next.header.timestamp.toNat_lt
    omega
  · intro hbelow
    have hroom : chain.lastTimestamp.toNat ≠ 2 ^ 64 - 1 := by
      rcases hlast with hzero | ⟨block, hblock, hstamp⟩
      · rw [hzero]
        decide
      · rw [← hstamp]
        exact hbelow block hblock
    have hlater : chain.lastTimestamp < chain.lastTimestamp + 1 := by
      have hbound := chain.lastTimestamp.toNat_lt
      have hone : (1 : UInt64).toNat = 1 := rfl
      rw [UInt64.lt_iff_toNat_lt, UInt64.toNat_add, hone,
        Nat.mod_eq_of_lt (by omega)]
      omega
    exact exists_successor hregistry hvalidators hsign h.stateRoot_eq hlater

end Proposals

/-! ## Stand-in proposers -/

section Stamps

open scoped StandIns

theorem moduleScheme_sign_eq_ok {id : SignatureSchemeId} {m : PqModule}
    {privateKey : PrivateKey} {message : Bytes} {signature : Signature}
    {entropy : ℕ} (h : (moduleScheme id m).sign entropy privateKey message =
      .ok signature) :
    signature = ⟨id, m.detachedSign entropy message privateKey.bytes⟩ ∧
      ∃ size, signatureSize id = some size ∧
        signature.bytes.length ≤ size := by
  simp only [moduleScheme, Signature.new, newKey] at h
  split at h
  · cases h
  · split at h
    · cases h
    · cases hsize : validateKeySize signatureSize id
          (m.detachedSign entropy message privateKey.bytes).length true
          .invalidSignature with
      | error err => rw [hsize] at h; cases h
      | ok u =>
          rw [hsize] at h
          obtain rfl := Except.ok.inj h
          exact ⟨rfl, length_of_validateKeySize hsize⟩

theorem validatorKey_matchingPair (n : UInt8) :
    dilithium2Scheme.MatchingPair (StandIns.validatorKey n)
      (StandIns.validatorSecret n) := by
  intro entropy message signature hsign
  obtain ⟨rfl, size, hsize, hlength⟩ := moduleScheme_sign_eq_ok hsign
  obtain rfl : 128 = size := Option.some.inj hsize
  exact moduleScheme_verify_eq_ok.mpr ⟨⟨rfl, rfl⟩, rfl,
    decide_eq_true hlength, beq_self_eq_true _⟩

theorem validatorKey_sign (n : UInt8) (entropy : ℕ) (header : BlockHeader) :
    dilithium2Scheme.sign entropy (StandIns.validatorSecret n)
        (encodeBlockHeader header) =
      .ok ⟨.dilithium2, [n] ++ encodeBlockHeader header⟩ := by
  simp [dilithium2Scheme, moduleScheme, StandIns.validatorSecret,
    PqCrypto.dilithium2, StandIns.echoModule, Signature.new, newKey,
    validateKeySize, signatureSize, moduleSize, length_encodeBlockHeader]

theorem validatorKey_canSign (n : UInt8) :
    defaultRegistry.CanSign (StandIns.validatorKey n) :=
  ⟨dilithium2Scheme, StandIns.validatorSecret n, rfl,
    validatorKey_matchingPair n,
    fun header => ⟨0, _, validatorKey_sign n 0 header⟩⟩

/-- The engine of a stand-in validator which works alone. -/
def loneEngine (n : UInt8) : DummyConsensusEngine where
  registry := defaultRegistry
  signingScheme := .dilithium2
  signingKey := StandIns.validatorSecret n
  publicKey := StandIns.validatorKey n
  validators := [StandIns.validatorKey n]

theorem loneEngine_fromKeys (n : UInt8) :
    DummyConsensusEngine.fromKeys defaultRegistry (StandIns.validatorKey n)
      (StandIns.validatorSecret n) [] = .ok (loneEngine n) :=
  fromKeys_eq_ok.mpr ⟨rfl, rfl⟩

theorem loneEngine_expectedProposer (n : UInt8) (height : UInt64) :
    (loneEngine n).expectedProposer height =
      .ok (StandIns.validatorKey n) := by
  obtain ⟨key, hkey, hexpected⟩ := exists_expectedProposer
    (show (loneEngine n).validators ≠ [] by simp [loneEngine]) height
  rw [DummyConsensusEngine.expectedProposer, hexpected,
    List.mem_singleton.mp hkey]

/-- It proposes empty blocks over an empty ledger at any time. -/
theorem loneEngine_propose (n : UInt8) {chain : ChainState}
    (hledger : chain.ledger = LedgerState.empty) (now : UInt64) :
    (loneEngine n).proposeBlock chain [] (.ok now) 0 =
      .ok (StandIns.sealBlock n chain [] (Blake3.hash []) (Blake3.hash [])
        now) := by
  have hroot : computeStateRoot chain [] (chain.height + 1) =
      .ok (Blake3.hash []) :=
    computeStateRoot_eq_ok.mpr ⟨chain.ledger, rfl, hledger ▸ rfl⟩
  have hscheme : (loneEngine n).registry (loneEngine n).signingScheme =
      some dilithium2Scheme := rfl
  have hsign := fun header => validatorKey_sign n 0 header
  simp only [DummyConsensusEngine.proposeBlock, bind_eq_ok, require_eq_ok,
    not_not, orPanic_eq_ok, pure_eq_ok, hroot]
  refine ⟨_, loneEngine_expectedProposer n _, (), rfl, _, rfl, Blake3.hash [],
    rfl, now, rfl, _, ?_, rfl⟩
  rw [DummyConsensusEngine.signHeader, hscheme, bind_eq_ok]
  refine ⟨_, rfl, ?_⟩
  rw [show (loneEngine n).signingKey = StandIns.validatorSecret n from rfl,
    hsign]
  rfl

/-- The proposer's clock still shows the second of the last block. -/
theorem sameSecond_proposal_invalid :
    ∃ (steps : List (AppliedStep 0)) (chain : ChainState) (block : Block),
      AcceptedChain 0 [StandIns.emptyBlock 1] steps chain ∧
      DummyConsensusEngine.fromKeys defaultRegistry (StandIns.validatorKey 1)
        (StandIns.validatorSecret 1) [] = .ok (loneEngine 1) ∧
      dilithium2Scheme.MatchingPair (StandIns.validatorKey 1)
        (StandIns.validatorSecret 1) ∧
      (loneEngine 1).proposeBlock chain [] (.ok 1) 0 = .ok block ∧
      (loneEngine 1).validateBlock chain block ≠ .ok () := by
  refine ⟨_, _, _, StandIns.emptyBlock_accepted 1, loneEngine_fromKeys 1,
    validatorKey_matchingPair 1, loneEngine_propose 1 rfl 1, ?_⟩
  intro hvalid
  have hlater := (validateReplayedBlock_eq_ok.mp hvalid).timestamp
  exact absurd hlater (by decide)

/-- A second later the proposal is valid. -/
theorem nextSecond_proposal_valid :
    (loneEngine 1).validateBlock StandIns.emptyBlockChain
      (StandIns.sealBlock 1 StandIns.emptyBlockChain [] (Blake3.hash [])
        (Blake3.hash []) 2) = .ok () :=
  (proposeBlock_valid_iff (loneEngine_fromKeys 1)
    PqSchemeRegistry.inMemory_defaultRegistry rfl (validatorKey_matchingPair 1)
    (loneEngine_propose 1 rfl 2)).mpr ⟨2, rfl, by decide⟩

/-- A first block with the largest timestamp. -/
def finalBlock : Block :=
  StandIns.sealBlock 1 (defaultChainStateWithId 0) [] (Blake3.hash [])
    (Blake3.hash []) 18446744073709551615

theorem finalBlock_valid :
    validateReplayedBlock defaultRegistry (defaultChainStateWithId 0)
      finalBlock [StandIns.validatorKey 1] = .ok () :=
  validateReplayedBlock_eq_ok.mpr
    (StandIns.sealBlock_valid 1 _ _ rfl rfl rfl (by decide) fun _ => rfl)

/-- It is accepted, and nothing is accepted after it. -/
theorem finalBlock_has_no_successor :
    ∃ (steps : List (AppliedStep 0)) (chain : ChainState),
      AcceptedChain 0 [finalBlock] steps chain ∧ chain.height = 1 ∧
      (∀ key ∈ [StandIns.validatorKey 1], defaultRegistry.CanSign key) ∧
      ¬∃ block, validateReplayedBlock defaultRegistry chain block
        [StandIns.validatorKey 1] = .ok () := by
  obtain ⟨chain, happlied⟩ := StandIns.sealBlock_applies 1 (Blake3.hash [])
    18446744073709551615
    (StandIns.emptyBlock_applyAll (defaultChainStateWithId 0) _) rfl
  have haccepted := AcceptedChain.extend AcceptedChain.genesis
    finalBlock_valid happlied
  obtain ⟨ledger, stateRoot, -, -, rfl⟩ :=
    ChainState.applyBlock_eq_ok.mp happlied
  refine ⟨_, _, haccepted, rfl, ?_, ?_⟩
  · intro key hkey
    rw [List.mem_singleton.mp hkey]
    exact validatorKey_canSign 1
  · rintro ⟨block, hvalid⟩
    have hlater := (validateReplayedBlock_eq_ok.mp hvalid).timestamp
    have hbound := block.header.timestamp.toNat_lt
    have hmax : (18446744073709551615 : UInt64).toNat = 2 ^ 64 - 1 := by
      decide
    have hnat : (18446744073709551615 : UInt64).toNat <
        block.header.timestamp.toNat := UInt64.lt_iff_toNat_lt.mp hlater
    omega

/-- The chain of an ordinary first block goes on. -/
theorem emptyBlock_extendable :
    ∃ block, validateReplayedBlock defaultRegistry StandIns.emptyBlockChain
      block [StandIns.validatorKey 1] = .ok () := by
  refine (chain_extendable_iff (StandIns.emptyBlock_accepted 1)
    PqSchemeRegistry.inMemory_defaultRegistry (List.cons_ne_nil _ _) ?_).mpr ?_
  · intro key hkey
    rw [List.mem_singleton.mp hkey]
    exact validatorKey_canSign 1
  · intro block hblock
    rw [List.mem_singleton.mp hblock]
    decide

end Stamps

end QCoin
