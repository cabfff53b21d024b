import QCoin.Support.Codec

/-!
# Signature schemes

Key and signature containers, their byte format and the scheme registry of
`qcoin-crypto`.  The two `pqcrypto` modules behind the registered schemes are
third-party code; they enter as a parameter.
-/

namespace QCoin

open Support

inductive SignatureSchemeId where
  | dilithium2
  | falcon512
  | unknown (id : UInt16)
deriving DecidableEq, Repr

inductive CryptoError where
  | wrongScheme
  | invalidPublicKey
  | invalidSecretKey
  | invalidSignature
  | unsupportedScheme (scheme : SignatureSchemeId)
deriving DecidableEq, Repr

namespace SignatureSchemeId

def DILITHIUM2_ID : UInt16 := 0x01
def FALCON512_ID : UInt16 := 0x02

def fromU16 (id : UInt16) : SignatureSchemeId :=
  if id = DILITHIUM2_ID then .dilithium2
  else if id = FALCON512_ID then .falcon512
  else .unknown id

def toU16 : SignatureSchemeId → UInt16
  | .dilithium2 => DILITHIUM2_ID
  | .falcon512 => FALCON512_ID
  | .unknown value => value

def display : SignatureSchemeId → String
  | .dilithium2 => "dilithium2"
  | .falcon512 => "falcon512"
  | .unknown value => "unknown-" ++ toString value

end SignatureSchemeId

def CryptoError.display : CryptoError → String
  | .wrongScheme => "signature scheme mismatch"
  | .invalidPublicKey => "invalid public key"
  | .invalidSecretKey => "invalid secret key"
  | .invalidSignature => "invalid signature"
  | .unsupportedScheme scheme => "unsupported scheme " ++ scheme.display

/-- What the scheme wrappers use of one `pqcrypto` module: its sizes, the
checks made by the `from_bytes` constructors, signing and verification.
Signing may draw on randomness, supplied here as `entropy`. -/
structure PqModule where
  publicKeyBytes : ℕ
  secretKeyBytes : ℕ
  signatureBytes : ℕ
  publicKeyFromBytes : Bytes → Bool
  secretKeyFromBytes : Bytes → Bool
  signatureFromBytes : Bytes → Bool
  detachedSign : (entropy : ℕ) → (message secretKey : Bytes) → Bytes
  verifyDetachedSignature : (signature message publicKey : Bytes) → Bool

class PqCrypto where
  dilithium2 : PqModule
  falcon512 : PqModule

/-! ## Keys and signatures -/

structure PublicKey where
  scheme : SignatureSchemeId
  bytes : Bytes
deriving DecidableEq, Repr

structure PrivateKey where
  scheme : SignatureSchemeId
  bytes : Bytes
deriving DecidableEq, Repr

structure Signature where
  scheme : SignatureSchemeId
  bytes : Bytes
deriving DecidableEq, Repr

def validateKeySize (sizeFn : SignatureSchemeId → Option ℕ)
    (scheme : SignatureSchemeId) (len : ℕ) (allowShorter : Bool)
    (mismatchError : CryptoError) : Except CryptoError Unit :=
  match sizeFn scheme with
  | some expected =>
      if (!allowShorter && expected == len) ||
          (allowShorter && decide (len ≤ expected))
      then .ok ()
      else .error mismatchError
  | none => .error (.unsupportedScheme scheme)

/-- Scheme number and payload length in front of the payload.  The length is
cut to 32 bits, as by `as u32`. -/
def encodeWithScheme (scheme : SignatureSchemeId)
    (sizeFn : SignatureSchemeId → Option ℕ) (bytes : Bytes)
    (allowShorter : Bool) (mismatchError : CryptoError) :
    Except CryptoError Bytes := do
  validateKeySize sizeFn scheme bytes.length allowShorter mismatchError
  return leBytes 2 scheme.toU16.toNat ++ leBytes 4 bytes.length ++ bytes

def PREFIX_LEN : ℕ := 2 + 4

def decodeWithScheme (encoded : Bytes) (mismatchError : CryptoError) :
    Except CryptoError (SignatureSchemeId × Bytes) :=
  if encoded.length < PREFIX_LEN then .error mismatchError
  else
    let scheme := SignatureSchemeId.fromU16
      (UInt16.ofNat (leValue (encoded.take 2)))
    let len := leValue ((encoded.drop 2).take 4)
    if encoded.length ≠ PREFIX_LEN + len then .error mismatchError
    else .ok (scheme, encoded.drop PREFIX_LEN)

section Sizes

variable [PqCrypto]

/-- A size of the module behind a registered scheme. -/
def moduleSize (size : PqModule → ℕ) : SignatureSchemeId → Option ℕ
  | .dilithium2 => some (size PqCrypto.dilithium2)
  | .falcon512 => some (size PqCrypto.falcon512)
  | .unknown _ => none

def publicKeySize : SignatureSchemeId → Option ℕ :=
  moduleSize PqModule.publicKeyBytes

def secretKeySize : SignatureSchemeId → Option ℕ :=
  moduleSize PqModule.secretKeyBytes

def signatureSize : SignatureSchemeId → Option ℕ :=
  moduleSize PqModule.signatureBytes

/-- Common body of the three `from_bytes` constructors. -/
def keyFromBytes {κ : Type} (mk : SignatureSchemeId → Bytes → κ)
    (sizeFn : SignatureSchemeId → Option ℕ) (allowShorter : Bool)
    (mismatchError : CryptoError) (encoded : Bytes) : Except CryptoError κ := do
  let (scheme, payload) ← decodeWithScheme encoded mismatchError
  validateKeySize sizeFn scheme payload.length allowShorter mismatchError
  return mk scheme payload

def PublicKey.fromBytes : Bytes → Except CryptoError PublicKey :=
  keyFromBytes PublicKey.mk publicKeySize false .invalidPublicKey

def PrivateKey.fromBytes : Bytes → Except CryptoError PrivateKey :=
  keyFromBytes PrivateKey.mk secretKeySize false .invalidSecretKey

def Signature.fromBytes : Bytes → Except CryptoError Signature :=
  keyFromBytes Signature.mk signatureSize true .invalidSignature

def PublicKey.toBytes (key : PublicKey) : Except CryptoError Bytes :=
  encodeWithScheme key.scheme publicKeySize key.bytes false .invalidPublicKey

def PrivateKey.toBytes (key : PrivateKey) : Except CryptoError Bytes :=
  encodeWithScheme key.scheme secretKeySize key.bytes false .invalidSecretKey

def Signature.toBytes (signature : Signature) : Except CryptoError Bytes :=
  encodeWithScheme signature.scheme signatureSize signature.bytes true
    .invalidSignature

/-- Common body of the three `new` constructors. -/
def newKey {κ : Type} (mk : SignatureSchemeId → Bytes → κ)
    (sizeFn : SignatureSchemeId → Option ℕ) (allowShorter : Bool)
    (mismatchError : CryptoError) (scheme : SignatureSchemeId)
    (bytes : Bytes) : Except CryptoError κ := do
  validateKeySize sizeFn scheme bytes.length allowShorter mismatchError
  return mk scheme bytes

def PublicKey.new : SignatureSchemeId → Bytes → Except CryptoError PublicKey :=
  newKey PublicKey.mk publicKeySize false .invalidPublicKey

def PrivateKey.new :
    SignatureSchemeId → Bytes → Except CryptoError PrivateKey :=
  newKey PrivateKey.mk secretKeySize false .invalidSecretKey

def Signature.new : SignatureSchemeId → Bytes → Except CryptoError Signature :=
  newKey Signature.mk signatureSize true .invalidSignature

/-- `keygen` of the scheme with the given id, from the bytes which the module
draws. -/
def keygen (id : SignatureSchemeId) (drawn : Bytes × Bytes) :
    Except CryptoError (PublicKey × PrivateKey) := do
  let publicKey ← PublicKey.new id drawn.1
  let privateKey ← PrivateKey.new id drawn.2
  return (publicKey, privateKey)

end Sizes

/-! ## Reading back -/

theorem SignatureSchemeId.fromU16_toU16 {scheme : SignatureSchemeId}
    {sizeFn : SignatureSchemeId → Option ℕ}
    (hknown : ∀ id, sizeFn (.unknown id) = none)
    (hsize : (sizeFn scheme).isSome) : fromU16 scheme.toU16 = scheme := by
  cases scheme with
  | dilithium2 => rfl
  | falcon512 => rfl
  | unknown id =>
      rw [hknown] at hsize
      cases hsize

theorem validateKeySize_isSome {sizeFn : SignatureSchemeId → Option ℕ}
    {scheme : SignatureSchemeId} {len : ℕ} {allowShorter : Bool}
    {mismatchError : CryptoError} {u : Unit}
    (h : validateKeySize sizeFn scheme len allowShorter mismatchError =
      .ok u) : (sizeFn scheme).isSome := by
  unfold validateKeySize at h
  split at h
  · rename_i expected hsize
    rw [hsize]
    rfl
  · cases h

theorem decodeWithScheme_append {scheme : SignatureSchemeId} {bytes : Bytes}
    {mismatchError : CryptoError}
    (hscheme : SignatureSchemeId.fromU16 scheme.toU16 = scheme)
    (hlength : bytes.length < 2 ^ 32) :
    decodeWithScheme (leBytes 2 scheme.toU16.toNat ++
      leBytes 4 bytes.length ++ bytes) mismatchError = .ok (scheme, bytes) := by
  have hid : UInt16.ofNat (leValue (leBytes 2 scheme.toU16.toNat)) =
      scheme.toU16 := by
    apply UInt16.toNat_inj.mp
    have hbound := scheme.toU16.toNat_lt
    rw [leValue_leBytes, Nat.mod_eq_of_lt (by omega)]
    exact UInt16.toNat_ofNat_of_lt' hbound
  have hlen : leValue (leBytes 4 bytes.length) = bytes.length := by
    rw [leValue_leBytes, Nat.mod_eq_of_lt (by omega)]
  have htake : (leBytes 2 scheme.toU16.toNat ++
      (leBytes 4 bytes.length ++ bytes)).take 2 =
        leBytes 2 scheme.toU16.toNat :=
    List.take_left' (length_leBytes _ _)
  have hdrop : (leBytes 2 scheme.toU16.toNat ++
      (leBytes 4 bytes.length ++ bytes)).drop 2 =
        leBytes 4 bytes.length ++ bytes :=
    List.drop_left' (length_leBytes _ _)
  have htake' : (leBytes 4 bytes.length ++ bytes).take 4 =
      leBytes 4 bytes.length := List.take_left' (length_leBytes _ _)
  have hdrop' : (leBytes 2 scheme.toU16.toNat ++
      (leBytes 4 bytes.length ++ bytes)).drop PREFIX_LEN = bytes := by
    rw [PREFIX_LEN, ← List.drop_drop, hdrop]
    exact List.drop_left' (length_leBytes _ _)
  rw [List.append_assoc, decodeWithScheme, if_neg]
  · simp only [htake, hdrop, htake', hdrop', hid, hlen, hscheme]
    rw [if_neg]
    simp [PREFIX_LEN, length_leBytes]
    omega
  · simp [PREFIX_LEN, length_leBytes]
    omega

theorem SignatureSchemeId.toU16_fromU16 (id : UInt16) :
    (fromU16 id).toU16 = id := by
  unfold fromU16
  split
  · rename_i h
    exact h.symm
  · split
    · rename_i h
      exact h.symm
    · rfl

/-- Only what is written with a scheme number is taken apart. -/
theorem append_of_decodeWithScheme {encoded payload : Bytes}
    {scheme : SignatureSchemeId} {mismatchError : CryptoError}
    (h : decodeWithScheme encoded mismatchError = .ok (scheme, payload)) :
    leBytes 2 scheme.toU16.toNat ++ leBytes 4 payload.length ++ payload =
      encoded := by
  rw [decodeWithScheme] at h
  split at h
  · cases h
  · rename_i hlong
    dsimp only at h
    split at h
    · cases h
    · rename_i hlength
      rw [not_lt] at hlong
      rw [ne_eq, not_not] at hlength
      obtain ⟨rfl, rfl⟩ := Prod.mk.inj (Except.ok.inj h)
      have htwo : (encoded.take 2).length = 2 := by
        rw [List.length_take]
        simp only [PREFIX_LEN] at hlong
        omega
      have hfour : ((encoded.drop 2).take 4).length = 4 := by
        rw [List.length_take, List.length_drop]
        simp only [PREFIX_LEN] at hlong
        omega
      have hid := leValue_lt (encoded.take 2)
      rw [htwo] at hid
      have hscheme : leBytes 2 (UInt16.ofNat (leValue (encoded.take 2))).toNat =
          encoded.take 2 := by
        rw [UInt16.toNat_ofNat_of_lt' hid]
        exact leBytes_leValue htwo
      have hlen : leBytes 4 (encoded.drop PREFIX_LEN).length =
          (encoded.drop 2).take 4 := by
        rw [List.length_drop, hlength, Nat.add_sub_cancel_left]
        exact leBytes_leValue hfour
      have hrest : (encoded.drop 2).take 4 ++ encoded.drop PREFIX_LEN =
          encoded.drop 2 := by
        rw [PREFIX_LEN, ← List.drop_drop, List.take_append_drop]
      rw [SignatureSchemeId.toU16_fromU16, hscheme, hlen, List.append_assoc,
        hrest, List.take_append_drop]

/-- What is written with a scheme number is read back, unless its length was
cut. -/
theorem keyFromBytes_encodeWithScheme {κ : Type}
    {mk : SignatureSchemeId → Bytes → κ}
    {sizeFn : SignatureSchemeId → Option ℕ} {scheme : SignatureSchemeId}
    {bytes encoded : Bytes} {allowShorter : Bool}
    {mismatchError : CryptoError}
    (hknown : ∀ id, sizeFn (.unknown id) = none)
    (hlength : bytes.length < 2 ^ 32)
    (h : encodeWithScheme scheme sizeFn bytes allowShorter mismatchError =
      .ok encoded) :
    keyFromBytes mk sizeFn allowShorter mismatchError encoded =
      .ok (mk scheme bytes) := by
  cases hvalid : validateKeySize sizeFn scheme bytes.length allowShorter
      mismatchError with
  | error e =>
      rw [encodeWithScheme, hvalid] at h
      cases h
  | ok u =>
      rw [encodeWithScheme, hvalid] at h
      obtain rfl := Except.ok.inj h
      have hscheme := SignatureSchemeId.fromU16_toU16 hknown
        (validateKeySize_isSome hvalid)
      rw [keyFromBytes, decodeWithScheme_append hscheme hlength]
      simp only [bind, Except.bind, hvalid]
      rfl

/-- What is read as a key is written with a scheme number. -/
theorem encodeWithScheme_of_keyFromBytes {κ : Type}
    {mk : SignatureSchemeId → Bytes → κ}
    {sizeFn : SignatureSchemeId → Option ℕ} {encoded : Bytes} {key : κ}
    {allowShorter : Bool} {mismatchError : CryptoError}
    (h : keyFromBytes mk sizeFn allowShorter mismatchError encoded =
      .ok key) :
    ∃ scheme bytes, key = mk scheme bytes ∧
      encodeWithScheme scheme sizeFn bytes allowShorter mismatchError =
        .ok encoded := by
  cases hdecode : decodeWithScheme encoded mismatchError with
  | error e =>
      rw [keyFromBytes, hdecode] at h
      cases h
  | ok parts =>
      obtain ⟨scheme, payload⟩ := parts
      cases hvalid : validateKeySize sizeFn scheme payload.length allowShorter
          mismatchError with
      | error e =>
          rw [keyFromBytes, hdecode] at h
          simp [bind, Except.bind, hvalid] at h
      | ok u =>
          rw [keyFromBytes, hdecode] at h
          simp only [bind, Except.bind, hvalid] at h
          refine ⟨scheme, payload, (Except.ok.inj h).symm, ?_⟩
          rw [encodeWithScheme, hvalid]
          exact congrArg Except.ok (append_of_decodeWithScheme hdecode)

theorem length_of_validateKeySize {sizeFn : SignatureSchemeId → Option ℕ}
    {scheme : SignatureSchemeId} {len : ℕ} {allowShorter : Bool}
    {mismatchError : CryptoError} {u : Unit}
    (h : validateKeySize sizeFn scheme len allowShorter mismatchError =
      .ok u) : ∃ size, sizeFn scheme = some size ∧ len ≤ size := by
  unfold validateKeySize at h
  split at h
  · rename_i size hsize
    split at h
    · rename_i hfits
      refine ⟨size, hsize, ?_⟩
      simp only [Bool.or_eq_true, Bool.and_eq_true, beq_iff_eq,
        decide_eq_true_eq] at hfits
      omega
    · cases h
  · cases h

section ReadBack

variable [PqCrypto]

theorem PublicKey.fromBytes_toBytes {publicKey : PublicKey} {encoded : Bytes}
    (hlength : publicKey.bytes.length < 2 ^ 32)
    (h : publicKey.toBytes = .ok encoded) :
    PublicKey.fromBytes encoded = .ok publicKey :=
  keyFromBytes_encodeWithScheme (fun _ => rfl) hlength h

theorem Signature.fromBytes_toBytes {signature : Signature} {encoded : Bytes}
    (hlength : signature.bytes.length < 2 ^ 32)
    (h : signature.toBytes = .ok encoded) :
    Signature.fromBytes encoded = .ok signature :=
  keyFromBytes_encodeWithScheme (fun _ => rfl) hlength h

/-! ## Canonical bytes -/

/-- The sizes can be written with 32 bits. -/
structure PqModule.SizesFit (m : PqModule) : Prop where
  publicKey : m.publicKeyBytes < 2 ^ 32
  secretKey : m.secretKeyBytes < 2 ^ 32
  signature : m.signatureBytes < 2 ^ 32

structure PqCrypto.SizesFit : Prop where
  dilithium2 : PqCrypto.dilithium2.SizesFit
  falcon512 : PqCrypto.falcon512.SizesFit

theorem moduleSize_lt {size : PqModule → ℕ}
    (hdilithium2 : size PqCrypto.dilithium2 < 2 ^ 32)
    (hfalcon512 : size PqCrypto.falcon512 < 2 ^ 32)
    {scheme : SignatureSchemeId} {n : ℕ}
    (h : moduleSize size scheme = some n) : n < 2 ^ 32 := by
  cases scheme with
  | dilithium2 => rwa [← Option.some.inj h]
  | falcon512 => rwa [← Option.some.inj h]
  | unknown id => cases h

/-- The format of one kind of key. -/
theorem canonical_keyFromBytes {κ : Type} {size : PqModule → ℕ}
    {mk : SignatureSchemeId → Bytes → κ} {scheme : κ → SignatureSchemeId}
    {bytes : κ → Bytes} {allowShorter : Bool} {mismatchError : CryptoError}
    (hmk : ∀ key, mk (scheme key) (bytes key) = key)
    (hscheme : ∀ id payload, scheme (mk id payload) = id)
    (hbytes : ∀ id payload, bytes (mk id payload) = payload)
    (hdilithium2 : size PqCrypto.dilithium2 < 2 ^ 32)
    (hfalcon512 : size PqCrypto.falcon512 < 2 ^ 32) :
    Canonical
      (fun key => encodeWithScheme (scheme key) (moduleSize size) (bytes key)
        allowShorter mismatchError)
      (keyFromBytes mk (moduleSize size) allowShorter mismatchError) := by
  apply Canonical.of_iff
  intro key encoded
  constructor
  · intro h
    have hlength : (bytes key).length < 2 ^ 32 := by
      cases hvalid : validateKeySize (moduleSize size) (scheme key)
          (bytes key).length allowShorter mismatchError with
      | error e =>
          rw [encodeWithScheme, hvalid] at h
          cases h
      | ok u =>
          obtain ⟨n, hn, hle⟩ := length_of_validateKeySize hvalid
          exact lt_of_le_of_lt hle (moduleSize_lt hdilithium2 hfalcon512 hn)
    rw [keyFromBytes_encodeWithScheme (fun _ => rfl) hlength h, hmk]
  · intro h
    obtain ⟨id, payload, rfl, hencode⟩ := encodeWithScheme_of_keyFromBytes h
    rw [hscheme, hbytes]
    exact hencode

/-- Each key and signature which is written has one accepted encoding. -/
theorem keyBytes_canonical (hsizes : PqCrypto.SizesFit) :
    Canonical PublicKey.toBytes PublicKey.fromBytes ∧
      Canonical PrivateKey.toBytes PrivateKey.fromBytes ∧
      Canonical Signature.toBytes Signature.fromBytes := by
  refine ⟨?_, ?_, ?_⟩
  · exact canonical_keyFromBytes (fun _ => rfl) (fun _ _ => rfl)
      (fun _ _ => rfl) hsizes.dilithium2.publicKey hsizes.falcon512.publicKey
  · exact canonical_keyFromBytes (fun _ => rfl) (fun _ _ => rfl)
      (fun _ _ => rfl) hsizes.dilithium2.secretKey hsizes.falcon512.secretKey
  · exact canonical_keyFromBytes (fun _ => rfl) (fun _ _ => rfl)
      (fun _ _ => rfl) hsizes.dilithium2.signature hsizes.falcon512.signature

end ReadBack

/-- A module of the given sizes which rejects everything. -/
def sizedModule (publicKeyBytes secretKeyBytes signatureBytes : ℕ) :
    PqModule where
  publicKeyBytes := publicKeyBytes
  secretKeyBytes := secretKeyBytes
  signatureBytes := signatureBytes
  publicKeyFromBytes _ := false
  secretKeyFromBytes _ := false
  signatureFromBytes _ := false
  detachedSign _ _ _ := []
  verifyDetachedSignature _ _ _ := false

/-- The sizes of Dilithium2 and Falcon-512. -/
abbrev sizedModules : PqCrypto where
  dilithium2 := sizedModule 1312 2560 2420
  falcon512 := sizedModule 897 1281 752

theorem sizedModules_canonical :
    letI := sizedModules
    Canonical PublicKey.toBytes PublicKey.fromBytes ∧
      Canonical PrivateKey.toBytes PrivateKey.fromBytes ∧
      Canonical Signature.toBytes Signature.fromBytes :=
  letI := sizedModules
  keyBytes_canonical {
    dilithium2 := ⟨by decide, by decide, by decide⟩
    falcon512 := ⟨by decide, by decide, by decide⟩ }

/-! ## Schemes and the registry -/

structure PqSignatureScheme where
  id : SignatureSchemeId
  sign : (entropy : ℕ) → PrivateKey → Bytes → Except CryptoError Signature
  verify : PublicKey → Bytes → Signature → Except CryptoError Unit

section Registry

variable [PqCrypto]

/-- The wrapper which both registered schemes put around their module. -/
def moduleScheme (id : SignatureSchemeId) (m : PqModule) :
    PqSignatureScheme where
  id := id
  sign entropy sk msg :=
    if sk.scheme ≠ id then .error .wrongScheme
    else if !m.secretKeyFromBytes sk.bytes then .error .invalidSecretKey
    else Signature.new id (m.detachedSign entropy msg sk.bytes)
  verify pk msg sig :=
    if pk.scheme ≠ id ∨ sig.scheme ≠ id then .error .wrongScheme
    else if !m.publicKeyFromBytes pk.bytes then .error .invalidPublicKey
    else if !m.signatureFromBytes sig.bytes then .error .invalidSignature
    else if !m.verifyDetachedSignature sig.bytes msg pk.bytes then
      .error .invalidSignature
    else .ok ()

def dilithium2Scheme : PqSignatureScheme :=
  moduleScheme .dilithium2 PqCrypto.dilithium2

def falcon512Scheme : PqSignatureScheme :=
  moduleScheme .falcon512 PqCrypto.falcon512

abbrev PqSchemeRegistry := SignatureSchemeId → Option PqSignatureScheme

def defaultRegistry : PqSchemeRegistry
  | .dilithium2 => some dilithium2Scheme
  | .falcon512 => some falcon512Scheme
  | .unknown _ => none

namespace PqSchemeRegistry

/-- `InMemoryRegistry::with_scheme`, starting from the empty registry. -/
def withScheme (registry : PqSchemeRegistry) (scheme : PqSignatureScheme) :
    PqSchemeRegistry := fun id =>
  if id = scheme.id then some scheme else registry id

/-- The registries which can be built from the schemes of the crate. -/
inductive InMemory : PqSchemeRegistry → Prop where
  | new : InMemory fun _ => none
  | dilithium2 {registry : PqSchemeRegistry} (past : InMemory registry) :
      InMemory (registry.withScheme dilithium2Scheme)
  | falcon512 {registry : PqSchemeRegistry} (past : InMemory registry) :
      InMemory (registry.withScheme falcon512Scheme)

theorem inMemory_defaultRegistry : InMemory defaultRegistry := by
  have hbuilt : defaultRegistry =
      (withScheme (withScheme (fun _ => none) dilithium2Scheme)
        falcon512Scheme) := by
    funext id
    cases id <;> rfl
  rw [hbuilt]
  exact (InMemory.new.dilithium2).falcon512

/-- A registered scheme wraps some module under its own id. -/
theorem InMemory.scheme_eq {registry : PqSchemeRegistry}
    (h : InMemory registry) {id : SignatureSchemeId}
    {scheme : PqSignatureScheme} (hscheme : registry id = some scheme) :
    ∃ m, scheme = moduleScheme id m := by
  induction h with
  | new => cases hscheme
  | dilithium2 past ih =>
      rw [withScheme] at hscheme
      split at hscheme
      · rename_i hid
        rw [hid, ← Option.some.inj hscheme]
        exact ⟨PqCrypto.dilithium2, rfl⟩
      · exact ih hscheme
  | falcon512 past ih =>
      rw [withScheme] at hscheme
      split at hscheme
      · rename_i hid
        rw [hid, ← Option.some.inj hscheme]
        exact ⟨PqCrypto.falcon512, rfl⟩
      · exact ih hscheme

end PqSchemeRegistry

theorem moduleScheme_verify_eq_ok {id : SignatureSchemeId} {m : PqModule}
    {publicKey : PublicKey} {message : Bytes} {signature : Signature} :
    (moduleScheme id m).verify publicKey message signature = .ok () ↔
      (publicKey.scheme = id ∧ signature.scheme = id) ∧
      m.publicKeyFromBytes publicKey.bytes = true ∧
      m.signatureFromBytes signature.bytes = true ∧
      m.verifyDetachedSignature signature.bytes message publicKey.bytes =
        true := by
  by_cases hscheme : publicKey.scheme = id ∧ signature.scheme = id
  · simp only [moduleScheme, hscheme, ne_eq, not_true_eq_false, or_self,
      if_false]
    cases m.publicKeyFromBytes publicKey.bytes <;>
      cases m.signatureFromBytes signature.bytes <;>
      cases m.verifyDetachedSignature signature.bytes message
        publicKey.bytes <;>
      simp
  · refine iff_of_false ?_ fun h => hscheme h.1
    rw [not_and_or] at hscheme
    simp [moduleScheme, hscheme]

/-! ## Verified keys and signatures have byte formats -/

/-- `from_bytes` takes public keys of one length, and no signature which is
longer than the longest one. -/
structure PqModule.ChecksSizes (m : PqModule) : Prop where
  publicKey : ∀ {bytes}, m.publicKeyFromBytes bytes = true →
    bytes.length = m.publicKeyBytes
  signature : ∀ {bytes}, m.signatureFromBytes bytes = true →
    bytes.length ≤ m.signatureBytes

structure PqCrypto.ChecksSizes : Prop where
  dilithium2 : PqCrypto.dilithium2.ChecksSizes
  falcon512 : PqCrypto.falcon512.ChecksSizes

omit [PqCrypto] in
theorem exists_encodeWithScheme {sizeFn : SignatureSchemeId → Option ℕ}
    {scheme : SignatureSchemeId} {bytes : Bytes} {size : ℕ}
    {allowShorter : Bool} {mismatchError : CryptoError}
    (hsize : sizeFn scheme = some size)
    (hfits : bytes.length = size ∨
      allowShorter = true ∧ bytes.length ≤ size) :
    ∃ encoded, encodeWithScheme scheme sizeFn bytes allowShorter
      mismatchError = .ok encoded := by
  have hvalid : validateKeySize sizeFn scheme bytes.length allowShorter
      mismatchError = .ok () := by
    rw [validateKeySize, hsize]
    rcases hfits with rfl | ⟨rfl, hle⟩
    · cases allowShorter <;> simp
    · simp [hle]
  rw [encodeWithScheme, hvalid]
  exact ⟨_, rfl⟩

/-- A public key and a signature which a registered scheme verifies can be
written. -/
theorem toBytes_of_verify (hsizes : PqCrypto.ChecksSizes)
    {id : SignatureSchemeId} {scheme : PqSignatureScheme}
    (hscheme : defaultRegistry id = some scheme) {publicKey : PublicKey}
    {message : Bytes} {signature : Signature}
    (h : scheme.verify publicKey message signature = .ok ()) :
    ∃ key sealed, publicKey.toBytes = .ok key ∧
      signature.toBytes = .ok sealed := by
  have hwritten : ∀ {m : PqModule}, m.ChecksSizes →
      moduleSize PqModule.publicKeyBytes id = some m.publicKeyBytes →
      moduleSize PqModule.signatureBytes id = some m.signatureBytes →
      scheme = moduleScheme id m →
        ∃ key sealed, publicKey.toBytes = .ok key ∧
          signature.toBytes = .ok sealed := by
    rintro m hchecks hkeySize hsignatureSize rfl
    obtain ⟨⟨rfl, hsame⟩, hpublicKey, hsignature, -⟩ :=
      moduleScheme_verify_eq_ok.mp h
    rw [← hchecks.publicKey hpublicKey] at hkeySize
    rw [← hsame] at hsignatureSize
    obtain ⟨key, hkey⟩ := exists_encodeWithScheme hkeySize (.inl rfl)
    obtain ⟨sealed, hsealed⟩ := exists_encodeWithScheme hsignatureSize
      (.inr ⟨rfl, hchecks.signature hsignature⟩)
    exact ⟨key, sealed, hkey, hsealed⟩
  cases id with
  | dilithium2 =>
      exact hwritten hsizes.dilithium2 rfl rfl (Option.some.inj hscheme).symm
  | falcon512 =>
      exact hwritten hsizes.falcon512 rfl rfl (Option.some.inj hscheme).symm
  | unknown value => cases hscheme

/-- Signatures made with the private key verify under the public key. -/
def PqSignatureScheme.MatchingPair (scheme : PqSignatureScheme)
    (publicKey : PublicKey) (privateKey : PrivateKey) : Prop :=
  ∀ entropy message signature,
    scheme.sign entropy privateKey message = .ok signature →
      scheme.verify publicKey message signature = .ok ()

end Registry

end QCoin
