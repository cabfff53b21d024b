import QCoin.Node.Hex
import QCoin.Node.Wire
import QCoin.Support.Distinct

/-!
# Startup configuration

What `run_node` makes of the cluster manifest, the network configuration and
the validators named on the command line.  Role selection compares hexadecimal
text and the proposer schedule compares keys; both read the same validators.
The interfaces of the machine enter as the outcomes of their inspections, and
printing is left out.
-/

namespace QCoin

open Support
open Support.Result

/-! ## Configuration files -/

structure MulticastV4Config where
  group : BitVec 32
  interface : BitVec 32

structure MulticastV6Config where
  group : BitVec 128
  interface : Option UInt32

structure NetworkConfig where
  validatorPublicKeyHex : List String
  disableDefaultMulticast : Bool
  multicastV4 : List MulticastV4Config
  multicastV6 : List MulticastV6Config

structure ClusterManifest where
  chainId : UInt32
  validatorPublicKeyHex : List String
  reliableNodePublicKeyHex : List String
  disableDefaultMulticast : Bool
  multicastV4 : List MulticastV4Config
  multicastV6 : List MulticastV6Config

/-- `network::MulticastConfig`. -/
inductive MulticastConfig where
  | v4 (group interface : BitVec 32)
  | v6 (group : BitVec 128) (interface : UInt32)
deriving DecidableEq

structure StartupProfile where
  chainId : UInt32
  validatorPublicKeyHex : List String
  reliableNodePublicKeyHex : List String
  multicast : List MulticastConfig
  defaultMulticastEnabled : Bool

def DEFAULT_CHAIN_ID : UInt32 := 0

/-- `ff02::5143:6f69:6e`. -/
def DEFAULT_IPV6_MULTICAST_GROUP : BitVec 128 :=
  0xff02_0000_0000_0000_0000_5143_6f69_006e

/-! ## Multicast interfaces -/

inductive IpAddr where
  | v4 (ip : BitVec 32)
  | v6 (ip : BitVec 128)
deriving DecidableEq

structure InterfaceCandidate where
  index : UInt32
  ip : IpAddr
  isLoopback : Bool

/-- The indices of the eligible interfaces, those of loopback interfaces only
if there are no others. -/
def preferredInterfaces (eligible : InterfaceCandidate → Bool)
    (candidates : List InterfaceCandidate) : List UInt32 :=
  let (nonLoopback, loopback) := candidates.foldl
    (fun (nonLoopback, loopback) candidate =>
      if !eligible candidate then (nonLoopback, loopback)
      else if candidate.isLoopback then
        (nonLoopback, pushNew loopback candidate.index)
      else (pushNew nonLoopback candidate.index, loopback))
    ([], [])
  if nonLoopback ≠ [] then nonLoopback else loopback

def selectMulticastInterfacesForBindIp (bindIp : IpAddr) :
    List InterfaceCandidate → List UInt32 :=
  preferredInterfaces fun candidate => candidate.ip == bindIp

/-- The address a node binds to, unless it is unspecified. -/
def SocketAddr.specifiedIp : SocketAddr → Option IpAddr
  | v4 ip _ => if ip = 0 then none else some (.v4 ip)
  | v6 ip .. => if ip = 0 then none else some (.v6 ip)

/-- The outcome of an inspection of the interfaces. -/
abbrev Inspection := Except String (List InterfaceCandidate)

def discoverIpv6MulticastInterfacesForBindAddr (inspection : Inspection)
    (bindAddr : SocketAddr) : Except String (Option (List UInt32)) :=
  match bindAddr.specifiedIp with
  | none => .ok none
  | some bindIp => do
      let preferred :=
        selectMulticastInterfacesForBindIp bindIp (← inspection)
      return if preferred = [] then none else some preferred

def discoverIpv6MulticastInterfaces (inspection : Inspection) :
    Except String (List UInt32) := do
  let indices := preferredInterfaces
    (fun candidate => match candidate.ip with
      | .v4 _ => false
      | .v6 _ => true)
    (← inspection)
  if indices ≠ [] then return indices
  else throw "no IPv6 multicast-capable interfaces found"

/-- The interfaces are inspected once for those of the bind address and, if
there are none, once more for all. -/
def resolveIpv6MulticastInterfaces (first second : Inspection)
    (bindAddr : SocketAddr) : Except String (List UInt32) := do
  let scopeId := match bindAddr with
    | .v4 .. => 0
    | .v6 _ _ _ scopeId => scopeId
  if scopeId ≠ 0 then return [scopeId]
  match ← discoverIpv6MulticastInterfacesForBindAddr first bindAddr with
  | some indices => return indices
  | none => discoverIpv6MulticastInterfaces second

/-- Entry `i` makes the inspections `2 * i` and `2 * i + 1`. -/
def expandMulticastConfigs (inspect : ℕ → Inspection) (bindAddr : SocketAddr)
    (v4 : List MulticastV4Config) (v6 : List MulticastV6Config)
    (bestEffortAuto : Bool) : Except String (List MulticastConfig) :=
  v6.zipIdx.foldlM
    (fun configs (entry, i) =>
      let interfaces : Except String (List UInt32) := match entry.interface with
        | some interface => .ok [interface]
        | none => resolveIpv6MulticastInterfaces (inspect (2 * i))
            (inspect (2 * i + 1)) bindAddr
      match interfaces with
      | .ok interfaces => .ok
          ((interfaces.map (MulticastConfig.v6 entry.group)).foldl pushNew
            configs)
      | .error err =>
          if bestEffortAuto then .ok configs else .error err)
    (v4.map fun entry => .v4 entry.group entry.interface)

def defaultMulticastV6Configs : List MulticastV6Config :=
  [⟨DEFAULT_IPV6_MULTICAST_GROUP, none⟩]

/-- The networks to join, and whether they are the default ones. -/
def resolveMulticastConfigs (inspect : ℕ → Inspection)
    (bindAddr : SocketAddr) (networkConfig : Option NetworkConfig)
    (clusterManifest : Option ClusterManifest) :
    Except String (List MulticastConfig × Bool) :=
  let configured := match networkConfig with
    | some config =>
        if config.multicastV4.isEmpty && config.multicastV6.isEmpty then none
        else some (config.multicastV4, config.multicastV6)
    | none => none
  let configured := configured <|> match clusterManifest with
    | some manifest =>
        if manifest.multicastV4.isEmpty && manifest.multicastV6.isEmpty then
          none
        else some (manifest.multicastV4, manifest.multicastV6)
    | none => none
  match configured with
  | some (v4, v6) => do
      return (← expandMulticastConfigs inspect bindAddr v4 v6 false, false)
  | none =>
      if networkConfig.any NetworkConfig.disableDefaultMulticast ||
          clusterManifest.any ClusterManifest.disableDefaultMulticast then
        .ok ([], false)
      else
        match expandMulticastConfigs inspect bindAddr []
            defaultMulticastV6Configs true with
        | .ok configs => .ok (configs, true)
        | .error _ => .ok ([], true)

/-! ## Validators -/

def normalizeHexStrings (values : List String) : List String :=
  values.foldl
    (fun merged value =>
      if normalized value = "" then merged
      else pushNew merged (normalized value))
    []

def mergeUniqueHexStrings (primary extra : List String) : List String :=
  normalizeHexStrings (primary ++ extra)

def resolveStartupProfile (inspect : ℕ → Inspection) (bindAddr : SocketAddr)
    (networkConfig : Option NetworkConfig)
    (clusterManifest : Option ClusterManifest)
    (cliValidatorPublicKeyHex : List String) :
    Except String StartupProfile := do
  let validatorPublicKeyHex := match clusterManifest with
    | some manifest =>
        mergeUniqueHexStrings manifest.validatorPublicKeyHex []
    | none => mergeUniqueHexStrings
        ((networkConfig.map NetworkConfig.validatorPublicKeyHex).getD [])
        cliValidatorPublicKeyHex
  let reliableNodePublicKeyHex := (clusterManifest.map fun manifest =>
    normalizeHexStrings manifest.reliableNodePublicKeyHex).getD []
  let (multicast, defaultMulticastEnabled) ←
    resolveMulticastConfigs inspect bindAddr networkConfig clusterManifest
  return {
    chainId :=
      (clusterManifest.map ClusterManifest.chainId).getD DEFAULT_CHAIN_ID
    validatorPublicKeyHex := validatorPublicKeyHex
    reliableNodePublicKeyHex := reliableNodePublicKeyHex
    multicast := multicast
    defaultMulticastEnabled := defaultMulticastEnabled }

/-- The values `normalize_hex_strings` does not skip. -/
def nonBlank (values : List String) : List String :=
  values.filter fun value => trim value.toList ≠ []

theorem normalized_eq_empty {value : String} :
    normalized value = "" ↔ trim value.toList = [] := by
  rw [normalized, ← String.toList_inj, String.toList_ofList]
  exact List.map_eq_nil_iff

theorem normalizeHexStrings_eq (values : List String) :
    normalizeHexStrings values =
      distinct ((nonBlank values).map normalized) := by
  rw [normalizeHexStrings, distinct, List.foldl_map, nonBlank,
    List.foldl_filter]
  congr 1
  funext merged value
  by_cases hblank : trim value.toList = []
  · rw [if_pos (normalized_eq_empty.mpr hblank), if_neg (by simp [hblank])]
  · rw [if_neg (mt normalized_eq_empty.mp hblank), if_pos (by simp [hblank])]

/-- Normalized values are left as they are. -/
theorem normalized_of_mem_normalizeHexStrings {values : List String}
    {hex : String} (h : hex ∈ normalizeHexStrings values) :
    normalized hex = hex := by
  rw [normalizeHexStrings_eq, mem_distinct, List.mem_map] at h
  obtain ⟨value, -, rfl⟩ := h
  exact normalized_normalized value

section Keys

variable [PqCrypto]

def parseValidator (scheme : SignatureSchemeId) (hex : String) :
    Except String PublicKey := do
  let raw ← fromHex hex
  (PublicKey.new scheme raw).mapError CryptoError.display

def parseValidators (validatorHexes : List String)
    (scheme : SignatureSchemeId) : Except String (List PublicKey) :=
  validatorHexes.mapM (parseValidator scheme)

/-- The role of the node, decided by `run_node` on the text of its key. -/
def StartupProfile.nodeIsValidator (startup : StartupProfile)
    (nodePublicKeyHex : String) : Bool :=
  startup.validatorPublicKeyHex.any (· == nodePublicKeyHex)

variable {scheme : SignatureSchemeId}

theorem new_eq_ok {raw : Bytes} {key : PublicKey}
    (h : PublicKey.new scheme raw = .ok key) : key = ⟨scheme, raw⟩ := by
  simp only [PublicKey.new, newKey, bind_eq_ok, pure_eq_ok] at h
  obtain ⟨-, -, hkey⟩ := h
  exact hkey.symm

/-- The text is the encoding of a key of the scheme. -/
def Denotes (scheme : SignatureSchemeId) (hex : String) (key : PublicKey) :
    Prop :=
  hex = toHex key.bytes ∧ PublicKey.new scheme key.bytes = .ok key

/-- A configured text is read as the key its lower case is the encoding of. -/
theorem parseValidator_eq_ok {hex : String} {key : PublicKey} :
    parseValidator scheme hex = .ok key ↔
      Denotes scheme (normalized hex) key := by
  rw [parseValidator, bind_eq_ok]
  constructor
  · rintro ⟨raw, hraw, hkey⟩
    cases hnew : PublicKey.new scheme raw with
    | error err =>
        rw [hnew] at hkey
        cases hkey
    | ok made =>
        rw [hnew] at hkey
        obtain rfl := Except.ok.inj hkey
        obtain rfl := new_eq_ok hnew
        exact ⟨fromHex_eq_ok.mp hraw, hnew⟩
  · rintro ⟨hhex, hnew⟩
    refine ⟨key.bytes, fromHex_eq_ok.mpr hhex, ?_⟩
    rw [hnew]
    rfl

/-- Encodings and keys of one scheme correspond one to one. -/
theorem biUnique_denotes : Relator.BiUnique (Denotes scheme) := by
  constructor
  · intro hex key hex' h h'
    rw [h.1, h'.1]
  · intro hex key key' h h'
    have hbytes := toHex_inj.mp (h.1.symm.trans h'.1)
    have hnew := h.2
    rw [hbytes, h'.2] at hnew
    exact (Except.ok.inj hnew).symm

theorem denotes_of_parseValidators {values : List String}
    {validators : List PublicKey}
    (h : parseValidators (normalizeHexStrings values) scheme =
      .ok validators) :
    List.Forall₂ (Denotes scheme) (normalizeHexStrings values) validators := by
  rw [parseValidators, mapM_eq_ok] at h
  have hboth := (List.forall₂_and_left _ _).mpr
    ⟨fun hex => normalized_of_mem_normalizeHexStrings, h⟩
  apply hboth.imp
  rintro hex key ⟨hnormal, hkey⟩
  rw [← hnormal]
  exact parseValidator_eq_ok.mp hkey

/-- The keys of the normalized list are those of the values, each at its first
occurrence. -/
theorem parseValidators_normalizeHexStrings {values : List String}
    {validators : List PublicKey}
    (h : parseValidators (normalizeHexStrings values) scheme =
      .ok validators) :
    ∃ keys, parseValidators (nonBlank values) scheme = .ok keys ∧
      validators = distinct keys := by
  have hvalidators := denotes_of_parseValidators h
  rw [normalizeHexStrings_eq] at hvalidators
  have hparsed : ∀ value ∈ nonBlank values,
      ∃ key, parseValidator scheme value = .ok key := by
    intro value hvalue
    have hmem : normalized value ∈
        distinct ((nonBlank values).map normalized) :=
      mem_distinct.mpr (List.mem_map_of_mem hvalue)
    obtain ⟨key, -, hkey⟩ := exists_mem_of_forall₂ hvalidators hmem
    exact ⟨key, parseValidator_eq_ok.mpr hkey⟩
  obtain ⟨keys, hkeys⟩ := exists_mapM_eq_ok hparsed
  refine ⟨keys, hkeys, ?_⟩
  rw [mapM_eq_ok] at hkeys
  have hdenoted : List.Forall₂ (Denotes scheme)
      ((nonBlank values).map normalized) keys :=
    List.forall₂_map_left_iff.mpr
      (hkeys.imp fun _ _ => parseValidator_eq_ok.mp)
  exact List.right_unique_forall₂' biUnique_denotes.right hvalidators
    (forall₂_distinct biUnique_denotes hdenoted)

/-- The text of the node's key is configured exactly when the key is. -/
theorem nodeIsValidator_iff {startup : StartupProfile} {values : List String}
    {validators : List PublicKey}
    (hvalues : startup.validatorPublicKeyHex = normalizeHexStrings values)
    (h : parseValidators startup.validatorPublicKeyHex scheme =
      .ok validators)
    {publicKey : PublicKey} (hscheme : publicKey.scheme = scheme) :
    startup.nodeIsValidator (toHex publicKey.bytes) = true ↔
      publicKey ∈ validators := by
  rw [hvalues] at h
  have hdenoted := denotes_of_parseValidators h
  rw [StartupProfile.nodeIsValidator, hvalues, List.any_eq_true]
  constructor
  · rintro ⟨hex, hhex, heq⟩
    obtain ⟨key, hkey, hdenotes⟩ := exists_mem_of_forall₂ hdenoted hhex
    have hbytes := toHex_inj.mp (hdenotes.1.symm.trans (beq_iff_eq.mp heq))
    obtain rfl : key = publicKey := by
      rw [new_eq_ok hdenotes.2, hbytes, ← hscheme]
    exact hkey
  · intro hkey
    obtain ⟨hex, hhex, hdenotes⟩ := exists_mem_of_forall₂ hdenoted.flip hkey
    exact ⟨hex, hhex, beq_iff_eq.mpr hdenotes.1⟩

/-! ## The resolved list -/

/-- The list of the manifest or, without one, those of the network
configuration and the command line. -/
def validatorSource (networkConfig : Option NetworkConfig)
    (clusterManifest : Option ClusterManifest)
    (cliValidatorPublicKeyHex : List String) : List String :=
  match clusterManifest with
  | some manifest => manifest.validatorPublicKeyHex
  | none => (networkConfig.map NetworkConfig.validatorPublicKeyHex).getD [] ++
      cliValidatorPublicKeyHex

variable {inspect : ℕ → Inspection} {bindAddr : SocketAddr}
  {networkConfig : Option NetworkConfig}
  {clusterManifest : Option ClusterManifest}
  {cliValidatorPublicKeyHex : List String} {startup : StartupProfile}

omit [PqCrypto] in
theorem validators_of_resolveStartupProfile
    (h : resolveStartupProfile inspect bindAddr networkConfig clusterManifest
      cliValidatorPublicKeyHex = .ok startup) :
    startup.validatorPublicKeyHex = normalizeHexStrings
      (validatorSource networkConfig clusterManifest
        cliValidatorPublicKeyHex) := by
  simp only [resolveStartupProfile, bind_eq_ok, pure_eq_ok] at h
  obtain ⟨-, -, rfl⟩ := h
  cases clusterManifest with
  | some manifest => exact congrArg normalizeHexStrings (List.append_nil _)
  | none => rfl

/-- The parsed validators are distinct and in the order of their first
occurrence in the configured list, and the node takes the role of a validator
exactly if its key is one of them. -/
theorem validators_consistent {validators : List PublicKey}
    (hresolve : resolveStartupProfile inspect bindAddr networkConfig
      clusterManifest cliValidatorPublicKeyHex = .ok startup)
    (hparse : parseValidators startup.validatorPublicKeyHex scheme =
      .ok validators) :
    validators.Nodup ∧
    (∃ keys, parseValidators (nonBlank (validatorSource networkConfig
        clusterManifest cliValidatorPublicKeyHex)) scheme = .ok keys ∧
      (∀ key, key ∈ validators ↔ key ∈ keys) ∧
      validators.Pairwise fun a b => keys.idxOf a < keys.idxOf b) ∧
    ∀ publicKey : PublicKey, publicKey.scheme = scheme →
      (startup.nodeIsValidator (toHex publicKey.bytes) = true ↔
        publicKey ∈ validators) := by
  have hvalues := validators_of_resolveStartupProfile hresolve
  have hnormal := hparse
  rw [hvalues] at hnormal
  obtain ⟨keys, hkeys, rfl⟩ := parseValidators_normalizeHexStrings hnormal
  exact ⟨nodup_distinct keys,
    ⟨keys, hkeys, fun key => mem_distinct, pairwise_distinct keys⟩,
    fun publicKey hscheme => nodeIsValidator_iff hvalues hparse hscheme⟩

end Keys

/-! ## A configured list -/

/-- Two spellings of one key, another key and a blank. -/
def configuredKeys : List String := [" 2A", "2b", "", "2a\n"]

abbrev oneByteModules : PqCrypto :=
  ⟨sizedModule 1 1 1, sizedModule 1 1 1⟩

def configuredStartup : StartupProfile where
  chainId := 0
  validatorPublicKeyHex := ["2a", "2b"]
  reliableNodePublicKeyHex := []
  multicast := []
  defaultMulticastEnabled := true

def configuredValidators : List PublicKey :=
  [⟨.dilithium2, [0x2a]⟩, ⟨.dilithium2, [0x2b]⟩]

theorem configuredKeys_consistent :
    letI := oneByteModules
    configuredValidators.Nodup ∧
    (∃ keys, parseValidators (nonBlank (validatorSource none none
        configuredKeys)) .dilithium2 = .ok keys ∧
      (∀ key, key ∈ configuredValidators ↔ key ∈ keys) ∧
      configuredValidators.Pairwise fun a b =>
        keys.idxOf a < keys.idxOf b) ∧
    ∀ publicKey : PublicKey, publicKey.scheme = .dilithium2 →
      (configuredStartup.nodeIsValidator (toHex publicKey.bytes) = true ↔
        publicKey ∈ configuredValidators) :=
  letI := oneByteModules
  have hresolve : resolveStartupProfile
      (fun _ => .error "failed to inspect local interfaces")
      (.v4 0x7f000001 9700) none none configuredKeys =
        .ok configuredStartup := rfl
  have hparse : parseValidators configuredStartup.validatorPublicKeyHex
      .dilithium2 = .ok configuredValidators := rfl
  validators_consistent hresolve hparse

end QCoin
