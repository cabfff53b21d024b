import QCoin.Node.Storage

/-!
# The wire protocol

The datagrams nodes exchange, from `qcoin_node::wire`, and the check which a
peer has to pass before its messages are acted on.
-/

namespace QCoin

open Support

/-! ## Socket addresses -/

/-- `std::net::SocketAddr`. -/
inductive SocketAddr where
  | v4 (ip : BitVec 32) (port : UInt16)
  | v6 (ip : BitVec 128) (port : UInt16) (flowinfo scopeId : UInt32)
deriving DecidableEq

/-- The digits of `width` bits each which make up `n`, most significant
first. -/
def bigEndianDigits (width : ℕ) : ℕ → ℕ → List ℕ
  | 0, _ => []
  | count + 1, n =>
      n / 2 ^ (width * count) % 2 ^ width :: bigEndianDigits width count n

def ipv4Text (ip : ℕ) : String :=
  ".".intercalate ((bigEndianDigits 8 4 ip).map toString)

def segmentsText (segments : List ℕ) : String :=
  ":".intercalate
    (segments.map fun segment => String.ofList (Nat.toDigits 16 segment))

/-- The number of zeros at the head of the list. -/
def leadingZeros (segments : List ℕ) : ℕ :=
  (segments.takeWhile fun segment => segment = 0).length

/-- Start and length of the first longest run of zeros. -/
def longestZeroRun : List ℕ → ℕ × ℕ
  | [] => (0, 0)
  | segment :: segments =>
      let here := leadingZeros (segment :: segments)
      let (start, length) := longestZeroRun segments
      if length ≤ here then (0, here) else (start + 1, length)

/-- IPv4-mapped addresses end in dotted notation, and the first longest run of
two or more zero segments is left out. -/
def ipv6Text (ip : ℕ) : String :=
  if ip / 2 ^ 32 = 0xffff then "::ffff:" ++ ipv4Text (ip % 2 ^ 32)
  else
    let segments := bigEndianDigits 16 8 ip
    let (start, length) := longestZeroRun segments
    if 1 < length then
      segmentsText (segments.take start) ++ "::" ++
        segmentsText (segments.drop (start + length))
    else segmentsText segments

namespace SocketAddr

def display : SocketAddr → String
  | v4 ip port => ipv4Text ip.toNat ++ ":" ++ toString port
  | v6 ip port _ scopeId =>
      if scopeId = 0 then "[" ++ ipv6Text ip.toNat ++ "]:" ++ toString port
      else "[" ++ ipv6Text ip.toNat ++ "%" ++ toString scopeId ++ "]:" ++
        toString port

/-- Whether the IP address is a multicast address: `224.0.0.0/4` or
`ff00::/8`. -/
def isMulticast : SocketAddr → Bool
  | v4 ip _ => ip.toNat / 2 ^ 28 == 0xe
  | v6 ip .. => ip.toNat / 2 ^ 120 == 0xff

end SocketAddr

/-! ## Messages -/

structure TipResponse where
  height : UInt64
  tipHashHex : String
  stateRootHex : String
  lastTimestamp : UInt64
deriving DecidableEq

structure SubmitBlockResponse where
  accepted : Bool
  height : UInt64
  message : String
deriving DecidableEq

structure SubmitTransactionResponse where
  accepted : Bool
  txIdHex : String
  message : String
deriving DecidableEq

def WIRE_VERSION : UInt16 := 2

def MIN_COMPATIBLE_WIRE_VERSION : UInt16 := 1

structure NodeInfo where
  wireVersion : UInt16
  minCompatibleWireVersion : UInt16
  softwareVersion : String
  chainId : UInt32
  nodePublicKeyHex : String
  capabilities : List String
deriving DecidableEq

inductive WireMessage where
  | presenceAnnounce
  | nodeInfo (info : NodeInfo)
  | tipRequest
  | tipResponse (tip : TipResponse)
  | blockRequest (height : UInt64)
  | blockResponse (height : UInt64) (block : Option Block)
  | submitBlock (block : Block)
  | submitBlockResponse (response : SubmitBlockResponse)
  | transactionAnnounce (txId : Hash256)
  | transactionRequest (txId : Hash256)
  | transactionResponse (txId : Hash256) (transaction : Option Transaction)
  | submitTransaction (transaction : Transaction)
  | submitTransactionResponse (response : SubmitTransactionResponse)
deriving DecidableEq

def CARGO_PKG_VERSION : String := "0.1.1"

def localNodeInfo (chainId : UInt32) (multicastEnabled : Bool)
    (nodePublicKeyHex : String) (validator producer : Bool) : NodeInfo where
  wireVersion := WIRE_VERSION
  minCompatibleWireVersion := MIN_COMPATIBLE_WIRE_VERSION
  softwareVersion := CARGO_PKG_VERSION
  chainId := chainId
  nodePublicKeyHex := nodePublicKeyHex
  capabilities :=
    ["udp-qcoin-wire", "http-api"] ++
      (if multicastEnabled then ["multicast-discovery"] else []) ++
      ["tx-submit-v1", "tx-announce-v1"] ++
      (if validator then ["validator"] else []) ++
      (if producer then ["block-producer"] else [])

/-! ## Compatibility -/

def ensureVersionCompatible (remote : NodeInfo) : Except String Unit :=
  if remote.wireVersion < MIN_COMPATIBLE_WIRE_VERSION then
    .error ("peer wire version " ++ toString remote.wireVersion ++
      " is older than minimum compatible " ++
      toString MIN_COMPATIBLE_WIRE_VERSION)
  else if remote.minCompatibleWireVersion > WIRE_VERSION then
    .error ("peer requires minimum wire version " ++
      toString remote.minCompatibleWireVersion ++ ", local wire version is " ++
      toString WIRE_VERSION)
  else .ok ()

def ensureNodeInfoCompatible (localChainId : UInt32) (remote : NodeInfo) :
    Except String Unit := do
  ensureVersionCompatible remote
  if remote.chainId ≠ localChainId then
    .error ("peer chain id " ++ toString remote.chainId ++
      " does not match local chain id " ++ toString localChainId)
  else .ok ()

/-- A node accepts what a node of the same chain tells about itself. -/
theorem localNodeInfo_compatible (chainId : UInt32) (multicastEnabled : Bool)
    (nodePublicKeyHex : String) (validator producer : Bool) :
    ensureNodeInfoCompatible chainId
      (localNodeInfo chainId multicastEnabled nodePublicKeyHex validator
        producer) = .ok () := by
  have hversion : ensureVersionCompatible (localNodeInfo chainId
      multicastEnabled nodePublicKeyHex validator producer) = .ok () := rfl
  rw [ensureNodeInfoCompatible, hversion]
  simp [localNodeInfo, bind, Except.bind]

/-! ## Frames -/

/-- The codec which `serde` derives for `WireMessage` and `bincode` runs. -/
class WireCodec where
  serialize : WireMessage → Except String Bytes
  deserialize : Bytes → Except String WireMessage

def QCOIN_WIRE_MAGIC : Bytes := asciiBytes "QCN1"

section Frames

variable [WireCodec]

def WireMessage.encode (message : WireMessage) : Except String Bytes := do
  let payload ← WireCodec.serialize message
  return QCOIN_WIRE_MAGIC ++ payload

def WireMessage.decode (frame : Bytes) : Except String WireMessage :=
  if frame.length < QCOIN_WIRE_MAGIC.length then
    .error "frame shorter than qcoin wire header"
  else if frame.take QCOIN_WIRE_MAGIC.length ≠ QCOIN_WIRE_MAGIC then
    .error "frame does not match qcoin wire magic"
  else WireCodec.deserialize (frame.drop QCOIN_WIRE_MAGIC.length)

/-- Payloads are read back. -/
def WireCodec.RoundTrips : Prop :=
  ∀ message payload, WireCodec.serialize message = .ok payload →
    WireCodec.deserialize payload = .ok message

/-- Frames are read back as far as their payloads are. -/
theorem WireMessage.decode_encode (hcodec : WireCodec.RoundTrips)
    {message : WireMessage} {frame : Bytes}
    (h : message.encode = .ok frame) :
    WireMessage.decode frame = .ok message := by
  rw [WireMessage.encode] at h
  cases hpayload : WireCodec.serialize message with
  | error err =>
      rw [hpayload] at h
      simp [bind, Except.bind] at h
  | ok payload =>
      rw [hpayload] at h
      have hframe : QCOIN_WIRE_MAGIC ++ payload = frame := Except.ok.inj h
      rw [WireMessage.decode, ← hframe, if_neg (by simp), if_neg (by simp),
        List.drop_left]
      exact hcodec message payload hpayload

end Frames

end QCoin
