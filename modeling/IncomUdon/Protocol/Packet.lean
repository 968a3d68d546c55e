/-
# IncomUdon.Protocol.Packet — the versioned packet framing, as the code computes it.

A translation of the `incomudon-protocol` crate: the packet types, the packet header with its three lengths
(14 legacy, 16 fixed, 28 with a security header), the security header, and the two packet variants with
`encode`, `decode` and `aad`. Decoding runs in `Outcome`, so an index or a slice out of range shows as
`.panicked`; encoding touches no input it could misread and returns a plain `Except`.
-/
import IncomUdon.Lib.Bytes

namespace IncomUdon.Protocol

open IncomUdon.Lib
open IncomUdon.Lib.Outcome (reject ofExcept)

/-! ## Constants -/

/-- `PROTOCOL_VERSION`, the first byte of every packet. -/
def protocolVersion : UInt8 := 1
/-- `LEGACY_HEADER_LEN`: a header without the flags word. -/
def legacyHeaderLen : UInt16 := 14
/-- `FIXED_HEADER_LEN`: a header with it. -/
def fixedHeaderLen : UInt16 := 16
/-- `SECURITY_HEADER_LEN`. -/
def securityHeaderLen : Nat := 12
/-- `AUTH_TAG_LEN`. -/
def authTagLen : Nat := 16
/-- `FLAG_AES_GCM_V2`. -/
def flagAesGcmV2 : UInt16 := 0x0001

/-- `(FIXED_HEADER_LEN as usize + SECURITY_HEADER_LEN) as u16`. -/
def securedHeaderLen : UInt16 := UInt16.ofNat (fixedHeaderLen.toNat + securityHeaderLen)

/-! ## Errors -/

/-- What the decoder and the encoder refuse. -/
inductive ProtocolError where
  | packetTooShort
  | unsupportedVersion (version : UInt8)
  | unsupportedPacketType (value : UInt8)
  | unsupportedHeaderLength (headerLen : UInt16)
  | invalidPacketLength
  deriving DecidableEq, Repr

/-- `{0:#04x}`: two lower-case hexadecimal digits behind `0x`. -/
def hexByte (value : UInt8) : String :=
  let digits := Nat.toDigits 16 value.toNat
  "0x" ++ String.ofList (if digits.length < 2 then '0' :: digits else digits)

/-- The `Display` text of each error. -/
def ProtocolError.toString : ProtocolError → String
  | .packetTooShort => "packet is too short"
  | .unsupportedVersion version => s!"unsupported protocol version {version.toNat}"
  | .unsupportedPacketType value => "unsupported packet type " ++ hexByte value
  | .unsupportedHeaderLength headerLen => s!"unsupported header length {headerLen.toNat}"
  | .invalidPacketLength => "packet length is inconsistent with its header"

/-! ## Packet types -/

/-- What a packet is for. -/
inductive PacketType where
  | audio | pttOn | pttOff | keepalive | join | leave | grant | release | deny
  | keyExchange | codecConfig | fec | serverConfig | ping | pong
  deriving DecidableEq, Repr

/-- `packet_type as u8`. -/
def PacketType.toByte : PacketType → UInt8
  | .audio => 0x01
  | .pttOn => 0x02
  | .pttOff => 0x03
  | .keepalive => 0x04
  | .join => 0x05
  | .leave => 0x06
  | .grant => 0x07
  | .release => 0x08
  | .deny => 0x09
  | .keyExchange => 0x0a
  | .codecConfig => 0x0b
  | .fec => 0x0c
  | .serverConfig => 0x0d
  | .ping => 0x0e
  | .pong => 0x0f

/-- `PacketType::try_from`. -/
def PacketType.tryFrom (value : UInt8) : Except ProtocolError PacketType :=
  match value with
  | 0x01 => .ok .audio
  | 0x02 => .ok .pttOn
  | 0x03 => .ok .pttOff
  | 0x04 => .ok .keepalive
  | 0x05 => .ok .join
  | 0x06 => .ok .leave
  | 0x07 => .ok .grant
  | 0x08 => .ok .release
  | 0x09 => .ok .deny
  | 0x0a => .ok .keyExchange
  | 0x0b => .ok .codecConfig
  | 0x0c => .ok .fec
  | 0x0d => .ok .serverConfig
  | 0x0e => .ok .ping
  | 0x0f => .ok .pong
  | other => .error (.unsupportedPacketType other)

/-! ## The packet header -/

/-- The fields in front of every packet. -/
structure PacketHeader where
  version : UInt8
  packetType : PacketType
  headerLen : UInt16
  channelId : UInt32
  senderId : UInt32
  sequence : UInt16
  flags : UInt16
  deriving DecidableEq, Repr

namespace PacketHeader

/-- `PacketHeader::new`: this version, the fixed length and no flags. -/
def new (packetType : PacketType) (channelId senderId : UInt32) (sequence : UInt16) : PacketHeader where
  version := protocolVersion
  packetType := packetType
  headerLen := fixedHeaderLen
  channelId := channelId
  senderId := senderId
  sequence := sequence
  flags := 0

/-- The twelve bytes every layout carries behind version and packet type. -/
def encodeWords (header : PacketHeader) : Bytes :=
  be16 header.headerLen ++ be32 header.channelId ++ be32 header.senderId ++ be16 header.sequence

/-- `PacketHeader::encode`; the legacy layout has no flags word. -/
def encode (header : PacketHeader) : Bytes :=
  [header.version, header.packetType.toByte] ++ header.encodeWords ++
    (if header.headerLen ≠ legacyHeaderLen then be16 header.flags else [])

/-- The flags word: absent from the legacy layout, where it reads as zero. -/
def decodeFlags (bytes : Bytes) (headerLen : UInt16) : Outcome ProtocolError UInt16 :=
  if headerLen = legacyHeaderLen then .ok 0 else do return ofBe16 (← readAt bytes 14 2)

/-- `PacketHeader::decode`, with its checks in the order of the code. -/
def decode (bytes : Bytes) : Outcome ProtocolError PacketHeader := do
  reject (bytes.length < legacyHeaderLen.toNat) .packetTooShort
  let version ← index bytes 0
  reject (version ≠ protocolVersion) (.unsupportedVersion version)
  let headerLen := ofBe16 (← readAt bytes 2 2)
  reject (headerLen ≠ legacyHeaderLen ∧ headerLen < fixedHeaderLen)
    (.unsupportedHeaderLength headerLen)
  reject (bytes.length < headerLen.toNat) .invalidPacketLength
  let flags ← decodeFlags bytes headerLen
  let packetType ← ofExcept (PacketType.tryFrom (← index bytes 1))
  let channelId := ofBe32 (← readAt bytes 4 4)
  let senderId := ofBe32 (← readAt bytes 8 4)
  let sequence := ofBe16 (← readAt bytes 12 2)
  return { version, packetType, headerLen, channelId, senderId, sequence, flags }

/-- The bytes the fixed part of a header occupies. -/
def fixedLen (header : PacketHeader) : Nat := if header.headerLen = legacyHeaderLen then 14 else 16

@[simp] theorem encodeWords_length (header : PacketHeader) : header.encodeWords.length = 12 := by
  simp [encodeWords]

@[simp] theorem encode_length (header : PacketHeader) : header.encode.length = header.fixedLen := by
  unfold encode fixedLen
  by_cases h : header.headerLen = legacyHeaderLen <;> simp [h]

theorem fixedLen_bounds (header : PacketHeader) : 14 ≤ header.fixedLen ∧ header.fixedLen ≤ 16 := by
  unfold fixedLen
  split <;> omega

theorem fixedLen_of_ne {header : PacketHeader} (h : header.headerLen ≠ legacyHeaderLen) : header.fixedLen = 16 :=
  if_neg h

end PacketHeader

/-! ## The security header -/

/-- The nonce counter and the key of a sealed packet. -/
structure SecurityHeader where
  nonce : UInt64
  keyId : UInt32
  deriving DecidableEq, Repr

namespace SecurityHeader

/-- `SecurityHeader::encode`. -/
def encode (security : SecurityHeader) : ByteArr securityHeaderLen :=
  ⟨be64 security.nonce ++ be32 security.keyId, by simp [securityHeaderLen]⟩

/-- `SecurityHeader::decode`: the first twelve bytes; what comes behind them is not looked at. -/
def decode (bytes : Bytes) : Outcome ProtocolError SecurityHeader := do
  reject (bytes.length < securityHeaderLen) .packetTooShort
  let nonce ← expectArr 8 (← slice bytes 0 8)
  let keyId ← expectArr 4 (← slice bytes 8 12)
  return { nonce := ofBe64 nonce.val, keyId := ofBe32 keyId.val }

end SecurityHeader

/-! ## Packets -/

/-- A packet with a payload in the clear, or with a security header and a tag around the payload. -/
inductive Packet where
  | plain (header : PacketHeader) (payload : Bytes)
  | secured (header : PacketHeader) (security : SecurityHeader) (payload : Bytes)
      (authTag : ByteArr authTagLen)
  deriving DecidableEq, Repr

namespace Packet

/-- The header of either variant. -/
def header : Packet → PacketHeader
  | .plain header _ => header
  | .secured header _ _ _ => header

/-- `Packet::encode`: the header length must be that of the layout. -/
def encode : Packet → Except ProtocolError Bytes
  | .plain header payload =>
      if header.headerLen ≠ legacyHeaderLen ∧ header.headerLen ≠ fixedHeaderLen then
        .error (.unsupportedHeaderLength header.headerLen)
      else
        .ok (header.encode ++ payload)
  | .secured header security payload authTag =>
      if header.headerLen ≠ securedHeaderLen then
        .error (.unsupportedHeaderLength header.headerLen)
      else
        .ok (header.encode ++ security.encode.val ++ payload ++ authTag.val)

/-- `Packet::decode`: the header length decides between the layouts, and in the sealed one the tag is at the end. -/
def decode (bytes : Bytes) : Outcome ProtocolError Packet := do
  let header ← PacketHeader.decode bytes
  let payloadStart := header.headerLen.toNat
  if header.headerLen < securedHeaderLen then
    return .plain header (← slice bytes payloadStart bytes.length)
  else
    reject (bytes.length < payloadStart + authTagLen) .invalidPacketLength
    let security ← SecurityHeader.decode (← slice bytes fixedHeaderLen.toNat payloadStart)
    let tagStart ← checkedSub bytes.length authTagLen
    let authTag ← expectArr authTagLen (← slice bytes tagStart bytes.length)
    return .secured header security (← slice bytes payloadStart tagStart) authTag

/-- The associated data of an AES-GCM v2 packet: its header and security header, encoded again. -/
def aad : Packet → Option Bytes
  | .secured header security _ _ =>
      if header.flags &&& flagAesGcmV2 ≠ 0 then some (header.encode ++ security.encode.val) else none
  | .plain _ _ => none

@[simp] theorem header_plain (h : PacketHeader) (p : Bytes) : (Packet.plain h p).header = h := rfl

@[simp] theorem header_secured (h : PacketHeader) (s : SecurityHeader) (p : Bytes)
    (t : ByteArr authTagLen) : (Packet.secured h s p t).header = h := rfl

end Packet

end IncomUdon.Protocol
