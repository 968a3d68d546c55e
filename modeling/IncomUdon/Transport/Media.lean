/-
# IncomUdon.Transport.Media — what the worker builds, sends and reads, one call at a time.

A translation of the functions of the `incomudon-transport` crate that `run_worker` calls: `send_packet`,
`send_control`, `send_pcm`, `decode_pcm` and `media_key`. A call that takes `&mut sequence` and `&mut media`
returns both in a `Turn`, with the effects it had in order: calls of the cipher, packets handed to
`send_packet`, datagrams handed to the socket, events offered to the event channel. What the operating system
answers (`socket.send`) is an argument.

Lemmas beside each function say what one call can do; nothing above this module unfolds the functions.
-/
import IncomUdon.Core.Profile
import IncomUdon.Crypto
import IncomUdon.Protocol.Packet

namespace IncomUdon.Transport

open IncomUdon.Lib
open IncomUdon.Lib.Outcome (ok_bind)
open IncomUdon.Protocol
open IncomUdon.Crypto
open IncomUdon.Core (EncryptionMode)

/-! ## Configuration, commands and events -/

/-- `std::net::SocketAddr`, without flow information and scope. -/
inductive SocketAddr where
  | v4 (ip : ByteArr 4) (port : UInt16)
  | v6 (ip : ByteArr 16) (port : UInt16)
  deriving DecidableEq, Repr

namespace SocketAddr

/-- `SocketAddr::is_ipv4`. -/
def isIpv4 : SocketAddr → Bool
  | .v4 _ _ => true
  | .v6 _ _ => false

/-- `SocketAddr::is_ipv6`. -/
def isIpv6 (address : SocketAddr) : Bool := !address.isIpv4

/-- The `Display` text. -/
def toString : SocketAddr → String
  | .v4 ip port => ipv4ToString ip.val ++ ":" ++ ToString.toString port.toNat
  | .v6 ip port => "[" ++ ipv6ToString ip.val ++ "]:" ++ ToString.toString port.toNat

end SocketAddr

/-- A `Duration`, in nanoseconds. -/
abbrev Duration := Nat

/-- `Duration::from_secs(10)`. -/
def defaultKeepaliveInterval : Duration := 10 * 10 ^ 9
/-- `DEFAULT_COMMAND_CAPACITY`. -/
def defaultCommandCapacity : Nat := 64
/-- `DEFAULT_EVENT_CAPACITY`. -/
def defaultEventCapacity : Nat := 128

/-- What a session is opened with. -/
structure RelayConfig where
  relayAddr : SocketAddr
  channelId : UInt32
  senderId : UInt32
  encryption : EncryptionMode
  password : Str
  keepaliveInterval : Duration
  deriving DecidableEq, Repr

/-- `RelayConfig::new`: no password, and the default keepalive interval. -/
def RelayConfig.new (relayAddr : SocketAddr) (channelId senderId : UInt32)
    (encryption : EncryptionMode) : RelayConfig where
  relayAddr := relayAddr
  channelId := channelId
  senderId := senderId
  encryption := encryption
  password := []
  keepaliveInterval := defaultKeepaliveInterval

/-- What the client asks of the worker. -/
inductive RelayCommand where
  | send (packet : Packet)
  | sendPcm (frame : Bytes)
  | sendControl (packetType : PacketType) (payload : Bytes)
  | disconnect
  deriving DecidableEq, Repr

/-- What the worker tells the client. -/
inductive RelayEvent where
  | connected (localAddr : SocketAddr)
  | sent (packetType : PacketType)
  | received (packet : Packet)
  | pcmReceived (senderId : UInt32) (frame : Bytes)
  | receiveRejected (error : ProtocolError)
  | ioError (message : String)
  | stopped
  deriving DecidableEq, Repr

/-! ## Effects -/

/-- Which call handed a packet to `send_packet`: `run_worker` for a client's own packet, `send_control`, or
`send_pcm`. -/
inductive Origin where
  | client | control | pcm
  deriving DecidableEq, Repr

/-- One call of `encrypt_aes_gcm_v2`. -/
structure EncryptCall where
  key : ByteArr 32
  nonce : UInt64
  plaintext : Bytes
  aad : Bytes
  deriving DecidableEq, Repr

/-- What a step of either thread does, as far as it can be seen from outside it. -/
inductive Effect where
  /-- A client's `try_send` on the command queue, and whether it was accepted. -/
  | submitted (command : RelayCommand) (accepted : Bool)
  /-- `disconnect()` returned to the client. -/
  | disconnected
  /-- The worker took a command off the queue. -/
  | took (command : RelayCommand)
  | encrypt (call : EncryptCall)
  /-- A packet handed to `send_packet`. -/
  | handed (origin : Origin) (packet : Packet)
  /-- Bytes handed to `socket.send`. -/
  | datagram (bytes : Bytes)
  /-- An event offered to the event channel. -/
  | event (event : RelayEvent)
  /-- What `try_next_event` returned to the client. -/
  | nextEvent (event : Option RelayEvent)
  deriving DecidableEq, Repr

namespace Effect

/-- The packet that is handed to `send_packet`, and by whom. -/
def handed? : Effect → Option (Origin × Packet)
  | .handed origin packet => some (origin, packet)
  | _ => none

/-- The call of the cipher. -/
def call? : Effect → Option EncryptCall
  | .encrypt call => some call
  | _ => none

/-- The bytes that are handed to the socket. -/
def datagram? : Effect → Option Bytes
  | .datagram bytes => some bytes
  | _ => none

/-- The event that is offered. -/
def event? : Effect → Option RelayEvent
  | .event e => some e
  | _ => none

/-- The command that is submitted, and whether there was room for it. -/
def submitted? : Effect → Option (RelayCommand × Bool)
  | .submitted command ok => some (command, ok)
  | _ => none

/-- Effects that send nothing, encrypt nothing and deliver no audio. -/
def quiet : Effect → Bool
  | .encrypt _ => false
  | .handed _ _ => false
  | .datagram _ => false
  | .event (.pcmReceived _ _) => false
  | _ => true

/-- Effects that send nothing and encrypt nothing. -/
def silent : Effect → Bool
  | .encrypt _ => false
  | .handed _ _ => false
  | .datagram _ => false
  | _ => true

/-- Silent effects show neither a packet, nor a call of the cipher, nor a datagram. -/
theorem silent_views {effects : List Effect} (h : ∀ e ∈ effects, e.silent = true) :
    effects.filterMap handed? = [] ∧ effects.filterMap call? = [] ∧ effects.filterMap datagram? = [] := by
  have hviews : ∀ e ∈ effects, e.handed? = none ∧ e.call? = none ∧ e.datagram? = none := by
    intro e he
    have hsilent := h e he
    cases e with
    | encrypt call => cases hsilent
    | handed origin packet => cases hsilent
    | datagram bytes => cases hsilent
    | _ => exact ⟨rfl, rfl, rfl⟩
  rw [List.filterMap_eq_nil_iff, List.filterMap_eq_nil_iff, List.filterMap_eq_nil_iff]
  exact ⟨fun e he => (hviews e he).1, fun e he => (hviews e he).2.1, fun e he => (hviews e he).2.2⟩

theorem quiet_views {effects : List Effect} (h : ∀ e ∈ effects, e.quiet = true) :
    effects.filterMap handed? = [] ∧ effects.filterMap call? = [] ∧ effects.filterMap datagram? = [] := by
  apply silent_views
  intro e he
  have hquiet := h e he
  cases e with
  | encrypt call => cases hquiet
  | handed origin packet => cases hquiet
  | datagram bytes => cases hquiet
  | _ => rfl

end Effect

/-! ## Media state -/

/-- The key of the session and the two counters of its audio. -/
structure MediaState where
  key : Option (ByteArr 32)
  audioSequence : UInt16
  nonce : UInt64
  deriving DecidableEq, Repr

/-- What a call leaves of the worker's counters, the effects it had, and whether it panicked. -/
structure Turn where
  sequence : UInt16
  media : MediaState
  effects : List Effect
  panicked : Bool
  deriving DecidableEq, Repr

section

variable (crates : CryptoCrates) (config : RelayConfig)

/-- `media_key`: only AES-GCM v2 has one. -/
def mediaKey : Option (ByteArr 32) :=
  if config.encryption ≠ .aesGcmV2 then none
  else
    (deriveAesGcmV2Key crates
      (derivePasswordKey crates (normalizePassword crates config.password) config.channelId)).toOption

/-- `MediaState::new`, with the value of `random()`. -/
def MediaState.new (random : UInt64) : MediaState where
  key := mediaKey crates config
  audioSequence := 0
  nonce := random

/-! ## Sending -/

/-- `send_packet`, where `sent` is the answer of `socket.send` should it be asked. -/
def sendPacket (origin : Origin) (packet : Packet) (sent : Except IoError Unit) : List Effect :=
  .handed origin packet ::
    match packet.encode with
    | .error error => [.event (.ioError error.toString)]
    | .ok bytes =>
      [.datagram bytes,
        match sent with
        | .ok () => .event (.sent packet.header.packetType)
        | .error error => .event (.ioError error.message)]

/-- The header of `send_control`: the sealed length in every mode but `None`, and no flags. -/
def controlHeader (sequence : UInt16) (packetType : PacketType) : PacketHeader where
  version := protocolVersion
  packetType := packetType
  headerLen :=
    if config.encryption = .none then fixedHeaderLen
    else UInt16.ofNat (fixedHeaderLen.toNat + securityHeaderLen)
  channelId := config.channelId
  senderId := config.senderId
  sequence := sequence
  flags := 0

/-- The packet `send_control` builds. -/
def controlPacket (sequence : UInt16) (packetType : PacketType) (payload : Bytes) : Packet :=
  if config.encryption = .none then .plain (controlHeader config sequence packetType) payload
  else .secured (controlHeader config sequence packetType) { nonce := 0, keyId := 0 } payload
    (ByteArr.replicate authTagLen 0)

/-- `send_control`: one packet, and the sequence goes on, wrapping. -/
def sendControl (sequence : UInt16) (media : MediaState) (packetType : PacketType) (payload : Bytes)
    (sent : Except IoError Unit) : Turn where
  sequence := sequence + 1
  media := media
  effects := sendPacket .control (controlPacket config sequence packetType payload) sent
  panicked := false

/-- The header of `send_pcm`. -/
def pcmHeader (sequence : UInt16) : PacketHeader where
  version := protocolVersion
  packetType := .audio
  headerLen := if config.encryption = .none then fixedHeaderLen else 28
  channelId := config.channelId
  senderId := config.senderId
  sequence := sequence
  flags := if config.encryption = .aesGcmV2 then flagAesGcmV2 else 0

/-- `encrypted.len() - AUTH_TAG_LEN`, `split_off` and `expect("tag length")`. -/
def splitTag (encrypted : Bytes) : Outcome Empty (Bytes × ByteArr authTagLen) := do
  let tagStart ← checkedSub encrypted.length authTagLen
  let tag ← expectArr authTagLen (encrypted.drop tagStart)
  return (encrypted.take tagStart, tag)

/-- `send_pcm`. Behind the length check the counters go on before it is known whether a packet will be handed over. -/
def sendPcm (sequence : UInt16) (media : MediaState) (frame : Bytes) (sent : Except IoError Unit) :
    Turn :=
  if frame.length ≠ 320 then
    { sequence, media, effects := [.event (.ioError "invalid PCM frame length")], panicked := false }
  else
    let plaintext := be16 media.audioSequence ++ frame
    let media := { media with audioSequence := media.audioSequence + 1 }
    let header := pcmHeader config sequence
    let sequence := sequence + 1
    if config.encryption = .none then
      { sequence, media, effects := sendPacket .pcm (.plain header plaintext) sent, panicked := false }
    else
      match media.key with
      | some key =>
        let security : SecurityHeader := { nonce := media.nonce, keyId := aesGcmV2KeyId }
        let media := { media with nonce := media.nonce + 1 }
        let aad := header.encode ++ security.encode.val
        let call : Effect := .encrypt { key, nonce := security.nonce, plaintext, aad }
        match encryptAesGcmV2 crates key security.nonce plaintext aad with
        | .ok encrypted =>
          match splitTag encrypted with
          | .ok (payload, tag) =>
            { sequence, media
              effects := call :: sendPacket .pcm (.secured header security payload tag) sent
              panicked := false }
          | _ => { sequence, media, effects := [call], panicked := true }
        | .error _ =>
          { sequence, media
            effects := [call, .event (.ioError "PCM encryption failed")]
            panicked := false }
      | none =>
        { sequence, media
          effects := [.event (.ioError "AES-GCM v2 media key is unavailable")]
          panicked := false }

/-! ## Receiving -/

/-- The two-byte prefix cut off, behind the length check. -/
def pcmFrame (header : PacketHeader) (payload : Bytes) : Option (UInt32 × Bytes) :=
  if payload.length ≠ 322 then none else some (header.senderId, payload.drop 2)

/-- `decode_pcm`: the sender and the frame of an audio packet. A plain one needs no key. -/
def decodePcm (packet : Packet) (key : Option (ByteArr 32)) : Option (UInt32 × Bytes) :=
  match packet with
  | .plain header payload =>
      if header.packetType = .audio then pcmFrame header payload else none
  | .secured header security payload authTag =>
      if header.packetType = .audio ∧ header.flags &&& flagAesGcmV2 ≠ 0 then do
        let key ← key
        let encrypted := payload ++ authTag.val
        let aad ← packet.aad
        let plaintext ← (decryptAesGcmV2 crates key security.nonce encrypted aad).toOption
        pcmFrame header plaintext
      else none

/-- What the worker does with the bytes of one datagram, `buffer[..length]`. -/
def receive (sequence : UInt16) (media : MediaState) (bytes : Bytes) : Turn :=
  match Packet.decode bytes with
  | .ok packet =>
    match decodePcm crates packet media.key with
    | some (senderId, frame) =>
      { sequence, media, effects := [.event (.pcmReceived senderId frame)], panicked := false }
    | none => { sequence, media, effects := [.event (.received packet)], panicked := false }
  | .err error =>
    { sequence, media, effects := [.event (.receiveRejected error)], panicked := false }
  | .panicked => { sequence, media, effects := [], panicked := true }

/-! ## What one call can do -/

/-- `send_packet` has one packet handed to it, encrypts nothing, and offers one event, never received audio. -/
theorem sendPacket_effects (origin : Origin) (packet : Packet) (sent : Except IoError Unit) :
    ∃ rest, sendPacket origin packet sent = .handed origin packet :: rest ∧
      rest.filterMap Effect.handed? = [] ∧ rest.filterMap Effect.call? = [] ∧
      ∀ senderId frame, Effect.event (.pcmReceived senderId frame) ∉ rest := by
  refine ⟨_, rfl, ?_⟩
  split
  · exact ⟨rfl, rfl, by simp⟩
  · cases sent with
    | ok u => exact ⟨rfl, rfl, by simp⟩
    | error error => exact ⟨rfl, rfl, by simp⟩

theorem sendPacket_submits (origin : Origin) (packet : Packet) (sent : Except IoError Unit) :
    (sendPacket origin packet sent).filterMap Effect.submitted? = [] := by
  unfold sendPacket
  cases packet.encode with
  | error error => rfl
  | ok bytes => cases sent <;> rfl

@[simp] theorem sendPacket_handed (origin : Origin) (packet : Packet) (sent : Except IoError Unit) :
    (sendPacket origin packet sent).filterMap Effect.handed? = [(origin, packet)] := by
  obtain ⟨rest, h, hhanded, -⟩ := sendPacket_effects origin packet sent
  rw [h]
  show (origin, packet) :: rest.filterMap Effect.handed? = _
  rw [hhanded]

@[simp] theorem sendPacket_calls (origin : Origin) (packet : Packet) (sent : Except IoError Unit) :
    (sendPacket origin packet sent).filterMap Effect.call? = [] := by
  obtain ⟨rest, h, -, hcalls, -⟩ := sendPacket_effects origin packet sent
  rw [h]
  exact hcalls

theorem sendPacket_no_audio (origin : Origin) (packet : Packet) (sent : Except IoError Unit)
    (senderId : UInt32) (frame : Bytes) :
    Effect.event (.pcmReceived senderId frame) ∉ sendPacket origin packet sent := by
  obtain ⟨rest, h, -, -, hevents⟩ := sendPacket_effects origin packet sent
  rw [h]
  intro hmem
  rcases List.mem_cons.mp hmem with heq | hrest
  · cases heq
  · exact hevents senderId frame hrest

/-- What reaches the socket is the packet's encoding. -/
@[simp] theorem sendPacket_datagrams (origin : Origin) (packet : Packet) (sent : Except IoError Unit) :
    (sendPacket origin packet sent).filterMap Effect.datagram? = packet.encode.toOption.toList := by
  unfold sendPacket
  cases packet.encode with
  | error error => rfl
  | ok bytes => cases sent <;> rfl

/-- The plaintext `send_pcm` encrypts or sends: the audio sequence in front of the frame. -/
def pcmPlaintext (media : MediaState) (frame : Bytes) : Bytes := be16 media.audioSequence ++ frame

/-- The security header of `send_pcm`. -/
def pcmSecurity (media : MediaState) : SecurityHeader := { nonce := media.nonce, keyId := aesGcmV2KeyId }

/-- The cipher call of `send_pcm`. -/
def pcmCall (sequence : UInt16) (media : MediaState) (key : ByteArr 32) (frame : Bytes) : EncryptCall where
  key := key
  nonce := media.nonce
  plaintext := pcmPlaintext media frame
  aad := (pcmHeader config sequence).encode ++ (pcmSecurity media).encode.val

/-- The result of a recorded cipher call. -/
def EncryptCall.result (call : EncryptCall) : Except CryptoError Bytes :=
  encryptAesGcmV2 crates call.key call.nonce call.plaintext call.aad

theorem pcmPlaintext_length (media : MediaState) {frame : Bytes} (hlen : frame.length = 320) :
    (pcmPlaintext media frame).length = 322 := by
  rw [pcmPlaintext, List.length_append, be16_length, hlen]

/-- A frame is within the cipher's limits. -/
theorem pcmCall_within (sequence : UInt16) (media : MediaState) (key : ByteArr 32) {frame : Bytes}
    (hlen : frame.length = 320) :
    (pcmCall config sequence media key frame).plaintext.length ≤ gcmMax ∧
      (pcmCall config sequence media key frame).aad.length ≤ gcmMax := by
  constructor
  · show (pcmPlaintext media frame).length ≤ gcmMax
    rw [pcmPlaintext_length media hlen]
    decide
  · have hbound := (pcmHeader config sequence).fixedLen_bounds
    show ((pcmHeader config sequence).encode ++ (pcmSecurity media).encode.val).length ≤ gcmMax
    rw [List.length_append, PacketHeader.encode_length, (pcmSecurity media).encode.property, gcmMax,
      securityHeaderLen]
    omega

/-- **With a cipher that keeps its laws** the call of a frame succeeds, and what it made decrypts back. -/
theorem pcmCall_of_laws {crates : CryptoCrates} (haead : AeadLaws crates) (sequence : UInt16) (media : MediaState)
    (key : ByteArr 32) {frame : Bytes} (hlen : frame.length = 320) :
    ∃ c, (pcmCall config sequence media key frame).result crates = .ok c ∧ c.length = 322 + 16 ∧
      decryptAesGcmV2 crates key media.nonce c (pcmCall config sequence media key frame).aad =
        .ok (pcmPlaintext media frame) := by
  obtain ⟨hplain, haad⟩ := pcmCall_within config sequence media key hlen
  obtain ⟨c, henc, hclen, hdec⟩ := encryptAesGcmV2_spec haead key media.nonce _ _ hplain haad
  refine ⟨c, henc, ?_, hdec⟩
  rw [hclen, show (pcmCall config sequence media key frame).plaintext = pcmPlaintext media frame from rfl,
    pcmPlaintext_length media hlen]

/-- In AES-GCM v2 mode there is a media key. -/
theorem mediaKey_isSome {crates : CryptoCrates} (hhkdf : HkdfExpands crates) {config : RelayConfig}
    (hmode : config.encryption = .aesGcmV2) : ∃ key, mediaKey crates config = some key := by
  obtain ⟨key, hkey⟩ := deriveAesGcmV2Key_ok hhkdf
    (derivePasswordKey crates (normalizePassword crates config.password) config.channelId)
  refine ⟨key, ?_⟩
  rw [mediaKey, if_neg (not_not.mpr hmode), hkey]
  rfl

/-- The six ways `send_pcm` can go, with the counters each one leaves. -/
inductive SendsPcm (sequence : UInt16) (media : MediaState) (frame : Bytes) (sent : Except IoError Unit) :
    Turn → Prop where
  | wrongLength (hlen : frame.length ≠ 320) :
      SendsPcm sequence media frame sent
        ⟨sequence, media, [.event (.ioError "invalid PCM frame length")], false⟩
  | plain (hlen : frame.length = 320) (hmode : config.encryption = .none) :
      SendsPcm sequence media frame sent
        ⟨sequence + 1, { media with audioSequence := media.audioSequence + 1 },
          sendPacket .pcm (.plain (pcmHeader config sequence) (pcmPlaintext media frame)) sent, false⟩
  | sealed {key : ByteArr 32} {payload : Bytes} {tag : ByteArr authTagLen} (hlen : frame.length = 320)
      (hmode : config.encryption ≠ .none) (hkey : media.key = some key)
      (hcall : (pcmCall config sequence media key frame).result crates = .ok (payload ++ tag.val)) :
      SendsPcm sequence media frame sent
        ⟨sequence + 1, { media with audioSequence := media.audioSequence + 1, nonce := media.nonce + 1 },
          .encrypt (pcmCall config sequence media key frame) ::
            sendPacket .pcm (.secured (pcmHeader config sequence) (pcmSecurity media) payload tag) sent,
          false⟩
  | shortCiphertext {key : ByteArr 32} {encrypted : Bytes} (hlen : frame.length = 320)
      (hmode : config.encryption ≠ .none) (hkey : media.key = some key)
      (hcall : (pcmCall config sequence media key frame).result crates = .ok encrypted)
      (hshort : encrypted.length < authTagLen) :
      SendsPcm sequence media frame sent
        ⟨sequence + 1, { media with audioSequence := media.audioSequence + 1, nonce := media.nonce + 1 },
          [.encrypt (pcmCall config sequence media key frame)], true⟩
  | encryptionFailed {key : ByteArr 32} {error : CryptoError} (hlen : frame.length = 320)
      (hmode : config.encryption ≠ .none) (hkey : media.key = some key)
      (hcall : (pcmCall config sequence media key frame).result crates = .error error) :
      SendsPcm sequence media frame sent
        ⟨sequence + 1, { media with audioSequence := media.audioSequence + 1, nonce := media.nonce + 1 },
          [.encrypt (pcmCall config sequence media key frame), .event (.ioError "PCM encryption failed")],
          false⟩
  | noKey (hlen : frame.length = 320) (hmode : config.encryption ≠ .none) (hkey : media.key = none) :
      SendsPcm sequence media frame sent
        ⟨sequence + 1, { media with audioSequence := media.audioSequence + 1 },
          [.event (.ioError "AES-GCM v2 media key is unavailable")], false⟩

/-- The media key stays. -/
theorem SendsPcm.media_key {sequence : UInt16} {media : MediaState} {frame : Bytes} {sent : Except IoError Unit}
    {turn : Turn} (h : SendsPcm crates config sequence media frame sent turn) : turn.media.key = media.key := by
  cases h <;> rfl

/-- A ciphertext of at least 16 bytes splits into its front and its last 16 bytes. -/
theorem splitTag_of_le {encrypted : Bytes} (h : authTagLen ≤ encrypted.length) :
    ∃ payload tag, splitTag encrypted = .ok (payload, tag) ∧ payload ++ tag.val = encrypted := by
  have htag : (encrypted.drop (encrypted.length - authTagLen)).length = authTagLen := by
    rw [List.length_drop]
    omega
  refine ⟨encrypted.take (encrypted.length - authTagLen), ⟨_, htag⟩, ?_, List.take_append_drop _ _⟩
  rw [splitTag, checkedSub_of_le h, ok_bind, expectArr_of_length htag, ok_bind]
  rfl

/-- A shorter one panics. -/
theorem splitTag_of_lt {encrypted : Bytes} (h : encrypted.length < authTagLen) :
    splitTag encrypted = .panicked := by
  rw [splitTag, checkedSub, if_neg (Nat.not_le.mpr h)]
  rfl

/-- **What `send_pcm` can do.** -/
theorem sendPcm_sends (sequence : UInt16) (media : MediaState) (frame : Bytes)
    (sent : Except IoError Unit) :
    SendsPcm crates config sequence media frame sent (sendPcm crates config sequence media frame sent) := by
  unfold sendPcm
  split
  · rename_i hlen
    exact .wrongLength hlen
  rename_i hlen
  have hlen : frame.length = 320 := not_not.mp hlen
  dsimp only
  split
  · rename_i hmode
    exact .plain hlen hmode
  rename_i hmode
  split
  · rename_i key hkey
    split
    · -- the cipher answered: too short for a tag, or split in two
      rename_i encrypted hcall
      rcases Nat.lt_or_ge encrypted.length authTagLen with hshort | hroom
      · rw [splitTag_of_lt hshort]
        exact .shortCiphertext hlen hmode hkey hcall hshort
      · obtain ⟨payload, tag, hsplit, hjoin⟩ := splitTag_of_le hroom
        rw [hsplit]
        exact .sealed hlen hmode hkey (hjoin ▸ hcall)
    · rename_i hcall
      exact .encryptionFailed hlen hmode hkey hcall
  · rename_i hkey
    exact .noKey hlen hmode hkey

end

end IncomUdon.Transport
