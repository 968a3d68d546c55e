/-
# IncomUdon.Transport.EndToEnd — a frame sent is the frame received.

Sender and receiver build header, associated data, nonce, tag and prefix in separate code. For two stations with
one mode (`None` or AES-GCM v2), one channel and one password, every 320-byte frame handed to `send_pcm` leaves
as one packet, and the datagram of that packet is delivered by `decode_pcm` as the frame, attributed to the
sender. §2 follows one frame, §3 a list of frames through the counters, which may wrap.
-/
import IncomUdon.Audio.Playback
import IncomUdon.Protocol.RoundTrip
import IncomUdon.Transport.Authenticity

namespace IncomUdon.Transport

open IncomUdon.Lib
open IncomUdon.Protocol
open IncomUdon.Crypto
open IncomUdon.Audio

/-! ## §1 — keys -/

/-- The media key depends on the mode, the normalized password and the channel only. -/
theorem mediaKey_congr {crates : CryptoCrates} {s r : RelayConfig} (hmode : s.encryption = r.encryption)
    (hchannel : s.channelId = r.channelId)
    (hpassword : normalizePassword crates s.password = normalizePassword crates r.password) :
    mediaKey crates s = mediaKey crates r := by
  rw [mediaKey, mediaKey, hmode, hchannel, hpassword]

/-! ## §2 — one frame -/

/-- The packet is encoded, fits the receive buffer, decodes to itself, and is delivered under `key` as `frame`
from `senderId`. -/
def Carries (crates : CryptoCrates) (key : Option (ByteArr 32)) (senderId : UInt32) (frame : Bytes)
    (packet : Packet) : Prop :=
  ∃ bytes, packet.encode = .ok bytes ∧ bytes.length ≤ receiveBufferLen ∧
    Packet.decode bytes = .ok packet ∧ decodePcm crates packet key = some (senderId, frame)

theorem pcmPlaintext_drop (media : MediaState) (frame : Bytes) :
    (pcmPlaintext media frame).drop 2 = frame :=
  List.drop_left' (be16_length _)

section OneFrame

variable {crates : CryptoCrates} {config : RelayConfig} {key : Option (ByteArr 32)} {sequence : UInt16}
  {media : MediaState} {frame : Bytes}

/-- In mode `None` the plain packet carries the frame, whatever the receiver's key. -/
theorem carries_plain (hlen : frame.length = 320) (hmode : config.encryption = .none) :
    Carries crates key config.senderId frame
      (.plain (pcmHeader config sequence) (pcmPlaintext media frame)) := by
  have hheader : (pcmHeader config sequence).headerLen = fixedHeaderLen := if_pos hmode
  have hencode : (Packet.plain (pcmHeader config sequence) (pcmPlaintext media frame)).encode =
      .ok ((pcmHeader config sequence).encode ++ pcmPlaintext media frame) := by
    rw [Packet.encode, if_neg (fun h => h.2 hheader)]
  refine ⟨_, hencode, ?_, ?_, ?_⟩
  · have hbound := (pcmHeader config sequence).fixedLen_bounds
    rw [List.length_append, PacketHeader.encode_length, pcmPlaintext_length media hlen, receiveBufferLen]
    omega
  · apply Packet.decode_own_encoding hencode rfl
    rw [Packet.header_plain, hheader]
    decide
  · rw [decodePcm, if_pos (show (pcmHeader config sequence).packetType = .audio from rfl)]
    exact pcmFrame_eq_some.mpr
      ⟨pcmPlaintext_length media hlen, rfl, (pcmPlaintext_drop media frame).symm⟩

/-- In mode AES-GCM v2 the sealed packet is read back from its datagram, and is opened with the header and security
header that were sealed. -/
theorem sealed_onWire (hmode : config.encryption = .aesGcmV2) (payload : Bytes) (tag : ByteArr authTagLen) :
    ∃ bytes, (Packet.secured (pcmHeader config sequence) (pcmSecurity media) payload tag).encode = .ok bytes ∧
      bytes.length = 28 + (payload ++ tag.val).length ∧
      Packet.decode bytes = .ok (.secured (pcmHeader config sequence) (pcmSecurity media) payload tag) ∧
      sealedInput (.secured (pcmHeader config sequence) (pcmSecurity media) payload tag) = some (media.nonce,
        (pcmHeader config sequence).encode ++ (pcmSecurity media).encode.val, payload ++ tag.val) := by
  have hheader : (pcmHeader config sequence).headerLen = securedHeaderLen :=
    if_neg (by rw [hmode]; decide)
  have hflags : (pcmHeader config sequence).flags &&& flagAesGcmV2 ≠ 0 := by
    rw [show (pcmHeader config sequence).flags = flagAesGcmV2 from if_pos hmode]
    decide
  have hfixed : (pcmHeader config sequence).encode.length = 16 := by
    rw [PacketHeader.encode_length, PacketHeader.fixedLen_of_ne (by rw [hheader]; decide)]
  have hencode : (Packet.secured (pcmHeader config sequence) (pcmSecurity media) payload tag).encode =
      .ok ((pcmHeader config sequence).encode ++ (pcmSecurity media).encode.val ++ payload ++ tag.val) := by
    rw [Packet.encode, if_neg (not_not.mpr hheader)]
  refine ⟨_, hencode, ?_, ?_, if_pos ⟨rfl, hflags⟩⟩
  · rw [List.append_assoc, List.length_append, List.length_append, hfixed, (pcmSecurity media).encode.property]
    rfl
  · apply Packet.decode_own_encoding hencode rfl
    rw [Packet.header_secured, hheader]
    decide

/-- In mode AES-GCM v2 the sealed packet carries the frame to a receiver with the same key. -/
theorem carries_sealed (haead : AeadLaws crates) {k : ByteArr 32} {payload : Bytes}
    {tag : ByteArr authTagLen} (hlen : frame.length = 320) (hmode : config.encryption = .aesGcmV2)
    (hcall : (pcmCall config sequence media k frame).result crates = .ok (payload ++ tag.val)) :
    Carries crates (some k) config.senderId frame
      (.secured (pcmHeader config sequence) (pcmSecurity media) payload tag) := by
  -- what the cipher made of the plaintext, and what it makes of that
  obtain ⟨c, henc, hclen, hdec⟩ := pcmCall_of_laws config haead sequence media k hlen
  obtain rfl : c = payload ++ tag.val := by
    rw [hcall, Except.ok.injEq] at henc
    exact henc.symm
  obtain ⟨bytes, hencode, hbytes, hdecode, hinput⟩ := sealed_onWire hmode payload tag
  refine ⟨bytes, hencode, ?_, hdecode, ?_⟩
  · rw [hbytes, hclen]
    decide
  · have hopens : decryptAesGcmV2 crates k media.nonce (payload ++ tag.val)
        ((pcmHeader config sequence).encode ++ (pcmSecurity media).encode.val) =
        .ok (pcmPlaintext media frame) := hdec
    rw [decodePcm_sealed hinput, hopens]
    exact pcmFrame_eq_some.mpr
      ⟨pcmPlaintext_length media hlen, rfl, (pcmPlaintext_drop media frame).symm⟩

variable (sequence) in
/-- **One frame.** `send_pcm` hands over exactly one packet, which carries the frame to a receiver with the
sender's media key; it neither panics nor changes the key. -/
theorem sendPcm_carries (haead : AeadLaws crates) (hhkdf : HkdfExpands crates)
    (hmode : config.encryption = .none ∨ config.encryption = .aesGcmV2)
    (hkey : media.key = mediaKey crates config) (hlen : frame.length = 320)
    (sent : Except IoError Unit) :
    let turn := sendPcm crates config sequence media frame sent
    turn.panicked = false ∧ turn.media.key = media.key ∧
      ∃ packet, turn.effects.filterMap Effect.handed? = [(.pcm, packet)] ∧
        turn.effects.filterMap Effect.datagram? = packet.encode.toOption.toList ∧
        Carries crates (mediaKey crates config) config.senderId frame packet := by
  intro turn
  -- AES-GCM v1 is excluded, so any mode but `None` has a key
  have hsealing : config.encryption ≠ .none → config.encryption = .aesGcmV2 := hmode.resolve_left
  have hsends : SendsPcm crates config sequence media frame sent turn :=
    sendPcm_sends crates config sequence media frame sent
  clear_value turn
  cases hsends with
  | wrongLength hbad => exact absurd hlen hbad
  | plain _ hnone =>
    refine ⟨rfl, rfl, _, sendPacket_handed _ _ _, sendPacket_datagrams _ _ _, carries_plain hlen hnone⟩
  | @«sealed» k payload tag _ hne hk hcall =>
    refine ⟨rfl, rfl, .secured (pcmHeader config sequence) (pcmSecurity media) payload tag, ?_, ?_, ?_⟩
    · exact sendPacket_handed .pcm _ sent
    · exact sendPacket_datagrams .pcm _ sent
    · rw [← hkey, hk]
      exact carries_sealed haead hlen (hsealing hne) hcall
  | @shortCiphertext k encrypted _ _ _ hcall hshort =>
    obtain ⟨c, hc, hclen, -⟩ := pcmCall_of_laws config haead sequence media k hlen
    rw [hcall, Except.ok.injEq] at hc
    rw [hc, hclen, authTagLen] at hshort
    omega
  | @encryptionFailed k error _ _ _ hcall =>
    obtain ⟨c, hc, -⟩ := pcmCall_of_laws config haead sequence media k hlen
    rw [hcall] at hc
    cases hc
  | noKey _ hne hnone =>
    obtain ⟨k, hk⟩ := mediaKey_isSome hhkdf (hsealing hne)
    rw [hkey, hk] at hnone
    cases hnone

end OneFrame

/-! ## §3 — a list of frames -/

/-- `send_pcm` on each frame in turn, with the answer of `socket.send` for each. -/
def sendPcmAll (crates : CryptoCrates) (config : RelayConfig) (sequence : UInt16) (media : MediaState) :
    List (Bytes × Except IoError Unit) → Turn
  | [] => ⟨sequence, media, [], false⟩
  | (frame, sent) :: rest =>
    let turn := sendPcm crates config sequence media frame sent
    if turn.panicked then turn
    else
      let later := sendPcmAll crates config turn.sequence turn.media rest
      { later with effects := turn.effects ++ later.effects }

theorem sendPcmAll_carries {crates : CryptoCrates} {config : RelayConfig} (haead : AeadLaws crates)
    (hhkdf : HkdfExpands crates) (hmode : config.encryption = .none ∨ config.encryption = .aesGcmV2)
    (frames : List (Bytes × Except IoError Unit)) :
    ∀ (sequence : UInt16) (media : MediaState), media.key = mediaKey crates config →
      (∀ frame ∈ frames, frame.1.length = 320) →
      (sendPcmAll crates config sequence media frames).panicked = false ∧ ∃ packets : List Packet,
        (sendPcmAll crates config sequence media frames).effects.filterMap Effect.handed? =
          packets.map (fun packet => (.pcm, packet)) ∧
        (sendPcmAll crates config sequence media frames).effects.filterMap Effect.datagram? =
          packets.flatMap (fun packet => packet.encode.toOption.toList) ∧
        List.Forall₂ (fun frame packet =>
          Carries crates (mediaKey crates config) config.senderId frame.1 packet) frames packets := by
  induction frames with
  | nil => exact fun _ _ _ _ => ⟨rfl, [], rfl, rfl, List.Forall₂.nil⟩
  | cons head rest ih =>
    intro sequence media hkey hlen
    obtain ⟨frame, sent⟩ := head
    obtain ⟨hok, hkept, packet, hhanded, hdatagram, hcarries⟩ :=
      sendPcm_carries sequence haead hhkdf hmode hkey (hlen _ List.mem_cons_self) sent
    obtain ⟨hrest, packets, hpackets, hdatagrams, hall⟩ :=
      ih (sendPcm crates config sequence media frame sent).sequence
        (sendPcm crates config sequence media frame sent).media (hkept.trans hkey)
        fun f hf => hlen f (List.mem_cons_of_mem _ hf)
    -- the first frame does not panic, so the rest is sent from the counters it leaves
    have hsplit : sendPcmAll crates config sequence media ((frame, sent) :: rest) =
        { sendPcmAll crates config (sendPcm crates config sequence media frame sent).sequence
            (sendPcm crates config sequence media frame sent).media rest with
          effects := (sendPcm crates config sequence media frame sent).effects ++
            (sendPcmAll crates config (sendPcm crates config sequence media frame sent).sequence
              (sendPcm crates config sequence media frame sent).media rest).effects } := by
      rw [sendPcmAll, if_neg (by rw [hok]; decide)]
    rw [hsplit]
    refine ⟨hrest, packet :: packets, ?_, ?_, List.Forall₂.cons hcarries hall⟩
    · rw [List.filterMap_append, hhanded, hpackets]
      rfl
    · rw [List.filterMap_append, hdatagram, hdatagrams, List.flatMap_cons]

/-- **End to end.** Between two stations with one mode, channel and normalized password, from any counters:
`send_pcm` on a list of 320-byte frames hands over one packet a frame, the datagrams sent are their encodings,
and each datagram decodes to a packet which the receiver's `decode_pcm` turns into the frame, from the sender.
Pushing any of the frames into any playback buffer is accepted and appends its 160 samples; `encode_pcm_frame` makes
a frame of any 160 samples, and these are the samples of that frame. -/
theorem pcm_end_to_end {crates : CryptoCrates} (haead : AeadLaws crates) (hhkdf : HkdfExpands crates)
    {s r : RelayConfig} (hmode : s.encryption = .none ∨ s.encryption = .aesGcmV2)
    (hsame : s.encryption = r.encryption) (hchannel : s.channelId = r.channelId)
    (hpassword : normalizePassword crates s.password = normalizePassword crates r.password)
    (sequence audioSequence : UInt16) (nonce : UInt64) (frames : List (Bytes × Except IoError Unit))
    (hlen : ∀ frame ∈ frames, frame.1.length = 320) :
    let turn := sendPcmAll crates s sequence ⟨mediaKey crates s, audioSequence, nonce⟩ frames
    (turn.panicked = false ∧ ∃ packets : List Packet,
      turn.effects.filterMap Effect.handed? = packets.map (fun packet => (.pcm, packet)) ∧
      packets.length = frames.length ∧
      turn.effects.filterMap Effect.datagram? =
        packets.flatMap (fun packet => packet.encode.toOption.toList) ∧
      List.Forall₂ (fun frame packet => Carries crates (mediaKey crates r) s.senderId frame.1 packet)
        frames packets) ∧
    (∀ frame ∈ frames, ∀ buffer : PlaybackBuffer,
      (buffer.pushPcmFrame frame.1).1 = true ∧
      (buffer.pushPcmFrame frame.1).2.samples =
        buffer.samples.drop (buffer.overflow pcmFrameSamples) ++ frameSamples frame.1) ∧
    (∀ samples : List Int16, samples.length = 160 → ∃ frame, encodePcmFrame samples = .ok frame) ∧
    (∀ samples frame, encodePcmFrame samples = .ok frame →
      frame.length = 320 ∧ frameSamples frame = samples) := by
  intro turn
  refine ⟨?_, ?_, fun samples h => ⟨_, encodePcmFrame_of_length h⟩, ?_⟩
  · obtain ⟨hok, packets, hhanded, hdatagrams, hall⟩ := sendPcmAll_carries haead hhkdf hmode frames sequence
      ⟨mediaKey crates s, audioSequence, nonce⟩ rfl hlen
    rw [mediaKey_congr hsame hchannel hpassword] at hall
    exact ⟨hok, packets, hhanded, hall.length_eq.symm, hdatagrams, hall⟩
  · intro frame hframe buffer
    exact buffer.pushPcmFrame_of_length (hlen frame hframe)
  · intro samples frame hencode
    exact frameSamples_encodePcmFrame hencode

/-- Two members of channel 111, the second with the first one's password in stray spaces. -/
def member (senderId : UInt32) (password : String) : RelayConfig :=
  { RelayConfig.new (.v4 (ByteArr.replicate 4 127) 50000) 111 senderId .aesGcmV2 with
    password := password.toList }

/-- Three frames from a counter that wraps behind the first, the second one not sent. -/
def wrappingFrames : List (Bytes × Except IoError Unit) :=
  [(List.replicate 320 0x5a, .ok ()), (List.replicate 320 0xa5, .error ⟨.other, "no buffer space"⟩),
    (List.replicate 320 0x01, .ok ())]

/-- The frames between the two members, with every counter about to wrap: three packets, the third one with number 1. -/
theorem pcm_end_to_end_members :
    let turn := sendPcmAll tagCrates (member 1002 "") 65535
      ⟨mediaKey tagCrates (member 1002 ""), 65535, 18446744073709551615⟩ wrappingFrames
    turn.panicked = false ∧ ∃ packets : List Packet,
      turn.effects.filterMap Effect.handed? = packets.map (fun packet => (.pcm, packet)) ∧
      packets.map (fun packet => packet.header.sequence) = [65535, 0, 1] ∧
      List.Forall₂ (fun frame packet => Carries tagCrates (mediaKey tagCrates (member 7 " ")) 1002 frame.1 packet)
        wrappingFrames packets := by
  intro turn
  have hlen : ∀ frame ∈ wrappingFrames, frame.1.length = 320 := by
    simp only [wrappingFrames, List.forall_mem_cons, List.length_replicate, true_and]
    exact fun _ hmem => (nomatch hmem)
  obtain ⟨⟨hok, packets, hhanded, -, -, hall⟩, -⟩ := @pcm_end_to_end tagCrates tagCrates_aead tagCrates_hkdf
    (member 1002 "") (member 7 " ") (Or.inr rfl) rfl rfl (by decide) 65535 65535 18446744073709551615
    wrappingFrames hlen
  refine ⟨hok, packets, hhanded, ?_, hall⟩
  have hnumbers : (turn.effects.filterMap Effect.handed?).map (fun handed => handed.2.header.sequence) =
      [65535, 0, 1] := by
    decide +kernel
  rw [hhanded, List.map_map] at hnumbers
  exact hnumbers

end IncomUdon.Transport
