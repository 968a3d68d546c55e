/-
# IncomUdon.Transport.Control — which control packets arrive as they were sent.

`send_control` puts any payload into one datagram, and `run_worker` reads a datagram into 2048 bytes; the rest of a
longer one is gone, and the format carries no length that would show it. So a control packet arrives as it was
built exactly when its encoding fits the receive buffer, and a longer one is reported as another packet. Nothing
else is in the way: no control packet is rejected, and none is taken for audio.
-/
import IncomUdon.Protocol.RoundTrip
import IncomUdon.Transport.Worker

namespace IncomUdon.Transport

open IncomUdon.Lib
open IncomUdon.Protocol
open IncomUdon.Crypto

/-! ## §1 — what is sent -/

section

variable (config : RelayConfig) (sequence : UInt16) (packetType : PacketType) (payload : Bytes)

/-- The bytes of the headers and the tag around a control payload. -/
def controlOverhead : Nat := if config.encryption = .none then 16 else 44

theorem controlPacket_header :
    (controlPacket config sequence packetType payload).header = controlHeader config sequence packetType := by
  unfold controlPacket
  split <;> rfl

/-- A control packet has a 16- or a 28-byte header. -/
theorem controlPacket_layout :
    (controlPacket config sequence packetType payload).header.headerLen ≠ legacyHeaderLen := by
  rw [controlPacket_header, controlHeader]
  show (if config.encryption = .none then fixedHeaderLen else _) ≠ legacyHeaderLen
  split <;> decide

/-- **A control packet always encodes**, its payload between 16 or 44 bytes of framing. -/
theorem controlPacket_encode : ∃ bytes, (controlPacket config sequence packetType payload).encode = .ok bytes ∧
    bytes.length = controlOverhead config + payload.length := by
  have hfixed : (controlHeader config sequence packetType).encode.length = 16 := by
    have hlayout := controlPacket_layout config sequence packetType payload
    rw [controlPacket_header] at hlayout
    rw [PacketHeader.encode_length, PacketHeader.fixedLen_of_ne hlayout]
  by_cases hmode : config.encryption = .none
  · have hheader : (controlHeader config sequence packetType).headerLen = fixedHeaderLen := if_pos hmode
    refine ⟨(controlHeader config sequence packetType).encode ++ payload, ?_, ?_⟩
    · rw [controlPacket, if_pos hmode, Packet.encode, if_neg (fun h => h.2 hheader)]
    · rw [List.length_append, hfixed, controlOverhead, if_pos hmode]
  · have hheader : (controlHeader config sequence packetType).headerLen = securedHeaderLen := if_neg hmode
    refine ⟨(controlHeader config sequence packetType).encode ++ (SecurityHeader.encode ⟨0, 0⟩).val ++ payload ++
      (ByteArr.replicate authTagLen 0).val, ?_, ?_⟩
    · rw [controlPacket, if_neg hmode, Packet.encode, if_neg (not_not.mpr hheader)]
    · rw [controlOverhead, if_neg hmode]
      simp only [List.length_append, hfixed, (SecurityHeader.encode _).property, (ByteArr.replicate _ _).property,
        securityHeaderLen, authTagLen]
      omega

end

/-! ## §2 — what is received -/

/-- Only audio packets are opened. -/
theorem decodePcm_of_not_audio (crates : CryptoCrates) {p : Packet} (h : p.header.packetType ≠ .audio)
    (key : Option (ByteArr 32)) : decodePcm crates p key = none := by
  cases p with
  | plain header payload =>
    rw [Packet.header_plain] at h
    rw [decodePcm, if_neg h]
  | secured header security payload authTag =>
    rw [Packet.header_secured] at h
    rw [decodePcm, if_neg (fun hsealed => h hsealed.1)]

/-- A datagram of a packet that is no audio is reported as that packet. -/
theorem receive_of_not_audio {b : Bytes} {p : Packet} (hd : Packet.decode b = .ok p)
    (h : p.header.packetType ≠ .audio) (crates : CryptoCrates) (sequence : UInt16) (media : MediaState) :
    (receive crates sequence media b).effects = [.event (.received p)] := by
  simp only [receive, hd, decodePcm_of_not_audio crates h]

/-! ## §3 — intact or not at all -/

section

variable (crates : CryptoCrates) (config : RelayConfig) (packetType : PacketType) (payload : Bytes)
  (sequence : UInt16)

/-- Wherever the datagram of the control packet is read by a worker, what is reported is the packet itself, or a
rejection or I/O error. -/
def ArrivesIntactOrNot : Prop :=
  ∀ bytes, (controlPacket config sequence packetType payload).encode = .ok bytes →
    ∀ receiver localAddr random labels r past,
      run (step crates receiver) (Session.start crates receiver localAddr random) labels = some (r, past) →
      r.worker = .recv → ∀ (env : Env) r' effects, env.received = .ok bytes →
        step crates receiver r (.worker env) = some (r', effects) →
        effects = [.event (.received (controlPacket config sequence packetType payload))] ∨
          (∃ error, effects = [.event (.receiveRejected error)]) ∨ ∃ message, effects = [.event (.ioError message)]

/-- A station that has joined waits for a datagram. -/
theorem station_waits : ∃ r past, run (step crates (station .none))
    (Session.start crates (station .none) stationAddr 0) (List.replicate 7 tick) = some (r, past) ∧
    r.worker = .recv := ⟨_, _, rfl, rfl⟩

variable {config packetType payload sequence}

/-- A packet that fits is read back as it was built. -/
theorem arrivesIntact_of_fits (haudio : packetType ≠ .audio)
    (hfits : controlOverhead config + payload.length ≤ receiveBufferLen) :
    ArrivesIntactOrNot crates config packetType payload sequence := by
  intro bytes hencode receiver localAddr random labels r past _ hpc env r' effects hdatagram hstep
  obtain ⟨bytes', hencode', hlen⟩ := controlPacket_encode config sequence packetType payload
  obtain rfl := Except.ok.inj (hencode'.symm.trans hencode)
  have hheader := controlPacket_header config sequence packetType payload
  have hversion : (controlPacket config sequence packetType payload).header.version = protocolVersion := by
    rw [hheader]
    rfl
  have hdecode := Packet.decode_own_encoding hencode hversion (controlPacket_layout _ _ _ _)
  have hread := workerStep_recv crates receiver hdatagram hpc
  rw [List.take_of_length_le (by omega)] at hread
  rw [show step crates receiver r (.worker env) = _ from hread] at hstep
  obtain ⟨-, rfl⟩ := Prod.mk.inj (Option.some.inj hstep)
  refine Or.inl ?_
  apply receive_of_not_audio hdecode
  rw [hheader]
  exact haudio

/-- A packet that does not fit is reported as another one, by a worker that has just joined. -/
theorem not_arrivesIntact_of_long (haudio : packetType ≠ .audio)
    (hlong : receiveBufferLen < controlOverhead config + payload.length) :
    ¬ ArrivesIntactOrNot crates config packetType payload sequence := by
  intro hintact
  obtain ⟨bytes, hencode, hlen⟩ := controlPacket_encode config sequence packetType payload
  have hheader := controlPacket_header config sequence packetType payload
  have hversion : (controlPacket config sequence packetType payload).header.version = protocolVersion := by
    rw [hheader]
    rfl
  obtain ⟨q, hq, hqheader, hne⟩ := Packet.decode_cut hencode hversion (controlPacket_layout _ _ _ _)
    (show 44 ≤ receiveBufferLen by decide) (by omega)
  have hqaudio : q.header.packetType ≠ .audio := by
    rw [hqheader, hheader]
    exact haudio
  -- the receiver reports the packet that the cut datagram spells
  obtain ⟨r, past, hrun, hpc⟩ := station_waits crates
  have hstep := workerStep_recv crates (station .none) (show (⟨.ok (), 0, .ok bytes⟩ : Env).received = _ from rfl) hpc
  have heffects := receive_of_not_audio hq hqaudio crates r.sequence r.media
  rcases hintact bytes hencode _ _ _ _ r past hrun hpc _ _ _ rfl hstep with h | ⟨_, h⟩ | ⟨_, h⟩
  · rw [heffects] at h
    simp only [List.cons.injEq, Effect.event.injEq, RelayEvent.received.injEq, and_true] at h
    exact hne h
  · rw [heffects] at h
    simp at h
  · rw [heffects] at h
    simp at h

variable (config packetType payload sequence)

/-- **Control packets arrive intact exactly when they fit the receive buffer**: with 2032 bytes of payload at most
without a security header, and 2004 with one. A longer one that arrives is reported as another packet. Every datagram
is taken to arrive here, also one longer than a UDP socket carries, which `socket.send` refuses. -/
theorem control_arrives_intact_iff (haudio : packetType ≠ .audio) :
    ArrivesIntactOrNot crates config packetType payload sequence ↔
      payload.length ≤ if config.encryption = .none then 2032 else 2004 := by
  have hfits : (payload.length ≤ if config.encryption = .none then 2032 else 2004) ↔
      controlOverhead config + payload.length ≤ receiveBufferLen := by
    rw [controlOverhead, receiveBufferLen]
    split <;> omega
  rw [hfits]
  constructor
  · intro hintact
    by_contra hlong
    exact not_arrivesIntact_of_long crates haudio (Nat.lt_of_not_le hlong) hintact
  · exact arrivesIntact_of_fits crates haudio

end

/-- A talk release between encrypting stations arrives. -/
theorem control_arrives_intact_pttOff : ArrivesIntactOrNot tagCrates (station .aesGcmV2) .pttOff [] 2 :=
  (control_arrives_intact_iff tagCrates (station .aesGcmV2) .pttOff [] 2 (by decide)).mpr (by decide)

/-- **One byte too many.** A control packet with 2033 bytes of payload is not read back. -/
theorem oversized_control :
    ¬ ArrivesIntactOrNot tagCrates (station .none) .codecConfig (List.replicate 2033 0x5a) 1 := by
  apply not_arrivesIntact_of_long tagCrates (by decide)
  rw [List.length_replicate]
  decide

end IncomUdon.Transport
