/-
# IncomUdon.Transport.Sequence — when the session's packets form one gapless stream.

Every packet the worker builds takes the next number of `sequence`, and every audio packet the next of
`audio_sequence`. `send_pcm` advances both before it knows whether there will be a packet: without a media key,
or when the cipher fails, the numbers are gone. `Deliverable` is the condition that a step takes none of these
returns; §2 shows that the stream is gapless in a run exactly when every step meets it.
-/
import IncomUdon.Protocol.Grammar
import IncomUdon.Transport.Worker

namespace IncomUdon.Transport

open IncomUdon.Lib
open IncomUdon.Protocol
open IncomUdon.Crypto

/-! ## The two streams -/

namespace Effect

/-- A packet the worker built itself. -/
def own? : Effect → Option Packet
  | .handed .client _ => none
  | .handed _ packet => some packet
  | _ => none

/-- A packet built by `send_pcm`. -/
def audio? : Effect → Option Packet
  | .handed .pcm packet => some packet
  | _ => none

end Effect

/-- The audio packet `p` was made of a plaintext that starts with `audioSequence`: it carries it in the clear, or
its payload and tag are what the cipher made of it under the session's key. -/
def CarriesAudioSequence (crates : CryptoCrates) (key : Option (ByteArr 32)) (audioSequence : UInt16) :
    Packet → Prop
  | .plain _ payload => ∃ frame, payload = be16 audioSequence ++ frame
  | .secured header security payload authTag => ∃ k frame, key = some k ∧
      encryptAesGcmV2 crates k security.nonce (be16 audioSequence ++ frame)
        (header.encode ++ security.encode.val) = .ok (payload ++ authTag.val)

/-- A step that processes a PCM frame and hands over no packet leaves both counters as they were. -/
def SilentKeepsCounters (crates : CryptoCrates) (config : RelayConfig) (s : Session) (label : Label) : Prop :=
  ∀ env frame s' effects, label = .worker env → Processes s (.sendPcm frame) →
    step crates config s label = some (s', effects) → effects.filterMap Effect.handed? = [] →
    s'.sequence = s.sequence ∧ s'.media.audioSequence = s.media.audioSequence

/-- The packets the worker builds carry the sequence numbers 0, 1, 2, … modulo `2^16`, the audio packets among
them the inner audio sequences 0, 1, 2, …, and frames that yield no packet take no number. -/
structure GaplessStream (crates : CryptoCrates) (config : RelayConfig) (start : Session)
    (labels : List Label) (effects : List Effect) : Prop where
  own : Numbered (fun i p => p.header.sequence = UInt16.ofNat i) (effects.filterMap Effect.own?)
  audio : Numbered (fun i p => CarriesAudioSequence crates (mediaKey crates config) (UInt16.ofNat i) p)
    (effects.filterMap Effect.audio?)
  silent : Along (step crates config) (SilentKeepsCounters crates config) start labels

/-- A 320-byte frame the step processes gets a packet: the mode is `None`, or there is a key and the cipher
returns a ciphertext with its tag. -/
def Deliverable (crates : CryptoCrates) (config : RelayConfig) (s : Session) (label : Label) : Prop :=
  ∀ env frame, label = .worker env → Processes s (.sendPcm frame) → frame.length = 320 →
    config.encryption = .none ∨ ∃ key encrypted, s.media.key = some key ∧
      (pcmCall config s.sequence s.media key frame).result crates = .ok encrypted ∧
      authTagLen ≤ encrypted.length

/-! ## §1 — one step -/

section Step

variable {crates : CryptoCrates} {config : RelayConfig} {s s' : Session} {label : Label}
  {effects : List Effect}

theorem UInt16.succ_ne (x : UInt16) : x + 1 ≠ x := by
  intro h
  have htoNat := congrArg UInt16.toNat h
  have hlt := x.toNat_lt
  rw [UInt16.toNat_add] at htoNat
  simp only [UInt16.reduceToNat] at htoNat
  omega

/-- A frame that is processed without `Deliverable` takes a number and hands over nothing. -/
theorem sendPcm_skips {sequence : UInt16} {media : MediaState} {frame : Bytes} {sent : Except IoError Unit}
    {turn : Turn} (hturn : SendsPcm crates config sequence media frame sent turn) (hlen : frame.length = 320)
    (hnot : ¬ (config.encryption = .none ∨ ∃ key encrypted, media.key = some key ∧
      (pcmCall config sequence media key frame).result crates = .ok encrypted ∧
      authTagLen ≤ encrypted.length)) :
    turn.sequence = sequence + 1 ∧ turn.effects.filterMap Effect.handed? = [] := by
  cases hturn with
  | wrongLength hbad => exact absurd hlen hbad
  | plain _ hmode => exact absurd (Or.inl hmode) hnot
  | @«sealed» key payload tag _ _ hkey hcall =>
    refine absurd (Or.inr ⟨key, _, hkey, hcall, ?_⟩) hnot
    rw [List.length_append, tag.property]
    exact Nat.le_add_left _ _
  | shortCiphertext => exact ⟨rfl, rfl⟩
  | encryptionFailed => exact ⟨rfl, rfl⟩
  | noKey => exact ⟨rfl, rfl⟩

/-- **A step keeps the counters of silent frames exactly when it is deliverable.** -/
theorem silentKeepsCounters_iff (hstep : step crates config s label = some (s', effects)) :
    SilentKeepsCounters crates config s label ↔ Deliverable crates config s label := by
  constructor
  · intro hkeeps env frame hlabel hproc hlen
    -- a frame that is not deliverable takes a number without a packet
    by_contra hnot
    rw [hlabel] at hstep
    obtain ⟨hseq, -, heffects⟩ := step_processes_sendPcm hproc hstep
    obtain ⟨hskip, hnone⟩ := sendPcm_skips (sendPcm_sends crates config s.sequence s.media frame env.sent)
      hlen hnot
    obtain ⟨hsame, -⟩ := hkeeps env frame s' effects hlabel hproc (by rw [hlabel]; exact hstep)
      (by rw [heffects]; exact hnone)
    rw [hseq, hskip] at hsame
    exact UInt16.succ_ne _ hsame
  · intro hdeliverable env frame t out hlabel hproc ht hnone
    rw [hlabel] at ht
    obtain ⟨hseq, hmedia, heffects⟩ := step_processes_sendPcm hproc ht
    have hsends := sendPcm_sends crates config s.sequence s.media frame env.sent
    rw [heffects] at hnone
    rw [hseq, hmedia]
    generalize sendPcm crates config s.sequence s.media frame env.sent = turn at hsends hnone ⊢
    have hgood := hdeliverable env frame hlabel hproc
    -- a packet is handed over in the two good cases; the other three are excluded
    cases hsends with
    | wrongLength => exact ⟨rfl, rfl⟩
    | plain => cases hnone
    | «sealed» => cases hnone
    | shortCiphertext hlen hmode hkey hcall hshort =>
      obtain ⟨k, c, hk, hc, hroom⟩ := (hgood hlen).resolve_left hmode
      obtain rfl := Option.some.inj (hkey.symm.trans hk)
      obtain rfl := Except.ok.inj (hcall.symm.trans hc)
      exact absurd hshort (Nat.not_lt.mpr hroom)
    | encryptionFailed hlen hmode hkey hcall =>
      obtain ⟨k, c, hk, hc, -⟩ := (hgood hlen).resolve_left hmode
      obtain rfl := Option.some.inj (hkey.symm.trans hk)
      rw [hcall] at hc
      cases hc
    | noKey hlen hmode hkey =>
      obtain ⟨k, c, hk, -⟩ := (hgood hlen).resolve_left hmode
      rw [hkey] at hk
      cases hk

/-- The worker's own packets are those handed over by another call than a client's. -/
theorem own_of_handed {effects : List Effect} {handed : List (Origin × Packet)}
    (h : effects.filterMap Effect.handed? = handed) :
    effects.filterMap Effect.own? = (handed.filter fun x => x.1 ≠ .client).map Prod.snd := by
  subst h
  induction effects with
  | nil => rfl
  | cons e rest ih =>
    rw [List.filterMap_cons, List.filterMap_cons]
    cases e with
    | handed origin packet => cases origin <;> simpa [Effect.own?, Effect.handed?] using ih
    | _ => exact ih

theorem audio_of_handed {effects : List Effect} {handed : List (Origin × Packet)}
    (h : effects.filterMap Effect.handed? = handed) :
    effects.filterMap Effect.audio? = (handed.filter fun x => x.1 = .pcm).map Prod.snd := by
  subst h
  induction effects with
  | nil => rfl
  | cons e rest ih =>
    rw [List.filterMap_cons, List.filterMap_cons]
    cases e with
    | handed origin packet => cases origin <;> simpa [Effect.audio?, Effect.handed?] using ih
    | _ => exact ih

/-- What a deliverable step adds to the two streams: nothing, a control packet, or an audio packet, each with the
counters it takes. -/
inductive Adds (crates : CryptoCrates) (s s' : Session) (effects : List Effect) : Prop where
  | nothing (hown : effects.filterMap Effect.own? = []) (haudio : effects.filterMap Effect.audio? = [])
      (hseq : s'.sequence = s.sequence) (haseq : s'.media.audioSequence = s.media.audioSequence)
  | control {p : Packet} (hown : effects.filterMap Effect.own? = [p])
      (haudio : effects.filterMap Effect.audio? = []) (hp : p.header.sequence = s.sequence)
      (hseq : s'.sequence = s.sequence + 1) (haseq : s'.media.audioSequence = s.media.audioSequence)
  | audio {p : Packet} (hown : effects.filterMap Effect.own? = [p])
      (haudio : effects.filterMap Effect.audio? = [p]) (hp : p.header.sequence = s.sequence)
      (hcarries : CarriesAudioSequence crates s.media.key s.media.audioSequence p)
      (hseq : s'.sequence = s.sequence + 1) (haseq : s'.media.audioSequence = s.media.audioSequence + 1)

theorem controlPacket_sequence (config : RelayConfig) (sequence : UInt16) (packetType : PacketType)
    (payload : Bytes) : (controlPacket config sequence packetType payload).header.sequence = sequence := by
  unfold controlPacket
  split <;> rfl

theorem step_adds (hdeliverable : Deliverable crates config s label)
    (hstep : step crates config s label = some (s', effects)) : Adds crates s s' effects := by
  have hdoes := step_does hstep
  have hkeeps := (silentKeepsCounters_iff hstep).mpr hdeliverable
  generalize hseq : s'.sequence = sequence, hmedia : s'.media = media at hdoes
  have hnothing : effects.filterMap Effect.handed? = [] → s'.sequence = s.sequence →
      s'.media.audioSequence = s.media.audioSequence → Adds crates s s' effects := by
    intro hnone hs ha
    exact .nothing (own_of_handed hnone) (audio_of_handed hnone) hs ha
  cases hdoes with
  | calls hquiet | quiet hquiet => exact hnothing (Effect.quiet_views hquiet).1 hseq (by rw [hmedia])
  | receives => exact hnothing (Effect.silent_views (receive_silent _ _ _ _)).1 hseq (by rw [hmedia])
  | @forwards env packet =>
    have hhanded := sendPacket_handed .client packet env.sent
    exact .nothing (own_of_handed hhanded) (audio_of_handed hhanded) hseq (by rw [hmedia])
  | @controls env packetType payload taken htaken =>
    have hhanded : (taken ++ sendPacket .control (controlPacket config s.sequence packetType payload)
        env.sent).filterMap Effect.handed? =
        [(.control, controlPacket config s.sequence packetType payload)] := by
      rw [List.filterMap_append, sendPacket_handed]
      rcases htaken with rfl | rfl <;> rfl
    exact .control (own_of_handed hhanded) (audio_of_handed hhanded)
      (controlPacket_sequence config s.sequence packetType payload) hseq (by rw [hmedia])
  | @talks env frame turn hproc hturn =>
    have hsilent : turn.effects.filterMap Effect.handed? = [] →
        Adds crates s s' (.took (.sendPcm frame) :: turn.effects) := by
      intro hnone
      obtain ⟨hs, ha⟩ := hkeeps env frame s' _ rfl hproc hstep hnone
      exact hnothing hnone hs ha
    cases hturn with
    | wrongLength => exact hsilent rfl
    | plain hlen hmode =>
      have hhanded := sendPacket_handed .pcm
        (.plain (pcmHeader config s.sequence) (pcmPlaintext s.media frame)) env.sent
      exact .audio (own_of_handed hhanded) (audio_of_handed hhanded) rfl ⟨frame, rfl⟩ hseq (by rw [hmedia])
    | @«sealed» key payload tag hlen hmode hkey hcall =>
      have hhanded := sendPacket_handed .pcm
        (.secured (pcmHeader config s.sequence) (pcmSecurity s.media) payload tag) env.sent
      exact .audio (own_of_handed hhanded) (audio_of_handed hhanded) rfl ⟨key, frame, hkey, hcall⟩ hseq
        (by rw [hmedia])
    | shortCiphertext => exact hsilent rfl
    | encryptionFailed => exact hsilent rfl
    | noKey => exact hsilent rfl

end Step

/-! ## §2 — runs -/

section Run

variable {crates : CryptoCrates} {config : RelayConfig}

/-- So far each stream is numbered from zero, and the two counters are where the streams end. -/
structure StreamSoFar (crates : CryptoCrates) (config : RelayConfig) (s : Session) (_ : List Label)
    (effects : List Effect) : Prop where
  key : s.media.key = mediaKey crates config
  sequence : s.sequence = UInt16.ofNat (effects.filterMap Effect.own?).length
  audioSequence : s.media.audioSequence = UInt16.ofNat (effects.filterMap Effect.audio?).length
  own : Numbered (fun i p => p.header.sequence = UInt16.ofNat i) (effects.filterMap Effect.own?)
  audio : Numbered (fun i p => CarriesAudioSequence crates (mediaKey crates config) (UInt16.ofNat i) p)
    (effects.filterMap Effect.audio?)

theorem ofNat_succ (n : Nat) : UInt16.ofNat n + 1 = UInt16.ofNat (n + 1) := by
  rw [UInt16.ofNat_add]
  rfl

theorem StreamSoFar.step {s s' : Session} {labels : List Label} {seen effects : List Effect} {label : Label}
    (h : StreamSoFar crates config s labels seen) (hdeliverable : Deliverable crates config s label)
    (hstep : step crates config s label = some (s', effects)) :
    StreamSoFar crates config s' (labels ++ [label]) (seen ++ effects) := by
  have hkey : s'.media.key = mediaKey crates config := (step_does hstep).media_key.trans h.key
  cases step_adds hdeliverable hstep with
  | nothing hown haudio hseq haseq =>
    refine ⟨hkey, ?_, ?_, ?_, ?_⟩ <;> simp only [List.filterMap_append, hown, haudio, List.append_nil]
    · rw [hseq]
      exact h.sequence
    · rw [haseq]
      exact h.audioSequence
    · exact h.own
    · exact h.audio
  | control hown haudio hp hseq haseq =>
    refine ⟨hkey, ?_, ?_, ?_, ?_⟩ <;> simp only [List.filterMap_append, hown, haudio, List.append_nil,
      List.length_append, List.length_singleton]
    · rw [hseq, h.sequence, ofNat_succ]
    · rw [haseq]
      exact h.audioSequence
    · exact h.own.concat (by rw [hp, h.sequence])
    · exact h.audio
  | audio hown haudio hp hcarries hseq haseq =>
    refine ⟨hkey, ?_, ?_, ?_, ?_⟩ <;> simp only [List.filterMap_append, hown, haudio, List.length_append,
      List.length_singleton]
    · rw [hseq, h.sequence, ofNat_succ]
    · rw [haseq, h.audioSequence, ofNat_succ]
    · exact h.own.concat (by rw [hp, h.sequence])
    · rw [h.key, h.audioSequence] at hcarries
      exact h.audio.concat hcarries

/-- With crates that keep their documented laws, every step is deliverable in every mode but AES-GCM v1. -/
theorem deliverable_of_laws (haead : AeadLaws crates) (hhkdf : HkdfExpands crates)
    (hmode : config.encryption ≠ .aesGcmV1) {s : Session} (hkey : s.media.key = mediaKey crates config)
    (label : Label) : Deliverable crates config s label := by
  intro env frame _ _ hlen
  cases henc : config.encryption with
  | none => exact Or.inl rfl
  | aesGcmV1 => exact absurd henc hmode
  | aesGcmV2 =>
    obtain ⟨key, hmedia⟩ := mediaKey_isSome hhkdf henc
    obtain ⟨c, hc, hclen, -⟩ := pcmCall_of_laws config haead s.sequence s.media key hlen
    exact Or.inr ⟨key, c, hkey.trans hmedia, hc, by rw [hclen]; exact Nat.le_add_left _ _⟩

end Run

/-- **One gapless sequence stream.** In every run of a session, the stream is gapless exactly when every frame
of 320 bytes the worker processes is deliverable: the mode is `None`, or there is a media key and the cipher
succeeds. With crates that keep their laws this leaves out AES-GCM v1 only. -/
theorem gapless_iff_deliverable {crates : CryptoCrates} {config : RelayConfig} {localAddr : SocketAddr}
    {random : UInt64} {labels : List Label} {s : Session} {effects : List Effect}
    (hrun : run (step crates config) (Session.start crates config localAddr random) labels =
      some (s, effects)) :
    (GaplessStream crates config (Session.start crates config localAddr random) labels effects ↔
      Along (step crates config) (Deliverable crates config) (Session.start crates config localAddr random)
        labels) ∧
    (AeadLaws crates → HkdfExpands crates → config.encryption ≠ .aesGcmV1 →
      GaplessStream crates config (Session.start crates config localAddr random) labels effects) := by
  have hgapless : Along (step crates config) (Deliverable crates config)
      (Session.start crates config localAddr random) labels →
      GaplessStream crates config (Session.start crates config localAddr random) labels effects := by
    intro halong
    have hstart : StreamSoFar crates config (Session.start crates config localAddr random) [] [] :=
      ⟨rfl, rfl, rfl, numbered_nil, numbered_nil⟩
    have hend := run_history_along (R := StreamSoFar crates config)
      (fun _ _ _ _ _ _ h hd hstep => h.step hd hstep) labels [] [] _ s effects hstart halong hrun
    refine ⟨hend.own, hend.audio, ?_⟩
    exact halong.imp (fun _ _ _ _ hstep => (silentKeepsCounters_iff hstep).mpr) hrun
  refine ⟨⟨?_, hgapless⟩, ?_⟩
  · intro hstream
    exact hstream.silent.imp (fun _ _ _ _ hstep => (silentKeepsCounters_iff hstep).mp) hrun
  · intro haead hhkdf hmode
    apply hgapless
    -- the key stays the session's, and with it every step is deliverable
    refine Along.imp_of_inv (P := fun _ _ => True) (I := fun s => s.media.key = mediaKey crates config)
      (fun s i s' os hkey hstep => ?_) (fun s i _ _ hkey _ _ => ?_) labels _ s effects rfl hrun
      (along_of_forall (fun _ _ _ => trivial) _)
    · exact (step_does hstep).media_key.trans hkey
    · exact deliverable_of_laws haead hhkdf hmode hkey i

/-- The run of a station in AES-GCM v1 mode that processes a frame between Join and a PttOff. -/
def skippingRun : Option (Session × List Effect) :=
  run (step tagCrates (station .aesGcmV1)) (Session.start tagCrates (station .aesGcmV1) stationAddr 0)
    [.client (.sendPcmFrame (List.replicate 320 0)), .client (.sendControl .pttOff []),
      tick, tick, tick, tick, tick]

/-- **A frame without a packet takes a number.** The packets of `skippingRun` carry 0 and 2. -/
theorem skippingRun_skips : ∃ s effects, skippingRun = some (s, effects) ∧
    (effects.filterMap Effect.own?).map (fun p => p.header.sequence) = [0, 2] ∧
    ∀ start labels, ¬ GaplessStream tagCrates (station .aesGcmV1) start labels effects := by
  have hnumbers : skippingRun.map (fun r => (r.2.filterMap Effect.own?).map fun p => p.header.sequence) =
      some [0, 2] := by decide +kernel
  obtain ⟨⟨s, effects⟩, hrun, hseq⟩ := Option.map_eq_some_iff.mp hnumbers
  refine ⟨s, effects, hrun, hseq, ?_⟩
  intro start labels hstream
  have hsecond : ((effects.filterMap Effect.own?).map fun p => p.header.sequence)[1]? = some 2 := by
    rw [show (effects.filterMap Effect.own?).map (fun p => p.header.sequence) = [0, 2] from hseq]
    rfl
  rw [List.getElem?_map] at hsecond
  obtain ⟨p, hp, htwo⟩ := Option.map_eq_some_iff.mp hsecond
  have hone : p.header.sequence = UInt16.ofNat 1 := hstream.own 1 p hp
  rw [htwo] at hone
  cases hone

/-- Three control packets, and among them two frames and a slice that is none. -/
def talkingLabels : List Label :=
  [.client (.sendControl .codecConfig []), .client (.sendControl .pttOn []),
    .client (.sendPcmFrame (List.replicate 320 7)), .client (.sendPcmFrame [1, 2, 3]),
    .client (.sendPcmFrame (List.replicate 320 8)), .client (.sendControl .pttOff [])] ++ List.replicate 9 tick

/-- In AES-GCM v2 mode they take the numbers 1 to 5 behind the Join, two of them sealed audio. -/
theorem gapless_iff_deliverable_talking : ∃ s effects,
    run (step tagCrates (station .aesGcmV2)) (Session.start tagCrates (station .aesGcmV2) stationAddr 0)
      talkingLabels = some (s, effects) ∧
    (effects.filterMap Effect.own?).map (fun p => p.header.sequence) = [0, 1, 2, 3, 4, 5] ∧
    (effects.filterMap Effect.audio?).length = 2 ∧
    GaplessStream tagCrates (station .aesGcmV2) (Session.start tagCrates (station .aesGcmV2) stationAddr 0)
      talkingLabels effects := by
  have hview : (run (step tagCrates (station .aesGcmV2)) (Session.start tagCrates (station .aesGcmV2) stationAddr 0)
      talkingLabels).map (fun r => ((r.2.filterMap Effect.own?).map fun p => p.header.sequence,
        (r.2.filterMap Effect.audio?).length)) = some ([0, 1, 2, 3, 4, 5], 2) := by decide +kernel
  obtain ⟨⟨s, effects⟩, hrun, hview⟩ := Option.map_eq_some_iff.mp hview
  obtain ⟨hnumbers, haudio⟩ := Prod.mk.inj hview
  exact ⟨s, effects, hrun, hnumbers, haudio,
    (gapless_iff_deliverable hrun).2 tagCrates_aead tagCrates_hkdf (by decide)⟩

end IncomUdon.Transport
