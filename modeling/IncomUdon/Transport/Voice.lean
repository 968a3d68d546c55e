/-
# IncomUdon.Transport.Voice — the frames of one session, from the client's call to the datagram and back.

§1 is the sending side: which frames the worker takes, that every call of the cipher seals one of them, and that the
datagrams of the session spell the frames it took, and nothing else, to whoever can read them. §2 is the receiving
side: the frames offered are what the datagrams read spell, and those told are a selection of them in order.
-/
import IncomUdon.Lib.Sublists
import IncomUdon.Transport.Control
import IncomUdon.Transport.Hearing
import IncomUdon.Transport.Isolation
import IncomUdon.Transport.Lifecycle

namespace IncomUdon.Transport

open IncomUdon.Lib
open IncomUdon.Protocol
open IncomUdon.Crypto

/-! ## §1 — the frames that leave -/

/-- The frame of a `send_pcm_frame`. -/
def RelayCommand.frame? : RelayCommand → Option Bytes
  | .sendPcm frame => some frame
  | _ => none

/-- Neither a packet of the client's own nor audio in the dress of a control packet. -/
def RelayCommand.modest : RelayCommand → Bool
  | .send _ => false
  | .sendControl packetType _ => packetType ≠ .audio
  | _ => true

/-- The frames that the worker took off the queue. -/
def takenFrames (effects : List Effect) : List Bytes := (effects.filterMap Effect.took?).filterMap RelayCommand.frame?

/-- The frames that the queue accepted. -/
def acceptedFrames (effects : List Effect) : List Bytes :=
  (effects.filterMap Effect.accepted?).filterMap RelayCommand.frame?

/-- What a datagram spells to a worker with this key: the sender and the frame. -/
def hear (crates : CryptoCrates) (key : Option (ByteArr 32)) (datagram : Bytes) : Option (UInt32 × Bytes) :=
  match Packet.decode (datagram.take receiveBufferLen) with
  | .ok packet => decodePcm crates packet key
  | _ => none

section Sending

variable {crates : CryptoCrates} {config : RelayConfig} {s s' : Session} {seen effects : List Effect}

theorem takenFrames_append (a b : List Effect) : takenFrames (a ++ b) = takenFrames a ++ takenFrames b := by
  simp [takenFrames, List.filterMap_append]

/-- What was taken was accepted, in order. -/
theorem run_taken {localAddr : SocketAddr} {random : UInt64} {labels : List Label}
    (hrun : run (step crates config) (Session.start crates config localAddr random) labels = some (s, effects)) :
    (takenFrames effects).Sublist (acceptedFrames effects) := by
  have hfifo : [] ++ effects.filterMap Effect.accepted? = effects.filterMap Effect.took? ++ s.commands.queue :=
    run_fifo hrun
  rw [acceptedFrames, ← List.nil_append (effects.filterMap Effect.accepted?), hfifo, List.filterMap_append]
  exact List.sublist_append_left _ _

/-- **The cipher is called for a frame** that the step takes off the queue. -/
theorem Does.encrypt {label : Label} {sequence : UInt16} {media : MediaState}
    (h : Does crates config s label sequence media effects) {call : EncryptCall} (hmem : .encrypt call ∈ effects) :
    ∃ frame, .took (.sendPcm frame) ∈ effects ∧ frame.length = 320 ∧ s.media.key = some call.key ∧
      call = pcmCall config s.sequence s.media call.key frame := by
  have hcall : call ∈ effects.filterMap Effect.call? := List.mem_filterMap.mpr ⟨_, hmem, rfl⟩
  cases h with
  | calls hquiet | quiet hquiet =>
    rw [(Effect.quiet_views hquiet).2.1] at hcall
    cases hcall
  | receives =>
    rw [(Effect.silent_views (receive_silent _ _ _ _)).2.1] at hcall
    cases hcall
  | @forwards env packet =>
    rw [List.filterMap_cons_none rfl, sendPacket_calls] at hcall
    cases hcall
  | controls htaken =>
    rw [List.filterMap_append, sendPacket_calls, List.append_nil] at hcall
    rcases htaken with rfl | rfl <;> cases hcall
  | @talks env frame turn hproc hturn =>
    refine ⟨frame, List.mem_cons_self, ?_⟩
    rw [List.filterMap_cons_none rfl] at hcall
    cases hturn with
    | wrongLength | noKey => cases hcall
    | plain =>
      rw [sendPacket_calls] at hcall
      cases hcall
    | @«sealed» key payload tag hlen _ hkey =>
      change call ∈ pcmCall config s.sequence s.media key frame :: (sendPacket .pcm _ _).filterMap Effect.call? at hcall
      rw [sendPacket_calls] at hcall
      obtain rfl := List.mem_singleton.mp hcall
      exact ⟨hlen, hkey, rfl⟩
    | @shortCiphertext key _ hlen _ hkey =>
      obtain rfl := List.mem_singleton.mp hcall
      exact ⟨hlen, hkey, rfl⟩
    | @encryptionFailed key _ hlen _ hkey =>
      obtain rfl := List.mem_singleton.mp hcall
      exact ⟨hlen, hkey, rfl⟩

/-- **Every call of the cipher in a run seals a frame that was taken**, under the session's key and in its name. -/
theorem run_sealed {localAddr : SocketAddr} {random : UInt64} {labels : List Label}
    (hrun : run (step crates config) (Session.start crates config localAddr random) labels = some (s, effects))
    {call : EncryptCall} (hmem : .encrypt call ∈ effects) :
    mediaKey crates config = some call.key ∧ ∃ frame sequence media, frame ∈ takenFrames effects ∧
      frame.length = 320 ∧ call = pcmCall config sequence media call.key frame := by
  suffices h : s.media.key = mediaKey crates config ∧ ∀ call, .encrypt call ∈ effects →
      mediaKey crates config = some call.key ∧ ∃ frame sequence media, frame ∈ takenFrames effects ∧
        frame.length = 320 ∧ call = pcmCall config sequence media call.key frame from h.2 call hmem
  refine run_history (R := fun s _ seen => s.media.key = mediaKey crates config ∧ ∀ call, .encrypt call ∈ seen →
    mediaKey crates config = some call.key ∧ ∃ frame sequence media, frame ∈ takenFrames seen ∧
      frame.length = 320 ∧ call = pcmCall config sequence media call.key frame) ?_ ⟨rfl, by simp⟩ hrun
  rintro s _ seen label s' es ⟨hkey, hseen⟩ hstep
  refine ⟨(step_does hstep).media_key.trans hkey, ?_⟩
  intro call hmem
  rcases List.mem_append.mp hmem with hold | hnew
  · obtain ⟨hk, frame, sequence, media, hframe, hrest⟩ := hseen call hold
    refine ⟨hk, frame, sequence, media, ?_, hrest⟩
    rw [takenFrames_append]
    exact List.mem_append_left _ hframe
  · obtain ⟨frame, htook, hlen, hk, hcall⟩ := (step_does hstep).encrypt hnew
    refine ⟨hkey ▸ hk, frame, s.sequence, s.media, ?_, hlen, hcall⟩
    rw [takenFrames_append]
    apply List.mem_append_right
    exact List.mem_filterMap.mpr ⟨_, List.mem_filterMap.mpr ⟨_, htook, rfl⟩, rfl⟩

/-! ### What the datagrams spell -/

/-- A packet that carries a frame is heard as that frame. -/
theorem hear_of_carries {key : Option (ByteArr 32)} {senderId : UInt32} {frame : Bytes} {packet : Packet}
    (h : Carries crates key senderId frame packet) :
    (packet.encode.toOption.toList).filterMap (hear crates key) = [(senderId, frame)] := by
  obtain ⟨bytes, hencode, hfits, hdecode, hpcm⟩ := h
  have hheard : hear crates key bytes = some (senderId, frame) := by
    rw [hear, List.take_of_length_le hfits, hdecode]
    exact hpcm
  rw [hencode]
  show [bytes].filterMap (hear crates key) = _
  rw [List.filterMap_cons_some hheard, List.filterMap_nil]

/-- A control packet spells no frame, whether it fits the buffer or is cut. -/
theorem hear_control (crates : CryptoCrates) (key : Option (ByteArr 32)) (config : RelayConfig) (sequence : UInt16)
    {packetType : PacketType} (haudio : packetType ≠ .audio) (payload : Bytes) :
    ((controlPacket config sequence packetType payload).encode.toOption.toList).filterMap (hear crates key) = [] := by
  obtain ⟨bytes, hencode, hlen⟩ := controlPacket_encode config sequence packetType payload
  have hheader := controlPacket_header config sequence packetType payload
  have hversion : (controlPacket config sequence packetType payload).header.version = protocolVersion := by
    rw [hheader]
    rfl
  have hlayout := controlPacket_layout config sequence packetType payload
  have hsilent : hear crates key bytes = none := by
    by_cases hfits : bytes.length ≤ receiveBufferLen
    · rw [hear, List.take_of_length_le hfits, Packet.decode_own_encoding hencode hversion hlayout]
      apply decodePcm_of_not_audio
      rw [hheader]
      exact haudio
    · obtain ⟨q, hq, hqheader, -⟩ := Packet.decode_cut hencode hversion hlayout
        (show 44 ≤ receiveBufferLen by decide) (by omega)
      rw [hear, hq]
      apply decodePcm_of_not_audio
      rw [hqheader, hheader]
      exact haudio
  rw [hencode]
  show [bytes].filterMap (hear crates key) = _
  rw [List.filterMap_cons_none hsilent, List.filterMap_nil]

/-- The frames that `send_pcm` puts on the wire: those of a frame's length, when no key is wanted or there is one. -/
def sendable (crates : CryptoCrates) (config : RelayConfig) (frame : Bytes) : Bool :=
  frame.length = 320 ∧ (config.encryption = .none ∨ (mediaKey crates config).isSome)

/-- **`Reads crates config key`** — whoever holds `key` can read the session: in AES-GCM v2 it is the session's. -/
def Reads (crates : CryptoCrates) (config : RelayConfig) (key : Option (ByteArr 32)) : Prop :=
  config.encryption = .aesGcmV2 → key = mediaKey crates config

theorem Reads.own (crates : CryptoCrates) (config : RelayConfig) : Reads crates config (mediaKey crates config) :=
  fun _ => rfl

/-- **What one turn of `send_pcm` spells** to whoever can read it: the frame, if it can be sent at all. -/
theorem SendsPcm.spells (haead : AeadLaws crates) {key : Option (ByteArr 32)} (hreads : Reads crates config key)
    {sequence : UInt16} {media : MediaState} {frame : Bytes} {sent : Except IoError Unit} {turn : Turn}
    (hkey : media.key = mediaKey crates config) (h : SendsPcm crates config sequence media frame sent turn) :
    (turn.effects.filterMap Effect.datagram?).filterMap (hear crates key) =
      ([frame].filter (sendable crates config)).map fun frame => (config.senderId, frame) := by
  -- only a key for the second version is derived
  have hv2 : ∀ {key}, media.key = some key → config.encryption = .aesGcmV2 := by
    intro key hk
    by_contra hne
    rw [hkey, mediaKey, if_pos hne] at hk
    cases hk
  cases h with
  | wrongLength hbad => simp [sendable, hbad, Effect.datagram?]
  | plain hlen hmode =>
    rw [sendPacket_datagrams, hear_of_carries (carries_plain hlen hmode)]
    simp [sendable, hlen, hmode]
  | @«sealed» key payload tag hlen hmode hk hcall =>
    rw [List.filterMap_cons_none rfl, sendPacket_datagrams, hreads (hv2 hk), ← hkey, hk,
      hear_of_carries (carries_sealed haead hlen (hv2 hk) hcall)]
    simp [sendable, hlen, ← hkey, hk]
  | @shortCiphertext key encrypted hlen _ _ hcall hshort =>
    obtain ⟨c, hc, hclen, -⟩ := pcmCall_of_laws config haead sequence media key hlen
    rw [hcall, Except.ok.injEq] at hc
    rw [hc, hclen, authTagLen] at hshort
    omega
  | @encryptionFailed key error hlen _ _ hcall =>
    obtain ⟨c, hc, -⟩ := pcmCall_of_laws config haead sequence media key hlen
    rw [hcall] at hc
    cases hc
  | noKey _ hmode hk => simp [sendable, hmode, ← hkey, hk, Effect.datagram?]

/-- What the datagrams among the effects spell to whoever holds this key. -/
def spelled (crates : CryptoCrates) (key : Option (ByteArr 32)) (effects : List Effect) : List (UInt32 × Bytes) :=
  (effects.filterMap Effect.datagram?).filterMap (hear crates key)

theorem spelled_append (key : Option (ByteArr 32)) (a b : List Effect) :
    spelled crates key (a ++ b) = spelled crates key a ++ spelled crates key b := by
  simp [spelled, List.filterMap_append]

/-- The frames taken that can be sent, in the session's name. -/
def voiced (crates : CryptoCrates) (config : RelayConfig) (effects : List Effect) : List (UInt32 × Bytes) :=
  ((takenFrames effects).filter (sendable crates config)).map fun frame => (config.senderId, frame)

theorem voiced_append (a b : List Effect) :
    voiced crates config (a ++ b) = voiced crates config a ++ voiced crates config b := by
  simp [voiced, takenFrames_append, List.filter_append]

/-- The worker's own control packets are no audio. -/
theorem Owns.not_audio {pc pc' : WorkerPc} {packetType : PacketType} (h : Owns pc packetType pc') :
    packetType ≠ .audio := by
  cases h <;> simp

/-- **A processed command spells its frame**, if it has one that can be sent. -/
theorem process_spells (haead : AeadLaws crates) {key : Option (ByteArr 32)} (hreads : Reads crates config key)
    (hkey : s.media.key = mediaKey crates config) {command : RelayCommand}
    (hmodest : RelayCommand.modest command = true) {sent : Except IoError Unit} {turn : Turn}
    (h : process crates config s command sent = some turn) :
    spelled crates key turn.effects =
      ((RelayCommand.frame? command).toList.filter (sendable crates config)).map
        fun frame => (config.senderId, frame) := by
  cases command with
  | send packet => cases hmodest
  | sendControl packetType payload =>
    obtain rfl := Option.some.inj h
    have haudio : packetType ≠ .audio := by simpa [RelayCommand.modest] using hmodest
    rw [sendControl, spelled, sendPacket_datagrams, hear_control crates _ config _ haudio]
    rfl
  | disconnect => cases h
  | sendPcm frame =>
    obtain rfl := Option.some.inj h
    exact (sendPcm_sends crates config s.sequence s.media frame sent).spells haead hreads hkey

/-- **One step spells the frame it takes**, unless it takes a packet or audio of the client's own making. -/
theorem step_spells (haead : AeadLaws crates) {key : Option (ByteArr 32)} (hreads : Reads crates config key)
    (hkey : s.media.key = mediaKey crates config) {label : Label}
    (hmodest : ∀ command ∈ effects.filterMap Effect.took?, RelayCommand.modest command = true)
    (h : step crates config s label = some (s', effects)) :
    spelled crates key effects = voiced crates config effects := by
  cases label with
  | client action =>
    have hdoes := step_does h
    generalize s'.sequence = sequence, s'.media = media at hdoes
    cases hdoes with
    | calls hquiet =>
      rw [spelled, (Effect.quiet_views hquiet).2.2, voiced, takenFrames, (clientStep_turn h).2.2.1]
      rfl
  | worker env =>
    cases (workerStep_turn h).2.2 with
    | goes _ _ _ hevents =>
      have hnone : ∀ {β : Type} (view : Effect → Option β), (∀ event, view (.event event) = none) →
          effects.filterMap view = [] := by
        intro β view hview
        rw [List.filterMap_eq_nil_iff]
        intro e he
        obtain ⟨event, rfl⟩ := hevents e he
        exact hview event
      rw [spelled, hnone Effect.datagram? fun _ => rfl, voiced, takenFrames, hnone Effect.took? fun _ => rfl]
      rfl
    | @takes command turn _ _ hturn _ _ heffects =>
      subst heffects
      have hmodest' : RelayCommand.modest command = true := hmodest command (by simp [Effect.took?])
      have htook : turn.effects.filterMap Effect.took? = [] :=
        outward_view took_of_outward (process_outward hturn)
      have hframes : takenFrames (.took command :: turn.effects) = (RelayCommand.frame? command).toList := by
        show (command :: turn.effects.filterMap Effect.took?).filterMap RelayCommand.frame? = _
        rw [htook]
        cases command <;> rfl
      rw [voiced, hframes]
      exact process_spells haead hreads hkey hmodest' hturn
    | ends _ _ heffects =>
      subst heffects
      rfl
    | owns hplace _ _ heffects =>
      subst heffects
      rw [spelled, sendPacket_datagrams, hear_control crates _ config _ hplace.not_audio, voiced, takenFrames,
        outward_view took_of_outward (sendPacket_outward _ _ _)]
      rfl

/-- **What a session sends is what it took.** To whoever can read it, the datagrams of a session that was asked for
frames and control packets only spell the frames that its worker took and could send, all of them, in order, none
twice, each in the session's name, and nothing else. -/
theorem run_spells (haead : AeadLaws crates) {key : Option (ByteArr 32)} (hreads : Reads crates config key)
    {localAddr : SocketAddr} {random : UInt64} {labels : List Label}
    (hrun : run (step crates config) (Session.start crates config localAddr random) labels = some (s, effects))
    (hmodest : ∀ command ∈ effects.filterMap Effect.took?, RelayCommand.modest command = true) :
    spelled crates key effects = voiced crates config effects := by
  have hend : s.media.key = mediaKey crates config ∧
      ((∀ command ∈ effects.filterMap Effect.took?, RelayCommand.modest command = true) →
        spelled crates key effects = voiced crates config effects) := by
    refine run_history (R := fun s _ seen => s.media.key = mediaKey crates config ∧
      ((∀ command ∈ seen.filterMap Effect.took?, RelayCommand.modest command = true) →
        spelled crates key seen = voiced crates config seen)) ?_ ⟨rfl, fun _ => rfl⟩ hrun
    rintro s _ seen label s' es ⟨hkey, hseen⟩ hstep
    refine ⟨(step_does hstep).media_key.trans hkey, fun hmodest => ?_⟩
    rw [List.filterMap_append] at hmodest
    rw [spelled_append, voiced_append, hseen fun command h => hmodest command (List.mem_append_left _ h),
      step_spells haead hreads hkey (fun command h => hmodest command (List.mem_append_right _ h)) hstep]
  exact hend.2 hmodest

/-- One step sends one datagram at most. -/
theorem step_datagram {label : Label} (h : step crates config s label = some (s', effects)) :
    (effects.filterMap Effect.datagram?).length ≤ 1 := by
  have hdoes := step_does h
  generalize s'.sequence = sequence, s'.media = media at hdoes
  cases hdoes with
  | calls hquiet | quiet hquiet =>
    rw [(Effect.quiet_views hquiet).2.2]
    exact Nat.zero_le _
  | receives =>
    rw [(Effect.silent_views (receive_silent _ _ _ _)).2.2]
    exact Nat.zero_le _
  | forwards =>
    rw [List.filterMap_cons_none rfl, sendPacket_datagrams]
    exact Option.length_toList_le
  | controls htaken =>
    rcases htaken with rfl | rfl
    · rw [List.nil_append, sendPacket_datagrams]
      exact Option.length_toList_le
    · rw [List.singleton_append, List.filterMap_cons_none rfl, sendPacket_datagrams]
      exact Option.length_toList_le
  | talks _ hturn =>
    rw [List.filterMap_cons_none rfl]
    cases hturn with
    | plain =>
      rw [sendPacket_datagrams]
      exact Option.length_toList_le
    | «sealed» =>
      rw [List.filterMap_cons_none rfl, sendPacket_datagrams]
      exact Option.length_toList_le
    | _ => exact Nat.zero_le _

/-- **Whoever can read a session hears the same** in each of its datagrams. -/
theorem run_alike (haead : AeadLaws crates) {localAddr : SocketAddr} {random : UInt64} {labels : List Label}
    (hrun : run (step crates config) (Session.start crates config localAddr random) labels = some (s, effects))
    (hmodest : ∀ command ∈ effects.filterMap Effect.took?, RelayCommand.modest command = true)
    {key key' : Option (ByteArr 32)} (hreads : Reads crates config key) (hreads' : Reads crates config key') :
    ∀ datagram ∈ effects.filterMap Effect.datagram?, hear crates key datagram = hear crates key' datagram := by
  have hend : s.media.key = mediaKey crates config ∧
      ((∀ command ∈ effects.filterMap Effect.took?, RelayCommand.modest command = true) →
        ∀ datagram ∈ effects.filterMap Effect.datagram?, hear crates key datagram = hear crates key' datagram) := by
    refine run_history (R := fun s _ seen => s.media.key = mediaKey crates config ∧
      ((∀ command ∈ seen.filterMap Effect.took?, RelayCommand.modest command = true) →
        ∀ datagram ∈ seen.filterMap Effect.datagram?, hear crates key datagram = hear crates key' datagram))
      ?_ ⟨rfl, fun _ _ h => nomatch h⟩ hrun
    rintro s _ seen label s' es ⟨hkey, hseen⟩ hstep
    refine ⟨(step_does hstep).media_key.trans hkey, fun hmodest datagram hmem => ?_⟩
    rw [List.filterMap_append] at hmodest hmem
    rcases List.mem_append.mp hmem with hold | hnew
    · exact hseen (fun command h => hmodest command (List.mem_append_left _ h)) datagram hold
    · -- both spell the frame that the step takes, and the step sends nothing else
      have hnow := fun command h => hmodest command (List.mem_append_right _ h)
      have hsame := (step_spells haead hreads hkey hnow hstep).trans (step_spells haead hreads' hkey hnow hstep).symm
      obtain ⟨only, honly⟩ := List.length_eq_one_iff.mp
        (Nat.le_antisymm (step_datagram hstep) (List.length_pos_of_mem hnew))
      rw [honly, List.mem_singleton] at hnew
      rw [spelled, spelled, honly] at hsame
      rw [hnew]
      cases hheard : hear crates key only <;> cases hheard' : hear crates key' only <;>
        simp [hheard, hheard'] at hsame ⊢
      exact hsame
  exact hend.2 hmodest

end Sending

/-! ## §2 — the frames that arrive -/

section Receiving

variable {crates : CryptoCrates} {config : RelayConfig} {s s' : Session} {seen effects : List Effect}

/-- The datagram that a step reads. -/
def reads? (s : Session) : Label → Option Bytes
  | .worker env => if s.worker = .recv then env.received.toOption else none
  | .client _ => none

/-- **One step offers what the datagram it reads spells**, and otherwise no frame. -/
theorem step_offered {label : Label} (h : step crates config s label = some (s', effects)) :
    effects.filterMap Effect.offered? = (reads? s label).toList.filterMap (hear crates s.media.key) := by
  cases label with
  | client action =>
    rw [(clientStep_heard h).2]
    rfl
  | worker env =>
    by_cases hhears : ∃ heard, Hears crates s env heard
    · obtain ⟨heard, hhears⟩ := hhears
      rw [(workerStep_hears hhears h).1]
      obtain ⟨hpc, datagram, packet, hrecv, hdecode, hpcm⟩ := hhears
      have hheard : hear crates s.media.key datagram = some heard := by
        rw [hear, hdecode]
        exact hpcm
      rw [reads?, if_pos hpc, hrecv]
      show _ = [datagram].filterMap (hear crates s.media.key)
      rw [List.filterMap_cons_some hheard]
      rfl
    · rw [(workerStep_quiet (fun heard hh => hhears ⟨heard, hh⟩) h).1]
      symm
      rw [List.filterMap_eq_nil_iff]
      intro datagram hread
      -- a datagram that spells a frame would have been heard
      simp only [reads?, Option.mem_toList] at hread
      split at hread
      · rename_i hpc
        have hrecv : env.received = .ok datagram := by
          cases hreceived : env.received with
          | error error =>
            rw [hreceived] at hread
            cases hread
          | ok bytes =>
            rw [hreceived] at hread
            rw [Option.some.inj hread]
        cases hheard : hear crates s.media.key datagram with
        | none => rfl
        | some heard =>
          unfold hear at hheard
          split at hheard
          · rename_i packet hdecode
            exact absurd ⟨heard, hpc, datagram, packet, hrecv, hdecode, hheard⟩ hhears
          · cases hheard
      · cases hread

theorem told_eq_next (effects : List Effect) :
    effects.filterMap Effect.told? = (effects.filterMap Effect.next?).filterMap RelayEvent.heard? := by
  rw [List.filterMap_filterMap]
  apply List.filterMap_congr
  intro e _
  cases e with
  | nextEvent event => cases event <;> rfl
  | _ => rfl

/-- **What the client is told of what was offered**: in order, a selection. -/
theorem run_told {localAddr : SocketAddr} {random : UInt64} {labels : List Label}
    (hrun : run (step crates config) (Session.start crates config localAddr random) labels = some (s, effects)) :
    (effects.filterMap Effect.told? ++ s.heard).Sublist (effects.filterMap Effect.offered?) := by
  have hheard := (run_events hrun).sublist.filterMap RelayEvent.heard?
  rwa [List.filterMap_append, ← told_eq_next, ← offered_eq_event] at hheard

end Receiving

end IncomUdon.Transport
