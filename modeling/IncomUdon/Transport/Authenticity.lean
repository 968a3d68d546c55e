/-
# IncomUdon.Transport.Authenticity — which received audio was authenticated.

`decode_pcm` opens a sealed audio packet with the media key, and takes the payload of a plain one as it is,
whether or not there is a key. `sealedInput` is the triple the cipher gets for a sealed datagram; §1 ties it to
`decode_pcm` and says which bytes of the datagram it covers, §2 says exactly which datagrams are delivered
without a key having been asked, and §3 carries both to runs of the worker.
-/
import IncomUdon.Protocol.Grammar
import IncomUdon.Transport.Worker

namespace IncomUdon.Transport

open IncomUdon.Lib
open IncomUdon.Protocol
open IncomUdon.Crypto

/-! ## §1 — what the cipher gets -/

/-- The nonce, the associated data and the ciphertext `decode_pcm` passes to `decrypt_aes_gcm_v2`. -/
def sealedInput : Packet → Option (UInt64 × Bytes × Bytes)
  | .plain _ _ => none
  | .secured header security payload authTag =>
      if header.packetType = .audio ∧ header.flags &&& flagAesGcmV2 ≠ 0 then
        some (security.nonce, header.encode ++ security.encode.val, payload ++ authTag.val)
      else none

theorem sealedInput_secured {p : Packet} {input : UInt64 × Bytes × Bytes}
    (h : sealedInput p = some input) :
    ∃ header security payload authTag, p = .secured header security payload authTag ∧
      header.packetType = .audio ∧ header.flags &&& flagAesGcmV2 ≠ 0 ∧
      p.aad = some (header.encode ++ security.encode.val) ∧
      input = (security.nonce, header.encode ++ security.encode.val, payload ++ authTag.val) := by
  cases p with
  | plain header payload => cases h
  | secured header security payload authTag =>
    rw [sealedInput] at h
    split at h
    · rename_i hsealed
      refine ⟨header, security, payload, authTag, rfl, hsealed.1, hsealed.2, if_pos hsealed.2, ?_⟩
      exact (Option.some.inj h).symm
    · cases h

/-- **A sealed packet is opened with its `sealedInput`**, and the result is cut behind its prefix. -/
theorem decodePcm_sealed {p : Packet} {nonce : UInt64} {aad encrypted : Bytes}
    (h : sealedInput p = some (nonce, aad, encrypted)) (crates : CryptoCrates) (key : ByteArr 32) :
    decodePcm crates p (some key) =
      (decryptAesGcmV2 crates key nonce encrypted aad).toOption.bind (pcmFrame p.header) := by
  obtain ⟨header, security, payload, authTag, rfl, haudio, hflag, haad, hinput⟩ := sealedInput_secured h
  obtain ⟨rfl, rfl, rfl⟩ : nonce = security.nonce ∧ aad = header.encode ++ security.encode.val ∧
      encrypted = payload ++ authTag.val := by
    simpa only [Prod.mk.injEq] using hinput
  rw [decodePcm, if_pos ⟨haudio, hflag⟩, haad]
  rfl

/-- What is covered: the first 28 bytes as associated data, and everything from `header_len` on. -/
theorem sealedInput_covers {b : Bytes} {p : Packet} {input : UInt64 × Bytes × Bytes}
    (hd : Packet.decode b = .ok p) (h : sealedInput p = some input) :
    28 ≤ headerLenAt b ∧ headerLenAt b + 16 ≤ b.length ∧
      input = (ofBe64 (window (b.take 28) 16 8), b.take 28, b.drop (headerLenAt b)) := by
  obtain ⟨header, security, payload, authTag, hp, -, -, -, hinput⟩ := sealedInput_secured h
  rcases Packet.decode_places hd with ⟨-, hplain⟩ | ⟨hge, hroom, tag, htag, hsecured⟩
  · rw [hp] at hplain
    cases hplain
  · refine ⟨hge, hroom, ?_⟩
    rw [hp, securedAt] at hsecured
    obtain ⟨-, rfl, rfl, rfl⟩ := Packet.secured.inj hsecured
    have hh := Packet.decode_header hd
    rw [hp, Packet.header_secured] at hh
    have h28 : 28 ≤ header.headerLen.toNat := by
      rw [PacketHeader.headerLen_toNat hh]
      exact hge
    -- payload and tag join to everything from `header_len` on
    have hcut : headerLenAt b ≤ (b.take (b.length - 16)).length := by
      rw [List.length_take]
      omega
    have hbody : (b.take (b.length - 16)).drop (headerLenAt b) ++ authTag.val =
        b.drop (headerLenAt b) := by
      rw [htag, ← List.drop_append_of_le_length hcut, List.take_append_drop]
    -- the nonce is part of the associated data
    have hnonce : window (b.take 28) 16 8 = window b 16 8 := by
      rw [← List.drop_zero (l := b.take 28), window_slice b (by omega)]
    rw [hinput, secured_front hh h28, hbody, hnonce]
    rfl

/-- **Which byte changes the cipher can see.** What `decode_pcm` passes to the cipher for a sealed datagram is
its `sealedInput`. For two different sealed datagrams these are equal exactly when both have the same
`header_len`, above 28, and differ only in the bytes between 28 and `header_len`. -/
theorem sealedInput_eq_iff {b₁ b₂ : Bytes} {p₁ p₂ : Packet} {input₁ input₂ : UInt64 × Bytes × Bytes}
    (hd₁ : Packet.decode b₁ = .ok p₁) (hd₂ : Packet.decode b₂ = .ok p₂)
    (h₁ : sealedInput p₁ = some input₁) (h₂ : sealedInput p₂ = some input₂) (hne : b₁ ≠ b₂) :
    (∀ crates key, decodePcm crates p₁ (some key) =
      (decryptAesGcmV2 crates key input₁.1 input₁.2.2 input₁.2.1).toOption.bind (pcmFrame p₁.header)) ∧
    (input₁ = input₂ ↔ 28 < headerLenAt b₁ ∧ headerLenAt b₁ = headerLenAt b₂ ∧
      b₁.take 28 = b₂.take 28 ∧ b₁.drop (headerLenAt b₁) = b₂.drop (headerLenAt b₂)) := by
  refine ⟨fun crates key => decodePcm_sealed h₁ crates key, ?_⟩
  obtain ⟨hge₁, -, hcov₁⟩ := sealedInput_covers hd₁ h₁
  obtain ⟨-, -, hcov₂⟩ := sealedInput_covers hd₂ h₂
  rw [hcov₁, hcov₂, Prod.mk.injEq, Prod.mk.injEq]
  constructor
  · rintro ⟨-, hfront, hrest⟩
    -- `header_len` lies in the first 28 bytes
    have hword : ∀ b : Bytes, window (b.take 28) 2 2 = window b 2 2 := by
      intro b
      rw [← List.drop_zero (l := b.take 28), window_slice b (by omega)]
    have hlen : headerLenAt b₁ = headerLenAt b₂ := by
      rw [headerLenAt, headerLenAt, ← hword b₁, hfront, hword b₂]
    refine ⟨?_, hlen, hfront, hrest⟩
    apply Nat.lt_of_le_of_ne hge₁
    intro h28
    apply hne
    rw [← hlen, ← h28] at hrest
    rw [← List.take_append_drop 28 b₁, hfront, hrest, List.take_append_drop]
  · rintro ⟨-, -, hfront, hrest⟩
    exact ⟨by rw [hfront], hfront, hrest⟩

/-- Two datagrams that differ in their one extension byte, with `header_len` 29. -/
def extended (x : UInt8) : Bytes :=
  [1, 1, 0, 29] ++ List.replicate 10 0 ++ [0, 1] ++ List.replicate 12 0 ++ [x] ++ List.replicate 16 0

/-- **An extension byte is not bound.** Both datagrams decode as sealed audio, they differ, and the cipher gets
the same triple for both. -/
theorem sealedInput_extended :
    ∃ p₁ p₂ input, Packet.decode (extended 0) = .ok p₁ ∧ Packet.decode (extended 1) = .ok p₂ ∧
      sealedInput p₁ = some input ∧ sealedInput p₂ = some input ∧ extended 0 ≠ extended 1 :=
  ⟨_, _, _, rfl, rfl, rfl, rfl, by decide⟩

/-- The same two datagrams as an instance of the rule. -/
theorem sealedInput_eq_iff_extended :
    28 < headerLenAt (extended 0) ∧ headerLenAt (extended 0) = headerLenAt (extended 1) ∧
      (extended 0).take 28 = (extended 1).take 28 ∧
      (extended 0).drop (headerLenAt (extended 0)) = (extended 1).drop (headerLenAt (extended 1)) :=
  (@sealedInput_eq_iff (extended 0) (extended 1) _ _ _ _ rfl rfl rfl rfl (by decide)).2.mp rfl

/-! ## §2 — which datagrams are delivered as audio -/

/-- `frame`, attributed to `senderId`, was opened from the datagram `b` under `key`: the datagram is a secured
packet with the AES-GCM v2 flag, the cipher accepted its payload and tag with its associated data, the plaintext
is a two-byte prefix and the frame, and the associated data carries the sender. -/
def Authentic (crates : CryptoCrates) (key : ByteArr 32) (b : Bytes) (senderId : UInt32) (frame : Bytes) :
    Prop :=
  ∃ header security payload authTag aad plaintext,
    Packet.decode b = .ok (.secured header security payload authTag) ∧
    header.flags &&& flagAesGcmV2 ≠ 0 ∧
    (Packet.secured header security payload authTag).aad = some aad ∧
    decryptAesGcmV2 crates key security.nonce (payload ++ authTag.val) aad = .ok plaintext ∧
    plaintext.length = 322 ∧ frame = plaintext.drop 2 ∧
    senderId = header.senderId ∧ window aad 8 4 = be32 senderId

/-- Plain audio of the length the player takes, in terms of the bytes of a datagram. -/
structure PlainAudio (b : Bytes) : Prop where
  accepted : Accepted b
  plain : headerLenAt b < 28
  audio : b[1]? = some 0x01
  frame : b.length = headerLenAt b + 322

theorem pcmFrame_eq_some {header : PacketHeader} {payload frame : Bytes} {senderId : UInt32} :
    pcmFrame header payload = some (senderId, frame) ↔
      payload.length = 322 ∧ senderId = header.senderId ∧ frame = payload.drop 2 := by
  unfold pcmFrame
  split
  · rename_i hlen
    exact ⟨fun h => (nomatch h), fun h => absurd h.1 hlen⟩
  · rename_i hlen
    rw [Option.some.injEq, Prod.mk.injEq]
    constructor
    · rintro ⟨rfl, rfl⟩
      exact ⟨not_not.mp hlen, rfl, rfl⟩
    · rintro ⟨-, rfl, rfl⟩
      exact ⟨rfl, rfl⟩

/-- **What `decode_pcm` delivers** is plain audio as it stands, or a sealed packet opened under the key. -/
theorem decodePcm_eq_some {crates : CryptoCrates} {p : Packet} {key : Option (ByteArr 32)}
    {senderId : UInt32} {frame : Bytes} (h : decodePcm crates p key = some (senderId, frame)) :
    (∃ header payload, p = .plain header payload ∧ header.packetType = .audio ∧ payload.length = 322) ∨
    (∃ k header security payload authTag plaintext, key = some k ∧
      p = .secured header security payload authTag ∧ header.flags &&& flagAesGcmV2 ≠ 0 ∧
      decryptAesGcmV2 crates k security.nonce (payload ++ authTag.val)
        (header.encode ++ security.encode.val) = .ok plaintext ∧
      plaintext.length = 322 ∧ frame = plaintext.drop 2 ∧ senderId = header.senderId) := by
  cases p with
  | plain header payload =>
    rw [decodePcm] at h
    split at h
    · rename_i haudio
      exact Or.inl ⟨header, payload, rfl, haudio, (pcmFrame_eq_some.mp h).1⟩
    · cases h
  | secured header security payload authTag =>
    refine Or.inr ?_
    cases hkey : key with
    | none =>
      rw [hkey, decodePcm] at h
      split at h <;> cases h
    | some k =>
      cases hinput : sealedInput (.secured header security payload authTag) with
      | none =>
        rw [sealedInput] at hinput
        split at hinput
        · cases hinput
        · rename_i hnot
          rw [decodePcm, if_neg hnot] at h
          cases h
      | some input =>
        obtain ⟨_, _, _, _, heq, -, hflag, -, hinput'⟩ := sealedInput_secured hinput
        obtain ⟨rfl, rfl, rfl, rfl⟩ := Packet.secured.inj heq
        subst hinput'
        rw [hkey, decodePcm_sealed hinput] at h
        obtain ⟨plaintext, hopen, hcut⟩ := Option.bind_eq_some_iff.mp h
        obtain ⟨hlen, hsender, hframe⟩ := pcmFrame_eq_some.mp hcut
        refine ⟨k, header, security, payload, authTag, plaintext, rfl, rfl, hflag, ?_, hlen, hframe,
          hsender⟩
        cases hdec : decryptAesGcmV2 crates k security.nonce (payload ++ authTag.val)
            (header.encode ++ security.encode.val) with
        | error error =>
          rw [hdec] at hopen
          cases hopen
        | ok opened =>
          rw [hdec] at hopen
          rw [Option.some.inj hopen]

/-- The datagrams that decode to plain audio of a frame's length are those of `PlainAudio`. -/
theorem plainAudio_iff (b : Bytes) : PlainAudio b ↔ ∃ header payload,
    Packet.decode b = .ok (.plain header payload) ∧ header.packetType = .audio ∧
      payload.length = 322 := by
  constructor
  · rintro ⟨hacc, hplain, haudio, hframe⟩
    obtain ⟨p, hd⟩ := (Packet.decode_isOk_iff b).mpr hacc
    rcases Packet.decode_places hd with ⟨-, hp⟩ | ⟨hge, -⟩
    · obtain ⟨hkind, -⟩ := Packet.header_eq_headerAt hd
      refine ⟨p.header, b.drop (headerLenAt b), by rw [hd, ← hp], ?_, ?_⟩
      · rw [haudio, Option.some.injEq] at hkind
        have htype := PacketType.tryFrom_toByte p.header.packetType
        rw [← hkind] at htype
        exact (Except.ok.inj htype).symm
      · rw [List.length_drop]
        omega
    · exact absurd hplain (Nat.not_lt.mpr hge)
  · rintro ⟨header, payload, hd, haudio, hlen⟩
    have hacc := (Packet.decode_isOk_iff b).mp ⟨_, hd⟩
    obtain ⟨hkind, -⟩ := Packet.header_eq_headerAt hd
    rcases Packet.decode_places hd with ⟨hlt, hp⟩ | ⟨-, -, _, -, hp⟩
    · refine ⟨hacc, hlt, ?_, ?_⟩
      · rw [hkind, Packet.header_plain, haudio]
        rfl
      · rw [(Packet.plain.inj hp).2, List.length_drop] at hlen
        have := hacc.covered
        omega
    · cases hp

/-- The associated data of a version-1 header carries the sender at bytes 8 to 12. -/
theorem window_aad_sender (header : PacketHeader) (rest : Bytes) :
    window (header.encode ++ rest) 8 4 = be32 header.senderId := by
  obtain ⟨-, -, -, h84, -⟩ := header.window_encode rest
  exact h84

/-- A delivered frame of a datagram that is not plain audio is authentic. -/
theorem authentic_of_decodePcm {crates : CryptoCrates} {key : Option (ByteArr 32)} {b : Bytes}
    {p : Packet} {senderId : UInt32} {frame : Bytes} (hsealed : ¬ PlainAudio b)
    (hd : Packet.decode b = .ok p) (h : decodePcm crates p key = some (senderId, frame)) :
    ∃ k, key = some k ∧ Authentic crates k b senderId frame := by
  rcases decodePcm_eq_some h with ⟨header, payload, rfl, haudio, hlen⟩ |
    ⟨k, header, security, payload, authTag, plaintext, hkey, rfl, hflag, hopen, hlen, hframe, hsender⟩
  · exact absurd ((plainAudio_iff b).mpr ⟨header, payload, hd, haudio, hlen⟩) hsealed
  · refine ⟨k, hkey, header, security, payload, authTag, header.encode ++ security.encode.val, plaintext,
      hd, hflag, if_pos hflag, hopen, hlen, hframe, hsender, ?_⟩
    rw [hsender]
    exact window_aad_sender header _

theorem not_authentic_of_plain {crates : CryptoCrates} {key : ByteArr 32} {b : Bytes}
    {header : PacketHeader} {payload : Bytes} (hd : Packet.decode b = .ok (.plain header payload))
    (senderId : UInt32) (frame : Bytes) : ¬ Authentic crates key b senderId frame := by
  rintro ⟨_, _, _, _, _, _, hd', -⟩
  rw [hd] at hd'
  cases hd'

/-- **One datagram is delivered only if authentic, exactly when it is not plain audio.** -/
theorem authentic_iff_not_plainAudio (crates : CryptoCrates) (key : ByteArr 32) (b : Bytes) :
    (∀ p senderId frame, Packet.decode b = .ok p →
      decodePcm crates p (some key) = some (senderId, frame) → Authentic crates key b senderId frame) ↔
    ¬ PlainAudio b := by
  constructor
  · rintro hauth hplain
    obtain ⟨header, payload, hd, haudio, hlen⟩ := (plainAudio_iff b).mp hplain
    have hdeliver : decodePcm crates (.plain header payload) (some key) =
        some (header.senderId, payload.drop 2) := by
      rw [decodePcm, if_pos haudio]
      exact pcmFrame_eq_some.mpr ⟨hlen, rfl, rfl⟩
    exact not_authentic_of_plain hd _ _ (hauth _ _ _ hd hdeliver)
  · intro hsealed p senderId frame hd h
    obtain ⟨k, hkey, hauth⟩ := authentic_of_decodePcm hsealed hd h
    obtain rfl := Option.some.inj hkey
    exact hauth

/-! ## §3 — runs of the worker -/

section Runs

variable {crates : CryptoCrates} {config : RelayConfig}

/-- A PCM event is offered by a step that reads a datagram, and is what `decode_pcm` made of it. -/
theorem Does.pcmReceived {s : Session} {label : Label} {sequence : UInt16} {media : MediaState}
    {effects : List Effect} {senderId : UInt32} {frame : Bytes}
    (h : Does crates config s label sequence media effects)
    (hmem : Effect.event (.pcmReceived senderId frame) ∈ effects) :
    ∃ env datagram p, label = .worker env ∧ s.worker = .recv ∧ env.received = .ok datagram ∧
      Packet.decode (datagram.take receiveBufferLen) = .ok p ∧
      decodePcm crates p s.media.key = some (senderId, frame) := by
  cases h with
  | calls hquiet | quiet hquiet => exact absurd (hquiet _ hmem) (by simp [Effect.quiet])
  | @receives env datagram hpc hdatagram =>
    refine ⟨env, datagram, ?_⟩
    unfold receive at hmem
    split at hmem
    · rename_i p hd
      split at hmem
      · rename_i sender pcm hdec
        simp only [List.mem_singleton, Effect.event.injEq, RelayEvent.pcmReceived.injEq] at hmem
        obtain ⟨rfl, rfl⟩ := hmem
        exact ⟨p, rfl, hpc, hdatagram, hd, hdec⟩
      · simp at hmem
    · simp at hmem
    · simp at hmem
  | forwards =>
    rcases List.mem_cons.mp hmem with heq | hsend
    · cases heq
    · exact absurd hsend (sendPacket_no_audio _ _ _ _ _)
  | controls htaken =>
    rcases List.mem_append.mp hmem with htook | hsend
    · rcases htaken with rfl | rfl
      · cases htook
      · simp at htook
    · exact absurd hsend (sendPacket_no_audio _ _ _ _ _)
  | talks hproc hturn =>
    exfalso
    rcases List.mem_cons.mp hmem with heq | hrest
    · cases heq
    cases hturn with
    | wrongLength => simp at hrest
    | plain => exact sendPacket_no_audio _ _ _ _ _ hrest
    | «sealed» =>
      rcases List.mem_cons.mp hrest with heq | hsend
      · cases heq
      · exact sendPacket_no_audio _ _ _ _ _ hsend
    | shortCiphertext => simp at hrest
    | encryptionFailed => simp at hrest
    | noKey => simp at hrest

/-- The step reads no datagram that is plain audio. -/
def HearsNoPlainAudio (s : Session) (label : Label) : Prop :=
  ∀ env datagram, label = .worker env → s.worker = .recv → env.received = .ok datagram →
    ¬ PlainAudio (datagram.take receiveBufferLen)

/-- What a run has delivered so far: the key is the session's, and every PCM event is authentic for a datagram
that arrived. -/
def DeliveredAuthentic (crates : CryptoCrates) (config : RelayConfig) (s : Session) (labels : List Label)
    (effects : List Effect) : Prop :=
  s.media.key = mediaKey crates config ∧
  ∀ senderId frame, Effect.event (.pcmReceived senderId frame) ∈ effects →
    ∃ key env datagram, mediaKey crates config = some key ∧ Label.worker env ∈ labels ∧
      env.received = .ok datagram ∧ Authentic crates key (datagram.take receiveBufferLen) senderId frame

theorem DeliveredAuthentic.step {s s' : Session} {labels : List Label} {seen effects : List Effect}
    {label : Label} (h : DeliveredAuthentic crates config s labels seen)
    (hhears : HearsNoPlainAudio s label) (hstep : step crates config s label = some (s', effects)) :
    DeliveredAuthentic crates config s' (labels ++ [label]) (seen ++ effects) := by
  obtain ⟨hkey, hseen⟩ := h
  have hdoes := step_does hstep
  refine ⟨hdoes.media_key.trans hkey, ?_⟩
  intro senderId frame hmem
  rcases List.mem_append.mp hmem with hold | hnew
  · obtain ⟨key, env, datagram, hk, hlabel, hrest⟩ := hseen senderId frame hold
    exact ⟨key, env, datagram, hk, List.mem_append_left _ hlabel, hrest⟩
  · obtain ⟨env, datagram, p, hlabel, hpc, hrecv, hd, hdec⟩ := hdoes.pcmReceived hnew
    obtain ⟨key, hk, hauth⟩ := authentic_of_decodePcm (hhears env datagram hlabel hpc hrecv) hd hdec
    refine ⟨key, env, datagram, by rw [← hkey, hk], ?_, hrecv, hauth⟩
    rw [hlabel]
    exact List.mem_append_right _ (List.mem_singleton_self _)

/-- In a run that reads no plain audio, what is delivered is authentic. -/
theorem run_deliveredAuthentic {localAddr : SocketAddr} {random : UInt64} {labels : List Label} {s : Session}
    {effects : List Effect}
    (hrun : run (step crates config) (Session.start crates config localAddr random) labels = some (s, effects))
    (halong : Along (step crates config) HearsNoPlainAudio (Session.start crates config localAddr random) labels) :
    DeliveredAuthentic crates config s labels effects := by
  have hstart : DeliveredAuthentic crates config (Session.start crates config localAddr random) [] [] :=
    ⟨rfl, fun _ _ hmem => (nomatch hmem)⟩
  exact run_history_along (R := DeliveredAuthentic crates config)
    (fun _ _ _ _ _ _ h hhears hstep => h.step hhears hstep) labels [] [] _ s effects hstart halong hrun

end Runs

/-- **Authenticity of received audio.** Under any key, a datagram is delivered as audio only if it is authentic,
exactly when it is not plain audio of a frame's length. In a run of a session that reads no such datagram, every
PCM event is authentic under the session's media key, for a datagram that arrived. -/
theorem received_audio_authentic (crates : CryptoCrates) :
    (∀ key b, (∀ p senderId frame, Packet.decode b = .ok p →
        decodePcm crates p (some key) = some (senderId, frame) →
        Authentic crates key b senderId frame) ↔ ¬ PlainAudio b) ∧
    (∀ config localAddr random labels s effects,
      run (step crates config) (Session.start crates config localAddr random) labels =
        some (s, effects) →
      Along (step crates config) HearsNoPlainAudio (Session.start crates config localAddr random) labels →
      ∀ senderId frame, Effect.event (.pcmReceived senderId frame) ∈ effects →
        ∃ key env datagram, mediaKey crates config = some key ∧ Label.worker env ∈ labels ∧
          env.received = .ok datagram ∧
          Authentic crates key (datagram.take receiveBufferLen) senderId frame) := by
  refine ⟨authentic_iff_not_plainAudio crates, ?_⟩
  intro config localAddr random labels s effects hrun halong
  exact (run_deliveredAuthentic hrun halong).2

/-- A station in AES-GCM v2 mode that hears `datagram` on its first round. -/
def hears (datagram : Bytes) : List Label :=
  List.replicate 7 tick ++ [.worker ⟨.ok (), 0, .ok datagram⟩]

/-- The run of that station. -/
def hearing (datagram : Bytes) : Option (Session × List Effect) :=
  run (step tagCrates (station .aesGcmV2)) (Session.start tagCrates (station .aesGcmV2) stationAddr 0)
    (hears datagram)

/-- A silent frame as the station itself would send it. -/
def sealedDatagram : Bytes :=
  ((sendPcm tagCrates (station .aesGcmV2) 0 (MediaState.new tagCrates (station .aesGcmV2) 0) (List.replicate 320 0)
    (.ok ())).effects.findSome? Effect.datagram?).getD []

/-- **A sealed frame is heard**, and was authentic. -/
theorem received_audio_authentic_sealed : ∃ s effects, hearing sealedDatagram = some (s, effects) ∧
    .event (.pcmReceived 1002 (List.replicate 320 0)) ∈ effects ∧
    ∃ key env datagram, mediaKey tagCrates (station .aesGcmV2) = some key ∧
      Label.worker env ∈ hears sealedDatagram ∧ env.received = .ok datagram ∧
      Authentic tagCrates key (datagram.take receiveBufferLen) 1002 (List.replicate 320 0) := by
  have hheard : (hearing sealedDatagram).map
      (fun r => decide (.event (.pcmReceived 1002 (List.replicate 320 0)) ∈ r.2)) = some true := by decide +kernel
  obtain ⟨⟨s, effects⟩, hrun, hmem⟩ := Option.map_eq_some_iff.mp hheard
  have hplain : ¬ PlainAudio (sealedDatagram.take receiveBufferLen) := by
    intro h
    exact absurd h.plain (by decide +kernel)
  have halong : Along (step tagCrates (station .aesGcmV2)) HearsNoPlainAudio
      (Session.start tagCrates (station .aesGcmV2) stationAddr 0) (hears sealedDatagram) := by
    apply along_of_forall
    intro label hlabel s env datagram heq _ hrecv
    rcases List.mem_append.mp hlabel with htick | hlast
    · -- a tick reads nothing
      rw [heq] at htick
      obtain rfl := Label.worker.inj (List.eq_of_mem_replicate htick)
      cases hrecv
    · rw [heq] at hlast
      obtain rfl := Label.worker.inj (List.mem_singleton.mp hlast)
      obtain rfl := Except.ok.inj hrecv
      exact hplain
  exact ⟨s, effects, hrun, of_decide_eq_true hmem,
    (received_audio_authentic tagCrates).2 _ _ _ _ s effects hrun halong _ _ (of_decide_eq_true hmem)⟩

/-- A plain audio header on channel 7 from sender 9. -/
def plainHeader : PacketHeader := PacketHeader.new .audio 7 9 0

/-- That header and 322 zero bytes. -/
def plainDatagram : Bytes := plainHeader.encode ++ List.replicate 322 0

/-- **Plain audio is delivered under a key.** `decode_pcm` with a key returns the frame of `plainDatagram`, which
nothing authenticated, and the worker that hears it offers it as received audio. -/
theorem plainDatagram_delivered :
    (∃ p, Packet.decode plainDatagram = .ok p ∧
      decodePcm tagCrates p (some (ByteArr.replicate 32 0)) = some (9, List.replicate 320 0) ∧
      ¬ Authentic tagCrates (ByteArr.replicate 32 0) plainDatagram 9 (List.replicate 320 0)) ∧
    ∃ key s effects, mediaKey tagCrates (station .aesGcmV2) = some key ∧ hearing plainDatagram = some (s, effects) ∧
      .event (.pcmReceived 9 (List.replicate 320 0)) ∈ effects ∧
      ¬ Authentic tagCrates key plainDatagram 9 (List.replicate 320 0) := by
  have hd : Packet.decode plainDatagram = .ok (.plain plainHeader (List.replicate 322 0)) :=
    Packet.decode_complete (.plain [] ⟨rfl, Or.inr (by decide)⟩ (by decide) rfl rfl)
  refine ⟨⟨_, hd, ?_, not_authentic_of_plain hd _ _⟩, ?_⟩
  · rw [decodePcm, if_pos (show plainHeader.packetType = .audio from rfl)]
    exact pcmFrame_eq_some.mpr ⟨List.length_replicate, rfl, by rw [List.drop_replicate]⟩
  · have hheard : (hearing plainDatagram).map (fun r => decide (.event (.pcmReceived 9 (List.replicate 320 0)) ∈ r.2)) =
        some true := by decide +kernel
    obtain ⟨⟨s, effects⟩, hrun, hmem⟩ := Option.map_eq_some_iff.mp hheard
    exact ⟨_, s, effects, rfl, hrun, of_decide_eq_true hmem, not_authentic_of_plain hd _ _⟩

end IncomUdon.Transport
