/-
# IncomUdon.Transport.Confidentiality — what leaves the socket depends on neither the audio nor the network.

Two runs of one station, on schedules that agree on the client's calls up to the content of PCM frames and on
when a keepalive is due, and on nothing else: what arrives, what `socket.send` answers and how full the event
channel is are free in each. If the mode is not `None`, the packets handed to the socket agree one by one,
except that payload and tag of an audio packet are what the cipher made of each run's own frame. `Lockstep` ties
the states of the two runs; §2 follows one call, §3 one step, §4 the runs.
-/
import IncomUdon.Protocol.Grammar
import IncomUdon.Transport.Worker

namespace IncomUdon.Transport

open IncomUdon.Lib
open IncomUdon.Protocol
open IncomUdon.Crypto

/-! ## §1 — what may differ -/

/-- What `send_packet` lets through: a packet that encodes. -/
def encodes? (x : Origin × Packet) : Option (Origin × Packet) :=
  match x.2.encode with
  | .ok _ => some x
  | .error _ => none

/-- A packet that reaches the socket. -/
def Effect.socket? (e : Effect) : Option (Origin × Packet) := e.handed?.bind encodes?

/-- The packets that reach the socket, in order. -/
def socketPackets (effects : List Effect) : List (Origin × Packet) := effects.filterMap Effect.socket?

/-- Equal, unless both are audio packets of `send_pcm` with one header and one security header, whose payload and
tag are the two parts of what the cipher made under the session's key. -/
inductive SameOutside (crates : CryptoCrates) (key : Option (ByteArr 32)) :
    Origin × Packet → Origin × Packet → Prop where
  | same {x : Origin × Packet} (horigin : x.1 ≠ .pcm) : SameOutside crates key x x
  | «sealed» {header : PacketHeader} {security : SecurityHeader} {payload payload' plaintext plaintext' : Bytes}
      {tag tag' : ByteArr authTagLen} {k : ByteArr 32} (hkey : key = some k)
      (hleft : encryptAesGcmV2 crates k security.nonce plaintext (header.encode ++ security.encode.val) =
        .ok (payload ++ tag.val))
      (hright : encryptAesGcmV2 crates k security.nonce plaintext' (header.encode ++ security.encode.val) =
        .ok (payload' ++ tag'.val))
      (hlen : payload.length = payload'.length) :
      SameOutside crates key (.pcm, .secured header security payload tag)
        (.pcm, .secured header security payload' tag')

/-- Commands that agree up to the content of a PCM frame. -/
inductive SameCommand : RelayCommand → RelayCommand → Prop where
  | same (command : RelayCommand) : SameCommand command command
  | frames {frame frame' : Bytes} (hlen : frame.length = frame'.length) :
      SameCommand (.sendPcm frame) (.sendPcm frame')

/-- Calls that agree up to the content of a PCM frame. -/
inductive SameAction : ClientAction → ClientAction → Prop where
  | same (action : ClientAction) : SameAction action action
  | frames {frame frame' : Bytes} (hlen : frame.length = frame'.length) :
      SameAction (.sendPcmFrame frame) (.sendPcmFrame frame')

/-- Labels that agree on the client's call, or on whether a keepalive is due. -/
inductive SameLabel (config : RelayConfig) : Label → Label → Prop where
  | client {action action' : ClientAction} (h : SameAction action action') :
      SameLabel config (.client action) (.client action')
  | worker {env env' : Env}
      (hdue : config.keepaliveInterval ≤ env.elapsed ↔ config.keepaliveInterval ≤ env'.elapsed) :
      SameLabel config (.worker env) (.worker env')

/-- Taking an event is free in either run. -/
def TakesEvent (label : Label) : Prop := label = .client .tryNextEvent

/-- The states of the two runs: equal but for the event channel, the local address and the content of queued
frames. -/
structure Lockstep (s t : Session) : Prop where
  client : s.client = t.client
  worker : s.worker = t.worker
  running : s.running = t.running
  sequence : s.sequence = t.sequence
  media : s.media = t.media
  commands : Channel.Rel SameCommand s.commands t.commands

/-- **What is assumed of the cipher**: within its limits it succeeds, and how long the result is depends on how
long the message is. -/
def EncryptsByLength (crates : CryptoCrates) : Prop :=
  ∃ outLen : Nat → Nat, ∀ key nonce msg aad, msg.length ≤ gcmMax → aad.length ≤ gcmMax →
    ∃ c, crates.aesGcmEncrypt key nonce msg aad = some c ∧ c.length = outLen msg.length

/-! ## §2 — one call -/

/-- Two turns that leave the same counters and send related packets. -/
structure TurnsMatch (crates : CryptoCrates) (key : Option (ByteArr 32)) (a b : Turn) : Prop where
  sequence : a.sequence = b.sequence
  media : a.media = b.media
  panicked : a.panicked = b.panicked
  packets : List.Forall₂ (SameOutside crates key) (socketPackets a.effects) (socketPackets b.effects)

section Turns

variable {crates : CryptoCrates} {config : RelayConfig} {key : Option (ByteArr 32)}

theorem socketPackets_append (a b : List Effect) : socketPackets (a ++ b) = socketPackets a ++ socketPackets b :=
  List.filterMap_append

/-- What reaches the socket is what is handed over and encodes. -/
theorem socketPackets_of_handed {effects : List Effect} {handed : List (Origin × Packet)}
    (h : effects.filterMap Effect.handed? = handed) : socketPackets effects = handed.filterMap encodes? := by
  rw [← h, List.filterMap_filterMap]
  rfl

/-- Whether a packet reaches the socket does not depend on the socket's answer. -/
theorem sendPacket_socket (origin : Origin) (packet : Packet) (sent : Except IoError Unit) :
    socketPackets (sendPacket origin packet sent) = [(origin, packet)].filterMap encodes? :=
  socketPackets_of_handed (sendPacket_handed origin packet sent)

/-- One packet from another call than `send_pcm`, whatever the socket answers. -/
theorem sendPacket_same {origin : Origin} (horigin : origin ≠ .pcm) (packet : Packet)
    (sent sent' : Except IoError Unit) :
    List.Forall₂ (SameOutside crates key) (socketPackets (sendPacket origin packet sent))
      (socketPackets (sendPacket origin packet sent')) := by
  rw [sendPacket_socket, sendPacket_socket, List.filterMap_cons, List.filterMap_nil, encodes?]
  cases packet.encode with
  | error error => exact List.Forall₂.nil
  | ok bytes => exact List.Forall₂.cons (.same horigin) List.Forall₂.nil

theorem sendControl_matches (sequence : UInt16) (media : MediaState) (packetType : PacketType)
    (payload : Bytes) (sent sent' : Except IoError Unit) :
    TurnsMatch crates key (sendControl config sequence media packetType payload sent)
      (sendControl config sequence media packetType payload sent') where
  sequence := rfl
  media := rfl
  panicked := rfl
  packets := sendPacket_same (by decide) _ sent sent'

theorem receive_ok (crates : CryptoCrates) (sequence : UInt16) (media : MediaState) (bytes : Bytes) :
    (receive crates sequence media bytes).panicked = false := by
  unfold receive
  split
  · split <;> rfl
  · rfl
  · rename_i hpanic
    exact absurd hpanic (Packet.decode_ne_panicked bytes)

theorem receive_socket (crates : CryptoCrates) (sequence : UInt16) (media : MediaState) (bytes : Bytes) :
    socketPackets (receive crates sequence media bytes).effects = [] :=
  socketPackets_of_handed (Effect.silent_views (receive_silent crates sequence media bytes)).1

theorem offer_matches (sequence : UInt16) (media : MediaState) (event event' : RelayEvent) :
    TurnsMatch crates key ⟨sequence, media, [.event event], false⟩ ⟨sequence, media, [.event event'], false⟩ :=
  ⟨rfl, rfl, rfl, List.Forall₂.nil⟩

/-- Outside mode `None`, a frame of the right length is sealed under the key, or the ciphertext is too short to
split; which one depends on how long the ciphertext is. -/
theorem sendPcm_sealing {sequence : UInt16} {media : MediaState} {frame : Bytes} {k : ByteArr 32}
    {encrypted : Bytes} (sent : Except IoError Unit) (hlen : frame.length = 320)
    (hmode : config.encryption ≠ .none) (hkey : media.key = some k)
    (hcall : (pcmCall config sequence media k frame).result crates = .ok encrypted) :
    (encrypted.length < authTagLen ∧ sendPcm crates config sequence media frame sent =
      ⟨sequence + 1, { media with audioSequence := media.audioSequence + 1, nonce := media.nonce + 1 },
        [.encrypt (pcmCall config sequence media k frame)], true⟩) ∨
    ∃ payload tag, payload ++ tag.val = encrypted ∧ sendPcm crates config sequence media frame sent =
      ⟨sequence + 1, { media with audioSequence := media.audioSequence + 1, nonce := media.nonce + 1 },
        .encrypt (pcmCall config sequence media k frame) ::
          sendPacket .pcm (.secured (pcmHeader config sequence) (pcmSecurity media) payload tag) sent,
        false⟩ := by
  have hsends := sendPcm_sends crates config sequence media frame sent
  generalize sendPcm crates config sequence media frame sent = turn at hsends ⊢
  cases hsends with
  | wrongLength hbad => exact absurd hlen hbad
  | plain _ hnone => exact absurd hnone hmode
  | @«sealed» k' payload tag _ _ hk hc =>
    obtain rfl := Option.some.inj (hkey.symm.trans hk)
    exact Or.inr ⟨payload, tag, Except.ok.inj (hc.symm.trans hcall), rfl⟩
  | @shortCiphertext k' c _ _ hk hc hshort =>
    obtain rfl := Option.some.inj (hkey.symm.trans hk)
    obtain rfl := Except.ok.inj (hc.symm.trans hcall)
    exact Or.inl ⟨hshort, rfl⟩
  | encryptionFailed _ _ hk hc =>
    obtain rfl := Option.some.inj (hkey.symm.trans hk)
    rw [hcall] at hc
    cases hc
  | noKey _ _ hk =>
    rw [hkey] at hk
    cases hk

/-- Without a key nothing is sent. -/
theorem sendPcm_noKey {sequence : UInt16} {media : MediaState} {frame : Bytes} (sent : Except IoError Unit)
    (hlen : frame.length = 320) (hmode : config.encryption ≠ .none) (hkey : media.key = none) :
    sendPcm crates config sequence media frame sent =
      ⟨sequence + 1, { media with audioSequence := media.audioSequence + 1 },
        [.event (.ioError "AES-GCM v2 media key is unavailable")], false⟩ := by
  have hsends := sendPcm_sends crates config sequence media frame sent
  generalize sendPcm crates config sequence media frame sent = turn at hsends ⊢
  have hnot : ∀ k, media.key ≠ some k := by
    intro k hk
    rw [hkey] at hk
    cases hk
  cases hsends with
  | wrongLength hbad => exact absurd hlen hbad
  | plain _ hnone => exact absurd hnone hmode
  | «sealed» _ _ hk => exact absurd hk (hnot _)
  | shortCiphertext _ _ hk => exact absurd hk (hnot _)
  | encryptionFailed _ _ hk => exact absurd hk (hnot _)
  | noKey => rfl

/-- **Two frames of one length** leave the same counters and related packets. -/
theorem sendPcm_matches (henc : EncryptsByLength crates) (hmode : config.encryption ≠ .none)
    (sequence : UInt16) (media : MediaState) {frame frame' : Bytes} (hlen : frame.length = frame'.length)
    (sent sent' : Except IoError Unit) :
    TurnsMatch crates media.key (sendPcm crates config sequence media frame sent)
      (sendPcm crates config sequence media frame' sent') := by
  by_cases h320 : frame.length = 320
  swap
  · -- both are refused for their length
    have hleft : sendPcm crates config sequence media frame sent =
        ⟨sequence, media, [.event (.ioError "invalid PCM frame length")], false⟩ := if_pos h320
    have hright : sendPcm crates config sequence media frame' sent' =
        ⟨sequence, media, [.event (.ioError "invalid PCM frame length")], false⟩ :=
      if_pos (by rw [← hlen]; exact h320)
    rw [hleft, hright]
    exact offer_matches _ _ _ _
  have h320' : frame'.length = 320 := by rw [← hlen]; exact h320
  cases hkey : media.key with
  | none =>
    rw [sendPcm_noKey sent h320 hmode hkey, sendPcm_noKey sent' h320' hmode hkey]
    exact offer_matches _ _ _ _
  | some k =>
    obtain ⟨outLen, hout⟩ := henc
    -- both calls succeed, with ciphertexts of one length
    have hcall : ∀ f : Bytes, f.length = 320 → ∃ c, (pcmCall config sequence media k f).result crates = .ok c ∧
        c.length = outLen 322 := by
      intro f hf
      obtain ⟨hplain, haad⟩ := pcmCall_within config sequence media k hf
      obtain ⟨c, hc, hclen⟩ := hout k (packetNonce media.nonce) _ _ hplain haad
      refine ⟨c, encryptAesGcmV2_of_some hc, ?_⟩
      rw [hclen, show (pcmCall config sequence media k f).plaintext = pcmPlaintext media f from rfl,
        pcmPlaintext_length media hf]
    obtain ⟨c, hc, hclen⟩ := hcall frame h320
    obtain ⟨c', hc', hclen'⟩ := hcall frame' h320'
    rcases sendPcm_sealing sent h320 hmode hkey hc with ⟨hshort, hturn⟩ | ⟨payload, tag, hjoin, hturn⟩
    · rcases sendPcm_sealing sent' h320' hmode hkey hc' with ⟨_, hturn'⟩ | ⟨payload', tag', hjoin', _⟩
      · rw [hturn, hturn']
        exact ⟨rfl, rfl, rfl, List.Forall₂.nil⟩
      · have hlong : authTagLen ≤ c'.length := by
          rw [← hjoin', List.length_append, tag'.property]
          exact Nat.le_add_left _ _
        omega
    · rcases sendPcm_sealing sent' h320' hmode hkey hc' with ⟨hshort', _⟩ | ⟨payload', tag', hjoin', hturn'⟩
      · have hlong : authTagLen ≤ c.length := by
          rw [← hjoin, List.length_append, tag.property]
          exact Nat.le_add_left _ _
        omega
      · have hsame : payload.length = payload'.length := by
          have hsum : payload.length + authTagLen = c.length := by
            rw [← hjoin, List.length_append, tag.property]
          have hsum' : payload'.length + authTagLen = c'.length := by
            rw [← hjoin', List.length_append, tag'.property]
          omega
        rw [hturn, hturn']
        refine ⟨rfl, rfl, rfl, ?_⟩
        show List.Forall₂ _ (socketPackets (sendPacket .pcm _ sent)) (socketPackets (sendPacket .pcm _ sent'))
        have hheader : (pcmHeader config sequence).headerLen = securedHeaderLen := if_neg hmode
        have hencodes : ∀ p t, ∃ b, (Packet.secured (pcmHeader config sequence) (pcmSecurity media) p t).encode =
            .ok b := fun p t => ⟨_, by rw [Packet.encode, if_neg (not_not.mpr hheader)]⟩
        obtain ⟨b, hb⟩ := hencodes payload tag
        obtain ⟨b', hb'⟩ := hencodes payload' tag'
        rw [sendPacket_socket, sendPacket_socket]
        simp only [List.filterMap_cons, List.filterMap_nil, encodes?, hb, hb']
        exact List.Forall₂.cons (.sealed rfl (hjoin ▸ hc) (hjoin' ▸ hc') hsame) List.Forall₂.nil

end Turns

/-! ## §3 — one step -/

section Steps

variable {crates : CryptoCrates} {config : RelayConfig} {s t s' t' : Session} {os ps : List Effect}

/-- The two runs stay in lockstep over a pair of matching turns. -/
theorem Lockstep.finish (h : Lockstep s t) (next : WorkerPc) {a b : Turn} {key : Option (ByteArr 32)}
    (hab : TurnsMatch crates key a b) : Lockstep (s.finish next a) (t.finish next b) where
  client := h.client
  worker := by
    show (if a.panicked = true then WorkerPc.panicked else next) =
      (if b.panicked = true then WorkerPc.panicked else next)
    rw [hab.panicked]
  running := h.running
  sequence := hab.sequence
  media := hab.media
  commands := h.commands

/-- The outcome of a pair of steps. -/
def StepsMatch (crates : CryptoCrates) (key : Option (ByteArr 32)) (x y : Session × List Effect) : Prop :=
  Lockstep x.1 y.1 ∧
    List.Forall₂ (SameOutside crates key) (socketPackets x.2) (socketPackets y.2)

theorem Lockstep.turn (h : Lockstep s t) (next : WorkerPc) {a b : Turn} {key : Option (ByteArr 32)}
    (hab : TurnsMatch crates key a b) :
    StepsMatch crates key (s.finish next a, a.effects) (t.finish next b, b.effects) :=
  ⟨h.finish next hab, hab.packets⟩

/-- The same, of a step that takes a command. -/
theorem Lockstep.took (h : Lockstep s t) (next : WorkerPc) {a b : Turn} {key : Option (ByteArr 32)}
    {command command' : RelayCommand} (hab : TurnsMatch crates key a b) :
    StepsMatch crates key (s.finish next a, .took command :: a.effects)
      (t.finish next b, .took command' :: b.effects) :=
  ⟨h.finish next hab, hab.packets⟩

/-- A pair of steps that send nothing. -/
theorem Lockstep.silent (h : Lockstep s t) {key : Option (ByteArr 32)} (hos : socketPackets os = [])
    (hps : socketPackets ps = []) : StepsMatch crates key (s, os) (t, ps) := by
  refine ⟨h, ?_⟩
  rw [hos, hps]
  exact List.Forall₂.nil

/-- Alike commands are both refused or run matching turns. -/
theorem process_matches (henc : EncryptsByLength crates) (hmode : config.encryption ≠ .none)
    (h : Lockstep s t) {command command' : RelayCommand} (hsame : SameCommand command command')
    (sent sent' : Except IoError Unit) :
    (process crates config s command sent = none ∧ process crates config t command' sent' = none) ∨
    ∃ a b, process crates config s command sent = some a ∧ process crates config t command' sent' = some b ∧
      TurnsMatch crates s.media.key a b := by
  cases hsame with
  | same command =>
    cases command with
    | send packet =>
      exact Or.inr ⟨_, _, rfl, rfl, h.sequence, h.media, rfl, sendPacket_same (by decide) _ _ _⟩
    | sendPcm frame =>
      refine Or.inr ⟨_, _, rfl, rfl, ?_⟩
      rw [← h.sequence, ← h.media]
      exact sendPcm_matches henc hmode s.sequence s.media rfl sent sent'
    | sendControl packetType payload =>
      refine Or.inr ⟨_, _, rfl, rfl, ?_⟩
      rw [← h.sequence, ← h.media]
      exact sendControl_matches s.sequence s.media packetType payload sent sent'
    | disconnect => exact Or.inl ⟨rfl, rfl⟩
  | frames hlen =>
    refine Or.inr ⟨_, _, rfl, rfl, ?_⟩
    rw [← h.sequence, ← h.media]
    exact sendPcm_matches henc hmode s.sequence s.media hlen sent sent'

theorem Lockstep.withCommands (h : Lockstep s t) {c d : Channel RelayCommand}
    (hcd : Channel.Rel SameCommand c d) : Lockstep { s with commands := c } { t with commands := d } :=
  ⟨h.client, h.worker, h.running, h.sequence, h.media, hcd⟩

/-- Reading a datagram, or failing to, takes the worker to the head of its loop and touches nothing else that is
compared. -/
theorem recv_silent {env : Env} (hpc : s.worker = .recv)
    (hs : workerStep crates config s env = some (s', os)) :
    s'.client = s.client ∧ s'.worker = .head ∧ s'.running = s.running ∧ s'.sequence = s.sequence ∧
      s'.media = s.media ∧ s'.commands = s.commands ∧ socketPackets os = [] := by
  simp only [workerStep, hpc] at hs
  split at hs
  · rename_i datagram _
    obtain ⟨rfl, rfl⟩ := Prod.mk.inj (Option.some.inj hs)
    obtain ⟨hseq, hmedia⟩ := receive_counters crates s.sequence s.media (datagram.take receiveBufferLen)
    exact ⟨rfl, if_neg (by rw [receive_ok]; decide), rfl, hseq, hmedia, rfl, receive_socket _ _ _ _⟩
  · split at hs
    · obtain ⟨rfl, rfl⟩ := Prod.mk.inj (Option.some.inj hs)
      exact ⟨rfl, rfl, rfl, rfl, rfl, rfl, rfl⟩
    · obtain ⟨rfl, rfl⟩ := Prod.mk.inj (Option.some.inj hs)
      exact ⟨rfl, rfl, rfl, rfl, rfl, rfl, rfl⟩

/-- A pair of matching worker steps. -/
theorem workerStep_matches (henc : EncryptsByLength crates) (hmode : config.encryption ≠ .none)
    (h : Lockstep s t) {env env' : Env}
    (hdue : config.keepaliveInterval ≤ env.elapsed ↔ config.keepaliveInterval ≤ env'.elapsed)
    (hs : workerStep crates config s env = some (s', os))
    (ht : workerStep crates config t env' = some (t', ps)) :
    StepsMatch crates s.media.key (s', os) (t', ps) := by
  obtain ⟨client, worker, commands, events, running, localAddr, sequence, media⟩ := s
  obtain ⟨client', worker', commands', events', running', localAddr', sequence', media'⟩ := t
  obtain ⟨rfl, rfl, rfl, rfl, rfl, hcommands⟩ := h
  have h : Lockstep ⟨client, worker, commands, events, running, localAddr, sequence, media⟩
      ⟨client, worker, commands', events', running, localAddr', sequence, media⟩ :=
    ⟨rfl, rfl, rfl, rfl, rfl, hcommands⟩
  -- the steps that only move: flag, place and queue may change, nothing is sent
  have hmove : ∀ running' next c d taken taken', Channel.Rel SameCommand c d →
      socketPackets taken = [] → socketPackets taken' = [] →
      StepsMatch crates media.key
        (⟨client, next, c, events, running', localAddr, sequence, media⟩, taken)
        (⟨client, next, d, events', running', localAddr', sequence, media⟩, taken') := by
    intro running' next c d taken taken' hcd
    have hlockstep : Lockstep ⟨client, next, c, events, running', localAddr, sequence, media⟩
        ⟨client, next, d, events', running', localAddr', sequence, media⟩ := ⟨rfl, rfl, rfl, rfl, rfl, hcd⟩
    exact hlockstep.silent
  cases worker with
  | entry =>
    rw [← Option.some.inj hs, ← Option.some.inj ht]
    exact h.turn .join (offer_matches _ _ _ _)
  | join =>
    rw [← Option.some.inj hs, ← Option.some.inj ht]
    exact h.turn .head (sendControl_matches sequence media .join [] _ _)
  | head | recheck =>
    rw [← Option.some.inj hs, ← Option.some.inj ht]
    exact hmove _ _ _ _ _ _ hcommands rfl rfl
  | recvTimeout | drain =>
    -- the queues have alike fronts, or are both empty
    simp only [workerStep] at hs ht
    rcases hcommands.tryRecv with ⟨hc, hd⟩ | ⟨x, y, c, d, hc, hd, hxy, hcd⟩
    · rw [hc] at hs
      rw [hd] at ht
      rw [← Option.some.inj hs, ← Option.some.inj ht]
      exact hmove _ _ _ _ _ _ hcommands rfl rfl
    · rcases process_matches henc hmode h hxy env.sent env'.sent with ⟨hp, hp'⟩ | ⟨a, b, hp, hp', hab⟩
      · simp only [hc, hp] at hs
        simp only [hd, hp'] at ht
        rw [← Option.some.inj hs, ← Option.some.inj ht]
        exact hmove _ _ _ _ _ _ hcd rfl rfl
      · simp only [hc, hp] at hs
        simp only [hd, hp'] at ht
        rw [← Option.some.inj hs, ← Option.some.inj ht]
        exact (h.withCommands hcd).took .drain hab
  | keepalive =>
    simp only [workerStep] at hs ht
    by_cases hkeep : config.keepaliveInterval ≤ env.elapsed
    · rw [if_pos hkeep] at hs
      rw [if_pos (hdue.mp hkeep)] at ht
      rw [← Option.some.inj hs, ← Option.some.inj ht]
      exact h.turn .recv (sendControl_matches sequence media .keepalive [] _ _)
    · rw [if_neg hkeep] at hs
      rw [if_neg (fun hkeep' => hkeep (hdue.mpr hkeep'))] at ht
      rw [← Option.some.inj hs, ← Option.some.inj ht]
      exact hmove _ _ _ _ _ _ hcommands rfl rfl
  | recv =>
    -- the datagrams, or errors, of the two runs need not be alike: each reading is silent
    obtain ⟨hc, hw, hr, hq, hm, hcs, hnone⟩ := recv_silent rfl hs
    obtain ⟨hc', hw', hr', hq', hm', hcs', hnone'⟩ := recv_silent rfl ht
    have hlockstep : Lockstep s' t' :=
      ⟨hc.trans hc'.symm, hw.trans hw'.symm, hr.trans hr'.symm, hq.trans hq'.symm, hm.trans hm'.symm, by
        rw [hcs, hcs']
        exact hcommands⟩
    exact hlockstep.silent hnone hnone'
  | leave =>
    rw [← Option.some.inj hs, ← Option.some.inj ht]
    exact h.turn .stop (sendControl_matches sequence media .leave [] _ _)
  | stop =>
    rw [← Option.some.inj hs, ← Option.some.inj ht]
    exact h.turn .returned (offer_matches _ _ _ _)
  | returned | panicked => cases hs

theorem quiet_socket {effects : List Effect} (h : ∀ e ∈ effects, e.quiet = true) : socketPackets effects = [] :=
  socketPackets_of_handed (Effect.quiet_views h).1

theorem Lockstep.workerGone (h : Lockstep s t) : s.workerGone ↔ t.workerGone := by
  rw [Session.workerGone, Session.workerGone, h.worker]

theorem submit_matches (h : Lockstep s t) {command command' : RelayCommand}
    (hsame : SameCommand command command') : Lockstep (s.submit command).1 (t.submit command').1 := by
  unfold Session.submit
  by_cases hs : s.workerGone
  · rw [if_pos hs, if_pos (h.workerGone.mp hs)]
    exact h
  · rw [if_neg hs, if_neg (fun ht => hs (h.workerGone.mpr ht))]
    exact h.withCommands (h.commands.trySend hsame).2

/-- Asking for an event touches the event channel only. -/
theorem tryNextEvent_step (hs : clientStep s .tryNextEvent = some (s', os)) :
    ∃ events, s' = { s with events := events } := by
  cases clientStep_does hs with
  | submits _ hcommand => cases hcommand
  | takes => exact ⟨_, rfl⟩
  | finds => exact ⟨s.events, rfl⟩

theorem Lockstep.withEvents (h : Lockstep s t) (c d : Channel RelayEvent) :
    Lockstep { s with events := c } { t with events := d } :=
  ⟨h.client, h.worker, h.running, h.sequence, h.media, h.commands⟩

/-- A pair of alike client calls. -/
theorem clientStep_matches (h : Lockstep s t) {action action' : ClientAction} (hsame : SameAction action action')
    (hs : clientStep s action = some (s', os)) (ht : clientStep t action' = some (t', ps)) : Lockstep s' t' := by
  have hsubmit : ∀ command command', SameCommand command command' → s.submit command = (s', os) →
      t.submit command' = (t', ps) → Lockstep s' t' := by
    intro command command' hcommand heq heq'
    have hmatch := submit_matches h hcommand
    rw [heq, heq'] at hmatch
    exact hmatch
  obtain ⟨client, worker, commands, events, running, localAddr, sequence, media⟩ := s
  obtain ⟨client', worker', commands', events', running', localAddr', sequence', media'⟩ := t
  have h' := h
  obtain ⟨rfl, rfl, rfl, rfl, rfl, hcommands⟩ := h'
  cases hsame with
  | frames hlen =>
    cases client with
    | idle => exact hsubmit _ _ (.frames hlen) (Option.some.inj hs) (Option.some.inj ht)
    | posting | joining | gone => cases hs
  | same action =>
    cases client with
    | idle =>
      cases action with
      | send _ | sendControl _ _ | sendPcmFrame _ =>
        exact hsubmit _ _ (.same _) (Option.some.inj hs) (Option.some.inj ht)
      | tryNextEvent =>
        obtain ⟨c, rfl⟩ := tryNextEvent_step hs
        obtain ⟨d, rfl⟩ := tryNextEvent_step ht
        exact h.withEvents c d
      | disconnect =>
        cases running with
        | true =>
          obtain ⟨rfl, rfl⟩ := Prod.mk.inj (Option.some.inj hs)
          obtain ⟨rfl, rfl⟩ := Prod.mk.inj (Option.some.inj ht)
          exact ⟨rfl, rfl, rfl, rfl, rfl, hcommands⟩
        | false =>
          obtain ⟨rfl, rfl⟩ := Prod.mk.inj (Option.some.inj hs)
          obtain ⟨rfl, rfl⟩ := Prod.mk.inj (Option.some.inj ht)
          exact h
      | release =>
        cases running with
        | true => cases hs
        | false =>
          obtain ⟨rfl, rfl⟩ := Prod.mk.inj (Option.some.inj hs)
          obtain ⟨rfl, rfl⟩ := Prod.mk.inj (Option.some.inj ht)
          exact ⟨rfl, rfl, rfl, rfl, rfl, hcommands⟩
      | postDisconnect | joinWorker => cases hs
    | posting =>
      cases action with
      | postDisconnect =>
        obtain ⟨rfl, rfl⟩ := Prod.mk.inj (Option.some.inj hs)
        obtain ⟨rfl, rfl⟩ := Prod.mk.inj (Option.some.inj ht)
        have hmatch := submit_matches h (.same .disconnect)
        exact ⟨rfl, hmatch.worker, hmatch.running, hmatch.sequence, hmatch.media, hmatch.commands⟩
      | _ => cases hs
    | joining =>
      cases action with
      | joinWorker =>
        simp only [clientStep] at hs ht
        split at hs
        · rename_i hgone
          obtain ⟨rfl, rfl⟩ := Prod.mk.inj (Option.some.inj hs)
          rw [if_pos (h.workerGone.mp hgone)] at ht
          obtain ⟨rfl, rfl⟩ := Prod.mk.inj (Option.some.inj ht)
          exact ⟨rfl, rfl, rfl, rfl, rfl, hcommands⟩
        · cases hs
      | _ => cases hs
    | gone => cases action <;> cases hs

/-- **A pair of alike steps** keeps the lockstep and sends related packets. -/
theorem step_matches (henc : EncryptsByLength crates) (hmode : config.encryption ≠ .none) (h : Lockstep s t)
    {label label' : Label} (hsame : SameLabel config label label')
    (hs : step crates config s label = some (s', os)) (ht : step crates config t label' = some (t', ps)) :
    StepsMatch crates s.media.key (s', os) (t', ps) := by
  cases hsame with
  | client haction =>
    obtain ⟨-, -, hquiet⟩ := clientStep_quiet hs
    obtain ⟨-, -, hquiet'⟩ := clientStep_quiet ht
    exact (clientStep_matches h haction hs ht).silent (quiet_socket hquiet) (quiet_socket hquiet')
  | worker hdue => exact workerStep_matches henc hmode h hdue hs ht

end Steps

/-! ## §4 — the runs -/

/-- A packet of `send_pcm` is sealed, and there is a key. -/
def SealedAudio (config : RelayConfig) (packet : Origin × Packet) : Prop :=
  packet.1 = .pcm → config.encryption = .aesGcmV2 ∧
    ∃ header security payload tag, packet.2 = .secured header security payload tag

theorem SameOutside.sealedAudio {crates : CryptoCrates} {config : RelayConfig} {x y : Origin × Packet}
    (h : SameOutside crates (mediaKey crates config) x y) : SealedAudio config x ∧ SealedAudio config y := by
  cases h with
  | same horigin => exact ⟨fun hpcm => absurd hpcm horigin, fun hpcm => absurd hpcm horigin⟩
  | @«sealed» header security payload payload' _ _ tag tag' k hkey =>
    have hmode : config.encryption = .aesGcmV2 := by
      by_contra hne
      rw [mediaKey, if_pos hne] at hkey
      cases hkey
    exact ⟨fun _ => ⟨hmode, header, security, payload, tag, rfl⟩,
      fun _ => ⟨hmode, header, security, payload', tag', rfl⟩⟩

/-- The datagrams are the encodings of the packets that reach the socket. -/
def DatagramsEncode (effects : List Effect) : Prop :=
  List.Forall₂ (fun packet bytes => packet.2.encode = .ok bytes) (socketPackets effects)
    (effects.filterMap Effect.datagram?)

theorem DatagramsEncode.append {a b : List Effect} (ha : DatagramsEncode a) (hb : DatagramsEncode b) :
    DatagramsEncode (a ++ b) := by
  unfold DatagramsEncode
  rw [socketPackets_append, List.filterMap_append]
  exact List.rel_append ha hb

theorem datagramsEncode_of_none {effects : List Effect} (hhanded : effects.filterMap Effect.handed? = [])
    (hdatagram : effects.filterMap Effect.datagram? = []) : DatagramsEncode effects := by
  unfold DatagramsEncode
  rw [socketPackets_of_handed hhanded, hdatagram]
  exact List.Forall₂.nil

theorem DatagramsEncode.cons {e : Effect} {rest : List Effect} (hhanded : e.handed? = none)
    (hdatagram : e.datagram? = none) (hrest : DatagramsEncode rest) : DatagramsEncode (e :: rest) := by
  have hone : DatagramsEncode [e] := by
    apply datagramsEncode_of_none
    · rw [List.filterMap_cons, hhanded]
      rfl
    · rw [List.filterMap_cons, hdatagram]
      rfl
  exact hone.append hrest

theorem sendPacket_datagramsEncode (origin : Origin) (packet : Packet) (sent : Except IoError Unit) :
    DatagramsEncode (sendPacket origin packet sent) := by
  unfold DatagramsEncode
  rw [sendPacket_socket, sendPacket_datagrams, List.filterMap_cons, List.filterMap_nil, encodes?]
  cases hencode : packet.encode with
  | error error => exact List.Forall₂.nil
  | ok bytes => exact List.Forall₂.cons hencode List.Forall₂.nil

section Runs

variable {crates : CryptoCrates} {config : RelayConfig}

theorem step_datagramsEncode {s s' : Session} {label : Label} {effects : List Effect}
    (h : step crates config s label = some (s', effects)) : DatagramsEncode effects := by
  have hdoes := step_does h
  generalize s'.sequence = sequence, s'.media = media at hdoes
  cases hdoes with
  | calls hquiet | quiet hquiet =>
    obtain ⟨hhanded, -, hdatagram⟩ := Effect.quiet_views hquiet
    exact datagramsEncode_of_none hhanded hdatagram
  | receives =>
    obtain ⟨hhanded, -, hdatagram⟩ := Effect.silent_views (receive_silent crates s.sequence s.media _)
    exact datagramsEncode_of_none hhanded hdatagram
  | forwards => exact .cons rfl rfl (sendPacket_datagramsEncode .client _ _)
  | controls htaken =>
    rcases htaken with rfl | rfl
    · exact sendPacket_datagramsEncode .control _ _
    · exact .cons rfl rfl (sendPacket_datagramsEncode .control _ _)
  | talks _ hturn =>
    apply DatagramsEncode.cons rfl rfl
    cases hturn with
    | plain => exact sendPacket_datagramsEncode .pcm _ _
    | «sealed» => exact .cons rfl rfl (sendPacket_datagramsEncode .pcm _ _)
    | _ => exact datagramsEncode_of_none rfl rfl

theorem run_datagramsEncode {s s' : Session} {labels : List Label} {effects : List Effect}
    (hrun : run (step crates config) s labels = some (s', effects)) : DatagramsEncode effects := by
  refine run_history (R := fun _ _ seen => DatagramsEncode seen) ?_ List.Forall₂.nil hrun
  intro s is seen i s' os hseen hstep
  exact hseen.append (step_datagramsEncode hstep)

theorem start_lockstep (addr₁ addr₂ : SocketAddr) (random : UInt64) :
    Lockstep (Session.start crates config addr₁ random) (Session.start crates config addr₂ random) :=
  ⟨rfl, rfl, rfl, rfl, rfl, rfl, List.Forall₂.nil⟩

/-- **What leaves the socket is independent of audio content and of the network.** For a mode other than `None`
and two runs from one initial nonce, whose schedules agree up to the content of PCM frames, to what the socket
receives and answers, and to when the client takes events: the packets that reach the socket agree one by one,
up to payload and tag of sealed audio; the datagrams of each run are their encodings; and a packet of `send_pcm`
is sealed, which takes mode AES-GCM v2. -/
theorem outbound_independent {addr₁ addr₂ : SocketAddr} {random : UInt64} {labels₁ labels₂ : List Label}
    {s₁ s₂ : Session} {effects₁ effects₂ : List Effect} (henc : EncryptsByLength crates)
    (hmode : config.encryption ≠ .none) (hmatched : Matched (SameLabel config) TakesEvent labels₁ labels₂)
    (hrun₁ : run (step crates config) (Session.start crates config addr₁ random) labels₁ = some (s₁, effects₁))
    (hrun₂ : run (step crates config) (Session.start crates config addr₂ random) labels₂ = some (s₂, effects₂)) :
    List.Forall₂ (SameOutside crates (mediaKey crates config)) (socketPackets effects₁) (socketPackets effects₂) ∧
    (DatagramsEncode effects₁ ∧ ∀ packet ∈ socketPackets effects₁, SealedAudio config packet) ∧
    (DatagramsEncode effects₂ ∧ ∀ packet ∈ socketPackets effects₂, SealedAudio config packet) := by
  have hpackets : List.Forall₂ (SameOutside crates (mediaKey crates config)) (socketPackets effects₁)
      (socketPackets effects₂) := by
    -- the states stay in lockstep, and the key is never replaced
    refine run_simulation (R := fun s t => Lockstep s t ∧ s.media.key = mediaKey crates config) ?_ ?_ ?_ hmatched
      _ _ s₁ s₂ effects₁ effects₂ ⟨start_lockstep addr₁ addr₂ random, rfl⟩ hrun₁ hrun₂
    · intro s t i j s' t' os ps ⟨hlock, hkey⟩ hsame hs ht
      obtain ⟨hlock', hout⟩ := step_matches henc hmode hlock hsame hs ht
      rw [hkey] at hout
      exact ⟨⟨hlock', (step_does hs).media_key.trans hkey⟩, hout⟩
    · rintro s t i s' os ⟨hlock, hkey⟩ rfl hs
      obtain ⟨-, -, hquiet⟩ := clientStep_quiet hs
      obtain ⟨events, rfl⟩ := tryNextEvent_step hs
      exact ⟨⟨hlock.withEvents events t.events, hkey⟩, quiet_socket hquiet⟩
    · rintro s t j t' ps ⟨hlock, hkey⟩ rfl ht
      obtain ⟨-, -, hquiet⟩ := clientStep_quiet ht
      obtain ⟨events, rfl⟩ := tryNextEvent_step ht
      exact ⟨⟨hlock.withEvents s.events events, hkey⟩, quiet_socket hquiet⟩
  have hflip : List.Forall₂ (flip (SameOutside crates (mediaKey crates config))) (socketPackets effects₂)
      (socketPackets effects₁) := List.Forall₂.flip hpackets
  have hleft := (List.forall₂_and_left _ _).mp (hpackets.imp fun _ _ h => ⟨h.sealedAudio.1, h⟩)
  have hright := (List.forall₂_and_left _ _).mp (hflip.imp fun _ _ h => ⟨(SameOutside.sealedAudio h).2, h⟩)
  exact ⟨hpackets, ⟨run_datagramsEncode hrun₁, hleft.1⟩, run_datagramsEncode hrun₂, hright.1⟩

end Runs

theorem tagCrates_encryptsByLength : EncryptsByLength tagCrates := by
  refine ⟨fun n => n + 16, ?_⟩
  intro key nonce msg aad hmsg haad
  obtain ⟨c, hc, hlen, -⟩ := tagCrates_aead key nonce msg aad hmsg haad
  exact ⟨c, hc, hlen⟩

/-- A silent frame over a quiet network. -/
def silence : List Label := [.client (.sendPcmFrame (List.replicate 320 0)), tick, tick, tick, tick]

/-- A worker step in which the send fails and a datagram arrives. -/
def failingTick : Label := .worker ⟨.error ⟨.other, "network unreachable"⟩, 0, .ok [1, 2, 3]⟩

/-- A loud frame over a failing network; the client takes the first event. -/
def noise : List Label :=
  [.client (.sendPcmFrame (List.replicate 320 0x7f)), failingTick, failingTick, .client .tryNextEvent, failingTick,
    failingTick]

theorem silence_noise : Matched (SameLabel (station .aesGcmV2)) TakesEvent silence noise := by
  have htick : SameLabel (station .aesGcmV2) tick failingTick := .worker Iff.rfl
  have hlen : (List.replicate 320 (0 : UInt8)).length = (List.replicate 320 (0x7f : UInt8)).length := by
    rw [List.length_replicate, List.length_replicate]
  exact .both (.client (.frames hlen)) (.both htick (.both htick (.right rfl (.both htick (.both htick .nil)))))

/-- One frame each, the one silent and the other not, over two networks. -/
theorem outbound_independent_silence :
    ∃ s t effects₁ effects₂,
      run (step tagCrates (station .aesGcmV2)) (Session.start tagCrates (station .aesGcmV2) stationAddr 5) silence =
        some (s, effects₁) ∧
      run (step tagCrates (station .aesGcmV2)) (Session.start tagCrates (station .aesGcmV2) stationAddr 5) noise =
        some (t, effects₂) ∧ (socketPackets effects₁).length = 2 ∧
      List.Forall₂ (SameOutside tagCrates (mediaKey tagCrates (station .aesGcmV2))) (socketPackets effects₁)
        (socketPackets effects₂) := by
  have hcount₁ : (run (step tagCrates (station .aesGcmV2))
      (Session.start tagCrates (station .aesGcmV2) stationAddr 5) silence).map
      (fun r => (socketPackets r.2).length) = some 2 := by decide +kernel
  have hcount₂ : (run (step tagCrates (station .aesGcmV2))
      (Session.start tagCrates (station .aesGcmV2) stationAddr 5) noise).isSome = true := by decide +kernel
  obtain ⟨⟨s, effects₁⟩, hrun₁, hlen₁⟩ := Option.map_eq_some_iff.mp hcount₁
  obtain ⟨⟨t, effects₂⟩, hrun₂⟩ := Option.isSome_iff_exists.mp hcount₂
  obtain ⟨hpackets, -⟩ :=
    outbound_independent tagCrates_encryptsByLength (by decide) silence_noise hrun₁ hrun₂
  exact ⟨s, t, effects₁, effects₂, hrun₁, hrun₂, hlen₁, hpackets⟩

end IncomUdon.Transport
