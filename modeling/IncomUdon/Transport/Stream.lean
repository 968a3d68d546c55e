/-
# IncomUdon.Transport.Stream — the shape and order of what a session sends.

`run_worker` sends Join, then answers the commands it takes with keepalives of its own in between, then sends Leave.
§1 writes that stream down as a list of turns, §2 carries it along the places of the loop, §3 follows the flag and
the two ends of the session through a shutdown, and §4 puts the two together.
-/
import IncomUdon.Lib.Past
import IncomUdon.Transport.Turns

namespace IncomUdon.Transport

open IncomUdon.Lib
open IncomUdon.Protocol
open IncomUdon.Crypto

/-! ## §1 — the stream -/

/-- One turn of the worker between its Join and its Leave. -/
inductive Entry where
  /-- A keepalive of its own. -/
  | keepalive (sequence : UInt16)
  /-- A command it took, with the packet that answers it, if there is one, and whose that is. -/
  | answer (command : RelayCommand) (packet : Option (Origin × Packet))

/-- The command that was taken. -/
def Entry.command? : Entry → Option RelayCommand
  | .keepalive _ => none
  | .answer command _ => some command

/-- The packet that answers it. -/
def Entry.answer? : Entry → Option (Origin × Packet)
  | .keepalive _ => none
  | .answer _ packet => packet

section

variable (crates : CryptoCrates) (config : RelayConfig)

/-- The packet of the turn. -/
def Entry.handed? : Entry → Option (Origin × Packet)
  | .keepalive sequence => some (.control, controlPacket config sequence .keepalive [])
  | .answer _ packet => packet

/-- **The worker's turns** behind its Join, with the counters they leave: each turn finds the sequence number and the
media state that the one before it left. A packet of the client goes out as it is, a control command is built, a frame
is answered by what `send_pcm` makes of it, and `Disconnect` by nothing. -/
inductive Turns (start : MediaState) : List Entry → UInt16 → MediaState → Prop where
  | nil : Turns start [] 1 start
  | keepalive {body : List Entry} {sequence : UInt16} {media : MediaState} (before : Turns start body sequence media) :
      Turns start (body ++ [.keepalive sequence]) (sequence + 1) media
  | send {body : List Entry} {sequence : UInt16} {media : MediaState} (packet : Packet)
      (before : Turns start body sequence media) :
      Turns start (body ++ [.answer (.send packet) (some (.client, packet))]) sequence media
  | sendControl {body : List Entry} {sequence : UInt16} {media : MediaState} (packetType : PacketType)
      (payload : Bytes) (before : Turns start body sequence media) :
      Turns start (body ++ [.answer (.sendControl packetType payload)
        (some (.control, controlPacket config sequence packetType payload))]) (sequence + 1) media
  | sendPcm {body : List Entry} {sequence : UInt16} {media : MediaState} (frame : Bytes) (sent : Except IoError Unit)
      {packet : Option (Origin × Packet)} (before : Turns start body sequence media)
      (hpacket : (sendPcm crates config sequence media frame sent).effects.filterMap Effect.handed? = packet.toList) :
      Turns start (body ++ [.answer (.sendPcm frame) packet]) (sendPcm crates config sequence media frame sent).sequence
        (sendPcm crates config sequence media frame sent).media
  | disconnect {body : List Entry} {sequence : UInt16} {media : MediaState} (before : Turns start body sequence media) :
      Turns start (body ++ [.answer .disconnect none]) sequence media

/-- The packet is what the command leads to, at some place of the stream: a frame is sent in the clear or sealed under
the session's key. -/
def Answers : RelayCommand → Origin × Packet → Prop
  | .send packet, handed => handed = (.client, packet)
  | .sendControl packetType payload, handed =>
      ∃ sequence, handed = (.control, controlPacket config sequence packetType payload)
  | .sendPcm frame, handed => ∃ sequence media sent, media.key = mediaKey crates config ∧
      (sendPcm crates config sequence media frame sent).effects.filterMap Effect.handed? = [handed]
  | .disconnect, _ => False

/-- The commands that lead to a packet: all but `Disconnect`, a slice that is no frame, and a frame in AES-GCM v1
mode, for which the worker has no key. -/
def RelayCommand.producesPacket : RelayCommand → Bool
  | .send _ => true
  | .sendControl _ _ => true
  | .sendPcm frame => decide (frame.length = 320 ∧ config.encryption ≠ .aesGcmV1)
  | .disconnect => false

/-- Join with sequence 0, and the turns behind it. -/
def joined (body : List Entry) : List (Origin × Packet) :=
  (.control, controlPacket config 0 .join []) :: body.filterMap (Entry.handed? config)

/-- That, and a Leave with the number that comes next. -/
def Whole (start : MediaState) (handed : List (Origin × Packet)) (body : List Entry) : Prop :=
  ∃ sequence media, Turns crates config start body sequence media ∧
    handed = joined config body ++ [(.control, controlPacket config sequence .leave [])]

/-- How much of the stream has been handed over at each place of the loop, and which counters it left. -/
def StreamAt (start : MediaState) (pc : WorkerPc) (sequence : UInt16) (media : MediaState)
    (handed : List (Origin × Packet)) (body : List Entry) : Prop :=
  match pc with
  | .entry | .join => handed = [] ∧ body = [] ∧ sequence = 0 ∧ media = start
  | .stop | .returned => Whole crates config start handed body
  | .panicked => True
  | _ => Turns crates config start body sequence media ∧ handed = joined config body

end

/-- The worker is on its way out. -/
def Leaving (s : Session) : Prop :=
  (s.worker = .recheck ∧ s.running = false) ∨ s.worker = .leave ∨ s.worker = .stop ∨ s.worker = .returned

/-- What holds so far: the stream up to the worker's place answers the commands taken, in order, and `Disconnect` was
the last of them. -/
structure StreamInv (crates : CryptoCrates) (config : RelayConfig) (start : MediaState) (s : Session)
    (effects : List Effect) : Prop where
  stream : ∃ body : List Entry, effects.filterMap Effect.took? = body.filterMap Entry.command? ∧
    StreamAt crates config start s.worker s.sequence s.media (effects.filterMap Effect.handed?) body
  order : Guarded (fun before _ => .disconnect ∉ before) (effects.filterMap Effect.took?)
  leaving : .disconnect ∈ effects.filterMap Effect.took? → Leaving s

/-! ## §2 — the worker's steps -/

section

variable {crates : CryptoCrates} {config : RelayConfig} {start : MediaState} {s s' : Session}
  {seen effects : List Effect}

/-- **Processing a command** is one more turn. -/
theorem process_turns {command : RelayCommand} {sent : Except IoError Unit} {turn : Turn} {body : List Entry}
    (h : process crates config s command sent = some turn)
    (hbefore : Turns crates config start body s.sequence s.media) :
    ∃ packet, Turns crates config start (body ++ [.answer command packet]) turn.sequence turn.media ∧
      turn.effects.filterMap Effect.handed? = packet.toList := by
  cases command with
  | send packet =>
    obtain rfl := Option.some.inj h
    exact ⟨_, hbefore.send packet, sendPacket_handed .client packet sent⟩
  | sendControl packetType payload =>
    obtain rfl := Option.some.inj h
    exact ⟨_, hbefore.sendControl packetType payload, sendPacket_handed .control _ sent⟩
  | sendPcm frame =>
    obtain rfl := Option.some.inj h
    have hsends := sendPcm_sends crates config s.sequence s.media frame sent
    -- whatever becomes of the frame, there is one packet or none
    have hpacket : ∃ packet : Option (Origin × Packet),
        (sendPcm crates config s.sequence s.media frame sent).effects.filterMap Effect.handed? = packet.toList := by
      generalize sendPcm crates config s.sequence s.media frame sent = turn at hsends
      cases hsends with
      | plain => exact ⟨some _, sendPacket_handed .pcm _ sent⟩
      | «sealed» => exact ⟨some _, sendPacket_handed .pcm _ sent⟩
      | _ => exact ⟨none, rfl⟩
    obtain ⟨packet, hpacket⟩ := hpacket
    exact ⟨packet, hbefore.sendPcm frame sent hpacket, hpacket⟩
  | disconnect => cases h

/-- Going on to another place hands over nothing. -/
theorem Goes.streamAt {pc : WorkerPc} {running : Bool} {sequence : UInt16} {media : MediaState}
    {handed : List (Origin × Packet)} {body : List Entry} (h : Goes s pc running)
    (hstream : StreamAt crates config start s.worker sequence media handed body) :
    StreamAt crates config start pc sequence media handed body := by
  cases h with
  | dies => trivial
  | connected hpc | runs hpc | isStopped hpc | timesOut hpc | isClosed hpc | drained hpc | drainsClosed hpc
  | goesOn hpc | givesUp hpc | notDue hpc | received hpc | returns hpc =>
    rw [hpc] at hstream
    exact hstream

theorem Goes.leaving {pc : WorkerPc} {running : Bool} (h : Goes s pc running) (hleaving : Leaving s) :
    (pc = .recheck ∧ running = false) ∨ pc = .leave ∨ pc = .stop ∨ pc = .returned := by
  cases h with
  | returns => simp
  | givesUp | isStopped | isClosed => simp
  | drainsClosed => simp
  | goesOn hpc hrunning => simp [Leaving, hpc, hrunning] at hleaving
  | connected hpc | runs hpc | timesOut hpc | drained hpc | notDue hpc | received hpc | dies hpc =>
    simp [Leaving, hpc] at hleaving

/-- A step that takes nothing and hands over nothing. -/
theorem StreamInv.idle (hinv : StreamInv crates config start s seen) (htook : effects.filterMap Effect.took? = [])
    (hhanded : effects.filterMap Effect.handed? = [])
    (hplace : ∀ handed body, StreamAt crates config start s.worker s.sequence s.media handed body →
      StreamAt crates config start s'.worker s'.sequence s'.media handed body)
    (hleaving : Leaving s → Leaving s') : StreamInv crates config start s' (seen ++ effects) := by
  obtain ⟨body, hcommands, hstream⟩ := hinv.stream
  have htook' : (seen ++ effects).filterMap Effect.took? = seen.filterMap Effect.took? := by
    rw [List.filterMap_append, htook, List.append_nil]
  have hhanded' : (seen ++ effects).filterMap Effect.handed? = seen.filterMap Effect.handed? := by
    rw [List.filterMap_append, hhanded, List.append_nil]
  refine ⟨⟨body, htook'.trans hcommands, ?_⟩, ?_, ?_⟩
  · rw [hhanded']
    exact hplace _ _ hstream
  · rw [htook']
    exact hinv.order
  · rw [htook']
    exact fun h => hleaving (hinv.leaving h)

/-- **The client's calls** leave the stream alone. -/
theorem StreamInv.client (hinv : StreamInv crates config start s seen) {action : ClientAction}
    (h : clientStep s action = some (s', effects)) : StreamInv crates config start s' (seen ++ effects) := by
  obtain ⟨hworker, -, htook, hrunning⟩ := clientStep_turn h
  obtain ⟨hsequence, hmedia, hquiet⟩ := clientStep_quiet h
  refine hinv.idle htook (Effect.quiet_views hquiet).1 ?_ ?_
  · rw [hworker, hsequence, hmedia]
    exact fun _ _ hstream => hstream
  · unfold Leaving
    rw [hworker]
    rintro (⟨hpc, hstopped⟩ | hlater)
    · -- the flag is never set again
      refine Or.inl ⟨hpc, ?_⟩
      rcases hrunning with hsame | hcleared
      · rw [hsame, hstopped]
      · exact hcleared
    · exact Or.inr hlater

/-- A command is taken only while the stream is open and `Disconnect` was not taken before. -/
theorem StreamInv.taking (hinv : StreamInv crates config start s seen)
    (hpc : s.worker = .recvTimeout ∨ s.worker = .drain) :
    .disconnect ∉ seen.filterMap Effect.took? ∧ ∃ body : List Entry,
      seen.filterMap Effect.took? = body.filterMap Entry.command? ∧
      Turns crates config start body s.sequence s.media ∧ seen.filterMap Effect.handed? = joined config body := by
  obtain ⟨body, hcommands, hstream⟩ := hinv.stream
  refine ⟨?_, body, hcommands, ?_⟩
  · intro hended
    rcases hpc with hpc | hpc <;> simpa [Leaving, hpc] using hinv.leaving hended
  · rcases hpc with hpc | hpc
    · rw [hpc] at hstream
      exact hstream
    · rw [hpc] at hstream
      exact hstream

/-- The stream with one more turn. -/
theorem joined_concat (body : List Entry) (entry : Entry) :
    joined config (body ++ [entry]) = joined config body ++ (entry.handed? config).toList := by
  rw [joined, joined, List.filterMap_append]
  cases hentry : entry.handed? config with
  | none =>
    simp [hentry]
  | some handed =>
    simp [hentry]

/-- One more turn of the worker, with the command it took, if any. -/
theorem StreamInv.turn (hinv : StreamInv crates config start s seen) {body : List Entry} (entry : Entry)
    (hcommands : seen.filterMap Effect.took? = body.filterMap Entry.command?)
    (hhanded : seen.filterMap Effect.handed? = joined config body)
    (htook : effects.filterMap Effect.took? = entry.command?.toList)
    (hhands : effects.filterMap Effect.handed? = (entry.handed? config).toList)
    (hplace : StreamAt crates config start s'.worker s'.sequence s'.media (joined config (body ++ [entry]))
      (body ++ [entry]))
    (hnone : entry.command? ≠ none → .disconnect ∉ seen.filterMap Effect.took?)
    (hleaving : (.disconnect ∈ seen.filterMap Effect.took? ∨ entry.command? = some .disconnect) → Leaving s') :
    StreamInv crates config start s' (seen ++ effects) := by
  have htook' : (seen ++ effects).filterMap Effect.took? = seen.filterMap Effect.took? ++ entry.command?.toList := by
    rw [List.filterMap_append, htook]
  refine ⟨⟨body ++ [entry], ?_, ?_⟩, ?_, ?_⟩
  · rw [htook', hcommands, List.filterMap_append]
    cases hcommand : entry.command? <;> simp [hcommand]
  · rw [List.filterMap_append, hhanded, hhands, ← joined_concat]
    exact hplace
  · rw [htook']
    cases hcommand : entry.command? with
    | none =>
      rw [Option.toList_none, List.append_nil]
      exact hinv.order
    | some command => exact hinv.order.concat (hnone (by simp [hcommand]))
  · rw [htook']
    intro hmem
    apply hleaving
    rcases List.mem_append.mp hmem with hold | hnew
    · exact Or.inl hold
    · exact Or.inr (Option.mem_toList.mp hnew)

/-- **The worker's steps** keep the stream going. -/
theorem StreamInv.worker (hinv : StreamInv crates config start s seen) {env : Env}
    (h : workerStep crates config s env = some (s', effects)) : StreamInv crates config start s' (seen ++ effects) := by
  obtain ⟨-, -, hdoes⟩ := workerStep_turn h
  cases hdoes with
  | goes hgoes hcommands hsequence hevents hmedia =>
    have hnone : effects.filterMap Effect.took? = [] ∧ effects.filterMap Effect.handed? = [] := by
      rw [List.filterMap_eq_nil_iff, List.filterMap_eq_nil_iff]
      constructor
      · intro e he
        obtain ⟨event, rfl⟩ := hevents e he
        rfl
      · intro e he
        obtain ⟨event, rfl⟩ := hevents e he
        rfl
    refine hinv.idle hnone.1 hnone.2 ?_ hgoes.leaving
    rw [hsequence, hmedia]
    exact fun _ _ => hgoes.streamAt
  | @takes command turn hpc hqueue hturn hworker hrunning heffects hcounters =>
    obtain ⟨hnone, body, hcommands, hturns, hhanded⟩ := hinv.taking hpc
    obtain ⟨packet, hturns', hhands⟩ := process_turns hturn hturns
    subst heffects
    have htook : (Effect.took command :: turn.effects).filterMap Effect.took? = [command] := by
      show command :: turn.effects.filterMap Effect.took? = [command]
      rw [outward_view took_of_outward (process_outward hturn)]
    refine hinv.turn (.answer command packet) hcommands hhanded htook hhands ?_ (fun _ => hnone) ?_
    · rw [hworker, hcounters.1, hcounters.2]
      split
      · trivial
      · exact ⟨hturns', rfl⟩
    · rintro (hended | hlast)
      · exact absurd hended hnone
      · -- `Disconnect` is not processed
        obtain rfl := Option.some.inj hlast
        cases hturn
  | ends hqueue hafter heffects hcounters =>
    have hpc : s.worker = .recvTimeout ∨ s.worker = .drain := by
      rcases hafter with ⟨hpc, -⟩ | ⟨hpc, -⟩
      · exact Or.inl hpc
      · exact Or.inr hpc
    obtain ⟨hnone, body, hcommands, hturns, hhanded⟩ := hinv.taking hpc
    subst heffects
    refine hinv.turn (.answer .disconnect none) hcommands hhanded rfl rfl ?_ (fun _ => hnone) ?_
    · rw [hcounters.1, hcounters.2]
      rcases hafter with ⟨-, hworker, -⟩ | ⟨-, hworker, -⟩
      · rw [hworker]
        exact ⟨hturns.disconnect, rfl⟩
      · rw [hworker]
        exact ⟨hturns.disconnect, rfl⟩
    · intro _
      rcases hafter with ⟨-, hworker, -⟩ | ⟨-, hworker, hcleared⟩
      · exact Or.inr (Or.inl hworker)
      · exact Or.inl ⟨hworker, hcleared⟩
  | @owns packetType hplace hcommands hrunning heffects hcounters =>
    obtain ⟨body, htaken, hstream⟩ := hinv.stream
    have htook : effects.filterMap Effect.took? = [] := by
      rw [heffects]
      exact outward_view took_of_outward (sendPacket_outward .control _ env.sent)
    have hhands : effects.filterMap Effect.handed? = [(.control, controlPacket config s.sequence packetType [])] := by
      rw [heffects, sendPacket_handed]
    have htook' : (seen ++ effects).filterMap Effect.took? = seen.filterMap Effect.took? := by
      rw [List.filterMap_append, htook, List.append_nil]
    generalize hpc : s.worker = pc at hplace
    generalize hpc' : s'.worker = pc' at hplace
    cases hplace with
    | join =>
      -- the first packet: the counters have not been used yet
      rw [hpc] at hstream
      obtain ⟨hnothing, rfl, hzero, hstart⟩ := hstream
      refine ⟨⟨[], htook'.trans htaken, ?_⟩, ?_, ?_⟩
      · rw [hpc', List.filterMap_append, hnothing, hhands, hcounters.1, hcounters.2, hzero, hstart]
        exact ⟨.nil, rfl⟩
      · rw [htook']
        exact hinv.order
      · rw [htook', htaken]
        exact fun h => nomatch h
    | keepalive =>
      rw [hpc] at hstream
      refine hinv.turn (.keepalive s.sequence) htaken hstream.2 htook hhands ?_ ?_ ?_
      · rw [hpc', hcounters.1, hcounters.2]
        exact ⟨hstream.1.keepalive, rfl⟩
      · exact fun h => absurd rfl h
      · rintro (hended | hlast)
        · simpa [Leaving, hpc] using hinv.leaving hended
        · cases hlast
    | leave =>
      rw [hpc] at hstream
      refine ⟨⟨body, htook'.trans htaken, ?_⟩, ?_, ?_⟩
      · rw [hpc', List.filterMap_append, hhands]
        exact ⟨s.sequence, s.media, hstream.1, congrArg (· ++ _) hstream.2⟩
      · rw [htook']
        exact hinv.order
      · exact fun _ => Or.inr (Or.inr (Or.inl hpc'))

theorem run_stream {localAddr : SocketAddr} {random : UInt64} {labels : List Label}
    (hrun : run (step crates config) (Session.start crates config localAddr random) labels = some (s, effects)) :
    StreamInv crates config (MediaState.new crates config random) s effects := by
  refine run_history (R := fun s _ seen => StreamInv crates config (MediaState.new crates config random) s seen)
    ?_ ?_ hrun
  · intro s _ seen label s' es hinv hstep
    cases label with
    | client action => exact hinv.client hstep
    | worker env => exact hinv.worker hstep
  · exact ⟨⟨[], rfl, rfl, rfl, rfl, rfl⟩, guarded_nil, fun h => nomatch h⟩

/-- **A frame gets a packet** exactly where its command produces one, with crates that keep their laws. -/
theorem SendsPcm.produces (haead : AeadLaws crates) (hhkdf : HkdfExpands crates) {sequence : UInt16}
    {media : MediaState} {frame : Bytes} {sent : Except IoError Unit} {turn : Turn}
    (hkey : media.key = mediaKey crates config) (h : SendsPcm crates config sequence media frame sent turn) :
    if RelayCommand.producesPacket config (.sendPcm frame) then
      ∃ handed, turn.effects.filterMap Effect.handed? = [handed]
    else turn.effects.filterMap Effect.handed? = [] := by
  -- the modes in which there is a key
  have hmodes : (∃ key, media.key = some key) ↔ config.encryption = .aesGcmV2 := by
    rw [hkey]
    refine ⟨fun ⟨key, hsome⟩ => ?_, mediaKey_isSome hhkdf⟩
    by_contra hne
    rw [mediaKey, if_pos hne] at hsome
    cases hsome
  cases h with
  | wrongLength hbad =>
    rw [if_neg (by simp [RelayCommand.producesPacket, hbad])]
    rfl
  | plain hlen hmode =>
    rw [if_pos (by simp [RelayCommand.producesPacket, hlen, hmode])]
    exact ⟨_, sendPacket_handed .pcm _ sent⟩
  | @«sealed» key _ _ hlen _ hsome =>
    rw [if_pos (by simp [RelayCommand.producesPacket, hlen, hmodes.mp ⟨key, hsome⟩])]
    exact ⟨_, sendPacket_handed .pcm _ sent⟩
  | @shortCiphertext key encrypted hlen _ _ hcall hshort =>
    -- a ciphertext has its tag
    obtain ⟨c, hc, hclen, -⟩ := pcmCall_of_laws config haead sequence media key hlen
    rw [hcall, Except.ok.injEq] at hc
    rw [hc, hclen, authTagLen] at hshort
    omega
  | @encryptionFailed key error hlen _ _ hcall =>
    obtain ⟨c, hc, -⟩ := pcmCall_of_laws config haead sequence media key hlen
    rw [hcall] at hc
    cases hc
  | noKey hlen hmode hnone =>
    have hv1 : config.encryption = .aesGcmV1 := by
      cases henc : config.encryption with
      | none => exact absurd henc hmode
      | aesGcmV1 => rfl
      | aesGcmV2 =>
        obtain ⟨key, hsome⟩ := hmodes.mpr henc
        rw [hnone] at hsome
        cases hsome
    rw [if_neg (by simp [RelayCommand.producesPacket, hv1])]
    rfl

/-- **Commands and packets correspond**: in order, the commands that produce a packet and the packets that answer
commands, one to one. -/
theorem Turns.correspond (haead : AeadLaws crates) (hhkdf : HkdfExpands crates) {body : List Entry}
    {sequence : UInt16} {media : MediaState} (hkey : start.key = mediaKey crates config)
    (h : Turns crates config start body sequence media) :
    media.key = mediaKey crates config ∧ List.Forall₂ (Answers crates config)
      ((body.filterMap Entry.command?).filter (RelayCommand.producesPacket config))
      (body.filterMap Entry.answer?) := by
  induction h with
  | nil => exact ⟨hkey, .nil⟩
  | keepalive _ ih =>
    rw [List.filterMap_append, List.filterMap_append, List.filter_append]
    exact ⟨ih.1, List.rel_append ih.2 .nil⟩
  | send packet _ ih =>
    rw [List.filterMap_append, List.filterMap_append, List.filter_append]
    exact ⟨ih.1, List.rel_append ih.2 (.cons rfl .nil)⟩
  | sendControl packetType payload _ ih =>
    rw [List.filterMap_append, List.filterMap_append, List.filter_append]
    exact ⟨ih.1, List.rel_append ih.2 (.cons ⟨_, rfl⟩ .nil)⟩
  | @sendPcm body sequence media frame sent packet _ hpacket ih =>
    obtain ⟨hmedia, hsofar⟩ := ih
    have hsends := sendPcm_sends crates config sequence media frame sent
    refine ⟨hsends.media_key.trans hmedia, ?_⟩
    rw [List.filterMap_append, List.filterMap_append, List.filter_append]
    refine List.rel_append hsofar ?_
    have hproduces := hsends.produces haead hhkdf hmedia
    rw [hpacket] at hproduces
    by_cases hable : RelayCommand.producesPacket config (.sendPcm frame)
    · rw [if_pos hable] at hproduces
      obtain ⟨handed, hone⟩ := hproduces
      obtain rfl : packet = some handed := by
        cases packet <;> simp_all
      have hfilter : List.filter (RelayCommand.producesPacket config) [.sendPcm frame] = [.sendPcm frame] := by
        simp [hable]
      show List.Forall₂ _ (List.filter _ [RelayCommand.sendPcm frame]) [handed]
      rw [hfilter]
      exact .cons ⟨sequence, media, sent, hmedia, hpacket⟩ .nil
    · rw [if_neg hable] at hproduces
      obtain rfl : packet = none := by
        cases packet <;> simp_all
      have hfilter : List.filter (RelayCommand.producesPacket config) [.sendPcm frame] = [] := by
        simp [hable]
      show List.Forall₂ _ (List.filter _ [RelayCommand.sendPcm frame]) []
      rw [hfilter]
      exact .nil
  | disconnect _ ih =>
    rw [List.filterMap_append, List.filterMap_append, List.filter_append]
    exact ⟨ih.1, List.rel_append ih.2 .nil⟩

/-! ## §3 — the end of a session -/

/-- What holds of flag, queue and the two threads at any time. -/
structure Shutdown (s : Session) (effects : List Effect) : Prop where
  /-- Past the `swap` of `disconnect` the flag is clear. -/
  swapped : s.client ≠ .idle → s.running = false
  /-- `Disconnect` comes behind the `swap`. -/
  posted : .disconnect ∈ s.commands.queue → s.running = false
  /-- A client that is back from a shutdown has no worker any more. -/
  joined : s.running = false → s.client = .idle → s.workerGone
  returned : .disconnected ∈ effects → s.workerGone
  /-- The worker leaves its loop behind the `swap` only. -/
  early : s.running = true → s.worker ≠ .leave ∧ s.worker ≠ .stop ∧ s.worker ≠ .returned

/-- With the flag clear, two things are left to keep. -/
theorem Shutdown.of_stopped (hstopped : s'.running = false) (hjoined : s'.client = .idle → s'.workerGone)
    (hreturned : .disconnected ∈ effects → s'.workerGone) : Shutdown s' effects where
  swapped := fun _ => hstopped
  posted := fun _ => hstopped
  joined := fun _ => hjoined
  returned := hreturned
  early := by
    intro hrunning
    rw [hstopped] at hrunning
    cases hrunning

/-- A call that does not end in `disconnected` has not returned from `disconnect`. -/
theorem not_disconnected_submit (command : RelayCommand) : Effect.disconnected ∉ (s.submit command).2 := by
  obtain ⟨ok, heffects⟩ := s.submit_effects command
  rw [heffects]
  simp

theorem Shutdown.client (hinv : Shutdown s seen) {action : ClientAction}
    (h : clientStep s action = some (s', effects)) : Shutdown s' (seen ++ effects) := by
  have hdoes := clientStep_does h
  cases hdoes with
  | @submits action command hidle hcommand =>
    have hne := idle_submits hidle hcommand h
    obtain ⟨hsame, hqueue, -⟩ := s.submit_spec command
    obtain ⟨ok, heffects⟩ := s.submit_effects command
    have hposted : .disconnect ∈ (s.submit command).1.commands.queue → s.running = false := by
      rw [hqueue, heffects]
      intro hmem
      rcases List.mem_append.mp hmem with hold | hnew
      · exact hinv.posted hold
      · cases ok with
        | true => exact absurd (List.mem_singleton.mp hnew).symm hne
        | false => cases hnew
    rw [hsame]
    refine ⟨hinv.swapped, hposted, hinv.joined, ?_, hinv.early⟩
    intro hmem
    exact hinv.returned ((List.mem_append.mp hmem).resolve_right (not_disconnected_submit command))
  | takes | finds =>
    refine ⟨hinv.swapped, hinv.posted, hinv.joined, ?_, hinv.early⟩
    intro hmem
    exact hinv.returned ((List.mem_append.mp hmem).resolve_right (by simp))
  | stops =>
    rw [List.append_nil]
    exact .of_stopped rfl (fun h => nomatch h) hinv.returned
  | stopped hidle hstopped => exact .of_stopped hstopped (hinv.joined hstopped) (fun _ => hinv.joined hstopped hidle)
  | posts hposting =>
    have hstopped : s.running = false := hinv.swapped (by simp [hposting])
    obtain ⟨hsame, -⟩ := s.submit_spec .disconnect
    rw [hsame]
    refine .of_stopped hstopped (fun h => nomatch h) ?_
    intro hmem
    exact hinv.returned ((List.mem_append.mp hmem).resolve_right (not_disconnected_submit .disconnect))
  | joins hjoining hgone =>
    exact .of_stopped (hinv.swapped (by simp [hjoining])) (fun _ => hgone) (fun _ => hgone)
  | releases hidle hstopped =>
    rw [List.append_nil]
    exact .of_stopped hstopped (fun h => nomatch h) hinv.returned

/-- A worker that is gone takes no step. -/
theorem not_workerGone {env : Env} (h : workerStep crates config s env = some (s', effects)) : ¬ s.workerGone := by
  rintro (hpc | hpc)
  · simp [workerStep, hpc] at h
  · simp [workerStep, hpc] at h

/-- The worker clears the flag only where it is clear. -/
theorem Shutdown.running (hinv : Shutdown s seen) {env : Env}
    (h : workerStep crates config s env = some (s', effects)) : s'.running = s.running := by
  obtain ⟨-, -, hdoes⟩ := workerStep_turn h
  cases hdoes with
  | goes hgoes =>
    generalize s'.worker = pc, hrunning : s'.running = running at hgoes
    cases hgoes with
    | drainsClosed _ _ hgone => exact (hinv.swapped (by simp [hgone])).symm
    | _ => rfl
  | takes _ _ _ _ hrunning => exact hrunning
  | ends hqueue hafter =>
    rcases hafter with ⟨-, -, hrunning⟩ | ⟨-, -, hcleared⟩
    · exact hrunning
    · rw [hcleared, hinv.posted (by simp [hqueue])]
  | owns _ _ hrunning => exact hrunning

theorem Shutdown.worker (hinv : Shutdown s seen) {env : Env}
    (h : workerStep crates config s env = some (s', effects)) : Shutdown s' (seen ++ effects) := by
  have hrunning := hinv.running h
  have hgone := not_workerGone h
  obtain ⟨hclient, -, hdoes⟩ := workerStep_turn h
  refine ⟨?_, ?_, ?_, ?_, ?_⟩
  · rw [hclient, hrunning]
    exact hinv.swapped
  · rw [hrunning]
    obtain ⟨taken, -, -, -, hqueue⟩ := hdoes.shows
    intro hmem
    apply hinv.posted
    rw [hqueue]
    exact List.mem_append_right _ hmem
  · rw [hclient, hrunning]
    exact fun hstopped hidle => absurd (hinv.joined hstopped hidle) hgone
  · intro hmem
    rcases List.mem_append.mp hmem with hold | hnew
    · exact absurd (hinv.returned hold) hgone
    · obtain ⟨taken, outward, rfl, houtward, -⟩ := hdoes.shows
      rcases List.mem_append.mp hnew with htook | hout
      · obtain ⟨command, -, heq⟩ := List.mem_map.mp htook
        cases heq
      · cases houtward _ hout
  · rw [hrunning]
    intro hset
    obtain ⟨hleave, hstop, -⟩ := hinv.early hset
    cases hdoes with
    | goes hgoes =>
      generalize s'.worker = pc, s'.running = running at hgoes
      cases hgoes with
      | isStopped _ hclear | givesUp _ hclear =>
        rw [hset] at hclear
        cases hclear
      | isClosed _ _ hgone' =>
        rw [hinv.swapped (by simp [hgone'])] at hset
        cases hset
      | returns hpc => exact absurd hpc hstop
      | _ => simp
    | takes _ _ _ hworker =>
      rw [hworker]
      split <;> simp
    | ends hqueue =>
      rw [hinv.posted (by simp [hqueue])] at hset
      cases hset
    | owns hplace =>
      generalize hpc : s.worker = pc, s'.worker = pc' at hplace
      cases hplace with
      | leave => exact absurd hpc hleave
      | _ => simp

theorem run_shutdown {localAddr : SocketAddr} {random : UInt64} {labels : List Label}
    (hrun : run (step crates config) (Session.start crates config localAddr random) labels = some (s, effects)) :
    Shutdown s effects := by
  refine run_history (R := fun s _ seen => Shutdown s seen) ?_ ?_ hrun
  · intro s _ seen label s' es hinv hstep
    cases label with
    | client action => exact hinv.client hstep
    | worker env => exact hinv.worker hstep
  · refine ⟨fun h => absurd rfl h, fun h => (nomatch h), fun h => (nomatch h), fun h => (nomatch h), ?_⟩
    simp [Session.start]

/-! ## §4 — the whole session -/

/-- A list in which nothing may come behind an element ends with it. -/
theorem eq_nil_of_guarded {commands before after : List RelayCommand}
    (h : Guarded (fun before _ => .disconnect ∉ before) commands)
    (hsplit : commands = before ++ .disconnect :: after) : after = [] := by
  cases after with
  | nil => rfl
  | cons next rest =>
    have hnext := h (before ++ [.disconnect]) next rest (by rw [hsplit, List.append_assoc]; rfl)
    exact absurd (List.mem_append_right _ (List.mem_singleton_self _)) hnext

/-- Without a worker every call that sends is refused. -/
theorem clientStep_refused {action : ClientAction} {command : RelayCommand} (hgone : s.workerGone)
    (hcommand : action.command? = some command) (h : clientStep s action = some (s', effects)) :
    effects = [.submitted command false] := by
  cases clientStep_does h with
  | submits _ hsubmitted =>
    obtain rfl := Option.some.inj (hcommand.symm.trans hsubmitted)
    exact (s.submit_spec command).2.2 hgone
  | posts =>
    obtain rfl := Option.some.inj hcommand
    exact (s.submit_spec .disconnect).2.2 hgone
  | _ => cases hcommand

/-- **Shape and order of a session's stream.** In any run of a session, client and worker in any interleaving: once
the worker has returned, what was handed to `send_packet` is Join with sequence 0, then a body, then Leave. The body
lists the worker's turns, each with the counters that the turns before it left: its own keepalives, and one entry for
each command it took, in order, with the packet that answers the command. With crates that keep their laws, the
packets of the body without the keepalives correspond one to one, in order, to the commands taken that produce a
packet. The commands accepted by the queue are those taken and then those that still wait, so each is processed at most
once, and none behind a processed `Disconnect`. Once `disconnect` has returned, every further call that sends is
refused. -/
theorem session_stream {localAddr : SocketAddr} {random : UInt64} {labels : List Label}
    (hrun : run (step crates config) (Session.start crates config localAddr random) labels = some (s, effects)) :
    (s.worker = .returned → ∃ (body : List Entry) (sequence : UInt16) (media : MediaState),
      effects.filterMap Effect.handed? = (.control, controlPacket config 0 .join []) ::
        body.filterMap (Entry.handed? config) ++ [(.control, controlPacket config sequence .leave [])] ∧
      Turns crates config (MediaState.new crates config random) body sequence media ∧
      effects.filterMap Effect.took? = body.filterMap Entry.command? ∧
      (AeadLaws crates → HkdfExpands crates → List.Forall₂ (Answers crates config)
        ((effects.filterMap Effect.took?).filter (RelayCommand.producesPacket config))
        (body.filterMap Entry.answer?))) ∧
    effects.filterMap Effect.accepted? = effects.filterMap Effect.took? ++ s.commands.queue ∧
    (∀ before after, effects.filterMap Effect.took? = before ++ .disconnect :: after → after = []) ∧
    (.disconnected ∈ effects → ∀ action command s' es, action.command? = some command →
      step crates config s (.client action) = some (s', es) → es = [.submitted command false]) := by
  have hinv := run_stream hrun
  refine ⟨?_, ?_, ?_, ?_⟩
  · intro hreturned
    obtain ⟨body, hcommands, hstream⟩ := hinv.stream
    rw [hreturned] at hstream
    obtain ⟨sequence, media, hturns, hwhole⟩ := hstream
    refine ⟨body, sequence, media, hwhole, hturns, hcommands, fun haead hhkdf => ?_⟩
    rw [hcommands]
    exact (hturns.correspond haead hhkdf rfl).2
  · exact run_fifo hrun
  · intro before after hsplit
    exact eq_nil_of_guarded hinv.order hsplit
  · intro hdisconnected action command s' es hcommand hstep
    exact clientStep_refused ((run_shutdown hrun).returned hdisconnected) hcommand hstep

end

/-- A talk request, a slice that is no frame, a frame, a shutdown while the worker is in its inner loop, and the
worker's way out. -/
def framesAndLeave : List Label :=
  [tick, tick, .client (.sendControl .pttOn []), .client (.sendPcmFrame [1, 2, 3]),
    .client (.sendPcmFrame (List.replicate 320 7)), tick, tick, tick, tick, .client .disconnect,
    .client .postDisconnect, tick, tick, tick, tick, .client .joinWorker]

/-- **The stream of a short session** in AES-GCM v2 mode: the request and the frame are the commands that produce a
packet, two packets answer them, and nothing more is accepted. -/
theorem session_stream_talk : ∃ s effects,
    run (step tagCrates (station .aesGcmV2)) (Session.start tagCrates (station .aesGcmV2) stationAddr 0)
      framesAndLeave = some (s, effects) ∧
    effects.filterMap Effect.took? = [.sendControl .pttOn [], .sendPcm [1, 2, 3], .sendPcm (List.replicate 320 7),
      .disconnect] ∧
    (∃ (body : List Entry) (sequence : UInt16), effects.filterMap Effect.handed? =
      (.control, controlPacket (station .aesGcmV2) 0 .join []) ::
        body.filterMap (Entry.handed? (station .aesGcmV2)) ++
        [(.control, controlPacket (station .aesGcmV2) sequence .leave [])] ∧
      List.Forall₂ (Answers tagCrates (station .aesGcmV2)) [.sendControl .pttOn [], .sendPcm (List.replicate 320 7)]
        (body.filterMap Entry.answer?)) ∧
    ∀ s' es, step tagCrates (station .aesGcmV2) s (.client (.sendControl .pttOff [])) = some (s', es) →
      es = [.submitted (.sendControl .pttOff []) false] := by
  have hview : (run (step tagCrates (station .aesGcmV2)) (Session.start tagCrates (station .aesGcmV2) stationAddr 0)
      framesAndLeave).map (fun r => (r.1.worker, r.2.filterMap Effect.took?, decide (.disconnected ∈ r.2))) =
      some (.returned, [.sendControl .pttOn [], .sendPcm [1, 2, 3], .sendPcm (List.replicate 320 7), .disconnect],
        true) := by decide +kernel
  obtain ⟨⟨s, effects⟩, hrun, hview⟩ := Option.map_eq_some_iff.mp hview
  obtain ⟨hreturned, hview⟩ := Prod.mk.inj hview
  obtain ⟨htook, hdisconnected⟩ := Prod.mk.inj hview
  obtain ⟨hstream, -, -, hrefused⟩ := session_stream hrun
  obtain ⟨body, sequence, media, hhanded, -, -, hanswers⟩ := hstream hreturned
  have hpackets := hanswers tagCrates_aead tagCrates_hkdf
  have hproducing : List.filter (RelayCommand.producesPacket (station .aesGcmV2)) [.sendControl .pttOn [],
      .sendPcm [1, 2, 3], .sendPcm (List.replicate 320 7), .disconnect] =
      [.sendControl .pttOn [], .sendPcm (List.replicate 320 7)] := by decide +kernel
  rw [show effects.filterMap Effect.took? = _ from htook, hproducing] at hpackets
  refine ⟨s, effects, hrun, htook, ⟨body, sequence, hhanded, hpackets⟩, ?_⟩
  exact fun s' es hstep => hrefused (of_decide_eq_true hdisconnected) _ _ s' es rfl hstep

end IncomUdon.Transport
