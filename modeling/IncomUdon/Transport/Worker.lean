/-
# IncomUdon.Transport.Worker — a relay session: the client's calls, the worker loop, and what they share.

A translation of `RelaySession` and `run_worker`. The state holds what the two threads share (the command queue,
the event channel, the `running` flag), where each of them is, and the worker's own counters. A label is one
atomic step of one thread: a call of the client, or the next step of the worker with what the operating system
answers in it (`Env`).

Merged into one step: taking a command, processing it and offering its event; and reading a datagram and offering its
event. A client call that comes in between stands in front of the merged step or behind it here. It touches the other
end of one channel, so one such call can be moved without a change to any result; two cannot where both channels are
full: a `try_send` that uses the place of the command just taken, and then a `try_recv` that makes room for the event
not offered yet, are an order the merged steps do not show. There the source delivers both, the model one of them.

`step` refuses a label where the thread cannot move: a client that waits in `join`, a worker that has returned.
`step_does` sorts every step of either thread into six kinds, and is all that later modules use of the loop.
-/
import IncomUdon.Lib.Channel
import IncomUdon.Lib.Machine
import IncomUdon.Transport.Media

namespace IncomUdon.Transport

open IncomUdon.Lib
open IncomUdon.Protocol
open IncomUdon.Crypto

/-! ## The state -/

/-- Where the client is: between calls, behind the `swap` of `disconnect`, behind its `try_send`, or past the
drop of the session's fields. -/
inductive ClientPc where
  | idle | posting | joining | gone
  deriving DecidableEq, Repr

/-- Where the worker is. `head`, `recheck` read the `running` flag; `panicked` is the end of a panic. -/
inductive WorkerPc where
  | entry | join | head | recvTimeout | drain | recheck | keepalive | recv | leave | stop
  | returned | panicked
  deriving DecidableEq, Repr

/-- Both threads of a session and what they share. -/
structure Session where
  client : ClientPc
  worker : WorkerPc
  commands : Channel RelayCommand
  events : Channel RelayEvent
  running : Bool
  localAddr : SocketAddr
  sequence : UInt16
  media : MediaState
  deriving DecidableEq, Repr

/-- What the operating system answers in one step of the worker; a step reads the part it asks for. -/
structure Env where
  /-- `socket.send`. -/
  sent : Except IoError Unit
  /-- `last_keepalive.elapsed()`. -/
  elapsed : Duration
  /-- `socket.recv`: the whole datagram that arrived. -/
  received : Except IoError Bytes

/-- The calls of the thread that owns the session, cut where the worker can come in between. -/
inductive ClientAction where
  | send (packet : Packet)
  | sendControl (packetType : PacketType) (payload : Bytes)
  | sendPcmFrame (frame : Bytes)
  | tryNextEvent
  /-- `running.swap(false)`, the first step of `disconnect`. -/
  | disconnect
  | postDisconnect
  | joinWorker
  /-- The drop of the session's fields, behind the `disconnect` of `Drop`. -/
  | release
  deriving DecidableEq, Repr

/-- A step of one of the two threads. -/
inductive Label where
  | client (action : ClientAction)
  | worker (env : Env)

/-- `let mut buffer = [0_u8; 2048]`. -/
def receiveBufferLen : Nat := 2048

namespace Session

/-- The worker's end of both channels is gone. -/
def workerGone (s : Session) : Prop := s.worker = .returned ∨ s.worker = .panicked

instance (s : Session) : Decidable s.workerGone := inferInstanceAs (Decidable (_ ∨ _))

/-- The client's `try_send`. -/
def submit (s : Session) (command : RelayCommand) : Session × List Effect :=
  if s.workerGone then (s, [.submitted command false])
  else
    ({ s with commands := (s.commands.trySend command).2 },
      [.submitted command (s.commands.trySend command).1])

/-- A worker step that ran `turn` and goes on at `next`. -/
def finish (s : Session) (next : WorkerPc) (turn : Turn) : Session :=
  { s with
    sequence := turn.sequence
    media := turn.media
    events := s.events.post (turn.effects.filterMap Effect.event?)
    worker := if turn.panicked then .panicked else next }

/-- A step that offers one event and nothing else. -/
def offer (s : Session) (event : RelayEvent) : Turn := ⟨s.sequence, s.media, [.event event], false⟩

end Session

section

variable (crates : CryptoCrates) (config : RelayConfig)

/-- The state behind a `RelaySession::connect`, with the value `random()` gives the worker. -/
def Session.start (localAddr : SocketAddr) (random : UInt64) : Session where
  client := .idle
  worker := .entry
  commands := Channel.empty defaultCommandCapacity
  events := Channel.empty defaultEventCapacity
  running := true
  localAddr := localAddr
  sequence := 0
  media := MediaState.new crates config random

/-! ## Opening a session -/

/-- What opening a session and handing it a command report. -/
inductive TransportError where
  | openSocket (error : IoError)
  | connectSocket (error : IoError)
  | localAddress (error : IoError)
  | workerUnavailable
  deriving DecidableEq, Repr

/-- The `Display` text of each error. -/
def TransportError.toString : TransportError → String
  | .openSocket error => "failed to open UDP socket: " ++ error.message
  | .connectSocket error => "failed to connect UDP socket: " ++ error.message
  | .localAddress error => "failed to read UDP socket address: " ++ error.message
  | .workerUnavailable => "relay transport worker is unavailable"

/-- What the operating system answers to `RelaySession::connect`, call by call, and the `random()` of the worker. -/
structure Opening where
  /-- `UdpSocket::bind`. -/
  bind : String → Except IoError Unit
  /-- `socket.connect`. -/
  connect : SocketAddr → Except IoError Unit
  setReadTimeout : Except IoError Unit
  localAddr : Except IoError SocketAddr
  /-- `thread::Builder::spawn`. -/
  spawn : Except IoError Unit
  random : UInt64

/-- The address a socket for this relay is bound to. -/
def bindAddr (relayAddr : SocketAddr) : String := if relayAddr.isIpv6 then "[::]:0" else "0.0.0.0:0"

/-- `RelaySession::connect`. -/
def Session.connect (opening : Opening) : Except TransportError Session := do
  (opening.bind (bindAddr config.relayAddr)).mapError .openSocket
  (opening.connect config.relayAddr).mapError .connectSocket
  opening.setReadTimeout.mapError .openSocket
  let localAddr ← opening.localAddr.mapError .localAddress
  opening.spawn.mapError .openSocket
  return Session.start crates config localAddr opening.random

/-! ## The steps -/

/-- The arms of both receive matches that process a command; `Disconnect` has arms of its own. -/
def process (s : Session) (command : RelayCommand) (sent : Except IoError Unit) : Option Turn :=
  match command with
  | .send packet => some ⟨s.sequence, s.media, sendPacket .client packet sent, false⟩
  | .sendPcm frame => some (sendPcm crates config s.sequence s.media frame sent)
  | .sendControl packetType payload =>
      some (sendControl config s.sequence s.media packetType payload sent)
  | .disconnect => none

/-- One step of `run_worker`. -/
def workerStep (s : Session) (env : Env) : Option (Session × List Effect) :=
  match s.worker with
  | .entry =>
      let turn := s.offer (.connected s.localAddr)
      some (s.finish .join turn, turn.effects)
  | .join =>
      let turn := sendControl config s.sequence s.media .join [] env.sent
      some (s.finish .head turn, turn.effects)
  | .head => some ({ s with worker := if s.running then .recvTimeout else .leave }, [])
  | .recvTimeout =>
      match s.commands.tryRecv with
      | some (command, commands) =>
        match process crates config s command env.sent with
        | some turn => some ({ s with commands }.finish .drain turn, .took command :: turn.effects)
        | none => some ({ s with commands, worker := .leave }, [.took command])
      | none => some ({ s with worker := if s.client = .gone then .leave else .drain }, [])
  | .drain =>
      match s.commands.tryRecv with
      | some (command, commands) =>
        match process crates config s command env.sent with
        | some turn => some ({ s with commands }.finish .drain turn, .took command :: turn.effects)
        | none => some ({ s with commands, running := false, worker := .recheck }, [.took command])
      | none =>
        some ({ s with running := if s.client = .gone then false else s.running, worker := .recheck }, [])
  | .recheck => some ({ s with worker := if s.running then .keepalive else .leave }, [])
  | .keepalive =>
      if config.keepaliveInterval ≤ env.elapsed then
        let turn := sendControl config s.sequence s.media .keepalive [] env.sent
        some (s.finish .recv turn, turn.effects)
      else some ({ s with worker := .recv }, [])
  | .recv =>
      match env.received with
      | .ok datagram =>
        let turn := receive crates s.sequence s.media (datagram.take receiveBufferLen)
        some (s.finish .head turn, turn.effects)
      | .error error =>
        if error.kind = .wouldBlock ∨ error.kind = .timedOut then some ({ s with worker := .head }, [])
        else
          let turn := s.offer (.ioError error.message)
          some (s.finish .head turn, turn.effects)
  | .leave =>
      let turn := sendControl config s.sequence s.media .leave [] env.sent
      some (s.finish .stop turn, turn.effects)
  | .stop =>
      let turn := s.offer .stopped
      some (s.finish .returned turn, turn.effects)
  | .returned => none
  | .panicked => none

/-- One step of the thread that owns the session. -/
def clientStep (s : Session) (action : ClientAction) : Option (Session × List Effect) :=
  match s.client, action with
  | .idle, .send packet => some (s.submit (.send packet))
  | .idle, .sendControl packetType payload => some (s.submit (.sendControl packetType payload))
  | .idle, .sendPcmFrame frame => some (s.submit (.sendPcm frame))
  | .idle, .tryNextEvent =>
      match s.events.tryRecv with
      | some (event, events) => some ({ s with events }, [.nextEvent (some event)])
      | none => some (s, [.nextEvent none])
  | .idle, .disconnect =>
      if s.running then some ({ s with running := false, client := .posting }, [])
      else some (s, [.disconnected])
  | .posting, .postDisconnect =>
      some ({ (s.submit .disconnect).1 with client := .joining }, (s.submit .disconnect).2)
  | .joining, .joinWorker =>
      if s.workerGone then some ({ s with client := .idle }, [.disconnected]) else none
  | .idle, .release => if s.running then none else some ({ s with client := .gone }, [])
  | _, _ => none

/-- **One step of a session.** -/
def step (s : Session) : Label → Option (Session × List Effect)
  | .client action => clientStep s action
  | .worker env => workerStep crates config s env

/-! ## What a step can do -/

/-- The worker's next step takes `command` off the queue. -/
def Processes (s : Session) (command : RelayCommand) : Prop :=
  (s.worker = .recvTimeout ∨ s.worker = .drain) ∧ s.commands.queue.head? = some command

instance (s : Session) (command : RelayCommand) : Decidable (Processes s command) :=
  inferInstanceAs (Decidable (_ ∧ _))

/-- The command a client call submits. -/
def ClientAction.command? : ClientAction → Option RelayCommand
  | .send packet => some (.send packet)
  | .sendControl packetType payload => some (.sendControl packetType payload)
  | .sendPcmFrame frame => some (.sendPcm frame)
  | .postDisconnect => some .disconnect
  | _ => none

/-- What a client call can do: submit a command, ask for an event, or go through `disconnect` and the drop. -/
inductive ClientDoes (s : Session) : ClientAction → Session → List Effect → Prop where
  | submits {action : ClientAction} {command : RelayCommand} (hidle : s.client = .idle)
      (hcommand : action.command? = some command) :
      ClientDoes s action (s.submit command).1 (s.submit command).2
  | takes {event : RelayEvent} {events : Channel RelayEvent} (hidle : s.client = .idle)
      (htake : s.events.tryRecv = some (event, events)) :
      ClientDoes s .tryNextEvent { s with events } [.nextEvent (some event)]
  | finds (hidle : s.client = .idle) (hempty : s.events.tryRecv = none) :
      ClientDoes s .tryNextEvent s [.nextEvent none]
  | stops (hidle : s.client = .idle) (hrunning : s.running = true) :
      ClientDoes s .disconnect { s with running := false, client := .posting } []
  | stopped (hidle : s.client = .idle) (hrunning : s.running = false) :
      ClientDoes s .disconnect s [.disconnected]
  | posts (hposting : s.client = .posting) :
      ClientDoes s .postDisconnect { (s.submit .disconnect).1 with client := .joining } (s.submit .disconnect).2
  | joins (hjoining : s.client = .joining) (hgone : s.workerGone) :
      ClientDoes s .joinWorker { s with client := .idle } [.disconnected]
  | releases (hidle : s.client = .idle) (hrunning : s.running = false) :
      ClientDoes s .release { s with client := .gone } []

/-- **The six kinds of steps**, with the counters each one leaves and the effects it has. -/
inductive Does (s : Session) : Label → UInt16 → MediaState → List Effect → Prop where
  /-- A client call. -/
  | calls {action : ClientAction} {effects : List Effect} (hquiet : ∀ e ∈ effects, e.quiet = true) :
      Does s (.client action) s.sequence s.media effects
  /-- Nothing is sent, encrypted or delivered. -/
  | quiet {env : Env} {effects : List Effect} (hquiet : ∀ e ∈ effects, e.quiet = true)
      (hsubmits : effects.filterMap Effect.submitted? = []) : Does s (.worker env) s.sequence s.media effects
  /-- A datagram is read. -/
  | receives {env : Env} {datagram : Bytes} (hpc : s.worker = .recv)
      (hdatagram : env.received = .ok datagram) :
      Does s (.worker env) s.sequence s.media
        (receive crates s.sequence s.media (datagram.take receiveBufferLen)).effects
  /-- A client's own packet is handed over. -/
  | forwards {env : Env} {packet : Packet} (hproc : Processes s (.send packet)) :
      Does s (.worker env) s.sequence s.media
        (.took (.send packet) :: sendPacket .client packet env.sent)
  /-- A control packet is built: a client's, or one of the worker's own. -/
  | controls {env : Env} {packetType : PacketType} {payload : Bytes} {taken : List Effect}
      (htaken : taken = [] ∨ taken = [.took (.sendControl packetType payload)]) :
      Does s (.worker env) (s.sequence + 1) s.media
        (taken ++ sendPacket .control (controlPacket config s.sequence packetType payload) env.sent)
  /-- A PCM frame is processed. -/
  | talks {env : Env} {frame : Bytes} {turn : Turn} (hproc : Processes s (.sendPcm frame))
      (hturn : SendsPcm crates config s.sequence s.media frame env.sent turn) :
      Does s (.worker env) turn.sequence turn.media (.took (.sendPcm frame) :: turn.effects)

variable {crates config}

@[simp] theorem Session.finish_sequence (s : Session) (next : WorkerPc) (turn : Turn) :
    (s.finish next turn).sequence = turn.sequence := rfl

@[simp] theorem Session.finish_media (s : Session) (next : WorkerPc) (turn : Turn) :
    (s.finish next turn).media = turn.media := rfl

/-- Reading a datagram leaves the counters alone. -/
theorem receive_counters (crates : CryptoCrates) (sequence : UInt16) (media : MediaState) (bytes : Bytes) :
    (receive crates sequence media bytes).sequence = sequence ∧
      (receive crates sequence media bytes).media = media := by
  unfold receive
  split
  · split <;> exact ⟨rfl, rfl⟩
  · exact ⟨rfl, rfl⟩
  · exact ⟨rfl, rfl⟩

/-- Reading a datagram has silent effects. -/
theorem receive_silent (crates : CryptoCrates) (sequence : UInt16) (media : MediaState) (bytes : Bytes) :
    ∀ e ∈ (receive crates sequence media bytes).effects, e.silent = true := by
  unfold receive
  split
  · split <;> simp [Effect.silent]
  · simp [Effect.silent]
  · simp

/-- The receive step does what `receive` does with the first 2048 bytes. -/
theorem workerStep_recv {r : Session} {env : Env} (crates : CryptoCrates) (config : RelayConfig) {datagram : Bytes}
    (hdatagram : env.received = .ok datagram) (hpc : r.worker = .recv) :
    let turn := receive crates r.sequence r.media (datagram.take receiveBufferLen)
    workerStep crates config r env = some (r.finish .head turn, turn.effects) := by
  unfold workerStep
  rw [hpc, hdatagram]

theorem Session.connect_fresh {opening : Opening} {s : Session}
    (h : Session.connect crates config opening = .ok s) :
    ∃ localAddr random, s = Session.start crates config localAddr random := by
  obtain ⟨_, -, h⟩ := except_bind_eq_ok.mp h
  obtain ⟨_, -, h⟩ := except_bind_eq_ok.mp h
  obtain ⟨_, -, h⟩ := except_bind_eq_ok.mp h
  obtain ⟨localAddr, -, h⟩ := except_bind_eq_ok.mp h
  obtain ⟨_, -, h⟩ := except_bind_eq_ok.mp h
  exact ⟨localAddr, opening.random, (Except.ok.inj h).symm⟩

/-- The queue of a fresh session has room. -/
theorem Session.start_accepts (localAddr : SocketAddr) (random : UInt64) (frame : Bytes) :
    ∃ s, clientStep (Session.start crates config localAddr random) (.sendPcmFrame frame) =
      some (s, [.submitted (.sendPcm frame) true]) := ⟨_, rfl⟩

/-- Taking the front of the queue at either receive. -/
theorem Processes.of_tryRecv {s : Session} {command : RelayCommand} {commands : Channel RelayCommand}
    (hpc : s.worker = .recvTimeout ∨ s.worker = .drain)
    (h : s.commands.tryRecv = some (command, commands)) : Processes s command := by
  refine ⟨hpc, ?_⟩
  rw [(Channel.tryRecv_eq_some h).1]
  rfl

/-- A processed command is one of the last three kinds. -/
theorem process_does {s : Session} {command : RelayCommand} {turn : Turn} {env : Env}
    (hproc : Processes s command) (h : process crates config s command env.sent = some turn) :
    Does crates config s (.worker env) turn.sequence turn.media (.took command :: turn.effects) := by
  cases command with
  | send packet =>
    obtain rfl := Option.some.inj h
    exact .forwards hproc
  | sendPcm frame =>
    obtain rfl := Option.some.inj h
    exact .talks hproc (sendPcm_sends crates config _ _ _ _)
  | sendControl packetType payload =>
    obtain rfl := Option.some.inj h
    exact .controls (Or.inr rfl)
  | disconnect => cases h

theorem Session.submit_quiet (s : Session) (command : RelayCommand) :
    (s.submit command).1.sequence = s.sequence ∧ (s.submit command).1.media = s.media ∧
      ∀ e ∈ (s.submit command).2, e.quiet = true := by
  unfold Session.submit
  split <;> exact ⟨rfl, rfl, by simp [Effect.quiet]⟩

/-- **A client call does one of these.** -/
theorem clientStep_does {s s' : Session} {action : ClientAction} {effects : List Effect}
    (h : clientStep s action = some (s', effects)) : ClientDoes s action s' effects := by
  unfold clientStep at h
  split at h
  · rename_i hidle
    obtain ⟨rfl, rfl⟩ := Prod.mk.inj (Option.some.inj h)
    exact .submits hidle rfl
  · rename_i hidle
    obtain ⟨rfl, rfl⟩ := Prod.mk.inj (Option.some.inj h)
    exact .submits hidle rfl
  · rename_i hidle
    obtain ⟨rfl, rfl⟩ := Prod.mk.inj (Option.some.inj h)
    exact .submits hidle rfl
  · rename_i hidle
    split at h
    · rename_i htake
      obtain ⟨rfl, rfl⟩ := Prod.mk.inj (Option.some.inj h)
      exact .takes hidle htake
    · rename_i hempty
      obtain ⟨rfl, rfl⟩ := Prod.mk.inj (Option.some.inj h)
      exact .finds hidle hempty
  · rename_i hidle
    split at h
    · rename_i hrunning
      obtain ⟨rfl, rfl⟩ := Prod.mk.inj (Option.some.inj h)
      exact .stops hidle hrunning
    · rename_i hrunning
      obtain ⟨rfl, rfl⟩ := Prod.mk.inj (Option.some.inj h)
      exact .stopped hidle (Bool.eq_false_iff.mpr hrunning)
  · rename_i hposting
    obtain ⟨rfl, rfl⟩ := Prod.mk.inj (Option.some.inj h)
    exact .posts hposting
  · rename_i hjoining
    split at h
    · rename_i hgone
      obtain ⟨rfl, rfl⟩ := Prod.mk.inj (Option.some.inj h)
      exact .joins hjoining hgone
    · cases h
  · rename_i hidle
    split at h
    · cases h
    · rename_i hrunning
      obtain ⟨rfl, rfl⟩ := Prod.mk.inj (Option.some.inj h)
      exact .releases hidle (Bool.eq_false_iff.mpr hrunning)
  · cases h

/-- The client sends and encrypts nothing, and the counters are not its to touch. -/
theorem clientStep_quiet {s s' : Session} {action : ClientAction} {effects : List Effect}
    (h : clientStep s action = some (s', effects)) :
    s'.sequence = s.sequence ∧ s'.media = s.media ∧ ∀ e ∈ effects, e.quiet = true := by
  cases clientStep_does h with
  | submits => exact s.submit_quiet _
  | posts => exact s.submit_quiet .disconnect
  | takes | finds | stopped | joins => exact ⟨rfl, rfl, by simp [Effect.quiet]⟩
  | stops | releases => exact ⟨rfl, rfl, by simp⟩

theorem workerStep_does {s s' : Session} {env : Env} {effects : List Effect}
    (h : workerStep crates config s env = some (s', effects)) :
    Does crates config s (.worker env) s'.sequence s'.media effects := by
  unfold workerStep at h
  split at h
  · -- entry: the `Connected` event
    obtain ⟨rfl, rfl⟩ := Prod.mk.inj (Option.some.inj h)
    exact .quiet (by simp [Session.offer, Effect.quiet]) rfl
  · -- Join
    obtain ⟨rfl, rfl⟩ := Prod.mk.inj (Option.some.inj h)
    exact .controls (Or.inl rfl)
  · obtain ⟨rfl, rfl⟩ := Prod.mk.inj (Option.some.inj h)
    exact .quiet (by simp) rfl
  · -- `recv_timeout`
    rename_i hpc
    split at h
    · rename_i command commands htake
      have hproc := Processes.of_tryRecv (Or.inl hpc) htake
      split at h
      · rename_i turn hturn
        obtain ⟨rfl, rfl⟩ := Prod.mk.inj (Option.some.inj h)
        exact process_does hproc hturn
      · obtain ⟨rfl, rfl⟩ := Prod.mk.inj (Option.some.inj h)
        exact .quiet (by simp [Effect.quiet]) rfl
    · obtain ⟨rfl, rfl⟩ := Prod.mk.inj (Option.some.inj h)
      exact .quiet (by simp) rfl
  · -- the inner loop of `try_recv`
    rename_i hpc
    split at h
    · rename_i command commands htake
      have hproc := Processes.of_tryRecv (Or.inr hpc) htake
      split at h
      · rename_i turn hturn
        obtain ⟨rfl, rfl⟩ := Prod.mk.inj (Option.some.inj h)
        exact process_does hproc hturn
      · obtain ⟨rfl, rfl⟩ := Prod.mk.inj (Option.some.inj h)
        exact .quiet (by simp [Effect.quiet]) rfl
    · obtain ⟨rfl, rfl⟩ := Prod.mk.inj (Option.some.inj h)
      exact .quiet (by simp) rfl
  · obtain ⟨rfl, rfl⟩ := Prod.mk.inj (Option.some.inj h)
    exact .quiet (by simp) rfl
  · -- the keepalive tick
    split at h
    · obtain ⟨rfl, rfl⟩ := Prod.mk.inj (Option.some.inj h)
      exact .controls (Or.inl rfl)
    · obtain ⟨rfl, rfl⟩ := Prod.mk.inj (Option.some.inj h)
      exact .quiet (by simp) rfl
  · -- `socket.recv`
    rename_i hpc
    split at h
    · rename_i datagram hdatagram
      obtain ⟨rfl, rfl⟩ := Prod.mk.inj (Option.some.inj h)
      obtain ⟨hseq, hmedia⟩ := receive_counters crates s.sequence s.media
        (datagram.take receiveBufferLen)
      rw [Session.finish_sequence, Session.finish_media, hseq, hmedia]
      exact .receives hpc hdatagram
    · split at h
      · obtain ⟨rfl, rfl⟩ := Prod.mk.inj (Option.some.inj h)
        exact .quiet (by simp) rfl
      · obtain ⟨rfl, rfl⟩ := Prod.mk.inj (Option.some.inj h)
        exact .quiet (by simp [Session.offer, Effect.quiet]) rfl
  · -- Leave
    obtain ⟨rfl, rfl⟩ := Prod.mk.inj (Option.some.inj h)
    exact .controls (Or.inl rfl)
  · -- the `Stopped` event
    obtain ⟨rfl, rfl⟩ := Prod.mk.inj (Option.some.inj h)
    exact .quiet (by simp [Session.offer, Effect.quiet]) rfl
  · cases h
  · cases h

/-- **Every step is of one of the six kinds.** -/
theorem step_does {s s' : Session} {label : Label} {effects : List Effect}
    (h : step crates config s label = some (s', effects)) :
    Does crates config s label s'.sequence s'.media effects := by
  cases label with
  | client action =>
    obtain ⟨hseq, hmedia, hquiet⟩ := clientStep_quiet h
    rw [hseq, hmedia]
    exact .calls hquiet
  | worker env => exact workerStep_does h

/-! ## Who submits commands -/

theorem Session.submit_effects (s : Session) (command : RelayCommand) :
    ∃ ok, (s.submit command).2 = [.submitted command ok] := by
  unfold Session.submit
  split <;> exact ⟨_, rfl⟩

/-- A client call with a command submits that command and does nothing else. -/
theorem clientStep_submits {s s' : Session} {action : ClientAction} {command : RelayCommand}
    {effects : List Effect} (hcommand : action.command? = some command)
    (h : clientStep s action = some (s', effects)) : ∃ ok, effects = [.submitted command ok] := by
  cases clientStep_does h with
  | submits _ hsubmitted =>
    obtain rfl := Option.some.inj (hcommand.symm.trans hsubmitted)
    exact s.submit_effects command
  | posts =>
    obtain rfl := Option.some.inj hcommand
    exact s.submit_effects .disconnect
  | _ => cases hcommand

/-- A client call without one submits nothing. -/
theorem clientStep_submits_nothing {s s' : Session} {action : ClientAction} {effects : List Effect}
    (hcommand : action.command? = none) (h : clientStep s action = some (s', effects)) :
    effects.filterMap Effect.submitted? = [] := by
  cases clientStep_does h with
  | submits _ hsubmitted =>
    rw [hcommand] at hsubmitted
    cases hsubmitted
  | posts => cases hcommand
  | _ => rfl

theorem receive_submits (crates : CryptoCrates) (sequence : UInt16) (media : MediaState) (bytes : Bytes) :
    (receive crates sequence media bytes).effects.filterMap Effect.submitted? = [] := by
  unfold receive
  split
  · split <;> rfl
  · rfl
  · rfl

/-- The worker submits nothing. -/
theorem workerStep_submits {s s' : Session} {env : Env} {effects : List Effect}
    (h : workerStep crates config s env = some (s', effects)) : effects.filterMap Effect.submitted? = [] := by
  have hdoes := workerStep_does h
  generalize s'.sequence = sequence, s'.media = media at hdoes
  cases hdoes with
  | quiet _ hsubmits => exact hsubmits
  | receives => exact receive_submits _ _ _ _
  | forwards => exact sendPacket_submits .client _ _
  | controls htaken => rcases htaken with rfl | rfl <;> exact sendPacket_submits .control _ _
  | talks _ hturn =>
    cases hturn with
    | plain => exact sendPacket_submits .pcm _ _
    | «sealed» => exact sendPacket_submits .pcm _ _
    | _ => rfl

/-- No step replaces the media key. -/
theorem Does.media_key {s : Session} {label : Label} {sequence : UInt16} {media : MediaState}
    {effects : List Effect} (h : Does crates config s label sequence media effects) :
    media.key = s.media.key := by
  cases h with
  | calls => rfl
  | quiet => rfl
  | receives => rfl
  | forwards => rfl
  | controls => rfl
  | talks hproc hturn => exact hturn.media_key

/-- The step that processes a PCM frame runs `send_pcm` on it. -/
theorem step_processes_sendPcm {s s' : Session} {env : Env} {frame : Bytes} {effects : List Effect}
    (hproc : Processes s (.sendPcm frame))
    (h : step crates config s (.worker env) = some (s', effects)) :
    let turn := sendPcm crates config s.sequence s.media frame env.sent
    s'.sequence = turn.sequence ∧ s'.media = turn.media ∧
      effects = .took (.sendPcm frame) :: turn.effects := by
  obtain ⟨hpc, hfront⟩ := hproc
  cases htake : s.commands.tryRecv with
  | none =>
    rw [Channel.tryRecv_eq_none.mp htake] at hfront
    cases hfront
  | some taken =>
    obtain ⟨command, commands⟩ := taken
    rw [(Channel.tryRecv_eq_some htake).1] at hfront
    obtain rfl : command = .sendPcm frame := Option.some.inj hfront
    rcases hpc with hpc | hpc
    · simp only [step, workerStep, hpc, htake, process] at h
      obtain ⟨rfl, rfl⟩ := Prod.mk.inj (Option.some.inj h)
      exact ⟨rfl, rfl, rfl⟩
    · simp only [step, workerStep, hpc, htake, process] at h
      obtain ⟨rfl, rfl⟩ := Prod.mk.inj (Option.some.inj h)
      exact ⟨rfl, rfl, rfl⟩

end

/-! ## A station, for evaluating runs -/

/-- Station 1002 on channel 111. -/
def station (encryption : Core.EncryptionMode) : RelayConfig :=
  RelayConfig.new (.v4 (ByteArr.replicate 4 127) 50000) 111 1002 encryption

/-- The address of its socket. -/
def stationAddr : SocketAddr := .v4 (ByteArr.replicate 4 127) 40000

/-- A worker step in which every send succeeds, no keepalive is due, and nothing arrives. -/
def tick : Label := .worker ⟨.ok (), 0, .error ⟨.timedOut, "timed out"⟩⟩

end IncomUdon.Transport
