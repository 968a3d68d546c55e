/-
# IncomUdon.Desktop.App — the application: its callbacks, its timer, and the relay sessions it makes.

A translation of `main.rs` as a machine. The callbacks and the timer run on one thread, which does one thing at a
time; a callback is cut into steps wherever it calls into a relay session, so that the session's worker can move
in between. `pc` says where the thread is, `.resume` takes its next step. The sessions themselves are those of
`IncomUdon.Transport.Worker`; `drive` is the only way the application touches one.

A session that was dropped keeps its place in `links`: a worker that was not joined runs on. What the machine does
not decide (the resolver, the operating system, the file system) comes with the input.
-/
import IncomUdon.Desktop.Audio
import IncomUdon.Desktop.ProfileStorage
import IncomUdon.Desktop.Window
import IncomUdon.Transport.Worker

namespace IncomUdon.Desktop

open IncomUdon.Lib
open IncomUdon.Core
open IncomUdon.Protocol
open IncomUdon.Crypto
open IncomUdon.Transport

/-! ## The state -/

/-- A relay session, with the configuration it was opened with. -/
structure Link where
  config : RelayConfig
  session : Session
  deriving DecidableEq, Repr

/-- Why a session is being closed, which is what the thread does next. -/
inductive Closing where
  /-- `on_disconnect_relay`. -/
  | disconnect
  /-- The timer saw `Stopped`. -/
  | stopped
  /-- `main`, behind `window.run()`. -/
  | exit
  deriving DecidableEq, Repr

/-- Where the thread of the window is. -/
inductive UiPc where
  | idle
  /-- In `on_ptt_pressed`, behind an accepted `CodecConfig`. -/
  | requesting
  /-- In the timer's loop over capture frames, with so many rounds to go. -/
  | streaming (rounds : Nat)
  /-- In the timer's loop over relay events, with the value of `stopped`. -/
  | polling (stopped : Bool)
  /-- In `disconnect` or the drop of a session that has left the slot. -/
  | closing (i : Nat) (reason : Closing)
  | ended
  | panicked
  deriving DecidableEq, Repr

/-- The state of `main`: the window, what the callbacks share, and where the thread is. -/
structure App where
  window : AppWindow
  store : ProfileStore
  audio : Option DesktopAudio
  pttActive : Bool
  /-- Every session made so far. -/
  links : List Link
  /-- `SharedRelaySession`, by the place in `links`. -/
  session : Option Nat
  pc : UiPc
  deriving DecidableEq, Repr

/-- What a step does that is seen outside the window. -/
inductive AppEffect where
  /-- An effect of session `i`. -/
  | relay (i : Nat) (effect : Effect)
  /-- A received frame queued for playback, and whether the buffer took it. -/
  | playback (frame : Bytes) (accepted : Bool)
  deriving DecidableEq, Repr

/-- The callbacks of the window, and the end of its loop. -/
inductive Callback where
  | pttPressed
  | pttReleased
  /-- With the result of `save_profile_store`. -/
  | saveProfile (saved : Except ProfileStorageError Unit)
  | saveRelaySettings (saved : Except ProfileStorageError Unit)
  /-- With the answers of `to_socket_addrs` and of the operating system. -/
  | connectRelay (resolved : Except IoError (List SocketAddr)) (opening : Opening)
  | disconnectRelay
  /-- The 10 ms timer. -/
  | tick
  /-- `window.run()` returns. -/
  | quit

/-- What makes the application move: its own thread, the user, the streams, and the workers. -/
inductive Input where
  | callback (callback : Callback)
  /-- The next step of the callback the thread is in. -/
  | resume
  /-- The user edits the form. -/
  | edit (form : Form)
  /-- The input stream delivers a frame. -/
  | captured (frame : Bytes)
  /-- The output stream takes a sample. -/
  | played
  /-- The worker of session `i` takes a step. -/
  | worker (i : Nat) (env : Env)

namespace App

/-- `set_connection_status`. -/
def setStatus (app : App) (status : String) : App :=
  { app with window := app.window.setConnectionStatus status }

/-- `set_profile_save_status`. -/
def setSaveStatus (app : App) (status : String) : App :=
  { app with window := app.window.setSaveStatus status }

/-- `main`, up to `window.run()`: the store and status of `load_profile_store`, and whether the audio device
opened. -/
def start (loaded : ProfileStore × String) (audio : Bool) : App :=
  let app : App :=
    { window := AppWindow.new
      store := loaded.1
      audio := if audio then some DesktopAudio.opened else none
      pttActive := false
      links := []
      session := none
      pc := .idle }
  match loaded.1.active with
  | .ok profile =>
    let window := applyRelayToWindow (applyProfileToWindow app.window profile) loaded.1.relay
    let window := (window.setConnectionStatus "Disconnected").setActiveTalker "No active speaker"
    { app with window := window.setSaveStatus loaded.2 }
  | _ => { app with pc := .panicked }

section

variable (crates : CryptoCrates)

/-! ## Touching a session -/

/-- Session `i` takes the step `label`. -/
def drive (app : App) (i : Nat) (label : Label) : Option (App × List AppEffect) :=
  match app.links[i]? with
  | none => none
  | some link =>
    match step crates link.config link.session label with
    | none => none
    | some (session, effects) =>
      some ({ app with links := app.links.set i { link with session } }, effects.map (.relay i))

/-- A `try_send` was answered `Ok`. -/
def accepted (effects : List AppEffect) : Bool :=
  effects.any fun
    | .relay _ (.submitted _ ok) => ok
    | _ => false

/-- What `try_next_event` returned. -/
def nextEvent (effects : List AppEffect) : Option RelayEvent :=
  effects.findSome? fun
    | .relay _ (.nextEvent event) => event
    | _ => none

/-- A control packet for the session in the slot; `failure` begins the message of a refusal. -/
def sendControl (app : App) (packetType : PacketType) (payload : Bytes) (failure : String) :
    Option (Except String Unit × App × List AppEffect) :=
  match app.session with
  | none => some (.error "Connect to the relay first", app, [])
  | some i =>
    match app.drive crates i (.client (.sendControl packetType payload)) with
    | none => none
    | some (app, effects) =>
      some (if accepted effects then .ok () else .error (failure ++ TransportError.workerUnavailable.toString),
        app, effects)

/-- `[flags, codec id, mode u16 BE]`: PCM uses no bitrate mode. -/
def pcmCodecConfig : Bytes := [0x01, 0x00, 0x00, 0x00]

/-- `send_pcm_codec_config`. -/
def sendPcmCodecConfig (app : App) : Option (Except String Unit × App × List AppEffect) :=
  app.sendControl crates .codecConfig pcmCodecConfig "PCM codec configuration send failed: "

/-- `send_ptt_control`. -/
def sendPttControl (app : App) (packetType : PacketType) : Option (Except String Unit × App × List AppEffect) :=
  app.sendControl crates packetType [] "PTT send failed: "

/-! ## Push to talk -/

/-- `on_ptt_pressed`, up to `and_then`. -/
def pttPressed (app : App) : Option (App × List AppEffect) :=
  if app.window.form.receiveOnly then some (app, [])
  else
    match app.store.active with
    | .ok profile =>
      if profile.codec ≠ .pcm then some (app.setStatus "PCM is currently the only available audio codec", [])
      else
        match app.audio with
        | none => some (app.setStatus "Audio device is unavailable", [])
        | some audio =>
          match { app with audio := some audio.discardCaptureFrames }.sendPcmCodecConfig crates with
          | none => none
          | some (.ok (), app, effects) => some ({ app with pc := .requesting }, effects)
          | some (.error error, app, effects) => some (app.setStatus error, effects)
    | _ => some ({ app with pc := .panicked }, [])

/-- The rest of `on_ptt_pressed`. -/
def requestTalk (app : App) : Option (App × List AppEffect) :=
  match { app with pc := .idle }.sendPttControl crates .pttOn with
  | none => none
  | some (.ok (), app, effects) => some ({ app with pttActive := true }.setStatus "Requesting talk", effects)
  | some (.error error, app, effects) => some (app.setStatus error, effects)

/-- `on_ptt_released`: the flag is cleared first, also where there is no session to tell. -/
def pttReleased (app : App) : Option (App × List AppEffect) :=
  match { app with pttActive := false }.sendPttControl crates .pttOff with
  | none => none
  | some (.ok (), app, effects) => some (app.setStatus "Connected", effects)
  | some (.error error, app, effects) =>
    some (if error = "Connect to the relay first" then app else app.setStatus error, effects)

/-! ## Saving -/

/-- Behind the store's own answer: what is left is to write the file and to report. -/
def save (app : App) (replaced : Outcome ProfileError Unit × ProfileStore)
    (saved : Except ProfileStorageError Unit) (done : String) : App :=
  let app := { app with store := replaced.2 }
  match replaced.1 with
  | .panicked => { app with pc := .panicked }
  | .err error => app.setSaveStatus ("Not saved: " ++ error.toString)
  | .ok () =>
    match saved with
    | .ok () => app.setSaveStatus done
    | .error error => app.setSaveStatus ("Not saved: " ++ error.toString)

/-- `on_save_profile`. -/
def saveProfile (app : App) (saved : Except ProfileStorageError Unit) : App :=
  match profileFromWindow app.window with
  | .error error => app.setSaveStatus ("Not saved: " ++ error)
  | .ok profile => app.save (app.store.replaceActive profile) saved "Profile saved"

/-- `on_save_relay_settings`. -/
def saveRelaySettings (app : App) (saved : Except ProfileStorageError Unit) : App :=
  match relayFromWindow app.window with
  | .error error => app.setSaveStatus ("Not saved: " ++ error)
  | .ok relay => app.save (app.store.replaceRelay relay) saved "Relay settings saved"

/-! ## Connecting and disconnecting -/

/-- The session `on_connect_relay` opens, or the status line it leaves. -/
def openLink (app : App) (resolved : Except IoError (List SocketAddr)) (opening : Opening) :
    Outcome String Link := do
  let relay ← Outcome.ofExcept ((relayFromWindow app.window).mapError ("Invalid relay: " ++ ·))
  let relayAddr ← Outcome.ofExcept ((resolveRelay relay resolved).mapError ("Relay unavailable: " ++ ·))
  let profile ← app.store.active.widen
  let config := RelayConfig.new relayAddr profile.channelId profile.senderId profile.encryption
  let session ← Outcome.ofExcept
    ((Session.connect crates config opening).mapError ("Connection failed: " ++ ·.toString))
  return { config, session }

/-- `on_connect_relay`: at most one session is in the slot. -/
def connectRelay (app : App) (resolved : Except IoError (List SocketAddr)) (opening : Opening) : App :=
  match app.session with
  | some _ => app.setStatus "Already connected"
  | none =>
    match app.openLink crates resolved opening with
    | .ok link =>
      { app with links := app.links ++ [link], session := some app.links.length }.setStatus "Connecting"
    | .err status => app.setStatus status
    | .panicked => { app with pc := .panicked }

/-- The thread behind the drop of a session. -/
def closed (app : App) : Closing → App
  | .disconnect =>
    { app with
      window := (app.window.setConnectionStatus "Disconnected").setActiveTalker "No active speaker"
      pc := .idle }
  | .stopped => { app with pc := .idle }
  | .exit => { app with pc := .ended }

/-- `session.take()`: whatever the slot holds is closed. -/
def takeSession (app : App) (reason : Closing) : App :=
  match app.session with
  | some i => { app with session := none, pc := .closing i reason }
  | none => app.closed reason

/-- `disconnect()` and the drop of session `i`, step by step. A `disconnect` that finds `running` cleared does
nothing, so it is not told apart from the one in `Drop`. -/
def close (app : App) (i : Nat) (reason : Closing) : Option (App × List AppEffect) :=
  match app.links[i]? with
  | none => none
  | some link =>
    match link.session.client with
    | .idle => app.drive crates i (.client (if link.session.running then .disconnect else .release))
    | .posting => app.drive crates i (.client .postDisconnect)
    | .joining => app.drive crates i (.client .joinWorker)
    | .gone => some (app.closed reason, [])

/-! ## The timer -/

/-- One round of the loop over capture frames. -/
def stream (app : App) (rounds : Nat) : Option (App × List AppEffect) :=
  match app.audio.bind DesktopAudio.tryNextCaptureFrame with
  | none => some ({ app with pc := .polling false }, [])
  | some (frame, audio) =>
    let app := { app with audio := some audio, pc := .streaming rounds }
    match app.session with
    | none => some (app, [])
    | some i => app.drive crates i (.client (.sendPcmFrame frame))

/-- One event of the loop over relay events. -/
def handleEvent (app : App) (stopped : Bool) : RelayEvent → App × List AppEffect
  | .pcmReceived senderId frame =>
    match app.store.active with
    | .ok profile =>
      if !profile.muteSelfId || senderId ≠ profile.senderId then
        match app.audio with
        | some audio =>
          ({ app with audio := some (audio.queuePlaybackFrame frame).2 },
            [.playback frame (audio.queuePlaybackFrame frame).1])
        | none => (app, [])
      else (app, [])
    | _ => ({ app with pc := .panicked }, [])
  | event =>
    ({ app with
        window := (applyRelayEvent app.window event).1
        pc := .polling (stopped || (applyRelayEvent app.window event).2) }, [])

/-- One round of that loop. -/
def poll (app : App) (stopped : Bool) : Option (App × List AppEffect) :=
  match app.session with
  | none => some ({ app with pc := .idle }, [])
  | some i =>
    match app.drive crates i (.client .tryNextEvent) with
    | none => none
    | some (app, effects) =>
      match nextEvent effects with
      | some event => some ((app.handleEvent stopped event).1, effects ++ (app.handleEvent stopped event).2)
      | none => some (if stopped then app.takeSession .stopped else { app with pc := .idle }, effects)

/-! ## The machine -/

/-- The first step of a callback, up to where it calls into a session. -/
def callback (app : App) : Callback → Option (App × List AppEffect)
  | .pttPressed => app.pttPressed crates
  | .pttReleased => app.pttReleased crates
  | .saveProfile saved => some (app.saveProfile saved, [])
  | .saveRelaySettings saved => some (app.saveRelaySettings saved, [])
  | .connectRelay resolved opening => some (app.connectRelay crates resolved opening, [])
  | .disconnectRelay => some (app.takeSession .disconnect, [])
  | .tick => some ({ app with pc := if app.pttActive then .streaming 4 else .polling false }, [])
  | .quit => some (app.takeSession .exit, [])

/-- The next step of the thread, from where `pc` says it is. -/
def resume (app : App) : Option (App × List AppEffect) :=
  match app.pc with
  | .idle => none
  | .requesting => app.requestTalk crates
  | .streaming 0 => some ({ app with pc := .polling false }, [])
  | .streaming (rounds + 1) => app.stream crates rounds
  | .polling stopped => app.poll crates stopped
  | .closing i reason => app.close crates i reason
  | .ended => none
  | .panicked => none

end

end App

/-- One step of the application, of an audio stream or of a worker. -/
def appStep (crates : CryptoCrates) (app : App) : Input → Option (App × List AppEffect)
  | .callback callback => if app.pc = .idle then app.callback crates callback else none
  | .resume => app.resume crates
  | .edit form => if app.pc = .idle then some ({ app with window := { app.window with form } }, []) else none
  | .captured frame => some ({ app with audio := app.audio.map (·.captured frame) }, [])
  | .played => some ({ app with audio := app.audio.map DesktopAudio.played }, [])
  | .worker i env => app.drive crates i (.worker env)

/-! ## What a step does to the sessions -/

/-- The effect, if it is one of session `i`. -/
def AppEffect.relay? (i : Nat) : AppEffect → Option Effect
  | .relay j effect => if j = i then some effect else none
  | .playback _ _ => none

/-- The effects of session `i`, in order. -/
def relayed (i : Nat) (effects : List AppEffect) : List Effect := effects.filterMap (AppEffect.relay? i)

theorem relayed_append (i : Nat) (a b : List AppEffect) : relayed i (a ++ b) = relayed i a ++ relayed i b :=
  List.filterMap_append

/-- The effects of session `i` are relayed from that session only. -/
theorem relayed_relay (i j : Nat) (effects : List Effect) :
    relayed j (effects.map (.relay i)) = if i = j then effects else [] := by
  rw [relayed, List.filterMap_map]
  by_cases h : i = j
  · rw [if_pos h]
    calc effects.filterMap (AppEffect.relay? j ∘ .relay i) = effects.filterMap some :=
          List.filterMap_congr fun e _ => if_pos h
      _ = effects := List.filterMap_some
  · rw [if_neg h, List.filterMap_eq_nil_iff]
    intro e _
    exact if_neg h

/-- Nothing, or one step of one session; a worker steps on its own input only. -/
inductive Moves (crates : CryptoCrates) (input : Input) (links links' : List Link) (effects : List AppEffect) :
    Prop where
  | still (hlinks : links' = links) (hrelayed : ∀ j, relayed j effects = [])
  | steps {i : Nat} {link : Link} {label : Label} {session : Session} {es : List Effect}
      (hinput : ∀ env, label = .worker env → input = .worker i env) (hlink : links[i]? = some link)
      (hstep : step crates link.config link.session label = some (session, es))
      (hlinks : links' = links.set i { link with session })
      (hrelayed : ∀ j, relayed j effects = if i = j then es else [])

/-- What relays nothing may follow. -/
theorem Moves.append {crates : CryptoCrates} {input : Input} {links links' : List Link}
    {effects more : List AppEffect} (h : Moves crates input links links' effects)
    (hmore : ∀ j, relayed j more = []) : Moves crates input links links' (effects ++ more) := by
  have hsame : ∀ j, relayed j (effects ++ more) = relayed j effects := by
    intro j
    rw [relayed_append, hmore, List.append_nil]
  cases h with
  | still hlinks hrelayed => exact .still hlinks fun j => (hsame j).trans (hrelayed j)
  | steps hinput hlink hstep hlinks hrelayed =>
    exact .steps hinput hlink hstep hlinks fun j => (hsame j).trans (hrelayed j)

/-- **Seen from one session**, a move leaves it where it was, or is a step of it. -/
theorem Moves.session {crates : CryptoCrates} {input : Input} {links links' : List Link} {effects : List AppEffect}
    (h : Moves crates input links links' effects) {j : Nat} {link' : Link} (hlink' : links'[j]? = some link') :
    links[j]? = some link' ∧ relayed j effects = [] ∨
      ∃ (link : Link) (label : Label) (session : Session), (∀ env, label = .worker env → input = .worker j env) ∧
        links[j]? = some link ∧ step crates link.config link.session label = some (session, relayed j effects) ∧
        link' = { link with session } := by
  cases h with
  | still hlinks hrelayed =>
    rw [hlinks] at hlink'
    exact Or.inl ⟨hlink', hrelayed j⟩
  | @steps i link label session es hinput hlink hstep hlinks hrelayed =>
    rw [hlinks] at hlink'
    rw [hrelayed]
    by_cases hij : i = j
    · subst hij
      rw [List.getElem?_set_self (List.getElem?_eq_some_iff.mp hlink).1, Option.some.injEq] at hlink'
      rw [if_pos rfl]
      exact Or.inr ⟨link, label, session, hinput, hlink, hstep, hlink'.symm⟩
    · rw [List.getElem?_set_ne hij] at hlink'
      rw [if_neg hij]
      exact Or.inl ⟨hlink', rfl⟩

/-- A session keeps its configuration. -/
theorem Moves.config {crates : CryptoCrates} {input : Input} {links links' : List Link} {effects : List AppEffect}
    (h : Moves crates input links links' effects) {j : Nat} {link' : Link} (hlink' : links'[j]? = some link') :
    ∃ link, links[j]? = some link ∧ link.config = link'.config := by
  rcases h.session hlink' with ⟨hsame, -⟩ | ⟨link, -, session, -, hlink, -, rfl⟩
  · exact ⟨link', hsame, rfl⟩
  · exact ⟨link, hlink, rfl⟩

/-! ## What a step submits -/

/-- A `try_send` of the application on session `i`, and whether it was accepted. -/
def AppEffect.attempt? (i : Nat) : AppEffect → Option (RelayCommand × Bool)
  | .relay j effect => if j = i then effect.submitted? else none
  | .playback _ _ => none

/-- The commands submitted to session `i`, in order, with the answers. -/
def attempts (i : Nat) (effects : List AppEffect) : List (RelayCommand × Bool) :=
  effects.filterMap (AppEffect.attempt? i)

theorem attempts_eq_relayed (i : Nat) (effects : List AppEffect) :
    attempts i effects = (relayed i effects).filterMap Effect.submitted? := by
  rw [attempts, relayed, List.filterMap_filterMap]
  apply List.filterMap_congr
  intro e _
  cases e with
  | relay j effect =>
    show (if j = i then effect.submitted? else none) =
      (if j = i then some effect else none).bind Effect.submitted?
    split <;> rfl
  | playback => rfl

theorem attempts_append (i : Nat) (a b : List AppEffect) : attempts i (a ++ b) = attempts i a ++ attempts i b :=
  List.filterMap_append

/-- The effects of session `i` are attempts on that session only. -/
theorem attempts_relay (i j : Nat) (effects : List Effect) :
    attempts j (effects.map (.relay i)) = if i = j then effects.filterMap Effect.submitted? else [] := by
  rw [attempts_eq_relayed, relayed_relay]
  split <;> rfl

namespace App

variable {crates : CryptoCrates} {app app' : App} {i : Nat} {effects : List AppEffect}

/-- Driving session `i` touches that session and nothing else of the application. -/
theorem drive_eq_some {label : Label} (h : app.drive crates i label = some (app', effects)) :
    ∃ link session es, app.links[i]? = some link ∧ step crates link.config link.session label = some (session, es) ∧
      app' = { app with links := app.links.set i { link with session } } ∧ effects = es.map (.relay i) := by
  unfold drive at h
  split at h
  · cases h
  rename_i link hlink
  split at h
  · cases h
  rename_i session es hstep
  obtain ⟨rfl, rfl⟩ := Prod.mk.inj (Option.some.inj h)
  exact ⟨link, session, es, hlink, hstep, rfl, rfl⟩

theorem drive_moves {label : Label} {input : Input} (h : app.drive crates i label = some (app', effects))
    (hinput : ∀ env, label = .worker env → input = .worker i env) :
    Moves crates input app.links app'.links effects := by
  obtain ⟨link, session, es, hlink, hstep, rfl, rfl⟩ := drive_eq_some h
  exact .steps hinput hlink hstep rfl (fun j => relayed_relay i j es)

/-- A client call with a command is one attempt. -/
theorem drive_submits {action : ClientAction} {command : RelayCommand} (hcommand : action.command? = some command)
    (h : app.drive crates i (.client action) = some (app', effects)) :
    ∃ links, app' = { app with links := links } ∧ (∀ input, Moves crates input app.links links effects) ∧
      effects = [.relay i (.submitted command (accepted effects))] := by
  have hmoves : ∀ input, Moves crates input app.links app'.links effects :=
    fun input => drive_moves h fun _ heq => (nomatch heq)
  obtain ⟨link, session, es, -, hstep, rfl, rfl⟩ := drive_eq_some h
  refine ⟨_, rfl, hmoves, ?_⟩
  obtain ⟨ok, rfl⟩ := clientStep_submits hcommand hstep
  simp [accepted]

/-- Any other step of a session is none, and plays nothing. -/
theorem drive_silent {label : Label} (input : Input) (h : app.drive crates i label = some (app', effects))
    (hinput : ∀ env, label = .worker env → input = .worker i env)
    (hlabel : ∀ action, label = .client action → action.command? = none) :
    ∃ links, app' = { app with links := links } ∧ Moves crates input app.links links effects ∧
      (∀ j, attempts j effects = []) ∧ ∀ frame ok, .playback frame ok ∉ effects := by
  have hmoves := drive_moves h hinput
  obtain ⟨link, session, es, -, hstep, rfl, rfl⟩ := drive_eq_some h
  refine ⟨_, rfl, hmoves, ?_, by simp⟩
  have hnone : es.filterMap Effect.submitted? = [] := by
    cases label with
    | client action => exact clientStep_submits_nothing (hlabel action rfl) hstep
    | worker env => exact workerStep_submits hstep
  intro j
  rw [attempts_relay, hnone, ite_self]

/-- What `try_next_event` returns was waiting in the event channel. -/
theorem drive_nextEvent {event : RelayEvent} (h : app.drive crates i (.client .tryNextEvent) = some (app', effects))
    (hnext : nextEvent effects = some event) :
    ∃ link, app.links[i]? = some link ∧ event ∈ link.session.events.queue := by
  obtain ⟨link, session, es, hlink, hstep, -, rfl⟩ := drive_eq_some h
  refine ⟨link, hlink, ?_⟩
  cases clientStep_does hstep with
  | submits _ hcommand => cases hcommand
  | takes _ htake =>
    obtain rfl := Option.some.inj hnext
    rw [(Channel.tryRecv_eq_some htake).1]
    exact List.mem_cons_self
  | finds => cases hnext

/-- An opened session is a fresh one, with the sender id of the active profile. -/
theorem openLink_spec {resolved : Except IoError (List SocketAddr)} {opening : Opening} {link : Link}
    (h : app.openLink crates resolved opening = .ok link) :
    (∃ localAddr random, link.session = Session.start crates link.config localAddr random) ∧
      ∃ profile, app.store.active = .ok profile ∧ link.config.senderId = profile.senderId := by
  obtain ⟨relay, -, h⟩ := (Outcome.bind_eq_ok _ _).mp h
  obtain ⟨relayAddr, -, h⟩ := (Outcome.bind_eq_ok _ _).mp h
  obtain ⟨profile, hprofile, h⟩ := (Outcome.bind_eq_ok _ _).mp h
  obtain ⟨session, hconnect, h⟩ := (Outcome.bind_eq_ok _ _).mp h
  obtain rfl := Outcome.ok.inj h
  refine ⟨Session.connect_fresh (mapError_eq_ok.mp (Outcome.ofExcept_eq_ok.mp hconnect)), profile, ?_, rfl⟩
  cases hactive : app.store.active with
  | ok active =>
    rw [hactive] at hprofile
    rw [Outcome.ok.inj hprofile]
  | err error => exact nomatch error
  | panicked =>
    rw [hactive] at hprofile
    cases hprofile

/-- The application starts without a session. -/
theorem start_sessions (loaded : ProfileStore × String) (audio : Bool) :
    (App.start loaded audio).links = [] ∧ (App.start loaded audio).session = none := by
  unfold App.start
  dsimp only
  split <;> exact ⟨rfl, rfl⟩

end App

end IncomUdon.Desktop
