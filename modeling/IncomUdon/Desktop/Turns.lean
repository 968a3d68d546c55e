/-
# IncomUdon.Desktop.Turns — what one step of the application does, branch by branch.

`IncomUdon.Desktop.Steps` sorts the steps by what they submit. Here every branch of every callback is a constructor
that says what becomes of the whole application: audio queues, flag, slot, store and place. Only the window is left
open where it takes a status line. Invariants that need more than the commands are read off these cases.
-/
import IncomUdon.Desktop.Steps

namespace IncomUdon.Desktop

open IncomUdon.Lib
open IncomUdon.Core
open IncomUdon.Protocol
open IncomUdon.Crypto
open IncomUdon.Transport

/-! ## §1 — the branches -/

/-- Session `i` takes the step `label`, and no other session moves. -/
def Driven (crates : CryptoCrates) (links : List Link) (i : Nat) (label : Label) (links' : List Link)
    (effects : List AppEffect) : Prop :=
  ∃ link session es, links[i]? = some link ∧ step crates link.config link.session label = some (session, es) ∧
    links' = links.set i { link with session } ∧ effects = es.map (.relay i)

/-- An input that neither moves the talk button nor brings a frame of the microphone. -/
def Input.plain : Input → Bool
  | .callback .pttReleased => false
  | .captured _ => false
  | _ => true

/-- Why the thread of the window can panic: an index out of range, in `active()` or in `replace_active`. -/
def App.Panics (app : App) : Prop :=
  (∀ profile, app.store.active ≠ .ok profile) ∨ ∃ op, (app.store.perform op).1 = .panicked

/-- What the client does behind `disconnect` and in the drop of a session. -/
def closesSession : ClientAction → Bool
  | .disconnect | .postDisconnect | .joinWorker | .release => true
  | _ => false

/-- **The branches of a step.** -/
inductive AppTurn (crates : CryptoCrates) (app : App) : Input → App → List AppEffect → Prop where
  /-- Nothing but the window changes: an edit, or a callback that ends with a status line. -/
  | shows {input : Input} {window : AppWindow} (hidle : app.pc = .idle) (hinput : input.plain = true) :
      AppTurn crates app input { app with window } []
  /-- A press without a session: the stale frames are gone all the same. -/
  | discards {window : AppWindow} {audio : DesktopAudio} (hidle : app.pc = .idle) (haudio : app.audio = some audio)
      (hslot : app.session = none) :
      AppTurn crates app (.callback .pttPressed)
        { app with window, audio := some audio.discardCaptureFrames } []
  /-- A press, up to the answer to `CodecConfig`. -/
  | configures {window : AppWindow} {audio : DesktopAudio} {i : Nat} {links : List Link} {effects : List AppEffect}
      (hidle : app.pc = .idle) (haudio : app.audio = some audio) (hslot : app.session = some i)
      (hdriven : Driven crates app.links i (.client (.sendControl .codecConfig App.pcmCodecConfig)) links effects) :
      AppTurn crates app (.callback .pttPressed)
        { app with
          window
          audio := some audio.discardCaptureFrames
          links
          pc := if App.accepted effects then .requesting else app.pc } effects
  | asksNobody {window : AppWindow} (hpc : app.pc = .requesting) (hslot : app.session = none) :
      AppTurn crates app .resume { app with window, pc := .idle } []
  | asks {window : AppWindow} {i : Nat} {links : List Link} {effects : List AppEffect} (hpc : app.pc = .requesting)
      (hslot : app.session = some i)
      (hdriven : Driven crates app.links i (.client (.sendControl .pttOn [])) links effects) :
      AppTurn crates app .resume
        { app with window, links, pttActive := App.accepted effects || app.pttActive, pc := .idle } effects
  | releasesNobody (hidle : app.pc = .idle) (hslot : app.session = none) :
      AppTurn crates app (.callback .pttReleased) { app with pttActive := false } []
  | releases {window : AppWindow} {i : Nat} {links : List Link} {effects : List AppEffect} (hidle : app.pc = .idle)
      (hslot : app.session = some i)
      (hdriven : Driven crates app.links i (.client (.sendControl .pttOff [])) links effects) :
      AppTurn crates app (.callback .pttReleased) { app with window, links, pttActive := false } effects
  | saves {input : Input} {window : AppWindow} {op : StoreOp} (hidle : app.pc = .idle) (hinput : input.plain = true)
      (hop : (app.store.perform op).1 ≠ .panicked) :
      AppTurn crates app input { app with window, store := (app.store.perform op).2 } []
  | opens {resolved : Except IoError (List SocketAddr)} {opening : Opening} {link : Link} {window : AppWindow}
      (hidle : app.pc = .idle) (hslot : app.session = none) (hlink : app.openLink crates resolved opening = .ok link) :
      AppTurn crates app (.callback (.connectRelay resolved opening))
        { app with window, links := app.links ++ [link], session := some app.links.length } []
  /-- `session.take()` in `on_disconnect_relay`, or behind `window.run()`. -/
  | takes {input : Input} {i : Nat} {reason : Closing} (hidle : app.pc = .idle) (hinput : input.plain = true)
      (hreason : reason ≠ .stopped) (hslot : app.session = some i) :
      AppTurn crates app input { app with session := none, pc := .closing i reason } []
  | takesNothing {input : Input} {window : AppWindow} {pc : UiPc} (hidle : app.pc = .idle)
      (hinput : input.plain = true) (hslot : app.session = none) (hpc : pc = .idle ∨ pc = .ended) :
      AppTurn crates app input { app with window, pc } []
  | ticks (hidle : app.pc = .idle) :
      AppTurn crates app (.callback .tick)
        { app with pc := if app.pttActive then .streaming 4 else .polling false } []
  /-- One step of `disconnect` or of the drop. -/
  | closes {i : Nat} {reason : Closing} {action : ClientAction} {links : List Link} {effects : List AppEffect}
      (hpc : app.pc = .closing i reason) (haction : closesSession action = true)
      (hdriven : Driven crates app.links i (.client action) links effects) :
      AppTurn crates app .resume { app with links } effects
  | closed {i : Nat} {reason : Closing} {link : Link} {window : AppWindow} {pc : UiPc}
      (hpc : app.pc = .closing i reason) (hlink : app.links[i]? = some link) (hgone : link.session.client = .gone)
      (hpc' : pc = .idle ∨ pc = .ended) : AppTurn crates app .resume { app with window, pc } []
  /-- The loop over capture frames ends. -/
  | streamed {rounds : Nat} (hpc : app.pc = .streaming rounds) :
      AppTurn crates app .resume { app with pc := .polling false } []
  /-- A frame is taken, and there is no session to send it on. -/
  | wastes {rounds : Nat} {audio audio' : DesktopAudio} {frame : Bytes} (hpc : app.pc = .streaming (rounds + 1))
      (haudio : app.audio = some audio) (hframe : audio.tryNextCaptureFrame = some (frame, audio'))
      (hslot : app.session = none) :
      AppTurn crates app .resume { app with audio := some audio', pc := .streaming rounds } []
  | streams {rounds : Nat} {audio audio' : DesktopAudio} {frame : Bytes} {i : Nat} {links : List Link}
      {effects : List AppEffect} (hpc : app.pc = .streaming (rounds + 1)) (haudio : app.audio = some audio)
      (hframe : audio.tryNextCaptureFrame = some (frame, audio')) (hslot : app.session = some i)
      (hdriven : Driven crates app.links i (.client (.sendPcmFrame frame)) links effects) :
      AppTurn crates app .resume { app with audio := some audio', pc := .streaming rounds, links } effects
  | pollsNothing {stopped : Bool} (hpc : app.pc = .polling stopped) (hslot : app.session = none) :
      AppTurn crates app .resume { app with pc := .idle } []
  /-- The event channel is empty, and the worker has not stopped. -/
  | polled {i : Nat} {links : List Link} {effects : List AppEffect} (hpc : app.pc = .polling false)
      (hslot : app.session = some i) (hdriven : Driven crates app.links i (.client .tryNextEvent) links effects) :
      AppTurn crates app .resume { app with links, pc := .idle } effects
  /-- It is empty, and `Stopped` was among its events. -/
  | stops {i : Nat} {links : List Link} {effects : List AppEffect} (hpc : app.pc = .polling true)
      (hslot : app.session = some i) (hdriven : Driven crates app.links i (.client .tryNextEvent) links effects) :
      AppTurn crates app .resume { app with links, session := none, pc := .closing i .stopped } effects
  /-- An event other than received audio. -/
  | hears {stopped : Bool} {i : Nat} {links : List Link} {effects : List AppEffect} {event : RelayEvent}
      (hpc : app.pc = .polling stopped) (hslot : app.session = some i)
      (hdriven : Driven crates app.links i (.client .tryNextEvent) links effects)
      (hnext : App.nextEvent effects = some event) (hevent : ∀ senderId frame, event ≠ .pcmReceived senderId frame) :
      AppTurn crates app .resume
        { app with
          links
          window := (applyRelayEvent app.window event).1
          pc := .polling (stopped || (applyRelayEvent app.window event).2) } effects
  /-- Received audio that is not played. -/
  | mutes {stopped : Bool} {i : Nat} {links : List Link} {effects : List AppEffect} (hpc : app.pc = .polling stopped)
      (hslot : app.session = some i) (hdriven : Driven crates app.links i (.client .tryNextEvent) links effects) :
      AppTurn crates app .resume { app with links } effects
  | plays {stopped : Bool} {i : Nat} {links : List Link} {effects : List AppEffect} {senderId : UInt32}
      {frame : Bytes} {audio : DesktopAudio} (hpc : app.pc = .polling stopped) (hslot : app.session = some i)
      (hdriven : Driven crates app.links i (.client .tryNextEvent) links effects)
      (hnext : App.nextEvent effects = some (.pcmReceived senderId frame)) (haudio : app.audio = some audio) :
      AppTurn crates app .resume { app with links, audio := some (audio.queuePlaybackFrame frame).2 }
        (effects ++ [.playback frame (audio.queuePlaybackFrame frame).1])
  | captures {frame : Bytes} :
      AppTurn crates app (.captured frame) { app with audio := app.audio.map (·.captured frame) } []
  | sounds : AppTurn crates app .played { app with audio := app.audio.map DesktopAudio.played } []
  | works {i : Nat} {env : Env} {links : List Link} {effects : List AppEffect}
      (hdriven : Driven crates app.links i (.worker env) links effects) :
      AppTurn crates app (.worker i env) { app with links } effects
  /-- An index is out of range. -/
  | panics {input : Input} {window : AppWindow} {store : ProfileStore} {links : List Link} {effects : List AppEffect}
      (hpanics : app.Panics) (hinput : input.plain = true)
      (hlinks : links = app.links ∧ effects = [] ∨
        ∃ i, app.session = some i ∧ Driven crates app.links i (.client .tryNextEvent) links effects) :
      AppTurn crates app input { app with window, store, links, pc := .panicked } effects

/-! ## §2 — every step is one of them -/

namespace App

variable {crates : CryptoCrates} {app app' : App} {input : Input} {effects : List AppEffect}

theorem drive_driven {i : Nat} {label : Label} (h : app.drive crates i label = some (app', effects)) :
    ∃ links, app' = { app with links } ∧ Driven crates app.links i label links effects := by
  obtain ⟨link, session, es, hlink, hstep, rfl, rfl⟩ := drive_eq_some h
  exact ⟨_, rfl, link, session, es, hlink, hstep, rfl, rfl⟩

/-- A control packet is refused for want of a session, or goes to the one in the slot. -/
theorem sendControl_driven {packetType : PacketType} {payload : Bytes} {failure : String}
    {result : Except String Unit}
    (h : app.sendControl crates packetType payload failure = some (result, app', effects)) :
    (app.session = none ∧ result = .error "Connect to the relay first" ∧ app' = app ∧ effects = []) ∨
    ∃ i links, app.session = some i ∧ app' = { app with links } ∧
      Driven crates app.links i (.client (.sendControl packetType payload)) links effects ∧
      result = if accepted effects then .ok () else .error (failure ++ TransportError.workerUnavailable.toString) := by
  unfold sendControl at h
  split at h
  · rename_i hslot
    simp only [Option.some.injEq, Prod.mk.injEq] at h
    obtain ⟨rfl, rfl, rfl⟩ := h
    exact Or.inl ⟨hslot, rfl, rfl, rfl⟩
  · rename_i i hslot
    split at h
    · cases h
    · rename_i driven es hdrive
      obtain ⟨links, rfl, hdriven⟩ := drive_driven hdrive
      simp only [Option.some.injEq, Prod.mk.injEq] at h
      obtain ⟨rfl, rfl, rfl⟩ := h
      exact Or.inr ⟨i, links, hslot, rfl, hdriven, rfl⟩

theorem pttPressed_turn (hidle : app.pc = .idle) (h : app.pttPressed crates = some (app', effects)) :
    AppTurn crates app (.callback .pttPressed) app' effects := by
  unfold pttPressed at h
  split at h
  · obtain ⟨rfl, rfl⟩ := Prod.mk.inj (Option.some.inj h)
    exact .shows hidle rfl
  split at h
  · split at h
    · obtain ⟨rfl, rfl⟩ := Prod.mk.inj (Option.some.inj h)
      exact .shows hidle rfl
    split at h
    · obtain ⟨rfl, rfl⟩ := Prod.mk.inj (Option.some.inj h)
      exact .shows hidle rfl
    rename_i audio haudio
    split at h
    · cases h
    · rename_i hsend
      obtain ⟨rfl, rfl⟩ := Prod.mk.inj (Option.some.inj h)
      rcases sendControl_driven hsend with ⟨-, herror, -⟩ | ⟨i, links, hslot, rfl, hdriven, hresult⟩
      · cases herror
      · have hturn := @AppTurn.configures crates app app.window audio i links _ hidle haudio hslot hdriven
        split at hresult
        · rename_i haccepted
          rwa [if_pos haccepted] at hturn
        · cases hresult
    · rename_i status _ _ hsend
      obtain ⟨rfl, rfl⟩ := Prod.mk.inj (Option.some.inj h)
      rcases sendControl_driven hsend with ⟨hslot, -, rfl, rfl⟩ | ⟨i, links, hslot, rfl, hdriven, hresult⟩
      · exact .discards hidle haudio hslot
      · have hturn := @AppTurn.configures crates app (app.window.setConnectionStatus status) audio i links _ hidle
          haudio hslot hdriven
        split at hresult
        · cases hresult
        · rename_i hrefused
          rwa [if_neg hrefused] at hturn
  · rename_i hactive
    obtain ⟨rfl, rfl⟩ := Prod.mk.inj (Option.some.inj h)
    exact .panics (Or.inl fun profile hprofile => hactive profile hprofile) rfl (Or.inl ⟨rfl, rfl⟩)

theorem requestTalk_turn (hpc : app.pc = .requesting) (h : app.requestTalk crates = some (app', effects)) :
    AppTurn crates app .resume app' effects := by
  unfold requestTalk at h
  split at h
  · cases h
  · rename_i hsend
    obtain ⟨rfl, rfl⟩ := Prod.mk.inj (Option.some.inj h)
    rcases sendControl_driven hsend with ⟨-, herror, -⟩ | ⟨i, links, hslot, rfl, hdriven, hresult⟩
    · cases herror
    · have hturn := @AppTurn.asks crates app (app.window.setConnectionStatus "Requesting talk") i links _ hpc hslot
        hdriven
      split at hresult
      · rename_i haccepted
        rwa [haccepted, Bool.true_or] at hturn
      · cases hresult
  · rename_i status _ _ hsend
    obtain ⟨rfl, rfl⟩ := Prod.mk.inj (Option.some.inj h)
    rcases sendControl_driven hsend with ⟨hslot, -, rfl, rfl⟩ | ⟨i, links, hslot, rfl, hdriven, hresult⟩
    · exact .asksNobody hpc hslot
    · have hturn := @AppTurn.asks crates app (app.window.setConnectionStatus status) i links _ hpc hslot hdriven
      split at hresult
      · cases hresult
      · rename_i hrefused
        rwa [Bool.eq_false_iff.mpr hrefused, Bool.false_or] at hturn

theorem pttReleased_turn (hidle : app.pc = .idle) (h : app.pttReleased crates = some (app', effects)) :
    AppTurn crates app (.callback .pttReleased) app' effects := by
  unfold pttReleased at h
  split at h
  · cases h
  · rename_i hsend
    obtain ⟨rfl, rfl⟩ := Prod.mk.inj (Option.some.inj h)
    rcases sendControl_driven hsend with ⟨-, herror, -⟩ | ⟨i, links, hslot, rfl, hdriven, -⟩
    · cases herror
    · exact .releases hidle hslot hdriven
  · rename_i hsend
    obtain ⟨rfl, rfl⟩ := Prod.mk.inj (Option.some.inj h)
    rcases sendControl_driven hsend with ⟨hslot, herror, rfl, rfl⟩ | ⟨i, links, hslot, rfl, hdriven, -⟩
    · obtain rfl := Except.error.inj herror
      rw [if_pos rfl]
      exact .releasesNobody hidle hslot
    · split
      · exact .releases hidle hslot hdriven
      · exact .releases hidle hslot hdriven

theorem save_turn (hidle : app.pc = .idle) (hinput : input.plain = true) (op : StoreOp)
    (saved : Except ProfileStorageError Unit) (done : String) :
    AppTurn crates app input (app.save (app.store.perform op) saved done) [] := by
  unfold save
  dsimp only
  split
  · rename_i hpanicked
    exact .panics (Or.inr ⟨op, hpanicked⟩) hinput (Or.inl ⟨rfl, rfl⟩)
  · rename_i hrefused
    exact .saves hidle hinput (by simp [hrefused])
  · rename_i hdone
    split
    · exact .saves hidle hinput (by simp [hdone])
    · exact .saves hidle hinput (by simp [hdone])

/-- Opening a session panics only where `active()` does. -/
theorem openLink_ne_panicked {profile : TransceiverProfile} (hactive : app.store.active = .ok profile)
    (resolved : Except IoError (List SocketAddr)) (opening : Opening) :
    app.openLink crates resolved opening ≠ .panicked := by
  refine Outcome.bind_ne_panicked _ _ (Outcome.ofExcept_ne_panicked _) fun relay _ => ?_
  refine Outcome.bind_ne_panicked _ _ (Outcome.ofExcept_ne_panicked _) fun relayAddr _ => ?_
  rw [hactive]
  refine Outcome.bind_ne_panicked _ _ (by simp [Outcome.widen]) fun profile _ => ?_
  exact Outcome.bind_ne_panicked _ _ (Outcome.ofExcept_ne_panicked _) fun session _ => by simp

theorem connectRelay_turn {resolved : Except IoError (List SocketAddr)} {opening : Opening} (hidle : app.pc = .idle) :
    AppTurn crates app (.callback (.connectRelay resolved opening)) (app.connectRelay crates resolved opening) [] := by
  unfold connectRelay
  split
  · exact .shows hidle rfl
  · rename_i hslot
    split
    · rename_i link hlink
      exact .opens hidle hslot hlink
    · exact .shows hidle rfl
    · rename_i hpanicked
      refine .panics (Or.inl ?_) rfl (Or.inl ⟨rfl, rfl⟩)
      intro profile hprofile
      exact openLink_ne_panicked hprofile resolved opening hpanicked

theorem takeSession_turn (hidle : app.pc = .idle) (hinput : input.plain = true) {reason : Closing}
    (hreason : reason ≠ .stopped) : AppTurn crates app input (app.takeSession reason) [] := by
  unfold takeSession
  split
  · rename_i i hslot
    exact .takes hidle hinput hreason hslot
  · rename_i hslot
    cases reason with
    | disconnect => exact .takesNothing hidle hinput hslot (Or.inl rfl)
    | stopped => exact absurd rfl hreason
    | exit => exact @AppTurn.takesNothing crates app input app.window .ended hidle hinput hslot (Or.inr rfl)

theorem close_turn {i : Nat} {reason : Closing} (hpc : app.pc = .closing i reason)
    (h : app.close crates i reason = some (app', effects)) : AppTurn crates app .resume app' effects := by
  unfold close at h
  split at h
  · cases h
  rename_i link hlink
  split at h
  · obtain ⟨links, rfl, hdriven⟩ := drive_driven h
    exact .closes hpc (by split <;> rfl) hdriven
  · obtain ⟨links, rfl, hdriven⟩ := drive_driven h
    exact .closes hpc rfl hdriven
  · obtain ⟨links, rfl, hdriven⟩ := drive_driven h
    exact .closes hpc rfl hdriven
  · rename_i hgone
    obtain ⟨rfl, rfl⟩ := Prod.mk.inj (Option.some.inj h)
    cases reason with
    | disconnect => exact .closed hpc hlink hgone (Or.inl rfl)
    | stopped => exact @AppTurn.closed crates app i .stopped link app.window .idle hpc hlink hgone (Or.inl rfl)
    | exit => exact @AppTurn.closed crates app i .exit link app.window .ended hpc hlink hgone (Or.inr rfl)

theorem stream_turn {rounds : Nat} (hpc : app.pc = .streaming (rounds + 1))
    (h : app.stream crates rounds = some (app', effects)) : AppTurn crates app .resume app' effects := by
  unfold stream at h
  split at h
  · obtain ⟨rfl, rfl⟩ := Prod.mk.inj (Option.some.inj h)
    exact .streamed hpc
  · rename_i frame audio' hframe
    obtain ⟨audio, haudio, htake⟩ := Option.bind_eq_some_iff.mp hframe
    dsimp only at h
    split at h
    · rename_i hslot
      obtain ⟨rfl, rfl⟩ := Prod.mk.inj (Option.some.inj h)
      exact .wastes hpc haudio htake hslot
    · rename_i i hslot
      obtain ⟨links, rfl, hdriven⟩ := drive_driven h
      exact .streams hpc haudio htake hslot hdriven

theorem poll_turn {stopped : Bool} (hpc : app.pc = .polling stopped)
    (h : app.poll crates stopped = some (app', effects)) : AppTurn crates app .resume app' effects := by
  unfold poll at h
  split at h
  · rename_i hslot
    obtain ⟨rfl, rfl⟩ := Prod.mk.inj (Option.some.inj h)
    exact .pollsNothing hpc hslot
  rename_i i hslot
  split at h
  · cases h
  rename_i driven es hdrive
  obtain ⟨links, rfl, hdriven⟩ := drive_driven hdrive
  split at h
  · rename_i event hnext
    obtain ⟨rfl, rfl⟩ := Prod.mk.inj (Option.some.inj h)
    cases event with
    | pcmReceived senderId frame =>
      unfold handleEvent
      dsimp only
      split
      · split
        · split
          · rename_i audio haudio
            exact .plays hpc hslot hdriven hnext haudio
          · rw [List.append_nil]
            exact .mutes hpc hslot hdriven
        · rw [List.append_nil]
          exact .mutes hpc hslot hdriven
      · rename_i hactive
        rw [List.append_nil]
        exact .panics (Or.inl fun profile hprofile => hactive profile hprofile) rfl (Or.inr ⟨i, hslot, hdriven⟩)
    | _ =>
      unfold handleEvent
      rw [List.append_nil]
      exact .hears hpc hslot hdriven hnext (fun _ _ heq => nomatch heq)
  · obtain ⟨rfl, rfl⟩ := Prod.mk.inj (Option.some.inj h)
    cases stopped with
    | true =>
      simp only [takeSession, hslot, if_true]
      exact .stops hpc hslot hdriven
    | false => exact .polled hpc hslot hdriven

theorem callback_turn {callback : Callback} (hidle : app.pc = .idle)
    (h : app.callback crates callback = some (app', effects)) :
    AppTurn crates app (.callback callback) app' effects := by
  cases callback with
  | pttPressed => exact pttPressed_turn hidle h
  | pttReleased => exact pttReleased_turn hidle h
  | saveProfile saved =>
    obtain ⟨rfl, rfl⟩ := Prod.mk.inj (Option.some.inj h)
    unfold saveProfile
    split
    · exact .shows hidle rfl
    · rename_i profile _
      exact save_turn hidle rfl (.replaceActive profile) saved _
  | saveRelaySettings saved =>
    obtain ⟨rfl, rfl⟩ := Prod.mk.inj (Option.some.inj h)
    unfold saveRelaySettings
    split
    · exact .shows hidle rfl
    · rename_i relay _
      exact save_turn hidle rfl (.replaceRelay relay) saved _
  | connectRelay resolved opening =>
    obtain ⟨rfl, rfl⟩ := Prod.mk.inj (Option.some.inj h)
    exact connectRelay_turn hidle
  | disconnectRelay =>
    obtain ⟨rfl, rfl⟩ := Prod.mk.inj (Option.some.inj h)
    exact takeSession_turn hidle rfl (by simp)
  | tick =>
    obtain ⟨rfl, rfl⟩ := Prod.mk.inj (Option.some.inj h)
    exact .ticks hidle
  | quit =>
    obtain ⟨rfl, rfl⟩ := Prod.mk.inj (Option.some.inj h)
    exact takeSession_turn hidle rfl (by simp)

theorem resume_turn (h : app.resume crates = some (app', effects)) : AppTurn crates app .resume app' effects := by
  unfold resume at h
  split at h <;> rename_i hpc
  · cases h
  · exact requestTalk_turn hpc h
  · obtain ⟨rfl, rfl⟩ := Prod.mk.inj (Option.some.inj h)
    exact .streamed hpc
  · exact stream_turn hpc h
  · exact poll_turn hpc h
  · exact close_turn hpc h
  · cases h
  · cases h

end App

/-- **Every step of the application is one of the branches.** -/
theorem appStep_turn {crates : CryptoCrates} {app app' : App} {input : Input} {effects : List AppEffect}
    (h : appStep crates app input = some (app', effects)) : AppTurn crates app input app' effects := by
  cases input with
  | callback callback =>
    simp only [appStep] at h
    split at h
    · rename_i hidle
      exact App.callback_turn hidle h
    · cases h
  | resume => exact App.resume_turn h
  | edit form =>
    simp only [appStep] at h
    split at h
    · rename_i hidle
      obtain ⟨rfl, rfl⟩ := Prod.mk.inj (Option.some.inj h)
      exact .shows hidle rfl
    · cases h
  | captured frame =>
    obtain ⟨rfl, rfl⟩ := Prod.mk.inj (Option.some.inj h)
    exact .captures
  | played =>
    obtain ⟨rfl, rfl⟩ := Prod.mk.inj (Option.some.inj h)
    exact .sounds
  | worker i env =>
    obtain ⟨links, rfl, hdriven⟩ := App.drive_driven h
    exact .works hdriven

end IncomUdon.Desktop
