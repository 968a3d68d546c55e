/-
# IncomUdon.Desktop.Listening — what the speaker plays came in, in the order in which it came.

Received audio goes through four hands: the worker reads a datagram and offers its frame to the event channel, the
timer asks the session in the slot for it, hands it to the playback buffer, and the output stream takes its samples.
Each of them may lose some of it. §1 names what passes at each place, over all the sessions of the application; §2 to
§4 show that each hand passes on a selection of what it was given, in order, none twice and none changed.
-/
import IncomUdon.Desktop.HotMic
import IncomUdon.Transport.Nonce

namespace IncomUdon.Desktop

open IncomUdon.Lib
open IncomUdon.Protocol
open IncomUdon.Crypto
open IncomUdon.Transport
open IncomUdon.Audio

/-! ## §1 — the four places -/

/-- A datagram that a worker reads, with the key it reads it under. -/
def App.reads? (crates : CryptoCrates) (app : App) : Input → Option (Option (ByteArr 32) × Bytes)
  | .worker i env =>
    (app.links[i]?).bind fun link =>
      (Transport.reads? link.session (.worker env)).map fun datagram => (mediaKey crates link.config, datagram)
  | _ => none

/-- A sample that the output stream gets. -/
def App.sounds? (app : App) : Input → Option Int16
  | .played => app.audio.bind fun audio => audio.playback.popSample.1
  | _ => none

/-- The frame that a worker offers, with its sender. -/
def AppEffect.offered? : AppEffect → Option (UInt32 × Bytes)
  | .relay _ e => e.offered?
  | .playback _ _ => none

/-- The frame that a session tells the application. -/
def AppEffect.told? : AppEffect → Option (UInt32 × Bytes)
  | .relay _ e => e.told?
  | .playback _ _ => none

/-- The frame handed to the playback buffer. -/
def AppEffect.played? : AppEffect → Option Bytes
  | .relay _ _ => none
  | .playback frame _ => some frame

/-- The frames that workers offered, with their senders. -/
def offeredFrames (effects : List AppEffect) : List (UInt32 × Bytes) := effects.filterMap AppEffect.offered?

/-- The frames that the application was told. -/
def toldFrames (effects : List AppEffect) : List (UInt32 × Bytes) := effects.filterMap AppEffect.told?

/-- The frames handed to the playback buffer. -/
def playedFrames (effects : List AppEffect) : List Bytes := effects.filterMap AppEffect.played?

/-- The samples that wait in the buffer. -/
def App.buffered (app : App) : List Int16 :=
  match app.audio with
  | some audio => audio.playback.samples
  | none => []

/-- The frames that wait in the event channel of the session in the slot. -/
def App.slotHeard (app : App) : List (UInt32 × Bytes) :=
  match app.session.bind fun i => app.links[i]? with
  | some link => link.session.heard
  | none => []

theorem offeredFrames_append (a b : List AppEffect) : offeredFrames (a ++ b) = offeredFrames a ++ offeredFrames b :=
  List.filterMap_append

theorem toldFrames_append (a b : List AppEffect) : toldFrames (a ++ b) = toldFrames a ++ toldFrames b :=
  List.filterMap_append

theorem playedFrames_append (a b : List AppEffect) : playedFrames (a ++ b) = playedFrames a ++ playedFrames b :=
  List.filterMap_append

/-- The effects of a session, as the application passes them on. -/
theorem frames_relay (i : Nat) (es : List Effect) :
    offeredFrames (es.map (.relay i)) = es.filterMap Effect.offered? ∧
      toldFrames (es.map (.relay i)) = es.filterMap Effect.told? ∧ playedFrames (es.map (.relay i)) = [] := by
  refine ⟨?_, ?_, ?_⟩
  · rw [offeredFrames, List.filterMap_map]
    rfl
  · rw [toldFrames, List.filterMap_map]
    rfl
  · rw [playedFrames, List.filterMap_map, List.filterMap_eq_nil_iff]
    exact fun _ _ => rfl

/-! ## §2 — from the datagrams to the offers -/

section Offering

variable {crates : CryptoCrates} {app app' : App} {inputs : List Input} {input : Input}
  {seen effects : List AppEffect}

/-- Every session keeps the key it was opened with. -/
def KeepsKeys (crates : CryptoCrates) (app : App) : Prop :=
  ∀ (i : Nat) (link : Link), app.links[i]? = some link → link.session.media.key = mediaKey crates link.config

theorem SessionsSoFar.keepsKeys (h : SessionsSoFar crates app inputs seen) : KeepsKeys crates app := by
  intro i link hlink
  obtain ⟨localAddr, random, labels, hrun, -⟩ := h.runs i link hlink
  exact (run_calls hrun).1

/-- A step that is no worker's offers nothing. -/
theorem appStep_offers_nothing (hinput : ∀ i env, input ≠ .worker i env)
    (h : appStep crates app input = some (app', effects)) : offeredFrames effects = [] := by
  have hclient : ∀ {links links' : List Link} {i : Nat} {action : ClientAction} {es : List AppEffect},
      Driven crates links i (.client action) links' es → offeredFrames es = [] := by
    rintro links links' i action es ⟨link, session, es', -, hstep, -, rfl⟩
    rw [(frames_relay i es').1]
    exact (clientStep_heard hstep).2
  cases appStep_turn h with
  | shows | discards | asksNobody | releasesNobody | saves | opens | takes | takesNothing | ticks | closed | streamed
  | wastes | pollsNothing | captures | sounds => rfl
  | configures _ _ _ hdriven | asks _ _ hdriven | releases _ _ hdriven | streams _ _ _ _ hdriven
  | closes _ _ hdriven | polled _ _ hdriven | stops _ _ hdriven | hears _ _ hdriven | mutes _ _ hdriven =>
    exact hclient hdriven
  | plays _ _ hdriven =>
    rw [offeredFrames_append, hclient hdriven]
    rfl
  | works => exact absurd rfl (hinput _ _)
  | panics _ _ hlinks =>
    rcases hlinks with ⟨-, rfl⟩ | ⟨i, -, hdriven⟩
    · rfl
    · exact hclient hdriven

/-- **One step offers what the datagram it reads spells.** -/
theorem appStep_offered (hkeys : KeepsKeys crates app) (h : appStep crates app input = some (app', effects)) :
    offeredFrames effects = (app.reads? crates input).toList.filterMap fun read => hear crates read.1 read.2 := by
  by_cases hworker : ∃ i env, input = .worker i env
  · obtain ⟨i, env, rfl⟩ := hworker
    obtain ⟨links, -, link, session, es, hlink, hstep, -, rfl⟩ := App.drive_driven h
    rw [(frames_relay i es).1, step_offered hstep, hkeys i link hlink, App.reads?, hlink, Option.bind_some]
    cases Transport.reads? link.session (.worker env) with
    | none => rfl
    | some datagram => rfl
  · have hinput : ∀ i env, input ≠ .worker i env := fun i env heq => hworker ⟨i, env, heq⟩
    rw [appStep_offers_nothing hinput h]
    cases input with
    | worker i env => exact absurd rfl (hinput i env)
    | _ => rfl

end Offering

/-! ## §3 — from the offers to the application -/

section Telling

variable {crates : CryptoCrates} {app app' : App} {inputs : List Input} {input : Input}
  {seen effects : List AppEffect}

theorem App.slotHeard_of_slot {i : Nat} {link : Link} (hslot : app.session = some i)
    (hlink : app.links[i]? = some link) : app.slotHeard = link.session.heard := by
  rw [App.slotHeard, hslot, Option.bind_some, hlink]

theorem App.slotHeard_of_none (hslot : app.session = none) : app.slotHeard = [] := by
  rw [App.slotHeard, hslot, Option.bind_none]

/-- What waits in a slot depends on slot and sessions only. -/
theorem App.slotHeard_congr (hslot : app'.session = app.session) (hlinks : app'.links = app.links) :
    app'.slotHeard = app.slotHeard := by
  rw [App.slotHeard, App.slotHeard, hslot, hlinks]

/-- A call on a session: what it is told was waiting in front. -/
theorem Driven.tells {i : Nat} {action : ClientAction}
    (h : Driven crates app.links i (.client action) app'.links effects)
    (hasks : app.session = some i ∨ action ≠ .tryNextEvent) (hslot : app'.session = app.session) :
    app.slotHeard = toldFrames effects ++ app'.slotHeard := by
  obtain ⟨link, session, es, hlink, hstep, hlinks, rfl⟩ := h
  obtain ⟨hheard, -⟩ := clientStep_heard hstep
  rw [(frames_relay i es).2.1]
  by_cases hown : app.session = some i
  · have hlink' : app'.links[i]? = some { link with session } := by
      rw [hlinks]
      exact List.getElem?_set_self (List.getElem?_eq_some_iff.mp hlink).1
    rw [App.slotHeard_of_slot hown hlink, App.slotHeard_of_slot (hslot.trans hown) hlink', hheard]
  · -- another session, which is not asked
    have hnone : es.filterMap Effect.told? = [] := by
      have hcalm := hasks.resolve_left hown
      cases clientStep_does hstep with
      | @submits _ command =>
        obtain ⟨ok, hes⟩ := link.session.submit_effects command
        rw [hes]
        rfl
      | posts =>
        obtain ⟨ok, hes⟩ := link.session.submit_effects .disconnect
        rw [hes]
        rfl
      | takes | finds => exact absurd rfl hcalm
      | stops | stopped | joins | releases => rfl
    rw [hnone, List.nil_append]
    cases hsession : app.session with
    | none => rw [App.slotHeard_of_none hsession, App.slotHeard_of_none (hslot.trans hsession)]
    | some j =>
      have hne : i ≠ j := by
        rintro rfl
        exact hown hsession
      rw [App.slotHeard, App.slotHeard, hslot, hsession, Option.bind_some, Option.bind_some, hlinks,
        List.getElem?_set_ne hne]

/-- **A step of a worker** puts what it offers behind what waits, or loses it. -/
theorem Driven.offers {i : Nat} {env : Env} (h : Driven crates app.links i (.worker env) app'.links effects)
    (hslot : app'.session = app.session) :
    toldFrames effects = [] ∧ app'.slotHeard.Sublist (app.slotHeard ++ offeredFrames effects) := by
  obtain ⟨link, session, es, hlink, hstep, hlinks, rfl⟩ := h
  rw [(frames_relay i es).2.1, (frames_relay i es).1]
  refine ⟨workerStep_told hstep, ?_⟩
  cases hsession : app.session with
  | none =>
    rw [App.slotHeard_of_none (hslot.trans hsession)]
    exact List.nil_sublist _
  | some j =>
    by_cases hij : i = j
    · subst hij
      have hlink' : app'.links[i]? = some { link with session } := by
        rw [hlinks]
        exact List.getElem?_set_self (List.getElem?_eq_some_iff.mp hlink).1
      rw [App.slotHeard_of_slot hsession hlink, App.slotHeard_of_slot (hslot.trans hsession) hlink', offered_eq_event,
        Session.heard, Session.heard, ← List.filterMap_append]
      apply List.Sublist.filterMap
      rw [show session.events = _ from (workerStep_turn hstep).2.1]
      exact Channel.post_sublist _ _
    · have hsame : app'.slotHeard = app.slotHeard := by
        rw [App.slotHeard, App.slotHeard, hslot, hsession, Option.bind_some, Option.bind_some, hlinks,
          List.getElem?_set_ne hij]
      rw [hsame]
      exact List.sublist_append_left _ _

/-- What was told, and then what waits in the slot, is a selection of what was offered. -/
def TellsInOrder (app : App) (effects : List AppEffect) : Prop :=
  (toldFrames effects ++ app.slotHeard).Sublist (offeredFrames effects)

/-- A step that tells from the front of the slot. -/
theorem TellsInOrder.tells (hinv : TellsInOrder app seen)
    (htells : (toldFrames effects ++ app'.slotHeard).Sublist app.slotHeard) : TellsInOrder app' (seen ++ effects) := by
  rw [TellsInOrder, toldFrames_append, offeredFrames_append, List.append_assoc]
  exact (((List.Sublist.refl _).append htells).trans hinv).trans (List.sublist_append_left _ _)

/-- A step that tells nothing, and leaves the slot or empties it. -/
theorem TellsInOrder.quiet (hinv : TellsInOrder app seen) (hslot : app'.session = app.session ∨ app'.session = none)
    (hlinks : app'.links = app.links) : TellsInOrder app' (seen ++ []) := by
  apply hinv.tells
  rcases hslot with hsame | hnone
  · rw [App.slotHeard_congr hsame hlinks]
    exact List.Sublist.refl _
  · rw [App.slotHeard_of_none hnone]
    exact List.nil_sublist _

/-- A step of the client, with a playback behind it or without. -/
theorem TellsInOrder.driven (hinv : TellsInOrder app seen) {i : Nat} {action : ClientAction} {more : List AppEffect}
    (hdriven : Driven crates app.links i (.client action) app'.links effects)
    (hasks : app.session = some i ∨ action ≠ .tryNextEvent) (hslot : app'.session = app.session)
    (hmore : toldFrames more = []) : TellsInOrder app' (seen ++ (effects ++ more)) := by
  apply hinv.tells
  rw [toldFrames_append, hmore, List.append_nil, hdriven.tells hasks hslot]

theorem TellsInOrder.step (hinv : TellsInOrder app seen) (h : AppTurn crates app input app' effects) :
    TellsInOrder app' (seen ++ effects) := by
  have hplain : ∀ {i : Nat} {action : ClientAction} {effects : List AppEffect} {app' : App},
      Driven crates app.links i (.client action) app'.links effects → app.session = some i ∨ action ≠ .tryNextEvent →
      app'.session = app.session → TellsInOrder app' (seen ++ effects) := by
    intro i action effects app' hdriven hasks hslot
    have hdone : TellsInOrder app' (seen ++ (effects ++ [])) := hinv.driven hdriven hasks hslot rfl
    rwa [List.append_nil] at hdone
  cases h with
  | shows | discards | asksNobody | releasesNobody | saves | ticks | closed | streamed | wastes | pollsNothing
  | captures | sounds | takesNothing => exact hinv.quiet (Or.inl rfl) rfl
  | takes => exact hinv.quiet (Or.inr rfl) rfl
  | configures _ _ _ hdriven | asks _ _ hdriven | releases _ _ hdriven | streams _ _ _ _ hdriven =>
    exact hplain hdriven (Or.inr (by simp)) rfl
  | opens _ _ hlink =>
    -- a fresh session has nothing to tell
    obtain ⟨⟨localAddr, random, hfresh⟩, -⟩ := App.openLink_spec hlink
    apply hinv.tells
    rw [App.slotHeard_of_slot rfl List.getElem?_concat_length, hfresh]
    exact List.nil_sublist _
  | closes _ haction hdriven =>
    refine hplain hdriven (Or.inr ?_) rfl
    rintro rfl
    cases haction
  | polled _ hslot hdriven | hears _ hslot hdriven | mutes _ hslot hdriven => exact hplain hdriven (Or.inl hslot) rfl
  | plays _ hslot hdriven => exact hinv.driven hdriven (Or.inl hslot) rfl rfl
  | @stops i links effects _ hslot hdriven =>
    have htells := @Driven.tells crates app { app with links } effects i .tryNextEvent hdriven (Or.inl hslot) rfl
    apply hinv.tells
    rw [App.slotHeard_of_none rfl, List.append_nil, htells]
    exact List.sublist_append_left _ _
  | @works i env links effects hdriven =>
    obtain ⟨hnone, hwaits⟩ := @Driven.offers crates app { app with links } effects i env hdriven rfl
    rw [TellsInOrder, toldFrames_append, hnone, List.append_nil, offeredFrames_append]
    refine ((List.Sublist.refl _).append hwaits).trans ?_
    rw [← List.append_assoc]
    exact List.Sublist.append hinv (List.Sublist.refl _)
  | panics _ _ hlinks =>
    rcases hlinks with ⟨rfl, rfl⟩ | ⟨i, hslot, hdriven⟩
    · exact hinv.quiet (Or.inl rfl) rfl
    · exact hplain hdriven (Or.inl hslot) rfl

/-! ## §4 — from the application to the speaker -/

/-- A frame that is taken from the capture queue leaves the playback buffer as it is. -/
theorem DesktopAudio.tryNextCaptureFrame_playback {audio audio' : DesktopAudio} {frame : Bytes}
    (h : audio.tryNextCaptureFrame = some (frame, audio')) : audio'.playback = audio.playback := by
  unfold DesktopAudio.tryNextCaptureFrame at h
  split at h
  · obtain ⟨-, rfl⟩ := Prod.mk.inj (Option.some.inj h)
    rfl
  · cases h

/-- **What a step plays it was told in that step.** -/
theorem AppTurn.plays_told (h : AppTurn crates app input app' effects) :
    (playedFrames effects).Sublist ((toldFrames effects).map Prod.snd) := by
  have hclient : ∀ {links links' : List Link} {i : Nat} {label : Label} {es : List AppEffect},
      Driven crates links i label links' es → playedFrames es = [] := by
    rintro links links' i label es ⟨link, session, es', -, -, -, rfl⟩
    exact (frames_relay i es').2.2
  have hsilent : playedFrames effects = [] → (playedFrames effects).Sublist ((toldFrames effects).map Prod.snd) := by
    intro hnone
    rw [hnone]
    exact List.nil_sublist _
  cases h with
  | shows | discards | asksNobody | releasesNobody | saves | opens | takes | takesNothing | ticks | closed | streamed
  | wastes | pollsNothing | captures | sounds => exact List.nil_sublist _
  | configures _ _ _ hdriven | asks _ _ hdriven | releases _ _ hdriven | streams _ _ _ _ hdriven
  | closes _ _ hdriven | polled _ _ hdriven | stops _ _ hdriven | hears _ _ hdriven | mutes _ _ hdriven
  | works hdriven => exact hsilent (hclient hdriven)
  | @plays stopped i links effects senderId frame audio _ _ hdriven hnext =>
    obtain ⟨j, hmem⟩ := mem_of_nextEvent hnext
    have htold : (senderId, frame) ∈ toldFrames effects := List.mem_filterMap.mpr ⟨_, hmem, rfl⟩
    rw [playedFrames_append, hclient hdriven, toldFrames_append, List.map_append]
    refine List.Sublist.trans ?_ (List.sublist_append_left _ _)
    exact List.singleton_sublist.mpr (List.mem_map.mpr ⟨_, htold, rfl⟩)
  | panics _ _ hlinks =>
    rcases hlinks with ⟨-, rfl⟩ | ⟨i, -, hdriven⟩
    · exact List.nil_sublist _
    · exact hsilent (hclient hdriven)

/-- The buffer takes the samples of a frame, behind what it keeps of its own. -/
theorem pushPcmFrame_sublist (buffer : PlaybackBuffer) (frame : Bytes) :
    (buffer.pushPcmFrame frame).2.samples.Sublist (buffer.samples ++ frameSamples frame) := by
  by_cases hlen : frame.length = pcmFrameBytes
  · rw [(buffer.pushPcmFrame_of_length hlen).2]
    exact (List.drop_sublist _ _).append (List.Sublist.refl _)
  · unfold PlaybackBuffer.pushPcmFrame
    split
    · exact List.sublist_append_left _ _
    · rename_i hsome
      rw [decodePcmFrame, if_pos hlen] at hsome
      cases hsome

/-- A sample that is popped was the oldest. -/
theorem popSample_samples (buffer : PlaybackBuffer) :
    buffer.samples = buffer.popSample.1.toList ++ buffer.popSample.2.samples := by
  unfold PlaybackBuffer.popSample
  split
  · rename_i hempty
    rw [hempty]
    rfl
  · rename_i hcons
    exact hcons

theorem App.buffered_of_audio {audio : DesktopAudio} (h : app.audio = some audio) :
    app.buffered = audio.playback.samples := by
  rw [App.buffered, h]

/-- What the speaker is not asked for changes the buffer only where a frame is played. -/
theorem AppTurn.buffers (h : AppTurn crates app input app' effects) (hinput : input ≠ .played) :
    app'.buffered.Sublist (app.buffered ++ (playedFrames effects).flatMap frameSamples) := by
  have hsame : app'.buffered = app.buffered →
      app'.buffered.Sublist (app.buffered ++ (playedFrames effects).flatMap frameSamples) := by
    intro heq
    rw [heq]
    exact List.sublist_append_left _ _
  cases h with
  | shows | asksNobody | asks | releasesNobody | releases | saves | opens | takes | takesNothing | ticks | closes
  | closed | streamed | pollsNothing | polled | stops | hears | mutes | works | panics => exact hsame rfl
  | discards _ haudio | configures _ haudio =>
    apply hsame
    rw [App.buffered_of_audio haudio]
    rfl
  | wastes _ haudio hframe | streams _ haudio hframe =>
    apply hsame
    rw [App.buffered_of_audio haudio, App.buffered_of_audio rfl, DesktopAudio.tryNextCaptureFrame_playback hframe]
  | @plays stopped i links effects senderId frame audio _ _ hdriven _ haudio =>
    obtain ⟨link, session, es, -, -, -, rfl⟩ := hdriven
    rw [playedFrames_append, (frames_relay i es).2.2, List.nil_append, App.buffered_of_audio haudio]
    show (audio.playback.pushPcmFrame frame).2.samples.Sublist (audio.playback.samples ++ (frameSamples frame ++ []))
    rw [List.append_nil]
    exact pushPcmFrame_sublist _ _
  | captures =>
    apply hsame
    unfold App.buffered
    cases app.audio <;> rfl
  | sounds => exact absurd rfl hinput

/-- **One step of the buffer**: what it held and the samples of what is played, less what is lost. -/
theorem appStep_sounds (h : appStep crates app input = some (app', effects)) :
    ((app.sounds? input).toList ++ app'.buffered).Sublist
      (app.buffered ++ (playedFrames effects).flatMap frameSamples) := by
  by_cases hplayed : input = .played
  · subst hplayed
    obtain ⟨rfl, rfl⟩ := Prod.mk.inj (Option.some.inj h)
    unfold App.sounds? App.buffered
    cases app.audio with
    | none => exact List.Sublist.refl _
    | some audio =>
      show (audio.playback.popSample.1.toList ++ audio.playback.popSample.2.samples).Sublist
        (audio.playback.samples ++ [])
      rw [List.append_nil, ← popSample_samples]
  · have hnone : app.sounds? input = none := by
      cases input with
      | played => exact absurd rfl hplayed
      | _ => rfl
    rw [hnone]
    exact (appStep_turn h).buffers hplayed

end Telling

/-! ## §5 — runs -/

section Runs

variable {crates : CryptoCrates} {loaded : Core.ProfileStore × String} {audio : Bool} {inputs : List Input} {app : App}
  {effects : List AppEffect}

/-- What the datagrams that workers read spell, each under the key of its session. -/
def heardFrames (crates : CryptoCrates) (app : App) (inputs : List Input) : List (UInt32 × Bytes) :=
  (observed (appStep crates) (App.reads? crates) app inputs).filterMap fun read => hear crates read.1 read.2

/-- What the output stream gets. -/
def soundedSamples (crates : CryptoCrates) (app : App) (inputs : List Input) : List Int16 :=
  observed (appStep crates) App.sounds? app inputs

/-- The workers offer what they hear. -/
theorem run_app_offered (hrun : run (appStep crates) (App.start loaded audio) inputs = some (app, effects)) :
    offeredFrames effects = heardFrames crates (App.start loaded audio) inputs := by
  have hend := run_observed (App.reads? crates) (R := fun app reads effects =>
    (∃ inputs, SessionsSoFar crates app inputs effects) ∧
      offeredFrames effects = reads.filterMap fun read => hear crates read.1 read.2) ?_ inputs [] []
    ⟨⟨[], app_run_sessions rfl⟩, rfl⟩ hrun
  · exact hend.2
  · rintro app reads seen input app' es ⟨⟨past, hsessions⟩, hseen⟩ hstep
    refine ⟨⟨_, hsessions.step hstep⟩, ?_⟩
    rw [offeredFrames_append, List.filterMap_append, hseen, appStep_offered hsessions.keepsKeys hstep]

/-- The application is told a selection of what was offered. -/
theorem run_app_told (hrun : run (appStep crates) (App.start loaded audio) inputs = some (app, effects)) :
    TellsInOrder app effects := by
  refine run_history (R := fun app _ effects => TellsInOrder app effects)
    (fun _ _ _ _ _ _ hinv hstep => hinv.step (appStep_turn hstep)) ?_ hrun
  rw [TellsInOrder, App.slotHeard_of_none (App.start_sessions loaded audio).2]
  exact List.Sublist.refl _

/-- The buffer is handed a selection of what the application was told. -/
theorem run_app_played (hrun : run (appStep crates) (App.start loaded audio) inputs = some (app, effects)) :
    (playedFrames effects).Sublist ((toldFrames effects).map Prod.snd) := by
  refine run_history (R := fun _ _ effects => (playedFrames effects).Sublist ((toldFrames effects).map Prod.snd)) ?_
    (List.Sublist.refl _) hrun
  intro app _ seen input app' es hseen hstep
  rw [playedFrames_append, toldFrames_append, List.map_append]
  exact hseen.append (appStep_turn hstep).plays_told

/-- The stream gets a selection of the samples of what was played, and the buffer holds some of the rest. -/
theorem run_app_sounds (hrun : run (appStep crates) (App.start loaded audio) inputs = some (app, effects)) :
    (soundedSamples crates (App.start loaded audio) inputs ++ app.buffered).Sublist
      ((playedFrames effects).flatMap frameSamples) := by
  refine run_observed App.sounds? (R := fun app sounds effects =>
    (sounds ++ app.buffered).Sublist ((playedFrames effects).flatMap frameSamples)) ?_ inputs [] [] ?_ hrun
  · intro app sounds seen input app' es hseen hstep
    rw [playedFrames_append, List.flatMap_append, List.append_assoc]
    refine ((List.Sublist.refl sounds).append (appStep_sounds hstep)).trans ?_
    rw [← List.append_assoc]
    exact hseen.append (List.Sublist.refl _)
  · have hempty : (App.start loaded audio).buffered = [] := by
      have haudio : (App.start loaded audio).audio = if audio then some DesktopAudio.opened else none := by
        unfold App.start
        dsimp only
        split <;> rfl
      rw [App.buffered, haudio]
      cases audio <;> rfl
    rw [hempty]
    exact List.Sublist.refl _

/-- **What the speaker plays came in, in that order.** In any run of the application, however its threads interleave
and its sessions follow each other: the workers offer, in order, exactly the frames that the datagrams they read spell
under the key of their session, also where a datagram comes twice; the frames the application is told are a selection
of these, so none is told twice that came once; those it plays are a selection of what it is told, and the samples the
output stream gets a selection of theirs. -/
theorem plays_in_order (hrun : run (appStep crates) (App.start loaded audio) inputs = some (app, effects)) :
    offeredFrames effects = heardFrames crates (App.start loaded audio) inputs ∧
    (toldFrames effects).Sublist (offeredFrames effects) ∧
    (playedFrames effects).Sublist ((toldFrames effects).map Prod.snd) ∧
    (soundedSamples crates (App.start loaded audio) inputs).Sublist ((playedFrames effects).flatMap frameSamples) :=
  ⟨run_app_offered hrun, (List.sublist_append_left _ _).trans (run_app_told hrun), run_app_played hrun,
    (List.sublist_append_left _ _).trans (run_app_sounds hrun)⟩

/-- A station on the channel of `pcmStore`. -/
def neighbour : RelayConfig := RelayConfig.new (.v4 (ByteArr.replicate 4 127) 50000) 0 7 .aesGcmV2

/-- A frame as that station would send it. -/
def neighbourDatagram (frame : Bytes) : Bytes :=
  ((sendPcm tagCrates neighbour 0 (MediaState.new tagCrates neighbour 0) frame
    (.ok ())).effects.findSome? Effect.datagram?).getD []

/-- Connect, hear one frame, ask for events until there are none, and play one sample. -/
def listenInputs : List Input :=
  [connects] ++ List.replicate 7 (workerTick 0) ++
    [.worker 0 ⟨.ok (), 0, .ok (neighbourDatagram (List.replicate 320 1))⟩, .callback .tick] ++
    List.replicate 4 .resume ++ [.played]

/-- The neighbour is heard. -/
theorem plays_in_order_neighbour : ∃ app effects,
    run (appStep tagCrates) (App.start (pcmStore, "Profile restored") true) listenInputs = some (app, effects) ∧
    toldFrames effects = [(7, List.replicate 320 1)] ∧
    (toldFrames effects).Sublist (offeredFrames effects) := by
  have hview : (run (appStep tagCrates) (App.start (pcmStore, "Profile restored") true) listenInputs).map
      (fun r => toldFrames r.2) = some [(7, List.replicate 320 1)] := by decide +kernel
  obtain ⟨⟨app, effects⟩, hrun, htold⟩ := Option.map_eq_some_iff.mp hview
  exact ⟨app, effects, hrun, htold, (plays_in_order hrun).2.1⟩

end Runs

end IncomUdon.Desktop
