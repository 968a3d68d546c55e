/-
# IncomUdon.Desktop.Display — what the window shows, and who changes it.

The window has three kinds of properties: the form, which the user edits, the line with the active talker, and two
status lines. §1 shows callback by callback that most of the application writes status lines only, and that nobody but
the user writes into the form. §2 follows the talker line over whole runs: it is what the relay last said to the
session in the slot, and that was a datagram.
-/
import IncomUdon.Desktop.SelfMute
import IncomUdon.Desktop.Slot
import IncomUdon.Transport.Reports

namespace IncomUdon.Desktop

open IncomUdon.Lib
open IncomUdon.Core
open IncomUdon.Protocol
open IncomUdon.Crypto
open IncomUdon.Transport

/-! ## §1 — who writes into the window -/

/-- What the talker line shows while nobody speaks. -/
def noSpeaker : String := "No active speaker"

/-- At most the status lines differ. -/
def SameDisplay (app app' : App) : Prop :=
  app'.window.form = app.window.form ∧ app'.window.activeTalker = app.window.activeTalker

theorem SameDisplay.rfl {app : App} : SameDisplay app app := ⟨Eq.refl _, Eq.refl _⟩

namespace App

variable {crates : CryptoCrates} {app app' : App} {effects : List AppEffect}

theorem drive_display {i : Nat} {label : Label} (h : app.drive crates i label = some (app', effects)) :
    SameDisplay app app' := by
  obtain ⟨link, session, es, -, -, rfl, -⟩ := drive_eq_some h
  exact .rfl

theorem sendControl_display {packetType : PacketType} {payload : Bytes} {failure : String}
    {result : Except String Unit}
    (h : app.sendControl crates packetType payload failure = some (result, app', effects)) :
    SameDisplay app app' := by
  rcases sendControl_cases h with ⟨-, rfl, -⟩ | ⟨i, links, ok, -, rfl, -⟩ <;> exact .rfl

theorem pttPressed_display (h : app.pttPressed crates = some (app', effects)) : SameDisplay app app' := by
  unfold pttPressed at h
  split at h
  · obtain ⟨rfl, -⟩ := Prod.mk.inj (Option.some.inj h)
    exact .rfl
  split at h
  · split at h
    · obtain ⟨rfl, -⟩ := Prod.mk.inj (Option.some.inj h)
      exact .rfl
    split at h
    · obtain ⟨rfl, -⟩ := Prod.mk.inj (Option.some.inj h)
      exact .rfl
    split at h
    · cases h
    · rename_i hsend
      obtain ⟨rfl, -⟩ := Prod.mk.inj (Option.some.inj h)
      exact (sendControl_display hsend :)
    · rename_i hsend
      obtain ⟨rfl, -⟩ := Prod.mk.inj (Option.some.inj h)
      exact (sendControl_display hsend :)
  · obtain ⟨rfl, -⟩ := Prod.mk.inj (Option.some.inj h)
    exact .rfl

theorem requestTalk_display (h : app.requestTalk crates = some (app', effects)) : SameDisplay app app' := by
  unfold requestTalk at h
  split at h
  · cases h
  · rename_i hsend
    obtain ⟨rfl, -⟩ := Prod.mk.inj (Option.some.inj h)
    exact (sendControl_display hsend :)
  · rename_i hsend
    obtain ⟨rfl, -⟩ := Prod.mk.inj (Option.some.inj h)
    exact (sendControl_display hsend :)

theorem pttReleased_display (h : app.pttReleased crates = some (app', effects)) : SameDisplay app app' := by
  unfold pttReleased at h
  split at h
  · cases h
  · rename_i hsend
    obtain ⟨rfl, -⟩ := Prod.mk.inj (Option.some.inj h)
    exact (sendControl_display hsend :)
  · rename_i hsend
    obtain ⟨rfl, -⟩ := Prod.mk.inj (Option.some.inj h)
    split <;> exact (sendControl_display hsend :)

theorem save_display (replaced : Outcome ProfileError Unit × ProfileStore) (saved : Except ProfileStorageError Unit)
    (done : String) : SameDisplay app (app.save replaced saved done) := by
  unfold save
  dsimp only
  split
  · exact .rfl
  · exact .rfl
  · split <;> exact .rfl

theorem saveProfile_display (saved : Except ProfileStorageError Unit) : SameDisplay app (app.saveProfile saved) := by
  unfold saveProfile
  split
  · exact .rfl
  · exact save_display _ saved _

theorem saveRelaySettings_display (saved : Except ProfileStorageError Unit) :
    SameDisplay app (app.saveRelaySettings saved) := by
  unfold saveRelaySettings
  split
  · exact .rfl
  · exact save_display _ saved _

theorem connectRelay_display (resolved : Except IoError (List SocketAddr)) (opening : Opening) :
    SameDisplay app (app.connectRelay crates resolved opening) := by
  unfold connectRelay
  split
  · exact .rfl
  · split <;> exact .rfl

theorem stream_display {rounds : Nat} (h : app.stream crates rounds = some (app', effects)) :
    SameDisplay app app' := by
  unfold stream at h
  split at h
  · obtain ⟨rfl, -⟩ := Prod.mk.inj (Option.some.inj h)
    exact .rfl
  · dsimp only at h
    split at h
    · obtain ⟨rfl, -⟩ := Prod.mk.inj (Option.some.inj h)
      exact .rfl
    · exact (drive_display h :)

/-- Behind a disconnect the talker is gone. -/
theorem closed_display (reason : Closing) : (app.closed reason).window.form = app.window.form ∧
    (app.closed reason).window.activeTalker =
      if reason = .disconnect then noSpeaker else app.window.activeTalker := by
  cases reason <;> exact ⟨Eq.refl _, Eq.refl _⟩

/-- A callback writes status lines, or it is a disconnect that finds no session. -/
theorem callback_display {callback : Callback} (h : app.callback crates callback = some (app', effects)) :
    SameDisplay app app' ∨ app.session = none ∧ app' = app.closed .disconnect ∧ effects = [] := by
  cases callback with
  | pttPressed => exact Or.inl (pttPressed_display h)
  | pttReleased => exact Or.inl (pttReleased_display h)
  | saveProfile saved =>
    obtain ⟨rfl, -⟩ := Prod.mk.inj (Option.some.inj h)
    exact Or.inl (saveProfile_display saved)
  | saveRelaySettings saved =>
    obtain ⟨rfl, -⟩ := Prod.mk.inj (Option.some.inj h)
    exact Or.inl (saveRelaySettings_display saved)
  | connectRelay resolved opening =>
    obtain ⟨rfl, -⟩ := Prod.mk.inj (Option.some.inj h)
    exact Or.inl (connectRelay_display resolved opening)
  | disconnectRelay =>
    obtain ⟨rfl, rfl⟩ := Prod.mk.inj (Option.some.inj h)
    rw [takeSession]
    split
    · exact Or.inl .rfl
    · exact Or.inr ⟨‹_›, Eq.refl _, Eq.refl _⟩
  | tick =>
    obtain ⟨rfl, -⟩ := Prod.mk.inj (Option.some.inj h)
    exact Or.inl .rfl
  | quit =>
    obtain ⟨rfl, -⟩ := Prod.mk.inj (Option.some.inj h)
    rw [takeSession]
    split <;> exact Or.inl .rfl

/-- A step of closing writes nothing, or it is the last one, behind a disconnect. -/
theorem close_display {i : Nat} {reason : Closing} (h : app.close crates i reason = some (app', effects)) :
    SameDisplay app app' ∧ (app'.pc.ordinary = true → app.pc.ordinary = true ∨ reason = .stopped) ∨
      reason = .disconnect ∧ app' = app.closed .disconnect ∧ effects = [] := by
  have hdrive : ∀ {label : Label}, app.drive crates i label = some (app', effects) →
      SameDisplay app app' ∧ (app'.pc.ordinary = true → app.pc.ordinary = true ∨ reason = .stopped) := by
    intro label hdrive
    obtain ⟨_, _, _, _, _, rfl, -⟩ := drive_eq_some hdrive
    exact ⟨.rfl, Or.inl⟩
  unfold close at h
  split at h
  · cases h
  split at h
  · exact Or.inl (hdrive h)
  · exact Or.inl (hdrive h)
  · exact Or.inl (hdrive h)
  · obtain ⟨rfl, rfl⟩ := Prod.mk.inj (Option.some.inj h)
    cases reason with
    | disconnect => exact Or.inr ⟨Eq.refl _, Eq.refl _, Eq.refl _⟩
    | stopped => exact Or.inl ⟨.rfl, fun _ => Or.inr (Eq.refl _)⟩
    | exit => exact Or.inl ⟨.rfl, fun hpc => nomatch hpc⟩

end App

/-! ## §2 — the talker line -/

/-- What an event says of the talker: who it is, or that there is none. -/
def talkOf : RelayEvent → Option (Option UInt32)
  | .received packet =>
    match packet.header.packetType with
    | .grant => some (some packet.header.senderId)
    | .release => some none
    | _ => none
  | .stopped => some none
  | _ => none

/-- Who speaks behind these events: the sender of the last `Grant`, if no `Release` came behind it. -/
def speaker (events : List RelayEvent) : Option UInt32 := (events.filterMap talkOf).getLast?.join

/-- The text of the talker line. -/
def talkerLine : Option UInt32 → String
  | some senderId => s!"Sender {senderId.toNat}"
  | none => noSpeaker

/-- The line behind one event more. -/
def lineAfter (event : RelayEvent) (line : String) : String :=
  match talkOf event with
  | some senderId => talkerLine senderId
  | none => line

theorem talkerLine_concat (events : List RelayEvent) (event : RelayEvent) :
    talkerLine (speaker (events ++ [event])) = lineAfter event (talkerLine (speaker events)) := by
  rw [speaker, List.filterMap_append, lineAfter]
  cases htalk : talkOf event with
  | none =>
    rw [List.filterMap_cons_none htalk, List.filterMap_nil, List.append_nil]
    rfl
  | some senderId =>
    rw [List.filterMap_cons_some htalk, List.filterMap_nil, List.getLast?_concat]
    rfl

/-- Only a `Grant` names a talker. -/
theorem grant_of_talk {event : RelayEvent} {senderId : UInt32} (h : talkOf event = some (some senderId)) :
    ∃ packet, event = .received packet ∧ packet.header.packetType = .grant ∧ packet.header.senderId = senderId := by
  cases event with
  | received packet =>
    simp only [talkOf] at h
    split at h
    · rename_i hgrant
      exact ⟨packet, rfl, hgrant, Option.some.inj (Option.some.inj h)⟩
    · cases h
    · cases h
  | _ => cases h

/-- Whoever speaks had a `Grant`, and nothing was said of a talker behind it. -/
theorem speaker_eq_some {events : List RelayEvent} {senderId : UInt32} (h : speaker events = some senderId) :
    ∃ before packet after, events = before ++ .received packet :: after ∧ packet.header.packetType = .grant ∧
      packet.header.senderId = senderId ∧ ∀ event ∈ after, talkOf event = none := by
  induction events using List.reverseRecOn with
  | nil => cases h
  | append_singleton events event ih =>
    rw [speaker, List.filterMap_append] at h
    cases htalk : talkOf event with
    | none =>
      rw [List.filterMap_cons_none htalk, List.filterMap_nil, List.append_nil] at h
      obtain ⟨before, packet, after, rfl, hgrant, hsender, hafter⟩ := ih h
      refine ⟨before, packet, after ++ [event], by simp, hgrant, hsender, ?_⟩
      simpa [or_imp, forall_and, htalk] using hafter
    | some talker =>
      rw [List.filterMap_cons_some htalk, List.filterMap_nil, List.getLast?_concat] at h
      obtain rfl : talker = some senderId := h
      obtain ⟨packet, rfl, hgrant, hsender⟩ := grant_of_talk htalk
      exact ⟨events, packet, [], rfl, hgrant, hsender, fun _ hmem => nomatch hmem⟩

/-- **What the window makes of an event.** -/
theorem applyRelayEvent_shows (window : AppWindow) (event : RelayEvent) :
    (applyRelayEvent window event).1.form = window.form ∧
      (applyRelayEvent window event).1.activeTalker = lineAfter event window.activeTalker := by
  cases event with
  | received packet =>
    simp only [applyRelayEvent, updateTalkerFromPacket, lineAfter, talkOf]
    cases packet.header.packetType <;> exact ⟨rfl, rfl⟩
  | sent packetType =>
    simp only [applyRelayEvent]
    split <;> exact ⟨rfl, rfl⟩
  | _ => exact ⟨rfl, rfl⟩

/-- The events that the application was told by session `i`, in order. -/
def toldEvents (i : Nat) (effects : List AppEffect) : List RelayEvent := (relayed i effects).filterMap Effect.next?

theorem toldEvents_append (i : Nat) (a b : List AppEffect) :
    toldEvents i (a ++ b) = toldEvents i a ++ toldEvents i b := by
  rw [toldEvents, relayed_append, List.filterMap_append]
  rfl

/-- The application was told nothing, and the talker line stayed; or it was told one event by the session in the slot,
and the line follows it. -/
def FollowsEvent (app app' : App) (effects : List AppEffect) : Prop :=
  (∀ j, toldEvents j effects = []) ∧ app'.window.activeTalker = app.window.activeTalker ∨
  ∃ i event, app.session = some i ∧ app'.session = some i ∧
    (∀ j, toldEvents j effects = if i = j then [event] else []) ∧
    app'.window.activeTalker = lineAfter event app.window.activeTalker

namespace App

variable {crates : CryptoCrates} {app app' : App} {effects : List AppEffect}

/-- The handler of an event plays it or shows it. -/
theorem handleEvent_shows {stopped : Bool} (event : RelayEvent) :
    (app.handleEvent stopped event).1.window.form = app.window.form ∧
      (app.handleEvent stopped event).1.window.activeTalker = lineAfter event app.window.activeTalker ∧
      (app.handleEvent stopped event).1.session = app.session ∧
      ∀ j, relayed j (app.handleEvent stopped event).2 = [] := by
  unfold handleEvent
  split
  · -- audio says nothing of a talker
    split
    · split
      · split
        · exact ⟨rfl, rfl, rfl, fun _ => rfl⟩
        · exact ⟨rfl, rfl, rfl, fun _ => rfl⟩
      · exact ⟨rfl, rfl, rfl, fun _ => rfl⟩
    · exact ⟨rfl, rfl, rfl, fun _ => rfl⟩
  · obtain ⟨hform, hline⟩ := applyRelayEvent_shows app.window event
    exact ⟨hform, hline, rfl, fun _ => rfl⟩

theorem poll_shows {stopped : Bool} (h : app.poll crates stopped = some (app', effects)) :
    app'.window.form = app.window.form ∧ FollowsEvent app app' effects := by
  unfold poll at h
  split at h
  · obtain ⟨rfl, rfl⟩ := Prod.mk.inj (Option.some.inj h)
    exact ⟨rfl, Or.inl ⟨fun _ => rfl, rfl⟩⟩
  rename_i i hslot
  split at h
  · cases h
  rename_i driven es hdrive
  obtain ⟨hform, hline⟩ := drive_display hdrive
  have hes := drive_tryNextEvent hdrive
  have hsession : driven.session = some i := by
    obtain ⟨_, _, _, _, _, rfl, _⟩ := drive_eq_some hdrive
    exact hslot
  -- what was told is the answer of the session in the slot
  have htold : ∀ j, toldEvents j es = if i = j then (nextEvent es).toList else [] := by
    intro j
    have hone : relayed j es = if i = j then [.nextEvent (nextEvent es)] else [] :=
      (congrArg (relayed j) hes).trans (relayed_relay i j [.nextEvent (nextEvent es)])
    rw [toldEvents, hone]
    split
    · cases nextEvent es <;> rfl
    · rfl
  split at h
  · rename_i event hnext
    obtain ⟨rfl, rfl⟩ := Prod.mk.inj (Option.some.inj h)
    obtain ⟨hform', hline', hsession', hrelayed⟩ := @handleEvent_shows driven stopped event
    refine ⟨hform'.trans hform, Or.inr ⟨i, event, hslot, hsession'.trans hsession, ?_, ?_⟩⟩
    · intro j
      rw [toldEvents_append, htold, hnext, toldEvents, hrelayed]
      simp
    · rw [hline', hline]
  · rename_i hnext
    obtain ⟨rfl, rfl⟩ := Prod.mk.inj (Option.some.inj h)
    have hnone : ∀ j, toldEvents j es = [] := by
      intro j
      rw [htold, hnext]
      split <;> rfl
    split
    · rw [takeSession, hsession]
      exact ⟨hform, Or.inl ⟨hnone, hline⟩⟩
    · exact ⟨hform, Or.inl ⟨hnone, hline⟩⟩

end App

/-- **What a step writes into the window**: status lines; the form that the user edits; in a round of the loop over
events, what the event says; and behind a disconnect, that nobody speaks. -/
inductive Writes (crates : CryptoCrates) (app : App) (input : Input) (app' : App) (effects : List AppEffect) :
    Prop where
  | statuses (hsame : SameDisplay app app') (hpc : input = .resume → ∀ stopped, app.pc ≠ .polling stopped)
      (hplace : app'.pc.ordinary = true → app.pc.ordinary = true ∨ ∃ i, app.pc = .closing i .stopped)
  | form {form : Form} (hinput : input = .edit form)
      (hwritten : app' = { app with window := { app.window with form } }) (hnone : effects = [])
  | event {stopped : Bool} (hform : app'.window.form = app.window.form) (hpc : app.pc = .polling stopped)
      (hfollows : FollowsEvent app app' effects)
  | leaves (hclosed : app' = app.closed .disconnect) (hnone : effects = [])
      (hpc : app.pc = .idle ∧ app.session = none ∨ ∃ i, app.pc = .closing i .disconnect)

theorem appStep_writes {crates : CryptoCrates} {app app' : App} {input : Input} {effects : List AppEffect}
    (h : appStep crates app input = some (app', effects)) : Writes crates app input app' effects := by
  cases input with
  | callback callback =>
    simp only [appStep] at h
    split at h
    · rename_i hidle
      rcases App.callback_display h with hsame | ⟨hslot, hclosed, hnone⟩
      · exact .statuses hsame (by simp) fun _ => Or.inl (hidle ▸ rfl)
      · exact .leaves hclosed hnone (Or.inl ⟨hidle, hslot⟩)
    · cases h
  | resume =>
    simp only [appStep, App.resume] at h
    split at h
    · cases h
    · rename_i hpc
      exact .statuses (App.requestTalk_display h) (by simp [hpc]) fun _ => Or.inl (hpc ▸ rfl)
    · rename_i hpc
      obtain ⟨rfl, -⟩ := Prod.mk.inj (Option.some.inj h)
      exact .statuses .rfl (by simp [hpc]) fun _ => Or.inl (hpc ▸ rfl)
    · rename_i hpc
      exact .statuses (App.stream_display h) (by simp [hpc]) fun _ => Or.inl (hpc ▸ rfl)
    · rename_i hpc
      obtain ⟨hform, hfollows⟩ := App.poll_shows h
      exact .event hform hpc hfollows
    · rename_i i reason hpc
      rcases App.close_display h with ⟨hsame, hplace⟩ | ⟨rfl, hclosed, hnone⟩
      · refine .statuses hsame (by simp [hpc]) fun hordinary => (hplace hordinary).imp_right ?_
        rintro rfl
        exact ⟨i, hpc⟩
      · exact .leaves hclosed hnone (Or.inr ⟨i, hpc⟩)
    · cases h
    · cases h
  | edit form =>
    simp only [appStep] at h
    split at h
    · obtain ⟨rfl, rfl⟩ := Prod.mk.inj (Option.some.inj h)
      exact .form rfl rfl rfl
    · cases h
  | captured captured =>
    obtain ⟨rfl, -⟩ := Prod.mk.inj (Option.some.inj h)
    exact .statuses .rfl (by simp) Or.inl
  | played =>
    obtain ⟨rfl, -⟩ := Prod.mk.inj (Option.some.inj h)
    exact .statuses .rfl (by simp) Or.inl
  | worker i env =>
    obtain ⟨_, _, _, _, _, rfl, -⟩ := App.drive_eq_some h
    exact .statuses .rfl (by simp) Or.inl

/-- **Only the user writes into the form.** -/
theorem appStep_form {crates : CryptoCrates} {app app' : App} {input : Input} {effects : List AppEffect}
    (h : appStep crates app input = some (app', effects)) :
    app'.window.form = app.window.form ∨ input = .edit app'.window.form := by
  cases appStep_writes h with
  | statuses hsame => exact Or.inl hsame.1
  | form hinput hwritten =>
    rw [hwritten]
    exact Or.inr hinput
  | event hform => exact Or.inl hform
  | leaves hclosed =>
    rw [hclosed]
    exact Or.inl (App.closed_display .disconnect).1

section Talker

variable {crates : CryptoCrates} {app app' : App} {input : Input} {inputs : List Input}
  {seen effects : List AppEffect}

/-- Outside the loop over events nothing is told. -/
theorem AppTurn.deaf (h : AppTurn crates app input app' effects)
    (hpc : input = .resume → ∀ stopped, app.pc ≠ .polling stopped) (hpanics : ¬ app.Panics) (i : Nat) :
    toldEvents i effects = [] := by
  rw [List.eq_nil_iff_forall_not_mem]
  intro event hmem
  have hanswer := mem_of_told hmem
  cases h with
  | shows | discards | asksNobody | releasesNobody | saves | opens | takes | takesNothing | ticks | closed | streamed
  | wastes | pollsNothing | captures | sounds => cases hanswer
  | configures _ _ _ hdriven | asks _ _ hdriven | releases _ _ hdriven | streams _ _ _ _ hdriven
  | works hdriven => exact nomatch (hdriven.told hanswer).2.1
  | closes _ haction hdriven =>
    obtain rfl := Label.client.inj (hdriven.told hanswer).2.1
    cases haction
  | polled hpolling | stops hpolling | hears hpolling | mutes hpolling | plays hpolling => exact hpc rfl _ hpolling
  | panics hpanic => exact hpanics hpanic

/-- What becomes of the slot. -/
theorem AppTurn.slot (h : AppTurn crates app input app' effects) :
    app'.session = app.session ∨ app'.session = none ∧ app'.pc.ordinary = false ∨
      app.session = none ∧ app.pc = .idle ∧ app'.session = some app.links.length := by
  cases h with
  | takes | stops => exact Or.inr (Or.inl ⟨rfl, rfl⟩)
  | opens hidle hslot => exact Or.inr (Or.inr ⟨hslot, hidle, rfl⟩)
  | _ => exact Or.inl rfl

/-- So far the talker line is what the session in the slot was told, and empty without one. -/
structure TalkerSoFar (app : App) (effects : List AppEffect) : Prop where
  slot : ∀ i, app.session = some i → app.window.activeTalker = talkerLine (speaker (toldEvents i effects))
  free : app.session = none → app.pc.ordinary = true → app.window.activeTalker = noSpeaker

/-- A step that is told nothing and leaves the line. -/
theorem TalkerSoFar.quiet (h : TalkerSoFar app seen) (hsofar : SlotSoFar crates app inputs seen)
    (hturn : AppTurn crates app input app' effects) (htold : ∀ j, toldEvents j effects = [])
    (hline : app'.window.activeTalker = app.window.activeTalker)
    (hplace : app'.pc.ordinary = true → app.pc.ordinary = true) : TalkerSoFar app' (seen ++ effects) := by
  rcases hturn.slot with hsame | ⟨hnone, haway⟩ | ⟨hslot, hidle, hnew⟩
  · refine ⟨fun i hi => ?_, fun hnone hpc => ?_⟩
    · rw [toldEvents_append, htold, List.append_nil, hline]
      exact h.slot i (hsame.symm.trans hi)
    · rw [hline]
      exact h.free (hsame.symm.trans hnone) (hplace hpc)
  · refine ⟨fun i hi => ?_, fun _ hpc => ?_⟩
    · rw [hnone] at hi
      cases hi
    · rw [haway] at hpc
      cases hpc
  · refine ⟨fun i hi => ?_, fun hnone => ?_⟩
    · -- the session is new, and was not told anything
      obtain rfl := Option.some.inj (hnew.symm.trans hi)
      have hfresh : toldEvents app.links.length seen = [] := by
        rw [toldEvents, hsofar.sessions.unopened _ (Nat.le_refl _)]
        rfl
      rw [toldEvents_append, htold, hfresh, hline]
      exact h.free hslot (hidle ▸ rfl)
    · rw [hnew] at hnone
      cases hnone

theorem TalkerSoFar.step (h : TalkerSoFar app seen) (hsofar : SlotSoFar crates app inputs seen)
    (hstep : appStep crates app input = some (app', effects)) : TalkerSoFar app' (seen ++ effects) := by
  have hturn := appStep_turn hstep
  cases appStep_writes hstep with
  | statuses hsame hpc hplace =>
    refine h.quiet hsofar hturn (hturn.deaf hpc hsofar.slot.inRange.not_panics) hsame.2 fun hordinary => ?_
    rcases hplace hordinary with hbefore | ⟨i, hclosing⟩
    · exact hbefore
    · exact absurd rfl (hsofar.slot.closing hclosing).2.1
  | form hinput hwritten hnone =>
    subst hwritten hnone
    exact h.quiet hsofar hturn (fun _ => rfl) rfl id
  | @event stopped hform hpc hfollows =>
    have hordinary : app.pc.ordinary = true := by
      rcases hsofar.slot.place with hbefore | ⟨-, haway⟩
      · exact hbefore
      · simp [hpc] at haway
    rcases hfollows with ⟨htold, hline⟩ | ⟨i, event, hslot, hslot', htold, hline⟩
    · exact h.quiet hsofar hturn htold hline fun _ => hordinary
    · refine ⟨fun j hj => ?_, fun hnone => ?_⟩
      · obtain rfl := Option.some.inj (hslot'.symm.trans hj)
        rw [toldEvents_append, htold, if_pos rfl, talkerLine_concat, hline, h.slot i hslot]
      · rw [hslot'] at hnone
        cases hnone
  | leaves hclosed hnone hpc =>
    subst hclosed hnone
    have hslot : app.session = none := by
      rcases hpc with ⟨-, hslot⟩ | ⟨i, hclosing⟩
      · exact hslot
      · exact (hsofar.slot.closing hclosing).1
    refine ⟨fun i hi => ?_, fun _ _ => rfl⟩
    rw [show app.session = some i from hi] at hslot
    cases hslot

end Talker

section Runs

variable {crates : CryptoCrates} {storage : StorageCrates} {defaultPath : Except ProfileStorageError Path}
  {pathExists : Path → Bool} {audio : Bool} {inputs : List Input} {app : App} {effects : List AppEffect}

theorem run_talker
    (hrun : run (appStep crates) (App.start (loadProfileStore storage defaultPath pathExists) audio) inputs =
      some (app, effects)) : TalkerSoFar app effects := by
  have hstart : TalkerSoFar (App.start (loadProfileStore storage defaultPath pathExists) audio) [] := by
    refine ⟨fun i hi => ?_, fun _ _ => ?_⟩
    · rw [(App.start_sessions _ audio).2] at hi
      cases hi
    · unfold App.start
      dsimp only
      split <;> rfl
  have hboth : SlotSoFar crates app inputs effects ∧ TalkerSoFar app effects := by
    refine run_history (R := fun app inputs effects => SlotSoFar crates app inputs effects ∧ TalkerSoFar app effects)
      ?_ ⟨app_run_slot rfl, hstart⟩ hrun
    rintro app inputs seen input app' effects ⟨hsofar, htalker⟩ hstep
    exact ⟨hsofar.step hstep, htalker.step hsofar hstep⟩
  exact hboth.2

/-- A packet that a session offers in one step is spelled by the datagram it reads in it. -/
theorem received_was_read {app' : App} {input : Input} (h : appStep crates app input = some (app', effects)) {i : Nat}
    {packet : Packet} (hmem : .received packet ∈ (relayed i effects).filterMap Effect.event?) :
    ∃ datagram, readsAt i app input = some datagram ∧ Spells (datagram.take receiveBufferLen) packet := by
  cases appStep_does h with
  | keeps hmoves | submits hmoves =>
    have hlt : i < app'.links.length := by
      by_contra hge
      rw [hmoves.unopened (hmoves.length ▸ Nat.le_of_not_lt hge)] at hmem
      cases hmem
    rcases hmoves.session (List.getElem?_eq_getElem hlt) with ⟨-, hnone⟩ | ⟨link, label, _, hinput, hlink, hstep, -⟩
    · rw [hnone] at hmem
      cases hmem
    · -- only a worker reads, on its own input
      obtain ⟨env, datagram, rfl, hreads, hspells⟩ := step_received hstep hmem
      refine ⟨datagram, ?_, hspells⟩
      rw [hinput env rfl, readsAt, if_pos rfl, hlink, Option.bind_some, hreads]
  | opens _ _ _ _ _ hnone =>
    rw [hnone] at hmem
    cases hmem

/-- A packet that the application was told of was spelled by a datagram that the worker of that session read. -/
theorem told_was_read {loaded : ProfileStore × String}
    (hrun : run (appStep crates) (App.start loaded audio) inputs = some (app, effects)) {i : Nat} {packet : Packet}
    (hmem : .received packet ∈ toldEvents i effects) :
    ∃ datagram ∈ observed (appStep crates) (readsAt i) (App.start loaded audio) inputs,
      Spells (datagram.take receiveBufferLen) packet := by
  -- every packet that was offered so far was read
  have hread := run_observed (readsAt i) (R := fun _ datagrams seen => ∀ packet,
    .received packet ∈ (relayed i seen).filterMap Effect.event? →
      ∃ datagram ∈ datagrams, Spells (datagram.take receiveBufferLen) packet) ?_ inputs [] []
    (fun _ hnone => nomatch hnone) hrun
  · -- and what was told had been offered
    have hsessions := app_run_sessions hrun
    have hlt : i < app.links.length := by
      by_contra hge
      rw [toldEvents, hsessions.unopened i (Nat.le_of_not_lt hge)] at hmem
      cases hmem
    obtain ⟨localAddr, random, labels, hsession, -⟩ := hsessions.runs i _ (List.getElem?_eq_getElem hlt)
    exact hread packet ((run_events hsession).sublist.subset (List.mem_append_left _ hmem))
  · intro s datagrams seen input s' es hseen hstep packet hoffered
    rw [relayed_append, List.filterMap_append, List.mem_append] at hoffered
    rcases hoffered with hold | hnew
    · obtain ⟨datagram, hpast, hspells⟩ := hseen packet hold
      exact ⟨datagram, List.mem_append_left _ hpast, hspells⟩
    · obtain ⟨datagram, hreads, hspells⟩ := received_was_read hstep hnew
      exact ⟨datagram, List.mem_append_right _ (Option.mem_toList.mpr hreads), hspells⟩

/-- **The talker line is current.** In any run of the application: while a session is in the slot the line names the
sender of the last `Grant` that this session told, unless a `Release` came behind it, and says `No active speaker`
otherwise; without a session an idle window says so too, whatever earlier sessions were told. And whoever is named was
granted the talk by a datagram that the worker of that session read. -/
theorem talker_line_current
    (hrun : run (appStep crates) (App.start (loadProfileStore storage defaultPath pathExists) audio) inputs =
      some (app, effects)) :
    (∀ i, app.session = some i → app.window.activeTalker = talkerLine (speaker (toldEvents i effects))) ∧
    (app.session = none → app.pc = .idle → app.window.activeTalker = noSpeaker) ∧
    (∀ i senderId, speaker (toldEvents i effects) = some senderId → ∃ before packet after datagram,
      toldEvents i effects = before ++ .received packet :: after ∧ (∀ event ∈ after, talkOf event = none) ∧
        packet.header.packetType = .grant ∧ packet.header.senderId = senderId ∧
        datagram ∈ observed (appStep crates) (readsAt i)
          (App.start (loadProfileStore storage defaultPath pathExists) audio) inputs ∧
        Spells (datagram.take receiveBufferLen) packet) := by
  have hinv := run_talker hrun
  refine ⟨hinv.slot, fun hslot hidle => hinv.free hslot (hidle ▸ rfl), ?_⟩
  intro i senderId hspeaker
  obtain ⟨before, packet, after, htold, hgrant, hsender, hafter⟩ := speaker_eq_some hspeaker
  obtain ⟨datagram, hread, hspells⟩ :=
    told_was_read hrun (htold ▸ List.mem_append_right _ List.mem_cons_self)
  exact ⟨before, packet, after, datagram, htold, hafter, hgrant, hsender, hread, hspells⟩

/-- The relay grants the talk to sender 7. -/
def grantDatagram : Bytes := ((Packet.plain (PacketHeader.new .grant 0 7 0) []).encode).toOption.getD []

/-- Connect, read the grant, and ask for events until there are none. -/
def grantInputs : List Input :=
  [connects] ++ List.replicate 7 (workerTick 0) ++ [.worker 0 ⟨.ok (), 0, .ok grantDatagram⟩, .callback .tick] ++
    List.replicate 4 .resume

/-- The window names sender 7. -/
theorem talker_line_current_grant : ∃ app effects,
    run (appStep tagCrates) (App.start (loadProfileStore pcmStorage (.ok []) fun _ => true) true) grantInputs =
      some (app, effects) ∧ app.window.activeTalker = "Sender 7" := by
  have hview : (run (appStep tagCrates) (App.start (loadProfileStore pcmStorage (.ok []) fun _ => true) true)
      grantInputs).map (fun r => (r.1.session, speaker (toldEvents 0 r.2))) = some (some 0, some 7) := by
    decide +kernel
  obtain ⟨⟨app, effects⟩, hrun, hsees⟩ := Option.map_eq_some_iff.mp hview
  obtain ⟨hslot, hspeaker⟩ : app.session = some 0 ∧ speaker (toldEvents 0 effects) = some 7 := Prod.mk.inj hsees
  refine ⟨app, effects, hrun, ?_⟩
  rw [(talker_line_current hrun).1 0 hslot, hspeaker]
  rfl

end Runs

end IncomUdon.Desktop
