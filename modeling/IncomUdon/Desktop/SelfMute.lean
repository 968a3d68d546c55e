/-
# IncomUdon.Desktop.SelfMute — a station that mutes itself does not hear itself.

A session transmits under the sender id it was opened with; the filter of the timer compares a received frame with
the sender id of the active profile, which `on_save_profile` replaces at any time. §1 says what is wanted, §2 sorts
the steps of the application by what they do to the profiles and to playback, §3 carries the agreement of the two
sender ids over runs that save no other one while a session is connected, and §4 shows that such a save is all it
takes to break it.
-/
import IncomUdon.Desktop.PushToTalk
import IncomUdon.Desktop.Sessions

namespace IncomUdon.Desktop

open IncomUdon.Lib
open IncomUdon.Core
open IncomUdon.Protocol
open IncomUdon.Crypto
open IncomUdon.Transport

/-! ## §1 — the law -/

/-- `mute_self_id` is set in the active profile. -/
def MutesSelf (store : ProfileStore) : Prop := ∃ profile, store.active = .ok profile ∧ profile.muteSelfId = true

/-- The step queues a frame for playback that came, under the sender id of the connected session, out of that
session's event channel. -/
def QueuesOwnFrame (app : App) (effects : List AppEffect) : Prop :=
  ∃ i link frame ok, app.session = some i ∧ app.links[i]? = some link ∧
    .relay i (.nextEvent (some (.pcmReceived link.config.senderId frame))) ∈ effects ∧ .playback frame ok ∈ effects

/-- Every packet of the session's own making carries the sender id of its configuration. -/
def TransmitsAs (senderId : UInt32) (effects : List Effect) : Prop :=
  ∀ origin packet, .handed origin packet ∈ effects → origin ≠ .client → packet.header.senderId = senderId

theorem TransmitsAs.append {senderId : UInt32} {es es' : List Effect} (h : TransmitsAs senderId es)
    (h' : TransmitsAs senderId es') : TransmitsAs senderId (es ++ es') := by
  intro origin packet hmem
  rcases List.mem_append.mp hmem with hold | hnew
  · exact h origin packet hold
  · exact h' origin packet hnew

section Transmits

variable {crates : CryptoCrates} {config : RelayConfig}

/-- Effects that show no packet. -/
theorem transmitsAs_of_none {senderId : UInt32} {es : List Effect} (h : es.filterMap Effect.handed? = []) :
    TransmitsAs senderId es := by
  intro origin packet hmem
  have hview := List.filterMap_eq_nil_iff.mp h _ hmem
  cases hview

theorem sendPacket_transmits {senderId : UInt32} (origin : Origin) {packet : Packet} (sent : Except IoError Unit)
    (h : origin ≠ .client → packet.header.senderId = senderId) :
    TransmitsAs senderId (sendPacket origin packet sent) := by
  intro origin' packet' hmem hown
  have hview : (origin', packet') ∈ (sendPacket origin packet sent).filterMap Effect.handed? :=
    List.mem_filterMap.mpr ⟨_, hmem, rfl⟩
  rw [sendPacket_handed] at hview
  obtain ⟨rfl, rfl⟩ := Prod.mk.inj (List.mem_singleton.mp hview)
  exact h hown

theorem controlPacket_sender (sequence : UInt16) (packetType : PacketType) (payload : Bytes) :
    (controlPacket config sequence packetType payload).header.senderId = config.senderId := by
  unfold controlPacket
  split <;> rfl

theorem sendPcm_transmits {sequence : UInt16} {media : MediaState} {frame : Bytes} {sent : Except IoError Unit}
    {turn : Turn} (h : SendsPcm crates config sequence media frame sent turn) :
    TransmitsAs config.senderId turn.effects := by
  cases h with
  | plain => exact sendPacket_transmits .pcm sent fun _ => rfl
  | «sealed» =>
    have hcall : ∀ call, TransmitsAs config.senderId [.encrypt call] := fun _ => transmitsAs_of_none rfl
    exact (hcall _).append (sendPacket_transmits .pcm sent fun _ => rfl)
  | _ => exact transmitsAs_of_none rfl

/-- **A session transmits under the sender id it was opened with.** -/
theorem does_transmits {s : Session} {label : Label} {sequence : UInt16} {media : MediaState}
    {effects : List Effect} (h : Does crates config s label sequence media effects) :
    TransmitsAs config.senderId effects := by
  have htook : ∀ command, TransmitsAs config.senderId [.took command] := fun _ => transmitsAs_of_none rfl
  cases h with
  | calls hquiet => exact transmitsAs_of_none (Effect.quiet_views hquiet).1
  | quiet hquiet => exact transmitsAs_of_none (Effect.quiet_views hquiet).1
  | receives => exact transmitsAs_of_none (Effect.silent_views (receive_silent _ _ _ _)).1
  | forwards =>
    exact (htook _).append (sendPacket_transmits .client _ fun h => absurd rfl h)
  | controls htaken =>
    refine TransmitsAs.append ?_ (sendPacket_transmits .control _ fun _ => controlPacket_sender _ _ _)
    rcases htaken with rfl | rfl
    · exact transmitsAs_of_none rfl
    · exact htook _
  | talks _ hturn => exact (htook _).append (sendPcm_transmits hturn)

theorem run_transmits {s s' : Session} {labels : List Label} {effects : List Effect}
    (hrun : run (step crates config) s labels = some (s', effects)) : TransmitsAs config.senderId effects := by
  refine run_history (R := fun _ _ es => TransmitsAs config.senderId es) ?_ (transmitsAs_of_none rfl) hrun
  intro s _ es label s' es' hes hstep
  exact hes.append (does_transmits (step_does hstep))

end Transmits

/-! ## §2 — who writes the profiles and who plays -/

/-- The step leaves the profiles alone and plays nothing. -/
def Leaves (app app' : App) (effects : List AppEffect) : Prop :=
  app'.store = app.store ∧ ∀ frame ok, .playback frame ok ∉ effects

namespace App

variable {crates : CryptoCrates} {app app' : App} {effects : List AppEffect}

theorem leaves_of_none (hstore : app'.store = app.store) : Leaves app app' [] := ⟨hstore, fun _ _ h => (nomatch h)⟩

theorem drive_leaves {i : Nat} {label : Label} (h : app.drive crates i label = some (app', effects)) :
    Leaves app app' effects := by
  obtain ⟨link, session, es, -, -, rfl, rfl⟩ := drive_eq_some h
  exact ⟨rfl, by simp⟩

/-- A control packet is sent behind and before changes to other fields. -/
theorem leaves_of_sendControl {sending sent : App} {packetType : PacketType} {payload : Bytes} {failure : String}
    {result : Except String Unit}
    (h : sending.sendControl crates packetType payload failure = some (result, sent, effects))
    (hbefore : sending.store = app.store) (hafter : app'.store = sent.store) : Leaves app app' effects := by
  rw [Leaves, hafter, ← hbefore]
  rcases sendControl_cases h with ⟨-, rfl, rfl⟩ | ⟨i, links, ok, -, rfl, -, rfl, -⟩
  · exact leaves_of_none rfl
  · exact ⟨rfl, by simp⟩

theorem pttPressed_leaves (h : app.pttPressed crates = some (app', effects)) : Leaves app app' effects := by
  unfold pttPressed at h
  split at h
  · obtain ⟨rfl, rfl⟩ := Prod.mk.inj (Option.some.inj h)
    exact leaves_of_none rfl
  split at h
  · split at h
    · obtain ⟨rfl, rfl⟩ := Prod.mk.inj (Option.some.inj h)
      exact leaves_of_none rfl
    split at h
    · obtain ⟨rfl, rfl⟩ := Prod.mk.inj (Option.some.inj h)
      exact leaves_of_none rfl
    split at h
    · cases h
    · rename_i hsend
      obtain ⟨rfl, rfl⟩ := Prod.mk.inj (Option.some.inj h)
      exact leaves_of_sendControl hsend rfl rfl
    · rename_i hsend
      obtain ⟨rfl, rfl⟩ := Prod.mk.inj (Option.some.inj h)
      exact leaves_of_sendControl hsend rfl rfl
  · obtain ⟨rfl, rfl⟩ := Prod.mk.inj (Option.some.inj h)
    exact leaves_of_none rfl

theorem requestTalk_leaves (h : app.requestTalk crates = some (app', effects)) : Leaves app app' effects := by
  unfold requestTalk at h
  split at h
  · cases h
  · rename_i hsend
    obtain ⟨rfl, rfl⟩ := Prod.mk.inj (Option.some.inj h)
    exact leaves_of_sendControl hsend rfl rfl
  · rename_i hsend
    obtain ⟨rfl, rfl⟩ := Prod.mk.inj (Option.some.inj h)
    exact leaves_of_sendControl hsend rfl rfl

theorem pttReleased_leaves (h : app.pttReleased crates = some (app', effects)) : Leaves app app' effects := by
  unfold pttReleased at h
  split at h
  · cases h
  · rename_i hsend
    obtain ⟨rfl, rfl⟩ := Prod.mk.inj (Option.some.inj h)
    exact leaves_of_sendControl hsend rfl rfl
  · rename_i hsend
    obtain ⟨rfl, rfl⟩ := Prod.mk.inj (Option.some.inj h)
    split <;> exact leaves_of_sendControl hsend rfl rfl

theorem connectRelay_store (resolved : Except IoError (List SocketAddr)) (opening : Opening) :
    (app.connectRelay crates resolved opening).store = app.store := by
  unfold connectRelay
  split
  · rfl
  · split <;> rfl

theorem closed_store (reason : Closing) : (app.closed reason).store = app.store := by
  cases reason <;> rfl

theorem takeSession_store (reason : Closing) : (app.takeSession reason).store = app.store := by
  unfold takeSession
  split
  · rfl
  · exact closed_store reason

theorem close_leaves {i : Nat} {reason : Closing} (h : app.close crates i reason = some (app', effects)) :
    Leaves app app' effects := by
  unfold close at h
  split at h
  · cases h
  split at h
  · exact drive_leaves h
  · exact drive_leaves h
  · exact drive_leaves h
  · obtain ⟨rfl, rfl⟩ := Prod.mk.inj (Option.some.inj h)
    exact leaves_of_none (closed_store reason)

theorem stream_leaves {rounds : Nat} (h : app.stream crates rounds = some (app', effects)) :
    Leaves app app' effects := by
  unfold stream at h
  split at h
  · obtain ⟨rfl, rfl⟩ := Prod.mk.inj (Option.some.inj h)
    exact leaves_of_none rfl
  · dsimp only at h
    split at h
    · obtain ⟨rfl, rfl⟩ := Prod.mk.inj (Option.some.inj h)
      exact leaves_of_none rfl
    · obtain ⟨hstore, hmute⟩ := drive_leaves h
      exact ⟨hstore, hmute⟩

/-- Saving touches the store and the status line. -/
theorem save_fields (replaced : Outcome ProfileError Unit × ProfileStore) (saved : Except ProfileStorageError Unit)
    (done : String) :
    (app.save replaced saved done).store = replaced.2 ∧ (app.save replaced saved done).session = app.session ∧
      (app.save replaced saved done).links = app.links := by
  unfold save
  dsimp only
  split
  · exact ⟨rfl, rfl, rfl⟩
  · exact ⟨rfl, rfl, rfl⟩
  · split <;> exact ⟨rfl, rfl, rfl⟩

theorem replaceActive_active (store : ProfileStore) (profile : TransceiverProfile) :
    (store.replaceActive profile).2.active = store.active ∨ (store.replaceActive profile).2.active = .ok profile := by
  unfold ProfileStore.replaceActive
  split
  · exact Or.inl rfl
  · split
    · -- the entry written is the active one
      rename_i hlt
      right
      have hset : (store.profiles.set store.activeProfile profile)[store.activeProfile]? = some profile :=
        List.getElem?_set_self hlt
      show index (store.profiles.set store.activeProfile profile) store.activeProfile = _
      rw [index, hset]
    · exact Or.inl rfl

theorem replaceRelay_active (store : ProfileStore) (relay : RelayEndpoint) :
    (store.replaceRelay relay).2.active = store.active := by
  unfold ProfileStore.replaceRelay
  split <;> rfl

/-- **A saved profile becomes the active one**, or the active one stays. -/
theorem saveProfile_active (app : App) (saved : Except ProfileStorageError Unit) :
    (app.saveProfile saved).store.active = app.store.active ∨
      ∃ profile, profileFromWindow app.window = .ok profile ∧ (app.saveProfile saved).store.active = .ok profile := by
  unfold saveProfile
  split
  · exact Or.inl rfl
  · rename_i profile hform
    rw [(save_fields _ saved _).1]
    rcases replaceActive_active app.store profile with hkept | hnew
    · exact Or.inl hkept
    · exact Or.inr ⟨profile, hform, hnew⟩

theorem saveProfile_fields (app : App) (saved : Except ProfileStorageError Unit) :
    (app.saveProfile saved).session = app.session ∧ (app.saveProfile saved).links = app.links := by
  unfold saveProfile
  split
  · exact ⟨rfl, rfl⟩
  · exact (save_fields _ saved _).2

theorem saveRelaySettings_active (saved : Except ProfileStorageError Unit) :
    (app.saveRelaySettings saved).store.active = app.store.active := by
  unfold saveRelaySettings
  split
  · rfl
  · rw [(save_fields _ saved _).1]
    exact replaceRelay_active _ _

/-- A call of `try_next_event` shows what it returned. -/
theorem drive_tryNextEvent {i : Nat} (h : app.drive crates i (.client .tryNextEvent) = some (app', effects)) :
    effects = [.relay i (.nextEvent (nextEvent effects))] := by
  obtain ⟨link, session, es, -, hstep, -, rfl⟩ := drive_eq_some h
  cases clientStep_does hstep with
  | submits _ hcommand => cases hcommand
  | takes => rfl
  | finds => rfl

/-- What the handler of an event plays, it plays under the active profile. -/
theorem handleEvent_filter {stopped : Bool} {event : RelayEvent} {frame : Bytes} {ok : Bool}
    (h : .playback frame ok ∈ (app.handleEvent stopped event).2) : ∃ senderId profile,
      event = .pcmReceived senderId frame ∧ app.store.active = .ok profile ∧
        (app.handleEvent stopped event).2 = [.playback frame ok] ∧
        (profile.muteSelfId = true → senderId ≠ profile.senderId) := by
  obtain ⟨senderId, rfl⟩ := handleEvent_plays app h
  unfold handleEvent at h ⊢
  dsimp only at h ⊢
  split at h
  · rename_i profile hactive
    split at h
    · rename_i hfilter
      rw [hactive]
      simp only [if_pos hfilter]
      refine ⟨senderId, profile, rfl, rfl, ?_, ?_⟩
      · split at h
        · rw [List.mem_singleton.mp h]
        · cases h
      · intro hmute
        rw [hmute] at hfilter
        simpa using hfilter
    · cases h
  · cases h

theorem handleEvent_store {stopped : Bool} (event : RelayEvent) :
    (app.handleEvent stopped event).1.store = app.store := by
  unfold handleEvent
  split
  · split
    · split
      · split <;> rfl
      · rfl
    · rfl
  · rfl

/-- **A round of the loop over events** leaves the profiles alone, and plays only what the filter lets through. -/
theorem poll_filter {stopped : Bool} (h : app.poll crates stopped = some (app', effects)) :
    app'.store = app.store ∧ ∀ frame ok, .playback frame ok ∈ effects →
      ∃ i senderId profile, app.session = some i ∧ app.store.active = .ok profile ∧
        effects = [.relay i (.nextEvent (some (.pcmReceived senderId frame))), .playback frame ok] ∧
        (profile.muteSelfId = true → senderId ≠ profile.senderId) := by
  unfold poll at h
  split at h
  · obtain ⟨rfl, rfl⟩ := Prod.mk.inj (Option.some.inj h)
    exact ⟨rfl, fun _ _ hmem => (nomatch hmem)⟩
  rename_i i hslot
  split at h
  · cases h
  rename_i driven es hdrive
  obtain ⟨hstore, hmute⟩ := drive_leaves hdrive
  have hes := drive_tryNextEvent hdrive
  split at h
  · rename_i event hnext
    obtain ⟨rfl, rfl⟩ := Prod.mk.inj (Option.some.inj h)
    refine ⟨(handleEvent_store event).trans hstore, ?_⟩
    intro frame ok hmem
    have hplays := (List.mem_append.mp hmem).resolve_left (hmute frame ok)
    obtain ⟨senderId, profile, rfl, hactive, hplayed, hfilter⟩ := handleEvent_filter hplays
    rw [hnext] at hes
    exact ⟨i, senderId, profile, hslot, by rw [← hstore, hactive], by rw [hes, hplayed]; rfl, hfilter⟩
  · obtain ⟨rfl, rfl⟩ := Prod.mk.inj (Option.some.inj h)
    refine ⟨?_, fun frame ok hmem => absurd hmem (hmute frame ok)⟩
    split
    · exact (takeSession_store .stopped).trans hstore
    · exact hstore

/-- The rounds of the loop over events and the two callbacks that save are all that does more than `Leaves`. -/
theorem callback_sorts {callback : Callback} (h : app.callback crates callback = some (app', effects)) :
    Leaves app app' effects ∨ (effects = [] ∧ ∃ saved,
      (callback = .saveProfile saved ∧ app' = app.saveProfile saved) ∨
        (callback = .saveRelaySettings saved ∧ app' = app.saveRelaySettings saved)) := by
  cases callback with
  | pttPressed => exact Or.inl (pttPressed_leaves h)
  | pttReleased => exact Or.inl (pttReleased_leaves h)
  | saveProfile saved =>
    obtain ⟨rfl, rfl⟩ := Prod.mk.inj (Option.some.inj h)
    exact Or.inr ⟨rfl, saved, Or.inl ⟨rfl, rfl⟩⟩
  | saveRelaySettings saved =>
    obtain ⟨rfl, rfl⟩ := Prod.mk.inj (Option.some.inj h)
    exact Or.inr ⟨rfl, saved, Or.inr ⟨rfl, rfl⟩⟩
  | connectRelay resolved opening =>
    obtain ⟨rfl, rfl⟩ := Prod.mk.inj (Option.some.inj h)
    exact Or.inl (leaves_of_none (connectRelay_store resolved opening))
  | disconnectRelay =>
    obtain ⟨rfl, rfl⟩ := Prod.mk.inj (Option.some.inj h)
    exact Or.inl (leaves_of_none (takeSession_store .disconnect))
  | tick =>
    obtain ⟨rfl, rfl⟩ := Prod.mk.inj (Option.some.inj h)
    exact Or.inl (leaves_of_none rfl)
  | quit =>
    obtain ⟨rfl, rfl⟩ := Prod.mk.inj (Option.some.inj h)
    exact Or.inl (leaves_of_none (takeSession_store .exit))

theorem resume_sorts (h : app.resume crates = some (app', effects)) :
    Leaves app app' effects ∨ ∃ stopped, app.poll crates stopped = some (app', effects) := by
  unfold resume at h
  split at h
  · cases h
  · exact Or.inl (requestTalk_leaves h)
  · obtain ⟨rfl, rfl⟩ := Prod.mk.inj (Option.some.inj h)
    exact Or.inl (leaves_of_none rfl)
  · exact Or.inl (stream_leaves h)
  · exact Or.inr ⟨_, h⟩
  · exact Or.inl (close_leaves h)
  · cases h
  · cases h

end App

section Steps

variable {crates : CryptoCrates} {app app' : App} {input : Input} {effects : List AppEffect}

/-- A step leaves profiles and playback alone, or is a round of the loop over events, or saves. -/
theorem appStep_sorts (h : appStep crates app input = some (app', effects)) :
    Leaves app app' effects ∨ (∃ stopped, app.poll crates stopped = some (app', effects)) ∨
      (effects = [] ∧ ∃ saved, (input = .callback (.saveProfile saved) ∧ app' = app.saveProfile saved) ∨
        (input = .callback (.saveRelaySettings saved) ∧ app' = app.saveRelaySettings saved)) := by
  cases input with
  | callback callback =>
    simp only [appStep] at h
    split at h
    · rcases App.callback_sorts h with hleaves | ⟨hnone, saved, ⟨rfl, hsaved⟩ | ⟨rfl, hsaved⟩⟩
      · exact Or.inl hleaves
      · exact Or.inr (Or.inr ⟨hnone, saved, Or.inl ⟨rfl, hsaved⟩⟩)
      · exact Or.inr (Or.inr ⟨hnone, saved, Or.inr ⟨rfl, hsaved⟩⟩)
    · cases h
  | resume =>
    rcases App.resume_sorts h with hleaves | hpoll
    · exact Or.inl hleaves
    · exact Or.inr (Or.inl hpoll)
  | edit form =>
    simp only [appStep] at h
    split at h
    · obtain ⟨rfl, rfl⟩ := Prod.mk.inj (Option.some.inj h)
      exact Or.inl (App.leaves_of_none rfl)
    · cases h
  | captured captured =>
    obtain ⟨rfl, rfl⟩ := Prod.mk.inj (Option.some.inj h)
    exact Or.inl (App.leaves_of_none rfl)
  | played =>
    obtain ⟨rfl, rfl⟩ := Prod.mk.inj (Option.some.inj h)
    exact Or.inl (App.leaves_of_none rfl)
  | worker i env => exact Or.inl (App.drive_leaves h)

/-- **What a step plays passed the filter**: it came out of the connected session, and not under the sender id of an
active profile that mutes it. -/
theorem appStep_filter (h : appStep crates app input = some (app', effects)) {frame : Bytes} {ok : Bool}
    (hmem : .playback frame ok ∈ effects) : ∃ i senderId profile, app.session = some i ∧
      app.store.active = .ok profile ∧
      effects = [.relay i (.nextEvent (some (.pcmReceived senderId frame))), .playback frame ok] ∧
      (profile.muteSelfId = true → senderId ≠ profile.senderId) := by
  rcases appStep_sorts h with ⟨-, hmute⟩ | ⟨stopped, hpoll⟩ | ⟨rfl, -⟩
  · exact absurd hmem (hmute frame ok)
  · exact (App.poll_filter hpoll).2 frame ok hmem
  · cases hmem

/-- **The active profile changes by saving one only**, and then sessions and slot stay. -/
theorem appStep_active (h : appStep crates app input = some (app', effects)) :
    app'.store.active = app.store.active ∨ ∃ saved profile, input = .callback (.saveProfile saved) ∧
      profileFromWindow app.window = .ok profile ∧ app'.store.active = .ok profile ∧ app'.session = app.session ∧
      app'.links = app.links := by
  rcases appStep_sorts h with ⟨hstore, -⟩ | ⟨stopped, hpoll⟩ | ⟨-, saved, ⟨hinput, rfl⟩ | ⟨-, rfl⟩⟩
  · exact Or.inl (by rw [hstore])
  · exact Or.inl (by rw [(App.poll_filter hpoll).1])
  · rcases app.saveProfile_active saved with hkept | ⟨profile, hform, hactive⟩
    · exact Or.inl hkept
    · obtain ⟨hsession, hlinks⟩ := app.saveProfile_fields saved
      exact Or.inr ⟨saved, profile, hinput, hform, hactive, hsession, hlinks⟩
  · exact Or.inl (App.saveRelaySettings_active saved)

end Steps

/-! ## §3 — runs in which the sender id stays -/

/-- A profile that is saved while a session is connected does not mute itself, or has the session's sender id. -/
def SavesOwnId (app : App) (input : Input) : Prop :=
  ∀ saved i link profile, input = .callback (.saveProfile saved) → app.session = some i → app.links[i]? = some link →
    profileFromWindow app.window = .ok profile → profile.muteSelfId = true → profile.senderId = link.config.senderId

/-- An active profile that mutes itself has the sender id of the connected session. -/
def OwnId (app : App) : Prop :=
  ∀ i link profile, app.session = some i → app.links[i]? = some link → app.store.active = .ok profile →
    profile.muteSelfId = true → profile.senderId = link.config.senderId

section Runs

variable {crates : CryptoCrates} {app app' : App} {input : Input} {effects : List AppEffect}

/-- A step that leaves the active profile and moves sessions keeps the agreement on those that stay. -/
theorem OwnId.moves (hown : OwnId app) (hmoves : Moves crates input app.links app'.links effects)
    (hactive : app'.store.active = app.store.active)
    (hsession : app'.session = app.session ∨ app'.session = none) : OwnId app' := by
  intro i link' profile hslot hlink' hprofile hmute
  have hslot' : app.session = some i := by
    rcases hsession with hkept | hgone
    · rw [← hkept, hslot]
    · rw [hgone] at hslot
      cases hslot
  obtain ⟨link, hlink, hconfig⟩ := hmoves.config hlink'
  rw [← hconfig]
  rw [hactive] at hprofile
  exact hown i link profile hslot' hlink hprofile hmute

/-- **One step keeps the agreement**, unless it saves another sender id while a session is connected. -/
theorem OwnId.step (hown : OwnId app) (hsaves : SavesOwnId app input)
    (hstep : appStep crates app input = some (app', effects)) : OwnId app' := by
  rcases appStep_active hstep with hactive | ⟨saved, saving, hinput, hform, hactive, hsession, hlinks⟩
  · cases appStep_does hstep with
    | keeps hmoves _ _ _ hsession => exact hown.moves hmoves hactive hsession
    | submits hmoves _ hsession => exact hown.moves hmoves hactive (Or.inl hsession)
    | opens _ _ hlink hlinks hnew =>
      -- the new session has the sender id of the active profile
      intro i link' profile hslot hlink' hprofile _
      obtain rfl := Option.some.inj (hnew.symm.trans hslot)
      rw [hlinks, List.getElem?_concat_length, Option.some.injEq] at hlink'
      subst hlink'
      obtain ⟨opened, hopened, hsender⟩ := (App.openLink_spec hlink).2
      rw [hactive, hopened] at hprofile
      rw [hsender, Outcome.ok.inj hprofile]
  · intro i link profile hslot hlink hprofile hmute
    rw [hactive] at hprofile
    obtain rfl := Outcome.ok.inj hprofile
    rw [hsession] at hslot
    rw [hlinks] at hlink
    exact hsaves saved i link saving hinput hslot hlink hform hmute

/-- Where the two sender ids agree, nothing of the station's own is queued. -/
theorem OwnId.silent (hown : OwnId app) (hstep : appStep crates app input = some (app', effects))
    (hmutes : MutesSelf app.store) : ¬ QueuesOwnFrame app effects := by
  rintro ⟨i, link, frame, ok, hslot, hlink, hreceived, hplayed⟩
  obtain ⟨j, senderId, profile, -, hactive, heffects, hfilter⟩ := appStep_filter hstep hplayed
  obtain ⟨muting, hmuting, hmute⟩ := hmutes
  rw [hactive] at hmuting
  obtain rfl := Outcome.ok.inj hmuting
  -- the one event of the step is the frame that is played
  rw [heffects] at hreceived
  simp only [List.mem_cons, AppEffect.relay.injEq, Effect.nextEvent.injEq, Option.some.injEq,
    RelayEvent.pcmReceived.injEq, reduceCtorEq, List.not_mem_nil, or_false] at hreceived
  obtain ⟨-, hsender, -⟩ := hreceived
  exact hfilter hmute (hsender ▸ (hown i link profile hslot hlink hactive hmute).symm)

theorem run_ownId {loaded : ProfileStore × String} {audio : Bool} {inputs : List Input}
    (hrun : run (appStep crates) (App.start loaded audio) inputs = some (app, effects))
    (halong : Along (appStep crates) SavesOwnId (App.start loaded audio) inputs) : OwnId app := by
  refine run_history_along (R := fun app _ _ => OwnId app) ?_ inputs [] [] _ app effects ?_ halong hrun
  · exact fun app _ _ input app' _ hown hsaves hstep => hown.step hsaves hstep
  · intro i link profile hslot
    rw [(App.start_sessions loaded audio).2] at hslot
    cases hslot

end Runs

/-! ## §4 — what saving another sender id does -/

/-- A round of the loop over events whose event is a frame that the filter lets through. -/
theorem App.poll_plays (crates : CryptoCrates) (app : App) (stopped : Bool) {i : Nat} {link : Link}
    {audio : DesktopAudio} {profile : TransceiverProfile} {senderId : UInt32} {frame : Bytes}
    {events : Channel RelayEvent} (hslot : app.session = some i) (hlink : app.links[i]? = some link)
    (hidle : link.session.client = .idle)
    (hnext : link.session.events.tryRecv = some (.pcmReceived senderId frame, events))
    (haudio : app.audio = some audio) (hactive : app.store.active = .ok profile)
    (hsender : senderId ≠ profile.senderId) :
    ∃ app' ok, app.poll crates stopped =
      some (app', [.relay i (.nextEvent (some (.pcmReceived senderId frame))), .playback frame ok]) := by
  have hclient : clientStep link.session .tryNextEvent =
      some ({ link.session with events }, [.nextEvent (some (.pcmReceived senderId frame))]) := by
    simp only [clientStep, hidle, hnext]
  have hdrive : app.drive crates i (.client .tryNextEvent) =
      some ({ app with links := app.links.set i { link with session := { link.session with events } } },
        [.relay i (.nextEvent (some (.pcmReceived senderId frame)))]) := by
    simp only [App.drive, hlink, step, hclient, List.map_cons, List.map_nil]
  have hfilter : (!profile.muteSelfId || decide (senderId ≠ profile.senderId)) = true := by
    rw [decide_eq_true hsender, Bool.or_true]
  refine ⟨{ app with
    links := app.links.set i { link with session := { link.session with events } }
    audio := some (audio.queuePlaybackFrame frame).2 }, (audio.queuePlaybackFrame frame).1, ?_⟩
  simp only [App.poll, hslot, hdrive, App.nextEvent, List.findSome?_cons, App.handleEvent, hactive, hfilter, if_true,
    haudio, List.singleton_append]

/-- Saving an acceptable profile makes it the active one and touches no more than store and window. -/
theorem App.saveProfile_of_valid {app : App} {old profile : TransceiverProfile}
    (saved : Except ProfileStorageError Unit) (hold : app.store.active = .ok old)
    (hform : profileFromWindow app.window = .ok profile) : ∃ window store,
      app.saveProfile saved = { app with window := window, store := store } ∧ store.active = .ok profile := by
  have hlt : app.store.activeProfile < app.store.profiles.length :=
    (List.getElem?_eq_some_iff.mp (index_eq_ok.mp hold)).1
  have hreplace : app.store.replaceActive profile =
      (Outcome.ofExcept (app.store.replaced (.replaceActive profile)).validate,
        app.store.replaced (.replaceActive profile)) := by
    rw [ProfileStore.replaceActive, profileFromWindow_valid hform]
    exact if_pos hlt
  have hactive : (app.store.replaced (.replaceActive profile)).active = .ok profile :=
    index_eq_ok.mpr (List.getElem?_set_self hlt)
  unfold saveProfile
  rw [hform]
  simp only [hreplace]
  cases (app.store.replaced (.replaceActive profile)).validate with
  | error error => exact ⟨_, _, rfl, hactive⟩
  | ok u =>
    cases saved with
    | ok u => exact ⟨_, _, rfl, hactive⟩
    | error error => exact ⟨_, _, rfl, hactive⟩

/-- **A profile saved with another sender id, and mute on**, lets the next frame of the station's own through. -/
theorem saving_another_id {crates : CryptoCrates} {app : App} {saved : Except ProfileStorageError Unit} {i : Nat}
    {link : Link} {audio : DesktopAudio} {old profile : TransceiverProfile} {frame : Bytes}
    {events : Channel RelayEvent} (hpc : app.pc = .idle) (hptt : app.pttActive = false) (hslot : app.session = some i)
    (hlink : app.links[i]? = some link) (hidle : link.session.client = .idle)
    (hnext : link.session.events.tryRecv = some (.pcmReceived link.config.senderId frame, events))
    (haudio : app.audio = some audio) (hold : app.store.active = .ok old)
    (hform : profileFromWindow app.window = .ok profile) (hmute : profile.muteSelfId = true)
    (hsender : profile.senderId ≠ link.config.senderId) :
    ∃ app₁ app₂ effects, run (appStep crates) app [.callback (.saveProfile saved), .callback .tick] = some (app₁, []) ∧
      appStep crates app₁ .resume = some (app₂, effects) ∧ MutesSelf app₁.store ∧ QueuesOwnFrame app₁ effects := by
  obtain ⟨window, store, hsaved, hactive⟩ := App.saveProfile_of_valid saved hold hform
  have hsave : appStep crates app (.callback (.saveProfile saved)) =
      some ({ app with window := window, store := store }, []) := by
    simp only [appStep, if_pos hpc, App.callback, hsaved]
  have htick : appStep crates { app with window := window, store := store } (.callback .tick) =
      some ({ app with window := window, store := store, pc := .polling false }, []) := by
    simp only [appStep, if_pos hpc, App.callback, hptt]
    rfl
  obtain ⟨app₂, ok, hpoll⟩ := App.poll_plays crates
    { app with window := window, store := store, pc := .polling false } false hslot hlink hidle hnext haudio hactive
    hsender.symm
  refine ⟨_, app₂, _, run_cons_eq_some.mpr ⟨_, _, _, hsave, run_cons_eq_some.mpr ⟨_, _, _, htick, rfl, rfl⟩, rfl⟩,
    hpoll, ⟨profile, hactive, hmute⟩, i, link, frame, ok, hslot, hlink, List.mem_cons_self, ?_⟩
  exact List.mem_cons_of_mem _ (List.mem_singleton_self _)

/-- **Self-mute follows the live session.** In a run of the application from any loaded store, with or without
audio, in which every profile saved while a session is connected has that session's sender id or mute off, no step
from a state whose active profile mutes queues a frame that the connected session received under its own sender id;
and that is the id under which every session transmits, in any run. The condition is needed: in an idle state with
audio and the talk flag clear, where such a frame is the next event of the connected session, saving a profile with
another sender id and mute on, and the next tick, queue it. -/
theorem self_mute_follows_session (crates : CryptoCrates) :
    (∀ loaded audio inputs app effects, run (appStep crates) (App.start loaded audio) inputs = some (app, effects) →
      (Along (appStep crates) SavesOwnId (App.start loaded audio) inputs → ∀ input app' es,
        appStep crates app input = some (app', es) → MutesSelf app.store → ¬ QueuesOwnFrame app es) ∧
      ∀ i link, app.links[i]? = some link → TransmitsAs link.config.senderId (relayed i effects)) ∧
    (∀ (app : App) (saved : Except ProfileStorageError Unit) (i : Nat) (link : Link) (audio : DesktopAudio)
      (old profile : TransceiverProfile) (frame : Bytes) (events : Channel RelayEvent), app.pc = .idle →
      app.pttActive = false → app.session = some i → app.links[i]? = some link → link.session.client = .idle →
      link.session.events.tryRecv = some (.pcmReceived link.config.senderId frame, events) →
      app.audio = some audio → app.store.active = .ok old → profileFromWindow app.window = .ok profile →
      profile.muteSelfId = true → profile.senderId ≠ link.config.senderId →
      ∃ app₁ app₂ effects, run (appStep crates) app [.callback (.saveProfile saved), .callback .tick] =
          some (app₁, []) ∧ appStep crates app₁ .resume = some (app₂, effects) ∧ MutesSelf app₁.store ∧
        QueuesOwnFrame app₁ effects) := by
  refine ⟨?_, ?_⟩
  · intro loaded audio inputs app effects hrun
    refine ⟨?_, ?_⟩
    · intro halong input app' es hstep hmutes
      exact (run_ownId hrun halong).silent hstep hmutes
    · intro i link hlink
      obtain ⟨localAddr, random, labels, hsession, -⟩ := app_run_session hrun hlink
      exact run_transmits hsession
  · intro app saved i link audio old profile frame events hpc hptt hslot hlink hidle hnext haudio hold hform hmute
      hsender
    exact saving_another_id hpc hptt hslot hlink hidle hnext haudio hold hform hmute hsender

/-- The configuration of a session opened from the default store, with another sender id. -/
def defaultConfig (senderId : UInt32) : RelayConfig :=
  RelayConfig.new (.v4 (ByteArr.replicate 4 127) 50000) TransceiverProfile.default.channelId senderId
    TransceiverProfile.default.encryption

/-- A silent frame as a station with this configuration sends it. -/
def ownDatagram (config : RelayConfig) : Bytes :=
  ((sendPcm tagCrates config 1 (MediaState.new tagCrates config 0) (List.replicate 320 0)
    (.ok ())).effects.findSome? Effect.datagram?).getD []

/-- The default profile in the form, with another sender id, and its save. -/
def savesId (senderId : String) : List Input :=
  [.edit { (App.start (ProfileStore.default, "Profile restored") true).window.form with
      senderId := senderId.toList },
    .callback (.saveProfile (.ok ()))]

/-- The first session hears its own frame back from the relay. -/
def hearsOwn (senderId : UInt32) : List Input :=
  List.replicate 7 (workerTick 0) ++ [.worker 0 ⟨.ok (), 0, .ok (ownDatagram (defaultConfig senderId))⟩]

/-- A tick, up to the third event of the session. -/
def polls : List Input := [.callback .tick, .resume, .resume]

/-- Connect, hear the own frame, save the sender id 9, and a tick. -/
def staleIdRun : Option (App × List AppEffect) :=
  run (appStep tagCrates) (App.start (ProfileStore.default, "Profile restored") true)
    ([connects] ++ hearsOwn TransceiverProfile.default.senderId ++ savesId "9" ++ polls)

/-- **The station hears itself**, although the active profile mutes it: its session transmits under the id it was
opened with, and the filter looks for 9. -/
theorem staleIdRun_plays : ∃ app effects app' es, staleIdRun = some (app, effects) ∧
    appStep tagCrates app .resume = some (app', es) ∧ MutesSelf app.store ∧ QueuesOwnFrame app es := by
  have hview : (staleIdRun.bind fun r => (appStep tagCrates r.1 .resume).map fun q =>
      (r.1.session, r.1.links[0]?.map fun link => link.config.senderId, r.1.store.active, q.2)) =
      some (some 0, some TransceiverProfile.default.senderId, .ok { TransceiverProfile.default with senderId := 9 },
        [.relay 0 (.nextEvent (some (.pcmReceived TransceiverProfile.default.senderId (List.replicate 320 0)))),
          .playback (List.replicate 320 0) true]) := by decide +kernel
  obtain ⟨⟨app, effects⟩, hrun, hview⟩ := Option.bind_eq_some_iff.mp hview
  obtain ⟨⟨app', es⟩, hstep, hview⟩ := Option.map_eq_some_iff.mp hview
  obtain ⟨hslot, hview⟩ := Prod.mk.inj hview
  obtain ⟨hsender, hview⟩ := Prod.mk.inj hview
  obtain ⟨hactive, hes⟩ := Prod.mk.inj hview
  obtain ⟨link, hlink, hid⟩ := Option.map_eq_some_iff.mp hsender
  refine ⟨app, effects, app', es, hrun, hstep, ⟨_, hactive, rfl⟩, 0, link, List.replicate 320 0, true, hslot, hlink, ?_⟩
  rw [show es = _ from hes, hid]
  exact ⟨List.mem_cons_self, List.mem_cons_of_mem _ (List.mem_singleton_self _)⟩

/-- Save the sender id 9, connect, hear the own frame, and a tick. -/
def freshIdInputs : List Input := savesId "9" ++ ([connects] ++ hearsOwn 9 ++ polls)

/-- **A station that mutes itself is silent** when the id is saved before it connects: the frame is dropped. -/
theorem self_mute_follows_session_saved : ∃ app effects app' es,
    run (appStep tagCrates) (App.start (ProfileStore.default, "Profile restored") true) freshIdInputs =
      some (app, effects) ∧
    appStep tagCrates app .resume = some (app', es) ∧
    es = [.relay 0 (.nextEvent (some (.pcmReceived 9 (List.replicate 320 0))))] ∧ ¬ QueuesOwnFrame app es := by
  have hview : ((run (appStep tagCrates) (App.start (ProfileStore.default, "Profile restored") true)
      freshIdInputs).bind fun r => (appStep tagCrates r.1 .resume).map fun q => (r.1.store.active, q.2)) =
      some (.ok { TransceiverProfile.default with senderId := 9 },
        [.relay 0 (.nextEvent (some (.pcmReceived 9 (List.replicate 320 0))))]) := by decide +kernel
  obtain ⟨⟨app, effects⟩, hrun, hview⟩ := Option.bind_eq_some_iff.mp hview
  obtain ⟨⟨app', es⟩, hstep, hview⟩ := Option.map_eq_some_iff.mp hview
  obtain ⟨hactive, hes⟩ := Prod.mk.inj hview
  refine ⟨app, effects, app', es, hrun, hstep, hes, ?_⟩
  refine ((self_mute_follows_session tagCrates).1 _ _ freshIdInputs app effects hrun).1 ?_ .resume app' es hstep
    ⟨_, hactive, rfl⟩
  -- the save comes before the connection, and no other input saves
  refine ⟨(fun _ _ _ _ heq => nomatch heq), fun s _ hs => ⟨?_, fun s' _ _ => ?_⟩⟩
  · intro saved i link profile _ hslot
    obtain ⟨rfl, -⟩ := Prod.mk.inj (Option.some.inj hs)
    cases hslot
  · apply along_of_forall
    intro input hinput s saved i link profile heq
    rw [heq] at hinput
    simp [hearsOwn, polls, connects, workerTick] at hinput

end IncomUdon.Desktop
