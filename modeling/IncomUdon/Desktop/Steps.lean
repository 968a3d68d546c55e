/-
# IncomUdon.Desktop.Steps — what one step of the application does.

Every callback, every round of the timer and every step of a worker is sorted by what it submits, what it does to
the sessions and to the slot, and whether it lets the application talk (`AppDoes`). `appStep_does` is all that later
modules use of the callbacks.
-/
import IncomUdon.Desktop.App

namespace IncomUdon.Desktop

open IncomUdon.Lib
open IncomUdon.Protocol
open IncomUdon.Crypto
open IncomUdon.Transport

/-! ## The kinds of steps -/

/-- The application may hand frames to the session in the slot. -/
def App.Talks (app : App) : Prop := app.pttActive = true ∨ ∃ rounds, app.pc = .streaming rounds

/-- What is queued for playback was waiting in the event channel of a session. -/
def App.Heard (app : App) (effects : List AppEffect) : Prop :=
  ∀ frame ok, .playback frame ok ∈ effects → ∃ (i : Nat) (link : Link) (senderId : UInt32),
    app.links[i]? = some link ∧ .pcmReceived senderId frame ∈ link.session.events.queue

/-- The commands the application submits, each with what it says of the flag. -/
inductive Submits (app app' : App) (i : Nat) : RelayCommand → Bool → Prop where
  | codecConfig {ok : Bool} (hslot : app.session = some i) (htalks : app'.Talks → app.Talks)
      (hpc : app'.pc = .requesting → ok = true) :
      Submits app app' i (.sendControl .codecConfig App.pcmCodecConfig) ok
  | pttOn {ok : Bool} (hpc : app.pc = .requesting) (hslot : app.session = some i)
      (htalks : app'.Talks → app.Talks ∨ ok = true) (hpc' : app'.pc ≠ .requesting) :
      Submits app app' i (.sendControl .pttOn []) ok
  | pttOff {ok : Bool} (htalks : ¬ app'.Talks) (hpc' : app'.pc ≠ .requesting) :
      Submits app app' i (.sendControl .pttOff []) ok
  | frame {frame : Bytes} {ok : Bool} (hslot : app.session = some i) (htalks : app.Talks)
      (hpc' : app'.pc ≠ .requesting) : Submits app app' i (.sendPcm frame) ok
  | disconnect {ok : Bool} (htalks : app'.Talks → app.Talks) (hpc' : app'.pc ≠ .requesting) :
      Submits app app' i .disconnect ok

/-- **The three kinds of steps** of the application. -/
inductive AppDoes (crates : CryptoCrates) (app : App) (input : Input) (app' : App) (effects : List AppEffect) :
    Prop where
  /-- Nothing is submitted, and the slot keeps its session or loses it. -/
  | keeps (hmoves : Moves crates input app.links app'.links effects) (hheard : app.Heard effects)
      (hsilent : ∀ i, attempts i effects = []) (htalks : app'.Talks → app.Talks)
      (hsession : app'.session = app.session ∨ app'.session = none)
      (hpc : app'.pc = .requesting → app.pc = .requesting)
  /-- A session is opened. -/
  | opens {resolved : Except IoError (List SocketAddr)} {opening : Opening} {link : Link}
      (hinput : input = .callback (.connectRelay resolved opening)) (hslot : app.session = none)
      (hlink : app.openLink crates resolved opening = .ok link) (hlinks : app'.links = app.links ++ [link])
      (hnew : app'.session = some app.links.length) (hnone : effects = [])
      (htalks : app'.Talks → app.pttActive = true) (hpc : app'.pc ≠ .requesting)
  /-- One command is submitted. -/
  | submits {i : Nat} {command : RelayCommand} {ok : Bool} (hmoves : Moves crates input app.links app'.links effects)
      (heffects : effects = [.relay i (.submitted command ok)]) (hsession : app'.session = app.session)
      (hkind : Submits app app' i command ok)

/-! ## Callback by callback -/

namespace App

variable {crates : CryptoCrates} {app app' : App} {input : Input} {effects : List AppEffect}

/-- A control packet is refused for want of a session, or submitted to the one in the slot. -/
theorem sendControl_cases {packetType : PacketType} {payload : Bytes} {failure : String}
    {result : Except String Unit}
    (h : app.sendControl crates packetType payload failure = some (result, app', effects)) :
    ((∃ error, result = .error error) ∧ app' = app ∧ effects = []) ∨
    ∃ i links ok, app.session = some i ∧ app' = { app with links := links } ∧
      (∀ input, Moves crates input app.links links effects) ∧
      effects = [.relay i (.submitted (.sendControl packetType payload) ok)] ∧ (result = .ok () → ok = true) := by
  unfold sendControl at h
  split at h
  · obtain ⟨rfl, rfl, rfl⟩ : _ = result ∧ app = app' ∧ [] = effects := by
      simpa only [Option.some.injEq, Prod.mk.injEq] using h
    exact Or.inl ⟨⟨_, rfl⟩, rfl, rfl⟩
  · rename_i i hslot
    split at h
    · cases h
    · rename_i driven es hdrive
      obtain ⟨links, rfl, hmoves, hes⟩ := drive_submits rfl hdrive
      obtain ⟨rfl, rfl, rfl⟩ : _ = result ∧ { app with links := links } = app' ∧ es = effects := by
        simpa only [Option.some.injEq, Prod.mk.injEq] using h
      refine Or.inr ⟨i, links, accepted es, hslot, rfl, hmoves, hes, ?_⟩
      intro hresult
      split at hresult
      · assumption
      · cases hresult

/-- Outside the loop over frames, only the flag lets the application talk. -/
theorem Talks.of_flag (hptt : app'.pttActive = app.pttActive) (hpc : ∀ rounds, app'.pc ≠ .streaming rounds)
    (h : app'.Talks) : app.Talks := by
  rcases h with hset | ⟨rounds, hstreaming⟩
  · exact Or.inl (hptt ▸ hset)
  · exact absurd hstreaming (hpc rounds)

/-- A step that submits nothing, leaves the slot or empties it, and starts no talk. -/
theorem keeps_of_none (hnone : effects = []) (hlinks : app'.links = app.links) (htalks : app'.Talks → app.Talks)
    (hsession : app'.session = app.session ∨ app'.session = none) (hpc : app'.pc = .requesting → app.pc = .requesting) :
    AppDoes crates app input app' effects := by
  subst hnone
  exact .keeps (.still hlinks fun _ => rfl) (fun _ _ h => (nomatch h)) (fun _ => rfl) htalks hsession hpc

theorem pttPressed_does (hidle : app.pc = .idle) (h : app.pttPressed crates = some (app', effects)) :
    AppDoes crates app input app' effects := by
  unfold pttPressed at h
  split at h
  · obtain ⟨rfl, rfl⟩ := Prod.mk.inj (Option.some.inj h)
    exact keeps_of_none rfl rfl id (Or.inl rfl) id
  split at h
  · split at h
    · obtain ⟨rfl, rfl⟩ := Prod.mk.inj (Option.some.inj h)
      exact keeps_of_none rfl rfl id (Or.inl rfl) id
    split at h
    · obtain ⟨rfl, rfl⟩ := Prod.mk.inj (Option.some.inj h)
      exact keeps_of_none rfl rfl id (Or.inl rfl) id
    split at h
    · cases h
    · -- `CodecConfig` was accepted
      rename_i hsend
      obtain ⟨rfl, rfl⟩ := Prod.mk.inj (Option.some.inj h)
      rcases sendControl_cases hsend with ⟨⟨_, herror⟩, -⟩ | ⟨i, links, ok, hslot, rfl, hmoves, rfl, hok⟩
      · cases herror
      · exact .submits (hmoves _) rfl rfl (.codecConfig hslot (.of_flag rfl (fun _ h => nomatch h)) fun _ => hok rfl)
    · rename_i hsend
      obtain ⟨rfl, rfl⟩ := Prod.mk.inj (Option.some.inj h)
      rcases sendControl_cases hsend with ⟨-, rfl, rfl⟩ | ⟨i, links, ok, hslot, rfl, hmoves, rfl, -⟩
      · exact keeps_of_none rfl rfl id (Or.inl rfl) id
      · refine .submits (hmoves _) rfl rfl (.codecConfig hslot id ?_)
        intro hpc
        rw [show app.pc = .requesting from hpc] at hidle
        cases hidle
  · obtain ⟨rfl, rfl⟩ := Prod.mk.inj (Option.some.inj h)
    exact keeps_of_none rfl rfl (.of_flag rfl (fun _ h => nomatch h)) (Or.inl rfl) (fun hpc => nomatch hpc)

theorem requestTalk_does (hpc : app.pc = .requesting) (h : app.requestTalk crates = some (app', effects)) :
    AppDoes crates app input app' effects := by
  unfold requestTalk at h
  split at h
  · cases h
  · -- `PttOn` was accepted: the flag is set
    rename_i hsend
    obtain ⟨rfl, rfl⟩ := Prod.mk.inj (Option.some.inj h)
    rcases sendControl_cases hsend with ⟨⟨_, herror⟩, -⟩ | ⟨i, links, ok, hslot, rfl, hmoves, rfl, hok⟩
    · cases herror
    · exact .submits (hmoves _) rfl rfl (.pttOn hpc hslot (fun _ => Or.inr (hok rfl)) (fun hpc => nomatch hpc))
  · rename_i hsend
    obtain ⟨rfl, rfl⟩ := Prod.mk.inj (Option.some.inj h)
    rcases sendControl_cases hsend with ⟨-, rfl, rfl⟩ | ⟨i, links, ok, hslot, rfl, hmoves, rfl, -⟩
    · exact keeps_of_none rfl rfl (.of_flag rfl (fun _ h => nomatch h)) (Or.inl rfl) (fun hpc => nomatch hpc)
    · refine .submits (hmoves _) rfl rfl (.pttOn hpc hslot (fun h => Or.inl ?_) (fun hpc => nomatch hpc))
      refine Talks.of_flag ?_ ?_ h
      · rfl
      · exact fun _ hpc => nomatch hpc

theorem pttReleased_does (hidle : app.pc = .idle) (h : app.pttReleased crates = some (app', effects)) :
    AppDoes crates app input app' effects := by
  have hquiet : ∀ app' : App, app'.pttActive = false → app'.pc = app.pc → ¬ app'.Talks := by
    rintro app' hptt hpc (hset | ⟨rounds, hstreaming⟩)
    · rw [hptt] at hset
      cases hset
    · rw [hpc, hidle] at hstreaming
      cases hstreaming
  have hpc' : app.pc ≠ .requesting := by
    rw [hidle]
    exact fun h => nomatch h
  unfold pttReleased at h
  split at h
  · cases h
  · rename_i hsend
    obtain ⟨rfl, rfl⟩ := Prod.mk.inj (Option.some.inj h)
    rcases sendControl_cases hsend with ⟨⟨_, herror⟩, -⟩ | ⟨i, links, ok, hslot, rfl, hmoves, rfl, -⟩
    · cases herror
    · exact .submits (hmoves _) rfl rfl (.pttOff (hquiet _ rfl rfl) hpc')
  · rename_i hsend
    obtain ⟨rfl, rfl⟩ := Prod.mk.inj (Option.some.inj h)
    rcases sendControl_cases hsend with ⟨-, rfl, rfl⟩ | ⟨i, links, ok, hslot, rfl, hmoves, rfl, -⟩
    · refine keeps_of_none rfl ?_ (fun h => absurd h (hquiet _ ?_ ?_)) (Or.inl ?_) ?_ <;> split
      all_goals first | rfl | exact id
    · refine .submits ?_ rfl ?_ (.pttOff (hquiet _ ?_ ?_) ?_) <;> split
      all_goals first | rfl | exact hpc' | exact hmoves _

theorem connectRelay_does {resolved : Except IoError (List SocketAddr)} {opening : Opening} (hidle : app.pc = .idle) :
    AppDoes crates app (.callback (.connectRelay resolved opening)) (app.connectRelay crates resolved opening) [] := by
  unfold connectRelay
  split
  · exact keeps_of_none rfl rfl id (Or.inl rfl) id
  · rename_i hslot
    split
    · rename_i link hlink
      refine .opens rfl hslot hlink rfl rfl rfl ?_ ?_
      · rintro (hptt | ⟨rounds, hstreaming⟩)
        · exact hptt
        · rw [show app.pc = .streaming rounds from hstreaming] at hidle
          cases hidle
      · show app.pc ≠ .requesting
        rw [hidle]
        exact fun h => nomatch h
    · exact keeps_of_none rfl rfl id (Or.inl rfl) id
    · exact keeps_of_none rfl rfl (.of_flag rfl (fun _ h => nomatch h)) (Or.inl rfl) (fun hpc => nomatch hpc)

theorem save_does (replaced : Outcome Core.ProfileError Unit × Core.ProfileStore)
    (saved : Except ProfileStorageError Unit) (done : String) :
    AppDoes crates app input (app.save replaced saved done) [] := by
  unfold save
  dsimp only
  split
  · exact keeps_of_none rfl rfl (.of_flag rfl (fun _ h => nomatch h)) (Or.inl rfl) (fun hpc => nomatch hpc)
  · exact keeps_of_none rfl rfl id (Or.inl rfl) id
  · split <;> exact keeps_of_none rfl rfl id (Or.inl rfl) id

/-- Behind the drop of a session the thread is outside every loop. -/
theorem closed_fields (app : App) (reason : Closing) :
    (app.closed reason).links = app.links ∧ (app.closed reason).session = app.session ∧
      (app.closed reason).pttActive = app.pttActive ∧
      (∀ rounds, (app.closed reason).pc ≠ .streaming rounds) ∧ (app.closed reason).pc ≠ .requesting := by
  cases reason with
  | disconnect => exact ⟨rfl, rfl, rfl, (fun _ h => nomatch h), (fun h => nomatch h)⟩
  | stopped => exact ⟨rfl, rfl, rfl, (fun _ h => nomatch h), (fun h => nomatch h)⟩
  | exit => exact ⟨rfl, rfl, rfl, (fun _ h => nomatch h), (fun h => nomatch h)⟩

theorem takeSession_fields (app : App) (reason : Closing) :
    (app.takeSession reason).links = app.links ∧ (app.takeSession reason).session = none ∧
      (app.takeSession reason).pttActive = app.pttActive ∧
      (∀ rounds, (app.takeSession reason).pc ≠ .streaming rounds) ∧ (app.takeSession reason).pc ≠ .requesting := by
  unfold takeSession
  split
  · exact ⟨rfl, rfl, rfl, (fun _ h => nomatch h), (fun h => nomatch h)⟩
  · rename_i hslot
    obtain ⟨hlinks, hsession, hrest⟩ := app.closed_fields reason
    exact ⟨hlinks, hsession.trans hslot, hrest⟩

theorem takeSession_does (app : App) (reason : Closing) :
    AppDoes crates app input (app.takeSession reason) [] := by
  obtain ⟨hlinks, hsession, hptt, hstreaming, hpc⟩ := app.takeSession_fields reason
  exact keeps_of_none rfl hlinks (.of_flag hptt hstreaming) (Or.inr hsession) (fun h => absurd h hpc)

/-- A step of a session that submits nothing. -/
theorem drive_keeps {i : Nat} {label : Label} (h : app.drive crates i label = some (app', effects))
    (hinput : ∀ env, label = .worker env → input = .worker i env)
    (hlabel : ∀ action, label = .client action → action.command? = none) : AppDoes crates app input app' effects := by
  obtain ⟨links, rfl, hmoves, hsilent, hmute⟩ := drive_silent input h hinput hlabel
  exact .keeps hmoves (fun frame ok hmem => absurd hmem (hmute frame ok)) hsilent id (Or.inl rfl) id

theorem close_does {i : Nat} {reason : Closing} (hpc : app.pc = .closing i reason)
    (h : app.close crates i reason = some (app', effects)) : AppDoes crates app input app' effects := by
  unfold close at h
  split at h
  · cases h
  rename_i link _
  split at h
  · refine drive_keeps h (fun _ heq => (nomatch heq)) ?_
    intro action heq
    obtain rfl := Label.client.inj heq
    split <;> rfl
  · -- the `try_send` of `Disconnect`
    obtain ⟨links, rfl, hmoves, heffects⟩ := drive_submits rfl h
    refine .submits (hmoves _) heffects rfl (.disconnect id ?_)
    show app.pc ≠ .requesting
    rw [hpc]
    exact fun h => nomatch h
  · refine drive_keeps h (fun _ heq => (nomatch heq)) ?_
    intro action heq
    obtain rfl := Label.client.inj heq
    rfl
  · obtain ⟨rfl, rfl⟩ := Prod.mk.inj (Option.some.inj h)
    obtain ⟨hlinks, hsession, hptt, hstreaming, hpc⟩ := app.closed_fields reason
    exact keeps_of_none rfl hlinks (.of_flag hptt hstreaming) (Or.inl hsession) (fun h => absurd h hpc)

theorem stream_does {rounds : Nat} (hpc : app.pc = .streaming (rounds + 1))
    (h : app.stream crates rounds = some (app', effects)) : AppDoes crates app input app' effects := by
  have htalks : app.Talks := Or.inr ⟨_, hpc⟩
  unfold stream at h
  split at h
  · obtain ⟨rfl, rfl⟩ := Prod.mk.inj (Option.some.inj h)
    exact keeps_of_none rfl rfl (fun _ => htalks) (Or.inl rfl) (fun h => nomatch h)
  · dsimp only at h
    split at h
    · obtain ⟨rfl, rfl⟩ := Prod.mk.inj (Option.some.inj h)
      exact keeps_of_none rfl rfl (fun _ => htalks) (Or.inl rfl) (fun h => nomatch h)
    · -- the frame is submitted
      rename_i i hslot
      obtain ⟨links, rfl, hmoves, heffects⟩ := drive_submits rfl h
      exact .submits (hmoves _) heffects rfl (.frame hslot htalks (fun h => nomatch h))

/-- Handling an event submits nothing and leaves flag and slot alone. -/
theorem handleEvent_fields (app : App) {stopped : Bool} (hpc : app.pc = .polling stopped) (event : RelayEvent) :
    let handled := app.handleEvent stopped event
    (∀ j, relayed j handled.2 = []) ∧ handled.1.links = app.links ∧ handled.1.session = app.session ∧
      handled.1.pttActive = app.pttActive ∧ (∀ rounds, handled.1.pc ≠ .streaming rounds) ∧
      handled.1.pc ≠ .requesting := by
  have hstay : (∀ rounds, app.pc ≠ .streaming rounds) ∧ app.pc ≠ .requesting := by
    rw [hpc]
    exact ⟨(fun _ h => nomatch h), (fun h => nomatch h)⟩
  cases event with
  | pcmReceived senderId frame =>
    unfold handleEvent
    dsimp only
    split
    · split
      · split
        · exact ⟨fun _ => rfl, rfl, rfl, rfl, hstay⟩
        · exact ⟨fun _ => rfl, rfl, rfl, rfl, hstay⟩
      · exact ⟨fun _ => rfl, rfl, rfl, rfl, hstay⟩
    · exact ⟨fun _ => rfl, rfl, rfl, rfl, (fun _ h => nomatch h), (fun h => nomatch h)⟩
  | _ => exact ⟨fun _ => rfl, rfl, rfl, rfl, (fun _ h => nomatch h), (fun h => nomatch h)⟩

/-- Only the frame of a `PcmReceived` is played. -/
theorem handleEvent_plays (app : App) {stopped : Bool} {event : RelayEvent} {frame : Bytes} {ok : Bool}
    (h : .playback frame ok ∈ (app.handleEvent stopped event).2) : ∃ senderId, event = .pcmReceived senderId frame := by
  cases event with
  | pcmReceived senderId received =>
    refine ⟨senderId, ?_⟩
    unfold handleEvent at h
    dsimp only at h
    split at h
    · split at h
      · split at h
        · obtain ⟨rfl, -⟩ := AppEffect.playback.inj (List.mem_singleton.mp h)
          rfl
        · cases h
      · cases h
    · cases h
  | _ => cases h

theorem poll_does {stopped : Bool} (hpc : app.pc = .polling stopped)
    (h : app.poll crates stopped = some (app', effects)) : AppDoes crates app input app' effects := by
  unfold poll at h
  split at h
  · obtain ⟨rfl, rfl⟩ := Prod.mk.inj (Option.some.inj h)
    exact keeps_of_none rfl rfl (.of_flag rfl (fun _ h => nomatch h)) (Or.inl rfl) (fun h => nomatch h)
  · split at h
    · cases h
    · rename_i driven es hdrive
      obtain ⟨links, rfl, hmoves, hsilent, hmute⟩ := drive_silent input hdrive (fun _ heq => (nomatch heq))
        fun action heq => by obtain rfl := Label.client.inj heq; rfl
      split at h
      · rename_i event hnext
        obtain ⟨rfl, rfl⟩ := Prod.mk.inj (Option.some.inj h)
        obtain ⟨hnone, hlinks, hsession, hptt, hstreaming, hidle⟩ :=
          handleEvent_fields { app with links := links } hpc event
        refine .keeps (hlinks ▸ hmoves.append hnone) ?_ ?_ (.of_flag hptt hstreaming) (Or.inl hsession)
          (fun h => absurd h hidle)
        · intro frame ok hmem
          rcases List.mem_append.mp hmem with hold | hplays
          · exact absurd hold (hmute frame ok)
          · obtain ⟨senderId, rfl⟩ := handleEvent_plays _ hplays
            obtain ⟨link, hlink, hqueued⟩ := drive_nextEvent hdrive hnext
            exact ⟨_, link, senderId, hlink, hqueued⟩
        · intro j
          rw [attempts_append, hsilent, attempts_eq_relayed, hnone]
          rfl
      · obtain ⟨rfl, rfl⟩ := Prod.mk.inj (Option.some.inj h)
        have hheard : app.Heard es := fun frame ok hmem => absurd hmem (hmute frame ok)
        cases stopped with
        | true =>
          -- the worker has stopped: the slot is emptied
          obtain ⟨hlinks, hsession, hptt, hstreaming, hidle⟩ :=
            ({ app with links := links } : App).takeSession_fields .stopped
          have htaken : Moves crates input app.links (({ app with links := links } : App).takeSession .stopped).links
              es := by
            rw [hlinks]
            exact hmoves
          exact .keeps htaken hheard hsilent (.of_flag hptt hstreaming) (Or.inr hsession) (fun h => absurd h hidle)
        | false =>
          exact .keeps hmoves hheard hsilent (.of_flag rfl (fun _ h => nomatch h)) (Or.inl rfl) (fun h => nomatch h)

theorem callback_does {callback : Callback} (hidle : app.pc = .idle)
    (h : app.callback crates callback = some (app', effects)) :
    AppDoes crates app (.callback callback) app' effects := by
  cases callback with
  | pttPressed => exact pttPressed_does hidle h
  | pttReleased => exact pttReleased_does hidle h
  | saveProfile saved =>
    obtain ⟨rfl, rfl⟩ := Prod.mk.inj (Option.some.inj h)
    unfold saveProfile
    split
    · exact keeps_of_none rfl rfl id (Or.inl rfl) id
    · exact save_does _ _ _
  | saveRelaySettings saved =>
    obtain ⟨rfl, rfl⟩ := Prod.mk.inj (Option.some.inj h)
    unfold saveRelaySettings
    split
    · exact keeps_of_none rfl rfl id (Or.inl rfl) id
    · exact save_does _ _ _
  | connectRelay resolved opening =>
    obtain ⟨rfl, rfl⟩ := Prod.mk.inj (Option.some.inj h)
    exact connectRelay_does hidle
  | disconnectRelay =>
    obtain ⟨rfl, rfl⟩ := Prod.mk.inj (Option.some.inj h)
    exact takeSession_does app .disconnect
  | tick =>
    obtain ⟨rfl, rfl⟩ := Prod.mk.inj (Option.some.inj h)
    cases hptt : app.pttActive with
    | true => exact keeps_of_none rfl rfl (fun _ => Or.inl hptt) (Or.inl rfl) (fun h => nomatch h)
    | false =>
      exact keeps_of_none rfl rfl (.of_flag hptt.symm (fun _ h => nomatch h)) (Or.inl rfl) (fun h => nomatch h)
  | quit =>
    obtain ⟨rfl, rfl⟩ := Prod.mk.inj (Option.some.inj h)
    exact takeSession_does app .exit

theorem resume_does (h : app.resume crates = some (app', effects)) : AppDoes crates app .resume app' effects := by
  unfold resume at h
  split at h
  · cases h
  · rename_i hpc
    exact requestTalk_does hpc h
  · rename_i hpc
    obtain ⟨rfl, rfl⟩ := Prod.mk.inj (Option.some.inj h)
    exact keeps_of_none rfl rfl (fun _ => Or.inr ⟨_, hpc⟩) (Or.inl rfl) (fun h => nomatch h)
  · rename_i hpc
    exact stream_does hpc h
  · rename_i hpc
    exact poll_does hpc h
  · rename_i hpc
    exact close_does hpc h
  · cases h
  · cases h

end App

/-- **Every step of the application is of one of the three kinds.** -/
theorem appStep_does {crates : CryptoCrates} {app app' : App} {input : Input} {effects : List AppEffect}
    (h : appStep crates app input = some (app', effects)) : AppDoes crates app input app' effects := by
  cases input with
  | callback callback =>
    simp only [appStep] at h
    split at h
    · rename_i hidle
      exact App.callback_does hidle h
    · cases h
  | resume => exact App.resume_does h
  | edit form =>
    simp only [appStep] at h
    split at h
    · obtain ⟨rfl, rfl⟩ := Prod.mk.inj (Option.some.inj h)
      exact App.keeps_of_none rfl rfl id (Or.inl rfl) id
    · cases h
  | captured frame =>
    obtain ⟨rfl, rfl⟩ := Prod.mk.inj (Option.some.inj h)
    exact App.keeps_of_none rfl rfl id (Or.inl rfl) id
  | played =>
    obtain ⟨rfl, rfl⟩ := Prod.mk.inj (Option.some.inj h)
    exact App.keeps_of_none rfl rfl id (Or.inl rfl) id
  | worker i env =>
    refine App.drive_keeps h ?_ (fun action heq => (nomatch heq))
    intro env' heq
    obtain rfl := Label.worker.inj heq
    rfl

end IncomUdon.Desktop
