/-
# IncomUdon.Desktop.PushToTalk — audio leaves only on a session on which talk was requested.

`on_ptt_pressed` sets `ptt_active` once a `CodecConfig` and a `PttOn` were accepted, `on_ptt_released` clears it
before it tries a `PttOff`, and the timer sends frames while it is set. The flag belongs to the application and not
to a session: neither disconnecting nor `Stopped` clears it. §1 says what is wanted of the commands of one session,
§2 carries the invariant over runs in which no session is opened while the flag is set, and §3 shows that such an
opening is all it takes to break it.
-/
import IncomUdon.Desktop.Steps
import IncomUdon.Lib.Machine
import IncomUdon.Lib.Past

namespace IncomUdon.Desktop

open IncomUdon.Lib
open IncomUdon.Protocol
open IncomUdon.Crypto
open IncomUdon.Transport

/-! ## §1 — the law -/

/-- Neither a `PttOff`, accepted or not, nor an accepted `PttOn`. -/
def KeepsTalk (attempt : RelayCommand × Bool) : Prop :=
  ∀ payload, attempt.1 ≠ .sendControl .pttOff payload ∧ attempt ≠ (.sendControl .pttOn payload, true)

/-- An accepted `PttOn` behind an accepted `CodecConfig`. -/
def StartsTalk (before : List (RelayCommand × Bool)) (attempt : RelayCommand × Bool) : Prop :=
  attempt = (.sendControl .pttOn [], true) ∧ (.sendControl .codecConfig App.pcmCodecConfig, true) ∈ before

/-- **Talk is requested** on a session with these attempts: the last accepted `PttOn` came behind an accepted
`CodecConfig`, and no `PttOff` has been attempted since. -/
def Requested (attempts : List (RelayCommand × Bool)) : Prop := Since KeepsTalk StartsTalk attempts

/-- An accepted frame is preceded by a request. -/
def Permitted (before : List (RelayCommand × Bool)) (attempt : RelayCommand × Bool) : Prop :=
  ∀ frame, attempt = (.sendPcm frame, true) → Requested before

/-- On every session, every accepted frame was permitted. -/
def PttSafe (effects : List AppEffect) : Prop := ∀ i, Guarded Permitted (attempts i effects)

/-! ## §2 — runs in which no session is opened while the flag is set -/

/-- No session is opened in this step unless `ptt_active` is clear. -/
def OpensQuietly (crates : CryptoCrates) (app : App) (input : Input) : Prop :=
  ∀ resolved opening link, input = .callback (.connectRelay resolved opening) → app.session = none →
    app.openLink crates resolved opening = .ok link → app.pttActive = false

/-- What holds so far: the law, talk is requested on the session in the slot while the application talks, and its
`CodecConfig` was accepted once `on_ptt_pressed` is half done. -/
structure TalkInv (app : App) (_ : List Input) (effects : List AppEffect) : Prop where
  safe : PttSafe effects
  talking : app.Talks → ∀ i, app.session = some i → Requested (attempts i effects)
  configured : app.pc = .requesting → ∀ i, app.session = some i →
    (.sendControl .codecConfig App.pcmCodecConfig, true) ∈ attempts i effects

section Runs

variable {crates : CryptoCrates} {app app' : App} {inputs : List Input} {input : Input}
  {seen effects : List AppEffect}

theorem TalkInv.start (loaded : Core.ProfileStore × String) (audio : Bool) :
    TalkInv (App.start loaded audio) [] [] := by
  have hslot := (App.start_sessions loaded audio).2
  refine ⟨fun _ => guarded_nil, ?_, ?_⟩
  · intro _ i hi
    rw [hslot] at hi
    cases hi
  · intro _ i hi
    rw [hslot] at hi
    cases hi

/-- One more attempt on a session, on the attempts of each session. -/
theorem attempts_concat (seen : List AppEffect) (i j : Nat) (command : RelayCommand) (ok : Bool) :
    attempts j (seen ++ [.relay i (.submitted command ok)]) =
      if i = j then attempts j seen ++ [(command, ok)] else attempts j seen := by
  have hone : attempts j [.relay i (.submitted command ok)] = if i = j then [(command, ok)] else [] :=
    attempts_relay i j [.submitted command ok]
  rw [attempts_append, hone]
  split
  · rfl
  · rw [List.append_nil]

/-- What a submitted command needs of the session it goes to. -/
theorem Submits.permitted {i : Nat} {command : RelayCommand} {ok : Bool} (hinv : TalkInv app inputs seen)
    (h : Submits app app' i command ok) : Permitted (attempts i seen) (command, ok) := by
  intro frame heq
  obtain ⟨rfl, rfl⟩ := Prod.mk.inj heq
  cases h with
  | frame hslot htalks => exact hinv.talking htalks i hslot

/-- While the application talks on behind a command, talk is requested behind it on the session in the slot. -/
theorem Submits.requested {i j : Nat} {command : RelayCommand} {ok : Bool} (hinv : TalkInv app inputs seen)
    (h : Submits app app' i command ok) (htalks' : app'.Talks) (hj : app.session = some j) :
    Requested (attempts j (seen ++ [.relay i (.submitted command ok)])) := by
  rw [attempts_concat]
  -- a command that is no talk control keeps what was requested
  have hkeep : app.Talks → (i = j → KeepsTalk (command, ok)) →
      Requested (if i = j then attempts j seen ++ [(command, ok)] else attempts j seen) := by
    intro htalks hkeeps
    have hold := hinv.talking htalks j hj
    split
    · rename_i hij
      exact hold.concat (hkeeps hij)
    · exact hold
  cases h with
  | codecConfig hslot htalks => exact hkeep (htalks htalks') (fun _ payload => ⟨by simp, by simp⟩)
  | @pttOn ok hpc hslot htalks =>
    obtain rfl := Option.some.inj (hslot.symm.trans hj)
    cases ok with
    | true =>
      rw [if_pos rfl]
      exact since_now ⟨rfl, hinv.configured hpc i hslot⟩
    | false =>
      have htalked : app.Talks := (htalks htalks').resolve_right (by decide)
      exact hkeep htalked (fun _ payload => ⟨by simp, by simp⟩)
  | pttOff hquiet => exact absurd htalks' hquiet
  | frame hslot htalks => exact hkeep htalks (fun _ payload => ⟨by simp, by simp⟩)
  | disconnect htalks => exact hkeep (htalks htalks') (fun _ payload => ⟨by simp, by simp⟩)

/-- **One step keeps the invariant**, unless it opens a session while the flag is set. -/
theorem TalkInv.step (hinv : TalkInv app inputs seen) (hquiet : OpensQuietly crates app input)
    (hstep : appStep crates app input = some (app', effects)) :
    TalkInv app' (inputs ++ [input]) (seen ++ effects) := by
  cases appStep_does hstep with
  | keeps _ _ hsilent htalks hsession hpc =>
    -- no session gets a command, and the slot gets no new session
    have hsame : ∀ i, attempts i (seen ++ effects) = attempts i seen := by
      intro i
      rw [attempts_append, hsilent, List.append_nil]
    have hslot : ∀ i, app'.session = some i → app.session = some i := by
      intro i hi
      rcases hsession with hkept | hgone
      · rw [← hkept, hi]
      · rw [hgone] at hi
        cases hi
    refine ⟨?_, ?_, ?_⟩
    · intro i
      rw [hsame]
      exact hinv.safe i
    · intro ht i hi
      rw [hsame]
      exact hinv.talking (htalks ht) i (hslot i hi)
    · intro hreq i hi
      rw [hsame]
      exact hinv.configured (hpc hreq) i (hslot i hi)
  | @opens resolved opening link hinput hslot hlink hlinks hnew hnone htalks hpc =>
    -- the fresh session was asked nothing, and with the flag clear nothing will be sent to it
    have hclear := hquiet resolved opening link hinput hslot hlink
    refine ⟨?_, ?_, ?_⟩
    · intro i
      rw [hnone, List.append_nil]
      exact hinv.safe i
    · intro ht
      rw [htalks ht] at hclear
      cases hclear
    · intro hreq
      exact absurd hreq hpc
  | @submits i command ok hmoves heffects hsession hkind =>
    subst heffects
    refine ⟨?_, ?_, ?_⟩
    · intro j
      rw [attempts_concat]
      split
      · rename_i hij
        subst hij
        exact (hinv.safe i).concat (hkind.permitted hinv)
      · exact hinv.safe j
    · intro ht j hj
      rw [hsession] at hj
      exact hkind.requested hinv ht hj
    · intro hreq j hj
      rw [hsession] at hj
      cases hkind with
      | codecConfig hslot _ hok =>
        obtain rfl := Option.some.inj (hslot.symm.trans hj)
        rw [attempts_concat, if_pos rfl, hok hreq]
        exact List.mem_append_right _ (List.mem_singleton_self _)
      | pttOn _ _ _ hpc => exact absurd hreq hpc
      | pttOff _ hpc => exact absurd hreq hpc
      | frame _ _ hpc => exact absurd hreq hpc
      | disconnect _ hpc => exact absurd hreq hpc

end Runs

/-! ## §3 — what an opening while the flag is set does -/

/-- A round of the loop over frames, on a session that takes the frame. -/
theorem App.stream_submits (crates : CryptoCrates) (app : App) {audio audio' : DesktopAudio} {frame : Bytes}
    {i : Nat} {link : Link} {s : Session} (haudio : app.audio = some audio)
    (hnext : audio.tryNextCaptureFrame = some (frame, audio')) (hslot : app.session = some i)
    (hlink : app.links[i]? = some link)
    (hstep : clientStep link.session (.sendPcmFrame frame) = some (s, [.submitted (.sendPcm frame) true]))
    (rounds : Nat) :
    ∃ app', app.stream crates rounds = some (app', [.relay i (.submitted (.sendPcm frame) true)]) := by
  refine ⟨{ app with
    audio := some audio'
    pc := .streaming rounds
    links := app.links.set i { link with session := s } }, ?_⟩
  rw [App.stream, haudio, Option.bind_some, hnext]
  simp only [hslot, App.drive, hlink, step, hstep]
  rfl

/-- **A session opened while the flag is set** sends the next frame of the microphone, without a request. -/
theorem opening_while_active {crates : CryptoCrates} {app : App}
    {resolved : Except IoError (List SocketAddr)} {opening : Opening} {link : Link} {audio : DesktopAudio}
    (hidle : app.pc = .idle) (hslot : app.session = none)
    (hlink : app.openLink crates resolved opening = .ok link) (hptt : app.pttActive = true)
    (haudio : app.audio = some audio) (hcapacity : 0 < audio.captureFrames.capacity) (frame : Bytes) :
    ∃ app' effects, run (appStep crates) app
      [.callback (.connectRelay resolved opening), .captured frame, .callback .tick, .resume] = some (app', effects) ∧
      ¬ PttSafe effects := by
  obtain ⟨next, audio', hnext⟩ := DesktopAudio.captured_tryNext frame hcapacity
  obtain ⟨localAddr, random, hfresh⟩ := (App.openLink_spec hlink).1
  obtain ⟨s, hsubmit⟩ : ∃ s, clientStep link.session (.sendPcmFrame next) =
      some (s, [.submitted (.sendPcm next) true]) := by
    rw [hfresh]
    exact Session.start_accepts localAddr random next
  obtain ⟨window, store, _, _, links, _, _⟩ := app
  obtain rfl : _ = UiPc.idle := hidle
  obtain rfl : _ = none := hslot
  obtain rfl : _ = true := hptt
  obtain rfl : _ = some audio := haudio
  have hopen : appStep crates ⟨window, store, some audio, true, links, none, .idle⟩
      (.callback (.connectRelay resolved opening)) =
      some (⟨window.setConnectionStatus "Connecting", store, some audio, true, links ++ [link], some links.length,
        .idle⟩, []) := by
    simp only [appStep, App.callback, App.connectRelay, hlink]
    rfl
  obtain ⟨app', hstream⟩ := App.stream_submits crates
    ⟨window.setConnectionStatus "Connecting", store, some (audio.captured frame), true, links ++ [link],
      some links.length, .streaming 4⟩ rfl hnext rfl List.getElem?_concat_length hsubmit 3
  refine ⟨app', _, run_cons_eq_some.mpr ⟨_, _, _, hopen, run_cons_eq_some.mpr ⟨_, _, _, rfl,
    run_cons_eq_some.mpr ⟨_, _, _, rfl, run_cons_eq_some.mpr ⟨_, _, _, hstream, rfl, rfl⟩, rfl⟩, rfl⟩, rfl⟩, ?_⟩
  intro hsafe
  -- the new session has accepted one command, a frame
  have hlog := attempts_concat [] links.length links.length (.sendPcm next) true
  rw [if_pos rfl] at hlog
  exact not_since_nil (hsafe links.length [] (.sendPcm next, true) [] hlog next rfl)

/-- **Push-to-talk safety.** In a run of the application from any loaded store, with or without audio, in which no
session is opened while `ptt_active` is set, every frame a session accepts is preceded, among the commands of that
session, by an accepted `CodecConfig` and then the last accepted `PttOn`, with no `PttOff` accepted or attempted in
between. The condition is exact step by step: from any state with an audio device and the flag set in which a
session is opened, the next capture frame and the next tick break it. -/
theorem push_to_talk_safe (crates : CryptoCrates) :
    (∀ loaded audio inputs app effects, run (appStep crates) (App.start loaded audio) inputs = some (app, effects) →
      Along (appStep crates) (OpensQuietly crates) (App.start loaded audio) inputs → PttSafe effects) ∧
    (∀ (app : App) (resolved : Except IoError (List SocketAddr)) (opening : Opening) (link : Link)
      (audio : DesktopAudio) (frame : Bytes), app.pc = .idle → app.session = none →
      app.openLink crates resolved opening = .ok link → app.pttActive = true →
      app.audio = some audio → 0 < audio.captureFrames.capacity →
      ∃ app' effects, run (appStep crates) app
        [.callback (.connectRelay resolved opening), .captured frame, .callback .tick, .resume] =
          some (app', effects) ∧ ¬ PttSafe effects) := by
  refine ⟨?_, ?_⟩
  · intro loaded audio inputs app effects hrun halong
    have hend := run_history_along (R := TalkInv) (fun _ _ _ _ _ _ hinv hquiet hstep => hinv.step hquiet hstep)
      inputs [] [] _ app effects (TalkInv.start loaded audio) halong hrun
    exact hend.safe
  · intro app resolved opening link audio frame hidle hslot hlink hptt haudio hcapacity
    exact opening_while_active hidle hslot hlink hptt haudio hcapacity frame

/-- The default store with a PCM profile. -/
def pcmStore : Core.ProfileStore :=
  { Core.ProfileStore.default with
    profiles := [{ Core.TransceiverProfile.default with codec := .pcm, bitrateBps := none }] }

/-- The relay resolves and the operating system opens every socket. -/
def connects : Input :=
  .callback (.connectRelay (.ok [.v4 (ByteArr.replicate 4 127) 50000])
    { bind := fun _ => .ok ()
      connect := fun _ => .ok ()
      setReadTimeout := .ok ()
      localAddr := .ok stationAddr
      spawn := .ok ()
      random := 0 })

/-- A worker of the application steps. -/
def workerTick (i : Nat) : Input := .worker i ⟨.ok (), 0, .error ⟨.timedOut, "timed out"⟩⟩

/-- Connect, press, and a tick with one frame of the microphone. -/
def talkInputs : List Input :=
  [connects, .callback .pttPressed, .resume, .captured (List.replicate 320 0), .callback .tick, .resume]

/-- **A talk as it should be.** The session accepts the two requests and then the frame. -/
theorem push_to_talk_safe_talk : ∃ app effects,
    run (appStep tagCrates) (App.start (pcmStore, "Profile restored") true) talkInputs = some (app, effects) ∧
    attempts 0 effects = [(.sendControl .codecConfig App.pcmCodecConfig, true), (.sendControl .pttOn [], true),
      (.sendPcm (List.replicate 320 0), true)] ∧ PttSafe effects := by
  have hlog : (run (appStep tagCrates) (App.start (pcmStore, "Profile restored") true) talkInputs).map
      (fun r => attempts 0 r.2) = some [(.sendControl .codecConfig App.pcmCodecConfig, true),
        (.sendControl .pttOn [], true), (.sendPcm (List.replicate 320 0), true)] := by decide +kernel
  obtain ⟨⟨app, effects⟩, hrun, hattempts⟩ := Option.map_eq_some_iff.mp hlog
  refine ⟨app, effects, hrun, hattempts, ?_⟩
  apply (push_to_talk_safe tagCrates).1 _ _ talkInputs app effects hrun
  -- the one connection is made at the start, where the flag is clear; no other input opens a session
  refine ⟨fun _ _ _ _ _ _ => rfl, fun app' _ _ => ?_⟩
  apply along_of_forall
  intro input hinput s resolved opening link heq
  rw [heq] at hinput
  simp only [List.mem_cons, Input.callback.injEq, reduceCtorEq, List.not_mem_nil, or_self] at hinput

/-- Press, disconnect and connect again without a release; then a frame and a tick. -/
def staleRun : Option (App × List AppEffect) :=
  run (appStep tagCrates) (App.start (pcmStore, "Profile restored") true)
    ([connects, .callback .pttPressed, .resume, .callback .disconnectRelay, .resume, .resume] ++
      List.replicate 5 (workerTick 0) ++ [.resume, .resume, .resume, connects,
      .captured (List.replicate 320 0), .callback .tick, .resume])

/-- **The flag outlives the session.** The second session of `staleRun` accepts one command, a frame. -/
theorem staleRun_transmits : pcmStore.validate = .ok () ∧ ∃ app effects, staleRun = some (app, effects) ∧
    attempts 1 effects = [(.sendPcm (List.replicate 320 0), true)] ∧ ¬ PttSafe effects := by
  have hlog : staleRun.map (fun r => attempts 1 r.2) = some [(.sendPcm (List.replicate 320 0), true)] := by
    decide +kernel
  obtain ⟨⟨app, effects⟩, hrun, hattempts⟩ := Option.map_eq_some_iff.mp hlog
  refine ⟨by decide, app, effects, hrun, hattempts, ?_⟩
  intro hsafe
  exact not_since_nil (hsafe 1 [] (.sendPcm (List.replicate 320 0), true) [] hattempts _ rfl)

end IncomUdon.Desktop
