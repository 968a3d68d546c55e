/-
# IncomUdon.Desktop.HotMic — nothing leaves the microphone but what is said while the button is held.

The input stream delivers frames all the time. `on_ptt_pressed` throws away those that wait, the timer sends frames
while `ptt_active` is set, and `on_ptt_released` clears it before anything else. §1 says what the user says: the
frames captured between a press and the next release. §2 shows that every frame handed to a session is one of them,
in order and none twice, and §3 follows them to the workers. Unlike the law of `IncomUdon.Desktop.PushToTalk`, this
needs no condition on the run: a flag that outlives its session still belongs to a button that is held.
-/
import IncomUdon.Desktop.Slot
import IncomUdon.Transport.Voice

namespace IncomUdon.Desktop

open IncomUdon.Lib
open IncomUdon.Protocol
open IncomUdon.Crypto
open IncomUdon.Transport

/-! ## §1 — what the user says -/

/-- Whether the talk button is held, and the frames the microphone delivered while it was. -/
structure Spoken where
  held : Bool
  frames : List Bytes
  deriving DecidableEq, Repr

/-- A press, a release, or a frame of the microphone. -/
def Spoken.step (spoken : Spoken) : Input → Spoken
  | .callback .pttPressed => { spoken with held := true }
  | .callback .pttReleased => { spoken with held := false }
  | .captured frame => if spoken.held then { spoken with frames := spoken.frames ++ [frame] } else spoken
  | _ => spoken

/-- What the user has said by the end of the inputs. -/
def spoken (inputs : List Input) : Spoken := inputs.foldl Spoken.step ⟨false, []⟩

theorem spoken_concat (inputs : List Input) (input : Input) :
    spoken (inputs ++ [input]) = (spoken inputs).step input := by
  simp [spoken, List.foldl_append]

/-- An input that is neither a release nor a frame takes nothing away and says nothing. -/
theorem Spoken.step_plain (spoken : Spoken) {input : Input} (h : input.plain = true) :
    (spoken.step input).frames = spoken.frames ∧ (spoken.held = true → (spoken.step input).held = true) := by
  cases input with
  | callback callback =>
    cases callback with
    | pttReleased => cases h
    | pttPressed => exact ⟨rfl, fun _ => rfl⟩
    | _ => exact ⟨rfl, id⟩
  | captured frame => cases h
  | _ => exact ⟨rfl, id⟩

/-- The frame that is handed to a session. -/
def AppEffect.submittedFrame? : AppEffect → Option Bytes
  | .relay _ (.submitted command _) => command.frame?
  | _ => none

/-- The frames handed to any session, in order, accepted or not. -/
def submittedFrames (effects : List AppEffect) : List Bytes := effects.filterMap AppEffect.submittedFrame?

theorem submittedFrames_append (a b : List AppEffect) :
    submittedFrames (a ++ b) = submittedFrames a ++ submittedFrames b := List.filterMap_append

theorem submittedFrames_relay (i : Nat) (es : List Effect) : submittedFrames (es.map (.relay i)) =
    (es.filterMap Effect.submitted?).filterMap fun attempt => attempt.1.frame? := by
  rw [submittedFrames, List.filterMap_map, List.filterMap_filterMap]
  apply List.filterMap_congr
  intro e _
  cases e <;> rfl

/-! ## §2 — what the application hands to a session -/

section

variable {crates : CryptoCrates} {app app' : App} {inputs : List Input} {input : Input}
  {seen effects : List AppEffect}

/-- A step of a session other than `send_pcm_frame` submits no frame. -/
theorem Driven.silent {links links' : List Link} {i : Nat} {label : Label}
    (h : Driven crates links i label links' effects) (hlabel : ∀ frame, label ≠ .client (.sendPcmFrame frame)) :
    submittedFrames effects = [] := by
  obtain ⟨link, session, es, -, hstep, -, rfl⟩ := h
  rw [submittedFrames_relay]
  cases label with
  | worker env =>
    rw [workerStep_submits hstep]
    rfl
  | client action =>
    cases hcommand : action.command? with
    | none =>
      rw [clientStep_submits_nothing hcommand hstep]
      rfl
    | some command =>
      obtain ⟨ok, rfl⟩ := clientStep_submits hcommand hstep
      cases action with
      | sendPcmFrame frame => exact absurd rfl (hlabel frame)
      | send | sendControl | postDisconnect =>
        obtain rfl := Option.some.inj hcommand
        rfl
      | _ => cases hcommand

theorem Driven.submits {links links' : List Link} {i : Nat} {frame : Bytes}
    (h : Driven crates links i (.client (.sendPcmFrame frame)) links' effects) : submittedFrames effects = [frame] := by
  obtain ⟨link, session, es, -, hstep, -, rfl⟩ := h
  obtain ⟨ok, rfl⟩ := clientStep_submits rfl hstep
  rfl

/-- The frames that wait in the capture queue. -/
def App.waiting (app : App) : List Bytes :=
  match app.audio with
  | some audio => audio.captureFrames.queue
  | none => []

theorem App.waiting_of_audio {audio : DesktopAudio} (h : app.audio = some audio) :
    app.waiting = audio.captureFrames.queue := by
  rw [App.waiting, h]

/-- The application may hand over what waits, now or behind the answer to `PttOn`. -/
def App.Listens (app : App) : Prop := app.Talks ∨ app.pc = .requesting

/-- What holds so far: only what was said was handed over; and while the application listens, the button is held and
what waits was said too, behind what was handed over. -/
structure MicInv (app : App) (inputs : List Input) (effects : List AppEffect) : Prop where
  sent : (submittedFrames effects).Sublist (spoken inputs).frames
  held : app.Listens → (spoken inputs).held = true
  waits : app.Listens → (submittedFrames effects ++ app.waiting).Sublist (spoken inputs).frames

/-- A step that hands over no frame, brings none, and does not make the application listen. -/
theorem MicInv.keeps (hinv : MicInv app inputs seen) (hplain : input.plain = true)
    (hsilent : submittedFrames effects = []) (hwaiting : app'.waiting.Sublist app.waiting)
    (hlistens : app'.Listens → app.Listens) : MicInv app' (inputs ++ [input]) (seen ++ effects) := by
  obtain ⟨hframes, hheld⟩ := (spoken inputs).step_plain hplain
  refine ⟨?_, ?_, ?_⟩
  · rw [submittedFrames_append, hsilent, List.append_nil, spoken_concat, hframes]
    exact hinv.sent
  · rw [spoken_concat]
    exact fun h => hheld (hinv.held (hlistens h))
  · intro h
    rw [submittedFrames_append, hsilent, List.append_nil, spoken_concat, hframes]
    exact ((List.Sublist.refl _).append hwaiting).trans (hinv.waits (hlistens h))

/-- Behind a step after which the application does not listen. -/
theorem MicInv.deaf (hinv : MicInv app inputs seen) (hframes : (spoken inputs).frames.Sublist
    (spoken (inputs ++ [input])).frames) (hsilent : submittedFrames effects = []) (hdeaf : ¬ app'.Listens) :
    MicInv app' (inputs ++ [input]) (seen ++ effects) := by
  refine ⟨?_, fun h => absurd h hdeaf, fun h => absurd h hdeaf⟩
  rw [submittedFrames_append, hsilent, List.append_nil]
  exact hinv.sent.trans hframes

/-- What the microphone delivers while the application listens is said, and waits if there is room. -/
theorem MicInv.captures (hinv : MicInv app inputs seen) (frame : Bytes) :
    MicInv { app with audio := app.audio.map (·.captured frame) } (inputs ++ [.captured frame]) seen := by
  have hframes : (spoken inputs).frames.Sublist (spoken (inputs ++ [.captured frame])).frames := by
    rw [spoken_concat, Spoken.step]
    split
    · exact List.sublist_append_left _ _
    · exact List.Sublist.refl _
  refine ⟨hinv.sent.trans hframes, ?_, ?_⟩
  · intro h
    have hheld := hinv.held h
    rw [spoken_concat, Spoken.step, if_pos hheld]
    exact hheld
  · intro h
    have hheld := hinv.held h
    have hwaits := hinv.waits h
    rw [spoken_concat, Spoken.step, if_pos hheld]
    have hqueue : ({ app with audio := app.audio.map (·.captured frame) } : App).waiting.Sublist
        (app.waiting ++ [frame]) := by
      unfold App.waiting
      cases app.audio with
      | none => exact List.nil_sublist _
      | some audio => exact audio.captureFrames.post_sublist [frame]
    refine ((List.Sublist.refl _).append hqueue).trans ?_
    rw [← List.append_assoc]
    exact hwaits.append (List.Sublist.refl _)

/-- The frame taken was the oldest. -/
theorem DesktopAudio.tryNextCaptureFrame_queue {audio audio' : DesktopAudio} {frame : Bytes}
    (h : audio.tryNextCaptureFrame = some (frame, audio')) :
    audio.captureFrames.queue = frame :: audio'.captureFrames.queue := by
  unfold DesktopAudio.tryNextCaptureFrame at h
  split at h
  · rename_i htake
    obtain ⟨rfl, rfl⟩ := Prod.mk.inj (Option.some.inj h)
    exact (Channel.tryRecv_eq_some htake).1
  · cases h

/-- A frame goes from the queue to the session. -/
theorem MicInv.streams (hinv : MicInv app inputs seen) (hlistens : app.Listens) {audio audio' : DesktopAudio}
    {frame : Bytes} (haudio : app.audio = some audio) (hframe : audio.tryNextCaptureFrame = some (frame, audio'))
    (haudio' : app'.audio = some audio') (hsent : submittedFrames effects = [frame]) :
    MicInv app' (inputs ++ [.resume]) (seen ++ effects) := by
  have hsame : spoken (inputs ++ [.resume]) = spoken inputs := spoken_concat inputs .resume
  have hqueue : app.waiting = frame :: app'.waiting := by
    rw [App.waiting_of_audio haudio, App.waiting_of_audio haudio']
    exact DesktopAudio.tryNextCaptureFrame_queue hframe
  have hall : (submittedFrames (seen ++ effects) ++ app'.waiting).Sublist (spoken inputs).frames := by
    have hwaits := hinv.waits hlistens
    rwa [hqueue, ← List.singleton_append, ← List.append_assoc, ← hsent, ← submittedFrames_append] at hwaits
  refine ⟨?_, ?_, ?_⟩
  · rw [hsame]
    exact (List.sublist_append_left _ _).trans hall
  · rw [hsame]
    exact fun _ => hinv.held hlistens
  · rw [hsame]
    exact fun _ => hall

/-- The press: what waited is thrown away, and the button is held. -/
theorem MicInv.presses (hinv : MicInv app inputs seen) (hsilent : submittedFrames effects = [])
    (hempty : app'.waiting = []) : MicInv app' (inputs ++ [.callback .pttPressed]) (seen ++ effects) := by
  have hframes : (spoken (inputs ++ [.callback .pttPressed])).frames = (spoken inputs).frames := by
    rw [spoken_concat]
    rfl
  refine ⟨?_, ?_, ?_⟩
  · rw [submittedFrames_append, hsilent, List.append_nil, hframes]
    exact hinv.sent
  · intro _
    rw [spoken_concat]
    rfl
  · intro _
    rw [hempty, submittedFrames_append, hsilent, List.append_nil, List.append_nil, hframes]
    exact hinv.sent

/-- Where the thread neither talks nor waits for an answer, only the flag makes the application listen. -/
def UiPc.deaf : UiPc → Bool
  | .requesting | .streaming _ => false
  | _ => true

theorem Listens.of_flag (hptt : app'.pttActive = app.pttActive) {pc : UiPc} (hpc : app'.pc = pc)
    (hdeaf : UiPc.deaf pc = true) (h : app'.Listens) : app.Listens := by
  rcases h with (hset | ⟨rounds, hstreaming⟩) | hrequesting
  · exact Or.inl (Or.inl (hptt ▸ hset))
  · rw [← hpc, hstreaming] at hdeaf
    cases hdeaf
  · rw [← hpc, hrequesting] at hdeaf
    cases hdeaf

/-- Behind the release the application does not listen. -/
theorem not_listens_of_released (hidle : app'.pc = .idle) (hclear : app'.pttActive = false) : ¬ app'.Listens := by
  rintro ((hset | ⟨rounds, hstreaming⟩) | hrequesting)
  · rw [hclear] at hset
    cases hset
  · rw [hidle] at hstreaming
    cases hstreaming
  · rw [hidle] at hrequesting
    cases hrequesting

theorem MicInv.releases (hinv : MicInv app inputs seen) (hsilent : submittedFrames effects = [])
    (hidle : app'.pc = .idle) (hclear : app'.pttActive = false) :
    MicInv app' (inputs ++ [.callback .pttReleased]) (seen ++ effects) := by
  refine hinv.deaf ?_ hsilent (not_listens_of_released hidle hclear)
  rw [spoken_concat]
  exact List.Sublist.refl _

/-- **One step keeps the invariant.** -/
theorem MicInv.step (hinv : MicInv app inputs seen) (h : AppTurn crates app input app' effects) :
    MicInv app' (inputs ++ [input]) (seen ++ effects) := by
  have hsame : app.waiting.Sublist app.waiting := List.Sublist.refl _
  cases h with
  | shows _ hplain => exact hinv.keeps hplain rfl hsame id
  | discards => exact hinv.presses rfl rfl
  | configures _ _ _ hdriven => exact hinv.presses (hdriven.silent (by simp)) rfl
  | asksNobody hpc => exact hinv.keeps rfl rfl hsame fun _ => Or.inr hpc
  | asks hpc _ hdriven => exact hinv.keeps rfl (hdriven.silent (by simp)) hsame fun _ => Or.inr hpc
  | releasesNobody hidle => exact hinv.releases rfl hidle rfl
  | releases hidle _ hdriven => exact hinv.releases (hdriven.silent (by simp)) hidle rfl
  | saves _ hplain => exact hinv.keeps hplain rfl hsame id
  | opens => exact hinv.keeps rfl rfl hsame id
  | takes _ hplain => exact hinv.keeps hplain rfl hsame (Listens.of_flag rfl rfl rfl)
  | takesNothing _ hplain _ hpc =>
    rcases hpc with rfl | rfl <;> exact hinv.keeps hplain rfl hsame (Listens.of_flag rfl rfl rfl)
  | ticks =>
    refine hinv.keeps rfl rfl hsame ?_
    cases hflag : app.pttActive with
    | true => exact fun _ => Or.inl (Or.inl hflag)
    | false => exact Listens.of_flag hflag.symm rfl rfl
  | @closes _ _ action _ _ _ haction hdriven =>
    have hother : ∀ frame, Label.client action ≠ .client (.sendPcmFrame frame) := by
      rintro frame ⟨⟩
      cases haction
    exact hinv.keeps rfl (hdriven.silent hother) hsame id
  | closed _ _ _ hpc =>
    rcases hpc with rfl | rfl <;> exact hinv.keeps rfl rfl hsame (Listens.of_flag rfl rfl rfl)
  | streamed => exact hinv.keeps rfl rfl hsame (Listens.of_flag rfl rfl rfl)
  | @wastes rounds audio audio' frame hpc haudio hframe =>
    refine hinv.keeps rfl rfl ?_ fun _ => Or.inl (Or.inr ⟨_, hpc⟩)
    rw [App.waiting_of_audio haudio, DesktopAudio.tryNextCaptureFrame_queue hframe]
    exact List.sublist_cons_self _ _
  | streams hpc haudio hframe _ hdriven =>
    exact hinv.streams (Or.inl (Or.inr ⟨_, hpc⟩)) haudio hframe rfl hdriven.submits
  | pollsNothing => exact hinv.keeps rfl rfl hsame (Listens.of_flag rfl rfl rfl)
  | polled _ _ hdriven | stops _ _ hdriven | hears _ _ hdriven =>
    exact hinv.keeps rfl (hdriven.silent (by simp)) hsame (Listens.of_flag rfl rfl rfl)
  | mutes _ _ hdriven => exact hinv.keeps rfl (hdriven.silent (by simp)) hsame id
  | plays _ _ hdriven _ haudio =>
    refine hinv.keeps rfl ?_ ?_ id
    · rw [submittedFrames_append, hdriven.silent (by simp)]
      rfl
    · rw [App.waiting_of_audio haudio]
      exact List.Sublist.refl _
  | captures =>
    rw [List.append_nil]
    exact hinv.captures _
  | sounds =>
    refine hinv.keeps rfl rfl ?_ id
    unfold App.waiting
    cases app.audio <;> exact List.Sublist.refl _
  | works hdriven => exact hinv.keeps rfl (hdriven.silent (by simp)) hsame id
  | panics _ hplain hlinks =>
    refine hinv.keeps hplain ?_ hsame (Listens.of_flag rfl rfl rfl)
    rcases hlinks with ⟨-, rfl⟩ | ⟨i, -, hdriven⟩
    · rfl
    · exact hdriven.silent (by simp)

end

/-! ## §3 — what the sessions send -/

section Runs

variable {crates : CryptoCrates} {loaded : Core.ProfileStore × String} {audio : Bool} {inputs : List Input} {app : App}
  {effects : List AppEffect}

theorem run_mic (hrun : run (appStep crates) (App.start loaded audio) inputs = some (app, effects)) :
    MicInv app inputs effects := by
  have hdeaf : ¬ (App.start loaded audio).Listens := by
    unfold App.start
    dsimp only
    split <;> simp [App.Listens, App.Talks]
  refine run_history (R := MicInv) (fun _ _ _ _ _ _ hinv hstep => hinv.step (appStep_turn hstep)) ?_ hrun
  exact ⟨List.Sublist.refl _, fun h => absurd h hdeaf, fun h => absurd h hdeaf⟩

/-- The application asks a session for frames and for control packets that are no audio. -/
theorem run_modest (hrun : run (appStep crates) (App.start loaded audio) inputs = some (app, effects)) (i : Nat) :
    ∀ attempt ∈ attempts i effects, attempt.1.modest = true := by
  refine run_history (R := fun _ _ effects => ∀ i, ∀ attempt ∈ attempts i effects, attempt.1.modest = true) ?_
    (by simp [attempts]) hrun i
  intro app _ seen input app' effects hseen hstep i attempt hmem
  cases appStep_does hstep with
  | keeps _ _ hsilent =>
    rw [attempts_append, hsilent, List.append_nil] at hmem
    exact hseen i attempt hmem
  | opens _ _ _ _ _ hnone =>
    rw [hnone, List.append_nil] at hmem
    exact hseen i attempt hmem
  | submits _ heffects _ hkind =>
    rw [heffects, attempts_concat] at hmem
    split at hmem
    · rcases List.mem_append.mp hmem with hold | hnew
      · exact hseen i attempt hold
      · rw [List.mem_singleton.mp hnew]
        cases hkind <;> rfl
    · exact hseen i attempt hmem

/-- What a session accepted was handed to it. -/
theorem acceptedFrames_relayed (i : Nat) (effects : List AppEffect) :
    (acceptedFrames (relayed i effects)).Sublist (submittedFrames effects) := by
  rw [acceptedFrames, relayed, List.filterMap_filterMap, List.filterMap_filterMap, submittedFrames]
  refine filterMap_sublist ?_ effects
  intro effect frame h
  cases effect with
  | playback => cases h
  | relay j e =>
    simp only [AppEffect.relay?] at h
    split at h
    · cases e with
      | submitted command ok =>
        cases ok with
        | true => exact h
        | false => cases h
      | _ => cases h
    · cases h

/-- Every command a session took is one the application asked it for. -/
theorem taken_modest (hrun : run (appStep crates) (App.start loaded audio) inputs = some (app, effects)) {i : Nat}
    {link : Link} (hlink : app.links[i]? = some link) :
    ∀ command ∈ (relayed i effects).filterMap Effect.took?, command.modest = true := by
  obtain ⟨localAddr, random, labels, hsession, -⟩ := app_run_session hrun hlink
  have hfifo : [] ++ (relayed i effects).filterMap Effect.accepted? =
      (relayed i effects).filterMap Effect.took? ++ link.session.commands.queue := run_fifo hsession
  intro command htook
  have haccepted : command ∈ (relayed i effects).filterMap Effect.accepted? := by
    rw [← List.nil_append (List.filterMap _ _), hfifo]
    exact List.mem_append_left _ htook
  obtain ⟨e, he, heq⟩ := List.mem_filterMap.mp haccepted
  refine run_modest hrun i (command, true) ?_
  rw [attempts_eq_relayed]
  refine List.mem_filterMap.mpr ⟨e, he, ?_⟩
  cases e with
  | submitted submitted ok =>
    cases ok with
    | true =>
      obtain rfl := Option.some.inj heq
      rfl
    | false => cases heq
  | _ => cases heq

/-- What a worker takes was said. -/
theorem taken_spoken (hrun : run (appStep crates) (App.start loaded audio) inputs = some (app, effects)) {i : Nat}
    {link : Link} (hlink : app.links[i]? = some link) :
    (takenFrames (relayed i effects)).Sublist (spoken inputs).frames := by
  obtain ⟨localAddr, random, labels, hsession, -⟩ := app_run_session hrun hlink
  exact ((run_taken hsession).trans (acceptedFrames_relayed i effects)).trans (run_mic hrun).sent

/-- What a session sends spells what was said, in its name. -/
theorem spelled_spoken (haead : AeadLaws crates)
    (hrun : run (appStep crates) (App.start loaded audio) inputs = some (app, effects)) {i : Nat} {link : Link}
    (hlink : app.links[i]? = some link) :
    (spelled crates (mediaKey crates link.config) (relayed i effects)).Sublist
      ((spoken inputs).frames.map fun frame => (link.config.senderId, frame)) := by
  obtain ⟨localAddr, random, labels, hsession, -⟩ := app_run_session hrun hlink
  rw [run_spells haead (Reads.own crates link.config) hsession (taken_modest hrun hlink), voiced]
  exact (List.filter_sublist.trans (taken_spoken hrun hlink)).map _

/-- **Nothing leaves the microphone but what is said while the button is held.** In any run of the application, also
when sessions are opened and closed with the flag set: the frames handed to sessions, the frames each worker takes,
and what the datagrams of each session spell to anyone with its key, are selections of the frames captured between a
press and the next release, in order, none twice. -/
theorem speaks_only_while_held (haead : AeadLaws crates)
    (hrun : run (appStep crates) (App.start loaded audio) inputs = some (app, effects)) :
    (submittedFrames effects).Sublist (spoken inputs).frames ∧
    ∀ i link, app.links[i]? = some link →
      (takenFrames (relayed i effects)).Sublist (spoken inputs).frames ∧
      (spelled crates (mediaKey crates link.config) (relayed i effects)).Sublist
        ((spoken inputs).frames.map fun frame => (link.config.senderId, frame)) :=
  ⟨(run_mic hrun).sent, fun _ _ hlink => ⟨taken_spoken hrun hlink, spelled_spoken haead hrun hlink⟩⟩

/-- A frame before the press, one while the button is held, and one behind the release. -/
def heldInputs : List Input :=
  [connects, .captured (List.replicate 320 1), .callback .pttPressed, .resume, .captured (List.replicate 320 2),
    .callback .tick, .resume, .resume, .resume, .callback .pttReleased, .captured (List.replicate 320 3),
    .callback .tick]

/-- Of the three frames the middle one was said. -/
theorem speaks_only_while_held_once : ∃ app effects,
    run (appStep tagCrates) (App.start (pcmStore, "Profile restored") true) heldInputs = some (app, effects) ∧
    submittedFrames effects = [List.replicate 320 2] ∧
    (submittedFrames effects).Sublist [List.replicate 320 2] := by
  have hview : (run (appStep tagCrates) (App.start (pcmStore, "Profile restored") true) heldInputs).map
      (fun r => submittedFrames r.2) = some [List.replicate 320 2] := by decide +kernel
  obtain ⟨⟨app, effects⟩, hrun, hsubmitted⟩ := Option.map_eq_some_iff.mp hview
  have hspoken : (spoken heldInputs).frames = [List.replicate 320 2] := rfl
  exact ⟨app, effects, hrun, hsubmitted, hspoken ▸ (speaks_only_while_held tagCrates_aead hrun).1⟩

end Runs

end IncomUdon.Desktop
