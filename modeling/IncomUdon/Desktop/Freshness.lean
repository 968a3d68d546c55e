/-
# IncomUdon.Desktop.Freshness — which speech waits when a queue is full.

Two queues of the audio path are channels: the one between the microphone and the timer, and the event channel
between the worker and the timer. Both producers use `try_send` and ignore its answer, so a full channel keeps the
oldest elements, where stale ones should be discarded. §1 compares the capture channel with a queue that drops the
oldest, over any interleaving of microphone and application; §2 does the same for the received frames in the event
channel. Both agree for as long as nothing is offered to a full channel, and disagree the first time something is.
-/
import IncomUdon.Desktop.Audio
import IncomUdon.Lib.DropOldest
import IncomUdon.Transport.Hearing

namespace IncomUdon.Desktop

open IncomUdon.Lib
open IncomUdon.Protocol
open IncomUdon.Crypto
open IncomUdon.Transport

/-! ## §1 — the capture channel -/

/-- One call of the input callback: a `try_send` for every frame that `push_interleaved_f32` returns. -/
def DesktopAudio.inputCallback (audio : DesktopAudio) (frames : List Bytes) : DesktopAudio :=
  frames.foldl DesktopAudio.captured audio

/-- A callback of many frames that is interrupted is several, and a discard that is interrupted is as many calls of
`try_next_capture_frame`. -/
inductive CaptureOp where
  | inputCallback (frames : List Bytes)
  | tryNextCaptureFrame
  | discardCaptureFrames
  deriving DecidableEq, Repr

/-- One step of microphone or application, with the frames that leave the channel. -/
def captureStep (audio : DesktopAudio) : CaptureOp → Option (DesktopAudio × List Bytes)
  | .inputCallback frames => some (audio.inputCallback frames, [])
  | .tryNextCaptureFrame =>
    match audio.tryNextCaptureFrame with
    | some (frame, audio) => some (audio, [frame])
    | none => some (audio, [])
  | .discardCaptureFrames => some (audio.discardCaptureFrames, audio.captureFrames.queue)

/-- **What is wanted**: the same operations on a queue that makes room by dropping what waits longest. -/
def freshestOperations (ledger : Ledger Bytes) : CaptureOp → List (Ledger.Operation Bytes)
  | .inputCallback frames => [.put frames]
  | .tryNextCaptureFrame => [.take]
  | .discardCaptureFrames => List.replicate ledger.waiting.length .take

/-- The queue that is wanted, behind these operations. -/
def freshest (ops : List CaptureOp) : Ledger Bytes :=
  ops.foldl (fun ledger op => (freshestOperations ledger op).foldl (Ledger.apply captureQueueCapacity) ledger)
    Ledger.empty

/-- The channel has room for what the microphone delivers. -/
def CapturesWithRoom (audio : DesktopAudio) (op : CaptureOp) : Prop :=
  ∀ frames, op = .inputCallback frames →
    audio.captureFrames.queue.length + frames.length ≤ audio.captureFrames.capacity

/-- The most recent frames of the stream wait, and what left it came before them. -/
theorem freshest_sound (ops : List CaptureOp) : (freshest ops).Sound captureQueueCapacity := by
  suffices h : ∀ ledger : Ledger Bytes, ledger.Sound captureQueueCapacity →
      (ops.foldl (fun ledger op => (freshestOperations ledger op).foldl (Ledger.apply captureQueueCapacity) ledger)
        ledger).Sound captureQueueCapacity from h _ (Ledger.empty_sound _)
  induction ops with
  | nil => exact fun _ h => h
  | cons op rest ih => exact fun ledger h => ih _ (Ledger.applyAll_sound h _)

theorem DesktopAudio.inputCallback_captureFrames (audio : DesktopAudio) (frames : List Bytes) :
    (audio.inputCallback frames).captureFrames = audio.captureFrames.post frames := by
  induction frames generalizing audio with
  | nil => rfl
  | cons frame rest ih =>
    show ((audio.captured frame).inputCallback rest).captureFrames = _
    rw [ih]
    rfl

/-- Code and reference after the same operations: the same frames wait, and the same have left. -/
structure Agrees (audio : DesktopAudio) (ops : List CaptureOp) (gone : List Bytes) : Prop where
  capacity : audio.captureFrames.capacity = captureQueueCapacity
  waiting : audio.captureFrames.queue = (freshest ops).waiting
  taken : gone = (freshest ops).taken

theorem freshest_concat (ops : List CaptureOp) (op : CaptureOp) : freshest (ops ++ [op]) =
    (freshestOperations (freshest ops) op).foldl (Ledger.apply captureQueueCapacity) (freshest ops) := by
  rw [freshest, List.foldl_append]
  rfl

theorem Agrees.step {audio audio' : DesktopAudio} {ops : List CaptureOp} {op : CaptureOp} {gone left : List Bytes}
    (h : Agrees audio ops gone) (hroom : CapturesWithRoom audio op)
    (hstep : captureStep audio op = some (audio', left)) : Agrees audio' (ops ++ [op]) (gone ++ left) := by
  obtain ⟨hcapacity, hwaiting, htaken⟩ := h
  cases op with
  | inputCallback frames =>
    obtain ⟨rfl, rfl⟩ := Prod.mk.inj (Option.some.inj hstep)
    have hfits := hroom frames rfl
    refine ⟨?_, ?_, ?_⟩
    · rw [audio.inputCallback_captureFrames, (Channel.post_queue _ _).2, hcapacity]
    · -- everything gets in here, and nothing has to go there
      rw [audio.inputCallback_captureFrames, Channel.post_of_le hfits, freshest_concat, hwaiting]
      show _ = keepNewest captureQueueCapacity ((freshest ops).waiting ++ frames)
      rw [keepNewest_of_le]
      rw [List.length_append, ← hwaiting, ← hcapacity]
      exact hfits
    · rw [freshest_concat, List.append_nil, htaken]
      rfl
  | tryNextCaptureFrame =>
    have htake : freshest (ops ++ [.tryNextCaptureFrame]) = (freshest ops).take := freshest_concat _ _
    cases hnext : audio.captureFrames.tryRecv with
    | none =>
      -- nothing waits on either side
      have hempty : (freshest ops).waiting = [] := by rw [← hwaiting, Channel.tryRecv_eq_none.mp hnext]
      simp only [captureStep, DesktopAudio.tryNextCaptureFrame, hnext, Option.some.injEq, Prod.mk.injEq] at hstep
      obtain ⟨rfl, rfl⟩ := hstep
      refine ⟨hcapacity, ?_, ?_⟩
      · rw [htake, hwaiting, Ledger.take, hempty]
        rfl
      · rw [htake, htaken, Ledger.take, hempty]
        rfl
    | some next =>
      obtain ⟨frame, rest⟩ := next
      obtain ⟨hqueue, hsame⟩ := Channel.tryRecv_eq_some hnext
      have hfront : (freshest ops).waiting = frame :: rest.queue := by rw [← hwaiting, hqueue]
      simp only [captureStep, DesktopAudio.tryNextCaptureFrame, hnext, Option.some.injEq, Prod.mk.injEq] at hstep
      obtain ⟨rfl, rfl⟩ := hstep
      refine ⟨hsame.trans hcapacity, ?_, ?_⟩
      · rw [htake, Ledger.take, hfront]
        rfl
      · rw [htake, htaken, Ledger.take, hfront]
        rfl
  | discardCaptureFrames =>
    obtain ⟨rfl, rfl⟩ := Prod.mk.inj (Option.some.inj hstep)
    have hall : freshest (ops ++ [.discardCaptureFrames]) =
        { freshest ops with taken := (freshest ops).taken ++ (freshest ops).waiting, waiting := [] } := by
      rw [freshest_concat]
      exact Ledger.take_waiting _
    refine ⟨hcapacity, ?_, ?_⟩
    · rw [hall]
      rfl
    · rw [hall, htaken, hwaiting]

/-- **While there is room, the capture channel keeps the freshest frames.** -/
theorem capture_agrees {ops : List CaptureOp} {audio : DesktopAudio} {gone : List Bytes}
    (hrun : run captureStep DesktopAudio.opened ops = some (audio, gone))
    (halong : Along captureStep CapturesWithRoom DesktopAudio.opened ops) : Agrees audio ops gone :=
  run_history_along (R := Agrees) (fun _ _ _ _ _ _ h hroom hstep => h.step hroom hstep) ops [] [] _ audio gone
    ⟨rfl, rfl, rfl⟩ halong hrun

/-- **Exactly while there is room**, where the frames can be told apart. -/
theorem inputCallback_newest_iff (audio : DesktopAudio) (frames : List Bytes)
    (hcapacity : 0 < audio.captureFrames.capacity) (hdistinct : (audio.captureFrames.queue ++ frames).Nodup) :
    (audio.inputCallback frames).captureFrames.queue =
        keepNewest audio.captureFrames.capacity (audio.captureFrames.queue ++ frames) ↔
      CapturesWithRoom audio (.inputCallback frames) := by
  rw [audio.inputCallback_captureFrames, (Channel.post_queue _ _).1, take_eq_keepNewest_iff hcapacity hdistinct,
    List.length_append]
  constructor
  · intro hfits frames' heq
    obtain rfl := CaptureOp.inputCallback.inj heq
    exact hfits
  · intro hroom
    exact hroom frames rfl

/-- Microphone and application leave the capacity alone, room or not. -/
theorem captureStep_capacity {audio audio' : DesktopAudio} {op : CaptureOp} {left : List Bytes}
    (h : captureStep audio op = some (audio', left)) :
    audio'.captureFrames.capacity = audio.captureFrames.capacity := by
  cases op with
  | inputCallback frames =>
    obtain ⟨rfl, rfl⟩ := Prod.mk.inj (Option.some.inj h)
    rw [audio.inputCallback_captureFrames, (Channel.post_queue _ _).2]
  | tryNextCaptureFrame =>
    cases hnext : audio.captureFrames.tryRecv with
    | none =>
      simp only [captureStep, DesktopAudio.tryNextCaptureFrame, hnext, Option.some.injEq, Prod.mk.injEq] at h
      rw [← h.1]
    | some next =>
      simp only [captureStep, DesktopAudio.tryNextCaptureFrame, hnext, Option.some.injEq, Prod.mk.injEq] at h
      rw [← h.1]
      exact (Channel.tryRecv_eq_some hnext).2
  | discardCaptureFrames =>
    obtain ⟨rfl, rfl⟩ := Prod.mk.inj (Option.some.inj h)
    rfl

theorem run_capacity {ops : List CaptureOp} {audio : DesktopAudio} {gone : List Bytes}
    (hrun : run captureStep DesktopAudio.opened ops = some (audio, gone)) :
    audio.captureFrames.capacity = captureQueueCapacity :=
  run_history (R := fun audio _ _ => audio.captureFrames.capacity = captureQueueCapacity)
    (fun _ _ _ _ _ _ h hstep => (captureStep_capacity hstep).trans h) rfl hrun

/-! ## §2 — both queues -/

/-- **Audio queues keep the freshest speech while they have room.** Let microphone and application, and a session,
have run in any interleaving. Where the capture channel always had room for what the microphone delivered, the frames
that wait are those of a queue that drops the oldest, and so have been those that left it: the end of the stream, at
most 8, in order. Where the event channel always had room for a frame received, the frames offered are those told and
then those that wait, in order. And room is the exact condition for the next step: of frames that can be told apart
the newest are kept exactly where there is room for all, and a received frame unlike those that wait is kept exactly
where there is room for it. -/
theorem freshest_audio_waits {ops : List CaptureOp} {audio : DesktopAudio} {gone : List Bytes} {crates : CryptoCrates}
    {config : RelayConfig} {localAddr : SocketAddr} {random : UInt64} {labels : List Label} {s : Session}
    {effects : List Effect} (hcapture : run captureStep DesktopAudio.opened ops = some (audio, gone))
    (hsession : run (step crates config) (Session.start crates config localAddr random) labels = some (s, effects)) :
    (Along captureStep CapturesWithRoom DesktopAudio.opened ops →
      audio.captureFrames.queue = (freshest ops).waiting ∧ gone = (freshest ops).taken ∧
        (freshest ops).Sound captureQueueCapacity) ∧
    (∀ frames, (audio.captureFrames.queue ++ frames).Nodup →
      ((audio.inputCallback frames).captureFrames.queue =
          keepNewest captureQueueCapacity (audio.captureFrames.queue ++ frames) ↔
        CapturesWithRoom audio (.inputCallback frames))) ∧
    (Along (step crates config) (HearsWithRoom crates) (Session.start crates config localAddr random) labels →
      effects.filterMap Effect.offered? = effects.filterMap Effect.told? ++ s.heard) ∧
    (∀ label s' es, step crates config s label = some (s', es) → HearsWithRoom crates s label →
      KeepsFreshest s s' es) ∧
    (∀ env heard s' es, step crates config s (.worker env) = some (s', es) → Hears crates s env heard →
      heard ∉ s.heard → (KeepsFreshest s s' es ↔ s.events.queue.length < s.events.capacity)) := by
  have hcapacity := run_capacity hcapture
  refine ⟨?_, ?_, fun halong => run_heard hsession halong, ?_, ?_⟩
  · intro halong
    have hagrees := capture_agrees hcapture halong
    exact ⟨hagrees.waiting, hagrees.taken, freshest_sound ops⟩
  · intro frames hdistinct
    rw [← hcapacity]
    exact inputCallback_newest_iff audio frames (by rw [hcapacity]; decide) hdistinct
  · exact fun _ _ _ hstep hroom => step_keepsFreshest hroom hstep
  · exact fun _ _ _ _ hstep hhears hnew => keepsFreshest_iff hhears hnew hstep

/-- A frame of 160 samples with one value. -/
def toneFrame (x : UInt8) : Bytes := List.replicate 320 x

/-- Two frames are captured and one is taken; a session in a fresh run hears a frame. -/
theorem freshest_audio_waits_two : ∃ audio gone s effects,
    run captureStep DesktopAudio.opened [.inputCallback [toneFrame 0, toneFrame 1], .tryNextCaptureFrame] =
      some (audio, gone) ∧
    audio.captureFrames.queue = [toneFrame 1] ∧ gone = [toneFrame 0] ∧
    hearing sealedDatagram = some (s, effects) ∧
    effects.filterMap Effect.offered? = effects.filterMap Effect.told? ++ s.heard ∧
    s.heard = [(1002, toneFrame 0)] := by
  obtain ⟨⟨audio, gone⟩, hcapture⟩ : ∃ r, run captureStep DesktopAudio.opened
      [.inputCallback [toneFrame 0, toneFrame 1], .tryNextCaptureFrame] = some r := ⟨_, rfl⟩
  have hcaptureRoom : Along captureStep CapturesWithRoom DesktopAudio.opened
      [.inputCallback [toneFrame 0, toneFrame 1], .tryNextCaptureFrame] := by
    refine ⟨?_, fun _ _ _ => ⟨fun _ heq => (nomatch heq), fun _ _ _ => trivial⟩⟩
    intro frames heq
    obtain rfl := CaptureOp.inputCallback.inj heq
    decide
  -- the ticks read nothing, and the datagram finds room
  have hview : (run (step tagCrates (station .aesGcmV2)) (Session.start tagCrates (station .aesGcmV2) stationAddr 0)
      (List.replicate 7 tick)).map (fun r => decide (r.1.events.queue.length < r.1.events.capacity)) = some true := by
    decide +kernel
  obtain ⟨⟨t, seen⟩, hticks, hlt⟩ := Option.map_eq_some_iff.mp hview
  have hheard : (hearing sealedDatagram).map (fun r => r.1.heard) = some [(1002, toneFrame 0)] := by decide +kernel
  obtain ⟨⟨s, effects⟩, hsession, hwaits⟩ := Option.map_eq_some_iff.mp hheard
  have hsessionRoom : Along (step tagCrates (station .aesGcmV2)) (HearsWithRoom tagCrates)
      (Session.start tagCrates (station .aesGcmV2) stationAddr 0) (hears sealedDatagram) := by
    apply along_append hticks
    · apply along_of_forall
      intro label hlabel r env heard heq hhears
      obtain ⟨-, datagram, packet, hrecv, -⟩ := hhears
      rw [heq] at hlabel
      obtain rfl := Label.worker.inj (List.eq_of_mem_replicate hlabel)
      cases hrecv
    · exact ⟨fun _ _ _ _ => of_decide_eq_true hlt, fun _ _ _ => trivial⟩
  obtain ⟨hcaptured, -, hreceived, -⟩ := freshest_audio_waits hcapture hsession
  obtain ⟨hwaiting, htaken, -⟩ := hcaptured hcaptureRoom
  exact ⟨audio, gone, s, effects, hcapture, hwaiting.trans (by decide +kernel), htaken.trans (by decide +kernel),
    hsession, hreceived hsessionRoom, hwaits⟩

/-- Nine frames, and nobody takes one. -/
def nineFrames : List CaptureOp := [.inputCallback ([0, 1, 2, 3, 4, 5, 6, 7, 8].map toneFrame)]

/-- One frame of sender 9, without encryption. -/
def toneDatagram (x : UInt8) : Bytes := plainHeader.encode ++ ([0, 0] ++ toneFrame x)

/-- A worker that hears 126 frames, and is about to hear another, while the client asks for no event. -/
def flood : List Label :=
  [tick, tick] ++ (List.replicate 126 (List.replicate 5 tick ++ [.worker ⟨.ok (), 0, .ok (toneDatagram 0)⟩])).flatten ++
    List.replicate 5 tick

/-- **Full queues keep stale audio.** The ninth frame of the microphone is lost, not the first; and so is the frame a
worker receives behind 128 events. -/
theorem full_queues_keep_stale_audio :
    (∃ audio gone, run captureStep DesktopAudio.opened nineFrames = some (audio, gone) ∧
      audio.captureFrames.queue ≠ (freshest nineFrames).waiting) ∧
    ∃ s effects s' es env, run (step tagCrates (station .none))
        (Session.start tagCrates (station .none) stationAddr 0) flood = some (s, effects) ∧
      step tagCrates (station .none) s (.worker env) = some (s', es) ∧
      es.filterMap Effect.offered? = [(9, toneFrame 1)] ∧ ¬ KeepsFreshest s s' es := by
  constructor
  · have hview : (run captureStep DesktopAudio.opened nineFrames).map
        (fun r => decide (r.1.captureFrames.queue = (freshest nineFrames).waiting)) = some false := by decide +kernel
    obtain ⟨⟨audio, gone⟩, hrun, hne⟩ := Option.map_eq_some_iff.mp hview
    exact ⟨audio, gone, hrun, of_decide_eq_false hne⟩
  · let last : Env := ⟨.ok (), 0, .ok (toneDatagram 1)⟩
    have hview : ((run (step tagCrates (station .none)) (Session.start tagCrates (station .none) stationAddr 0)
        flood).bind fun r => (step tagCrates (station .none) r.1 (.worker last)).map fun q =>
          (q.2.filterMap Effect.offered?, decide ((9, toneFrame 1) ∈ q.1.heard))) =
        some ([(9, toneFrame 1)], false) := by decide +kernel
    obtain ⟨⟨s, effects⟩, hrun, hview⟩ := Option.bind_eq_some_iff.mp hview
    obtain ⟨⟨s', es⟩, hstep, hview⟩ := Option.map_eq_some_iff.mp hview
    obtain ⟨hoffered, hlost⟩ := Prod.mk.inj hview
    refine ⟨s, effects, s', es, last, hrun, hstep, hoffered, ?_⟩
    rintro ⟨k, hkept⟩
    apply of_decide_eq_false hlost
    rw [show s'.heard = _ from hkept, show es.filterMap Effect.offered? = _ from hoffered]
    exact List.mem_append_right _ (List.mem_singleton_self _)

end IncomUdon.Desktop
