/-
# IncomUdon.Desktop.Output — the speaker callback, and the rate at which both resamplers run.

A translation of the closure in `output_stream`. For every device frame it advances a phase; where the phase reaches
the output rate it asks the playback buffer for the next sample, and it fills the device frame with the current
one. Samples of the device and of the mixer are floating-point values and parameters here (`toFloat`, `silence`,
`fromSample`).

The phase is that of the microphone side. §2 says at which device rates the two keep real time: not below 8 kHz,
where one sample a device frame is not enough, and not at most rates within 8000 of `2^32`, where the phase
saturates.
-/
import IncomUdon.Audio.Capture
import IncomUdon.Desktop.Audio

namespace IncomUdon.Desktop

open IncomUdon.Lib
open IncomUdon.Lib.Outcome (ok_bind)
open IncomUdon.Audio

/-! ## The callback -/

/-- What the closure keeps from one callback to the next. -/
structure OutputStream (F : Type) where
  channels : Nat
  outputRate : UInt32
  phase : UInt32
  currentSample : F
  deriving Repr

/-- What a callback leaves behind: the device buffer, what each `pop_sample` returned, and the closure. -/
structure Played (F T : Type) where
  data : List T
  requests : List (Option Int16)
  stream : OutputStream F

namespace OutputStream

/-- The closure as `output_stream` makes it. -/
def new {F : Type} (silence : F) (channels : Nat) (outputRate : UInt32) : OutputStream F where
  channels := channels
  outputRate := outputRate
  phase := 0
  currentSample := silence

section

variable {F T : Type} (toFloat : Int16 → F) (silence : F) (fromSample : F → T)

/-- The body of the `for` loop. -/
def playDeviceFrame (stream : OutputStream F) (playback : PlaybackBuffer) : Played F T × PlaybackBuffer :=
  let phase := saturatingAdd stream.phase pcmSampleRate
  if phase ≥ stream.outputRate then
    let phase := phase - stream.outputRate
    let currentSample := (playback.popSample.1.map toFloat).getD silence
    (⟨List.replicate stream.channels (fromSample currentSample), [playback.popSample.1],
      { stream with phase, currentSample }⟩, playback.popSample.2)
  else (⟨List.replicate stream.channels (fromSample stream.currentSample), [], { stream with phase }⟩, playback)

/-- The loop over `n` device frames. -/
def playDeviceFrames (stream : OutputStream F) (playback : PlaybackBuffer) : Nat → Played F T × PlaybackBuffer
  | 0 => (⟨[], [], stream⟩, playback)
  | n + 1 =>
    let first := playDeviceFrame toFloat silence fromSample stream playback
    let later := playDeviceFrames first.1.stream first.2 n
    (⟨first.1.data ++ later.1.data, first.1.requests ++ later.1.requests, later.1.stream⟩, later.2)

/-- The closure on a device buffer; `none` is a poisoned lock. `chunks_exact_mut` panics on chunks of no sample and
leaves a remainder as it is. -/
def callback (stream : OutputStream F) (playback : Option PlaybackBuffer) (data : List T) :
    Outcome Empty (Played F T × Option PlaybackBuffer) :=
  match playback with
  | none => .ok (⟨data.map fun _ => fromSample silence, [], stream⟩, none)
  | some playback =>
    if stream.channels = 0 then .panicked
    else
      let n := data.length / stream.channels
      let played := playDeviceFrames toFloat silence fromSample stream playback n
      .ok ({ played.1 with data := played.1.data ++ data.drop (n * stream.channels) }, some played.2)

/-- Successive callbacks, each with the playback buffer it finds: what `pop_sample` returned in all of them, and the
closure behind them. -/
def callbacks (stream : OutputStream F) : List (Option PlaybackBuffer × List T) →
    Outcome Empty (List (Option Int16) × OutputStream F)
  | [] => .ok ([], stream)
  | (playback, data) :: rest => do
    let first ← callback toFloat silence fromSample stream playback data
    let later ← callbacks first.1.stream rest
    return (first.1.requests ++ later.1, later.2)

/-- The device frames played: a callback that does not get the lock plays none. -/
def deviceFrames (channels : Nat) (calls : List (Option PlaybackBuffer × List T)) : Nat :=
  (calls.map fun call => if call.1.isSome then call.2.length / channels else 0).sum

@[simp] theorem deviceFrames_none (channels : Nat) (data : List T) (rest : List (Option PlaybackBuffer × List T)) :
    deviceFrames channels ((none, data) :: rest) = deviceFrames channels rest := by
  rw [deviceFrames, List.map_cons, List.sum_cons]
  exact Nat.zero_add _

@[simp] theorem deviceFrames_some (channels : Nat) (playback : PlaybackBuffer) (data : List T)
    (rest : List (Option PlaybackBuffer × List T)) :
    deviceFrames channels ((some playback, data) :: rest) = data.length / channels + deviceFrames channels rest := by
  rw [deviceFrames, List.map_cons, List.sum_cons]
  rfl

/-! ## §1 — requests -/

/-- The closure is behind `k` device frames. -/
structure AtTick (rate : UInt32) (channels k : Nat) (stream : OutputStream F) : Prop where
  sameRate : stream.outputRate = rate
  sameChannels : stream.channels = channels
  phase : stream.phase.toNat = Phase.phaseAt 8000 rate.toNat phaseTop k

variable {rate : UInt32} {channels k : Nat} {stream : OutputStream F}

/-- **One device frame** is one tick: where it fires, a sample is requested. -/
theorem playDeviceFrame_spec (h : AtTick rate channels k stream) (playback : PlaybackBuffer) :
    ∃ played playback', playDeviceFrame toFloat silence fromSample stream playback = (played, playback') ∧
      AtTick rate channels (k + 1) played.stream ∧
      played.requests.length = (Phase.firesAt 8000 rate.toNat phaseTop k).toNat := by
  obtain ⟨hrate, hchannels, hphase⟩ := h
  rw [Phase.firesAt, ← hphase]
  by_cases hquiet : saturatingAdd stream.phase pcmSampleRate < rate
  · obtain ⟨hfires, hnext⟩ := tick_quiet hquiet
    rw [hphase] at hnext
    rw [hfires]
    refine ⟨_, _, if_neg ?_, ⟨hrate, hchannels, hnext.symm⟩, rfl⟩
    rw [hrate]
    exact UInt32.not_le.mpr hquiet
  · obtain ⟨hfires, hnext⟩ := tick_fires hquiet
    rw [hphase] at hnext
    rw [hfires]
    refine ⟨_, _, if_pos ?_, ⟨hrate, hchannels, ?_⟩, rfl⟩
    · rw [hrate]
      exact UInt32.not_lt.mp hquiet
    · rw [hrate]
      exact hnext.symm

/-- The loop behind `k` device frames requests what the ticks from `k` on fire. -/
theorem playDeviceFrames_spec (n : Nat) (h : AtTick rate channels k stream) (playback : PlaybackBuffer) :
    ∃ played playback', playDeviceFrames toFloat silence fromSample stream playback n = (played, playback') ∧
      AtTick rate channels (k + n) played.stream ∧
      Phase.fired 8000 rate.toNat phaseTop k + played.requests.length =
        Phase.fired 8000 rate.toNat phaseTop (k + n) := by
  induction n generalizing k stream playback with
  | zero => exact ⟨_, _, rfl, h, rfl⟩
  | succ n ih =>
    obtain ⟨first, playback₁, hfirst, hnext, hone⟩ := playDeviceFrame_spec toFloat silence fromSample h playback
    obtain ⟨later, playback₂, hlater, hlast, hcount⟩ := ih hnext playback₁
    have hplayed : playDeviceFrames toFloat silence fromSample stream playback (n + 1) =
        (⟨first.data ++ later.data, first.requests ++ later.requests, later.stream⟩, playback₂) := by
      simp only [playDeviceFrames, hfirst, hlater]
    rw [show k + (n + 1) = k + 1 + n by omega]
    refine ⟨_, _, hplayed, hlast, ?_⟩
    rw [← hcount, Phase.fired, List.length_append, hone, Nat.add_assoc]

/-- **Successive callbacks** request what the ticks of their device frames fire. -/
theorem callbacks_spec (hchannels : 0 < channels) (calls : List (Option PlaybackBuffer × List T))
    (h : AtTick rate channels k stream) :
    ∃ requests stream', callbacks toFloat silence fromSample stream calls = .ok (requests, stream') ∧
      Phase.fired 8000 rate.toNat phaseTop k + requests.length =
        Phase.fired 8000 rate.toNat phaseTop (k + deviceFrames channels calls) := by
  induction calls generalizing k stream with
  | nil => exact ⟨[], stream, rfl, rfl⟩
  | cons call rest ih =>
    obtain ⟨playback, data⟩ := call
    cases playback with
    | none =>
      -- a poisoned lock plays silence and leaves the closure alone
      obtain ⟨requests, stream', hrest, hcount⟩ := ih h
      refine ⟨requests, stream', ?_, ?_⟩
      · rw [callbacks, callback, ok_bind, hrest]
        rfl
      · rw [hcount, deviceFrames_none]
    | some playback =>
      obtain ⟨played, playback', hplayed, hnext, hfirst⟩ :=
        playDeviceFrames_spec toFloat silence fromSample (data.length / channels) h playback
      obtain ⟨requests, stream', hrest, hcount⟩ := ih hnext
      refine ⟨played.requests ++ requests, stream', ?_, ?_⟩
      · have hsome : stream.channels ≠ 0 := by
          rw [h.sameChannels]
          omega
        rw [← h.sameChannels] at hplayed
        simp only [callbacks, callback, if_neg hsome, hplayed, ok_bind, hrest, Outcome.pure_eq_ok]
      · rw [List.length_append, ← Nat.add_assoc, hfirst, hcount, deviceFrames_some, Nat.add_assoc]

end

end OutputStream

/-! ## §2 — real time -/

open CaptureFrameAssembler (pushAll_count new_eq)
open OutputStream (callbacks callbacks_spec)

/-- The device rates at which a phase keeps time: one sample a device frame is enough, and the largest phase below
the rate has room for an increment in 32 bits. -/
def KeepsTime (rate : UInt32) : Prop :=
  8000 ≤ rate.toNat ∧ rate.toNat + 8000 < 2 ^ 32 + Nat.gcd 8000 rate.toNat

instance (rate : UInt32) : Decidable (KeepsTime rate) := inferInstanceAs (Decidable (_ ∧ _))

section

variable {F T : Type} (toSample : List F → Int16) (toFloat : Int16 → F) (silence : F) (fromSample : F → T)
  (rate : UInt32) (channels : Nat)

/-- Behind `n` device frames of capture, in any calls, `8000 * n / rate` samples have been emitted in frames of
160. -/
def CaptureRateLaw : Prop :=
  ∀ fresh, CaptureFrameAssembler.new rate channels = .ok fresh → ∀ pieces, ∃ frames assembler,
    fresh.pushAll toSample pieces = .ok (frames, assembler) ∧
    frames.length = 8000 * CaptureFrameAssembler.deviceFrames channels pieces / rate.toNat / 160

/-- Behind `n` device frames of playback, `8000 * n / rate` samples have been requested. -/
def PlaybackRateLaw : Prop :=
  ∀ calls, ∃ requests stream,
    callbacks toFloat silence fromSample (OutputStream.new silence channels rate) calls = .ok (requests, stream) ∧
    requests.length = 8000 * OutputStream.deviceFrames channels calls / rate.toNat

variable {rate channels}

/-- The accumulator's law at a 32-bit rate. -/
theorem fired_law_iff_keepsTime (batch : Nat) (hbatch : 0 < batch) (hrate : 0 < rate) :
    (∀ n, Phase.fired 8000 rate.toNat phaseTop n / batch = 8000 * n / rate.toNat / batch) ↔ KeepsTime rate := by
  have hfits : rate.toNat ≤ phaseTop := Nat.le_of_lt_succ rate.toNat_lt
  rw [Phase.fired_law_iff hbatch (by decide) (UInt32.lt_iff_toNat_lt.mp hrate) hfits, KeepsTime, phaseTop]
  omega

theorem captureRateLaw_iff (hrate : 0 < rate) (hchannels : 0 < channels) (sample : F) :
    CaptureRateLaw toSample rate channels ↔ KeepsTime rate := by
  obtain ⟨fresh, hnew, hfreshRate, hfreshChannels, hphase, hframe⟩ := new_eq rate channels hrate hchannels
  rw [← fired_law_iff_keepsTime 160 (by decide) hrate]
  constructor
  · intro hlaw n
    -- `n` device frames in one call
    obtain ⟨frames, assembler, hpush, hlen⟩ := hlaw fresh hnew [List.replicate (n * channels) sample]
    obtain ⟨frames', assembler', hpush', hcount⟩ :=
      pushAll_count toSample hphase hframe [List.replicate (n * channels) sample]
    obtain ⟨rfl, -⟩ := Prod.mk.inj (Outcome.ok.inj (hpush.symm.trans hpush'))
    have hn : CaptureFrameAssembler.deviceFrames channels [List.replicate (n * channels) sample] = n := by
      rw [CaptureFrameAssembler.deviceFrames, List.map_singleton, List.sum_singleton, List.length_replicate,
        Nat.mul_div_cancel _ hchannels]
    rw [hfreshRate, hfreshChannels, hn] at hcount
    rw [hn] at hlen
    rw [← hcount, hlen]
  · intro hlaw fresh' hnew' pieces
    obtain rfl := Outcome.ok.inj (hnew.symm.trans hnew')
    obtain ⟨frames, assembler, hpush, hcount⟩ := pushAll_count toSample hphase hframe pieces
    rw [hfreshRate, hfreshChannels, hlaw] at hcount
    exact ⟨frames, assembler, hpush, hcount⟩

theorem playbackRateLaw_iff (hrate : 0 < rate) (hchannels : 0 < channels) :
    PlaybackRateLaw toFloat silence fromSample rate channels ↔ KeepsTime rate := by
  have hfresh : (OutputStream.new silence channels rate).AtTick rate channels 0 := ⟨rfl, rfl, rfl⟩
  rw [← fired_law_iff_keepsTime 1 (by decide) hrate]
  simp only [Nat.div_one]
  constructor
  · intro hlaw n
    -- `n` device frames in one callback
    let call : Option PlaybackBuffer × List T :=
      (some DesktopAudio.opened.playback, List.replicate (n * channels) (fromSample silence))
    obtain ⟨requests, stream, hcalls, hlen⟩ := hlaw [call]
    obtain ⟨requests', stream', hcalls', hcount⟩ := callbacks_spec toFloat silence fromSample hchannels [call] hfresh
    obtain ⟨rfl, -⟩ := Prod.mk.inj (Outcome.ok.inj (hcalls.symm.trans hcalls'))
    have hn : OutputStream.deviceFrames channels [call] = n := by
      rw [OutputStream.deviceFrames_some, List.length_replicate, Nat.mul_div_cancel _ hchannels]
      rfl
    rw [hn, Nat.zero_add, Phase.fired, Nat.zero_add] at hcount
    rw [← hcount, hlen, hn]
  · intro hlaw calls
    obtain ⟨requests, stream, hcalls, hcount⟩ := callbacks_spec toFloat silence fromSample hchannels calls hfresh
    rw [Nat.zero_add, Phase.fired, Nat.zero_add, hlaw] at hcount
    exact ⟨requests, stream, hcalls, hcount⟩

variable (rate channels)

/-- **Both resamplers keep real time at exactly the rates that keep time.** At any other rate the code accepts, some
number of device frames has emitted too few frames, and some number has requested too few samples. -/
theorem rate_law_iff (hrate : 0 < rate) (hchannels : 0 < channels) :
    (CaptureRateLaw toSample rate channels ↔ KeepsTime rate) ∧
      (PlaybackRateLaw toFloat silence fromSample rate channels ↔ KeepsTime rate) :=
  ⟨captureRateLaw_iff toSample hrate hchannels silence,
    playbackRateLaw_iff toFloat silence fromSample hrate hchannels⟩

end

/-- The usual device rate. -/
theorem rate_law_iff_48000 : CaptureRateLaw (fun deviceFrame : List Int16 => deviceFrame.headD 0) 48000 2 :=
  (rate_law_iff (fun deviceFrame : List Int16 => deviceFrame.headD 0) id 0 id 48000 2 (by decide)
    (by decide)).1.mpr (by decide)

/-- **A device of 4 kHz falls behind.** Of 320 device frames, which last 80 ms, two frames of 20 ms are made; behind
one device frame one sample is requested, and two are due. -/
theorem device_4000_falls_behind :
    (∃ fresh frames assembler, CaptureFrameAssembler.new 4000 1 = .ok fresh ∧
      fresh.pushAll (fun deviceFrame : List Int16 => deviceFrame.headD 0) [List.replicate 320 0] =
        .ok (frames, assembler) ∧ frames.length = 2 ∧ 8000 * 320 / 4000 / 160 = 4) ∧
    (∃ requests stream, callbacks id 0 id (OutputStream.new (0 : Int16) 1 4000)
      [(some DesktopAudio.opened.playback, [0])] = .ok (requests, stream) ∧
      requests.length = 1 ∧ 8000 * 1 / 4000 = 2) ∧
    ¬ CaptureRateLaw (fun deviceFrame : List Int16 => deviceFrame.headD 0) 4000 1 ∧
    ¬ PlaybackRateLaw id (0 : Int16) id 4000 1 := by
  refine ⟨?_, ?_, ?_, ?_⟩
  · obtain ⟨fresh, hnew, hfreshRate, hfreshChannels, hphase, hframe⟩ :=
      new_eq 4000 1 (by decide) (by decide)
    obtain ⟨frames, assembler, hpush, hcount⟩ := pushAll_count
      (fun deviceFrame : List Int16 => deviceFrame.headD 0) hphase hframe [List.replicate 320 0]
    rw [hfreshRate, hfreshChannels, Phase.fired_of_le (by decide) (by decide)] at hcount
    refine ⟨fresh, frames, assembler, hnew, hpush, ?_, rfl⟩
    rw [hcount, CaptureFrameAssembler.deviceFrames, List.map_singleton, List.length_replicate]
    rfl
  · have hfresh : (OutputStream.new (0 : Int16) 1 4000).AtTick 4000 1 0 := ⟨rfl, rfl, rfl⟩
    obtain ⟨requests, stream, hcalls, hcount⟩ := callbacks_spec id (0 : Int16) id (by decide)
      [(some DesktopAudio.opened.playback, [0])] hfresh
    rw [Phase.fired_of_le (by decide) (by decide), Phase.fired_of_le (by decide) (by decide)] at hcount
    exact ⟨requests, stream, hcalls, Nat.add_left_cancel hcount, rfl⟩
  · rw [captureRateLaw_iff _ (by decide) (by decide) (0 : Int16)]
    decide
  · rw [playbackRateLaw_iff id (0 : Int16) id (by decide) (by decide)]
    decide

end IncomUdon.Desktop
