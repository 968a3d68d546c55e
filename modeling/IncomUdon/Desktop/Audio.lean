/-
# IncomUdon.Desktop.Audio — the queues between the audio device and the application.

A translation of the part of `desktop_audio.rs` that is not the device: the bounded channel of capture frames that
the input callback fills, and the playback buffer that the output callback drains. The streams themselves belong
to the sound crate; what they do to the queues is `captured` and `played`.
-/
import IncomUdon.Audio.Playback
import IncomUdon.Lib.Channel

namespace IncomUdon.Desktop

open IncomUdon.Lib
open IncomUdon.Audio

/-- `CAPTURE_QUEUE_CAPACITY`, in frames. -/
def captureQueueCapacity : Nat := 8
/-- `PLAYBACK_QUEUE_FRAMES`. -/
def playbackQueueFrames : Nat := 12

/-- The application's ends of the two queues. -/
structure DesktopAudio where
  captureFrames : Channel Bytes
  playback : PlaybackBuffer
  deriving DecidableEq, Repr

namespace DesktopAudio

/-- What `DesktopAudio::open` returns once the devices and streams are there. -/
def opened : DesktopAudio where
  captureFrames := Channel.empty captureQueueCapacity
  playback :=
    { samples := []
      capacitySamples := playbackQueueFrames * pcmFrameSamples
      droppedSamples := 0
      fits := Nat.zero_le _
      room := by decide
      allocated := by decide }

/-- `try_next_capture_frame`. -/
def tryNextCaptureFrame (audio : DesktopAudio) : Option (Bytes × DesktopAudio) :=
  match audio.captureFrames.tryRecv with
  | some (frame, captureFrames) => some (frame, { audio with captureFrames })
  | none => none

/-- `while self.capture_frames.try_recv().is_ok() {}`. -/
def discardCaptureFrames (audio : DesktopAudio) : DesktopAudio :=
  { audio with captureFrames := Channel.empty audio.captureFrames.capacity }

/-- `queue_playback_frame`: whether the buffer took the frame. -/
def queuePlaybackFrame (audio : DesktopAudio) (frame : Bytes) : Bool × DesktopAudio :=
  ((audio.playback.pushPcmFrame frame).1, { audio with playback := (audio.playback.pushPcmFrame frame).2 })

/-- The input callback's `sender.try_send(frame)`. -/
def captured (audio : DesktopAudio) (frame : Bytes) : DesktopAudio :=
  { audio with captureFrames := (audio.captureFrames.trySend frame).2 }

/-- The output callback's `playback.pop_sample()`. -/
def played (audio : DesktopAudio) : DesktopAudio :=
  { audio with playback := audio.playback.popSample.2 }

/-- The buffer is the one `PlaybackBuffer::new` makes; it does not panic. -/
example : PlaybackBuffer.new playbackQueueFrames = .ok opened.playback := rfl

/-- Behind a frame of the microphone the queue is not empty, whether or not there was room for it. -/
theorem captured_tryNext {audio : DesktopAudio} (frame : Bytes) (hcapacity : 0 < audio.captureFrames.capacity) :
    ∃ next audio', (audio.captured frame).tryNextCaptureFrame = some (next, audio') := by
  have hne : (audio.captureFrames.trySend frame).2.queue ≠ [] := by
    by_cases hroom : audio.captureFrames.queue.length < audio.captureFrames.capacity
    · rw [(Channel.trySend_of_lt frame hroom).2]
      exact List.append_ne_nil_of_right_ne_nil _ (List.cons_ne_nil _ _)
    · -- a full channel of positive capacity holds something already
      rw [Channel.trySend_of_full frame hroom]
      apply List.ne_nil_of_length_pos
      show 0 < audio.captureFrames.queue.length
      omega
  cases hnext : (audio.captureFrames.trySend frame).2.tryRecv with
  | none => exact absurd (Channel.tryRecv_eq_none.mp hnext) hne
  | some taken =>
    refine ⟨taken.1, { audio with captureFrames := taken.2 }, ?_⟩
    unfold tryNextCaptureFrame captured
    rw [show ({ audio with captureFrames := (audio.captureFrames.trySend frame).2 } : DesktopAudio).captureFrames =
      (audio.captureFrames.trySend frame).2 from rfl, hnext]

end DesktopAudio

end IncomUdon.Desktop
