/-
# IncomUdon.Audio.Bounded — the two bounded queues of the audio crate are drop-oldest streams.

A translation of `FrameQueue`, and for it and for `PlaybackBuffer` the same statement: each call is one operation on a
`Ledger` (or none, for a slice that is refused) and returns what that operation hands out, where `waiting` is the
content of the queue and `dropped` what its counter counts. The queue decides how much to drop before it drops
anything (`overflow`), or by a test of equality (`push_latest`); that either comes to keeping the newest elements is
what the fields `fits`, `room` and `positive` are for.
-/
import IncomUdon.Audio.Playback
import IncomUdon.Lib.DropOldest
import IncomUdon.Lib.Machine

namespace IncomUdon.Audio

open IncomUdon.Lib

/-! ## The frame queue -/

/-- A queue of frames that drops the oldest one to make room. -/
structure FrameQueue (T : Type) where
  frames : List T
  capacity : Nat
  /-- `+= 1` on a `u64`, which wraps; a build with overflow checks panics instead, behind `2^64` dropped frames. -/
  droppedFrames : UInt64
  /-- The queue never exceeds its capacity. -/
  fits : frames.length ≤ capacity
  /-- `assert!(capacity > 0)`. -/
  positive : 0 < capacity
  deriving DecidableEq, Repr

namespace FrameQueue

variable {T : Type}

/-- The assertion and the allocation may panic; a frame takes `frameSize` bytes. -/
def new (frameSize capacity : Nat) : Outcome Empty (FrameQueue T) :=
  if h : 0 < capacity ∧ Allocates capacity frameSize then
    .ok
      { frames := []
        capacity := capacity
        droppedFrames := 0
        fits := Nat.zero_le _
        positive := h.1 }
  else .panicked

/-- The oldest frame goes where the queue is full. -/
def pushLatest (queue : FrameQueue T) (frame : T) : FrameQueue T :=
  if h : queue.frames.length = queue.capacity then
    { queue with
      frames := queue.frames.tail ++ [frame]
      droppedFrames := queue.droppedFrames + 1
      fits := by
        have hpositive := queue.positive
        rw [List.length_append, List.length_tail, List.length_singleton]
        omega }
  else
    { queue with
      frames := queue.frames ++ [frame]
      fits := by
        have hfits := queue.fits
        rw [List.length_append, List.length_singleton]
        omega }

/-- `pop_front`. -/
def pop (queue : FrameQueue T) : Option T × FrameQueue T :=
  (queue.frames.head?, { queue with
    frames := queue.frames.tail
    fits := by
      have hfits := queue.fits
      rw [List.length_tail]
      omega })

/-- **A push keeps the newest `capacity` frames** and counts what it drops. -/
theorem pushLatest_spec (queue : FrameQueue T) (frame : T) :
    (queue.pushLatest frame).frames = keepNewest queue.capacity (queue.frames ++ [frame]) ∧
      (queue.pushLatest frame).droppedFrames =
        queue.droppedFrames + UInt64.ofNat (outdated queue.capacity (queue.frames ++ [frame])).length ∧
      (queue.pushLatest frame).capacity = queue.capacity := by
  have hfits := queue.fits
  have hpositive := queue.positive
  rw [keepNewest_append (by rw [List.length_singleton]; exact hpositive), outdated_length, List.length_append,
    List.length_singleton]
  unfold pushLatest
  split
  · rename_i hfull
    have hone : queue.frames.length + 1 - queue.capacity = 1 := by omega
    rw [hone, List.drop_one]
    exact ⟨rfl, rfl, rfl⟩
  · rename_i hroom
    have hnone : queue.frames.length + 1 - queue.capacity = 0 := by omega
    rw [hnone, List.drop_zero]
    exact ⟨rfl, (UInt64.add_zero _).symm, rfl⟩

end FrameQueue

/-! ## What a playback call does -/

namespace PlaybackBuffer

/-- A slice of another length is refused and changes nothing. -/
theorem pushPcmFrame_refused (buffer : PlaybackBuffer) {frame : Bytes} (h : frame.length ≠ pcmFrameBytes) :
    buffer.pushPcmFrame frame = (false, buffer) := by
  unfold pushPcmFrame
  split
  · rfl
  · rename_i samples hsome
    rw [decodePcmFrame, if_pos h] at hsome
    cases hsome

/-- **An accepted push keeps the newest samples** and counts what it drops. -/
theorem pushPcmFrame_spec (buffer : PlaybackBuffer) {frame : Bytes} (h : frame.length = pcmFrameBytes) :
    (buffer.pushPcmFrame frame).2.samples =
        keepNewest buffer.capacitySamples (buffer.samples ++ frameSamples frame) ∧
      (buffer.pushPcmFrame frame).2.droppedSamples = buffer.droppedSamples +
        UInt64.ofNat (outdated buffer.capacitySamples (buffer.samples ++ frameSamples frame)).length ∧
      (buffer.pushPcmFrame frame).2.capacitySamples = buffer.capacitySamples := by
  have hroom : (frameSamples frame).length ≤ buffer.capacitySamples := by
    rw [frameSamples_length]
    exact buffer.room
  refine ⟨?_, ?_⟩
  · rw [(buffer.pushPcmFrame_of_length h).2, keepNewest_append hroom, ← buffer.overflow_eq hroom,
      frameSamples_length]
  · rw [outdated_length, List.length_append, ← buffer.overflow_eq hroom]
    unfold pushPcmFrame
    split
    · rename_i hnone
      rw [decodePcmFrame_of_length h] at hnone
      cases hnone
    · rename_i samples hsome
      rw [decodePcmFrame_of_length h, Option.some.injEq] at hsome
      subst hsome
      exact ⟨rfl, rfl⟩

theorem popSample_spec (buffer : PlaybackBuffer) :
    buffer.popSample.1 = buffer.samples.head? ∧ buffer.popSample.2.samples = buffer.samples.tail ∧
      buffer.popSample.2.droppedSamples = buffer.droppedSamples ∧
      buffer.popSample.2.capacitySamples = buffer.capacitySamples := by
  unfold popSample
  split
  · rename_i hempty
    show none = buffer.samples.head? ∧ buffer.samples = buffer.samples.tail ∧ _
    rw [hempty]
    exact ⟨rfl, rfl, rfl, rfl⟩
  · rename_i sample rest hsamples
    refine ⟨?_, ?_, rfl, rfl⟩
    · show some sample = buffer.samples.head?
      rw [hsamples]
      rfl
    · show rest = buffer.samples.tail
      rw [hsamples]
      rfl

end PlaybackBuffer

/-! ## Calls -/

/-- The calls of the two callbacks on the playback buffer. -/
inductive PlaybackCall where
  | pushPcmFrame (frame : Bytes)
  | popSample
  deriving DecidableEq, Repr

/-- A call with its argument and what it returned. -/
inductive PlaybackReturn where
  | pushed (frame : Bytes) (accepted : Bool)
  | popped (sample : Option Int16)
  deriving DecidableEq, Repr

/-- The samples that an accepted push put in. -/
def PlaybackReturn.accepted : PlaybackReturn → List Int16
  | .pushed frame true => frameSamples frame
  | _ => []

/-- The sample that a pop took out. -/
def PlaybackReturn.popped? : PlaybackReturn → Option Int16
  | .popped sample => sample
  | _ => none

/-- The call on the buffer. -/
def PlaybackBuffer.call (buffer : PlaybackBuffer) : PlaybackCall → Option (PlaybackBuffer × List PlaybackReturn)
  | .pushPcmFrame frame => some ((buffer.pushPcmFrame frame).2, [.pushed frame (buffer.pushPcmFrame frame).1])
  | .popSample => some (buffer.popSample.2, [.popped buffer.popSample.1])

theorem PlaybackBuffer.call_total (buffer : PlaybackBuffer) (call : PlaybackCall) :
    ∃ buffer' returns, buffer.call call = some (buffer', returns) := by
  cases call <;> exact ⟨_, _, rfl⟩

/-- **The call on a stream of samples**: a frame of 320 bytes is put in, a slice of another length is not, and a pop
takes. -/
def PlaybackCall.operation : PlaybackCall → Option (Ledger.Operation Int16)
  | .pushPcmFrame frame => if frame.length = 320 then some (.put (frameSamples frame)) else none
  | .popSample => some .take

/-- What the call returns, where its operation hands out `sample`. -/
def PlaybackCall.returned : PlaybackCall → Option Int16 → PlaybackReturn
  | .pushPcmFrame frame, _ => .pushed frame (decide (frame.length = 320))
  | .popSample, sample => .popped sample

namespace PlaybackCall

/-- A frame is one operation and is accepted. -/
theorem pushes_of_length {frame : Bytes} (h : frame.length = 320) :
    operation (.pushPcmFrame frame) = some (.put (frameSamples frame)) ∧
      ∀ sample, returned (.pushPcmFrame frame) sample = .pushed frame true :=
  ⟨if_pos h, fun _ => congrArg _ (decide_eq_true h)⟩

/-- Another slice is none and is refused. -/
theorem pushes_of_ne {frame : Bytes} (h : frame.length ≠ 320) :
    operation (.pushPcmFrame frame) = none ∧ ∀ sample, returned (.pushPcmFrame frame) sample = .pushed frame false :=
  ⟨if_neg h, fun _ => congrArg _ (decide_eq_false h)⟩

theorem reads : Ledger.Reads operation returned PlaybackReturn.accepted PlaybackReturn.popped? where
  idle := by
    intro call hidle
    cases call with
    | popSample => cases hidle
    | pushPcmFrame frame =>
      by_cases hlen : frame.length = 320
      · rw [(pushes_of_length hlen).1] at hidle
        cases hidle
      · rw [(pushes_of_ne hlen).2]
        exact ⟨rfl, rfl⟩
  put := by
    intro call batch hput
    cases call with
    | popSample => cases hput
    | pushPcmFrame frame =>
      by_cases hlen : frame.length = 320
      · rw [(pushes_of_length hlen).1] at hput
        obtain rfl := Ledger.Operation.put.inj (Option.some.inj hput)
        rw [(pushes_of_length hlen).2]
        exact ⟨rfl, rfl⟩
      · rw [(pushes_of_ne hlen).1] at hput
        cases hput
  take := by
    intro call sample htake
    cases call with
    | popSample => exact ⟨rfl, rfl⟩
    | pushPcmFrame frame =>
      by_cases hlen : frame.length = 320
      · rw [(pushes_of_length hlen).1] at htake
        cases htake
      · rw [(pushes_of_ne hlen).1] at htake
        cases htake

end PlaybackCall

/-- The calls on a frame queue. -/
inductive QueueCall (T : Type) where
  | pushLatest (frame : T)
  | pop

/-- A call with its argument and what it returned. -/
inductive QueueReturn (T : Type) where
  | pushed (frame : T)
  | popped (frame : Option T)
  deriving DecidableEq, Repr

section

variable {T : Type}

/-- The frame that a push put in. -/
def QueueReturn.accepted : QueueReturn T → List T
  | .pushed frame => [frame]
  | _ => []

/-- The frame that a pop took out. -/
def QueueReturn.popped? : QueueReturn T → Option T
  | .popped frame => frame
  | _ => none

/-- The call on the queue. -/
def FrameQueue.call (queue : FrameQueue T) : QueueCall T → Option (FrameQueue T × List (QueueReturn T))
  | .pushLatest frame => some (queue.pushLatest frame, [.pushed frame])
  | .pop => some (queue.pop.2, [.popped queue.pop.1])

theorem FrameQueue.call_total (queue : FrameQueue T) (call : QueueCall T) :
    ∃ queue' returns, queue.call call = some (queue', returns) := by
  cases call <;> exact ⟨_, _, rfl⟩

/-- **The call on a stream of frames.** -/
def QueueCall.operation : QueueCall T → Option (Ledger.Operation T)
  | .pushLatest frame => some (.put [frame])
  | .pop => some .take

/-- What the call returns, where its operation hands out `frame`. -/
def QueueCall.returned : QueueCall T → Option T → QueueReturn T
  | .pushLatest frame, _ => .pushed frame
  | .pop, frame => .popped frame

theorem QueueCall.reads : Ledger.Reads QueueCall.operation QueueCall.returned (QueueReturn.accepted (T := T))
    QueueReturn.popped? where
  idle := by
    intro call hidle
    cases call <;> cases hidle
  put := by
    intro call batch hput
    cases call with
    | pushLatest frame =>
      obtain rfl := Ledger.Operation.put.inj (Option.some.inj hput)
      exact ⟨rfl, rfl⟩
    | pop => cases hput
  take := by
    intro call frame htake
    cases call with
    | pushLatest => cases htake
    | pop => exact ⟨rfl, rfl⟩

end

/-! ## The refinement -/

/-- The buffer has the capacity and holds the ledger. -/
def PlaybackBuffer.Holds (capacity : Nat) (buffer : PlaybackBuffer) (ledger : Ledger Int16) : Prop :=
  buffer.capacitySamples = capacity ∧ ledger.HeldBy buffer.samples buffer.droppedSamples

/-- **A call is the operation**, with what that hands out. -/
theorem PlaybackBuffer.call_refines {capacity : Nat} {buffer buffer' : PlaybackBuffer} {ledger : Ledger Int16}
    {call : PlaybackCall} {returns : List PlaybackReturn} (h : buffer.Holds capacity ledger)
    (hcall : buffer.call call = some (buffer', returns)) :
    ∃ ledger', Ledger.serve capacity PlaybackCall.operation PlaybackCall.returned ledger call =
      some (ledger', returns) ∧ buffer'.Holds capacity ledger' := by
  obtain ⟨rfl, hwaiting, hcounter⟩ := h
  cases call with
  | pushPcmFrame frame =>
    obtain ⟨rfl, rfl⟩ := Prod.mk.inj (Option.some.inj hcall)
    by_cases hlen : frame.length = pcmFrameBytes
    · obtain ⟨hsamples, hdropped, hcapacity⟩ := buffer.pushPcmFrame_spec hlen
      obtain ⟨hoperation, hreturned⟩ := PlaybackCall.pushes_of_length hlen
      refine ⟨ledger.put buffer.capacitySamples (frameSamples frame), ?_, hcapacity, ?_, ?_⟩
      · simp only [Ledger.serve, hoperation, hreturned, (buffer.pushPcmFrame_of_length hlen).1]
        rfl
      · rw [hsamples, hwaiting]
        rfl
      · rw [hdropped, hcounter, hwaiting]
        exact (UInt64.ofNat_add _ _).symm
    · obtain ⟨hoperation, hreturned⟩ := PlaybackCall.pushes_of_ne hlen
      rw [buffer.pushPcmFrame_refused hlen]
      refine ⟨ledger, ?_, rfl, hwaiting, hcounter⟩
      simp only [Ledger.serve, hoperation, hreturned]
  | popSample =>
    obtain ⟨rfl, rfl⟩ := Prod.mk.inj (Option.some.inj hcall)
    obtain ⟨hfront, hrest, hdropped, hcapacity⟩ := buffer.popSample_spec
    refine ⟨ledger.take, ?_, hcapacity, ?_, hdropped.trans hcounter⟩
    · rw [hfront, hwaiting]
      rfl
    · rw [hrest, hwaiting]
      rfl

/-- The queue has the capacity and holds the ledger. -/
def FrameQueue.Holds {T : Type} (capacity : Nat) (queue : FrameQueue T) (ledger : Ledger T) : Prop :=
  queue.capacity = capacity ∧ ledger.HeldBy queue.frames queue.droppedFrames

/-- **A call is the operation**, with what that hands out. -/
theorem FrameQueue.call_refines {T : Type} {capacity : Nat} {queue queue' : FrameQueue T} {ledger : Ledger T}
    {call : QueueCall T} {returns : List (QueueReturn T)} (h : queue.Holds capacity ledger)
    (hcall : queue.call call = some (queue', returns)) :
    ∃ ledger', Ledger.serve capacity QueueCall.operation QueueCall.returned ledger call = some (ledger', returns) ∧
      queue'.Holds capacity ledger' := by
  obtain ⟨rfl, hwaiting, hcounter⟩ := h
  cases call with
  | pushLatest frame =>
    obtain ⟨rfl, rfl⟩ := Prod.mk.inj (Option.some.inj hcall)
    obtain ⟨hframes, hdropped, hcapacity⟩ := queue.pushLatest_spec frame
    refine ⟨ledger.put queue.capacity [frame], rfl, hcapacity, ?_, ?_⟩
    · rw [hframes, hwaiting]
      rfl
    · rw [hdropped, hcounter, hwaiting]
      exact (UInt64.ofNat_add _ _).symm
  | pop =>
    obtain ⟨rfl, rfl⟩ := Prod.mk.inj (Option.some.inj hcall)
    refine ⟨ledger.take, ?_, rfl, ?_, hcounter⟩
    · show some (ledger.take, [QueueReturn.popped ledger.waiting.head?]) =
        some (ledger.take, [QueueReturn.popped queue.frames.head?])
      rw [hwaiting]
    · show queue.frames.tail = ledger.waiting.tail
      rw [hwaiting]

/-- When `new` returns a buffer, and which. -/
theorem PlaybackBuffer.new_eq_ok {frameCapacity : Nat} {fresh : PlaybackBuffer} :
    PlaybackBuffer.new frameCapacity = .ok fresh ↔ 0 < frameCapacity ∧ Allocates (160 * frameCapacity) 2 ∧
      fresh.Holds (160 * frameCapacity) Ledger.empty := by
  rw [Nat.mul_comm 160]
  unfold PlaybackBuffer.new
  split
  · rename_i h
    refine ⟨fun hnew => ?_, fun hfresh => ?_⟩
    · obtain rfl := Outcome.ok.inj hnew
      exact ⟨h.1, h.2, rfl, Ledger.empty_heldBy⟩
    · obtain ⟨samples, capacitySamples, droppedSamples⟩ := fresh
      obtain ⟨-, -, hcapacity, hwaiting, hcounter⟩ := hfresh
      obtain rfl : capacitySamples = _ := hcapacity
      obtain rfl : samples = _ := hwaiting
      obtain rfl : droppedSamples = _ := hcounter
      rfl
  · rename_i h
    exact ⟨fun hnew => (nomatch hnew), fun ⟨hpositive, hallocates, _⟩ => absurd ⟨hpositive, hallocates⟩ h⟩

theorem FrameQueue.new_eq_ok {T : Type} {frameSize capacity : Nat} {fresh : FrameQueue T} :
    FrameQueue.new frameSize capacity = .ok fresh ↔
      0 < capacity ∧ Allocates capacity frameSize ∧ fresh.Holds capacity Ledger.empty := by
  unfold FrameQueue.new
  split
  · rename_i h
    refine ⟨fun hnew => ?_, fun hfresh => ?_⟩
    · obtain rfl := Outcome.ok.inj hnew
      exact ⟨h.1, h.2, rfl, Ledger.empty_heldBy⟩
    · obtain ⟨frames, capacity', droppedFrames⟩ := fresh
      obtain ⟨-, -, hcapacity, hwaiting, hcounter⟩ := hfresh
      obtain rfl : capacity' = _ := hcapacity
      obtain rfl : frames = _ := hwaiting
      obtain rfl : droppedFrames = _ := hcounter
      rfl
  · rename_i h
    exact ⟨fun hnew => (nomatch hnew), fun ⟨hpositive, hallocates, _⟩ => absurd ⟨hpositive, hallocates⟩ h⟩

/-- What one `push_pcm_frame` may do to a buffer of `frameCapacity` frames. -/
structure PlaybackBuffer.PushLaw (buffer : PlaybackBuffer) (frameCapacity : Nat) (frame : Bytes) : Prop where
  refused : (buffer.pushPcmFrame frame).1 = false ↔ frame.length ≠ 320
  unchanged : (buffer.pushPcmFrame frame).1 = false → (buffer.pushPcmFrame frame).2 = buffer
  accepted : frame.length = 320 → DropsOverflow (160 * frameCapacity) (frameSamples frame)
    buffer.samples (buffer.pushPcmFrame frame).2.samples
    buffer.droppedSamples (buffer.pushPcmFrame frame).2.droppedSamples

theorem PlaybackBuffer.push_law (buffer : PlaybackBuffer) {frameCapacity : Nat}
    (hbound : buffer.capacitySamples = 160 * frameCapacity) (frame : Bytes) : buffer.PushLaw frameCapacity frame := by
  have hbytes : pcmFrameBytes = 320 := rfl
  by_cases hlen : frame.length = pcmFrameBytes
  · have hok := (buffer.pushPcmFrame_of_length hlen).1
    obtain ⟨hsamples, hdropped, -⟩ := buffer.pushPcmFrame_spec hlen
    refine ⟨?_, ?_, fun _ => ?_⟩
    · rw [hok, ← hbytes]
      exact ⟨(fun h => nomatch h), fun h => absurd hlen h⟩
    · intro hrefused
      rw [hok] at hrefused
      cases hrefused
    · rw [← hbound, hsamples, hdropped]
      apply keepNewest_dropsOverflow
      rw [frameSamples_length]
      exact buffer.room
  · have hsame := buffer.pushPcmFrame_refused hlen
    refine ⟨?_, ?_, fun h => absurd h hlen⟩
    · rw [hsame]
      exact ⟨fun _ => hlen, fun _ => rfl⟩
    · intro _
      rw [hsame]

theorem FrameQueue.push_law {T : Type} (queue : FrameQueue T) (frame : T) :
    DropsOverflow queue.capacity [frame] queue.frames (queue.pushLatest frame).frames queue.droppedFrames
      (queue.pushLatest frame).droppedFrames := by
  obtain ⟨hframes, hdropped, -⟩ := queue.pushLatest_spec frame
  rw [hframes, hdropped]
  exact keepNewest_dropsOverflow queue.positive

/-- Every sequence of calls on a buffer runs, as on the ledger it holds. -/
theorem PlaybackBuffer.run_refines {capacity : Nat} {fresh : PlaybackBuffer} (h : fresh.Holds capacity Ledger.empty)
    (calls : List PlaybackCall) : ∃ buffer ledger returns,
      run PlaybackBuffer.call fresh calls = some (buffer, returns) ∧
      run (Ledger.serve capacity PlaybackCall.operation PlaybackCall.returned) Ledger.empty calls =
        some (ledger, returns) ∧
      buffer.Holds capacity ledger ∧ ShowsStream capacity (returns.flatMap PlaybackReturn.accepted)
        (returns.filterMap PlaybackReturn.popped?) buffer.samples buffer.droppedSamples := by
  obtain ⟨buffer, returns, hrun⟩ := run_total PlaybackBuffer.call_total calls fresh
  obtain ⟨ledger, hserve, hholds⟩ := Lib.run_refines (R := PlaybackBuffer.Holds capacity)
    (fun _ _ call _ _ hR (hcall : PlaybackBuffer.call _ call = _) => PlaybackBuffer.call_refines hR hcall)
    calls _ _ _ _ h hrun
  obtain ⟨hsound, hstream, htaken⟩ := Ledger.run_serve PlaybackCall.reads hserve
  refine ⟨buffer, ledger, returns, hrun, hserve, hholds, ?_⟩
  rw [← hstream, ← htaken]
  exact hholds.2.shown hsound

/-- Every sequence of calls on a queue runs, as on the ledger it holds. -/
theorem FrameQueue.run_refines {T : Type} {capacity : Nat} {fresh : FrameQueue T}
    (h : fresh.Holds capacity Ledger.empty) (calls : List (QueueCall T)) : ∃ queue ledger returns,
      run FrameQueue.call fresh calls = some (queue, returns) ∧
      run (Ledger.serve capacity QueueCall.operation QueueCall.returned) Ledger.empty calls = some (ledger, returns) ∧
      queue.Holds capacity ledger ∧ ShowsStream capacity (returns.flatMap QueueReturn.accepted)
        (returns.filterMap QueueReturn.popped?) queue.frames queue.droppedFrames := by
  obtain ⟨queue, returns, hrun⟩ := run_total FrameQueue.call_total calls fresh
  obtain ⟨ledger, hserve, hholds⟩ := Lib.run_refines (R := FrameQueue.Holds capacity)
    (fun _ _ call _ _ hR (hcall : FrameQueue.call _ call = _) => FrameQueue.call_refines hR hcall)
    calls _ _ _ _ h hrun
  obtain ⟨hsound, hstream, htaken⟩ := Ledger.run_serve QueueCall.reads hserve
  refine ⟨queue, ledger, returns, hrun, hserve, hholds, ?_⟩
  rw [← hstream, ← htaken]
  exact hholds.2.shown hsound

/-- **Bounded buffers refine a drop-oldest stream.** `new` returns a queue for every positive capacity that can be
allocated. From there every sequence of calls runs, and returns what it returns on a ledger, where each call is one
operation: a pop hands out the head of what waits and removes it, or hands out nothing where nothing waits. So the
queue holds the end of the stream that it accepted, within its bound, and the rest was popped, in stream order, or
dropped and counted. A push drops as much as overflows, from the front of what waits; `push_pcm_frame` refuses exactly
the slices of another length than 320 bytes, and then changes nothing. -/
theorem bounded_buffers_refine (c : Nat) :
    (((∃ fresh, PlaybackBuffer.new c = .ok fresh) ↔ 0 < c ∧ Allocates (160 * c) 2) ∧
      ∀ fresh, PlaybackBuffer.new c = .ok fresh → ∀ calls, ∃ buffer ledger returns,
        run PlaybackBuffer.call fresh calls = some (buffer, returns) ∧
        run (Ledger.serve (160 * c) PlaybackCall.operation PlaybackCall.returned) Ledger.empty calls =
          some (ledger, returns) ∧
        buffer.Holds (160 * c) ledger ∧
        ShowsStream (160 * c) (returns.flatMap PlaybackReturn.accepted) (returns.filterMap PlaybackReturn.popped?)
          buffer.samples buffer.droppedSamples ∧
        ∀ frame, buffer.PushLaw c frame) ∧
    ∀ (T : Type) (frameSize : Nat),
      ((∃ fresh : FrameQueue T, FrameQueue.new frameSize c = .ok fresh) ↔ 0 < c ∧ Allocates c frameSize) ∧
      ∀ fresh : FrameQueue T, FrameQueue.new frameSize c = .ok fresh → ∀ calls, ∃ queue ledger returns,
        run FrameQueue.call fresh calls = some (queue, returns) ∧
        run (Ledger.serve c QueueCall.operation QueueCall.returned) Ledger.empty calls = some (ledger, returns) ∧
        queue.Holds c ledger ∧
        ShowsStream c (returns.flatMap QueueReturn.accepted) (returns.filterMap QueueReturn.popped?) queue.frames
          queue.droppedFrames ∧
        ∀ frame, DropsOverflow c [frame] queue.frames (queue.pushLatest frame).frames queue.droppedFrames
          (queue.pushLatest frame).droppedFrames := by
  refine ⟨⟨?_, ?_⟩, ?_⟩
  · refine ⟨fun ⟨fresh, hnew⟩ => ?_, fun ⟨hpositive, hallocates⟩ => ?_⟩
    · obtain ⟨hpositive, hallocates, -⟩ := PlaybackBuffer.new_eq_ok.mp hnew
      exact ⟨hpositive, hallocates⟩
    · rw [Nat.mul_comm] at hallocates
      exact ⟨_, dif_pos ⟨hpositive, hallocates⟩⟩
  · intro fresh hnew calls
    obtain ⟨buffer, ledger, returns, hrun, hserve, hholds, hshows⟩ :=
      PlaybackBuffer.run_refines (PlaybackBuffer.new_eq_ok.mp hnew).2.2 calls
    exact ⟨buffer, ledger, returns, hrun, hserve, hholds, hshows, buffer.push_law hholds.1⟩
  · intro T frameSize
    refine ⟨⟨fun ⟨fresh, hnew⟩ => ?_, fun hable => ⟨_, dif_pos hable⟩⟩, ?_⟩
    · obtain ⟨hpositive, hallocates, -⟩ := FrameQueue.new_eq_ok.mp hnew
      exact ⟨hpositive, hallocates⟩
    · intro fresh hnew calls
      obtain ⟨queue, ledger, returns, hrun, hserve, hholds, hshows⟩ :=
        FrameQueue.run_refines (FrameQueue.new_eq_ok.mp hnew).2.2 calls
      refine ⟨queue, ledger, returns, hrun, hserve, hholds, hshows, ?_⟩
      intro frame
      have hlaw := queue.push_law frame
      rw [hholds.1] at hlaw
      exact hlaw

/-- A playback buffer of one frame gets a frame, a slice that is none, and a second frame, and a queue of two frames
gets three: the first of them are dropped and counted, and the next are popped. -/
theorem bounded_buffers_refine_two :
    (∃ fresh, PlaybackBuffer.new 1 = .ok fresh ∧ ∃ buffer returns,
      run PlaybackBuffer.call fresh [.pushPcmFrame (List.replicate 320 1), .pushPcmFrame [1, 2],
        .pushPcmFrame (List.replicate 320 2), .popSample] = some (buffer, returns) ∧
      returns.filterMap PlaybackReturn.popped? = [514] ∧ buffer.droppedSamples = 160 ∧
      ShowsStream 160 (List.replicate 160 257 ++ List.replicate 160 514) [514] buffer.samples buffer.droppedSamples) ∧
    ∃ fresh : FrameQueue Nat, FrameQueue.new 8 2 = .ok fresh ∧ ∃ queue returns,
      run FrameQueue.call fresh [.pushLatest 1, .pushLatest 2, .pushLatest 3, .pop, .pop, .pop] =
        some (queue, returns) ∧
      returns.filterMap QueueReturn.popped? = [2, 3] ∧ queue.droppedFrames = 1 ∧
      ShowsStream 2 [1, 2, 3] [2, 3] queue.frames queue.droppedFrames := by
  constructor
  · obtain ⟨hnew, hall⟩ := (bounded_buffers_refine 1).1
    obtain ⟨fresh, hfresh⟩ := hnew.mpr (by decide)
    obtain ⟨buffer, ledger, returns, hrun, hserve, hholds, hshows, -⟩ := hall fresh hfresh
      [.pushPcmFrame (List.replicate 320 1), .pushPcmFrame [1, 2], .pushPcmFrame (List.replicate 320 2), .popSample]
    -- the ledger computes what was returned and dropped
    have hview : (run (Ledger.serve 160 PlaybackCall.operation PlaybackCall.returned) Ledger.empty
        [.pushPcmFrame (List.replicate 320 1), .pushPcmFrame [1, 2], .pushPcmFrame (List.replicate 320 2),
          .popSample]).map (fun r => (r.1.dropped, r.2.flatMap PlaybackReturn.accepted,
            r.2.filterMap PlaybackReturn.popped?)) =
        some (160, List.replicate 160 257 ++ List.replicate 160 514, [514]) := by decide +kernel
    rw [hserve] at hview
    obtain ⟨hdropped, hview⟩ := Prod.mk.inj (Option.some.inj hview)
    obtain ⟨hstream, htaken⟩ := Prod.mk.inj hview
    rw [hstream, htaken] at hshows
    have hcounter : buffer.droppedSamples = 160 := hholds.2.counter.trans (congrArg UInt64.ofNat hdropped)
    exact ⟨fresh, hfresh, buffer, returns, hrun, htaken, hcounter, hshows⟩
  · obtain ⟨hnew, hall⟩ := (bounded_buffers_refine 2).2 Nat 8
    obtain ⟨fresh, hfresh⟩ := hnew.mpr (by decide)
    obtain ⟨queue, ledger, returns, hrun, hserve, hholds, hshows, -⟩ :=
      hall fresh hfresh [.pushLatest 1, .pushLatest 2, .pushLatest 3, .pop, .pop, .pop]
    obtain ⟨rfl, rfl⟩ := Prod.mk.inj (Option.some.inj hserve)
    exact ⟨fresh, hfresh, queue, _, hrun, rfl, hholds.2.counter, hshows⟩

end IncomUdon.Audio
