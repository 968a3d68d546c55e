/-
# IncomUdon.Audio.Capture — device samples become 20 ms frames at 8 kHz.

A translation of `CaptureFrameAssembler`. A callback hands over interleaved samples; every device frame is mixed
down and advances a phase, and where the phase reaches the input rate the mix becomes a sample of the frame in
progress. The mix and its conversion to 16 bits are floating-point arithmetic and a parameter here (`toSample`).

The phase is the accumulator of `Lib.Phase` with increment 8000 and a 32-bit top. §2 follows one device frame, §3
a callback, §4 a microphone that delivers its stream in any pieces.
-/
import IncomUdon.Audio.Playback
import IncomUdon.Lib.Phase

namespace IncomUdon.Audio

open IncomUdon.Lib
open IncomUdon.Lib.Outcome (ok_bind bind_eq_ok)

/-- `PCM_SAMPLE_RATE`. -/
def pcmSampleRate : UInt32 := 8000

/-- `u32::saturating_add`. -/
@[irreducible] def saturatingAdd (a b : UInt32) : UInt32 :=
  if a.toNat + b.toNat < 2 ^ 32 then a + b else 4294967295

/-- `slice::chunks_exact`: a remainder is left out. -/
def chunksExact {α : Type} (n : Nat) (xs : List α) : List (List α) :=
  (List.range (xs.length / n)).map fun i => (xs.drop (n * i)).take n

/-! ## The assembler -/

/-- The phase of the resampler and the frame in progress; the two assertions of `new` are fields. -/
structure CaptureFrameAssembler where
  inputRate : UInt32
  channels : Nat
  phase : UInt32
  frame : List Int16
  /-- `assert!(input_rate > 0)`. -/
  ratePositive : 0 < inputRate
  /-- `assert!(channels > 0)`. -/
  channelsPositive : 0 < channels
  /-- A frame of 160 samples is emitted at once. -/
  short : frame.length < pcmFrameSamples
  deriving Repr

namespace CaptureFrameAssembler

/-- `CaptureFrameAssembler::new`, which panics where one of its assertions fails. -/
def new (inputRate : UInt32) (channels : Nat) : Outcome Empty CaptureFrameAssembler :=
  if h : 0 < inputRate ∧ 0 < channels then
    .ok
      { inputRate := inputRate
        channels := channels
        phase := 0
        frame := []
        ratePositive := h.1
        channelsPositive := h.2
        short := by decide }
  else .panicked

section

variable {F : Type} (toSample : List F → Int16)

/-- The body of the `for` loop: the complete frames, none or one, and the assembler behind it. -/
def pushDeviceFrame (assembler : CaptureFrameAssembler) (deviceFrame : List F) :
    Outcome Empty (List Bytes × CaptureFrameAssembler) :=
  let mono := toSample deviceFrame
  let phase := saturatingAdd assembler.phase pcmSampleRate
  if phase < assembler.inputRate then .ok ([], { assembler with phase })
  else
    let phase := phase - assembler.inputRate
    if h : (assembler.frame ++ [mono]).length = pcmFrameSamples then do
      let complete ← encodePcmFrame (assembler.frame ++ [mono])
      return ([complete], { assembler with
        phase := phase
        frame := []
        short := by decide })
    else
      return ([], { assembler with
        phase := phase
        frame := assembler.frame ++ [mono]
        short := by
          have hshort := assembler.short
          rw [List.length_append, List.length_singleton] at h ⊢
          omega })

/-- The `for` loop over the device frames of one call; the frames it completes come out in order. -/
def pushDeviceFrames : CaptureFrameAssembler → List (List F) → Outcome Empty (List Bytes × CaptureFrameAssembler)
  | assembler, [] => .ok ([], assembler)
  | assembler, deviceFrame :: rest => do
    let first ← assembler.pushDeviceFrame toSample deviceFrame
    let later ← pushDeviceFrames first.2 rest
    return (first.1 ++ later.1, later.2)

/-- `push_interleaved_f32`: the samples, cut into device frames of one sample for each channel. -/
def pushInterleavedF32 (assembler : CaptureFrameAssembler) (samples : List F) :
    Outcome Empty (List Bytes × CaptureFrameAssembler) :=
  assembler.pushDeviceFrames toSample (chunksExact assembler.channels samples)

/-- Successive calls, with the frames they return joined. -/
def pushAll : CaptureFrameAssembler → List (List F) → Outcome Empty (List Bytes × CaptureFrameAssembler)
  | assembler, [] => .ok ([], assembler)
  | assembler, samples :: rest => do
    let first ← assembler.pushInterleavedF32 toSample samples
    let later ← pushAll first.2 rest
    return (first.1 ++ later.1, later.2)

end

end CaptureFrameAssembler

/-! ## §1 — words and chunks -/

/-- The top of a 32-bit phase. -/
def phaseTop : Nat := 4294967295

theorem saturatingAdd_toNat (a b : UInt32) : (saturatingAdd a b).toNat = min (a.toNat + b.toNat) phaseTop := by
  unfold saturatingAdd
  split
  · rename_i hlt
    rw [UInt32.toNat_add, Nat.mod_eq_of_lt hlt, Nat.min_eq_left]
    exact Nat.le_pred_of_lt hlt
  · rename_i hge
    rw [Nat.min_eq_right (Nat.le_trans (by decide) (Nat.le_of_not_lt hge))]
    rfl

/-- A device frame that leaves the phase below the rate is a tick that does not fire. -/
theorem tick_quiet {phase rate : UInt32} (h : saturatingAdd phase pcmSampleRate < rate) :
    (Phase.tick 8000 rate.toNat phaseTop phase.toNat).1 = false ∧
      (Phase.tick 8000 rate.toNat phaseTop phase.toNat).2 = (saturatingAdd phase pcmSampleRate).toNat := by
  have hlt := UInt32.lt_iff_toNat_lt.mp h
  rw [saturatingAdd_toNat] at hlt ⊢
  have hbelow : min (phase.toNat + 8000) phaseTop < rate.toNat := hlt
  rw [Phase.tick, if_pos hbelow]
  exact ⟨rfl, rfl⟩

/-- A device frame that brings it to the rate is one that does. -/
theorem tick_fires {phase rate : UInt32} (h : ¬ saturatingAdd phase pcmSampleRate < rate) :
    (Phase.tick 8000 rate.toNat phaseTop phase.toNat).1 = true ∧
      (Phase.tick 8000 rate.toNat phaseTop phase.toNat).2 = (saturatingAdd phase pcmSampleRate - rate).toNat := by
  have hge := UInt32.le_iff_toNat_le.mp (UInt32.not_lt.mp h)
  rw [UInt32.toNat_sub_of_le _ _ (UInt32.not_lt.mp h), saturatingAdd_toNat]
  rw [saturatingAdd_toNat] at hge
  have hreached : ¬ min (phase.toNat + 8000) phaseTop < rate.toNat := Nat.not_lt.mpr hge
  rw [Phase.tick, if_neg hreached]
  exact ⟨rfl, rfl⟩

section

variable {α : Type} {n : Nat}

@[simp] theorem chunksExact_length (n : Nat) (xs : List α) : (chunksExact n xs).length = xs.length / n := by
  rw [chunksExact, List.length_map, List.length_range]

/-- A stream cut at a multiple of the chunk size has the chunks of its two parts. -/
theorem chunksExact_append (hn : 0 < n) {xs : List α} (h : n ∣ xs.length) (ys : List α) :
    chunksExact n (xs ++ ys) = chunksExact n xs ++ chunksExact n ys := by
  obtain ⟨k, hk⟩ := h
  have hcount : (xs ++ ys).length / n = k + ys.length / n := by
    rw [List.length_append, hk, Nat.mul_add_div hn]
  have hfront : xs.length / n = k := by rw [hk, Nat.mul_div_cancel_left _ hn]
  rw [chunksExact, chunksExact, chunksExact, hcount, hfront, List.range_add, List.map_append, List.map_map]
  congr 1
  · -- a chunk of the first part ends within it
    apply List.map_congr_left
    intro i hi
    have hend : n * (i + 1) ≤ n * k := Nat.mul_le_mul_left n (List.mem_range.mp hi)
    rw [Nat.mul_succ] at hend
    rw [List.drop_append_of_le_length (by omega), List.take_append_of_le_length]
    rw [List.length_drop]
    omega
  · -- a later chunk lies behind it
    apply List.map_congr_left
    intro i _
    show ((xs ++ ys).drop (n * (k + i))).take n = _
    rw [Nat.mul_add, ← hk, List.drop_length_add_append]

/-- The chunks of a stream delivered in pieces, all but the last of whole chunks. -/
theorem chunksExact_flatten (hn : 0 < n) (pieces : List (List α)) (hcut : ∀ piece ∈ pieces.dropLast, n ∣ piece.length) :
    chunksExact n pieces.flatten = pieces.flatMap (chunksExact n) := by
  induction pieces with
  | nil =>
    show (List.range (0 / n)).map _ = []
    rw [Nat.zero_div]
    rfl
  | cons piece rest ih =>
    rw [List.flatten_cons, List.flatMap_cons]
    cases rest with
    | nil => simp
    | cons next rest =>
      rw [chunksExact_append hn (hcut piece (by simp)), ih]
      intro p hp
      exact hcut p (List.mem_cons_of_mem _ hp)

end

/-! ## §2 — one device frame -/

namespace CaptureFrameAssembler

/-- The complete frames and the frame in progress behind a call are the samples before it and the new ones, cut
into frames. -/
structure Packs (assembler : CaptureFrameAssembler) (samples : List Int16) (complete : List Bytes)
    (assembler' : CaptureFrameAssembler) : Prop where
  rate : assembler'.inputRate = assembler.inputRate
  channels : assembler'.channels = assembler.channels
  packed : complete.flatMap frameSamples ++ assembler'.frame = assembler.frame ++ samples
  whole : ∀ frame ∈ complete, frame.length = pcmFrameBytes ∧ encodePcmFrame (frameSamples frame) = .ok frame

theorem Packs.refl (assembler : CaptureFrameAssembler) : Packs assembler [] [] assembler :=
  ⟨rfl, rfl, by simp, by simp⟩

theorem Packs.trans {a b c : CaptureFrameAssembler} {samples samples' : List Int16} {complete complete' : List Bytes}
    (h : Packs a samples complete b) (h' : Packs b samples' complete' c) :
    Packs a (samples ++ samples') (complete ++ complete') c := by
  refine ⟨h'.rate.trans h.rate, h'.channels.trans h.channels, ?_, ?_⟩
  · rw [List.flatMap_append, List.append_assoc, h'.packed, ← List.append_assoc, h.packed, List.append_assoc]
  · intro frame hframe
    rcases List.mem_append.mp hframe with hfirst | hlater
    · exact h.whole frame hfirst
    · exact h'.whole frame hlater

section

variable {F : Type} (toSample : List F → Int16)

/-- **One device frame** is one tick: where it fires, the sample is packed. -/
theorem pushDeviceFrame_spec (assembler : CaptureFrameAssembler) (deviceFrame : List F) :
    ∃ complete assembler', assembler.pushDeviceFrame toSample deviceFrame = .ok (complete, assembler') ∧
      Packs assembler (if (Phase.tick 8000 assembler.inputRate.toNat phaseTop assembler.phase.toNat).1
        then [toSample deviceFrame] else []) complete assembler' ∧
      assembler'.phase.toNat = (Phase.tick 8000 assembler.inputRate.toNat phaseTop assembler.phase.toNat).2 := by
  by_cases hquiet : saturatingAdd assembler.phase pcmSampleRate < assembler.inputRate
  · obtain ⟨hfires, hphase⟩ := tick_quiet hquiet
    have hstep : assembler.pushDeviceFrame toSample deviceFrame =
        .ok ([], { assembler with phase := saturatingAdd assembler.phase pcmSampleRate }) := if_pos hquiet
    rw [hfires]
    exact ⟨[], _, hstep, ⟨rfl, rfl, (List.append_nil _).symm, by simp⟩, hphase.symm⟩
  · obtain ⟨hfires, hphase⟩ := tick_fires hquiet
    rw [hfires, if_pos rfl]
    by_cases hfull : (assembler.frame ++ [toSample deviceFrame]).length = pcmFrameSamples
    · -- the frame is complete: it encodes, and a new one begins
      have hencode : encodePcmFrame (assembler.frame ++ [toSample deviceFrame]) =
          .ok ((assembler.frame ++ [toSample deviceFrame]).flatMap le16) := encodePcmFrame_of_length hfull
      obtain ⟨hbytes, hsamples⟩ := frameSamples_encodePcmFrame hencode
      rw [pushDeviceFrame, if_neg hquiet, dif_pos hfull, hencode, ok_bind]
      refine ⟨_, _, rfl, ⟨rfl, rfl, ?_, ?_⟩, hphase.symm⟩
      · show [_].flatMap frameSamples ++ [] = _
        rw [List.append_nil, List.flatMap_singleton, hsamples]
      · intro frame hframe
        rw [List.mem_singleton.mp hframe, hsamples]
        exact ⟨hbytes, hencode⟩
    · rw [pushDeviceFrame, if_neg hquiet, dif_neg hfull]
      exact ⟨[], _, rfl, ⟨rfl, rfl, rfl, by simp⟩, hphase.symm⟩

/-! ## §3 — one call -/

/-- **A list of device frames** goes through the accumulator, and what it passes on is packed. -/
theorem pushDeviceFrames_spec (deviceFrames : List (List F)) (assembler : CaptureFrameAssembler) :
    ∃ complete assembler', assembler.pushDeviceFrames toSample deviceFrames = .ok (complete, assembler') ∧
      Packs assembler ((Phase.gate 8000 assembler.inputRate.toNat phaseTop assembler.phase.toNat
        deviceFrames).1.map toSample) complete assembler' := by
  induction deviceFrames generalizing assembler with
  | nil => exact ⟨[], assembler, rfl, Packs.refl assembler⟩
  | cons deviceFrame rest ih =>
    obtain ⟨first, middle, hfirst, hpacks, hphase⟩ := assembler.pushDeviceFrame_spec toSample deviceFrame
    obtain ⟨later, assembler', hlater, hpacks'⟩ := ih middle
    refine ⟨first ++ later, assembler', ?_, ?_⟩
    · rw [pushDeviceFrames, hfirst, ok_bind, hlater]
      rfl
    · rw [hpacks.rate, hphase] at hpacks'
      have hjoined := hpacks.trans hpacks'
      rw [Phase.gate, List.map_append]
      convert hjoined using 2
      split <;> rfl

/-- The loop over two lists is the loop over the first and then the second. -/
theorem pushDeviceFrames_append (xs ys : List (List F)) (assembler : CaptureFrameAssembler) :
    assembler.pushDeviceFrames toSample (xs ++ ys) = (do
      let first ← assembler.pushDeviceFrames toSample xs
      let later ← first.2.pushDeviceFrames toSample ys
      return (first.1 ++ later.1, later.2)) := by
  induction xs generalizing assembler with
  | nil =>
    rw [List.nil_append, pushDeviceFrames, ok_bind]
    cases assembler.pushDeviceFrames toSample ys <;> rfl
  | cons deviceFrame rest ih =>
    obtain ⟨first, middle, hfirst, -⟩ := assembler.pushDeviceFrame_spec toSample deviceFrame
    obtain ⟨second, last, hsecond, -⟩ := middle.pushDeviceFrames_spec toSample rest
    rw [List.cons_append, pushDeviceFrames, pushDeviceFrames, hfirst, ok_bind, ok_bind, ih, hsecond, ok_bind]
    show _ = (do
      let later ← last.pushDeviceFrames toSample ys
      return ((first ++ second) ++ later.1, later.2) : Outcome Empty _)
    cases last.pushDeviceFrames toSample ys with
    | ok later => exact congrArg (fun frames => Outcome.ok (frames, later.2)) (List.append_assoc _ _ _).symm
    | err e => rfl
    | panicked => rfl

/-- Successive calls are one loop over the device frames of all of them. -/
theorem pushAll_eq (pieces : List (List F)) (assembler : CaptureFrameAssembler) :
    assembler.pushAll toSample pieces =
      assembler.pushDeviceFrames toSample (pieces.flatMap (chunksExact assembler.channels)) := by
  induction pieces generalizing assembler with
  | nil => rfl
  | cons samples rest ih =>
    obtain ⟨first, middle, hfirst, hpacks⟩ :=
      assembler.pushDeviceFrames_spec toSample (chunksExact assembler.channels samples)
    rw [List.flatMap_cons, pushDeviceFrames_append, pushAll, pushInterleavedF32, hfirst, ok_bind, ok_bind, ih,
      hpacks.channels]

/-! ## §4 — a stream in pieces -/

/-- The device frames at which a sample of 8 kHz is due: numbered from 1, those at which `8000 * j / rate` grows. -/
def dueFrames (rate : Nat) (deviceFrames : List (List F)) : List (List F) :=
  ((deviceFrames.zipIdx 1).filter fun x => 8000 * (x.2 - 1) / rate < 8000 * x.2 / rate).map Prod.fst

/-- The accumulator passes on the device frames that are due. -/
theorem gate_eq_dueFrames {rate : Nat} (hrate : 0 < rate) (hbound : rate ≤ 2 ^ 32 - 8000)
    (deviceFrames : List (List F)) :
    (Phase.gate 8000 rate phaseTop 0 deviceFrames).1 = dueFrames rate deviceFrames := by
  have hfresh : (0 : Nat) = Phase.phaseAt 8000 rate phaseTop 0 := rfl
  have hroom : rate + 8000 ≤ phaseTop + 1 := by
    rw [phaseTop]
    omega
  rw [hfresh, Phase.gate_phaseAt, dueFrames, List.zipIdx_succ, List.filter_map, List.map_map]
  have hsame : (fun x : List F × Nat => Phase.firesAt 8000 rate phaseTop x.2) =
      fun x => decide (8000 * x.2 / rate < 8000 * (x.2 + 1) / rate) := by
    funext x
    rw [Bool.eq_iff_iff, decide_eq_true_iff]
    exact Phase.firesAt_iff (by decide) hrate hroom x.2
  rw [hsame]
  rfl

theorem new_eq (rate : UInt32) (channels : Nat) (hrate : 0 < rate) (hchannels : 0 < channels) :
    ∃ fresh, new rate channels = .ok fresh ∧ fresh.inputRate = rate ∧ fresh.channels = channels ∧
      fresh.phase = 0 ∧ fresh.frame = [] :=
  ⟨_, dif_pos ⟨hrate, hchannels⟩, rfl, rfl, rfl, rfl⟩

/-- **What a microphone delivers**, in any pieces: the samples of the device frames at which the accumulator fires,
packed into frames. -/
theorem pushAll_spec {fresh : CaptureFrameAssembler} (hphase : fresh.phase = 0) (hframe : fresh.frame = [])
    (pieces : List (List F)) :
    ∃ frames assembler, fresh.pushAll toSample pieces = .ok (frames, assembler) ∧
      frames.flatMap frameSamples ++ assembler.frame = (Phase.gate 8000 fresh.inputRate.toNat phaseTop 0
        (pieces.flatMap (chunksExact fresh.channels))).1.map toSample ∧
      ∀ frame ∈ frames, frame.length = pcmFrameBytes ∧ encodePcmFrame (frameSamples frame) = .ok frame := by
  obtain ⟨frames, assembler, hpush, hpacks⟩ :=
    fresh.pushDeviceFrames_spec toSample (pieces.flatMap (chunksExact fresh.channels))
  rw [hphase] at hpacks
  refine ⟨frames, assembler, ?_, ?_, hpacks.whole⟩
  · rw [pushAll_eq, hpush]
  · rw [hpacks.packed, hframe, List.nil_append]
    rfl

theorem flatMap_frameSamples_length (frames : List Bytes) :
    (frames.flatMap frameSamples).length = 160 * frames.length := by
  induction frames with
  | nil => rfl
  | cons frame rest ih =>
    rw [List.flatMap_cons, List.length_append, frameSamples_length, ih, List.length_cons, pcmFrameSamples]
    omega

/-- The device frames of successive calls. -/
def deviceFrames (channels : Nat) (pieces : List (List F)) : Nat :=
  (pieces.map fun piece => piece.length / channels).sum

/-- As many frames come out as the accumulator fires, in batches of 160. -/
theorem pushAll_count {fresh : CaptureFrameAssembler} (hphase : fresh.phase = 0) (hframe : fresh.frame = [])
    (pieces : List (List F)) :
    ∃ frames assembler, fresh.pushAll toSample pieces = .ok (frames, assembler) ∧
      frames.length = Phase.fired 8000 fresh.inputRate.toNat phaseTop (deviceFrames fresh.channels pieces) / 160 := by
  obtain ⟨frames, assembler, hpush, hpacked, -⟩ := pushAll_spec toSample hphase hframe pieces
  refine ⟨frames, assembler, hpush, ?_⟩
  have hcount : (pieces.flatMap (chunksExact fresh.channels)).length = deviceFrames fresh.channels pieces := by
    rw [List.length_flatMap, deviceFrames]
    simp only [chunksExact_length]
  have hlen := congrArg List.length hpacked
  rw [List.length_append, flatMap_frameSamples_length, List.length_map, Phase.gate_length, hcount] at hlen
  have hshort : assembler.frame.length < 160 := assembler.short
  omega

end

/-- **Chunk invariance and exact selection.** At every input rate up to `2^32 - 8000`, every stream and every way
of cutting it into calls between device frames: the frames returned and the samples left over are those of one call
on the whole stream. They are, in order, the samples of the device frames that are due, in frames of 320 bytes that
encode 160 samples each, with fewer than 160 samples left over. -/
theorem capture_chunk_invariant {F : Type} (toSample : List F → Int16) (rate : UInt32) (channels : Nat)
    (hrate : 0 < rate) (hbound : rate.toNat ≤ 2 ^ 32 - 8000) (hchannels : 0 < channels) (pieces : List (List F))
    (hcut : ∀ piece ∈ pieces.dropLast, channels ∣ piece.length) :
    ∃ fresh frames assembler, new rate channels = .ok fresh ∧
      fresh.pushAll toSample pieces = .ok (frames, assembler) ∧
      fresh.pushInterleavedF32 toSample pieces.flatten = .ok (frames, assembler) ∧
      frames.flatMap frameSamples ++ assembler.frame =
        (dueFrames rate.toNat (chunksExact channels pieces.flatten)).map toSample ∧
      (∀ frame ∈ frames, frame.length = 320 ∧ encodePcmFrame (frameSamples frame) = .ok frame) ∧
      assembler.frame.length < 160 := by
  obtain ⟨fresh, hnew, hfreshRate, hfreshChannels, hphase, hframe⟩ := new_eq rate channels hrate hchannels
  obtain ⟨frames, assembler, hpush, hpacked, hwhole⟩ := pushAll_spec toSample hphase hframe pieces
  have hone : fresh.pushInterleavedF32 toSample pieces.flatten = fresh.pushAll toSample pieces := by
    rw [pushAll_eq, pushInterleavedF32, hfreshChannels, chunksExact_flatten hchannels pieces hcut]
  refine ⟨fresh, frames, assembler, hnew, hpush, hone.trans hpush, ?_, hwhole, assembler.short⟩
  rw [hpacked, hfreshRate, hfreshChannels, gate_eq_dueFrames (UInt32.lt_iff_toNat_lt.mp hrate) hbound,
    chunksExact_flatten hchannels pieces hcut]

/-- Stereo at 16 kHz, in two calls with the cut inside a frame: every other device frame is due, a frame of 160
samples is returned, and one sample is left over. -/
theorem capture_chunk_invariant_stereo : ∃ fresh frame assembler, new 16000 2 = .ok fresh ∧
    fresh.pushAll (fun deviceFrame : List Int16 => deviceFrame.headD 0)
      [List.replicate 400 1, List.replicate 244 2] = .ok ([frame], assembler) ∧
    fresh.pushInterleavedF32 (fun deviceFrame : List Int16 => deviceFrame.headD 0)
      [List.replicate 400 1, List.replicate 244 2].flatten = .ok ([frame], assembler) ∧
    frameSamples frame = List.replicate 100 1 ++ List.replicate 60 2 ∧ assembler.frame = [2] := by
  obtain ⟨fresh, frames, assembler, hnew, hpush, hone, hpacked, -, hshort⟩ :=
    capture_chunk_invariant (fun deviceFrame : List Int16 => deviceFrame.headD 0) 16000 2 (by decide) (by decide)
      (by decide) [List.replicate 400 1, List.replicate 244 2] (by decide +kernel)
  have hdue : frames.flatMap frameSamples ++ assembler.frame =
      (List.replicate 100 1 ++ List.replicate 60 2) ++ [2] := hpacked.trans (by decide +kernel)
  -- 161 samples are one frame and a rest
  have hlen := congrArg List.length hdue
  rw [List.length_append, flatMap_frameSamples_length] at hlen
  simp only [List.length_append, List.length_replicate, List.length_singleton] at hlen
  obtain ⟨frame, rfl⟩ := List.length_eq_one_iff.mp (show frames.length = 1 by omega)
  rw [List.flatMap_singleton] at hdue
  obtain ⟨hframe, hrest⟩ := List.append_inj hdue (by simp [pcmFrameSamples])
  exact ⟨fresh, frame, assembler, hnew, hpush, hone, hframe, hrest⟩

end CaptureFrameAssembler

end IncomUdon.Audio
