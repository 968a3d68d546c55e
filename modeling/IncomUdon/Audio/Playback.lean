/-
# IncomUdon.Audio.Playback — PCM frames as samples, and the bounded playback buffer.

A translation of `encode_pcm_frame`, `decode_pcm_frame` and `PlaybackBuffer` of the `incomudon-audio` crate.
A PCM frame is 160 signed 16-bit samples, little-endian, 320 bytes. The buffer carries its bounds as fields:
it never holds more samples than its capacity, its capacity is at least one frame, so a push can drop old samples
only, never part of the frame it appends, and it fits in memory, so the sum of lengths never saturates.
-/
import IncomUdon.Lib.Text
import Mathlib.Data.List.GetD

namespace IncomUdon.Audio

open IncomUdon.Lib

/-- `PCM_FRAME_SAMPLES`: 20 ms. -/
def pcmFrameSamples : Nat := 160

/-- `PCM_FRAME_BYTES`. -/
def pcmFrameBytes : Nat := pcmFrameSamples * 2

/-! ## Frames -/

/-- `i16::to_le_bytes`. -/
def le16 (sample : Int16) : Bytes := (be16 sample.toUInt16).reverse

/-- `i16::from_le_bytes`. -/
def ofLe16 (low high : UInt8) : Int16 := (ofBe16 [high, low]).toInt16

/-- The `for` loop of `encode_pcm_frame`, behind its length assertion. -/
def encodePcmFrame (samples : List Int16) : Outcome Empty Bytes :=
  if samples.length = pcmFrameSamples then .ok (samples.flatMap le16) else .panicked

/-- `None` for every length but that of a frame. -/
def decodePcmFrame (bytes : Bytes) : Option (List Int16) :=
  if bytes.length ≠ pcmFrameBytes then none
  else some ((asChunks2 bytes).1.map fun sample => ofLe16 sample.1 sample.2)

@[simp] theorem le16_length (sample : Int16) : (le16 sample).length = 2 := by
  rw [le16, List.length_reverse, be16_length]

/-- A sample's two bytes, low byte first, read back as the sample. -/
theorem le16_pair (sample : Int16) :
    ∃ low high, le16 sample = [low, high] ∧ ofLe16 low high = sample := by
  obtain ⟨high, low, hpair⟩ := List.length_eq_two.mp (be16_length sample.toUInt16)
  refine ⟨low, high, ?_, ?_⟩
  · rw [le16, hpair]
    rfl
  · rw [ofLe16, ← hpair, ofBe16_be16]
    rfl

/-- Decoding the pairs of a joined sample list. -/
theorem asChunks2_flatMap_le16 (samples : List Int16) :
    (asChunks2 (samples.flatMap le16)).1.map (fun sample => ofLe16 sample.1 sample.2) = samples := by
  induction samples with
  | nil => rfl
  | cons sample rest ih =>
    obtain ⟨low, high, hbytes, hback⟩ := le16_pair sample
    rw [List.flatMap_cons, hbytes]
    show ofLe16 low high :: (asChunks2 (rest.flatMap le16)).1.map _ = _
    rw [hback, ih]

theorem flatMap_le16_length (samples : List Int16) :
    (samples.flatMap le16).length = 2 * samples.length := by
  induction samples with
  | nil => rfl
  | cons sample rest ih =>
    rw [List.flatMap_cons, List.length_append, le16_length, ih, List.length_cons]
    omega

/-- The pairs of an even byte string: pair `i` holds the bytes `2i` and `2i + 1`. -/
theorem asChunks2_spec (n : Nat) :
    ∀ b : Bytes, b.length = n * 2 → (asChunks2 b).1.length = n ∧
      ∀ i < n, (asChunks2 b).1.getD i (0, 0) = (b.getD (2 * i) 0, b.getD (2 * i + 1) 0) := by
  induction n with
  | zero =>
    intro b hb
    obtain rfl := List.length_eq_zero_iff.mp (by omega : b.length = 0)
    exact ⟨rfl, fun i hi => absurd hi (Nat.not_lt_zero i)⟩
  | succ n ih =>
    intro b hb
    rcases b with _ | ⟨low, _ | ⟨high, rest⟩⟩
    · simp at hb
    · simp only [List.length_cons, List.length_nil] at hb
      omega
    · obtain ⟨hlen, hget⟩ := ih rest (by simp only [List.length_cons] at hb; omega)
      refine ⟨by rw [asChunks2, List.length_cons, hlen], ?_⟩
      intro i hi
      cases i with
      | zero => rfl
      | succ i =>
        show (asChunks2 rest).1.getD i (0, 0) = _
        rw [hget i (by omega)]
        rfl

/-- The 160 samples of a frame: sample `i` is spelled, low byte first, by the bytes `2i` and `2i + 1`. -/
def frameSamples (frame : Bytes) : List Int16 :=
  (List.range pcmFrameSamples).map fun i => ofLe16 (frame.getD (2 * i) 0) (frame.getD (2 * i + 1) 0)

@[simp] theorem frameSamples_length (frame : Bytes) : (frameSamples frame).length = pcmFrameSamples := by
  rw [frameSamples, List.length_map, List.length_range]

/-- **A 320-byte frame decodes to its 160 little-endian samples.** -/
theorem decodePcmFrame_of_length {frame : Bytes} (h : frame.length = pcmFrameBytes) :
    decodePcmFrame frame = some (frameSamples frame) := by
  obtain ⟨hlen, hget⟩ := asChunks2_spec pcmFrameSamples frame h
  rw [decodePcmFrame, if_neg (not_not.mpr h), frameSamples]
  apply congrArg some
  apply List.ext_getElem
  · rw [List.length_map, List.length_map, List.length_range, hlen]
  · intro i hi _
    rw [List.length_map, hlen] at hi
    have hpair := hget i hi
    rw [List.getD_eq_getElem _ _ (by rw [hlen]; exact hi)] at hpair
    rw [List.getElem_map, List.getElem_map, List.getElem_range, hpair]

theorem encodePcmFrame_of_length {samples : List Int16} (h : samples.length = pcmFrameSamples) :
    encodePcmFrame samples = .ok (samples.flatMap le16) :=
  if_pos h

/-- **What the microphone side encodes, the playback side decodes.** -/
theorem frameSamples_encodePcmFrame {samples : List Int16} {frame : Bytes}
    (h : encodePcmFrame samples = .ok frame) :
    frame.length = pcmFrameBytes ∧ frameSamples frame = samples := by
  unfold encodePcmFrame at h
  split at h
  · rename_i hlen
    obtain rfl := Outcome.ok.inj h
    have hbytes : (samples.flatMap le16).length = pcmFrameBytes := by
      rw [flatMap_le16_length, hlen]
      rfl
    -- the frame decodes to the samples, and decoding is reading the samples of the frame
    have hdec : decodePcmFrame (samples.flatMap le16) = some samples := by
      rw [decodePcmFrame, if_neg (not_not.mpr hbytes), asChunks2_flatMap_le16]
    rw [decodePcmFrame_of_length hbytes, Option.some.injEq] at hdec
    exact ⟨hbytes, hdec⟩
  · cases h

/-! ## The playback buffer -/

/-- The samples that wait for the output device, oldest first. -/
structure PlaybackBuffer where
  samples : List Int16
  capacitySamples : Nat
  /-- `+=` on a `u64`, which wraps; a build with overflow checks panics instead, behind `2^64` dropped samples. -/
  droppedSamples : UInt64
  /-- The buffer never exceeds its capacity. -/
  fits : samples.length ≤ capacitySamples
  /-- `assert!(frame_capacity > 0)`: one frame always fits. -/
  room : pcmFrameSamples ≤ capacitySamples
  /-- `VecDeque::with_capacity` did not panic. -/
  allocated : Allocates capacitySamples 2
  deriving DecidableEq, Repr

namespace PlaybackBuffer

/-- The assertion and the allocation may panic; so does a product past `usize::MAX` here, as in a build with overflow
checks (another build wraps it). -/
def new (frameCapacity : Nat) : Outcome Empty PlaybackBuffer :=
  if h : 0 < frameCapacity ∧ Allocates (frameCapacity * pcmFrameSamples) 2 then
    .ok
      { samples := []
        capacitySamples := frameCapacity * pcmFrameSamples
        droppedSamples := 0
        fits := Nat.zero_le _
        room := Nat.le_mul_of_pos_left _ h.1
        allocated := h.2 }
  else .panicked

/-- How many of the oldest samples have to go before `incoming` more fit. -/
def overflow (buffer : PlaybackBuffer) (incoming : Nat) : Nat :=
  saturatingAddUsize buffer.samples.length incoming - buffer.capacitySamples

/-- What waits and what comes fit in memory, so the sum does not saturate. -/
theorem overflow_eq (buffer : PlaybackBuffer) {incoming : Nat} (h : incoming ≤ buffer.capacitySamples) :
    buffer.overflow incoming = buffer.samples.length + incoming - buffer.capacitySamples := by
  have hfits := buffer.fits
  have hbytes := buffer.allocated.2
  have hsum : buffer.samples.length + incoming ≤ usizeMax := by
    rw [isizeMax] at hbytes
    rw [usizeMax]
    omega
  rw [overflow, saturatingAddUsize, Nat.min_eq_left hsum]

/-- The buffer behind its front: `pop_front` as often as samples overflow, then `extend`. -/
def extend (buffer : PlaybackBuffer) (samples : List Int16)
    (h : samples.length ≤ buffer.capacitySamples) : PlaybackBuffer where
  samples := buffer.samples.drop (buffer.overflow samples.length) ++ samples
  capacitySamples := buffer.capacitySamples
  droppedSamples := buffer.droppedSamples + UInt64.ofNat (buffer.overflow samples.length)
  fits := by
    rw [List.length_append, List.length_drop, buffer.overflow_eq h]
    omega
  room := buffer.room
  allocated := buffer.allocated

theorem decodePcmFrame_fits (buffer : PlaybackBuffer) {frame : Bytes} {samples : List Int16}
    (h : decodePcmFrame frame = some samples) : samples.length ≤ buffer.capacitySamples := by
  have hframe : frame.length = pcmFrameBytes := by
    by_contra hne
    rw [decodePcmFrame, if_pos hne] at h
    cases h
  rw [decodePcmFrame_of_length hframe, Option.some.injEq] at h
  rw [← h, frameSamples_length]
  exact buffer.room

/-- Whether the slice was a frame, and the buffer behind it. -/
def pushPcmFrame (buffer : PlaybackBuffer) (frame : Bytes) : Bool × PlaybackBuffer :=
  match h : decodePcmFrame frame with
  | none => (false, buffer)
  | some samples => (true, buffer.extend samples (buffer.decodePcmFrame_fits h))

/-- `pop_front`. -/
def popSample (buffer : PlaybackBuffer) : Option Int16 × PlaybackBuffer :=
  match h : buffer.samples with
  | [] => (none, buffer)
  | sample :: rest =>
    (some sample, { buffer with
      samples := rest
      fits := Nat.le_trans (Nat.le_succ _) (by have := buffer.fits; rwa [h] at this) })

/-- **An accepted push** drops from the front only what overflows and appends the samples of the frame. -/
theorem pushPcmFrame_of_length (buffer : PlaybackBuffer) {frame : Bytes}
    (h : frame.length = pcmFrameBytes) :
    (buffer.pushPcmFrame frame).1 = true ∧
      (buffer.pushPcmFrame frame).2.samples =
        buffer.samples.drop (buffer.overflow pcmFrameSamples) ++ frameSamples frame := by
  unfold pushPcmFrame
  split
  · rename_i hnone
    rw [decodePcmFrame_of_length h] at hnone
    cases hnone
  · rename_i samples hsome
    rw [decodePcmFrame_of_length h, Option.some.injEq] at hsome
    subst hsome
    refine ⟨rfl, ?_⟩
    show buffer.samples.drop (buffer.overflow (frameSamples frame).length) ++ _ = _
    rw [frameSamples_length]

end PlaybackBuffer

end IncomUdon.Audio
