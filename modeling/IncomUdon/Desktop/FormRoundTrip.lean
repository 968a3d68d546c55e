/-
# IncomUdon.Desktop.FormRoundTrip — a profile shown in the form and read back.

`apply_profile_to_window` writes the identifiers as decimal text, the bitrate as an `i32` and the codec as an index;
`profile_from_window` reads them with a reader of its own. The form has no property for the encryption, so the reader
puts AES-GCM v2, and a bitrate past `i32::MAX` shows as a negative number, which the reader takes for none. Every
other field of a valid profile comes back as it was.
-/
import IncomUdon.Core.Violation
import IncomUdon.Desktop.Window
import IncomUdon.Lib.Numerals

namespace IncomUdon.Desktop

open IncomUdon.Lib
open IncomUdon.Core

/-! ## §1 — the fields that change their type -/

@[simp] theorem codecFromIndex_codecToIndex (codec : Codec) : codecFromIndex (codecToIndex codec) = .ok codec := by
  cases codec <;> rfl

/-- A `u32` cast to `i32` converts back exactly if the cast kept its sign. -/
theorem u32TryFrom_toInt32 (value : UInt32) :
    u32TryFrom value.toInt32 = if value ≤ 0x7fffffff then some value else none := by
  have hback : value.toInt32.toUInt32 = value := rfl
  have hint : value.toInt32.toInt = value.toBitVec.toInt := rfl
  have hnat : value.toBitVec.toNat = value.toNat := rfl
  have hsign : 0 ≤ value.toInt32 ↔ value ≤ 0x7fffffff := by
    have hlt := value.toNat_lt
    rw [Int32.le_iff_toInt_le, UInt32.le_iff_toNat_le, hint, BitVec.toInt_eq_toNat_cond, hnat]
    simp only [Int32.toInt_zero, UInt32.reduceToNat]
    split <;> omega
  rw [u32TryFrom, hback]
  simp only [hsign]

/-- The bitrate the reader makes of the one the form was given. -/
def bitrateBack (p : TransceiverProfile) : Option UInt32 :=
  if p.codec = .pcm then none
  else (u32TryFrom (p.bitrateBps.getD 0).toInt32).filter fun value => 0 < value

/-- The form shows the bitrate as it is: there is none, or `i32` holds it. -/
def BitrateShown (p : TransceiverProfile) : Prop := ∀ value ∈ p.bitrateBps, value ≤ 0x7fffffff

instance (p : TransceiverProfile) : Decidable (BitrateShown p) :=
  Option.decidableForallMem p.bitrateBps

theorem bitrateBack_of_shown {p : TransceiverProfile} (hfits : BitrateFits p) (h : BitrateShown p) :
    bitrateBack p = p.bitrateBps := by
  obtain ⟨hnone, hzero⟩ := hfits
  by_cases hcodec : p.codec = .pcm
  · rw [bitrateBack, if_pos hcodec, hnone.mpr hcodec]
  · obtain ⟨value, hvalue⟩ := Option.ne_none_iff_exists'.mp (mt hnone.mp hcodec)
    have hpos : 0 < value := UInt32.pos_iff_ne_zero.mpr fun h => hzero (by rw [hvalue, h])
    rw [bitrateBack, if_neg hcodec, hvalue, Option.getD_some, u32TryFrom_toInt32, if_pos (h value hvalue),
      Option.filter_some, if_pos (decide_eq_true hpos)]

/-- A bitrate the form cannot show is read back as none. -/
theorem bitrateBack_of_not_shown {p : TransceiverProfile} (h : ¬ BitrateShown p) : bitrateBack p = none := by
  rw [BitrateShown] at h
  push Not at h
  obtain ⟨value, hvalue, hlarge⟩ := h
  rw [bitrateBack, hvalue, Option.getD_some, u32TryFrom_toInt32, if_neg hlarge, Option.filter_none,
    ite_self]

/-! ## §2 — the profile -/

/-- The reader gets back the profile with the two fields changed, and checks that. -/
theorem profileFromWindow_apply (window : AppWindow) {p : TransceiverProfile} (hname : trim p.name = p.name) :
    profileFromWindow (applyProfileToWindow window p) =
      (do
        (validateProfile { p with bitrateBps := bitrateBack p, encryption := .aesGcmV2 }).mapError
          ProfileError.toString
        return { p with bitrateBps := bitrateBack p, encryption := .aesGcmV2 }) := by
  rw [profileFromWindow, applyProfileToWindow]
  simp only [parseU32_u32ToString, Option.elim_some, codecFromIndex_codecToIndex, hname]
  rfl

theorem profileFromWindow_apply_of_shown (window : AppWindow) {p : TransceiverProfile}
    (hvalid : validateProfile p = .ok ()) (hname : trim p.name = p.name) (h : BitrateShown p) :
    profileFromWindow (applyProfileToWindow window p) = .ok { p with encryption := .aesGcmV2 } := by
  have hfits : Fits p := (validateProfile_decides p).ok_iff.mp hvalid
  -- validation does not look at the encryption
  have hback : validateProfile { p with encryption := .aesGcmV2 } = .ok () := hvalid
  rw [profileFromWindow_apply window hname, bitrateBack_of_shown hfits.2 h, hback]
  rfl

theorem profileFromWindow_apply_of_not_shown (window : AppWindow) {p : TransceiverProfile}
    (hvalid : validateProfile p = .ok ()) (hname : trim p.name = p.name) (h : ¬ BitrateShown p) :
    profileFromWindow (applyProfileToWindow window p) = .error (ProfileError.missingBitrate p.codec).toString := by
  obtain ⟨hfits, hnone, -⟩ := (validateProfile_decides p).ok_iff.mp hvalid
  -- only a profile with a bitrate is not shown, so its codec needs one
  have hcodec : p.codec ≠ .pcm := by
    intro hpcm
    apply h
    rw [BitrateShown, hnone.mpr hpcm]
    exact fun value hvalue => nomatch hvalue
  have hrefused : validateProfile { p with bitrateBps := none, encryption := .aesGcmV2 } =
      .error (.missingBitrate p.codec) :=
    validateProfile_of_ownViolation
      (p := { p with bitrateBps := none, encryption := .aesGcmV2 }) (.missingBitrate hfits hcodec (.inl rfl))
  rw [profileFromWindow_apply window hname, bitrateBack_of_not_shown h, hrefused]
  rfl

/-- **`SurvivesForm p`** — the encryption is the one the reader puts, and the form shows the bitrate. -/
def SurvivesForm (p : TransceiverProfile) : Prop := p.encryption = .aesGcmV2 ∧ BitrateShown p

/-- **An unedited profile.** A valid profile without whitespace around its name, shown in the form and read back,
is itself exactly when it survives the form. With a bitrate the form shows it comes back with AES-GCM v2 and every
other field as it was; without, it is refused for a missing bitrate. -/
theorem form_round_trip_iff (window : AppWindow) (p : TransceiverProfile) (hvalid : validateProfile p = .ok ())
    (hname : trim p.name = p.name) :
    (profileFromWindow (applyProfileToWindow window p) = .ok p ↔ SurvivesForm p) ∧
    (BitrateShown p →
      profileFromWindow (applyProfileToWindow window p) = .ok { p with encryption := .aesGcmV2 }) ∧
    (¬ BitrateShown p →
      profileFromWindow (applyProfileToWindow window p) = .error (ProfileError.missingBitrate p.codec).toString) := by
  refine ⟨?_, profileFromWindow_apply_of_shown window hvalid hname,
    profileFromWindow_apply_of_not_shown window hvalid hname⟩
  by_cases h : BitrateShown p
  · rw [profileFromWindow_apply_of_shown window hvalid hname h]
    constructor
    · intro heq
      have hencryption := congrArg TransceiverProfile.encryption (Except.ok.inj heq)
      exact ⟨hencryption.symm, h⟩
    · rintro ⟨hencryption, -⟩
      rw [← hencryption]
  · rw [profileFromWindow_apply_of_not_shown window hvalid hname h]
    exact ⟨fun heq => (nomatch heq), fun hsurvives => absurd hsurvives.2 h⟩

/-- **Two valid profiles that do not come back.** One without encryption returns with AES-GCM v2, one with a bitrate
past `i32::MAX` is refused. -/
theorem form_changes_profiles :
    let plain := { TransceiverProfile.default with encryption := .none }
    let fast := { TransceiverProfile.default with bitrateBps := some 3000000000 }
    (validateProfile plain = .ok () ∧ trim plain.name = plain.name ∧
      profileFromWindow (applyProfileToWindow AppWindow.new plain) = .ok TransceiverProfile.default ∧
      plain ≠ TransceiverProfile.default) ∧
    (validateProfile fast = .ok () ∧ trim fast.name = fast.name ∧
      profileFromWindow (applyProfileToWindow AppWindow.new fast) =
        .error "codec Opus requires a non-zero bitrate") := by
  decide +kernel

/-- A profile that differs from the default one in every field. -/
def patrolProfile : TransceiverProfile where
  name := "Patrol 7".toList
  channelId := 4000000000
  senderId := 17
  codec := .codec2
  bitrateBps := some 3200
  encryption := .none
  receiveOnly := true
  muteSelfId := false

/-- Shown in a form that held the default profile, it comes back with AES-GCM v2; in that mode it survives. -/
theorem form_round_trip_iff_patrol :
    let window := applyProfileToWindow AppWindow.new TransceiverProfile.default
    let encrypted := { patrolProfile with encryption := .aesGcmV2 }
    profileFromWindow (applyProfileToWindow window patrolProfile) = .ok encrypted ∧
      profileFromWindow (applyProfileToWindow window patrolProfile) ≠ .ok patrolProfile ∧
      profileFromWindow (applyProfileToWindow window encrypted) = .ok encrypted := by
  intro window encrypted
  obtain ⟨hplain, hshown, -⟩ := form_round_trip_iff window patrolProfile (by decide) (by decide)
  refine ⟨hshown (by decide), ?_, ?_⟩
  · rw [Ne, hplain]
    rintro ⟨hencryption, -⟩
    cases hencryption
  · exact (form_round_trip_iff window encrypted (by decide) (by decide)).1.mpr ⟨rfl, by decide⟩

end IncomUdon.Desktop
