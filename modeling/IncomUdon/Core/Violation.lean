/-
# IncomUdon.Core.Violation — what `validate` refuses, and which error it gives.

`Acceptable` is the rule for a store in its own terms: bounds, and names that differ pairwise in whatever order.
`FirstViolation store e` is the rule for its error: the checks in their order, and within the list the lowest index
at fault, a profile's own fault before a collision of its name. Neither mentions the code. `validate` decides the
one and answers the other; the loop over the profiles is `scan` with `checkProfile`.
-/
import IncomUdon.Core.Profile
import IncomUdon.Lib.Scan

namespace IncomUdon.Core

open IncomUdon.Lib

/-! ## §1 — the rules -/

/-- A name of 1 to 64 characters, whitespace around it not counted. -/
def NameFits (p : TransceiverProfile) : Prop := 1 ≤ (trim p.name).length ∧ (trim p.name).length ≤ 64

/-- A bitrate is absent exactly for PCM, and not zero. -/
def BitrateFits (p : TransceiverProfile) : Prop := (p.bitrateBps = none ↔ p.codec = .pcm) ∧ p.bitrateBps ≠ some 0

/-- A profile without a fault of its own. -/
def Fits (p : TransceiverProfile) : Prop := NameFits p ∧ BitrateFits p

/-- **`OwnViolation p e`** — `e` is the error of the profile by itself. -/
inductive OwnViolation (p : TransceiverProfile) : ProfileError → Prop where
  | name (h : ¬ NameFits p) : OwnViolation p .invalidName
  | pcmBitrate (hname : NameFits p) (hcodec : p.codec = .pcm) (h : p.bitrateBps ≠ none) :
      OwnViolation p .pcmBitrateSet
  | missingBitrate (hname : NameFits p) (hcodec : p.codec ≠ .pcm) (h : p.bitrateBps = none ∨ p.bitrateBps = some 0) :
      OwnViolation p (.missingBitrate p.codec)

/-- The name of the profile at `i` is that of an earlier one. -/
def Collides (profiles : List TransceiverProfile) (i : Nat) (p : TransceiverProfile) : Prop :=
  ∃ j q, j < i ∧ profiles[j]? = some q ∧ SameName q p

/-- **`FaultAt profiles i e`** — the profile at `i` is at fault, with the error `e`. -/
inductive FaultAt (profiles : List TransceiverProfile) (i : Nat) : ProfileError → Prop where
  | own {p : TransceiverProfile} {e : ProfileError} (hp : profiles[i]? = some p) (h : OwnViolation p e) :
      FaultAt profiles i e
  | duplicate {p : TransceiverProfile} (hp : profiles[i]? = some p) (hfits : Fits p)
      (h : Collides profiles i p) : FaultAt profiles i (.duplicateName p.name)

/-- The lowest index at fault. -/
def ListViolation (profiles : List TransceiverProfile) (e : ProfileError) : Prop :=
  ∃ i, FaultAt profiles i e ∧ ∀ j < i, ∀ e', ¬ FaultAt profiles j e'

/-- **`FirstViolation store e`** — the checks in their order, up to the first that fails. -/
inductive FirstViolation (store : ProfileStore) : ProfileError → Prop where
  | version (h : store.version ≠ 1) : FirstViolation store (.unsupportedStoreVersion store.version)
  | host (hversion : store.version = 1) (h : Blank store.relay.host) : FirstViolation store .emptyRelayHost
  | port (hversion : store.version = 1) (hhost : ¬ Blank store.relay.host) (h : store.relay.port = 0) :
      FirstViolation store .invalidRelayPort
  | noProfiles (hversion : store.version = 1) (hhost : ¬ Blank store.relay.host) (hport : store.relay.port ≠ 0)
      (h : store.profiles = []) : FirstViolation store .missingProfiles
  | active (hversion : store.version = 1) (hhost : ¬ Blank store.relay.host) (hport : store.relay.port ≠ 0)
      (hprofiles : store.profiles ≠ []) (h : store.profiles.length ≤ store.activeProfile) :
      FirstViolation store (.invalidActiveProfile store.activeProfile store.profiles.length)
  | profiles {e : ProfileError} (hversion : store.version = 1) (hhost : ¬ Blank store.relay.host)
      (hport : store.relay.port ≠ 0) (hprofiles : store.profiles ≠ [])
      (hactive : store.activeProfile < store.profiles.length) (h : ListViolation store.profiles e) :
      FirstViolation store e

/-- No two profiles share a name, in whatever order they stand. -/
def Distinct (profiles : List TransceiverProfile) : Prop :=
  ∀ (i j : Nat) (p q : TransceiverProfile), i ≠ j → profiles[i]? = some p → profiles[j]? = some q → ¬ SameName p q

/-- **`Acceptable store`** — what a store has to be. -/
structure Acceptable (store : ProfileStore) : Prop where
  version : store.version = 1
  host : ¬ Blank store.relay.host
  port : store.relay.port ≠ 0
  profiles_ne : store.profiles ≠ []
  active_lt : store.activeProfile < store.profiles.length
  fits : ∀ p ∈ store.profiles, Fits p
  distinct : Distinct store.profiles

/-! ## §2 — one profile -/

theorem nameFits_iff {p : TransceiverProfile} :
    NameFits p ↔ ¬ ((trim p.name).isEmpty ∨ maxProfileNameLen < (trim p.name).length) := by
  rw [NameFits, not_or, List.isEmpty_iff, ← List.length_eq_zero_iff, maxProfileNameLen]
  omega

theorem validateProfile_of_name {p : TransceiverProfile} (hname : NameFits p) :
    validateProfile p = validateBitrate p.codec p.bitrateBps :=
  if_neg (nameFits_iff.mp hname)

theorem validateBitrate_some {codec : Codec} (h : codec ≠ .pcm) (value : UInt32) :
    validateBitrate codec (some value) = if 0 < value then .ok () else .error (.missingBitrate codec) := by
  cases codec with
  | pcm => exact absurd rfl h
  | opus | codec2 => rfl

theorem validateBitrate_none {codec : Codec} (h : codec ≠ .pcm) :
    validateBitrate codec none = .error (.missingBitrate codec) := by
  cases codec with
  | pcm => exact absurd rfl h
  | opus | codec2 => rfl

/-- The rule for a profile leaves no case out. -/
theorem fits_or_ownViolation (p : TransceiverProfile) : Fits p ∨ ∃ e, OwnViolation p e := by
  by_cases hname : NameFits p
  · by_cases hbitrate : BitrateFits p
    · exact .inl ⟨hname, hbitrate⟩
    · by_cases hcodec : p.codec = .pcm
      · refine .inr ⟨_, .pcmBitrate hname hcodec fun hnone => hbitrate ?_⟩
        simp [BitrateFits, hnone, hcodec]
      · refine .inr ⟨_, .missingBitrate hname hcodec ?_⟩
        by_contra hneither
        rw [not_or] at hneither
        exact hbitrate ⟨by simp [hneither.1, hcodec], hneither.2⟩
  · exact .inr ⟨_, .name hname⟩

theorem validateProfile_of_fits {p : TransceiverProfile} (h : Fits p) : validateProfile p = .ok () := by
  obtain ⟨hname, hnone, hzero⟩ := h
  rw [validateProfile_of_name hname]
  by_cases hcodec : p.codec = .pcm
  · rw [hcodec, hnone.mpr hcodec, validateBitrate]
  · obtain ⟨value, hvalue⟩ := Option.ne_none_iff_exists'.mp (mt hnone.mp hcodec)
    have hpos : 0 < value := UInt32.pos_iff_ne_zero.mpr fun h => hzero (by rw [hvalue, h])
    rw [hvalue, validateBitrate_some hcodec, if_pos hpos]

theorem validateProfile_of_ownViolation {p : TransceiverProfile} {e : ProfileError} (h : OwnViolation p e) :
    validateProfile p = .error e := by
  cases h with
  | name hname => exact if_pos (not_not.mp (mt nameFits_iff.mpr hname))
  | pcmBitrate hname hcodec hsome =>
    obtain ⟨value, hvalue⟩ := Option.ne_none_iff_exists'.mp hsome
    rw [validateProfile_of_name hname, hcodec, hvalue, validateBitrate]
  | missingBitrate hname hcodec hbad =>
    rw [validateProfile_of_name hname]
    rcases hbad with hnone | hzero
    · rw [hnone, validateBitrate_none hcodec]
    · rw [hzero, validateBitrate_some hcodec]
      rfl

/-- **`validate_profile` decides the rule for one profile.** -/
theorem validateProfile_decides (p : TransceiverProfile) : Decides (validateProfile p) (Fits p) (OwnViolation p) :=
  .of_cases (fits_or_ownViolation p) validateProfile_of_fits fun _ => validateProfile_of_ownViolation

/-! ## §3 — the list -/

/-- The body of the loop. -/
def checkProfile (previous : List TransceiverProfile) (profile : TransceiverProfile) : Except ProfileError Unit :=
  match validateProfile profile with
  | .error e => .error e
  | .ok () =>
    if previous.any fun p => eqIgnoreAsciiCase p.name profile.name then .error (.duplicateName profile.name)
    else .ok ()

theorem validateProfiles_eq_scan (rest : List TransceiverProfile) :
    ∀ previous, validateProfiles previous rest = scan checkProfile previous rest := by
  induction rest with
  | nil => exact fun previous => rfl
  | cons profile rest ih =>
    intro previous
    rw [validateProfiles, scan, checkProfile]
    cases validateProfile profile with
    | error e => rfl
    | ok u =>
      simp only
      split
      · rfl
      · exact ih _

theorem any_take_iff {profiles : List TransceiverProfile} {i : Nat} {p : TransceiverProfile} :
    ((profiles.take i).any fun q => eqIgnoreAsciiCase q.name p.name) = true ↔ Collides profiles i p := by
  rw [List.any_eq_true]
  constructor
  · rintro ⟨q, hq, hname⟩
    obtain ⟨j, hj⟩ := List.mem_iff_getElem?.mp hq
    rw [List.getElem?_take] at hj
    split at hj
    · rename_i hlt
      exact ⟨j, q, hlt, hj, hname⟩
    · cases hj
  · rintro ⟨j, q, hlt, hq, hname⟩
    refine ⟨q, List.mem_iff_getElem?.mpr ⟨j, ?_⟩, hname⟩
    rwa [List.getElem?_take_of_lt hlt]

/-- The body of the loop, at an index, fails as the rule says. -/
theorem fails_iff_faultAt {profiles : List TransceiverProfile} {i : Nat} {e : ProfileError} :
    Fails checkProfile profiles i e ↔ FaultAt profiles i e := by
  constructor
  · rintro ⟨p, hp, herror⟩
    unfold checkProfile at herror
    split at herror
    · rename_i e' hown
      obtain rfl := Except.error.inj herror
      exact .own hp (((validateProfile_decides p).error_iff e').mp hown)
    · rename_i hown
      split at herror
      · rename_i hany
        obtain rfl := Except.error.inj herror
        exact .duplicate hp ((validateProfile_decides p).ok_iff.mp hown) (any_take_iff.mp hany)
      · cases herror
  · intro h
    cases h with
    | @own p e hp hown =>
      refine ⟨p, hp, ?_⟩
      rw [checkProfile, validateProfile_of_ownViolation hown]
    | @duplicate p hp hfits hcollides =>
      refine ⟨p, hp, ?_⟩
      rw [checkProfile, validateProfile_of_fits hfits]
      exact if_pos (any_take_iff.mpr hcollides)

theorem validateProfiles_eq_error_iff {profiles : List TransceiverProfile} {e : ProfileError} :
    validateProfiles [] profiles = .error e ↔ ListViolation profiles e := by
  simp only [validateProfiles_eq_scan, scan_eq_error_iff, passes_iff, fails_iff_faultAt, ListViolation]

theorem validateProfiles_eq_ok_iff_no_fault {profiles : List TransceiverProfile} :
    validateProfiles [] profiles = .ok () ↔ ∀ i e, ¬ FaultAt profiles i e := by
  simp only [validateProfiles_eq_scan, scan_eq_ok_iff, passes_iff, fails_iff_faultAt]

/-- A list without a fault is what a store needs, and the other way round: a collision is one whichever of the two
names comes first. -/
theorem no_fault_iff {profiles : List TransceiverProfile} :
    (∀ i e, ¬ FaultAt profiles i e) ↔ (∀ p ∈ profiles, Fits p) ∧ Distinct profiles := by
  constructor
  · intro hno
    have hfits : ∀ p ∈ profiles, Fits p := by
      intro p hp
      obtain ⟨i, hi⟩ := List.mem_iff_getElem?.mp hp
      rcases fits_or_ownViolation p with hfits | ⟨e, hown⟩
      · exact hfits
      · exact absurd (.own hi hown) (hno i e)
    have hbefore : ∀ (i j : Nat) (p q : TransceiverProfile), i < j → profiles[i]? = some p → profiles[j]? = some q →
        ¬ SameName p q := by
      intro i j p q hlt hp hq hname
      exact hno j _ (.duplicate hq (hfits q (List.mem_of_getElem? hq)) ⟨i, p, hlt, hp, hname⟩)
    refine ⟨hfits, fun i j p q hne hp hq hname => ?_⟩
    rcases Nat.lt_or_gt_of_ne hne with hlt | hgt
    · exact hbefore i j p q hlt hp hq hname
    · exact hbefore j i q p hgt hq hp hname.symm
  · rintro ⟨hfits, hdistinct⟩ i e hfault
    cases hfault with
    | @own p e hp hown =>
      have hok := validateProfile_of_fits (hfits p (List.mem_of_getElem? hp))
      rw [validateProfile_of_ownViolation hown] at hok
      cases hok
    | @duplicate p hp _ hcollides =>
      obtain ⟨j, q, hlt, hq, hname⟩ := hcollides
      exact hdistinct j i q p (Nat.ne_of_lt hlt) hq hp hname

/-! ## §4 — the store -/

theorem validateRelayEndpoint_of_ok {relay : RelayEndpoint} (hhost : ¬ Blank relay.host) (hport : relay.port ≠ 0) :
    validateRelayEndpoint relay = .ok () := by
  rw [validateRelayEndpoint, if_neg (mt isEmpty_trim_iff.mp hhost), if_neg hport]

theorem validate_of_relay_error {store : ProfileStore} {e : ProfileError} (hversion : store.version = 1)
    (hrelay : validateRelayEndpoint store.relay = .error e) : store.validate = .error e := by
  have hversion' : ¬ store.version ≠ profileStoreVersion := not_not.mpr hversion
  rw [ProfileStore.validate, if_neg hversion', hrelay]

theorem validate_of_relay_ok {store : ProfileStore} (hversion : store.version = 1)
    (hrelay : validateRelayEndpoint store.relay = .ok ()) :
    store.validate =
      if store.profiles.isEmpty then .error .missingProfiles
      else if store.activeProfile ≥ store.profiles.length then
        .error (.invalidActiveProfile store.activeProfile store.profiles.length)
      else validateProfiles [] store.profiles := by
  have hversion' : ¬ store.version ≠ profileStoreVersion := not_not.mpr hversion
  rw [ProfileStore.validate, if_neg hversion', hrelay]

/-- The rule for a store leaves no case out. -/
theorem acceptable_or_firstViolation (store : ProfileStore) : Acceptable store ∨ ∃ e, FirstViolation store e := by
  by_cases hversion : store.version = 1
  case neg => exact .inr ⟨_, .version hversion⟩
  by_cases hhost : Blank store.relay.host
  case pos => exact .inr ⟨_, .host hversion hhost⟩
  by_cases hport : store.relay.port = 0
  case pos => exact .inr ⟨_, .port hversion hhost hport⟩
  by_cases hprofiles : store.profiles = []
  case pos => exact .inr ⟨_, .noProfiles hversion hhost hport hprofiles⟩
  by_cases hactive : store.activeProfile < store.profiles.length
  case neg => exact .inr ⟨_, .active hversion hhost hport hprofiles (Nat.not_lt.mp hactive)⟩
  cases hlist : validateProfiles [] store.profiles with
  | error e =>
    exact .inr ⟨e, .profiles hversion hhost hport hprofiles hactive (validateProfiles_eq_error_iff.mp hlist)⟩
  | ok u =>
    obtain ⟨hfits, hdistinct⟩ := no_fault_iff.mp (validateProfiles_eq_ok_iff_no_fault.mp hlist)
    exact .inl ⟨hversion, hhost, hport, hprofiles, hactive, hfits, hdistinct⟩

/-- Past the checks in front of it, `validate` is the loop. -/
theorem validate_eq_loop {store : ProfileStore} (hversion : store.version = 1) (hhost : ¬ Blank store.relay.host)
    (hport : store.relay.port ≠ 0) (hprofiles : store.profiles ≠ [])
    (hactive : store.activeProfile < store.profiles.length) :
    store.validate = validateProfiles [] store.profiles := by
  rw [validate_of_relay_ok hversion (validateRelayEndpoint_of_ok hhost hport),
    if_neg (mt List.isEmpty_iff.mp hprofiles), if_neg (Nat.not_le.mpr hactive)]

theorem validate_of_acceptable {store : ProfileStore} (h : Acceptable store) : store.validate = .ok () := by
  rw [validate_eq_loop h.version h.host h.port h.profiles_ne h.active_lt]
  exact validateProfiles_eq_ok_iff_no_fault.mpr (no_fault_iff.mpr ⟨h.fits, h.distinct⟩)

theorem validate_of_firstViolation {store : ProfileStore} {e : ProfileError} (h : FirstViolation store e) :
    store.validate = .error e := by
  cases h with
  | version h => exact if_pos h
  | host hversion h => exact validate_of_relay_error hversion (if_pos (isEmpty_trim_iff.mpr h))
  | port hversion hhost h =>
    apply validate_of_relay_error hversion
    rw [validateRelayEndpoint, if_neg (mt isEmpty_trim_iff.mp hhost), if_pos h]
  | noProfiles hversion hhost hport h =>
    rw [validate_of_relay_ok hversion (validateRelayEndpoint_of_ok hhost hport), if_pos (List.isEmpty_iff.mpr h)]
  | active hversion hhost hport hprofiles h =>
    rw [validate_of_relay_ok hversion (validateRelayEndpoint_of_ok hhost hport),
      if_neg (mt List.isEmpty_iff.mp hprofiles), if_pos h]
  | profiles hversion hhost hport hprofiles hactive h =>
    rw [validate_eq_loop hversion hhost hport hprofiles hactive]
    exact validateProfiles_eq_error_iff.mpr h

/-- **`validate` decides the rule for a store.** -/
theorem validate_decides (store : ProfileStore) :
    Decides store.validate (Acceptable store) (FirstViolation store) :=
  .of_cases (acceptable_or_firstViolation store) validate_of_acceptable fun _ => validate_of_firstViolation

/-- The invariant of stores, `Valid`, is the rule. -/
theorem ProfileStore.valid_iff_acceptable {store : ProfileStore} : store.Valid ↔ Acceptable store :=
  ProfileStore.validate_eq_ok_iff.symm.trans (validate_decides store).ok_iff

/-- **Validation is sound and complete, and the error is that of the first violation.** -/
theorem validate_decides_first_violation (store : ProfileStore) :
    (store.validate = .ok () ↔ Acceptable store) ∧
      ∀ e : ProfileError, store.validate = .error e ↔ FirstViolation store e :=
  ⟨(validate_decides store).ok_iff, (validate_decides store).error_iff⟩

end IncomUdon.Core
