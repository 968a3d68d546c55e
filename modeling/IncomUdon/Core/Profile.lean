/-
# IncomUdon.Core.Profile — profiles, relay endpoints, and the store that holds them.

A translation of the `incomudon-core` crate. `validate` checks a whole store and reports the first violation;
`ProfileStore.Valid` says what it checks, as a structure of facts. The two are tied by `validate_eq_ok_iff`,
so the invariant of a store is a proposition with named parts and not the success of a loop.

`replaceActive` and `replaceRelay` take `&mut self`: they return the result and the store they leave behind,
also when the result is an error.
-/
import IncomUdon.Lib.Text
import Mathlib.Data.List.Pairwise

namespace IncomUdon.Core

open IncomUdon.Lib

/-! ## The data -/

/-- `PROFILE_STORE_VERSION`. -/
def profileStoreVersion : UInt32 := 1
/-- `MAX_PROFILE_NAME_LEN`, in characters. -/
def maxProfileNameLen : Nat := 64

/-- The audio codecs a profile can name. -/
inductive Codec where
  | opus | codec2 | pcm
  deriving DecidableEq, Repr

/-- The `Debug` text of a codec. -/
def Codec.debug : Codec → String
  | .opus => "Opus"
  | .codec2 => "Codec2"
  | .pcm => "Pcm"

/-- The encryption modes a profile can name. -/
inductive EncryptionMode where
  | aesGcmV2 | aesGcmV1 | none
  deriving DecidableEq, Repr

/-- What a station is on the air: its name, its channel and sender, and how it codes and encrypts. -/
structure TransceiverProfile where
  name : Str
  channelId : UInt32
  senderId : UInt32
  codec : Codec
  bitrateBps : Option UInt32
  encryption : EncryptionMode
  receiveOnly : Bool
  muteSelfId : Bool
  deriving DecidableEq, Repr

/-- `TransceiverProfile::default`. -/
def TransceiverProfile.default : TransceiverProfile where
  name := "Default".toList
  channelId := 0
  senderId := 0
  codec := .opus
  bitrateBps := some 16000
  encryption := .aesGcmV2
  receiveOnly := false
  muteSelfId := true

/-- Where the relay is. -/
structure RelayEndpoint where
  host : Str
  port : UInt16
  forceIpv4 : Bool
  deriving DecidableEq, Repr

/-- `RelayEndpoint::default`. -/
def RelayEndpoint.default : RelayEndpoint where
  host := "127.0.0.1".toList
  port := 50000
  forceIpv4 := false

/-- What the application keeps on the disk: the relay, the profiles, and which of them is active. -/
structure ProfileStore where
  version : UInt32
  activeProfile : Nat
  relay : RelayEndpoint
  profiles : List TransceiverProfile
  deriving DecidableEq, Repr

/-- `ProfileStore::default`: one profile, the default one. -/
def ProfileStore.default : ProfileStore where
  version := profileStoreVersion
  activeProfile := 0
  relay := RelayEndpoint.default
  profiles := [TransceiverProfile.default]

/-! ## Validation -/

/-- What `validate` and the edits of a store refuse. -/
inductive ProfileError where
  | unsupportedStoreVersion (version : UInt32)
  | missingProfiles
  | invalidActiveProfile (active len : Nat)
  | invalidName
  | duplicateName (name : Str)
  | missingBitrate (codec : Codec)
  | pcmBitrateSet
  | emptyRelayHost
  | invalidRelayPort
  deriving DecidableEq, Repr

/-- The `Display` text of each error. -/
def ProfileError.toString : ProfileError → String
  | .unsupportedStoreVersion version => s!"unsupported profile store version {version.toNat}"
  | .missingProfiles => "at least one profile is required"
  | .invalidActiveProfile active len => s!"active profile index {active} is outside {len} profiles"
  | .invalidName => s!"profile name must be between 1 and {maxProfileNameLen} characters"
  | .duplicateName name => s!"profile name '{String.ofList name}' is duplicated"
  | .missingBitrate codec => s!"codec {codec.debug} requires a non-zero bitrate"
  | .pcmBitrateSet => "PCM profiles must not define a bitrate"
  | .emptyRelayHost => "relay host must not be empty"
  | .invalidRelayPort => "relay port must be between 1 and 65535"

/-- `validate_relay_endpoint`: there is a host, and the port is not zero. -/
def validateRelayEndpoint (endpoint : RelayEndpoint) : Except ProfileError Unit :=
  if (trim endpoint.host).isEmpty then .error .emptyRelayHost
  else if endpoint.port = 0 then .error .invalidRelayPort
  else .ok ()

/-- The `match` on codec and bitrate. -/
def validateBitrate (codec : Codec) (bitrateBps : Option UInt32) : Except ProfileError Unit :=
  match codec, bitrateBps with
  | .pcm, some _ => .error .pcmBitrateSet
  | .pcm, none => .ok ()
  | codec, some value => if 0 < value then .ok () else .error (.missingBitrate codec)
  | codec, none => .error (.missingBitrate codec)

/-- `validate_profile`: the trimmed name has 1 to 64 characters, and the bitrate fits the codec. -/
def validateProfile (profile : TransceiverProfile) : Except ProfileError Unit :=
  let name := trim profile.name
  if name.isEmpty ∨ maxProfileNameLen < name.length then .error .invalidName
  else validateBitrate profile.codec profile.bitrateBps

/-- The loop over the profiles: `previous` are the ones before the current one. -/
def validateProfiles (previous : List TransceiverProfile) :
    List TransceiverProfile → Except ProfileError Unit
  | [] => .ok ()
  | profile :: rest =>
    match validateProfile profile with
    | .error e => .error e
    | .ok () =>
      if previous.any fun p => eqIgnoreAsciiCase p.name profile.name then
        .error (.duplicateName profile.name)
      else validateProfiles (previous ++ [profile]) rest

namespace ProfileStore

/-- `validate`: the version, the relay, the active profile, and then the profiles one by one. -/
def validate (store : ProfileStore) : Except ProfileError Unit :=
  if store.version ≠ profileStoreVersion then .error (.unsupportedStoreVersion store.version)
  else
    match validateRelayEndpoint store.relay with
    | .error e => .error e
    | .ok () =>
      if store.profiles.isEmpty then .error .missingProfiles
      else if store.activeProfile ≥ store.profiles.length then
        .error (.invalidActiveProfile store.activeProfile store.profiles.length)
      else validateProfiles [] store.profiles

/-- `active()`: an index, so out of range it panics. -/
def active (store : ProfileStore) : Outcome Empty TransceiverProfile :=
  index store.profiles store.activeProfile

/-- `replace_relay`: the relay is checked by itself, written, and only then the store is validated. -/
def replaceRelay (store : ProfileStore) (relay : RelayEndpoint) :
    Outcome ProfileError Unit × ProfileStore :=
  match validateRelayEndpoint relay with
  | .error e => (.err e, store)
  | .ok () =>
    let store := { store with relay }
    (Outcome.ofExcept store.validate, store)

/-- `replace_active`: the profile is checked by itself, written, and only then the store is validated. The index
panics where there is no active profile. -/
def replaceActive (store : ProfileStore) (profile : TransceiverProfile) :
    Outcome ProfileError Unit × ProfileStore :=
  match validateProfile profile with
  | .error e => (.err e, store)
  | .ok () =>
    if store.activeProfile < store.profiles.length then
      let store := { store with profiles := store.profiles.set store.activeProfile profile }
      (Outcome.ofExcept store.validate, store)
    else (.panicked, store)

end ProfileStore

/-! ## What validation accepts -/

/-- Two profiles whose names differ at most in ASCII case. -/
def SameName (p q : TransceiverProfile) : Prop := eqIgnoreAsciiCase p.name q.name = true

instance (p q : TransceiverProfile) : Decidable (SameName p q) := inferInstanceAs (Decidable (_ = true))

theorem SameName.symm {p q : TransceiverProfile} (h : SameName p q) : SameName q p := by
  rw [SameName, eqIgnoreAsciiCase_comm]
  exact h

/-- What `validate` asks of a store, part by part. -/
structure ProfileStore.Valid (store : ProfileStore) : Prop where
  version : store.version = profileStoreVersion
  relay : validateRelayEndpoint store.relay = .ok ()
  active_lt : store.activeProfile < store.profiles.length
  profiles : ∀ p ∈ store.profiles, validateProfile p = .ok ()
  names : store.profiles.Pairwise fun p q => ¬ SameName p q

/-- The loop accepts the rest of a list exactly when each profile is fine by itself and differs in name from
those before it. -/
theorem validateProfiles_eq_ok_iff (rest : List TransceiverProfile) :
    ∀ previous : List TransceiverProfile, validateProfiles previous rest = .ok () ↔
      (∀ p ∈ rest, validateProfile p = .ok ()) ∧
      (∀ p ∈ previous, ∀ q ∈ rest, ¬ SameName p q) ∧
      rest.Pairwise fun p q => ¬ SameName p q := by
  induction rest with
  | nil => intro previous; simp [validateProfiles]
  | cons profile rest ih =>
    intro previous
    rw [validateProfiles]
    cases hown : validateProfile profile with
    | error e =>
      refine ⟨fun h => (nomatch h), fun h => ?_⟩
      rw [h.1 profile List.mem_cons_self] at hown
      cases hown
    | ok u =>
      show (if _ then _ else _) = _ ↔ _
      by_cases hdup : (previous.any fun p => eqIgnoreAsciiCase p.name profile.name) = true
      · rw [if_pos hdup]
        obtain ⟨p, hp, hsame⟩ := List.any_eq_true.mp hdup
        exact ⟨fun h => (nomatch h), fun h => absurd hsame (h.2.1 p hp profile List.mem_cons_self)⟩
      · rw [if_neg hdup, ih (previous ++ [profile])]
        -- no earlier name is in the way, so the loop goes on with this profile behind it
        have hfresh : ∀ p ∈ previous, ¬ SameName p profile := fun p hp hsame =>
          hdup (List.any_eq_true.mpr ⟨p, hp, hsame⟩)
        simp only [List.mem_append, List.mem_cons, List.not_mem_nil, or_false, or_imp, forall_and,
          forall_eq, List.pairwise_cons, hown, true_and]
        constructor
        · rintro ⟨hall, ⟨hprev, hnew⟩, hpair⟩
          exact ⟨hall, ⟨hfresh, hprev⟩, hnew, hpair⟩
        · rintro ⟨hall, ⟨_, hprev⟩, hnew, hpair⟩
          exact ⟨hall, ⟨hprev, hnew⟩, hpair⟩

/-- **Validation succeeds exactly on valid stores.** -/
theorem ProfileStore.validate_eq_ok_iff {store : ProfileStore} :
    store.validate = .ok () ↔ store.Valid := by
  constructor
  · intro h
    unfold ProfileStore.validate at h
    split at h
    · cases h
    rename_i hversion
    split at h
    · cases h
    rename_i hrelay
    split at h
    · cases h
    split at h
    · cases h
    rename_i hactive
    obtain ⟨hall, _, hpair⟩ := (validateProfiles_eq_ok_iff _ _).mp h
    exact ⟨not_not.mp hversion, hrelay, Nat.not_le.mp hactive, hall, hpair⟩
  · intro h
    have hne : store.profiles.isEmpty = false := by
      rw [List.isEmpty_eq_false_iff]
      exact List.ne_nil_of_length_pos (Nat.lt_of_le_of_lt (Nat.zero_le _) h.active_lt)
    unfold ProfileStore.validate
    rw [if_neg (not_not.mpr h.version), h.relay]
    show (if _ then _ else _) = _
    rw [hne, if_neg (by decide), if_neg (Nat.not_le.mpr h.active_lt)]
    exact (validateProfiles_eq_ok_iff _ _).mpr ⟨h.profiles, by simp, h.names⟩

theorem ProfileStore.default_valid : ProfileStore.default.Valid :=
  ProfileStore.validate_eq_ok_iff.mp (by decide)

/-- In a valid store the active profile exists. -/
theorem ProfileStore.Valid.active_ok {store : ProfileStore} (h : store.Valid) :
    store.active = .ok (store.profiles.get ⟨store.activeProfile, h.active_lt⟩) :=
  index_of_lt h.active_lt

end IncomUdon.Core
