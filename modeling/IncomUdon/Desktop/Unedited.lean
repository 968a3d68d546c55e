/-
# IncomUdon.Desktop.Unedited — an application whose form is not edited keeps its settings.

The form is filled once, when the application starts, and read by every save; nobody but the user writes into it. §1
reads a filled form back, the relay and the profile, with whatever whitespace and whatever mode the file had. §2 is
about runs: the saves of an unedited form write what was loaded, in a settled spelling.
-/
import IncomUdon.Desktop.Display
import IncomUdon.Desktop.FormRoundTrip

namespace IncomUdon.Desktop

open IncomUdon.Lib
open IncomUdon.Core
open IncomUdon.Protocol
open IncomUdon.Crypto
open IncomUdon.Transport

/-! ## §1 — the form, read back -/

/-- A profile as the form saves it: without whitespace around the name, and in the one mode the form has. -/
def settledProfile (profile : TransceiverProfile) : TransceiverProfile :=
  { profile with name := trim profile.name, encryption := .aesGcmV2 }

/-- A relay as the form saves it. -/
def settledRelay (relay : RelayEndpoint) : RelayEndpoint := { relay with host := trim relay.host }

theorem validate_settledProfile {profile : TransceiverProfile} (h : validateProfile profile = .ok ()) :
    validateProfile (settledProfile profile) = .ok () := by
  rw [← h]
  unfold validateProfile settledProfile
  simp only [trim_trim]

theorem validate_settledRelay {relay : RelayEndpoint} (h : validateRelayEndpoint relay = .ok ()) :
    validateRelayEndpoint (settledRelay relay) = .ok () := by
  rw [← h]
  unfold validateRelayEndpoint settledRelay
  simp only [trim_trim]

/-- A port shown as `i32` reads back as itself. -/
theorem u16TryFrom_toInt32 (port : UInt16) : u16TryFrom port.toUInt32.toInt32 = some port := by
  have hback : port.toUInt32.toInt32.toUInt32.toUInt16 = port := UInt16.toUInt16_toUInt32 port
  have hlt := port.toNat_lt
  have hint : port.toUInt32.toInt32.toInt = port.toUInt32.toBitVec.toInt := rfl
  have hnat : port.toUInt32.toBitVec.toNat = port.toNat := UInt16.toNat_toUInt32 port
  have hfits : (0 : Int32) ≤ port.toUInt32.toInt32 ∧ port.toUInt32.toInt32 ≤ 65535 := by
    rw [Int32.le_iff_toInt_le, Int32.le_iff_toInt_le, hint, BitVec.toInt_eq_toNat_cond, hnat]
    simp only [Int32.toInt_zero, Int32.reduceToInt]
    split <;> omega
  rw [u16TryFrom, if_pos hfits, hback]

/-- **An unedited relay** comes back settled. -/
theorem relayFromWindow_apply (window : AppWindow) {relay : RelayEndpoint} (h : validateRelayEndpoint relay = .ok ()) :
    relayFromWindow (applyRelayToWindow window relay) = .ok (settledRelay relay) := by
  unfold relayFromWindow applyRelayToWindow
  simp only [u16TryFrom_toInt32, Option.elim_some]
  have hsettled : validateRelayEndpoint ⟨trim relay.host, relay.port, relay.forceIpv4⟩ = .ok () :=
    validate_settledRelay h
  show (do
    (validateRelayEndpoint ⟨trim relay.host, relay.port, relay.forceIpv4⟩).mapError ProfileError.toString
    return (⟨trim relay.host, relay.port, relay.forceIpv4⟩ : RelayEndpoint)) = _
  rw [hsettled]
  rfl

/-- The reader looks at the form only. -/
theorem profileFromWindow_congr {window window' : AppWindow} (h : window.form = window'.form) :
    profileFromWindow window = profileFromWindow window' := by
  unfold profileFromWindow
  rw [h]

theorem relayFromWindow_congr {window window' : AppWindow} (h : window.form = window'.form) :
    relayFromWindow window = relayFromWindow window' := by
  unfold relayFromWindow
  rw [h]

/-- The form as `main` fills it. -/
def filledForm (profile : TransceiverProfile) (relay : RelayEndpoint) : Form :=
  (applyRelayToWindow (applyProfileToWindow AppWindow.new profile) relay).form

section Filled

variable {window : AppWindow} {profile : TransceiverProfile} {relay : RelayEndpoint}

/-- **An unedited profile** comes back settled, or is refused for a bitrate the form does not show. -/
theorem profileFromWindow_filled (hform : window.form = filledForm profile relay)
    (h : validateProfile profile = .ok ()) :
    profileFromWindow window = if BitrateShown profile then .ok (settledProfile profile)
      else .error (ProfileError.missingBitrate profile.codec).toString := by
  -- the form shows the name as it is, and the reader trims it
  have htrim : profileFromWindow window =
      profileFromWindow (applyProfileToWindow AppWindow.new (settledProfile profile)) := by
    rw [profileFromWindow_congr hform]
    unfold profileFromWindow applyRelayToWindow applyProfileToWindow settledProfile
    simp only [trim_trim]
  have hvalid := validate_settledProfile h
  have hname : trim (settledProfile profile).name = (settledProfile profile).name := trim_trim _
  rw [htrim]
  split
  · rename_i hshown
    exact profileFromWindow_apply_of_shown AppWindow.new hvalid hname hshown
  · rename_i hshown
    exact profileFromWindow_apply_of_not_shown AppWindow.new hvalid hname hshown

theorem relayFromWindow_filled (hform : window.form = filledForm profile relay)
    (h : validateRelayEndpoint relay = .ok ()) : relayFromWindow window = .ok (settledRelay relay) := by
  rw [relayFromWindow_congr hform]
  exact relayFromWindow_apply _ h

end Filled

/-! ## §2 — runs without an edit -/

/-- What saving the unedited profile leaves in the store: a profile whose bitrate the form does not show is refused. -/
def savedProfile (profile : TransceiverProfile) : TransceiverProfile :=
  if BitrateShown profile then settledProfile profile else profile

/-- `store` with another active profile and another relay. -/
def rewritten (store : ProfileStore) (profile : TransceiverProfile) (relay : RelayEndpoint) : ProfileStore :=
  { store with profiles := store.profiles.set store.activeProfile profile, relay }

/-- The store is the loaded one, but for the spelling of what the form shows. -/
def KeepsSettings (loaded : ProfileStore) (profile : TransceiverProfile) (store : ProfileStore) : Prop :=
  ∃ profile' relay', (profile' = profile ∨ profile' = savedProfile profile) ∧
    (relay' = loaded.relay ∨ relay' = settledRelay loaded.relay) ∧ store = rewritten loaded profile' relay'

section Runs

variable {crates : CryptoCrates} {loaded : ProfileStore × String} {audio : Bool} {profile : TransceiverProfile}
  {app app' : App} {input : Input} {inputs : List Input} {effects : List AppEffect}

theorem rewritten_active {store : ProfileStore} (hactive : store.active = .ok profile) :
    rewritten store profile store.relay = store := by
  have hentry : store.profiles[store.activeProfile]? = some profile := index_eq_ok.mp hactive
  obtain ⟨hlt, hget⟩ := List.getElem?_eq_some_iff.mp hentry
  rw [rewritten, ← hget, List.set_getElem_self hlt]

/-- A profile that passes its own check is written, whatever the store's check says behind it. -/
theorem replaceActive_writes {store : ProfileStore} (hvalid : validateProfile profile = .ok ())
    (hlt : store.activeProfile < store.profiles.length) :
    (store.replaceActive profile).2 = { store with profiles := store.profiles.set store.activeProfile profile } := by
  rw [ProfileStore.replaceActive, hvalid]
  dsimp only
  rw [if_pos hlt]

theorem replaceRelay_writes {store : ProfileStore} {relay : RelayEndpoint}
    (hvalid : validateRelayEndpoint relay = .ok ()) : (store.replaceRelay relay).2 = { store with relay } := by
  rw [ProfileStore.replaceRelay, hvalid]

/-- **Saving an unedited profile.** -/
theorem saveProfile_unedited {relay : RelayEndpoint} (hform : app.window.form = filledForm profile relay)
    (hvalid : validateProfile profile = .ok ()) (hlt : app.store.activeProfile < app.store.profiles.length)
    (saved : Except ProfileStorageError Unit) :
    (app.saveProfile saved).store = if BitrateShown profile then
      { app.store with profiles := app.store.profiles.set app.store.activeProfile (savedProfile profile) }
      else app.store := by
  unfold App.saveProfile
  rw [profileFromWindow_filled hform hvalid]
  by_cases hshown : BitrateShown profile
  · rw [if_pos hshown, if_pos hshown, savedProfile, if_pos hshown]
    rw [← replaceActive_writes (validate_settledProfile hvalid) hlt]
    exact (App.save_fields _ saved _).1
  · rw [if_neg hshown, if_neg hshown]
    rfl

theorem saveRelaySettings_unedited {relay : RelayEndpoint} (hform : app.window.form = filledForm profile relay)
    (hvalid : validateRelayEndpoint relay = .ok ()) (saved : Except ProfileStorageError Unit) :
    (app.saveRelaySettings saved).store = { app.store with relay := settledRelay relay } := by
  unfold App.saveRelaySettings
  rw [relayFromWindow_filled hform hvalid, ← replaceRelay_writes (validate_settledRelay hvalid)]
  exact (App.save_fields _ saved _).1

/-- `main` shows the loaded settings. -/
theorem start_filled (audio : Bool) (hactive : loaded.1.active = .ok profile) :
    (App.start loaded audio).window.form = filledForm profile loaded.1.relay ∧
      (App.start loaded audio).store = loaded.1 ∧ (App.start loaded audio).pc = .idle := by
  unfold App.start
  rw [hactive]
  exact ⟨rfl, rfl, rfl⟩

/-- The form as it was filled, and the settings kept. -/
def UneditedSoFar (loaded : ProfileStore) (profile : TransceiverProfile) (app : App) : Prop :=
  app.window.form = filledForm profile loaded.relay ∧ KeepsSettings loaded profile app.store

theorem UneditedSoFar.step (hvalid : loaded.1.Valid) (hactive : loaded.1.active = .ok profile)
    (h : UneditedSoFar loaded.1 profile app) (hinput : ∀ form, input ≠ .edit form)
    (hstep : appStep crates app input = some (app', effects)) : UneditedSoFar loaded.1 profile app' := by
  obtain ⟨hform, profile', relay', hprofile', hrelay', hstore⟩ := h
  refine ⟨((appStep_form hstep).resolve_right (hinput _)).trans hform, ?_⟩
  have hkept : KeepsSettings loaded.1 profile app.store := ⟨profile', relay', hprofile', hrelay', hstore⟩
  rcases appStep_sorts hstep with ⟨hsame, -⟩ | ⟨stopped, hpoll⟩ | ⟨-, saved, ⟨-, rfl⟩ | ⟨-, rfl⟩⟩
  · rw [hsame]
    exact hkept
  · rw [(App.poll_filter hpoll).1]
    exact hkept
  · -- the active entry is there, and it passed its check when the store was loaded
    have hown : validateProfile profile = .ok () :=
      hvalid.profiles profile (List.mem_of_getElem? (index_eq_ok.mp hactive))
    have hlt : app.store.activeProfile < app.store.profiles.length := by
      rw [hstore, rewritten, List.length_set]
      exact hvalid.active_lt
    rw [saveProfile_unedited hform hown hlt saved]
    split
    · refine ⟨savedProfile profile, relay', Or.inr rfl, hrelay', ?_⟩
      rw [hstore]
      simp only [rewritten, List.set_set]
    · exact hkept
  · rw [saveRelaySettings_unedited hform hvalid.relay saved]
    refine ⟨profile', settledRelay loaded.1.relay, hprofile', Or.inr rfl, ?_⟩
    rw [hstore]
    rfl

theorem run_unedited (hvalid : loaded.1.Valid) (hactive : loaded.1.active = .ok profile)
    (hunedited : ∀ form, .edit form ∉ inputs)
    (hrun : run (appStep crates) (App.start loaded audio) inputs = some (app, effects)) :
    UneditedSoFar loaded.1 profile app := by
  obtain ⟨hform, hstore, -⟩ := start_filled audio hactive
  have hinit : UneditedSoFar loaded.1 profile (App.start loaded audio) := by
    refine ⟨hform, profile, loaded.1.relay, Or.inl rfl, Or.inl rfl, ?_⟩
    rw [hstore, rewritten_active hactive]
  refine run_history (R := fun app past _ => (∀ form, Input.edit form ∉ past) → UneditedSoFar loaded.1 profile app)
    ?_ (fun _ => hinit) hrun hunedited
  intro s past _ input s' _ hR hstep hpast
  refine (hR fun form hmem => hpast form (List.mem_append_left _ hmem)).step hvalid hactive ?_ hstep
  rintro form rfl
  exact hpast form (List.mem_append_right _ List.mem_cons_self)

/-- **An application whose form is not edited keeps its settings.** However often profile and relay are saved, in
whatever order with connecting, talking and whatever else: the store is the loaded one, with the active profile as it
was or with its name trimmed and AES-GCM v2, and with the relay as it was or with its host trimmed. So every such run
keeps exactly the loaded settings if and only if saving would not respell them. -/
theorem unedited_keeps_settings (hvalid : loaded.1.Valid) (hactive : loaded.1.active = .ok profile) :
    (∀ inputs app effects, run (appStep crates) (App.start loaded audio) inputs = some (app, effects) →
      (∀ form, .edit form ∉ inputs) → KeepsSettings loaded.1 profile app.store) ∧
    ((∀ inputs app effects, run (appStep crates) (App.start loaded audio) inputs = some (app, effects) →
        (∀ form, .edit form ∉ inputs) → app.store = loaded.1) ↔
      savedProfile profile = profile ∧ settledRelay loaded.1.relay = loaded.1.relay) := by
  refine ⟨fun inputs app effects hrun hunedited => (run_unedited hvalid hactive hunedited hrun).2, ?_, ?_⟩
  · intro hkeeps
    obtain ⟨hform, hstore, hpc⟩ := start_filled audio hactive
    have hentry : loaded.1.profiles[loaded.1.activeProfile]? = some profile := index_eq_ok.mp hactive
    have hown : validateProfile profile = .ok () := hvalid.profiles profile (List.mem_of_getElem? hentry)
    -- one save of each kind shows the spelling it writes
    have hsave : ∀ callback app', App.callback crates (App.start loaded audio) callback = some (app', []) →
        app'.store = loaded.1 := by
      intro callback app' hcallback
      refine hkeeps [.callback callback] app' [] ?_ (fun form hmem => by simp at hmem)
      have hstep : appStep crates (App.start loaded audio) (.callback callback) = some (app', []) := by
        rw [appStep, if_pos hpc, hcallback]
      exact run_cons_eq_some.mpr ⟨_, _, _, hstep, rfl, rfl⟩
    refine ⟨?_, ?_⟩
    · by_contra hne
      have hshown : BitrateShown profile := by
        by_contra hhidden
        exact hne (if_neg hhidden)
      have hsaved := hsave (.saveProfile (.ok ())) _ rfl
      rw [saveProfile_unedited hform hown (by rw [hstore]; exact hvalid.active_lt), if_pos hshown, hstore] at hsaved
      have hprofiles := congrArg (fun store => store.profiles[loaded.1.activeProfile]?) hsaved
      simp only [List.getElem?_set_self hvalid.active_lt, hentry] at hprofiles
      exact hne (Option.some.inj hprofiles)
    · have hsaved := hsave (.saveRelaySettings (.ok ())) _ rfl
      rw [saveRelaySettings_unedited hform hvalid.relay, hstore] at hsaved
      exact congrArg ProfileStore.relay hsaved
  · rintro ⟨hprofile, hrelay⟩ inputs app effects hrun hunedited
    obtain ⟨-, profile', relay', hprofile', hrelay', hkept⟩ := run_unedited hvalid hactive hunedited hrun
    rw [hprofile, or_self] at hprofile'
    rw [hrelay, or_self] at hrelay'
    rw [hkept, hprofile', hrelay', rewritten_active hactive]

/-- `patrolProfile` as a file may hold it. -/
def spacedProfile : TransceiverProfile := { patrolProfile with name := "  Patrol 7 ".toList }

/-- A store with that profile active behind the default one, and a relay with spaces around its host. -/
def spacedStore : ProfileStore where
  version := profileStoreVersion
  activeProfile := 1
  relay := { RelayEndpoint.default with host := " relay.local ".toList }
  profiles := [TransceiverProfile.default, spacedProfile]

/-- A profile save respells the name and the mode; a relay save, behind a press of the talk button, the host. -/
theorem unedited_keeps_settings_spaced :
    ∃ app app', run (appStep tagCrates) (App.start (spacedStore, "Profile restored") true)
        [.callback (.saveProfile (.ok ()))] = some (app, []) ∧
      run (appStep tagCrates) (App.start (spacedStore, "Profile restored") true)
        [.callback (.saveProfile (.ok ())), .callback .pttPressed, .callback (.saveRelaySettings (.ok ()))] =
        some (app', []) ∧
      KeepsSettings spacedStore spacedProfile app.store ∧ KeepsSettings spacedStore spacedProfile app'.store ∧
      app.store = rewritten spacedStore { patrolProfile with encryption := .aesGcmV2 } spacedStore.relay ∧
      app'.store = rewritten spacedStore { patrolProfile with encryption := .aesGcmV2 }
        { RelayEndpoint.default with host := "relay.local".toList } := by
  have hvalid : spacedStore.Valid := ProfileStore.validate_eq_ok_iff.mp (by decide)
  have hkeeps := (@unedited_keeps_settings tagCrates (spacedStore, "Profile restored") true spacedProfile
    hvalid rfl).1
  refine ⟨_, _, rfl, rfl, hkeeps [.callback (.saveProfile (.ok ()))] _ [] rfl ?_,
    hkeeps [.callback (.saveProfile (.ok ())), .callback .pttPressed, .callback (.saveRelaySettings (.ok ()))]
      _ [] rfl ?_, by decide, by decide⟩
  · intro form hmem
    simp at hmem
  · intro form hmem
    simp at hmem

end Runs

end IncomUdon.Desktop
