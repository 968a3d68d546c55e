/-
# IncomUdon.Desktop.ProfileStorage — loading the profile store, and what every later change keeps.

A translation of `load_from_path` of the desktop application. The file system and `serde_json` are not part of
the repository: reading a file and decoding its text are parameters, and nothing is assumed of them. Whatever
they return, a store that was loaded successfully passed `validate`.

The section on runs puts loading and `IncomUdon.Core.Store` together: what a session of edits keeps of a store
that came from the default or from a file, and the one kind of edit that breaks it.
-/
import IncomUdon.Core.Store
import IncomUdon.Lib.Product

namespace IncomUdon.Desktop

open IncomUdon.Lib
open IncomUdon.Core

/-! ## Loading -/

/-- A file path. -/
abbrev Path := Str

/-- A `serde_json::Error`, by its text. -/
structure JsonError where
  message : String
  deriving DecidableEq, Repr

/-- What loading and saving report, with the path they failed at. -/
inductive ProfileStorageError where
  | configDirectoryUnavailable
  | read (path : Path) (source : IoError)
  | decode (path : Path) (source : JsonError)
  | invalid (path : Path) (source : ProfileError)
  | createDirectory (path : Path) (source : IoError)
  | encode (source : JsonError)
  | write (path : Path) (source : IoError)
  deriving DecidableEq, Repr

/-- The `Display` text of each error. -/
def ProfileStorageError.toString : ProfileStorageError → String
  | .configDirectoryUnavailable => "no platform configuration directory is available"
  | .read path source => s!"failed to read profile store from {String.ofList path}: {source.message}"
  | .decode path source => s!"failed to decode profile store from {String.ofList path}: {source.message}"
  | .invalid path source => s!"profile store from {String.ofList path} is invalid: {source.toString}"
  | .createDirectory path source => s!"failed to create profile directory {String.ofList path}: {source.message}"
  | .encode source => s!"failed to serialize profile store: {source.message}"
  | .write path source => s!"failed to write profile store to {String.ofList path}: {source.message}"

/-- What loading uses of the file system and of `serde_json`. -/
structure StorageCrates where
  /-- `fs::read_to_string`. -/
  readToString : Path → Except IoError Str
  /-- `serde_json::from_str::<ProfileStore>`. -/
  fromStr : Str → Except JsonError ProfileStore

/-- `load_from_path`: read, decode, validate. -/
def loadFromPath (crates : StorageCrates) (path : Path) : Except ProfileStorageError ProfileStore :=
  match crates.readToString path with
  | .error source => .error (.read path source)
  | .ok contents =>
    match crates.fromStr contents with
    | .error source => .error (.decode path source)
    | .ok store =>
      match store.validate with
      | .error source => .error (.invalid path source)
      | .ok () => .ok store

/-- `load_profile_store`, with the path `default_profile_path` answers and whether it exists: the store of the
application and its first status line. -/
def loadProfileStore (crates : StorageCrates) (defaultPath : Except ProfileStorageError Path)
    (pathExists : Path → Bool) : ProfileStore × String :=
  match defaultPath with
  | .ok path =>
    if pathExists path then
      match loadFromPath crates path with
      | .ok store => (store, "Profile restored")
      | .error error => (ProfileStore.default, s!"Using defaults: {error.toString}")
    else (ProfileStore.default, "Unsaved default profile")
  | .error error => (ProfileStore.default, s!"Using defaults: {error.toString}")

theorem loadFromPath_eq_ok_iff {crates : StorageCrates} {path : Path} {store : ProfileStore} :
    loadFromPath crates path = .ok store ↔
      ∃ text, crates.readToString path = .ok text ∧ crates.fromStr text = .ok store ∧ store.validate = .ok () := by
  constructor
  · intro h
    unfold loadFromPath at h
    split at h
    · cases h
    rename_i text hread
    split at h
    · cases h
    rename_i hdecode
    split at h
    · cases h
    rename_i hvalid
    obtain rfl := Except.ok.inj h
    exact ⟨text, hread, hdecode, hvalid⟩
  · rintro ⟨text, hread, hdecode, hvalid⟩
    simp only [loadFromPath, hread, hdecode, hvalid]

/-- A store that loads is valid, whatever the file held. -/
theorem loadFromPath_valid {crates : StorageCrates} {path : Path} {store : ProfileStore}
    (h : loadFromPath crates path = .ok store) : store.Valid := by
  obtain ⟨-, -, -, hvalid⟩ := loadFromPath_eq_ok_iff.mp h
  exact ProfileStore.validate_eq_ok_iff.mp hvalid

/-! ## Sessions of edits -/

/-- Where the stores of the application come from. -/
inductive InitialStore (crates : StorageCrates) : ProfileStore → Prop where
  | default : InitialStore crates ProfileStore.default
  | loaded {path : Path} {store : ProfileStore} (h : loadFromPath crates path = .ok store) :
      InitialStore crates store

/-- The application starts with one of them. -/
theorem loadProfileStore_initial (crates : StorageCrates) (defaultPath : Except ProfileStorageError Path)
    (pathExists : Path → Bool) : InitialStore crates (loadProfileStore crates defaultPath pathExists).1 := by
  unfold loadProfileStore
  split
  · split
    · split
      · rename_i hload
        exact .loaded hload
      · exact .default
    · exact .default
  · exact .default

theorem InitialStore.valid {crates : StorageCrates} {store : ProfileStore} (h : InitialStore crates store) :
    store.Valid := by
  cases h with
  | default => exact ProfileStore.default_valid
  | loaded h => exact loadFromPath_valid h

/-- **Edits of the profile store.** On a store that validates, `replace_active` and `replace_relay` are atomic
exactly when they are admissible. In a run of such calls from the default store or from one that loads, every
call is atomic exactly when every call is admissible; then no call panics, the store reached validates, and
`active()` is in range. -/
theorem replace_atomic_iff_admissible (crates : StorageCrates) :
    (∀ store : ProfileStore, store.validate = .ok () →
      ∀ op, Atomic store op ↔ Admissible store op) ∧
    (∀ store : ProfileStore, InitialStore crates store → ∀ ops : List StoreOp,
      (Along storeStep Atomic store ops ↔ Along storeStep Admissible store ops) ∧
      (Along storeStep Admissible store ops → ∃ store' results,
        run storeStep store ops = some (store', results) ∧ store'.validate = .ok () ∧
          ∃ profile, store'.active = .ok profile)) := by
  refine ⟨?_, ?_⟩
  · intro store hok op
    exact atomic_iff_admissible (ProfileStore.validate_eq_ok_iff.mp hok) op
  · intro store h ops
    refine ⟨along_atomic_iff ops store h.valid, fun hadm => ?_⟩
    obtain ⟨store', results, hrun, hvalid⟩ := run_admissible_valid ops store h.valid hadm
    exact ⟨store', results, hrun, ProfileStore.validate_eq_ok_iff.mpr hvalid, _, hvalid.active_ok⟩

/-- A store with a second profile, `Base`. -/
def twoProfiles : ProfileStore :=
  { ProfileStore.default with
    profiles := [TransceiverProfile.default, { TransceiverProfile.default with name := "Base".toList }] }

/-- **A refused rename stays.** Renaming the active profile of `twoProfiles` to `BASE` returns an error and
leaves a store that is not the one before the call and does not validate. -/
theorem replace_active_keeps_collision :
    let profile := { TransceiverProfile.default with name := "BASE".toList }
    let after := twoProfiles.perform (.replaceActive profile)
    twoProfiles.validate = .ok () ∧ after.1 = .err (.duplicateName "Base".toList) ∧
      after.2 ≠ twoProfiles ∧ after.2.validate = .error (.duplicateName "Base".toList) ∧
      ¬ Atomic twoProfiles (.replaceActive profile) := by
  have hvalid : twoProfiles.Valid := ProfileStore.validate_eq_ok_iff.mp (by decide)
  refine ⟨by decide, by decide, by decide, by decide, ?_⟩
  rw [atomic_iff_admissible hvalid]
  rintro (hrefused | hfresh)
  · exact hrefused (by decide)
  · exact hfresh 1 { TransceiverProfile.default with name := "Base".toList } (by decide) rfl (by decide)

/-- Edits of `twoProfiles`: a rename, an empty name, an empty relay host, and a second rename. -/
def twoRenames : List StoreOp :=
  [.replaceActive { TransceiverProfile.default with name := "Field".toList },
    .replaceActive { TransceiverProfile.default with name := [] },
    .replaceRelay { RelayEndpoint.default with host := [] },
    .replaceActive { TransceiverProfile.default with name := "Tower".toList }]

/-- Two of them are refused; all are atomic, and the store that is left validates. -/
theorem replace_atomic_iff_admissible_renames :
    Atomic twoProfiles (.replaceActive { TransceiverProfile.default with name := "Field".toList }) ∧
    Along storeStep Atomic twoProfiles twoRenames ∧
    ∃ store' results, run storeStep twoProfiles twoRenames = some (store', results) ∧
      results = [.ok (), .err .invalidName, .err .emptyRelayHost, .ok ()] ∧ store'.validate = .ok () := by
  -- a file system that holds the store
  let crates : StorageCrates := ⟨fun _ => .ok [], fun _ => .ok twoProfiles⟩
  have hload : loadFromPath crates [] = .ok twoProfiles :=
    loadFromPath_eq_ok_iff.mpr ⟨[], rfl, rfl, by decide⟩
  have hchecked : checked storeStep (fun store op => decide (Admissible store op)) twoProfiles twoRenames = true := by
    decide
  have hadmissible : Along storeStep Admissible twoProfiles twoRenames :=
    along_of_checked (fun _ _ => of_decide_eq_true) _ _ hchecked
  obtain ⟨hone, hruns⟩ := replace_atomic_iff_admissible crates
  obtain ⟨hiff, hgood⟩ := hruns twoProfiles (.loaded hload) twoRenames
  obtain ⟨store', results, hrun, hvalid, -⟩ := hgood hadmissible
  have hresults : (run storeStep twoProfiles twoRenames).map Prod.snd =
      some [.ok (), .err .invalidName, .err .emptyRelayHost, .ok ()] := by decide
  rw [hrun] at hresults
  exact ⟨(hone twoProfiles (by decide) _).mpr (by decide), hiff.mpr hadmissible, store', results, hrun,
    Option.some.inj hresults, hvalid⟩

end IncomUdon.Desktop
