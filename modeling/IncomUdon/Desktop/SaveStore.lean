/-
# IncomUdon.Desktop.SaveStore — saving the profile store, and what a failed save leaves behind.

A translation of `save_to_path` and `save_profile_store` over a disk whose writes may fail on the way. Everything that can fail before
`fs::write` leaves the file as it was; `fs::write` truncates it first, so a write that fails after that has taken the
old store with it. §2 shows that this is the one way to lose it, and §3 gives an instance: a full disk.

`serde_json` and `Path::parent` are parameters. Of the first it is assumed, for the store at hand, that its text
decodes to the store and that a text that breaks off is refused.
-/
import IncomUdon.Desktop.ProfileStorage
import IncomUdon.Lib.Disk

namespace IncomUdon.Desktop

open IncomUdon.Lib
open IncomUdon.Core

/-! ## §1 — saving -/

/-- What saving uses of `serde_json` and of the platform. -/
structure SaveCrates where
  /-- `Path::parent`; what separates the components of a path depends on the platform. -/
  parent : Path → Option Path
  /-- `serde_json::to_vec_pretty`. -/
  toVecPretty : ProfileStore → Except JsonError Bytes
  /-- `serde_json::from_str::<ProfileStore>`. -/
  fromStr : Str → Except JsonError ProfileStore

/-- Loading from a disk. -/
def SaveCrates.onDisk (crates : SaveCrates) (disk : Disk) : StorageCrates := ⟨disk.readToString, crates.fromStr⟩

/-- What the file system answers during one save. -/
structure SaveAnswers where
  /-- `fs::create_dir_all`. -/
  createDirAll : Except IoError Unit
  write : WriteOutcome

section

variable (crates : SaveCrates) (answers : SaveAnswers)

/-- `save_to_path`: the file is touched only by the last of the five steps, `fs::write`. -/
def saveToPath (disk : Disk) (path : Path) (store : ProfileStore) : Except ProfileStorageError Unit × Disk :=
  match store.validate with
  | .error source => (.error (.invalid path source), disk)
  | .ok () =>
    match crates.parent path with
    | none => (.error .configDirectoryUnavailable, disk)
    | some parent =>
      match answers.createDirAll with
      | .error source => (.error (.createDirectory parent source), disk)
      | .ok () =>
        match crates.toVecPretty store with
        | .error source => (.error (.encode source), disk)
        | .ok encoded =>
          let written := disk.write path encoded answers.write
          (written.1.mapError (.write path), written.2)

/-- `save_profile_store`, with the path `default_profile_path` answers. -/
def saveProfileStore (disk : Disk) (defaultPath : Except ProfileStorageError Path) (store : ProfileStore) :
    Except ProfileStorageError Unit × Disk :=
  match defaultPath with
  | .error error => (.error error, disk)
  | .ok path => saveToPath crates answers disk path store

theorem saveProfileStore_ok (disk : Disk) (path : Path) (store : ProfileStore) :
    saveProfileStore crates answers disk (.ok path) store = saveToPath crates answers disk path store := rfl

/-- **`Reaches`** — the save gets to `fs::write`, with the bytes `encoded`. -/
structure Reaches (path : Path) (store : ProfileStore) (encoded : Bytes) : Prop where
  valid : store.validate = .ok ()
  parent : (crates.parent path).isSome
  directory : answers.createDirAll = .ok ()
  encoded : crates.toVecPretty store = .ok encoded

variable {crates answers} {disk : Disk} {path : Path} {store : ProfileStore} {encoded : Bytes}

theorem saveToPath_of_reaches (h : Reaches crates answers path store encoded) :
    saveToPath crates answers disk path store =
      ((disk.write path encoded answers.write).1.mapError (.write path),
        (disk.write path encoded answers.write).2) := by
  obtain ⟨parent, hparent⟩ := Option.isSome_iff_exists.mp h.parent
  simp only [saveToPath, h.valid, hparent, h.directory, h.encoded]

/-- A save that does not get to `fs::write` fails and leaves the disk as it was. -/
theorem saveToPath_stops (h : ∀ encoded, ¬ Reaches crates answers path store encoded) (disk : Disk) :
    ∃ e, saveToPath crates answers disk path store = (.error e, disk) := by
  unfold saveToPath
  split
  · exact ⟨_, rfl⟩
  rename_i hvalid
  split
  · exact ⟨_, rfl⟩
  rename_i parent hparent
  split
  · exact ⟨_, rfl⟩
  rename_i hdirectory
  split
  · exact ⟨_, rfl⟩
  rename_i encoded hencoded
  exact absurd ⟨hvalid, Option.isSome_of_eq_some hparent, hdirectory, hencoded⟩ (h encoded)

end

/-! ## §2 — what the next load finds -/

/-- The text of a store decodes to the store. -/
def RoundTrips (crates : SaveCrates) (store : ProfileStore) : Prop :=
  ∀ encoded, crates.toVecPretty store = .ok encoded →
    ∃ text, encoded = asBytes text ∧ crates.fromStr text = .ok store

/-- The text of a store is refused where it breaks off. -/
def RefusesCut (crates : SaveCrates) (store : ProfileStore) : Prop :=
  ∀ encoded written text, crates.toVecPretty store = .ok encoded → written < encoded.length →
    encoded.take written = asBytes text → ∃ error, crates.fromStr text = .error error

/-- **`KeepsStore`** — what a save has to leave on the disk: after a failure `old` loads as before, after a success
`new` does. -/
def KeepsStore (crates : SaveCrates) (path : Path) (old new : ProfileStore)
    (saved : Except ProfileStorageError Unit × Disk) : Prop :=
  (∀ e, saved.1 = .error e → loadFromPath (crates.onDisk saved.2) path = .ok old) ∧
    (saved.1 = .ok () → loadFromPath (crates.onDisk saved.2) path = .ok new)

/-- **`LosesStore`** — the write is reached and fails after the file was truncated, unless all bytes are there and are
those of the store that was there before. -/
def LosesStore (crates : SaveCrates) (answers : SaveAnswers) (path : Path) (old new : ProfileStore) : Prop :=
  ∃ encoded written error, Reaches crates answers path new encoded ∧ answers.write = .cut written error ∧
    (written < encoded.length ∨ new ≠ old)

section

variable {crates : SaveCrates} {answers : SaveAnswers} {path : Path} {store old new : ProfileStore} {encoded : Bytes}

/-- Only a write that fails on the way loses a store. -/
theorem not_losesStore {outcome : WriteOutcome} (hwrite : answers.write = outcome)
    (h : ∀ written error, outcome ≠ .cut written error) : ¬ LosesStore crates answers path old new := by
  rintro ⟨_, written, error, -, hcut, -⟩
  exact h written error (hwrite.symm.trans hcut)

theorem load_onDisk_eq_ok_iff {disk : Disk} :
    loadFromPath (crates.onDisk disk) path = .ok store ↔
      ∃ text, disk path = some (asBytes text) ∧ crates.fromStr text = .ok store ∧ store.validate = .ok () := by
  simp only [loadFromPath_eq_ok_iff, SaveCrates.onDisk, Disk.readToString_eq_ok_iff]

theorem load_of_put (hserde : RoundTrips crates store) (h : Reaches crates answers path store encoded) (disk : Disk) :
    loadFromPath (crates.onDisk (disk.put path encoded)) path = .ok store := by
  obtain ⟨text, hencoded, hdecode⟩ := hserde encoded h.encoded
  exact load_onDisk_eq_ok_iff.mpr ⟨text, by rw [Disk.put_self, hencoded], hdecode, h.valid⟩

/-- Nothing is loaded from a text that breaks off. -/
theorem load_of_put_take {written : Nat} (hcut : RefusesCut crates store)
    (h : Reaches crates answers path store encoded) (hlt : written < encoded.length) (disk : Disk)
    (store' : ProfileStore) :
    loadFromPath (crates.onDisk (disk.put path (encoded.take written))) path ≠ .ok store' := by
  intro hload
  obtain ⟨text, hfile, hdecode, -⟩ := load_onDisk_eq_ok_iff.mp hload
  rw [Disk.put_self] at hfile
  obtain ⟨error, herror⟩ := hcut encoded written text h.encoded hlt (Option.some.inj hfile)
  have hboth : Except.error error = Except.ok store' := herror.symm.trans hdecode
  cases hboth

/-- A failure keeps the store exactly if what is on the disk loads as `old`. -/
theorem keepsStore_of_error {e : ProfileStorageError} {after : Disk} :
    KeepsStore crates path old new (.error e, after) ↔ loadFromPath (crates.onDisk after) path = .ok old :=
  ⟨fun h => h.1 e rfl, fun h => ⟨fun _ _ => h, fun hok => (nomatch hok)⟩⟩

/-- A write that fails on the way keeps the store only if nothing was missing and nothing was to be changed. -/
theorem keepsStore_of_cut {written : Nat} {error : IoError} (hserde : RoundTrips crates new)
    (hcut : RefusesCut crates new) (h : Reaches crates answers path new encoded) (disk : Disk) :
    KeepsStore crates path old new (.error (.write path error), disk.put path (encoded.take written)) ↔
      ¬ (written < encoded.length ∨ new ≠ old) := by
  rw [keepsStore_of_error]
  by_cases hlt : written < encoded.length
  · exact ⟨fun hload => absurd hload (load_of_put_take hcut h hlt disk old), fun hkept => absurd (.inl hlt) hkept⟩
  · rw [List.take_of_length_le (Nat.not_lt.mp hlt), load_of_put hserde h disk]
    simp [hlt]

end

/-- **The profiles are gone.** After a write that fails on the way the application starts with the default store. -/
theorem loadProfileStore_after_cut {crates : SaveCrates} {answers : SaveAnswers} {path : Path} {new : ProfileStore}
    {encoded : Bytes} {written : Nat} {error : IoError} (hcut : RefusesCut crates new)
    (hreaches : Reaches crates answers path new encoded) (hwrite : answers.write = .cut written error)
    (hlt : written < encoded.length) (disk : Disk) (pathExists : Path → Bool) :
    (loadProfileStore (crates.onDisk (saveProfileStore crates answers disk (.ok path) new).2) (.ok path)
      pathExists).1 = ProfileStore.default := by
  have hafter : (saveProfileStore crates answers disk (.ok path) new).2 = disk.put path (encoded.take written) := by
    rw [saveProfileStore_ok, saveToPath_of_reaches hreaches, hwrite, Disk.write]
  rw [hafter, loadProfileStore]
  split
  · split
    · rename_i store hload
      exact absurd hload (load_of_put_take hcut hreaches hlt disk store)
    · rfl
  · rfl

/-- **A failed save.** Let a path hold a store `old` that loads. A save of `new` there, whatever the file system
answers, keeps `old` loadable if it fails and makes `new` loadable if it succeeds, exactly when it does not lose the
store. -/
theorem save_keeps_store_iff (crates : SaveCrates) (answers : SaveAnswers) (disk : Disk) (path : Path)
    (old new : ProfileStore) (hold : loadFromPath (crates.onDisk disk) path = .ok old)
    (hserde : RoundTrips crates new) (hcut : RefusesCut crates new) :
    KeepsStore crates path old new (saveToPath crates answers disk path new) ↔
      ¬ LosesStore crates answers path old new := by
  by_cases hreaches : ∃ encoded, Reaches crates answers path new encoded
  · obtain ⟨encoded, hreaches⟩ := hreaches
    rw [saveToPath_of_reaches hreaches]
    cases hwrite : answers.write with
    | refused error =>
      exact iff_of_true (keepsStore_of_error.mpr hold) (not_losesStore hwrite fun _ _ => WriteOutcome.noConfusion)
    | cut written error =>
      have hkeeps : KeepsStore crates path old new (.error (.write path error), disk.put path (encoded.take written)) ↔
          ¬ (written < encoded.length ∨ new ≠ old) := keepsStore_of_cut hserde hcut hreaches disk
      refine hkeeps.trans (not_congr ⟨fun hlost => ⟨encoded, written, error, hreaches, hwrite, hlost⟩, ?_⟩)
      rintro ⟨encoded', written', error', hreaches', hwrite', hlost⟩
      obtain rfl := Except.ok.inj (hreaches.encoded.symm.trans hreaches'.encoded)
      rw [hwrite] at hwrite'
      obtain ⟨rfl, -⟩ := WriteOutcome.cut.inj hwrite'
      exact hlost
    | complete =>
      have hkeeps : KeepsStore crates path old new (.ok (), disk.put path encoded) :=
        ⟨fun e he => (nomatch he), fun _ => load_of_put hserde hreaches disk⟩
      exact iff_of_true hkeeps (not_losesStore hwrite fun _ _ => WriteOutcome.noConfusion)
  · obtain ⟨e, hstops⟩ := saveToPath_stops (not_exists.mp hreaches) disk
    rw [hstops]
    have hkept : ¬ LosesStore crates answers path old new := by
      rintro ⟨encoded, -, -, hreached, -⟩
      exact hreaches ⟨encoded, hreached⟩
    exact iff_of_true (keepsStore_of_error.mpr hold) hkept

/-! ## §3 — a full disk -/

/-- A store with one profile, by its name. -/
def oneProfile (name : String) : ProfileStore :=
  { ProfileStore.default with profiles := [{ TransceiverProfile.default with name := name.toList }] }

/-- The text `to_vec_pretty` makes of it. -/
def oneProfileText (name : String) : Str :=
  List.intercalate ['\n'] (List.map String.toList
    ["\x7b",
      "  \"version\": 1,",
      "  \"active_profile\": 0,",
      "  \"relay\": \x7b",
      "    \"host\": \"127.0.0.1\",",
      "    \"port\": 50000,",
      "    \"force_ipv4\": false",
      "  \x7d,",
      "  \"profiles\": [",
      "    \x7b",
      "      \"name\": \"" ++ name ++ "\",",
      "      \"channel_id\": 0,",
      "      \"sender_id\": 0,",
      "      \"codec\": \"opus\",",
      "      \"bitrate_bps\": 16000,",
      "      \"encryption\": \"aes-gcm-v2\",",
      "      \"receive_only\": false,",
      "      \"mute_self_id\": true",
      "    \x7d",
      "  ]",
      "\x7d"])

/-- A stand-in that knows the text of two stores, and refuses every other text as `serde_json` refuses an empty
one. -/
def twoTexts : SaveCrates where
  parent := fun _ => some "/config".toList
  toVecPretty := fun store =>
    if store = oneProfile "Base" then .ok (asBytes (oneProfileText "Base"))
    else if store = oneProfile "Field" then .ok (asBytes (oneProfileText "Field"))
    else .error ⟨"unknown store"⟩
  fromStr := fun text =>
    if text = oneProfileText "Base" then .ok (oneProfile "Base")
    else if text = oneProfileText "Field" then .ok (oneProfile "Field")
    else .error ⟨"EOF while parsing a value at line 1 column 0"⟩

theorem twoTexts_encodes_field : twoTexts.toVecPretty (oneProfile "Field") = .ok (asBytes (oneProfileText "Field")) := by
  have hne : oneProfile "Field" ≠ oneProfile "Base" := by decide
  simp only [twoTexts, if_neg hne, if_true]

theorem twoTexts_roundTrips : RoundTrips twoTexts (oneProfile "Field") := by
  intro encoded hencoded
  rw [twoTexts_encodes_field] at hencoded
  have hne : oneProfileText "Field" ≠ oneProfileText "Base" := by decide +kernel
  have hdecode : twoTexts.fromStr (oneProfileText "Field") = .ok (oneProfile "Field") := by
    simp only [twoTexts, if_neg hne, if_true]
  exact ⟨oneProfileText "Field", (Except.ok.inj hencoded).symm, hdecode⟩

theorem twoTexts_refusesCut : RefusesCut twoTexts (oneProfile "Field") := by
  intro encoded written text hencoded hlt htext
  rw [twoTexts_encodes_field] at hencoded
  obtain rfl := Except.ok.inj hencoded
  have hfield : text ≠ oneProfileText "Field" := by
    rintro rfl
    have hlen := congrArg List.length htext
    rw [List.length_take] at hlen
    omega
  have hbase : text ≠ oneProfileText "Base" := by
    rintro rfl
    have hprefix : asBytes (oneProfileText "Base") <+: asBytes (oneProfileText "Field") :=
      htext ▸ List.take_prefix written _
    exact absurd hprefix (by decide +kernel)
  exact ⟨_, (if_neg hbase).trans (if_neg hfield)⟩

/-- Where the profiles of the examples are kept. -/
def profilesPath : Path := "/config/profiles.json".toList

/-- The file holds the store `Base`. -/
def baseOnDisk : Disk := Disk.put (fun _ => none) profilesPath (asBytes (oneProfileText "Base"))

theorem baseOnDisk_loads : loadFromPath (twoTexts.onDisk baseOnDisk) profilesPath = .ok (oneProfile "Base") := by
  have hfile : baseOnDisk profilesPath = some (asBytes (oneProfileText "Base")) := Disk.put_self ..
  have hdecode : twoTexts.fromStr (oneProfileText "Base") = .ok (oneProfile "Base") := by
    simp only [twoTexts, if_true]
  have hvalid : (oneProfile "Base").validate = .ok () := by decide
  exact load_onDisk_eq_ok_iff.mpr ⟨_, hfile, hdecode, hvalid⟩

/-- The disk is full: the file is truncated, and no byte can be written. -/
def diskFull : SaveAnswers where
  createDirAll := .ok ()
  write := .cut 0 ⟨.other, "No space left on device (os error 28)"⟩

theorem diskFull_reaches :
    Reaches twoTexts diskFull profilesPath (oneProfile "Field") (asBytes (oneProfileText "Field")) where
  valid := by decide +kernel
  parent := rfl
  directory := rfl
  encoded := twoTexts_encodes_field

/-- **A full disk takes the profiles with it.** The save of `Field` fails, the file with `Base` no longer loads, and
the application starts with the default store. -/
theorem full_disk_loses_store :
    let saved := saveToPath twoTexts diskFull baseOnDisk profilesPath (oneProfile "Field")
    loadFromPath (twoTexts.onDisk baseOnDisk) profilesPath = .ok (oneProfile "Base") ∧
    saved.1 = .error (.write profilesPath ⟨.other, "No space left on device (os error 28)"⟩) ∧
    ¬ KeepsStore twoTexts profilesPath (oneProfile "Base") (oneProfile "Field") saved ∧
    (loadProfileStore (twoTexts.onDisk saved.2) (.ok profilesPath) fun _ => true).1 = ProfileStore.default := by
  intro saved
  have hempty : 0 < (asBytes (oneProfileText "Field")).length := by decide +kernel
  have hsaved : saved = (.error (.write profilesPath ⟨.other, "No space left on device (os error 28)"⟩),
      baseOnDisk.put profilesPath ((asBytes (oneProfileText "Field")).take 0)) :=
    saveToPath_of_reaches diskFull_reaches
  have hrestart := loadProfileStore_after_cut twoTexts_refusesCut diskFull_reaches rfl hempty baseOnDisk fun _ => true
  rw [saveProfileStore_ok] at hrestart
  refine ⟨baseOnDisk_loads, congrArg Prod.fst hsaved, ?_, hrestart⟩
  rw [hsaved, keepsStore_of_error]
  exact load_of_put_take twoTexts_refusesCut diskFull_reaches hempty baseOnDisk _

/-- With a file that cannot be opened the save fails and keeps the store. -/
theorem save_keeps_store_iff_read_only :
    KeepsStore twoTexts profilesPath (oneProfile "Base") (oneProfile "Field")
      (saveToPath twoTexts ⟨.ok (), .refused ⟨.other, "Permission denied (os error 13)"⟩⟩ baseOnDisk profilesPath
        (oneProfile "Field")) := by
  refine (save_keeps_store_iff twoTexts _ baseOnDisk profilesPath _ _ baseOnDisk_loads twoTexts_roundTrips
    twoTexts_refusesCut).mpr ?_
  exact not_losesStore rfl fun _ _ => WriteOutcome.noConfusion

end IncomUdon.Desktop
