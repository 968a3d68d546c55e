/-
# IncomUdon.Desktop.Restart — the profile store over the lifetimes of the application.

A host runs the application over a disk. What the save callbacks do to the disk is that of
`IncomUdon.Desktop.SaveStore`; at any time the process may end and be started again, and a process that is killed in
the middle of `fs::write` is one whose write is cut before it ends. §1 is the host, §2 what one save leaves on the
disk, and §3 follows the disk through any number of lifetimes: a restart finds what the last save wrote, whatever was
edited, refused and lost in between.
-/
import IncomUdon.Desktop.App
import IncomUdon.Desktop.SaveStore
import IncomUdon.Lib.Durable
import IncomUdon.Lib.Machine

namespace IncomUdon.Desktop

open IncomUdon.Lib
open IncomUdon.Core
open IncomUdon.Crypto
open IncomUdon.Transport

/-! ## §1 — the host -/

/-- A process on its disk. -/
structure Host where
  disk : Disk
  app : App

/-- A step of the process, or the next process. -/
inductive HostInput where
  /-- A step of the application, with the answers of the file system should it save. -/
  | step (input : Input) (answers : SaveAnswers)
  /-- The process ends, in whatever way, and is started again. -/
  | restart (audio : Bool)

/-- What a step does, with the saves it makes. -/
inductive HostEffect where
  | app (effect : AppEffect)
  /-- `save_profile_store` was called with this store and returned this. -/
  | saved (store : ProfileStore) (fate : Fate) (result : Except ProfileStorageError Unit)

/-- The store that a callback hands to `save_profile_store`: the one its edit was accepted in. -/
def App.saving? (app : App) : Input → Option ProfileStore
  | .callback (.saveProfile _) =>
    if app.pc = .idle then
      match profileFromWindow app.window with
      | .ok profile =>
        match app.store.replaceActive profile with
        | (.ok (), store) => some store
        | _ => none
      | .error _ => none
    else none
  | .callback (.saveRelaySettings _) =>
    if app.pc = .idle then
      match relayFromWindow app.window with
      | .ok relay =>
        match app.store.replaceRelay relay with
        | (.ok (), store) => some store
        | _ => none
      | .error _ => none
    else none
  | _ => none

/-- The same callback, with the answer it gets. -/
def Input.withSaved (saved : Except ProfileStorageError Unit) : Input → Input
  | .callback (.saveProfile _) => .callback (.saveProfile saved)
  | .callback (.saveRelaySettings _) => .callback (.saveRelaySettings saved)
  | input => input

/-- What a save leaves of the store on the disk. -/
def saveFate (storage : SaveCrates) (answers : SaveAnswers) (path : Path) (store : ProfileStore) : Fate :=
  match store.validate, storage.parent path, answers.createDirAll, storage.toVecPretty store with
  | .ok (), some _, .ok (), .ok encoded =>
    match answers.write with
    | .refused _ => .kept
    | .cut written _ => if written < encoded.length then .lost else .written
    | .complete => .written
  | _, _, _, _ => .kept

section

variable (crates : CryptoCrates) (storage : SaveCrates) (path : Path)

/-- What `load_profile_store` finds. -/
def found (disk : Disk) : ProfileStore × String :=
  loadProfileStore (storage.onDisk disk) (.ok path) fun p => (disk p).isSome

/-- A process is started. -/
def Host.start (disk : Disk) (audio : Bool) : Host := ⟨disk, App.start (found storage path disk) audio⟩

/-- **One step of the host.** A step that saves writes the disk, and is answered by what the write returned. -/
def hostStep (host : Host) : HostInput → Option (Host × List HostEffect)
  | .step input answers =>
    match host.app.saving? input with
    | none => (appStep crates host.app input).map fun (app, effects) => ({ host with app }, effects.map .app)
    | some store =>
      let saved := saveProfileStore storage answers host.disk (.ok path) store
      (appStep crates host.app (input.withSaved saved.1)).map fun (app, effects) =>
        ({ disk := saved.2, app }, effects.map .app ++ [.saved store (saveFate storage answers path store) saved.1])
  | .restart audio => some (Host.start storage path host.disk audio, [])

/-- The store that loads from the disk, if one does. -/
def durable (disk : Disk) : Option ProfileStore := (loadFromPath (storage.onDisk disk) path).toOption

end

/-- The saves, with what they left. -/
def HostEffect.save? : HostEffect → Option (ProfileStore × Fate)
  | .saved store fate _ => some (store, fate)
  | .app _ => none

/-- The saves of a run, oldest first. -/
def saves (log : List HostEffect) : List (ProfileStore × Fate) := log.filterMap HostEffect.save?

/-! ## §2 — one save -/

section

/-- **What is saved is what the application has in memory** behind the step, whatever the save answers. -/
theorem saving_store {crates : CryptoCrates} {app app' : App} {input : Input} {store : ProfileStore}
    {saved : Except ProfileStorageError Unit} {effects : List AppEffect} (hsaving : app.saving? input = some store)
    (h : appStep crates app (input.withSaved saved) = some (app', effects)) : app'.store = store ∧ effects = [] := by
  cases input with
  | callback callback =>
    cases callback with
    | saveProfile _ =>
      simp only [App.saving?] at hsaving
      split at hsaving
      · rename_i hidle
        split at hsaving
        · rename_i profile hprofile
          split at hsaving
          · rename_i store' hreplaced
            obtain rfl := Option.some.inj hsaving
            simp only [Input.withSaved, appStep, if_pos hidle, App.callback, App.saveProfile, hprofile, hreplaced,
              App.save] at h
            obtain ⟨rfl, rfl⟩ := Prod.mk.inj (Option.some.inj h)
            cases saved <;> exact ⟨rfl, rfl⟩
          · cases hsaving
        · cases hsaving
      · cases hsaving
    | saveRelaySettings _ =>
      simp only [App.saving?] at hsaving
      split at hsaving
      · rename_i hidle
        split at hsaving
        · rename_i relay hrelay
          split at hsaving
          · rename_i store' hreplaced
            obtain rfl := Option.some.inj hsaving
            simp only [Input.withSaved, appStep, if_pos hidle, App.callback, App.saveRelaySettings, hrelay, hreplaced,
              App.save] at h
            obtain ⟨rfl, rfl⟩ := Prod.mk.inj (Option.some.inj h)
            cases saved <;> exact ⟨rfl, rfl⟩
          · cases hsaving
        · cases hsaving
      · cases hsaving
    | _ => cases hsaving
  | _ => cases hsaving

variable {crates : CryptoCrates} {storage : SaveCrates} {path : Path} {answers : SaveAnswers} {store : ProfileStore}
  {disk : Disk}

theorem durable_eq_some_iff : durable storage path disk = some store ↔
    loadFromPath (storage.onDisk disk) path = .ok store := by
  unfold durable
  cases loadFromPath (storage.onDisk disk) path with
  | error error => exact ⟨fun h => (nomatch h), fun h => (nomatch h)⟩
  | ok loaded => simp [Except.toOption]

/-- Where nothing loads, the application starts with the default store. -/
theorem found_fst (storage : SaveCrates) (path : Path) (disk : Disk) :
    (found storage path disk).1 = (durable storage path disk).getD ProfileStore.default := by
  unfold found durable loadProfileStore
  dsimp only
  split
  · cases loadFromPath (storage.onDisk disk) path <;> rfl
  · rename_i habsent
    have hnone : disk path = none := by simpa using habsent
    have hread : loadFromPath (storage.onDisk disk) path =
        .error (.read path ⟨.other, "No such file or directory (os error 2)"⟩) := by
      simp only [loadFromPath, SaveCrates.onDisk, Disk.readToString, hnone]
    rw [hread]
    rfl

/-- A save that gets to `fs::write` ends as the write does. -/
theorem saveFate_of_reaches {encoded : Bytes} (h : Reaches storage answers path store encoded) :
    saveFate storage answers path store = match answers.write with
      | .refused _ => .kept
      | .cut written _ => if written < encoded.length then .lost else .written
      | .complete => .written := by
  obtain ⟨parent, hparent⟩ := Option.isSome_iff_exists.mp h.parent
  simp only [saveFate, h.valid, hparent, h.directory, h.encoded]

/-- One that does not leaves the store on the disk. -/
theorem saveFate_stops (h : ∀ encoded, ¬ Reaches storage answers path store encoded) :
    saveFate storage answers path store = .kept := by
  unfold saveFate
  split
  · rename_i encoded hvalid hparent hdirectory hencoded
    exact absurd ⟨hvalid, Option.isSome_of_eq_some hparent, hdirectory, hencoded⟩ (h encoded)
  · rfl

/-- What a cut write leaves loads as nothing. -/
theorem durable_put_take {encoded : Bytes} {written : Nat} (hcut : RefusesCut storage store)
    (h : Reaches storage answers path store encoded) (hlt : written < encoded.length) (disk : Disk) :
    durable storage path (disk.put path (encoded.take written)) = none := by
  cases hdurable : durable storage path (disk.put path (encoded.take written)) with
  | none => rfl
  | some loaded => exact absurd (durable_eq_some_iff.mp hdurable) (load_of_put_take hcut h hlt disk loaded)

/-- **What one save leaves on the disk** is what its fate says, and a save that succeeds has written the store. -/
theorem save_leaves (hserde : RoundTrips storage store) (hcut : RefusesCut storage store) (disk : Disk) :
    durable storage path (saveProfileStore storage answers disk (.ok path) store).2 =
      (saveFate storage answers path store).leaves (durable storage path disk) store ∧
    ((saveProfileStore storage answers disk (.ok path) store).1 = .ok () →
      saveFate storage answers path store = .written) := by
  rw [saveProfileStore_ok]
  by_cases hreaches : ∃ encoded, Reaches storage answers path store encoded
  · obtain ⟨encoded, hreaches⟩ := hreaches
    have hwhole := durable_eq_some_iff.mpr (load_of_put hserde hreaches disk)
    rw [saveToPath_of_reaches hreaches, saveFate_of_reaches hreaches]
    cases answers.write with
    | refused error => exact ⟨rfl, fun h => nomatch h⟩
    | cut written error =>
      refine ⟨?_, fun h => nomatch h⟩
      dsimp only [Disk.write]
      split
      · rename_i hlt
        exact durable_put_take hcut hreaches hlt disk
      · rename_i hge
        rw [List.take_of_length_le (Nat.not_lt.mp hge)]
        exact hwhole
    | complete => exact ⟨hwhole, fun _ => rfl⟩
  · obtain ⟨e, hstops⟩ := saveToPath_stops (not_exists.mp hreaches) disk
    rw [hstops, saveFate_stops (not_exists.mp hreaches)]
    exact ⟨rfl, fun h => nomatch h⟩

end

/-! ## §3 — lifetimes -/

section Lifetimes

variable {crates : CryptoCrates} {storage : SaveCrates} {path : Path} {disk : Disk} {audio : Bool} {host host' : Host}
  {input : HostInput} {inputs : List HostInput} {log effects : List HostEffect}

theorem saves_append (a b : List HostEffect) : saves (a ++ b) = saves a ++ saves b := List.filterMap_append

theorem saves_app (effects : List AppEffect) : saves (effects.map .app) = [] := by
  rw [saves, List.filterMap_map, List.filterMap_eq_nil_iff]
  exact fun _ _ => rfl

/-- **What one step does to the disk**: nothing, or it saves the store that is then in memory. -/
theorem hostStep_disk (h : hostStep crates storage path host input = some (host', effects)) :
    (saves effects = [] ∧ host'.disk = host.disk ∧ ∀ store fate result, .saved store fate result ∉ effects) ∨
    ∃ (answers : SaveAnswers) (store : ProfileStore) (es : List AppEffect),
      effects = es.map .app ++ [.saved store (saveFate storage answers path store)
        (saveProfileStore storage answers host.disk (.ok path) store).1] ∧
      host'.disk = (saveProfileStore storage answers host.disk (.ok path) store).2 ∧ host'.app.store = store := by
  cases input with
  | restart audio =>
    obtain ⟨rfl, rfl⟩ := Prod.mk.inj (Option.some.inj h)
    exact Or.inl ⟨rfl, rfl, by simp⟩
  | step input answers =>
    unfold hostStep at h
    dsimp only at h
    split at h
    · obtain ⟨⟨app, es⟩, -, heq⟩ := Option.map_eq_some_iff.mp h
      obtain ⟨rfl, rfl⟩ := Prod.mk.inj heq
      exact Or.inl ⟨saves_app es, rfl, by simp⟩
    · rename_i store hsaving
      obtain ⟨⟨app, es⟩, hstep, heq⟩ := Option.map_eq_some_iff.mp h
      obtain ⟨rfl, rfl⟩ := Prod.mk.inj heq
      exact Or.inr ⟨answers, store, es, rfl, rfl, (saving_store hsaving hstep).1⟩

/-- The disk so far: it holds what the saves left, and a save that was reported as done has written. -/
structure HostSoFar (storage : SaveCrates) (path : Path) (disk : Disk) (host : Host) (log : List HostEffect) :
    Prop where
  durable : durable storage path host.disk = survivor (durable storage path disk) (saves log)
  reported : ∀ store fate, HostEffect.saved store fate (.ok ()) ∈ log → fate = .written

theorem HostSoFar.step (hserde : ∀ store, RoundTrips storage store ∧ RefusesCut storage store)
    (hinv : HostSoFar storage path disk host log)
    (h : hostStep crates storage path host input = some (host', effects)) :
    HostSoFar storage path disk host' (log ++ effects) := by
  rcases hostStep_disk h with ⟨hnone, hdisk, hquiet⟩ | ⟨answers, store, es, rfl, hdisk, -⟩
  · refine ⟨?_, ?_⟩
    · rw [hdisk, saves_append, hnone, List.append_nil]
      exact hinv.durable
    · intro store fate hmem
      exact hinv.reported store fate ((List.mem_append.mp hmem).resolve_right (hquiet _ _ _))
  · obtain ⟨hleaves, hreported⟩ := @save_leaves storage path answers store (hserde store).1 (hserde store).2 host.disk
    refine ⟨?_, ?_⟩
    · have hone : saves (es.map .app ++ [.saved store (saveFate storage answers path store)
          (saveProfileStore storage answers host.disk (.ok path) store).1]) =
          [(store, saveFate storage answers path store)] := by
        rw [saves_append, saves_app]
        rfl
      rw [saves_append, hone, survivor_concat, hdisk, hleaves, hinv.durable]
    · intro store' fate hmem
      rcases List.mem_append.mp hmem with hold | hnew
      · exact hinv.reported store' fate hold
      · have hlast := (List.mem_append.mp hnew).resolve_left (by simp)
        obtain ⟨rfl, rfl, hok⟩ := HostEffect.saved.inj (List.mem_singleton.mp hlast)
        exact hreported hok.symm

theorem host_run (hserde : ∀ store, RoundTrips storage store ∧ RefusesCut storage store)
    (hrun : run (hostStep crates storage path) (Host.start storage path disk audio) inputs = some (host, log)) :
    HostSoFar storage path disk host log :=
  run_history (R := fun host _ log => HostSoFar storage path disk host log)
    (fun _ _ _ _ _ _ hinv hstep => hinv.step hserde hstep) ⟨rfl, fun _ _ hmem => nomatch hmem⟩ hrun

/-- **What a restart finds.** Over any number of lifetimes of the application, with edits, saves that succeed, fail or
are cut, and processes killed at any time: the store the next process starts with is valid, and it is what the saves
so far left, starting from the first disk. So behind a save that was reported as done, and any number that were
refused, it is the store of that save; behind a write that was cut short it is the default. -/
theorem restart_finds_last_save (hserde : ∀ store, RoundTrips storage store ∧ RefusesCut storage store)
    (hrun : run (hostStep crates storage path) (Host.start storage path disk audio) inputs = some (host, log)) :
    (found storage path host.disk).1 =
      (survivor (durable storage path disk) (saves log)).getD ProfileStore.default ∧
    (found storage path host.disk).1.Valid ∧
    (∀ store fate, HostEffect.saved store fate (.ok ()) ∈ log → fate = .written) ∧
    (∀ before store fate after, saves log = before ++ (store, fate) :: after →
      (∀ save ∈ after, save.2 = .kept) →
        (fate = .written → (found storage path host.disk).1 = store) ∧
        (fate = .lost → (found storage path host.disk).1 = ProfileStore.default)) := by
  have hinv := host_run hserde hrun
  have hfound : (found storage path host.disk).1 =
      (survivor (durable storage path disk) (saves log)).getD ProfileStore.default := by
    rw [found_fst, hinv.durable]
  refine ⟨hfound, (loadProfileStore_initial _ _ _).valid, hinv.reported, ?_⟩
  intro before store fate after hsaves hkept
  rw [hfound, hsaves, survivor_last _ before store fate hkept]
  refine ⟨?_, ?_⟩
  · rintro rfl
    rfl
  · rintro rfl
    rfl

end Lifetimes

/-- The stand-in keeps the laws, for the stores it knows and for the others, which it does not encode. -/
theorem twoTexts_laws (store : ProfileStore) : RoundTrips twoTexts store ∧ RefusesCut twoTexts store := by
  by_cases hbase : store = oneProfile "Base"
  · subst hbase
    have hencodes : twoTexts.toVecPretty (oneProfile "Base") = .ok (asBytes (oneProfileText "Base")) := by
      simp only [twoTexts, if_true]
    refine ⟨?_, ?_⟩
    · intro encoded hencoded
      rw [hencodes] at hencoded
      exact ⟨oneProfileText "Base", (Except.ok.inj hencoded).symm, by simp only [twoTexts, if_true]⟩
    · intro encoded written text hencoded hlt htext
      rw [hencodes] at hencoded
      obtain rfl := Except.ok.inj hencoded
      have hwhole : text ≠ oneProfileText "Base" := by
        rintro rfl
        have hlen := congrArg List.length htext
        rw [List.length_take] at hlen
        omega
      have hother : text ≠ oneProfileText "Field" := by
        rintro rfl
        have hprefix : asBytes (oneProfileText "Field") <+: asBytes (oneProfileText "Base") :=
          htext ▸ List.take_prefix written _
        exact absurd hprefix (by decide +kernel)
      exact ⟨_, (if_neg hwhole).trans (if_neg hother)⟩
  by_cases hfield : store = oneProfile "Field"
  · subst hfield
    exact ⟨twoTexts_roundTrips, twoTexts_refusesCut⟩
  · have hrefuses : twoTexts.toVecPretty store = .error ⟨"unknown store"⟩ := by
      simp only [twoTexts, if_neg hbase, if_neg hfield]
    refine ⟨?_, ?_⟩
    · intro encoded hencoded
      rw [hrefuses] at hencoded
      cases hencoded
    · intro encoded written text hencoded
      rw [hrefuses] at hencoded
      cases hencoded

/-- The profile is renamed and saved. -/
def renames (name : String) (write : WriteOutcome) : List HostInput :=
  [.step (.edit { AppWindow.new.form with profileName := name.toList }) ⟨.ok (), .complete⟩,
    .step (.callback (.saveProfile (.ok ()))) ⟨.ok (), write⟩]

/-- A disk without a file. -/
def noFiles : Disk := fun _ => none

/-- A first start, a start with nothing saved, and the name `Field` is saved. -/
def fieldInputs : List HostInput := .restart true :: renames "Field" .complete

/-- Then the name `Base` is saved, and the process dies behind the truncation. -/
def baseInputs : List HostInput := fieldInputs ++ renames "Base" (.cut 0 ⟨.other, "killed"⟩)

/-- A process started behind the first save has `Field`, one started behind the second the default. -/
theorem restart_finds_last_save_rename : ∃ host log host' log',
    run (hostStep tagCrates twoTexts profilesPath) (Host.start twoTexts profilesPath noFiles true) fieldInputs =
      some (host, log) ∧
    run (hostStep tagCrates twoTexts profilesPath) (Host.start twoTexts profilesPath noFiles true) baseInputs =
      some (host', log') ∧
    (found twoTexts profilesPath host.disk).1 = oneProfile "Field" ∧
    (found twoTexts profilesPath host'.disk).1 = ProfileStore.default := by
  have hfield : (run (hostStep tagCrates twoTexts profilesPath) (Host.start twoTexts profilesPath noFiles true)
      fieldInputs).map (fun r => saves r.2) = some [(oneProfile "Field", .written)] := by decide +kernel
  have hbase : (run (hostStep tagCrates twoTexts profilesPath) (Host.start twoTexts profilesPath noFiles true)
      baseInputs).map (fun r => saves r.2) = some [(oneProfile "Field", .written), (oneProfile "Base", .lost)] := by
    decide +kernel
  obtain ⟨⟨host, log⟩, hrun, hsaves⟩ := Option.map_eq_some_iff.mp hfield
  obtain ⟨⟨host', log'⟩, hrun', hsaves'⟩ := Option.map_eq_some_iff.mp hbase
  have hwritten := (restart_finds_last_save twoTexts_laws hrun).2.2.2 [] (oneProfile "Field") .written [] hsaves
    (by simp)
  have hlost := (restart_finds_last_save twoTexts_laws hrun').2.2.2 [(oneProfile "Field", .written)]
    (oneProfile "Base") .lost [] hsaves' (by simp)
  exact ⟨host, log, host', log', hrun, hrun', hwritten.1 rfl, hlost.2 rfl⟩

end IncomUdon.Desktop
