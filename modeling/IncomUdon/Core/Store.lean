/-
# IncomUdon.Core.Store — when a change to the profile store is atomic.

`replace_relay` re-validates a store in which nothing but the already checked relay changed, so it either
refuses the argument or keeps the store valid. `replace_active` writes the new profile first and looks for a
name collision afterwards: a colliding name is reported, and stays in the store. `Atomic` is what a caller would
want of one operation and `Admissible` the condition under which the code delivers it.
-/
import IncomUdon.Core.Profile
import IncomUdon.Lib.Machine

namespace IncomUdon.Core

open IncomUdon.Lib

/-! ## Operations and their runs -/

/-- A call of `replace_active` or `replace_relay`. -/
inductive StoreOp where
  | replaceActive (profile : TransceiverProfile)
  | replaceRelay (relay : RelayEndpoint)
  deriving DecidableEq, Repr

/-- What the call returns, and the store behind it. -/
def ProfileStore.perform (store : ProfileStore) : StoreOp → Outcome ProfileError Unit × ProfileStore
  | .replaceActive profile => store.replaceActive profile
  | .replaceRelay relay => store.replaceRelay relay

/-- One call: the store it leaves and its result. A panic ends the run. -/
def storeStep (store : ProfileStore) (op : StoreOp) :
    Option (ProfileStore × List (Outcome ProfileError Unit)) :=
  match store.perform op with
  | (.panicked, _) => none
  | (result, store') => some (store', [result])

/-- The store that differs from `store` in the replaced entry only. -/
def ProfileStore.replaced (store : ProfileStore) : StoreOp → ProfileStore
  | .replaceActive profile =>
      { store with profiles := store.profiles.set store.activeProfile profile }
  | .replaceRelay relay => { store with relay }

/-- Either `Ok`, and the store validates and differs only in the replaced entry, or `Err`, and the store is
exactly what it was. -/
def Atomic (store : ProfileStore) (op : StoreOp) : Prop :=
  ((store.perform op).1 = .ok () ∧ (store.perform op).2 = store.replaced op ∧
      (store.perform op).2.validate = .ok ()) ∨
    ((∃ e, (store.perform op).1 = .err e) ∧ (store.perform op).2 = store)

/-- The new profile is refused by itself, or its name is that of no other entry up to ASCII case. -/
def Admissible (store : ProfileStore) : StoreOp → Prop
  | .replaceActive profile =>
      validateProfile profile ≠ .ok () ∨
        ∀ i q, i ≠ store.activeProfile → store.profiles[i]? = some q → ¬ SameName profile q
  | .replaceRelay _ => True

instance (store : ProfileStore) (op : StoreOp) : Decidable (Admissible store op) :=
  match op with
  | .replaceActive profile =>
      decidable_of_iff (validateProfile profile ≠ .ok () ∨
        ∀ x ∈ store.profiles.zipIdx, x.2 ≠ store.activeProfile → ¬ SameName profile x.1)
        (or_congr_right
          ⟨fun h i q hi hq => h (q, i) (List.mem_zipIdx_iff_getElem?.mpr hq) hi,
            fun h x hx hi => h x.2 x.1 hi (List.mem_zipIdx_iff_getElem?.mp hx)⟩)
  | .replaceRelay _ => isTrue trivial

/-! ## One operation on a valid store -/

section

variable {store : ProfileStore}

theorem Valid.replaceRelay (hvalid : store.Valid) {relay : RelayEndpoint}
    (hrelay : validateRelayEndpoint relay = .ok ()) : ({ store with relay } : ProfileStore).Valid where
  version := hvalid.version
  relay := hrelay
  active_lt := hvalid.active_lt
  profiles := hvalid.profiles
  names := hvalid.names

/-- Replacing entry `k` keeps names distinct exactly when the new name is that of no other entry. -/
theorem pairwise_set_iff {profiles : List TransceiverProfile} {k : Nat} (profile : TransceiverProfile)
    (hk : k < profiles.length) (hpair : profiles.Pairwise fun p q => ¬ SameName p q) :
    ((profiles.set k profile).Pairwise fun p q => ¬ SameName p q) ↔
      ∀ i q, i ≠ k → profiles[i]? = some q → ¬ SameName profile q := by
  rw [List.pairwise_iff_getElem] at hpair ⊢
  simp only [List.length_set, List.getElem_set]
  constructor
  · intro h i q hik hq hsame
    obtain ⟨hi, rfl⟩ := List.getElem?_eq_some_iff.mp hq
    rcases Nat.lt_or_gt_of_ne hik with hlt | hgt
    · -- the other entry comes first
      have hne := h i k hi hk hlt
      rw [if_neg (Ne.symm hik), if_pos rfl] at hne
      exact hne hsame.symm
    · have hne := h k i hk hi hgt
      rw [if_pos rfl, if_neg (Ne.symm hik)] at hne
      exact hne hsame
  · intro h i j hi hj hij
    by_cases hki : k = i
    · subst hki
      rw [if_pos rfl, if_neg (Nat.ne_of_lt hij)]
      exact h j _ (Nat.ne_of_gt hij) (List.getElem?_eq_getElem hj)
    · by_cases hkj : k = j
      · subst hkj
        rw [if_neg hki, if_pos rfl]
        exact fun hsame => h i _ (Ne.symm hki) (List.getElem?_eq_getElem hi) hsame.symm
      · rw [if_neg hki, if_neg hkj]
        exact hpair i j hi hj hij

/-- The store with the new profile in it is valid exactly when its name collides with no other entry. -/
theorem Valid.replaceActive_iff (hvalid : store.Valid) {profile : TransceiverProfile}
    (hprofile : validateProfile profile = .ok ()) :
    (store.replaced (.replaceActive profile)).Valid ↔ Admissible store (.replaceActive profile) := by
  have hnames := pairwise_set_iff profile hvalid.active_lt hvalid.names
  constructor
  · intro h
    exact Or.inr (hnames.mp h.names)
  · rintro (hrefused | hfresh)
    · exact absurd hprofile hrefused
    refine ⟨hvalid.version, hvalid.relay, ?_, ?_, hnames.mpr hfresh⟩
    · show store.activeProfile < (store.profiles.set store.activeProfile profile).length
      rw [List.length_set]
      exact hvalid.active_lt
    · intro p hp
      rcases List.mem_or_eq_of_mem_set hp with hold | rfl
      · exact hvalid.profiles p hold
      · exact hprofile

/-- On a valid store `replace_active` of a profile that is fine by itself writes it, then validates. -/
theorem perform_replaceActive (hvalid : store.Valid) {profile : TransceiverProfile}
    (hprofile : validateProfile profile = .ok ()) :
    store.perform (.replaceActive profile) =
      (Outcome.ofExcept (store.replaced (.replaceActive profile)).validate,
        store.replaced (.replaceActive profile)) := by
  show store.replaceActive profile = _
  rw [ProfileStore.replaceActive, hprofile]
  show (if _ then _ else _) = _
  rw [if_pos hvalid.active_lt]
  rfl

theorem validateProfile_ne_ok {profile : TransceiverProfile} (h : validateProfile profile ≠ .ok ()) :
    ∃ e, validateProfile profile = .error e := by
  cases hv : validateProfile profile with
  | ok u => exact absurd hv h
  | error e => exact ⟨e, rfl⟩

/-- No operation on a valid store panics. -/
theorem perform_ne_panicked (hvalid : store.Valid) (op : StoreOp) :
    (store.perform op).1 ≠ .panicked := by
  cases op with
  | replaceActive profile =>
    by_cases hprofile : validateProfile profile = .ok ()
    · rw [perform_replaceActive hvalid hprofile]
      exact Outcome.ofExcept_ne_panicked _
    · obtain ⟨e, he⟩ := validateProfile_ne_ok hprofile
      simp [ProfileStore.perform, ProfileStore.replaceActive, he]
  | replaceRelay relay =>
    show (store.replaceRelay relay).1 ≠ _
    rw [ProfileStore.replaceRelay]
    split
    · simp
    · exact Outcome.ofExcept_ne_panicked _

/-- A collision leaves the new profile in the store: an error, and not the store it was. -/
theorem replaceActive_collision (hvalid : store.Valid) {profile : TransceiverProfile}
    (hprofile : validateProfile profile = .ok ())
    (hcollides : ¬ Admissible store (.replaceActive profile)) :
    (∃ e, (store.perform (.replaceActive profile)).1 = .err e) ∧
      (store.perform (.replaceActive profile)).2 ≠ store := by
  rw [perform_replaceActive hvalid hprofile]
  have hinvalid := mt (Valid.replaceActive_iff hvalid hprofile).mp hcollides
  refine ⟨?_, fun hsame => hinvalid ?_⟩
  swap
  · have hsame' : store.replaced (.replaceActive profile) = store := hsame
    rw [hsame']
    exact hvalid
  cases hv : (store.replaced (.replaceActive profile)).validate with
  | ok u => exact absurd (ProfileStore.validate_eq_ok_iff.mp hv) hinvalid
  | error e => exact ⟨e, rfl⟩

/-- **One operation is atomic exactly when it is admissible.** -/
theorem atomic_iff_admissible (hvalid : store.Valid) (op : StoreOp) :
    Atomic store op ↔ Admissible store op := by
  cases op with
  | replaceActive profile =>
    by_cases hprofile : validateProfile profile = .ok ()
    · constructor
      · intro hatomic
        by_contra hcollides
        obtain ⟨⟨e, he⟩, hchanged⟩ := replaceActive_collision hvalid hprofile hcollides
        rcases hatomic with ⟨hok, _⟩ | ⟨_, hsame⟩
        · rw [he] at hok
          cases hok
        · exact hchanged hsame
      · intro hadm
        have hok := ProfileStore.validate_eq_ok_iff.mpr ((Valid.replaceActive_iff hvalid hprofile).mpr hadm)
        refine Or.inl ?_
        rw [perform_replaceActive hvalid hprofile]
        exact ⟨congrArg Outcome.ofExcept hok, rfl, hok⟩
    · obtain ⟨e, he⟩ := validateProfile_ne_ok hprofile
      refine ⟨fun _ => Or.inl hprofile, fun _ => Or.inr ?_⟩
      have hrefused : store.perform (.replaceActive profile) = (.err e, store) := by
        show store.replaceActive profile = _
        rw [ProfileStore.replaceActive, he]
      rw [hrefused]
      exact ⟨⟨e, rfl⟩, rfl⟩
  | replaceRelay relay =>
    refine ⟨fun _ => trivial, fun _ => ?_⟩
    cases hrelay : validateRelayEndpoint relay with
    | error e =>
      refine Or.inr ?_
      have hrefused : store.perform (.replaceRelay relay) = (.err e, store) := by
        show store.replaceRelay relay = _
        rw [ProfileStore.replaceRelay, hrelay]
      rw [hrefused]
      exact ⟨⟨e, rfl⟩, rfl⟩
    | ok u =>
      have hok := ProfileStore.validate_eq_ok_iff.mpr (Valid.replaceRelay hvalid hrelay)
      have hdone : store.perform (.replaceRelay relay) = (.ok (), { store with relay }) := by
        show store.replaceRelay relay = _
        rw [ProfileStore.replaceRelay, hrelay]
        show (Outcome.ofExcept _, _) = _
        rw [hok]
        rfl
      refine Or.inl ?_
      rw [hdone]
      exact ⟨rfl, rfl, hok⟩

/-- An atomic operation keeps a valid store valid. -/
theorem Atomic.valid (hvalid : store.Valid) {op : StoreOp} (h : Atomic store op) :
    (store.perform op).2.Valid := by
  rcases h with ⟨_, _, hok⟩ | ⟨_, hsame⟩
  · exact ProfileStore.validate_eq_ok_iff.mp hok
  · rw [hsame]
    exact hvalid

theorem storeStep_eq_some (hvalid : store.Valid) (op : StoreOp) :
    storeStep store op = some ((store.perform op).2, [(store.perform op).1]) := by
  have hne := perform_ne_panicked hvalid op
  unfold storeStep
  split
  · rename_i heq
    rw [heq] at hne
    exact absurd rfl hne
  · rename_i heq
    rw [heq]

end

/-! ## Runs -/

/-- In a run from a valid store, every operation is atomic exactly when every operation is admissible. -/
theorem along_atomic_iff (ops : List StoreOp) :
    ∀ store : ProfileStore, store.Valid →
      (Along storeStep Atomic store ops ↔ Along storeStep Admissible store ops) := by
  induction ops with
  | nil => intro _ _; exact Iff.rfl
  | cons op ops ih =>
    intro store hvalid
    have hstep := storeStep_eq_some hvalid op
    constructor
    · rintro ⟨hatomic, hrest⟩
      refine ⟨(atomic_iff_admissible hvalid op).mp hatomic, fun s os hs => ?_⟩
      -- the step is a function: the rest runs on the store it leaves
      have hnext := hrest s os hs
      rw [hstep] at hs
      obtain ⟨rfl, _⟩ := Prod.mk.inj (Option.some.inj hs)
      exact (ih _ (hatomic.valid hvalid)).mp hnext
    · rintro ⟨hadm, hrest⟩
      have hatomic := (atomic_iff_admissible hvalid op).mpr hadm
      refine ⟨hatomic, fun s os hs => ?_⟩
      have hnext := hrest s os hs
      rw [hstep] at hs
      obtain ⟨rfl, _⟩ := Prod.mk.inj (Option.some.inj hs)
      exact (ih _ (hatomic.valid hvalid)).mpr hnext

/-- **A run of admissible operations** never panics and ends in a valid store. -/
theorem run_admissible_valid (ops : List StoreOp) :
    ∀ store : ProfileStore, store.Valid → Along storeStep Admissible store ops →
      ∃ store' results, run storeStep store ops = some (store', results) ∧ store'.Valid := by
  induction ops with
  | nil => exact fun store hvalid _ => ⟨store, [], rfl, hvalid⟩
  | cons op ops ih =>
    rintro store hvalid ⟨hadm, hrest⟩
    have hstep := storeStep_eq_some hvalid op
    have hatomic := (atomic_iff_admissible hvalid op).mpr hadm
    obtain ⟨store', results, hrun, hvalid'⟩ :=
      ih _ (hatomic.valid hvalid) (hrest _ _ hstep)
    exact ⟨store', _, run_cons_eq_some.mpr ⟨_, _, _, hstep, hrun, rfl⟩, hvalid'⟩

end IncomUdon.Core
