/-
# IncomUdon.Lib.Machine — runs of a partial step function, and how to reason about them.

A machine is a function `step : σ → ι → Option (σ × List ο)`: in a state, an input is refused or leads to a next
state and the outputs it makes. `run step s is` feeds a whole schedule and joins the outputs. Six rules carry
every result about runs:

  * `run_history`    — what each step preserves of state, schedule and outputs so far, the run preserves;
  * `Along`          — a condition on every step a run takes (its state and its input), with the same rule
                       relative to it (`run_history_along`);
  * `run_simulation` — two runs whose schedules match up to silent inputs have matching visible outputs;
  * `run_refines`    — where one machine answers every step of another with the same outputs, it answers its runs;
  * `run_ends`       — where every step lowers a measure, a long schedule gets the machine to its end;
  * `run_served`     — where some steps lower a measure and none raises it, what is left falls by those taken.
-/
import Mathlib.Data.List.Basic
import Mathlib.Data.List.Forall2

namespace IncomUdon.Lib

variable {σ ι ο : Type}

/-- Feed the schedule `is` from the state `s`. -/
def run (step : σ → ι → Option (σ × List ο)) : σ → List ι → Option (σ × List ο)
  | s, [] => some (s, [])
  | s, i :: is =>
    match step s i with
    | none => none
    | some (s', os) =>
      match run step s' is with
      | none => none
      | some (s'', os') => some (s'', os ++ os')

/-- Every step the run of `is` from `s` takes meets `P`. -/
def Along (step : σ → ι → Option (σ × List ο)) (P : σ → ι → Prop) : σ → List ι → Prop
  | _, [] => True
  | s, i :: is => P s i ∧ ∀ s' os, step s i = some (s', os) → Along step P s' is

section Rules

variable {step : σ → ι → Option (σ × List ο)}

/-- A run of one more input is a step and the run of the rest. -/
theorem run_cons_eq_some {s s'' : σ} {i : ι} {is : List ι} {out : List ο} :
    run step s (i :: is) = some (s'', out) ↔
      ∃ s' os os', step s i = some (s', os) ∧ run step s' is = some (s'', os') ∧ out = os ++ os' := by
  constructor
  · intro h
    rw [run] at h
    split at h
    · cases h
    · rename_i s' os hstep
      split at h
      · cases h
      · rename_i t os' hrest
        obtain ⟨rfl, rfl⟩ := Prod.mk.inj (Option.some.inj h)
        exact ⟨s', os, os', hstep, hrest, rfl⟩
  · rintro ⟨s', os, os', hstep, hrest, rfl⟩
    simp only [run, hstep, hrest]

/-- A run goes on with one more step. -/
theorem run_concat {s' s'' : σ} {i : ι} {os' : List ο} :
    ∀ {is : List ι} {s : σ} {os : List ο}, run step s is = some (s', os) → step s' i = some (s'', os') →
      run step s (is ++ [i]) = some (s'', os ++ os') := by
  intro is
  induction is with
  | nil =>
    intro s os hrun hstep
    obtain ⟨rfl, rfl⟩ := Prod.mk.inj (Option.some.inj hrun)
    exact run_cons_eq_some.mpr ⟨s'', os', [], hstep, rfl, by rw [List.append_nil, List.nil_append]⟩
  | cons j is ih =>
    intro s os hrun hstep
    obtain ⟨s₁, os₁, os₂, hs, hrest, rfl⟩ := run_cons_eq_some.mp hrun
    exact run_cons_eq_some.mpr ⟨s₁, os₁, os₂ ++ os', hs, ih hrest hstep, by rw [List.append_assoc]⟩

/-- Two runs, one behind the other. -/
theorem run_append {js : List ι} {s' s'' : σ} {os' : List ο} :
    ∀ {is : List ι} {s : σ} {os : List ο}, run step s is = some (s', os) → run step s' js = some (s'', os') →
      run step s (is ++ js) = some (s'', os ++ os') := by
  intro is
  induction is with
  | nil =>
    intro s os hrun hrest
    obtain ⟨rfl, rfl⟩ := Prod.mk.inj (Option.some.inj hrun)
    exact hrest
  | cons i is ih =>
    intro s os hrun hrest
    obtain ⟨s₁, os₁, os₂, hs, htail, rfl⟩ := run_cons_eq_some.mp hrun
    exact run_cons_eq_some.mpr ⟨s₁, os₁, os₂ ++ os', hs, ih htail hrest, by rw [List.append_assoc]⟩

/-- A machine that refuses nothing runs every schedule. -/
theorem run_total (hstep : ∀ s i, ∃ s' os, step s i = some (s', os)) :
    ∀ (is : List ι) (s : σ), ∃ s' os, run step s is = some (s', os) := by
  intro is
  induction is with
  | nil => exact fun s => ⟨s, [], rfl⟩
  | cons i is ih =>
    intro s
    obtain ⟨s₁, os₁, hs⟩ := hstep s i
    obtain ⟨s', os₂, hrest⟩ := ih s₁
    exact ⟨s', os₁ ++ os₂, run_cons_eq_some.mpr ⟨s₁, os₁, os₂, hs, hrest, rfl⟩⟩

/-- **The history rule, relative to a condition on the steps.** `R` relates a state to the schedule and the
outputs that led there; if a step that meets `P` extends it, a run whose steps all meet `P` does. -/
theorem run_history_along {P : σ → ι → Prop} {R : σ → List ι → List ο → Prop}
    (hstep : ∀ s is os i s' os', R s is os → P s i → step s i = some (s', os') →
      R s' (is ++ [i]) (os ++ os')) :
    ∀ (is past : List ι) (seen : List ο) (s s' : σ) (os : List ο), R s past seen →
      Along step P s is → run step s is = some (s', os) → R s' (past ++ is) (seen ++ os) := by
  intro is
  induction is with
  | nil =>
    intro past seen s s' os hR _ hrun
    obtain ⟨rfl, rfl⟩ := Prod.mk.inj (Option.some.inj hrun)
    rw [List.append_nil, List.append_nil]
    exact hR
  | cons i is ih =>
    intro past seen s s' os hR halong hrun
    obtain ⟨s₁, os₁, os₂, hs, hrest, rfl⟩ := run_cons_eq_some.mp hrun
    -- the step extends the history, and the rest of the run starts from the longer one
    have hR₁ := hstep s past seen i s₁ os₁ hR halong.1 hs
    have hR₂ := ih (past ++ [i]) (seen ++ os₁) s₁ s' os₂ hR₁ (halong.2 s₁ os₁ hs) hrest
    rw [List.append_assoc, List.append_assoc] at hR₂
    exact hR₂

/-- A condition that the inputs of the schedule meet in every state holds along any run of it. -/
theorem along_of_forall {P : σ → ι → Prop} {is : List ι} (h : ∀ i ∈ is, ∀ s, P s i) (s : σ) :
    Along step P s is := by
  induction is generalizing s with
  | nil => trivial
  | cons i is ih =>
    refine ⟨h i List.mem_cons_self s, ?_⟩
    intro s' _ _
    exact ih (fun j hj => h j (List.mem_cons_of_mem i hj)) s'

/-- Two stretches of a run, one behind the other. -/
theorem along_append {P : σ → ι → Prop} {js : List ι} :
    ∀ {is : List ι} {s s' : σ} {os : List ο}, run step s is = some (s', os) → Along step P s is → Along step P s' js →
      Along step P s (is ++ js) := by
  intro is
  induction is with
  | nil =>
    intro s s' os hrun _ hrest
    obtain ⟨rfl, -⟩ := Prod.mk.inj (Option.some.inj hrun)
    exact hrest
  | cons i is ih =>
    intro s s' os hrun halong hrest
    obtain ⟨s₁, os₁, os₂, hs, htail, -⟩ := run_cons_eq_some.mp hrun
    refine ⟨halong.1, ?_⟩
    intro t ts ht
    rw [hs, Option.some.injEq, Prod.mk.injEq] at ht
    obtain ⟨rfl, rfl⟩ := ht
    exact ih htail (halong.2 s₁ os₁ hs) hrest

/-- The history rule from a state with a history of its own. -/
theorem run_history_from {R : σ → List ι → List ο → Prop}
    (hstep : ∀ s is os i s' os', R s is os → step s i = some (s', os') → R s' (is ++ [i]) (os ++ os'))
    {is : List ι} (past : List ι) {s s' : σ} {seen os : List ο} (hR : R s past seen)
    (hrun : run step s is = some (s', os)) :
    R s' (past ++ is) (seen ++ os) :=
  run_history_along (P := fun _ _ => True) (fun s is os i s' os' hR _ => hstep s is os i s' os' hR)
    is past seen s s' os hR (along_of_forall (fun _ _ _ => trivial) s) hrun

/-- **The history rule.** -/
theorem run_history {R : σ → List ι → List ο → Prop}
    (hstep : ∀ s is os i s' os', R s is os → step s i = some (s', os') → R s' (is ++ [i]) (os ++ os'))
    {is : List ι} {s s' : σ} {os : List ο} (hinit : R s [] []) (hrun : run step s is = some (s', os)) :
    R s' is os := run_history_from hstep [] hinit hrun

/-- Weakening the condition along a run, where an invariant of the states may be used. -/
theorem Along.imp_of_inv {P Q : σ → ι → Prop} {I : σ → Prop}
    (hinv : ∀ s i s' os, I s → step s i = some (s', os) → I s')
    (hPQ : ∀ s i s' os, I s → step s i = some (s', os) → P s i → Q s i) :
    ∀ (is : List ι) (s s' : σ) (os : List ο), I s → run step s is = some (s', os) →
      Along step P s is → Along step Q s is := by
  intro is
  induction is with
  | nil => intro _ _ _ _ _ _; trivial
  | cons i is ih =>
    intro s s' os hI hrun halong
    obtain ⟨s₁, os₁, os₂, hs, hrest, _⟩ := run_cons_eq_some.mp hrun
    refine ⟨hPQ s i s₁ os₁ hI hs halong.1, ?_⟩
    intro t ts ht
    -- the step is a function: `t` is the state the run goes through
    rw [hs, Option.some.injEq, Prod.mk.injEq] at ht
    obtain ⟨rfl, rfl⟩ := ht
    exact ih s₁ s' os₂ (hinv s i s₁ os₁ hI hs) hrest (halong.2 s₁ os₁ hs)

/-- Weakening the condition along a run. -/
theorem Along.imp {P Q : σ → ι → Prop} (hPQ : ∀ s i s' os, step s i = some (s', os) → P s i → Q s i)
    {is : List ι} {s s' : σ} {os : List ο} (hrun : run step s is = some (s', os)) (h : Along step P s is) :
    Along step Q s is :=
  Along.imp_of_inv (I := fun _ => True) (fun _ _ _ _ _ _ => trivial)
    (fun s i s' os _ hstep => hPQ s i s' os hstep) is s s' os trivial hrun h

end Rules

/-! ## Runs that come to an end -/

section Ending

variable {step : σ → ι → Option (σ × List ο)}

variable (step) in
/-- Inputs that are read through `f`. -/
theorem run_map {κ : Type} (f : κ → ι) :
    ∀ (js : List κ) (s : σ), run (fun s j => step s (f j)) s js = run step s (js.map f) := by
  intro js
  induction js with
  | nil => exact fun _ => rfl
  | cons j js ih =>
    intro s
    rw [run, List.map_cons, run]
    simp only [ih]

/-- **The ending rule.** In states that meet `I`, let the machine go on until it is done and let every step lower
`measure`. Then any schedule that is long enough gets it there, within `measure s` steps. -/
theorem run_ends (I done : σ → Prop) (measure : σ → Nat)
    (hdown : ∀ s i s' os, I s → step s i = some (s', os) → I s' ∧ measure s' < measure s)
    (hgoes : ∀ s i, I s → ¬ done s → ∃ s' os, step s i = some (s', os))
    (hzero : ∀ s, I s → measure s = 0 → done s) :
    ∀ (is : List ι) (s : σ), I s → measure s ≤ is.length →
      ∃ k s' os, k ≤ measure s ∧ run step s (is.take k) = some (s', os) ∧ I s' ∧ done s' := by
  intro is
  induction is with
  | nil =>
    intro s hI hlong
    exact ⟨0, s, [], Nat.zero_le _, rfl, hI, hzero s hI (Nat.le_zero.mp hlong)⟩
  | cons i is ih =>
    intro s hI hlong
    by_cases hdone : done s
    · exact ⟨0, s, [], Nat.zero_le _, rfl, hI, hdone⟩
    · obtain ⟨s₁, os₁, hstep⟩ := hgoes s i hI hdone
      obtain ⟨hI₁, hlt⟩ := hdown s i s₁ os₁ hI hstep
      rw [List.length_cons] at hlong
      obtain ⟨k, s', os, hk, hrun, hI', hdone'⟩ := ih s₁ hI₁ (by omega)
      refine ⟨k + 1, s', os₁ ++ os, by omega, ?_, hI', hdone'⟩
      rw [List.take_succ_cons]
      exact run_cons_eq_some.mpr ⟨s₁, os₁, os, hstep, hrun, rfl⟩

/-- **The service rule.** Of the inputs some are work, others come in between. If work lowers what is left to do and
nothing raises it, then what is left falls by the work done, in any interleaving. -/
theorem run_served {P : ι → Prop} (I : σ → List ο → Prop) (work : ι → Bool) (left : σ → List ο → Nat)
    (hstep : ∀ s os i s' os', I s os → P i → step s i = some (s', os') →
      I s' (os ++ os') ∧ left s' (os ++ os') ≤ left s os - if work i then 1 else 0)
    {is : List ι} (hP : ∀ i ∈ is, P i) {s s' : σ} {os : List ο} (hI : I s []) (hrun : run step s is = some (s', os)) :
    I s' os ∧ left s' os ≤ left s [] - is.countP work := by
  refine run_history_along (P := fun _ i => P i) (R := fun t js ps =>
    I t ps ∧ left t ps ≤ left s [] - js.countP work) ?_ is [] [] s s' os ⟨hI, Nat.le_refl _⟩
    (along_of_forall (fun i hi _ => hP i hi) s) hrun
  rintro t js ps i t' ps' ⟨hT, hle⟩ hPi hs
  obtain ⟨hT', hless⟩ := hstep t ps i t' ps' hT hPi hs
  refine ⟨hT', ?_⟩
  rw [List.countP_append, List.countP_singleton]
  omega

end Ending

/-! ## Numbered streams -/

/-- Element `i` of the list meets `Q i`. -/
def Numbered {π : Type} (Q : Nat → π → Prop) (xs : List π) : Prop := ∀ i x, xs[i]? = some x → Q i x

theorem numbered_nil {π : Type} {Q : Nat → π → Prop} : Numbered Q [] := by
  intro i x h
  cases h

/-- A stream grows by an element that meets the number it gets. -/
theorem Numbered.concat {π : Type} {Q : Nat → π → Prop} {xs : List π} {x : π} (h : Numbered Q xs)
    (hx : Q xs.length x) : Numbered Q (xs ++ [x]) := by
  intro i y hy
  rcases Nat.lt_trichotomy i xs.length with hlt | rfl | hgt
  · rw [List.getElem?_append_left hlt] at hy
    exact h i y hy
  · rw [List.getElem?_concat_length, Option.some.injEq] at hy
    exact hy ▸ hx
  · have hlen := (List.getElem?_eq_some_iff.mp hy).1
    rw [List.length_append, List.length_singleton] at hlen
    omega

/-! ## Two runs side by side -/

/-- **The refinement rule.** `R` ties the states of two machines. If the second takes every input that the first
takes, with the same outputs, and keeps `R`, then every run of the first is a run of the second with its outputs. -/
theorem run_refines {τ : Type} {step : σ → ι → Option (σ × List ο)} {spec : τ → ι → Option (τ × List ο)}
    {R : σ → τ → Prop}
    (hstep : ∀ s t i s' os, R s t → step s i = some (s', os) → ∃ t', spec t i = some (t', os) ∧ R s' t') :
    ∀ (is : List ι) (s s' : σ) (t : τ) (os : List ο), R s t → run step s is = some (s', os) →
      ∃ t', run spec t is = some (t', os) ∧ R s' t' := by
  intro is
  induction is with
  | nil =>
    intro s s' t os hR hrun
    obtain ⟨rfl, rfl⟩ := Prod.mk.inj (Option.some.inj hrun)
    exact ⟨t, rfl, hR⟩
  | cons i is ih =>
    intro s s' t os hR hrun
    obtain ⟨s₁, os₁, os₂, hs, hrest, rfl⟩ := run_cons_eq_some.mp hrun
    obtain ⟨t₁, ht, hR₁⟩ := hstep s t i s₁ os₁ hR hs
    obtain ⟨t', hspec, hR'⟩ := ih s₁ s' t₁ os₂ hR₁ hrest
    exact ⟨t', run_cons_eq_some.mpr ⟨t₁, os₁, os₂, ht, hspec, rfl⟩, hR'⟩

/-- Two schedules that match input by input, up to inputs that are silent on their side. -/
inductive Matched (match_ : ι → ι → Prop) (silent : ι → Prop) : List ι → List ι → Prop where
  | nil : Matched match_ silent [] []
  | both {i j : ι} {is js : List ι} (h : match_ i j) (rest : Matched match_ silent is js) :
      Matched match_ silent (i :: is) (j :: js)
  | left {i : ι} {is js : List ι} (h : silent i) (rest : Matched match_ silent is js) :
      Matched match_ silent (i :: is) js
  | right {j : ι} {is js : List ι} (h : silent j) (rest : Matched match_ silent is js) :
      Matched match_ silent is (j :: js)

/-- **The simulation rule.** `R` ties the states of the two runs, `view` picks what is visible of an output.
If matched inputs keep `R` and make visible outputs related by `V`, and silent inputs keep `R` on either
side and show nothing, then the visible outputs of two runs on matched schedules are related one by one. -/
theorem run_simulation {step : σ → ι → Option (σ × List ο)} {match_ : ι → ι → Prop}
    {silent : ι → Prop} {π : Type} {R : σ → σ → Prop} {view : ο → Option π} {V : π → π → Prop}
    (hboth : ∀ s t i j s' t' os ps, R s t → match_ i j → step s i = some (s', os) →
      step t j = some (t', ps) →
      R s' t' ∧ List.Forall₂ V (os.filterMap view) (ps.filterMap view))
    (hleft : ∀ s t i s' os, R s t → silent i → step s i = some (s', os) →
      R s' t ∧ os.filterMap view = [])
    (hright : ∀ s t j t' ps, R s t → silent j → step t j = some (t', ps) →
      R s t' ∧ ps.filterMap view = [])
    {is js : List ι} (hmatched : Matched match_ silent is js) :
    ∀ (s t s' t' : σ) (os ps : List ο), R s t → run step s is = some (s', os) →
      run step t js = some (t', ps) → List.Forall₂ V (os.filterMap view) (ps.filterMap view) := by
  induction hmatched with
  | nil =>
    intro s t s' t' os ps _ hs ht
    obtain ⟨_, rfl⟩ := Prod.mk.inj (Option.some.inj hs)
    obtain ⟨_, rfl⟩ := Prod.mk.inj (Option.some.inj ht)
    exact List.Forall₂.nil
  | both hm _ ih =>
    intro s t s' t' os ps hR hs ht
    obtain ⟨s₁, os₁, os₂, hs₁, hs₂, rfl⟩ := run_cons_eq_some.mp hs
    obtain ⟨t₁, ps₁, ps₂, ht₁, ht₂, rfl⟩ := run_cons_eq_some.mp ht
    obtain ⟨hR₁, hV⟩ := hboth _ _ _ _ _ _ _ _ hR hm hs₁ ht₁
    rw [List.filterMap_append, List.filterMap_append]
    exact List.rel_append hV (ih s₁ t₁ s' t' os₂ ps₂ hR₁ hs₂ ht₂)
  | left hi _ ih =>
    intro s t s' t' os ps hR hs ht
    obtain ⟨s₁, os₁, os₂, hs₁, hs₂, rfl⟩ := run_cons_eq_some.mp hs
    obtain ⟨hR₁, hquiet⟩ := hleft _ _ _ _ _ hR hi hs₁
    rw [List.filterMap_append, hquiet, List.nil_append]
    exact ih s₁ t s' t' os₂ ps hR₁ hs₂ ht
  | right hj _ ih =>
    intro s t s' t' os ps hR hs ht
    obtain ⟨t₁, ps₁, ps₂, ht₁, ht₂, rfl⟩ := run_cons_eq_some.mp ht
    obtain ⟨hR₁, hquiet⟩ := hright _ _ _ _ _ hR hj ht₁
    rw [List.filterMap_append, hquiet, List.nil_append]
    exact ih s t₁ s' t' os ps₂ hR₁ hs ht₂

end IncomUdon.Lib
