/-
# IncomUdon.Lib.Product — many machines of one kind, and what an onlooker writes down.

`product step` is a family of machines of which one moves at a time, in any interleaving. Seen from one of them, a run
of the family is a run of its own (`run_product`). Two more constructions leave a machine as it is and only write
down what happens, so that a condition or a result can speak of it:

  * `traced`   — the state carries the outputs so far (`run_traced`), and a condition on the steps that speaks of them
                 can be computed (`along_of_checked`);
  * `observed` — what `view` sees of the state and the input, step by step (`run_observed`).
-/
import Mathlib.Data.List.Nodup
import IncomUdon.Lib.Machine
import IncomUdon.Lib.Sublists

namespace IncomUdon.Lib

variable {ν σ ι ο π α : Type}

/-! ## Families -/

section Families

variable [DecidableEq ν]

/-- One member of the family takes a step. -/
def product (step : σ → ι → Option (σ × List ο)) (states : ν → σ) (input : ν × ι) :
    Option ((ν → σ) × List (ν × ο)) :=
  match step (states input.1) input.2 with
  | none => none
  | some (s, os) => some (Function.update states input.1 s, os.map fun o => (input.1, o))

/-- The entries of member `n`. -/
def onlyAt (n : ν) (xs : List (ν × α)) : List α := xs.filterMap fun x => if x.1 = n then some x.2 else none

theorem onlyAt_append (n : ν) (xs ys : List (ν × α)) : onlyAt n (xs ++ ys) = onlyAt n xs ++ onlyAt n ys :=
  List.filterMap_append

/-- What is tagged with one member is at that member only. -/
theorem onlyAt_map (m n : ν) (xs : List α) : onlyAt n (xs.map fun x => (m, x)) = if m = n then xs else [] := by
  rw [onlyAt, List.filterMap_map]
  split
  · rename_i h
    subst h
    calc xs.filterMap _ = xs.filterMap some := List.filterMap_congr fun x _ => if_pos rfl
      _ = xs := List.filterMap_some
  · rename_i h
    rw [List.filterMap_eq_nil_iff]
    exact fun x _ => if_neg h

theorem onlyAt_singleton (m n : ν) (x : α) : onlyAt n [(m, x)] = if m = n then [x] else [] := onlyAt_map m n [x]

theorem mem_onlyAt {n : ν} {x : α} {xs : List (ν × α)} : x ∈ onlyAt n xs ↔ (n, x) ∈ xs := by
  constructor
  · intro h
    obtain ⟨⟨m, y⟩, hmem, heq⟩ := List.mem_filterMap.mp h
    simp only [Option.ite_none_right_eq_some, Option.some.injEq] at heq
    obtain ⟨rfl, rfl⟩ := heq
    exact hmem
  · exact fun h => List.mem_filterMap.mpr ⟨(n, x), h, if_pos rfl⟩

/-- **No entry comes twice** exactly when it comes twice neither at one member nor at two. -/
theorem nodup_snd_iff {xs : List (ν × α)} :
    (xs.map Prod.snd).Nodup ↔
      (∀ n, (onlyAt n xs).Nodup) ∧ ∀ m n, m ≠ n → (onlyAt m xs).Disjoint (onlyAt n xs) := by
  constructor
  · intro h
    refine ⟨fun n => ?_, fun m n hmn x hm hn => ?_⟩
    · have hsublist : (onlyAt n xs).Sublist (xs.filterMap fun x => some x.2) := by
        apply filterMap_sublist
        intro x y hxy
        split at hxy
        · exact hxy
        · cases hxy
      rw [List.filterMap_eq_map'] at hsublist
      exact h.sublist hsublist
    · exact hmn (congrArg Prod.fst (List.inj_on_of_nodup_map h (mem_onlyAt.mp hm) (mem_onlyAt.mp hn) rfl))
  · rintro ⟨hown, hapart⟩
    refine List.Nodup.map_on ?_ ?_
    · rintro ⟨m, x⟩ hm ⟨n, y⟩ hn (rfl : x = y)
      by_contra hne
      exact hapart m n (fun h => hne (congrArg (·, x) h)) (mem_onlyAt.mpr hm) (mem_onlyAt.mpr hn)
    · clear hapart
      induction xs with
      | nil => exact List.nodup_nil
      | cons x xs ih =>
        have hsplit : ∀ n, onlyAt n (x :: xs) = (if x.1 = n then [x.2] else []) ++ onlyAt n xs := by
          intro n
          rw [← onlyAt_singleton x.1 n x.2, ← onlyAt_append]
          rfl
        rw [List.nodup_cons]
        refine ⟨fun hmem => ?_, ih fun n => ?_⟩
        · have hfirst := hown x.1
          rw [hsplit, if_pos rfl, List.singleton_append, List.nodup_cons] at hfirst
          exact hfirst.1 (mem_onlyAt.mpr hmem)
        · have hrest := hown n
          rw [hsplit] at hrest
          exact (List.nodup_append.mp hrest).2.1

variable {step : σ → ι → Option (σ × List ο)} {states states' : ν → σ}

theorem product_eq_some {input : ν × ι} {outputs : List (ν × ο)}
    (h : product step states input = some (states', outputs)) :
    ∃ s os, step (states input.1) input.2 = some (s, os) ∧ states' = Function.update states input.1 s ∧
      outputs = os.map fun o => (input.1, o) := by
  unfold product at h
  split at h
  · cases h
  · rename_i s os hstep
    obtain ⟨rfl, rfl⟩ := Prod.mk.inj (Option.some.inj h)
    exact ⟨s, os, hstep, rfl, rfl⟩

/-- **A run of the family, seen from one member.** -/
theorem run_product (n : ν) :
    ∀ (inputs : List (ν × ι)) {states states' : ν → σ} {outputs : List (ν × ο)},
      run (product step) states inputs = some (states', outputs) →
      run step (states n) (onlyAt n inputs) = some (states' n, onlyAt n outputs) := by
  intro inputs
  induction inputs with
  | nil =>
    intro states states' outputs hrun
    obtain ⟨rfl, rfl⟩ := Prod.mk.inj (Option.some.inj hrun)
    rfl
  | cons input inputs ih =>
    intro states states' outputs hrun
    obtain ⟨mid, os₁, os₂, hstep, hrest, rfl⟩ := run_cons_eq_some.mp hrun
    obtain ⟨s, os, hown, rfl, rfl⟩ := product_eq_some hstep
    have hlater := ih hrest
    rw [onlyAt_append, onlyAt_map]
    by_cases hn : input.1 = n
    · -- its own step, and the rest from there
      subst hn
      rw [Function.update_self] at hlater
      rw [if_pos rfl, onlyAt, List.filterMap_cons, if_pos rfl]
      exact run_cons_eq_some.mpr ⟨s, os, _, hown, hlater, rfl⟩
    · rw [Function.update_of_ne (Ne.symm hn)] at hlater
      rw [if_neg hn, List.nil_append, onlyAt, List.filterMap_cons, if_neg hn]
      exact hlater

end Families

/-! ## Traces -/

section Traces

variable {step : σ → ι → Option (σ × List ο)}

/-- The machine with its outputs so far. -/
def traced (step : σ → ι → Option (σ × List ο)) (state : σ × List ο) (input : ι) :
    Option ((σ × List ο) × List ο) :=
  (step state.1 input).map fun (s, os) => ((s, state.2 ++ os), os)

theorem traced_eq_some {state state' : σ × List ο} {input : ι} {os : List ο}
    (h : traced step state input = some (state', os)) :
    step state.1 input = some (state'.1, os) ∧ state'.2 = state.2 ++ os := by
  obtain ⟨⟨s, os'⟩, hstep, heq⟩ := Option.map_eq_some_iff.mp h
  obtain ⟨rfl, rfl⟩ := Prod.mk.inj heq
  exact ⟨hstep, rfl⟩

/-- Writing the outputs down changes nothing. -/
theorem run_traced :
    ∀ (inputs : List ι) (s s' : σ) (seen os : List ο), run step s inputs = some (s', os) →
      run (traced step) (s, seen) inputs = some ((s', seen ++ os), os) := by
  intro inputs
  induction inputs with
  | nil =>
    intro s s' seen os hrun
    obtain ⟨rfl, rfl⟩ := Prod.mk.inj (Option.some.inj hrun)
    rw [List.append_nil]
    rfl
  | cons input inputs ih =>
    intro s s' seen os hrun
    obtain ⟨mid, os₁, os₂, hstep, hrest, rfl⟩ := run_cons_eq_some.mp hrun
    have hfirst : traced step (s, seen) input = some ((mid, seen ++ os₁), os₁) := by
      rw [traced, hstep]
      rfl
    have hlater := ih mid s' (seen ++ os₁) os₂ hrest
    rw [List.append_assoc] at hlater
    exact run_cons_eq_some.mpr ⟨_, _, _, hfirst, hlater, rfl⟩

/-- **The history rule, where each step may be asked to answer for the outputs before it.** -/
theorem run_history_traced {P : σ → List ο → ι → Prop} {R : σ → List ι → List ο → Prop}
    (hstep : ∀ s is os i s' os', R s is os → P s os i → step s i = some (s', os') → R s' (is ++ [i]) (os ++ os'))
    {inputs : List ι} {s s' : σ} {os : List ο} (hinit : R s [] [])
    (halong : Along (traced step) (fun state i => P state.1 state.2 i) (s, []) inputs)
    (hrun : run step s inputs = some (s', os)) : R s' inputs os := by
  have hend := run_history_along (R := fun state is os => state.2 = os ∧ R state.1 is os) ?_ inputs [] [] (s, [])
    (s', [] ++ os) os ⟨rfl, hinit⟩ halong (run_traced inputs s s' [] os hrun)
  · exact hend.2
  · rintro ⟨t, seen⟩ is _ i ⟨t', seen'⟩ os' ⟨rfl, hR⟩ hP htraced
    obtain ⟨hown, hseen⟩ := traced_eq_some htraced
    exact ⟨hseen, hstep t is seen i t' os' hR hP hown⟩

/-- A condition on the steps of a run, computed. -/
def checked (step : σ → ι → Option (σ × List ο)) (check : σ → ι → Bool) : σ → List ι → Bool
  | _, [] => true
  | s, i :: is =>
    check s i &&
      match step s i with
      | none => true
      | some (s', _) => checked step check s' is

theorem along_of_checked {check : σ → ι → Bool} {P : σ → ι → Prop} (hcheck : ∀ s i, check s i = true → P s i) :
    ∀ (is : List ι) (s : σ), checked step check s is = true → Along step P s is := by
  intro is
  induction is with
  | nil => exact fun _ _ => trivial
  | cons i is ih =>
    intro s h
    rw [checked, Bool.and_eq_true] at h
    refine ⟨hcheck s i h.1, ?_⟩
    intro s' os hstep
    have hrest := h.2
    rw [hstep] at hrest
    exact ih s' hrest

end Traces

/-! ## Observations -/

section Observations

variable {step : σ → ι → Option (σ × List ο)}

/-- What `view` sees along the run of a schedule. -/
def observed (step : σ → ι → Option (σ × List ο)) (view : σ → ι → Option π) : σ → List ι → List π
  | _, [] => []
  | s, i :: is =>
    match step s i with
    | none => []
    | some (s', _) => (view s i).toList ++ observed step view s' is

/-- **The history rule, with what was observed.** -/
theorem run_observed (view : σ → ι → Option π) {R : σ → List π → List ο → Prop}
    (hstep : ∀ s ps os i s' os', R s ps os → step s i = some (s', os') → R s' (ps ++ (view s i).toList) (os ++ os')) :
    ∀ (inputs : List ι) (past : List π) (seen : List ο) {s s' : σ} {os : List ο}, R s past seen →
      run step s inputs = some (s', os) → R s' (past ++ observed step view s inputs) (seen ++ os) := by
  intro inputs
  induction inputs with
  | nil =>
    intro past seen s s' os hR hrun
    obtain ⟨rfl, rfl⟩ := Prod.mk.inj (Option.some.inj hrun)
    rw [observed, List.append_nil, List.append_nil]
    exact hR
  | cons i is ih =>
    intro past seen s s' os hR hrun
    obtain ⟨s₁, os₁, os₂, hs, hrest, rfl⟩ := run_cons_eq_some.mp hrun
    have hlater := ih _ _ (hstep s past seen i s₁ os₁ hR hs) hrest
    simp only [observed, hs]
    rwa [List.append_assoc, List.append_assoc] at hlater

end Observations

end IncomUdon.Lib
