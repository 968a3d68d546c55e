/-
# IncomUdon.Lib.Scan — validators, and a loop that checks each element against those before it.

§1: a validator `Decides` a rule when it succeeds exactly on what the rule accepts and gives exactly the errors the
rule names. It is enough that the rule leaves no case out and that the validator follows it in each.

§2: `scan check` goes through a list, hands `check` the elements passed so far and the current one, and stops at the
first error. `Passes` and `Fails` say what the check answers at an index of the whole list; the loop succeeds exactly
when every index passes (`scan_eq_ok_iff`) and fails with `e` exactly when the lowest index that does not pass fails
with `e` (`scan_eq_error_iff`).
-/
import Mathlib.Data.List.Basic

namespace IncomUdon.Lib

variable {α ε : Type}

/-! ## §1 — deciding a rule -/

/-- **`Decides result Accepts Violates`** — the result is success exactly under `Accepts`, and the error `e` exactly
under `Violates e`. -/
structure Decides (result : Except ε Unit) (Accepts : Prop) (Violates : ε → Prop) : Prop where
  ok_iff : result = .ok () ↔ Accepts
  error_iff : ∀ e, result = .error e ↔ Violates e

/-- A validator that follows a rule without gaps decides it. -/
theorem Decides.of_cases {result : Except ε Unit} {Accepts : Prop} {Violates : ε → Prop}
    (hcases : Accepts ∨ ∃ e, Violates e) (hok : Accepts → result = .ok ())
    (herror : ∀ e, Violates e → result = .error e) : Decides result Accepts Violates := by
  rcases hcases with haccepts | ⟨e, hviolates⟩
  · have hresult := hok haccepts
    refine ⟨⟨fun _ => haccepts, hok⟩, fun e => ⟨fun h => ?_, herror e⟩⟩
    rw [hresult] at h
    cases h
  · have hresult := herror e hviolates
    constructor
    · refine ⟨fun h => ?_, hok⟩
      rw [hresult] at h
      cases h
    · refine fun e' => ⟨fun h => ?_, herror e'⟩
      rw [hresult] at h
      exact Except.error.inj h ▸ hviolates

/-! ## §2 — the loop -/

/-- The loop over `rest`, behind the elements `previous`. -/
def scan (check : List α → α → Except ε Unit) (previous : List α) : List α → Except ε Unit
  | [] => .ok ()
  | x :: rest =>
    match check previous x with
    | .error e => .error e
    | .ok () => scan check (previous ++ [x]) rest

/-- The check passes at index `i`, or there is no such index. -/
def Passes (check : List α → α → Except ε Unit) (xs : List α) (i : Nat) : Prop :=
  ∀ x, xs[i]? = some x → check (xs.take i) x = .ok ()

/-- The check fails at index `i` with `e`. -/
def Fails (check : List α → α → Except ε Unit) (xs : List α) (i : Nat) (e : ε) : Prop :=
  ∃ x, xs[i]? = some x ∧ check (xs.take i) x = .error e

variable {check : List α → α → Except ε Unit}

theorem Fails.not_passes {xs : List α} {i : Nat} {e : ε} (h : Fails check xs i e) : ¬ Passes check xs i := by
  obtain ⟨x, hx, herror⟩ := h
  intro hpasses
  rw [hpasses x hx] at herror
  cases herror

theorem passes_iff {xs : List α} {i : Nat} : Passes check xs i ↔ ∀ e, ¬ Fails check xs i e := by
  refine ⟨fun hpasses e hfails => hfails.not_passes hpasses, fun h x hx => ?_⟩
  cases hresult : check (xs.take i) x with
  | ok u => rfl
  | error e => exact absurd ⟨x, hx, hresult⟩ (h e)

/-- The error at an index is the check's. -/
theorem Fails.unique {xs : List α} {i : Nat} {e e' : ε} (h : Fails check xs i e) (h' : Fails check xs i e') : e = e' := by
  obtain ⟨x, hx, herror⟩ := h
  obtain ⟨x', hx', herror'⟩ := h'
  obtain rfl := Option.some.inj (hx.symm.trans hx')
  exact Except.error.inj (herror.symm.trans herror')

theorem passes_append_length {previous : List α} {x : α} (rest : List α) (h : check previous x = .ok ()) :
    Passes check (previous ++ x :: rest) previous.length := by
  intro y hy
  rw [List.getElem?_append_right (Nat.le_refl _), Nat.sub_self, List.getElem?_cons_zero] at hy
  rw [List.take_left, ← Option.some.inj hy]
  exact h

theorem fails_append_length {previous : List α} {x : α} {e : ε} (rest : List α) (h : check previous x = .error e) :
    Fails check (previous ++ x :: rest) previous.length e := by
  refine ⟨x, ?_, ?_⟩
  · rw [List.getElem?_append_right (Nat.le_refl _), Nat.sub_self, List.getElem?_cons_zero]
  · rw [List.take_left]
    exact h

/-- **The loop stops at the first index from `previous.length` on that fails**, or all of them pass. -/
theorem scan_spec (check : List α → α → Except ε Unit) (rest : List α) : ∀ previous : List α,
    (scan check previous rest = .ok () ∧ ∀ i, previous.length ≤ i → Passes check (previous ++ rest) i) ∨
    (∃ e i, scan check previous rest = .error e ∧ Fails check (previous ++ rest) i e ∧
      ∀ j, previous.length ≤ j → j < i → Passes check (previous ++ rest) j) := by
  induction rest with
  | nil =>
    intro previous
    refine .inl ⟨rfl, fun i hi x hx => ?_⟩
    rw [List.append_nil, List.getElem?_eq_none hi] at hx
    cases hx
  | cons x rest ih =>
    intro previous
    rw [scan]
    cases hcheck : check previous x with
    | error e =>
      exact .inr ⟨e, previous.length, rfl, fails_append_length rest hcheck, fun j hj hlt => absurd hj (by omega)⟩
    | ok u =>
      -- this index passes, and the loop goes on with the element behind the previous ones
      have hhere := passes_append_length rest hcheck
      have hstep : previous ++ x :: rest = (previous ++ [x]) ++ rest := by
        rw [List.append_assoc, List.singleton_append]
      have hfrom : ∀ {j}, previous.length ≤ j → j ≠ previous.length → (previous ++ [x]).length ≤ j := by
        intro j hj hne
        rw [List.length_append, List.length_singleton]
        omega
      rcases ih (previous ++ [x]) with ⟨hok, hall⟩ | ⟨e, i, herror, hfails, hbefore⟩
      · refine .inl ⟨hok, fun i hi => ?_⟩
        by_cases hfirst : i = previous.length
        · rw [hfirst]
          exact hhere
        · rw [hstep]
          exact hall i (hfrom hi hfirst)
      · refine .inr ⟨e, i, herror, hstep ▸ hfails, fun j hj hlt => ?_⟩
        by_cases hfirst : j = previous.length
        · rw [hfirst]
          exact hhere
        · rw [hstep]
          exact hbefore j (hfrom hj hfirst) hlt

theorem scan_eq_ok_iff {xs : List α} : scan check [] xs = .ok () ↔ ∀ i, Passes check xs i := by
  rcases scan_spec check xs [] with ⟨hok, hall⟩ | ⟨e, i, herror, hfails, -⟩
  · exact ⟨fun _ i => hall i (Nat.zero_le i), fun _ => hok⟩
  · rw [herror]
    exact ⟨fun h => (nomatch h), fun h => absurd (h i) hfails.not_passes⟩

/-- **The error is that of the lowest index that fails.** -/
theorem scan_eq_error_iff {xs : List α} {e : ε} :
    scan check [] xs = .error e ↔ ∃ i, Fails check xs i e ∧ ∀ j < i, Passes check xs j := by
  rcases scan_spec check xs [] with ⟨hok, hall⟩ | ⟨e', i, herror, hfails, hbefore⟩
  · rw [hok]
    refine ⟨fun h => (nomatch h), ?_⟩
    rintro ⟨i, hfails, -⟩
    exact absurd (hall i (Nat.zero_le i)) hfails.not_passes
  · rw [herror]
    constructor
    · intro h
      obtain rfl := Except.error.inj h
      exact ⟨i, hfails, fun j hlt => hbefore j (Nat.zero_le j) hlt⟩
    · rintro ⟨k, hfails', hbefore'⟩
      rcases Nat.lt_trichotomy i k with hlt | rfl | hlt
      · exact absurd (hbefore' i hlt) hfails.not_passes
      · rw [hfails.unique hfails']
      · exact absurd (hbefore k (Nat.zero_le k) hlt) hfails'.not_passes

end IncomUdon.Lib
