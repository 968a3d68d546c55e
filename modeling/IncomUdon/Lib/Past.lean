/-
# IncomUdon.Lib.Past — what a trace says about its own past.

Two notions over a list read as a trace, oldest element first. `Guarded allowed` asks of every element that what
came before it allows it. `Since keep start` says of a whole trace that something happened and that everything
after it was harmless. A trace grows at its end, so the rules are about `trace ++ [x]`: one obligation for the
new element, and one for what it does to a `Since` that held.
-/
import Mathlib.Data.List.Basic

namespace IncomUdon.Lib

variable {α : Type}

/-- Every element of the trace is allowed by what came before it. -/
def Guarded (allowed : List α → α → Prop) (trace : List α) : Prop :=
  ∀ before x after, trace = before ++ x :: after → allowed before x

/-- Some element started it, given what came before, and every element behind that one keeps it. -/
def Since (keep : α → Prop) (start : List α → α → Prop) (trace : List α) : Prop :=
  ∃ before x after, trace = before ++ x :: after ∧ start before x ∧ ∀ y ∈ after, keep y

section Rules

variable {allowed : List α → α → Prop} {keep : α → Prop} {start : List α → α → Prop} {trace : List α} {x : α}

theorem guarded_nil : Guarded allowed [] := by
  intro before x after h
  exact absurd h (by simp)

theorem Guarded.concat (h : Guarded allowed trace) (hx : allowed trace x) : Guarded allowed (trace ++ [x]) := by
  intro before y after hsplit
  rcases List.eq_nil_or_concat after with rfl | ⟨front, last, rfl⟩
  · -- the new element is the one asked about
    obtain ⟨rfl, hlast⟩ := List.append_inj' hsplit rfl
    obtain rfl := List.singleton_inj.mp hlast
    exact hx
  · rw [List.concat_eq_append, ← List.cons_append, ← List.append_assoc] at hsplit
    obtain ⟨hfront, -⟩ := List.append_inj' hsplit rfl
    exact h before y front hfront

/-- The element itself starts it. -/
theorem since_now (h : start trace x) : Since keep start (trace ++ [x]) :=
  ⟨trace, x, [], rfl, h, by simp⟩

/-- A harmless element keeps it. -/
theorem Since.concat (h : Since keep start trace) (hx : keep x) : Since keep start (trace ++ [x]) := by
  obtain ⟨before, y, after, rfl, hstart, hkeep⟩ := h
  refine ⟨before, y, after ++ [x], by rw [List.append_assoc, List.cons_append], hstart, ?_⟩
  intro z hz
  rcases List.mem_append.mp hz with hold | hnew
  · exact hkeep z hold
  · rw [List.mem_singleton.mp hnew]
    exact hx

theorem not_since_nil : ¬ Since keep start [] := by
  rintro ⟨before, x, after, h, -⟩
  exact absurd h (by simp)

end Rules

end IncomUdon.Lib
