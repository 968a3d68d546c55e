/-
# IncomUdon.Lib.Durable — what a restart finds of a value that is saved now and then.

A value lives in memory and has a copy on the disk. A save writes the copy, leaves the old one, or loses it
(`Fate`); a restart has the copy only. `survivor` is the copy behind a history of saves, and the rules say which save
it comes from.
-/
import Mathlib.Data.List.Basic

namespace IncomUdon.Lib

/-- What becomes of the copy when the value is saved. -/
inductive Fate where
  | written
  | kept
  /-- The old copy is gone, and the new one is not there. -/
  | lost
  deriving DecidableEq, Repr

variable {α : Type}

/-- The copy behind one save. -/
def Fate.leaves (copy : Option α) (value : α) : Fate → Option α
  | .written => some value
  | .kept => copy
  | .lost => none

/-- The copy behind a history of saves. -/
def survivor (copy : Option α) (saves : List (α × Fate)) : Option α :=
  saves.foldl (fun copy save => save.2.leaves copy save.1) copy

theorem survivor_concat (copy : Option α) (saves : List (α × Fate)) (value : α) (fate : Fate) :
    survivor copy (saves ++ [(value, fate)]) = fate.leaves (survivor copy saves) value := by
  rw [survivor, List.foldl_append]
  rfl

/-- Saves that do not get through change nothing. -/
theorem survivor_kept (copy : Option α) {saves : List (α × Fate)} (h : ∀ save ∈ saves, save.2 = .kept) :
    survivor copy saves = copy := by
  induction saves generalizing copy with
  | nil => rfl
  | cons save saves ih =>
    rw [survivor, List.foldl_cons, h save List.mem_cons_self]
    exact ih copy fun later hlater => h later (List.mem_cons_of_mem _ hlater)

/-- **The last save that was not merely refused decides.** -/
theorem survivor_last (copy : Option α) (before : List (α × Fate)) (value : α) (fate : Fate) {after : List (α × Fate)}
    (h : ∀ save ∈ after, save.2 = .kept) :
    survivor copy (before ++ (value, fate) :: after) = fate.leaves (survivor copy before) value := by
  rw [List.append_cons, survivor, List.foldl_append]
  exact (survivor_kept _ h).trans (survivor_concat copy before value fate)

end IncomUdon.Lib
