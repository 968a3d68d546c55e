/-
# IncomUdon.Lib.Sublists — what is lost on the way, and what is not.

A stage that may lose elements, but keeps the others as they are and in order, makes a sublist of what it was given.
`List.Sublist` is transitive and monotone, so a chain of such stages is one; here are the rules for it that Mathlib
does not have.
-/
import Mathlib.Data.List.Basic
import IncomUdon.Lib.Channel

namespace IncomUdon.Lib

variable {α β : Type}

/-- What a selection keeps of the rest of a list, from an element on that the front does not have. -/
theorem cons_sublist_of_not_mem {x : α} {before after front rest : List α} (hx : x ∉ front)
    (h : (before ++ x :: after).Sublist (front ++ rest)) : (x :: after).Sublist rest := by
  obtain ⟨a, b, hsplit, ha, hb⟩ := List.sublist_append_iff.mp h
  rcases List.append_eq_append_iff.mp hsplit with ⟨c, rfl, hc⟩ | ⟨c, rfl, rfl⟩
  · cases c with
    | nil => rwa [← List.nil_append b, ← hc] at hb
    | cons y c =>
      obtain ⟨rfl, -⟩ := List.cons.inj hc
      exact absurd (ha.subset (by simp)) hx
  · exact (List.sublist_append_right c _).trans hb

/-- A view that shows less. -/
theorem filterMap_sublist {f g : α → Option β} (h : ∀ x y, f x = some y → g x = some y) (xs : List α) :
    (xs.filterMap f).Sublist (xs.filterMap g) := by
  induction xs with
  | nil => exact List.Sublist.refl _
  | cons x xs ih =>
    rw [List.filterMap_cons, List.filterMap_cons]
    cases hf : f x with
    | none =>
      cases g x with
      | none => exact ih
      | some y => exact ih.cons y
    | some y =>
      rw [h x y hf]
      exact ih.cons_cons y

/-- To see what `p` keeps of the results, the elements that `c` keeps are enough. -/
theorem filter_filterMap_filter {f : α → Option β} {p : β → Bool} {c : α → Bool}
    (h : ∀ x y, f x = some y → p y = true → c x = true) (xs : List α) :
    (xs.filterMap f).filter p = ((xs.filter c).filterMap f).filter p := by
  rw [List.filter_filterMap, List.filter_filterMap, List.filterMap_filter]
  apply List.filterMap_congr
  intro x _
  cases hf : f x with
  | none => simp
  | some y =>
    cases hp : p y with
    | true => rw [if_pos (h x y hf hp)]
    | false => simp [Option.filter, hp]

/-- A bounded channel keeps what it had, and of what is posted what it has room for. -/
theorem Channel.post_sublist (c : Channel α) (xs : List α) : (c.post xs).queue.Sublist (c.queue ++ xs) := by
  rw [(c.post_queue xs).1]
  exact List.take_sublist _ _

end IncomUdon.Lib
