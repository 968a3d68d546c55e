/-
# IncomUdon.Lib.Channel — a bounded channel, as `std::sync::mpsc::sync_channel` has it.

`trySend` appends unless the channel is full; a full channel is left unchanged and the caller is told so.
`tryRecv` takes the oldest element. The bound is a field, so no channel holds more than its capacity. Whether
the two ends are still alive is a property of the threads that own them and is kept by the machine that uses
the channel.
-/
import Mathlib.Data.List.Basic
import Mathlib.Data.List.Forall2

namespace IncomUdon.Lib

/-- A queue with a bound. -/
structure Channel (α : Type) where
  capacity : Nat
  queue : List α
  fits : queue.length ≤ capacity
  deriving DecidableEq, Repr

namespace Channel

variable {α : Type}

/-- A new channel. -/
def empty (capacity : Nat) : Channel α where
  capacity := capacity
  queue := []
  fits := Nat.zero_le _

/-- `try_send` on a channel whose receiver is alive. -/
def trySend (c : Channel α) (x : α) : Bool × Channel α :=
  if h : c.queue.length < c.capacity then
    (true, { c with
      queue := c.queue ++ [x]
      fits := by rw [List.length_append]; exact h })
  else (false, c)

/-- `try_recv`: the oldest element and the channel behind it, or `None` on an empty channel. -/
def tryRecv (c : Channel α) : Option (α × Channel α) :=
  match h : c.queue with
  | [] => none
  | x :: rest => some (x, { c with
      queue := rest
      fits := Nat.le_trans (Nat.le_succ _) (by have := c.fits; rwa [h] at this) })

/-- `trySend` of each element in turn, the answers ignored. -/
def post (c : Channel α) (xs : List α) : Channel α := xs.foldl (fun c x => (c.trySend x).2) c

@[simp] theorem empty_queue (capacity : Nat) : (empty capacity : Channel α).queue = [] := rfl

theorem trySend_of_lt {c : Channel α} (x : α) (h : c.queue.length < c.capacity) :
    (c.trySend x).1 = true ∧ (c.trySend x).2.queue = c.queue ++ [x] := by
  rw [trySend, dif_pos h]
  exact ⟨rfl, rfl⟩

theorem trySend_of_full {c : Channel α} (x : α) (h : ¬ c.queue.length < c.capacity) :
    c.trySend x = (false, c) := dif_neg h

@[simp] theorem trySend_capacity (c : Channel α) (x : α) :
    (c.trySend x).2.capacity = c.capacity := by
  unfold trySend
  split <;> rfl

theorem tryRecv_eq_none {c : Channel α} : c.tryRecv = none ↔ c.queue = [] := by
  unfold tryRecv
  split <;> simp_all

/-- Taking an element: it was the front, and the rest stays. -/
theorem tryRecv_eq_some {c c' : Channel α} {x : α} (h : c.tryRecv = some (x, c')) :
    c.queue = x :: c'.queue ∧ c'.capacity = c.capacity := by
  unfold tryRecv at h
  split at h
  · cases h
  · rename_i y rest hq
    obtain ⟨rfl, rfl⟩ := Prod.mk.inj (Option.some.inj h)
    exact ⟨hq, rfl⟩

/-- What waits behind a `post` waited before, or was posted. -/
theorem mem_post {x : α} {xs : List α} :
    ∀ {c : Channel α}, x ∈ (c.post xs).queue → x ∈ c.queue ∨ x ∈ xs := by
  induction xs with
  | nil => exact fun h => Or.inl h
  | cons y rest ih =>
    intro c h
    rcases ih (c := (c.trySend y).2) h with hold | hrest
    · by_cases hroom : c.queue.length < c.capacity
      · rw [(trySend_of_lt y hroom).2] at hold
        rcases List.mem_append.mp hold with hkept | hnew
        · exact Or.inl hkept
        · exact Or.inr (List.mem_singleton.mp hnew ▸ List.mem_cons_self)
      · rw [trySend_of_full y hroom] at hold
        exact Or.inl hold
    · exact Or.inr (List.mem_cons_of_mem y hrest)

/-- **What a bound without a receiver keeps**: the oldest elements, as many as fit. -/
theorem post_queue (c : Channel α) (xs : List α) :
    (c.post xs).queue = (c.queue ++ xs).take c.capacity ∧ (c.post xs).capacity = c.capacity := by
  induction xs generalizing c with
  | nil => exact ⟨by rw [List.append_nil, List.take_of_length_le c.fits]; rfl, rfl⟩
  | cons x rest ih =>
    obtain ⟨hqueue, hcap⟩ := ih (c.trySend x).2
    rw [trySend_capacity] at hqueue hcap
    refine ⟨?_, hcap⟩
    show ((c.trySend x).2.post rest).queue = _
    rw [hqueue]
    by_cases hroom : c.queue.length < c.capacity
    · rw [(trySend_of_lt x hroom).2, List.append_assoc, List.singleton_append]
    · -- full: neither this element nor any behind it gets in
      have hfull : c.queue.length = c.capacity := Nat.le_antisymm c.fits (Nat.not_lt.mp hroom)
      rw [trySend_of_full x hroom, ← hfull, List.take_left, List.take_left]

/-- Where everything fits, everything gets in. -/
theorem post_of_le {c : Channel α} {xs : List α} (h : c.queue.length + xs.length ≤ c.capacity) :
    (c.post xs).queue = c.queue ++ xs := by
  rw [(c.post_queue xs).1]
  exact List.take_of_length_le (by rw [List.length_append]; exact h)

/-! ### Two channels side by side -/

/-- Channels of one capacity whose elements are related one by one. -/
def Rel (R : α → α → Prop) (c d : Channel α) : Prop :=
  c.capacity = d.capacity ∧ List.Forall₂ R c.queue d.queue

theorem Rel.trySend {R : α → α → Prop} {c d : Channel α} {x y : α} (h : Rel R c d) (hxy : R x y) :
    (c.trySend x).1 = (d.trySend y).1 ∧ Rel R (c.trySend x).2 (d.trySend y).2 := by
  obtain ⟨hcap, hq⟩ := h
  have hlen : c.queue.length = d.queue.length := hq.length_eq
  -- equal lengths and capacities: both have room, or neither has
  by_cases hroom : c.queue.length < c.capacity
  · have hroom' : d.queue.length < d.capacity := by rw [← hlen, ← hcap]; exact hroom
    obtain ⟨hc, hcq⟩ := trySend_of_lt x hroom
    obtain ⟨hd, hdq⟩ := trySend_of_lt y hroom'
    refine ⟨by rw [hc, hd], by rw [trySend_capacity, trySend_capacity, hcap], ?_⟩
    rw [hcq, hdq]
    exact List.rel_append hq (List.Forall₂.cons hxy List.Forall₂.nil)
  · have hroom' : ¬ d.queue.length < d.capacity := by rw [← hlen, ← hcap]; exact hroom
    rw [trySend_of_full x hroom, trySend_of_full y hroom']
    exact ⟨rfl, hcap, hq⟩

theorem Rel.tryRecv {R : α → α → Prop} {c d : Channel α} (h : Rel R c d) :
    (c.tryRecv = none ∧ d.tryRecv = none) ∨
      ∃ x y c' d', c.tryRecv = some (x, c') ∧ d.tryRecv = some (y, d') ∧ R x y ∧ Rel R c' d' := by
  obtain ⟨hcap, hq⟩ := h
  cases hc : c.tryRecv with
  | none =>
    have hempty := tryRecv_eq_none.mp hc
    rw [hempty] at hq
    exact Or.inl ⟨rfl, tryRecv_eq_none.mpr (List.forall₂_nil_left_iff.mp hq)⟩
  | some xc =>
    obtain ⟨x, c'⟩ := xc
    obtain ⟨hfront, hcap'⟩ := tryRecv_eq_some hc
    cases hd : d.tryRecv with
    | none =>
      rw [tryRecv_eq_none.mp hd, hfront] at hq
      cases hq
    | some yd =>
      obtain ⟨y, d'⟩ := yd
      obtain ⟨hfront', hcap''⟩ := tryRecv_eq_some hd
      rw [hfront, hfront'] at hq
      obtain ⟨hxy, hrest⟩ := List.forall₂_cons.mp hq
      exact Or.inr ⟨x, y, c', d', rfl, rfl, hxy, by rw [hcap', hcap'', hcap], hrest⟩

end Channel

end IncomUdon.Lib
