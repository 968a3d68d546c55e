/-
# IncomUdon.Lib.DropOldest — a bounded queue that makes room by dropping what waits longest.

`keepNewest capacity xs` is the queue such a bound leaves of `xs`: its last `capacity` elements. A `Ledger` is the
queue with its whole history: everything that was put in, everything that was taken out, how many elements were
dropped on the way, and what waits. `Ledger.Sound` ties the four together, and every sequence of operations keeps
it (`Ledger.applyAll_sound`): what waits is the end of the stream, the rest of the stream was taken or dropped,
and what was taken came in stream order.

A machine of calls serves them on a ledger (`Ledger.serve`): a call is one operation or none, and returns what the
operation hands out. A concrete queue refines that machine by holding `waiting` and counting `dropped`
(`Ledger.HeldBy`) and returning what it returns; `Ledger.HeldBy.shown` says what this shows of the stream.
-/
import IncomUdon.Lib.Machine

namespace IncomUdon.Lib

variable {α : Type}

/-! ## §1 — the newest elements -/

/-- The last `capacity` elements. -/
def keepNewest (capacity : Nat) (xs : List α) : List α := xs.drop (xs.length - capacity)

/-- Everything in front of them. -/
def outdated (capacity : Nat) (xs : List α) : List α := xs.take (xs.length - capacity)

section KeepNewest

variable (capacity : Nat) (xs ys : List α)

theorem outdated_append_keepNewest : outdated capacity xs ++ keepNewest capacity xs = xs :=
  List.take_append_drop _ xs

@[simp] theorem outdated_length : (outdated capacity xs).length = xs.length - capacity := by
  rw [outdated, List.length_take]
  omega

theorem keepNewest_length : (keepNewest capacity xs).length = min xs.length capacity := by
  rw [keepNewest, List.length_drop]
  omega

theorem keepNewest_length_le : (keepNewest capacity xs).length ≤ capacity := by
  rw [keepNewest_length]
  exact Nat.min_le_right _ _

variable {capacity xs ys}

/-- Nothing is dropped where everything fits. -/
theorem keepNewest_of_le (h : xs.length ≤ capacity) : keepNewest capacity xs = xs := by
  rw [keepNewest, Nat.sub_eq_zero_of_le h, List.drop_zero]

/-- A batch that fits on its own pushes out the front of what waited, and no part of itself. -/
theorem keepNewest_append (h : ys.length ≤ capacity) :
    keepNewest capacity (xs ++ ys) = xs.drop (xs.length + ys.length - capacity) ++ ys := by
  rw [keepNewest, List.length_append, List.drop_append_of_le_length (by omega)]

/-- **Keeping the oldest instead**: of elements that can be told apart, the first `capacity` are the newest exactly
where nothing has to go. -/
theorem take_eq_keepNewest_iff (hcapacity : 0 < capacity) (hdistinct : xs.Nodup) :
    xs.take capacity = keepNewest capacity xs ↔ xs.length ≤ capacity := by
  constructor
  · intro h
    by_contra hlong
    -- the first element of both lists, at two places of `xs`
    have hfirst : xs[0]? = xs[xs.length - capacity]? := by
      calc xs[0]? = (xs.take capacity)[0]? := (List.getElem?_take_of_lt hcapacity).symm
        _ = (keepNewest capacity xs)[0]? := by rw [h]
        _ = xs[xs.length - capacity]? := by rw [keepNewest, List.getElem?_drop, Nat.add_zero]
    have hplaces := (List.getElem?_inj (show 0 < xs.length by omega) hdistinct).mp hfirst
    omega
  · intro hfits
    rw [keepNewest_of_le hfits, List.take_of_length_le hfits]

end KeepNewest

/-- A batch came in behind what waited, and as many elements were dropped from the front of it as overflow: never
more than waited. The counter of 64 bits went up by them. -/
def DropsOverflow (capacity : Nat) (batch waiting waiting' : List α) (counter counter' : UInt64) : Prop :=
  ∃ k, k = waiting.length + batch.length - capacity ∧ k ≤ waiting.length ∧ waiting' = waiting.drop k ++ batch ∧
    counter' = counter + UInt64.ofNat k

/-- Keeping the newest elements drops the overflow, where the batch fits on its own. -/
theorem keepNewest_dropsOverflow {capacity : Nat} {batch waiting : List α} {counter : UInt64}
    (h : batch.length ≤ capacity) : DropsOverflow capacity batch waiting (keepNewest capacity (waiting ++ batch))
      counter (counter + UInt64.ofNat (outdated capacity (waiting ++ batch)).length) := by
  refine ⟨_, rfl, by omega, keepNewest_append h, ?_⟩
  rw [outdated_length, List.length_append]

/-! ## §2 — the queue with its history -/

/-- The elements that wait, with everything that came in and went out before. -/
structure Ledger (α : Type) where
  /-- Everything that was put in, oldest first. -/
  stream : List α
  /-- Everything that was taken out, oldest first. -/
  taken : List α
  dropped : Nat
  waiting : List α

namespace Ledger

/-- Nothing has come in yet. -/
def empty : Ledger α := ⟨[], [], 0, []⟩

/-- A batch comes in; what does not fit any more is dropped from the front. -/
def put (capacity : Nat) (ledger : Ledger α) (batch : List α) : Ledger α where
  stream := ledger.stream ++ batch
  taken := ledger.taken
  dropped := ledger.dropped + (outdated capacity (ledger.waiting ++ batch)).length
  waiting := keepNewest capacity (ledger.waiting ++ batch)

/-- The front is taken, if there is one. -/
def take (ledger : Ledger α) : Ledger α where
  stream := ledger.stream
  taken := ledger.taken ++ ledger.waiting.head?.toList
  dropped := ledger.dropped
  waiting := ledger.waiting.tail

/-- What can be done to the queue. -/
inductive Operation (α : Type) where
  | put (batch : List α)
  | take

/-- The operation, done. -/
def apply (capacity : Nat) (ledger : Ledger α) : Operation α → Ledger α
  | .put batch => ledger.put capacity batch
  | .take => ledger.take

/-- **The laws of a drop-oldest stream.** -/
structure Sound (capacity : Nat) (ledger : Ledger α) : Prop where
  /-- What waits is the end of the stream. -/
  suffix : ledger.waiting <:+ ledger.stream
  bound : ledger.waiting.length ≤ capacity
  /-- Every element was taken, was dropped, or waits. -/
  count : ledger.stream.length = ledger.taken.length + ledger.dropped + ledger.waiting.length
  /-- The taken elements are elements of the stream in front of those that wait, in stream order, each taken
  once. -/
  order : ledger.taken.Sublist (ledger.stream.take (ledger.stream.length - ledger.waiting.length))

/-- The stream cut in front of what waits. -/
theorem Sound.split {capacity : Nat} {ledger : Ledger α} (h : Sound capacity ledger) :
    ∃ gone, ledger.stream = gone ++ ledger.waiting ∧ gone.length = ledger.taken.length + ledger.dropped ∧
      ledger.taken.Sublist gone := by
  obtain ⟨gone, hgone⟩ := h.suffix
  have hlen := congrArg List.length hgone
  rw [List.length_append] at hlen
  refine ⟨gone, hgone.symm, by have := h.count; omega, ?_⟩
  have horder := h.order
  rw [← hgone, List.length_append, Nat.add_sub_cancel, List.take_left] at horder
  exact horder

theorem sound_of_split {capacity : Nat} {ledger : Ledger α} (gone : List α)
    (hbound : ledger.waiting.length ≤ capacity) (hsplit : ledger.stream = gone ++ ledger.waiting)
    (hcount : gone.length = ledger.taken.length + ledger.dropped) (horder : ledger.taken.Sublist gone) :
    Sound capacity ledger := by
  refine ⟨⟨gone, hsplit.symm⟩, hbound, ?_, ?_⟩
  · rw [hsplit, List.length_append, hcount]
  · rw [hsplit, List.length_append, Nat.add_sub_cancel, List.take_left]
    exact horder

theorem empty_sound (capacity : Nat) : Sound capacity (empty : Ledger α) :=
  sound_of_split [] (Nat.zero_le _) rfl rfl (List.Sublist.refl _)

variable {capacity : Nat} {ledger : Ledger α}

theorem Sound.put (h : Sound capacity ledger) (batch : List α) : Sound capacity (ledger.put capacity batch) := by
  obtain ⟨gone, hsplit, hcount, horder⟩ := h.split
  refine sound_of_split (gone ++ outdated capacity (ledger.waiting ++ batch))
    (keepNewest_length_le _ _) ?_ ?_ ?_
  · show ledger.stream ++ batch = _
    rw [List.append_assoc]
    show _ = gone ++ (outdated capacity (ledger.waiting ++ batch) ++ keepNewest capacity (ledger.waiting ++ batch))
    rw [outdated_append_keepNewest, hsplit, List.append_assoc]
  · rw [List.length_append, hcount, Nat.add_assoc]
    rfl
  · exact horder.trans (List.sublist_append_left _ _)

theorem Sound.take (h : Sound capacity ledger) : Sound capacity ledger.take := by
  obtain ⟨gone, hsplit, hcount, horder⟩ := h.split
  have hbound := h.bound
  refine sound_of_split (gone ++ ledger.waiting.head?.toList) ?_ ?_ ?_ ?_
  · show ledger.waiting.tail.length ≤ capacity
    rw [List.length_tail]
    omega
  · show ledger.stream = (gone ++ ledger.waiting.head?.toList) ++ ledger.waiting.tail
    rw [hsplit, List.append_assoc]
    cases ledger.waiting <;> rfl
  · show _ = (ledger.taken ++ ledger.waiting.head?.toList).length + ledger.dropped
    rw [List.length_append, List.length_append, hcount]
    omega
  · exact horder.append (List.Sublist.refl _)

theorem Sound.apply (h : Sound capacity ledger) (op : Operation α) : Sound capacity (ledger.apply capacity op) := by
  cases op with
  | put batch => exact h.put batch
  | take => exact h.take

/-- **Every sequence of operations keeps the laws.** -/
theorem applyAll_sound (h : Sound capacity ledger) (ops : List (Operation α)) :
    Sound capacity (ops.foldl (Ledger.apply capacity) ledger) := by
  induction ops generalizing ledger with
  | nil => exact h
  | cons op rest ih => exact ih (h.apply op)

/-- Taking as often as elements wait takes them all, in order. -/
theorem take_waiting (ledger : Ledger α) :
    (List.replicate ledger.waiting.length Operation.take).foldl (Ledger.apply capacity) ledger =
      { ledger with taken := ledger.taken ++ ledger.waiting, waiting := [] } := by
  obtain ⟨stream, taken, dropped, waiting⟩ := ledger
  induction waiting generalizing taken with
  | nil =>
    show Ledger.mk stream taken dropped [] = ⟨stream, taken ++ [], dropped, []⟩
    rw [List.append_nil]
  | cons x rest ih =>
    have h := ih (taken ++ [x])
    simp only [List.append_assoc, List.singleton_append] at h
    exact h

/-! ## §3 — calls on a ledger -/

/-- What an operation hands out. -/
def reply (ledger : Ledger α) : Operation α → Option α
  | .put _ => none
  | .take => ledger.waiting.head?

section Serving

variable {ι ο : Type} {operation : ι → Option (Operation α)} {returned : ι → Option α → ο}

/-- A machine of calls on a ledger. A call is an operation, or does nothing, and returns what it makes of the element
that the operation hands out. -/
def serve (capacity : Nat) (operation : ι → Option (Operation α)) (returned : ι → Option α → ο) (ledger : Ledger α)
    (i : ι) : Option (Ledger α × List ο) :=
  match operation i with
  | none => some (ledger, [returned i none])
  | some op => some (ledger.apply capacity op, [returned i (ledger.reply op)])

/-- `came` and `went` read off what a call returned what it put in and what it took out. -/
structure Reads (operation : ι → Option (Operation α)) (returned : ι → Option α → ο) (came : ο → List α)
    (went : ο → Option α) : Prop where
  idle : ∀ i, operation i = none → came (returned i none) = [] ∧ went (returned i none) = none
  put : ∀ i batch, operation i = some (.put batch) → came (returned i none) = batch ∧ went (returned i none) = none
  take : ∀ i x, operation i = some .take → came (returned i x) = [] ∧ went (returned i x) = x

/-- **What the calls of a run returned** spells its ledger, and the ledger is sound. -/
theorem run_serve {came : ο → List α} {went : ο → Option α} (hreads : Reads operation returned came went)
    {calls : List ι} {returns : List ο}
    (hrun : run (serve capacity operation returned) empty calls = some (ledger, returns)) :
    ledger.Sound capacity ∧ ledger.stream = returns.flatMap came ∧ ledger.taken = returns.filterMap went := by
  refine run_history (R := fun ledger _ returns => ledger.Sound capacity ∧ ledger.stream = returns.flatMap came ∧
    ledger.taken = returns.filterMap went) ?_ ⟨empty_sound _, rfl, rfl⟩ hrun
  rintro ledger _ returns call ledger' more ⟨hsound, hstream, htaken⟩ hcall
  rw [List.flatMap_append, List.filterMap_append]
  unfold serve at hcall
  split at hcall
  · rename_i hidle
    obtain ⟨rfl, rfl⟩ := Prod.mk.inj (Option.some.inj hcall)
    obtain ⟨hcame, hwent⟩ := hreads.idle call hidle
    simp only [List.flatMap_cons, List.flatMap_nil, List.filterMap_cons, List.filterMap_nil, hcame, hwent,
      List.append_nil]
    exact ⟨hsound, hstream, htaken⟩
  · rename_i op hop
    obtain ⟨rfl, rfl⟩ := Prod.mk.inj (Option.some.inj hcall)
    refine ⟨hsound.apply op, ?_⟩
    cases op with
    | put batch =>
      obtain ⟨hcame, hwent⟩ := hreads.put call batch hop
      simp only [reply, List.flatMap_cons, List.flatMap_nil, List.filterMap_cons, List.filterMap_nil, hcame, hwent,
        List.append_nil]
      exact ⟨congrArg (· ++ batch) hstream, htaken⟩
    | take =>
      obtain ⟨hcame, hwent⟩ := hreads.take call ledger.waiting.head? hop
      simp only [reply, List.flatMap_cons, List.flatMap_nil, List.filterMap_cons, List.filterMap_nil, hcame, hwent,
        List.append_nil]
      refine ⟨hstream, ?_⟩
      show ledger.taken ++ ledger.waiting.head?.toList = _
      rw [htaken]
      cases ledger.waiting <;> simp

end Serving

/-- A queue with these contents and this counter holds the ledger. The counter has 64 bits and wraps. -/
structure HeldBy (ledger : Ledger α) (waiting : List α) (counter : UInt64) : Prop where
  waiting : waiting = ledger.waiting
  counter : counter = UInt64.ofNat ledger.dropped

theorem empty_heldBy : HeldBy (empty : Ledger α) [] 0 := ⟨rfl, rfl⟩

end Ledger

/-- What a bounded queue shows of the stream it got: it holds the end of it, within its bound, and the rest was taken,
in stream order, or dropped and counted. The counter has 64 bits, and so has the sum that it is part of. -/
structure ShowsStream (capacity : Nat) (stream taken waiting : List α) (counter : UInt64) : Prop where
  suffix : waiting <:+ stream
  bound : waiting.length ≤ capacity
  count : UInt64.ofNat stream.length = UInt64.ofNat taken.length + counter + UInt64.ofNat waiting.length
  /-- The sum is the one of the natural numbers exactly while fewer than `2^64` elements have been dropped. -/
  unwrapped : stream.length = taken.length + counter.toNat + waiting.length ↔
    stream.length < taken.length + waiting.length + UInt64.size
  order : taken.Sublist (stream.take (stream.length - waiting.length))

/-- **A queue that holds a sound ledger** shows its stream. -/
theorem Ledger.HeldBy.shown {capacity : Nat} {ledger : Ledger α} {waiting : List α} {counter : UInt64}
    (h : ledger.HeldBy waiting counter) (hsound : ledger.Sound capacity) :
    ShowsStream capacity ledger.stream ledger.taken waiting counter := by
  obtain ⟨rfl, rfl⟩ := h
  have hcount := hsound.count
  refine ⟨hsound.suffix, hsound.bound, ?_, ?_, hsound.order⟩
  · rw [hcount, UInt64.ofNat_add, UInt64.ofNat_add]
  · rw [UInt64.toNat_ofNat', show UInt64.size = 18446744073709551616 from rfl]
    -- the counter is exact where it did not wrap
    constructor
    · intro hexact
      omega
    · intro hfew
      rw [Nat.mod_eq_of_lt (by omega)]
      exact hcount

end IncomUdon.Lib
