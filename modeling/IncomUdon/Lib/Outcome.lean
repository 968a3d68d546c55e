/-
# IncomUdon.Lib.Outcome — calls that return `Ok`, return `Err`, or panic.

A Rust function with a `Result` return type has a third way to end: an index, a slice, an `expect` or an
integer underflow can panic. `Outcome ε α` keeps the three apart, so "never panics" is a statement about a
definition and not a side remark. Slices and indices are the checked ones of the language: out of range is
`.panicked`, never a default value.

The rules below say when a chain of calls returned `Ok` (`bind_eq_ok`), and what a checked read of a byte
string yields when its bounds hold (`index_of_lt`, `readAt_of_le`, `slice_of_le`).
-/
import Mathlib.Data.List.Basic
import Mathlib.Tactic.Common

namespace IncomUdon.Lib

universe u v w

/-- How a fallible call ends: with a value, with an error it reports, or in a panic. -/
inductive Outcome (ε : Type u) (α : Type v) where
  | ok : α → Outcome ε α
  | err : ε → Outcome ε α
  | panicked : Outcome ε α
  deriving DecidableEq, Repr

namespace Outcome

variable {ε : Type u} {α : Type v} {β : Type w}

/-- Sequencing: the `?` operator. An error or a panic ends the caller the same way. -/
def bind (x : Outcome ε α) (f : α → Outcome ε β) : Outcome ε β :=
  match x with
  | .ok a => f a
  | .err e => .err e
  | .panicked => .panicked

instance : Monad (Outcome ε) where
  pure := .ok
  bind := Outcome.bind

/-- A `Result` that cannot panic, used where a panicking caller applies `?` to it. -/
def ofExcept : Except ε α → Outcome ε α
  | .ok a => .ok a
  | .error e => .err e

/-- A call that reports no error, within one that does. -/
def widen : Outcome Empty α → Outcome ε α
  | .ok a => .ok a
  | .err e => nomatch e
  | .panicked => .panicked

/-- An early `return Err(e)` taken when `c` holds. -/
def reject (c : Prop) [Decidable c] (e : ε) : Outcome ε Unit :=
  if c then .err e else .ok ()

section Rules

variable {α β : Type v} (x : Outcome ε α) (f : α → Outcome ε β)

@[simp] theorem ok_bind (a : α) : (Outcome.ok a >>= f) = f a := rfl

@[simp] theorem err_bind (e : ε) : ((Outcome.err e : Outcome ε α) >>= f) = .err e := rfl

@[simp] theorem panicked_bind : ((Outcome.panicked : Outcome ε α) >>= f) = .panicked := rfl

@[simp] theorem pure_eq_ok (a : α) : (pure a : Outcome ε α) = .ok a := rfl

/-- **The bind inversion.** A chain returned `Ok` exactly when both links did. -/
theorem bind_eq_ok {b : β} : (x >>= f) = .ok b ↔ ∃ a, x = .ok a ∧ f a = .ok b := by
  cases x <;> simp

theorem bind_ne_panicked (hx : x ≠ .panicked) (hf : ∀ a, x = .ok a → f a ≠ .panicked) :
    (x >>= f) ≠ .panicked := by
  cases x with
  | ok a => exact hf a rfl
  | err e => simp
  | panicked => exact absurd rfl hx

end Rules

theorem reject_of {c : Prop} [Decidable c] (h : c) (e : ε) : reject c e = .err e := if_pos h

theorem reject_of_not {c : Prop} [Decidable c] (h : ¬ c) (e : ε) : reject c e = .ok () := if_neg h

@[simp] theorem reject_eq_ok {c : Prop} [Decidable c] {e : ε} {u : Unit} :
    reject c e = .ok u ↔ ¬ c := by
  unfold reject
  split <;> simp_all

theorem reject_ne_panicked (c : Prop) [Decidable c] (e : ε) : reject c e ≠ .panicked := by
  unfold reject
  split <;> simp

@[simp] theorem ofExcept_ok (a : α) : (ofExcept (.ok a) : Outcome ε α) = .ok a := rfl

@[simp] theorem ofExcept_eq_ok {x : Except ε α} {a : α} : ofExcept x = .ok a ↔ x = .ok a := by
  cases x <;> simp [ofExcept]

theorem ofExcept_ne_panicked (x : Except ε α) : ofExcept x ≠ .panicked := by
  cases x <;> simp [ofExcept]

end Outcome

/-! ## `Result`s without a panic -/

section Except

variable {ε ε' α β : Type u}

/-- The bind inversion for `Except`. -/
theorem except_bind_eq_ok {x : Except ε α} {f : α → Except ε β} {b : β} :
    (x >>= f) = .ok b ↔ ∃ a, x = .ok a ∧ f a = .ok b := by
  cases x with
  | error e => exact ⟨fun h => (nomatch h), fun ⟨_, h, _⟩ => (nomatch h)⟩
  | ok a =>
    constructor
    · intro h
      exact ⟨a, rfl, h⟩
    · rintro ⟨a', heq, h⟩
      obtain rfl := Except.ok.inj heq
      exact h

theorem mapError_eq_ok {x : Except ε α} {f : ε → ε'} {a : α} : x.mapError f = .ok a ↔ x = .ok a := by
  cases x with
  | error e => exact ⟨fun h => (nomatch h), fun h => (nomatch h)⟩
  | ok a' => exact ⟨fun h => congrArg _ (Except.ok.inj h), fun h => congrArg _ (Except.ok.inj h)⟩

end Except

/-! ## Checked reads of a sequence -/

variable {ε : Type u} {α : Type v}

/-- `b[i]`. -/
def index (b : List α) (i : Nat) : Outcome ε α :=
  match b[i]? with
  | some x => .ok x
  | none => .panicked

/-- `[b[off], b[off + 1], …, b[off + n - 1]]`, one checked index at a time. -/
def readAt (b : List α) : Nat → Nat → Outcome ε (List α)
  | _, 0 => .ok []
  | off, n + 1 => do
    let x ← index b off
    let xs ← readAt b (off + 1) n
    return x :: xs

/-- `b[lo..hi]`. -/
def slice (b : List α) (lo hi : Nat) : Outcome ε (List α) :=
  if lo ≤ hi ∧ hi ≤ b.length then .ok ((b.take hi).drop lo) else .panicked

/-- `a - b` on `usize`: underflow panics. -/
def checkedSub (a b : Nat) : Outcome ε Nat :=
  if b ≤ a then .ok (a - b) else .panicked

/-- `usize::MAX`, on a target of 64 bits: `2^64 - 1`. -/
def usizeMax : Nat := 18446744073709551615

/-- `isize::MAX`: `2^63 - 1`. -/
def isizeMax : Nat := 9223372036854775807

/-- `usize::saturating_add`. -/
def saturatingAddUsize (a b : Nat) : Nat := min (a + b) usizeMax

/-- `with_capacity(count)` for elements of `size` bytes, where the count is a `usize` and no allocation is larger
than `isize::MAX` bytes. -/
def Allocates (count size : Nat) : Prop := count ≤ usizeMax ∧ count * size ≤ isizeMax

instance (count size : Nat) : Decidable (Allocates count size) :=
  inferInstanceAs (Decidable (_ ∧ _))

theorem index_of_lt {b : List α} {i : Nat} (h : i < b.length) :
    (index b i : Outcome ε α) = .ok b[i] := by
  simp [index, h]

theorem index_eq_ok {b : List α} {i : Nat} {x : α} :
    (index b i : Outcome ε α) = .ok x ↔ b[i]? = some x := by
  unfold index
  cases b[i]? <;> simp

/-- Reading `n` elements from `off` in range yields the window `b[off .. off + n]`. -/
theorem readAt_of_le {b : List α} :
    ∀ {n off : Nat}, off + n ≤ b.length →
      (readAt b off n : Outcome ε (List α)) = .ok ((b.drop off).take n) := by
  intro n
  induction n with
  | zero => intro off _; simp [readAt]
  | succ n ih =>
    intro off h
    have hoff : off < b.length := by omega
    rw [readAt, index_of_lt hoff, Outcome.ok_bind, ih (by omega), Outcome.ok_bind]
    rw [List.drop_eq_getElem_cons hoff, List.take_succ_cons]
    rfl

theorem slice_of_le {b : List α} {lo hi : Nat} (h : lo ≤ hi) (h' : hi ≤ b.length) :
    (slice b lo hi : Outcome ε (List α)) = .ok ((b.take hi).drop lo) :=
  if_pos ⟨h, h'⟩

theorem checkedSub_of_le {a b : Nat} (h : b ≤ a) : (checkedSub a b : Outcome ε Nat) = .ok (a - b) :=
  if_pos h

end IncomUdon.Lib
