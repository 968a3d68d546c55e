/-
# IncomUdon.Lib.Phase — a phase accumulator, and when it keeps time.

Each tick adds `increment` to the phase, saturating at `top`; where the phase reaches `rate` the tick fires and
`rate` is taken off again, once. Meant is one firing for every `rate / increment` ticks: `increment * n / rate` of
them after `n` ticks.

Two things get in the way. An accumulator with `rate < increment` fires at every tick and cannot keep up. One
whose phase saturates loses what did not fit: `lost` adds it up, and `phase_conserved` is the balance of it all.
`fired_law_iff` says which accumulators keep time for ever: `increment ≤ rate`, and the largest phase below `rate`,
which is `rate` less the greatest common divisor, still has room for an increment.
-/
import Mathlib.Data.Int.GCD
import Mathlib.Data.List.Induction
import Mathlib.Tactic.Positivity
import Mathlib.Tactic.Ring

namespace IncomUdon.Lib.Phase

/-! ## §1 — ticks -/

section Ticks

variable (increment rate top : Nat)

/-- One tick: whether it fires, and the phase behind it. -/
def tick (phase : Nat) : Bool × Nat :=
  if min (phase + increment) top < rate then (false, min (phase + increment) top)
  else (true, min (phase + increment) top - rate)

/-- The phase behind `n` ticks. -/
def phaseAt : Nat → Nat
  | 0 => 0
  | n + 1 => (tick increment rate top (phaseAt n)).2

/-- The tick behind `n` ticks fires. -/
def firesAt (n : Nat) : Bool := (tick increment rate top (phaseAt increment rate top n)).1

/-- How often the first `n` ticks fire. -/
def fired : Nat → Nat
  | 0 => 0
  | n + 1 => fired n + (firesAt increment rate top n).toNat

/-- What the first `n` ticks lost to saturation. -/
def lost : Nat → Nat
  | 0 => 0
  | n + 1 => lost n + (phaseAt increment rate top n + increment - top)

/-- One tick keeps the balance. -/
theorem tick_conserved (phase : Nat) :
    (tick increment rate top phase).2 + rate * (tick increment rate top phase).1.toNat +
      (phase + increment - top) = phase + increment := by
  unfold tick
  split
  · show min (phase + increment) top + rate * 0 + _ = _
    omega
  · show min (phase + increment) top - rate + rate * 1 + _ = _
    omega

/-- **The balance.** Every increment went into the phase, into a firing, or was lost. -/
theorem phase_conserved (n : Nat) :
    phaseAt increment rate top n + rate * fired increment rate top n + lost increment rate top n =
      increment * n := by
  induction n with
  | zero => simp [phaseAt, fired, lost]
  | succ n ih =>
    have htick := tick_conserved increment rate top (phaseAt increment rate top n)
    rw [phaseAt, fired, lost, firesAt, Nat.mul_succ, Nat.mul_add, ← ih]
    omega

variable {increment rate top}

theorem lost_mono {m n : Nat} (h : m ≤ n) : lost increment rate top m ≤ lost increment rate top n := by
  induction h with
  | refl => exact Nat.le_refl _
  | step _ ih => exact Nat.le_trans ih (Nat.le_add_right _ _)

end Ticks

/-! ## §2 — increments up to the rate -/

section Slow

variable {increment rate top : Nat} (hrate : 0 < rate) (hslow : increment ≤ rate)

include hrate hslow

theorem phaseAt_lt (n : Nat) : phaseAt increment rate top n < rate := by
  induction n with
  | zero => exact hrate
  | succ n ih =>
    rw [phaseAt]
    unfold tick
    split
    · assumption
    · -- one increment past a phase below the rate stays below twice the rate
      show min (phaseAt increment rate top n + increment) top - rate < rate
      omega

/-- Without the lost part, the firings are the quotient. -/
theorem fired_eq_div (n : Nat) :
    fired increment rate top n = (increment * n - lost increment rate top n) / rate := by
  have hphase : phaseAt increment rate top n < rate := phaseAt_lt hrate hslow n
  have hbalance := phase_conserved increment rate top n
  have hsum : increment * n - lost increment rate top n =
      phaseAt increment rate top n + rate * fired increment rate top n := by omega
  rw [hsum, Nat.add_mul_div_left _ _ hrate, Nat.div_eq_of_lt hphase, Nat.zero_add]

/-- While nothing is lost the phase is the remainder. -/
theorem phaseAt_eq_mod {n : Nat} (hlost : lost increment rate top n = 0) :
    phaseAt increment rate top n = increment * n % rate := by
  have hphase : phaseAt increment rate top n < rate := phaseAt_lt hrate hslow n
  have hbalance := phase_conserved increment rate top n
  rw [← hbalance, hlost, Nat.add_zero, Nat.add_mul_mod_self_left, Nat.mod_eq_of_lt hphase]

/-- Once something is lost, the firings fall short for good, by a whole batch of any size. -/
theorem fired_batch_lt {batch m : Nat} (hbatch : 0 < batch) (hincrement : 0 < increment)
    (hlost : lost increment rate top m ≠ 0) :
    fired increment rate top (batch * rate * m) / batch < increment * (batch * rate * m) / rate / batch := by
  have hm : 0 < m := by
    by_contra hzero
    obtain rfl : m = 0 := by omega
    exact hlost rfl
  -- at a multiple of the rate the quotient is exact, so the loss costs a firing
  have hsum : increment * (batch * rate * m) = rate * (batch * (increment * m)) := by ring
  have hlate : m ≤ batch * rate * m := Nat.le_mul_of_pos_left m (Nat.mul_pos hbatch hrate)
  have hmono : lost increment rate top m ≤ lost increment rate top (batch * rate * m) := lost_mono hlate
  have hpos : 0 < rate * (batch * (increment * m)) := by positivity
  rw [fired_eq_div hrate hslow, hsum, Nat.mul_div_cancel_left _ hrate, Nat.mul_div_cancel_left _ hbatch]
  apply Nat.div_lt_of_lt_mul
  apply Nat.div_lt_of_lt_mul
  omega

omit hslow in
/-- The phases below the rate reach up to the rate less the greatest common divisor. -/
theorem exists_last_phase (hdiv : Nat.gcd increment rate < rate) :
    ∃ m, increment * m % rate = rate - Nat.gcd increment rate := by
  obtain ⟨m, hm, hgcd⟩ := Nat.exists_mul_mod_eq_gcd hdiv
  refine ⟨rate - m, ?_⟩
  have hpos : 0 < Nat.gcd increment rate := Nat.gcd_pos_of_pos_right increment hrate
  -- the two phases add up to a multiple of the rate
  have hsum : (increment * (rate - m) % rate + Nat.gcd increment rate) % rate = 0 := by
    rw [← hgcd, ← Nat.add_mod, ← Nat.mul_add, Nat.sub_add_cancel (Nat.le_of_lt hm), Nat.mul_mod_left]
  have hlt : increment * (rate - m) % rate < rate := Nat.mod_lt _ hrate
  obtain ⟨k, hk⟩ := Nat.dvd_of_mod_eq_zero hsum
  have hone : k = 1 := by
    have hlow : 0 < k := by
      by_contra hzero
      rw [Nat.eq_zero_of_not_pos hzero, Nat.mul_zero] at hk
      omega
    have hhigh : k < 2 := by
      by_contra hge
      have := Nat.mul_le_mul_left rate (Nat.le_of_not_lt hge)
      omega
    omega
  rw [hone, Nat.mul_one] at hk
  omega

/-- **Nothing is ever lost** exactly when the largest phase has room for an increment. -/
theorem lossless_iff (hfits : rate ≤ top) :
    (∀ n, lost increment rate top n = 0) ↔ rate + increment ≤ top + Nat.gcd increment rate := by
  constructor
  · intro hlossless
    have hle : Nat.gcd increment rate ≤ rate := Nat.gcd_le_right increment hrate
    rcases Nat.lt_or_ge (Nat.gcd increment rate) rate with hdiv | hwhole
    · -- the accumulator passes through its largest phase
      obtain ⟨m, hm⟩ := exists_last_phase hrate hdiv
      have hphase := phaseAt_eq_mod hrate hslow (hlossless m)
      have hnext := hlossless (m + 1)
      rw [lost, hlossless m, hphase, hm] at hnext
      omega
    · omega
  · intro hroom n
    induction n with
    | zero => rfl
    | succ n ih =>
      have hphase := phaseAt_eq_mod hrate hslow ih
      -- a phase below the rate is a multiple of the divisor, so it is at most `rate - gcd`
      have hdvd : Nat.gcd increment rate ∣ phaseAt increment rate top n := by
        rw [hphase]
        exact (Nat.dvd_mod_iff (Nat.gcd_dvd_right increment rate)).mpr
          (Nat.dvd_mul_right_of_dvd (Nat.gcd_dvd_left increment rate) n)
      have hbelow : phaseAt increment rate top n < rate := phaseAt_lt hrate hslow n
      have hgap : phaseAt increment rate top n + Nat.gcd increment rate ≤ rate := by
        obtain ⟨a, ha⟩ := hdvd
        obtain ⟨b, hb⟩ := Nat.gcd_dvd_right increment rate
        rw [ha] at hbelow ⊢
        have hab : a < b := by
          apply Nat.lt_of_mul_lt_mul_left (a := Nat.gcd increment rate)
          rw [← hb]
          exact hbelow
        calc Nat.gcd increment rate * a + Nat.gcd increment rate = Nat.gcd increment rate * (a + 1) := by ring
          _ ≤ Nat.gcd increment rate * b := Nat.mul_le_mul_left _ hab
          _ = rate := hb.symm
      rw [lost, ih]
      omega

end Slow

/-! ## §3 — the law -/

section Law

variable {increment rate top : Nat}

/-- An accumulator whose rate is not above its increment fires at every tick. -/
theorem firesAt_of_le (hfast : rate ≤ increment) (hfits : rate ≤ top) (n : Nat) :
    firesAt increment rate top n = true := by
  unfold firesAt tick
  rw [if_neg (by omega)]

theorem fired_of_le (hfast : rate ≤ increment) (hfits : rate ≤ top) (n : Nat) :
    fired increment rate top n = n := by
  induction n with
  | zero => rfl
  | succ n ih =>
    rw [fired, ih, firesAt_of_le hfast hfits]
    rfl

/-- **The law.** Counted in batches of any size, the firings are the quotient for ever exactly when the increment is
not above the rate and nothing is ever lost. -/
theorem fired_law_iff {batch : Nat} (hbatch : 0 < batch) (hincrement : 0 < increment) (hrate : 0 < rate)
    (hfits : rate ≤ top) :
    (∀ n, fired increment rate top n / batch = increment * n / rate / batch) ↔
      increment ≤ rate ∧ rate + increment ≤ top + Nat.gcd increment rate := by
  constructor
  · intro hlaw
    have hslow : increment ≤ rate := by
      by_contra hfast
      -- at `batch * rate` ticks the two counts are `rate` and `increment` batches
      have hat := hlaw (batch * rate)
      have hsum : increment * (batch * rate) = rate * (batch * increment) := by ring
      rw [fired_of_le (by omega) hfits, hsum, Nat.mul_div_cancel_left _ hrate,
        Nat.mul_div_cancel_left _ hbatch, Nat.mul_div_cancel_left _ hbatch] at hat
      omega
    refine ⟨hslow, (lossless_iff hrate hslow hfits).mp ?_⟩
    intro m
    by_contra hlost
    have hshort := fired_batch_lt hrate hslow hbatch hincrement hlost
    rw [hlaw] at hshort
    exact Nat.lt_irrefl _ hshort
  · rintro ⟨hslow, hroom⟩ n
    rw [fired_eq_div hrate hslow, (lossless_iff hrate hslow hfits).mpr hroom n, Nat.sub_zero]

/-- **Where the ticks fire**, as long as the phase cannot saturate: where the quotient grows. -/
theorem firesAt_iff (hincrement : 0 < increment) (hrate : 0 < rate) (hroom : rate + increment ≤ top + 1) (n : Nat) :
    firesAt increment rate top n = true ↔ increment * n / rate < increment * (n + 1) / rate := by
  rcases Nat.lt_or_ge increment rate with hlt | hge
  · -- one tick adds the difference of two quotients
    have hlossless := (lossless_iff hrate (Nat.le_of_lt hlt) (show rate ≤ top by omega)).mpr (by
      have hpos : 0 < Nat.gcd increment rate := Nat.gcd_pos_of_pos_right increment hrate
      omega)
    have hquot : ∀ m, fired increment rate top m = increment * m / rate := by
      intro m
      rw [fired_eq_div hrate (Nat.le_of_lt hlt), hlossless m, Nat.sub_zero]
    rw [← hquot n, ← hquot (n + 1), fired]
    cases firesAt increment rate top n <;> simp
  · -- it fires at every tick, and every tick adds at least one to the quotient
    have hgrows : increment * n / rate + 1 ≤ increment * (n + 1) / rate := by
      rw [← Nat.add_div_right _ hrate, Nat.mul_succ]
      exact Nat.div_le_div_right (Nat.add_le_add_left hge _)
    exact ⟨fun _ => hgrows, fun _ => firesAt_of_le hge (by omega) n⟩

end Law

/-! ## §4 — a stream through the accumulator -/

section Gate

variable {α : Type} (increment rate top : Nat)

/-- One tick for each element: the elements at which it fires, and the phase behind them. -/
def gate (phase : Nat) : List α → List α × Nat
  | [] => ([], phase)
  | x :: xs =>
    ((if (tick increment rate top phase).1 then [x] else []) ++ (gate (tick increment rate top phase).2 xs).1,
      (gate (tick increment rate top phase).2 xs).2)

/-- A stream that starts behind `k` ticks: element `i` of it belongs to tick `k + i`. -/
theorem gate_phaseAt (xs : List α) (k : Nat) : gate increment rate top (phaseAt increment rate top k) xs =
    (((xs.zipIdx k).filter fun x => firesAt increment rate top x.2).map Prod.fst,
      phaseAt increment rate top (k + xs.length)) := by
  induction xs generalizing k with
  | nil => rfl
  | cons x xs ih =>
    rw [gate]
    show (_ ++ (gate increment rate top (phaseAt increment rate top (k + 1)) xs).1,
      (gate increment rate top (phaseAt increment rate top (k + 1)) xs).2) = _
    rw [ih, List.zipIdx_cons, List.filter_cons, List.length_cons, Nat.add_assoc, Nat.add_comm 1]
    show ((if firesAt increment rate top k then [x] else []) ++ _, _) = _
    cases firesAt increment rate top k <;> rfl

/-- A fresh accumulator passes on as many elements as it fires. -/
theorem gate_length (xs : List α) : (gate increment rate top 0 xs).1.length = fired increment rate top xs.length := by
  induction xs using List.reverseRecOn with
  | nil => rfl
  | append_singleton xs x ih =>
    have hfresh : (0 : Nat) = phaseAt increment rate top 0 := rfl
    rw [hfresh, gate_phaseAt, List.length_map] at ih ⊢
    rw [List.zipIdx_append, List.filter_append, List.length_append, ih, List.length_append, List.length_singleton,
      fired, Nat.zero_add]
    show _ + (List.filter _ [(x, xs.length)]).length = _
    rw [List.filter_singleton]
    cases firesAt increment rate top xs.length <;> rfl

end Gate

end IncomUdon.Lib.Phase
