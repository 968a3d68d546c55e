/-
# IncomUdon.Lib.Circular — arcs of a circle of `m` points.

A wrapping counter that starts at `s` and is used `n` times visits the arc `s, s + 1, …, s + n - 1` modulo `m`.
`offset m s x` is how far `x` lies after `s`. An arc is the set of points at an offset below its length
(`mem_arc`), so its points are distinct exactly up to a full turn (`arc_nodup_iff`), and two non-empty arcs are
disjoint exactly when each ends before the other begins (`arc_disjoint_iff`).
-/
import Mathlib.Data.List.Nodup
import Mathlib.Data.List.Perm.Subperm

namespace IncomUdon.Lib

/-- The steps from `s` to `x` around the circle, for two points of it. -/
def offset (m s x : Nat) : Nat := if s ≤ x then x - s else x + m - s

/-- The `n` points from `s` on. -/
def arc (m s n : Nat) : List Nat := (List.range n).map fun i => (s + i) % m

@[simp] theorem arc_length (m s n : Nat) : (arc m s n).length = n := by
  rw [arc, List.length_map, List.length_range]

theorem arc_succ (m s n : Nat) : arc m s (n + 1) = arc m s n ++ [(s + n) % m] := by
  rw [arc, List.range_succ, List.map_append]
  rfl

section

variable {m s x : Nat} (hs : s < m)

include hs

/-- Going `i` steps from `s` and measuring back. -/
theorem offset_add_mod {i : Nat} (hi : i < m) : offset m s ((s + i) % m) = i := by
  rcases Nat.lt_or_ge (s + i) m with hlt | hge
  · rw [Nat.mod_eq_of_lt hlt, offset, if_pos (Nat.le_add_right s i), Nat.add_sub_cancel_left]
  · -- past the top of the circle, once around
    have hwrap : (s + i) % m = s + i - m := by
      rw [Nat.mod_eq_sub_mod hge, Nat.mod_eq_of_lt (by omega)]
    rw [hwrap, offset, if_neg (by omega)]
    omega

/-- Going as far as `x` lies. -/
theorem add_offset_mod (hx : x < m) : (s + offset m s x) % m = x := by
  unfold offset
  split
  · rw [Nat.add_sub_cancel' (by assumption), Nat.mod_eq_of_lt hx]
  · have hsum : s + (x + m - s) = x + m := by omega
    rw [hsum, Nat.add_mod_right, Nat.mod_eq_of_lt hx]

/-- **An arc is the points at an offset below its length.** -/
theorem mem_arc {n : Nat} (hn : n ≤ m) (hx : x < m) : x ∈ arc m s n ↔ offset m s x < n := by
  rw [arc, List.mem_map]
  constructor
  · rintro ⟨i, hi, rfl⟩
    have hin := List.mem_range.mp hi
    rw [offset_add_mod hs (by omega)]
    exact hin
  · intro h
    exact ⟨offset m s x, List.mem_range.mpr h, add_offset_mod hs hx⟩

/-- **Up to a full turn, the points of an arc are distinct.** -/
theorem arc_nodup {n : Nat} (hn : n ≤ m) : (arc m s n).Nodup := by
  apply List.Nodup.map_on _ List.nodup_range
  intro i hi j hj hij
  have hi' := List.mem_range.mp hi
  have hj' := List.mem_range.mp hj
  rw [← offset_add_mod hs (show i < m by omega), hij, offset_add_mod hs (by omega)]

/-- Beyond a full turn, some point comes again. -/
theorem arc_nodup_iff {n : Nat} : (arc m s n).Nodup ↔ n ≤ m := by
  refine ⟨fun h => ?_, arc_nodup hs⟩
  have hsubset : arc m s n ⊆ List.range m := by
    intro x hx
    obtain ⟨i, -, rfl⟩ := List.mem_map.mp hx
    exact List.mem_range.mpr (Nat.mod_lt _ (by omega))
  have hlength := (List.subperm_of_subset h hsubset).length_le
  rwa [arc_length, List.length_range] at hlength

/-- **Two non-empty arcs are disjoint exactly when each ends before the other begins.** -/
theorem arc_disjoint_iff {t a b : Nat} (ht : t < m) (ha : 1 ≤ a) (ham : a ≤ m) (hb : 1 ≤ b)
    (hbm : b ≤ m) :
    (arc m s a).Disjoint (arc m t b) ↔ a ≤ offset m s t ∧ b ≤ offset m t s := by
  constructor
  · intro hdis
    -- each arc misses the first point of the other
    have htt : offset m t t = 0 := by rw [offset, if_pos (Nat.le_refl _), Nat.sub_self]
    have hss : offset m s s = 0 := by rw [offset, if_pos (Nat.le_refl _), Nat.sub_self]
    refine ⟨Nat.le_of_not_lt fun h => ?_, Nat.le_of_not_lt fun h => ?_⟩
    · exact hdis ((mem_arc hs ham ht).mpr h) ((mem_arc ht hbm ht).mpr (by omega))
    · exact hdis ((mem_arc hs ham hs).mpr (by omega)) ((mem_arc ht hbm hs).mpr h)
  · rintro ⟨hast, hbts⟩ y hya hyb
    have hy : y < m := by
      obtain ⟨i, -, rfl⟩ := List.mem_map.mp hya
      exact Nat.mod_lt _ (by omega)
    -- a common point would lie before the end of both arcs
    have h₁ := (mem_arc hs ham hy).mp hya
    have h₂ := (mem_arc ht hbm hy).mp hyb
    unfold offset at hast hbts h₁ h₂
    split at hast <;> split at hbts <;> split at h₁ <;> split at h₂ <;> omega

end

end IncomUdon.Lib
