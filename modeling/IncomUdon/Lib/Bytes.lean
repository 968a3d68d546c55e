/-
# IncomUdon.Lib.Bytes — fixed-width words as byte strings.

`toBe n v` is the `n`-byte big-endian spelling of `v` (the high bytes of a wider `v` are lost), `ofBe` reads
a byte string of any length as a big-endian number. They are inverse in both directions:
`ofBe (toBe n v) = v % 256 ^ n`, and `toBe n (ofBe b) = b` when `b` has `n` bytes. The fixed-width words
(`be16`, `be32`, `be64`) are instances, and little-endian is the same spelling reversed.

`window b off n` is the byte range `b[off .. off + n]`: what a header field is, read off a datagram.
-/
import IncomUdon.Lib.Outcome
import Mathlib.Data.List.Basic
import Mathlib.Data.List.Induction
import Mathlib.Data.Nat.Init
import Mathlib.Tactic.Ring

namespace IncomUdon.Lib

/-- A byte string of any length. -/
abbrev Bytes := List UInt8

/-- A byte array `[u8; n]`: the length is part of the value. -/
abbrev ByteArr (n : Nat) := { b : Bytes // b.length = n }

/-- `[v; n]`. -/
def ByteArr.replicate (n : Nat) (v : UInt8) : ByteArr n := ⟨List.replicate n v, by simp⟩

/-- `a[i] = v`, for an index in range. -/
def ByteArr.set {n : Nat} (a : ByteArr n) (i : Nat) (v : UInt8) : ByteArr n :=
  ⟨a.val.set i v, by rw [List.length_set, a.property]⟩

/-- `b.try_into().expect(..)` and `copy_from_slice`: a slice taken as an array panics at any other length. -/
def expectArr {ε : Type} (n : Nat) (b : Bytes) : Outcome ε (ByteArr n) :=
  if h : b.length = n then .ok ⟨b, h⟩ else .panicked

theorem expectArr_of_length {ε : Type} {n : Nat} {b : Bytes} (h : b.length = n) :
    (expectArr n b : Outcome ε (ByteArr n)) = .ok ⟨b, h⟩ :=
  dif_pos h

/-! ## §1 — big-endian numerals -/

/-- The `n`-byte big-endian spelling of `v`. -/
def toBe : Nat → Nat → Bytes
  | 0, _ => []
  | n + 1, v => toBe n (v / 256) ++ [UInt8.ofNat v]

/-- The number a byte string spells, most significant byte first. -/
def ofBe (b : Bytes) : Nat := b.foldl (fun acc x => acc * 256 + x.toNat) 0

@[simp] theorem toBe_length (n v : Nat) : (toBe n v).length = n := by
  induction n generalizing v with
  | zero => rfl
  | succ n ih => simp [toBe, ih]

@[simp] theorem ofBe_nil : ofBe [] = 0 := rfl

theorem ofBe_concat (b : Bytes) (x : UInt8) : ofBe (b ++ [x]) = ofBe b * 256 + x.toNat := by
  simp [ofBe, List.foldl_append]

theorem ofBe_lt (b : Bytes) : ofBe b < 256 ^ b.length := by
  induction b using List.reverseRecOn with
  | nil => simp
  | append_singleton b x ih =>
    have hx : x.toNat < 256 := x.toNat_lt
    rw [ofBe_concat, List.length_append, List.length_singleton, pow_succ]
    omega

/-- Reading back a spelling: what did not fit into `n` bytes is gone. -/
theorem ofBe_toBe (n v : Nat) : ofBe (toBe n v) = v % 256 ^ n := by
  induction n generalizing v with
  | zero => simp [toBe, Nat.mod_one]
  | succ n ih =>
    -- the last byte is the remainder, the front spells the quotient
    have hx : (UInt8.ofNat v).toNat = v % 256 := by simp
    have hsplit : v % (256 ^ n * 256) = v / 256 % 256 ^ n * 256 + v % 256 := by
      rw [Nat.mul_comm (256 ^ n), Nat.mod_mul]
      ring
    rw [toBe, ofBe_concat, ih, hx, pow_succ, hsplit]

theorem ofBe_toBe_of_lt {n v : Nat} (h : v < 256 ^ n) : ofBe (toBe n v) = v := by
  rw [ofBe_toBe, Nat.mod_eq_of_lt h]

/-- Spelling back what was read: no byte is lost, leading zeros included. -/
theorem toBe_ofBe (b : Bytes) : toBe b.length (ofBe b) = b := by
  induction b using List.reverseRecOn with
  | nil => rfl
  | append_singleton b x ih =>
    have hx : x.toNat < 256 := x.toNat_lt
    -- one byte is split off the number again
    have hdiv : (ofBe b * 256 + x.toNat) / 256 = ofBe b := by omega
    have hlow : UInt8.ofNat (ofBe b * 256 + x.toNat) = x := by
      apply UInt8.toNat_inj.mp
      simp only [UInt8.toNat_ofNat']
      omega
    rw [List.length_append, List.length_singleton, ofBe_concat, toBe, hdiv, hlow, ih]

theorem toBe_ofBe_of_length {b : Bytes} {n : Nat} (h : b.length = n) : toBe n (ofBe b) = b := by
  subst h
  exact toBe_ofBe b

/-! ## §2 — the fixed-width words -/

/-- `u16::to_be_bytes`. -/
def be16 (x : UInt16) : Bytes := toBe 2 x.toNat

/-- `u32::to_be_bytes`. -/
def be32 (x : UInt32) : Bytes := toBe 4 x.toNat

/-- `u64::to_be_bytes`. -/
def be64 (x : UInt64) : Bytes := toBe 8 x.toNat

/-- `u16::from_be_bytes`. -/
def ofBe16 (b : Bytes) : UInt16 := UInt16.ofNat (ofBe b)

/-- `u32::from_be_bytes`. -/
def ofBe32 (b : Bytes) : UInt32 := UInt32.ofNat (ofBe b)

/-- `u64::from_be_bytes`. -/
def ofBe64 (b : Bytes) : UInt64 := UInt64.ofNat (ofBe b)

@[simp] theorem be16_length (x : UInt16) : (be16 x).length = 2 := toBe_length 2 _

@[simp] theorem be32_length (x : UInt32) : (be32 x).length = 4 := toBe_length 4 _

@[simp] theorem be64_length (x : UInt64) : (be64 x).length = 8 := toBe_length 8 _

@[simp] theorem ofBe16_be16 (x : UInt16) : ofBe16 (be16 x) = x := by
  rw [ofBe16, be16, ofBe_toBe_of_lt (by simpa using x.toNat_lt), UInt16.ofNat_toNat]

@[simp] theorem ofBe32_be32 (x : UInt32) : ofBe32 (be32 x) = x := by
  rw [ofBe32, be32, ofBe_toBe_of_lt (by simpa using x.toNat_lt), UInt32.ofNat_toNat]

@[simp] theorem ofBe64_be64 (x : UInt64) : ofBe64 (be64 x) = x := by
  rw [ofBe64, be64, ofBe_toBe_of_lt (by simpa using x.toNat_lt), UInt64.ofNat_toNat]

theorem be16_ofBe16 {b : Bytes} (h : b.length = 2) : be16 (ofBe16 b) = b := by
  have hlt := ofBe_lt b
  rw [h] at hlt
  rw [be16, ofBe16, UInt16.toNat_ofNat_of_lt' (by simpa using hlt), toBe_ofBe_of_length h]

theorem be32_ofBe32 {b : Bytes} (h : b.length = 4) : be32 (ofBe32 b) = b := by
  have hlt := ofBe_lt b
  rw [h] at hlt
  rw [be32, ofBe32, UInt32.toNat_ofNat_of_lt' (by simpa using hlt), toBe_ofBe_of_length h]

theorem be64_ofBe64 {b : Bytes} (h : b.length = 8) : be64 (ofBe64 b) = b := by
  have hlt := ofBe_lt b
  rw [h] at hlt
  rw [be64, ofBe64, UInt64.toNat_ofNat_of_lt' (by simpa using hlt), toBe_ofBe_of_length h]

theorem be64_injective {x y : UInt64} (h : be64 x = be64 y) : x = y := by
  rw [← ofBe64_be64 x, h, ofBe64_be64]

theorem be32_injective {x y : UInt32} (h : be32 x = be32 y) : x = y := by
  rw [← ofBe32_be32 x, h, ofBe32_be32]

/-! ## §3 — windows -/

/-- The byte range `b[off .. off + n]` (shorter when `b` ends before it). -/
def window (b : Bytes) (off n : Nat) : Bytes := (b.drop off).take n

theorem window_length {b : Bytes} {off n : Nat} (h : off + n ≤ b.length) :
    (window b off n).length = n := by
  rw [window, List.length_take, List.length_drop]
  omega

/-- Adjacent windows join. -/
theorem window_append_window (b : Bytes) (off m n : Nat) :
    window b off m ++ window b (off + m) n = window b off (m + n) := by
  rw [window, window, window, List.take_add, List.drop_drop]

/-- A window of a joined string that starts after its first part lies in the second. -/
theorem window_append_right {a b : Bytes} {k : Nat} (h : a.length = k) (off n : Nat) :
    window (a ++ b) (k + off) n = window b off n := by
  subst h
  rw [window, window, ← List.drop_drop, List.drop_left]

/-- The window right behind the first part of a joined string. -/
theorem window_append_length {a b : Bytes} {k : Nat} (h : a.length = k) (n : Nat) :
    window (a ++ b) k n = b.take n := by
  rw [← Nat.add_zero k, window_append_right h 0, window, List.drop_zero]

/-- The window that is exactly the first part of a joined string. -/
theorem window_append_left {a : Bytes} {n : Nat} (h : a.length = n) (b : Bytes) :
    window (a ++ b) 0 n = a := by
  subst h
  rw [window, List.drop_zero, List.take_left]

theorem window_pair {b : Bytes} {off : Nat} (h : off + 1 < b.length) :
    window b off 2 = [b[off], b[off + 1]] := by
  rw [window, List.drop_eq_getElem_cons (show off < b.length by omega), List.drop_eq_getElem_cons h]
  rfl

/-- A checked read in range is the window. -/
theorem readAt_eq_window {ε : Type} {b : Bytes} {off n : Nat} (h : off + n ≤ b.length) :
    (readAt b off n : Outcome ε Bytes) = .ok (window b off n) :=
  readAt_of_le h

/-- A window inside a slice is a window of the whole string. -/
theorem window_slice (b : Bytes) {lo hi off n : Nat} (h : lo + off + n ≤ hi) :
    window ((b.take hi).drop lo) off n = window b (lo + off) n := by
  rw [window, window, List.drop_drop, List.drop_take, List.take_take, Nat.min_eq_left (by omega)]

/-- A slice is the window of its length. -/
theorem slice_eq_window {ε : Type} {b : Bytes} {lo hi : Nat} (h : lo ≤ hi) (h' : hi ≤ b.length) :
    (slice b lo hi : Outcome ε Bytes) = .ok (window b lo (hi - lo)) := by
  rw [slice_of_le h h', window, List.drop_take]

/-- The slice up to the end. -/
theorem slice_to_end {ε : Type} {b : Bytes} {lo : Nat} (h : lo ≤ b.length) :
    (slice b lo b.length : Outcome ε Bytes) = .ok (b.drop lo) := by
  rw [slice_of_le h le_rfl, List.take_length]

theorem window_zero_eq_take (b : Bytes) (n : Nat) : window b 0 n = b.take n := by
  rw [window, List.drop_zero]

end IncomUdon.Lib
