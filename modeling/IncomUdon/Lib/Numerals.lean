/-
# IncomUdon.Lib.Numerals — numbers and bytes as text, written and read.

§1 is decimal: the digits of a number below `2 ^ 32` are read back as that number, so `u32::from_str` undoes
`u32::to_string`. §2 is hexadecimal: `HexSpells s b` says that the string `s` spells the bytes `b`, two digits a
byte and in any mix of cases, without saying how such a string is read. Every string of hexadecimal digits of even
length spells some bytes, and `hexText` writes one of the spellings.
-/
import IncomUdon.Lib.Text

namespace IncomUdon.Lib

/-! ## §1 — decimal -/

theorem digitValue_digitChar {d : Nat} (h : d < 10) : digitValue d.digitChar = some d := by
  match d, h with
  | 0, _ | 1, _ | 2, _ | 3, _ | 4, _ | 5, _ | 6, _ | 7, _ | 8, _ | 9, _ => rfl

theorem pushDigit_digitChar {acc d : Nat} (hd : d < 10) (h : acc * 10 + d < 2 ^ 32) :
    pushDigit acc d.digitChar = some (acc * 10 + d) := by
  rw [pushDigit, digitValue_digitChar hd]
  exact if_pos h

/-- The digits of a number that fits are read back as the number. -/
theorem foldlM_toDigits {n : Nat} (h : n < 2 ^ 32) : (Nat.toDigits 10 n).foldlM pushDigit 0 = some n := by
  induction n using Nat.strongRecOn with
  | ind n ih =>
    by_cases hlt : n < 10
    · rw [Nat.toDigits_of_lt_base hlt, List.foldlM_cons, pushDigit_digitChar hlt (by omega), Nat.zero_mul,
        Nat.zero_add]
      rfl
    · -- the last digit is the remainder, those before it are the digits of the quotient
      have hsplit : n / 10 * 10 + n % 10 = n := Nat.div_add_mod' n 10
      have hlast : [(n % 10).digitChar].foldlM pushDigit (n / 10) = some n := by
        rw [List.foldlM_cons, pushDigit_digitChar (Nat.mod_lt n (by decide)) (by omega), hsplit]
        rfl
      rw [Nat.toDigits_of_base_le (by decide) (Nat.not_lt.mp hlt), List.foldlM_append,
        ih (n / 10) (by omega) (by omega)]
      exact hlast

theorem plus_not_mem_toDigits (n : Nat) : '+' ∉ Nat.toDigits 10 n := fun h => by
  have hdigit := Nat.isDigit_of_mem_toDigits (by decide) (by decide) h
  exact absurd hdigit (by decide)

/-- Without a sign the reader takes the whole string. -/
theorem parseU32_of_no_sign {s : Str} (hne : s ≠ []) (hsign : '+' ∉ s) :
    parseU32 s = (s.foldlM pushDigit 0).map UInt32.ofNat := by
  unfold parseU32
  split
  · exact absurd List.mem_cons_self hsign
  · exact if_neg (mt List.isEmpty_iff.mp hne)

/-- **Writing a `u32` and reading it back is lossless.** -/
theorem parseU32_u32ToString (n : UInt32) : parseU32 (u32ToString n) = some n := by
  rw [u32ToString, parseU32_of_no_sign Nat.toDigits_ne_nil (plus_not_mem_toDigits _), foldlM_toDigits n.toNat_lt,
    Option.map_some, UInt32.ofNat_toNat]

/-! ## §2 — hexadecimal -/

/-- The value of a hexadecimal digit of either case. -/
def hexDigit (c : Char) : Option Nat :=
  if '0' ≤ c ∧ c ≤ '9' then some (c.toNat - '0'.toNat)
  else if 'a' ≤ c ∧ c ≤ 'f' then some (c.toNat - 'a'.toNat + 10)
  else if 'A' ≤ c ∧ c ≤ 'F' then some (c.toNat - 'A'.toNat + 10)
  else none

/-- **`HexSpells s b`** — the string `s` spells the bytes `b`: two digits a byte, the high one first. -/
inductive HexSpells : Str → Bytes → Prop where
  | nil : HexSpells [] []
  | cons {high low : Char} {h l : Nat} {s : Str} {b : Bytes} (hhigh : hexDigit high = some h)
      (hlow : hexDigit low = some l) (rest : HexSpells s b) :
      HexSpells (high :: low :: s) (UInt8.ofNat (16 * h + l) :: b)

/-- The lower-case spelling. -/
def hexText (b : Bytes) : Str := b.flatMap fun x => [(x.toNat / 16).digitChar, (x.toNat % 16).digitChar]

theorem hexDigit_digitChar {d : Nat} (h : d < 16) : hexDigit d.digitChar = some d := by
  revert d
  decide

theorem hexDigit_ascii {c : Char} {d : Nat} (h : hexDigit c = some d) : c.toNat < 128 := by
  by_contra hc
  have hbeyond : ∀ bound : Char, bound.toNat < 128 → ¬ c ≤ bound := fun bound hbound hle =>
    hc (Nat.lt_of_le_of_lt hle hbound)
  rw [hexDigit, if_neg fun hle => hbeyond _ (by decide) hle.2, if_neg fun hle => hbeyond _ (by decide) hle.2,
    if_neg fun hle => hbeyond _ (by decide) hle.2] at h
  cases h

theorem hexDigit_not_whitespace {c : Char} {d : Nat} (h : hexDigit c = some d) : isWhitespace c = false :=
  ascii_cases (P := fun c => (hexDigit c).isSome → isWhitespace c = false) (by decide) (hexDigit_ascii h)
    (Option.isSome_of_eq_some h)

theorem hexDigit_lt {c : Char} {d : Nat} (h : hexDigit c = some d) : d < 16 :=
  ascii_cases (P := fun c => ∀ d, hexDigit c = some d → d < 16) (by decide +kernel) (hexDigit_ascii h) d h

/-- The lower-case spelling spells the bytes. -/
theorem hexSpells_hexText (b : Bytes) : HexSpells (hexText b) b := by
  induction b with
  | nil => exact .nil
  | cons x b ih =>
    have hx : x.toNat < 256 := x.toNat_lt
    have hhigh : hexDigit (x.toNat / 16).digitChar = some (x.toNat / 16) := hexDigit_digitChar (by omega)
    have hlow : hexDigit (x.toNat % 16).digitChar = some (x.toNat % 16) := hexDigit_digitChar (by omega)
    have hbyte : UInt8.ofNat (16 * (x.toNat / 16) + x.toNat % 16) = x := by
      rw [Nat.div_add_mod, UInt8.ofNat_toNat]
    have hspells := HexSpells.cons hhigh hlow ih
    rwa [hbyte] at hspells

namespace HexSpells

variable {s : Str} {b : Bytes}

theorem length (h : HexSpells s b) : s.length = 2 * b.length := by
  induction h with
  | nil => rfl
  | cons _ _ _ ih =>
    simp only [List.length_cons, ih]
    omega

theorem digits (h : HexSpells s b) : ∀ c ∈ s, (hexDigit c).isSome := by
  induction h with
  | nil => exact fun c hc => nomatch hc
  | cons hhigh hlow _ ih =>
    simp only [List.forall_mem_cons]
    exact ⟨Option.isSome_of_eq_some hhigh, Option.isSome_of_eq_some hlow, ih⟩

theorem ascii (h : HexSpells s b) : ∀ c ∈ s, c.toNat < 128 := by
  intro c hc
  obtain ⟨d, hd⟩ := Option.isSome_iff_exists.mp (h.digits c hc)
  exact hexDigit_ascii hd

theorem length_asBytes (h : HexSpells s b) : (asBytes s).length = 2 * b.length := by
  rw [asBytes_of_ascii h.ascii, List.length_map, h.length]

theorem not_whitespace (h : HexSpells s b) : ∀ c ∈ s, isWhitespace c = false := by
  intro c hc
  obtain ⟨d, hd⟩ := Option.isSome_iff_exists.mp (h.digits c hc)
  exact hexDigit_not_whitespace hd

/-- Every string of an even number of digits is a spelling. -/
theorem of_digits {n : Nat} (hlen : s.length = 2 * n) (hs : ∀ c ∈ s, (hexDigit c).isSome) :
    ∃ b, HexSpells s b := by
  induction n generalizing s with
  | zero => exact ⟨[], List.length_eq_zero_iff.mp hlen ▸ .nil⟩
  | succ n ih =>
    match s, hlen, hs with
    | high :: low :: s, hlen, hs =>
      simp only [List.forall_mem_cons] at hs
      obtain ⟨hhigh, hlow, hs⟩ := hs
      obtain ⟨h, hhigh⟩ := Option.isSome_iff_exists.mp hhigh
      obtain ⟨l, hlow⟩ := Option.isSome_iff_exists.mp hlow
      obtain ⟨b, hb⟩ := ih (by simpa [Nat.mul_succ] using hlen) hs
      exact ⟨_, .cons hhigh hlow hb⟩

end HexSpells

end IncomUdon.Lib
