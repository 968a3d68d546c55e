/-
# IncomUdon.Crypto.Password — what a password is normalized to.

`normalize_password` has three branches: blank passwords, 64 hexadecimal digits that are the key themselves, and
everything else, which is hashed. §1 settles the decoder in both directions: a spelling of 32 bytes decodes to them,
and only strings of 64 digits decode at all, whatever characters of several bytes they hold. §2 has one lemma for each
branch; later results go through those and not through the loop.
-/
import IncomUdon.Crypto
import IncomUdon.Lib.Numerals

namespace IncomUdon.Crypto

open IncomUdon.Lib

/-! ## §1 — the decoder -/

theorem hexNibble_ascii {c : Char} (h : c.toNat < 128) :
    hexNibble (UInt8.ofNat c.toNat) = (hexDigit c).map UInt8.ofNat :=
  ascii_cases (P := fun c => hexNibble (UInt8.ofNat c.toNat) = (hexDigit c).map UInt8.ofNat) (by decide) h

/-- The nibble of a digit is its value. -/
theorem hexNibble_of_hexDigit {c : Char} {d : Nat} (h : hexDigit c = some d) :
    hexNibble (UInt8.ofNat c.toNat) = some (UInt8.ofNat d) := by
  rw [hexNibble_ascii (hexDigit_ascii h), h, Option.map_some]

/-- A byte with a nibble is ASCII. -/
theorem toNat_lt_of_hexNibble {x : UInt8} (h : (hexNibble x).isSome) : x.toNat < 128 := by
  by_contra hx
  have hbeyond : ∀ bound : UInt8, bound.toNat < 128 → ¬ x ≤ bound := fun bound hbound hle =>
    hx (Nat.lt_of_le_of_lt (UInt8.le_iff_toNat_le.mp hle) hbound)
  rw [hexNibble, if_neg fun hle => hbeyond _ (by decide) hle.2, if_neg fun hle => hbeyond _ (by decide) hle.2,
    if_neg fun hle => hbeyond _ (by decide) hle.2] at h
  cases h

theorem joinNibbles {h l : Nat} (hh : h < 16) (hl : l < 16) :
    (UInt8.ofNat h <<< 4) ||| UInt8.ofNat l = UInt8.ofNat (16 * h + l) := by
  revert l
  revert h
  decide +kernel

theorem asBytes_cons_digit {c : Char} {d : Nat} (h : hexDigit c = some d) (s : Str) :
    asBytes (c :: s) = UInt8.ofNat c.toNat :: asBytes s := by
  have hone : asBytes [c] = [UInt8.ofNat c.toNat] :=
    asBytes_of_ascii fun c' hc' => List.mem_singleton.mp hc' ▸ hexDigit_ascii h
  rw [← List.singleton_append, asBytes_append, hone, List.singleton_append]

/-- Two digits in front of a string are one pair in front of its pairs. -/
theorem asChunks2_asBytes_cons {high low : Char} {h l : Nat} (hhigh : hexDigit high = some h)
    (hlow : hexDigit low = some l) (s : Str) :
    asChunks2 (asBytes (high :: low :: s)) =
      ((UInt8.ofNat high.toNat, UInt8.ofNat low.toNat) :: (asChunks2 (asBytes s)).1, (asChunks2 (asBytes s)).2) := by
  rw [asBytes_cons_digit hhigh, asBytes_cons_digit hlow, asChunks2]

theorem asChunks2_of_spells {s : Str} {b : Bytes} (h : HexSpells s b) :
    (asChunks2 (asBytes s)).1.length = b.length ∧ (asChunks2 (asBytes s)).2 = [] := by
  induction h with
  | nil => exact ⟨rfl, rfl⟩
  | cons hhigh hlow _ ih =>
    rw [asChunks2_asBytes_cons hhigh hlow, List.length_cons, List.length_cons, ih.1]
    exact ⟨rfl, ih.2⟩

/-- The loop writes the bytes a string spells over the buffer, from `index` on. -/
theorem decodeHexPairs_of_spells {s : Str} {b : Bytes} (h : HexSpells s b) :
    ∀ (index : Nat) (output : ByteArr 32), index + b.length ≤ 32 →
      ∃ decoded, decodeHexPairs (asChunks2 (asBytes s)).1 index output = (true, decoded) ∧
        decoded.val = output.val.take index ++ b ++ output.val.drop (index + b.length) := by
  induction h with
  | nil =>
    intro index output _
    refine ⟨output, rfl, ?_⟩
    rw [List.append_nil, List.length_nil, Nat.add_zero, List.take_append_drop]
  | @cons high low h l s b hhigh hlow _ ih =>
    intro index output hroom
    rw [List.length_cons] at hroom
    have hindex : index < output.val.length := by
      rw [output.property]
      omega
    obtain ⟨decoded, hdecode, hval⟩ :=
      ih (index + 1) (output.set index ((UInt8.ofNat h <<< 4) ||| UInt8.ofNat l)) (by omega)
    refine ⟨decoded, ?_, ?_⟩
    · rw [asChunks2_asBytes_cons hhigh hlow, decodeHexPairs]
      simp only [hexNibble_of_hexDigit hhigh, hexNibble_of_hexDigit hlow]
      exact hdecode
    · -- the byte just written is the last one of what the rest leaves alone
      have htake : (output.val.set index (UInt8.ofNat (16 * h + l))).take (index + 1) =
          output.val.take index ++ [UInt8.ofNat (16 * h + l)] := by
        rw [← List.take_append_getElem (by rwa [List.length_set]), List.take_set_of_le (Nat.le_refl index),
          List.getElem_set_self]
      have hdrop : (output.val.set index (UInt8.ofNat (16 * h + l))).drop (index + 1 + b.length) =
          output.val.drop (index + 1 + b.length) := List.drop_set_of_lt (by omega)
      rw [hval, ByteArr.set, joinNibbles (hexDigit_lt hhigh) (hexDigit_lt hlow), htake, hdrop, List.length_cons,
        List.append_assoc, List.append_assoc, List.append_assoc, List.singleton_append, List.cons_append,
        Nat.add_right_comm, Nat.add_assoc]

/-- Where the loop runs to its end, every byte of the string has a nibble. -/
theorem hexNibble_of_decodeHexPairs {bytes : Bytes} :
    ∀ {index : Nat} {output decoded : ByteArr 32},
      decodeHexPairs (asChunks2 bytes).1 index output = (true, decoded) → (asChunks2 bytes).2 = [] →
      ∀ x ∈ bytes, (hexNibble x).isSome := by
  induction bytes using asChunks2.induct with
  | case1 a b rest ih =>
    intro index output decoded hdecode hrest
    rw [asChunks2, decodeHexPairs] at hdecode
    simp only [List.forall_mem_cons]
    cases ha : hexNibble a with
    | none => simp [ha] at hdecode
    | some high =>
      cases hb : hexNibble b with
      | none => simp [ha, hb] at hdecode
      | some low =>
        simp only [ha, hb] at hdecode
        exact ⟨rfl, rfl, ih hdecode hrest⟩
  | case2 rest hshort =>
    intro index output decoded _ hrest
    have hnil : rest = [] := by
      rw [asChunks2] at hrest
      · exact hrest
      · exact hshort
    rw [hnil]
    exact fun x hx => nomatch hx

/-- A string of 64 hexadecimal digits. -/
def IsHexKey (s : Str) : Prop := s.length = 64 ∧ ∀ c ∈ s, (hexDigit c).isSome

instance (s : Str) : Decidable (IsHexKey s) :=
  have : Decidable (∀ c ∈ s, (hexDigit c).isSome) := List.decidableBAll (fun c => (hexDigit c).isSome) s
  inferInstanceAs (Decidable (s.length = 64 ∧ ∀ c ∈ s, (hexDigit c).isSome))

/-- Such a string spells a key. -/
theorem isHexKey_iff {s : Str} : IsHexKey s ↔ ∃ k : ByteArr 32, HexSpells s k.val := by
  constructor
  · rintro ⟨hlen, hdigits⟩
    obtain ⟨b, hb⟩ := HexSpells.of_digits (n := 32) hlen hdigits
    have hb32 : b.length = 32 := by
      have := hb.length
      omega
    exact ⟨⟨b, hb32⟩, hb⟩
  · rintro ⟨k, hk⟩
    refine ⟨?_, hk.digits⟩
    rw [hk.length, k.property]

/-- **A spelling of a key decodes to the key.** -/
theorem decodeHex32_of_spells {s : Str} {k : ByteArr 32} (h : HexSpells s k.val) (output : ByteArr 32) :
    decodeHex32 s output = (true, k) := by
  obtain ⟨hpairs, hrest⟩ := asChunks2_of_spells h
  obtain ⟨decoded, hdecode, hval⟩ := decodeHexPairs_of_spells h 0 output (by rw [k.property])
  have hkey : decoded = k := by
    apply Subtype.ext
    rw [hval, List.take_zero, List.nil_append, Nat.zero_add, k.property, List.drop_of_length_le, List.append_nil]
    rw [output.property]
  rw [decodeHex32, if_neg, hdecode, hkey]
  rintro (hleft | hlen)
  · exact hleft hrest
  · exact hlen (by rw [hpairs, k.property, output.property])

/-- **What decodes is 64 digits.** -/
theorem isHexKey_of_decodeHex32 {s : Str} {output decoded : ByteArr 32} (h : decodeHex32 s output = (true, decoded))
    (hlen : (asBytes s).length = 64) : IsHexKey s := by
  unfold decodeHex32 at h
  dsimp only at h
  split at h
  · cases h
  rename_i hchunks
  rw [not_or, not_not] at hchunks
  have hnibbles := hexNibble_of_decodeHexPairs h hchunks.1
  have hascii : ∀ c ∈ s, c.toNat < 128 := ascii_of_asBytes fun x hx => toNat_lt_of_hexNibble (hnibbles x hx)
  rw [asBytes_of_ascii hascii] at hlen hnibbles
  refine ⟨by rwa [List.length_map] at hlen, fun c hc => ?_⟩
  have hsome := hnibbles _ (List.mem_map_of_mem hc)
  rwa [hexNibble_ascii (hascii c hc), Option.isSome_map] at hsome

/-! ## §2 — the branches -/

/-- The text `normalize_password` reads digits from: trimmed, and with one `sha256:` in front removed. -/
def literalText (password : Str) : Str := (stripPrefix "sha256:".toList (trim password)).getD (trim password)

/-- The text without its whitespace around is the same text. -/
theorem literalText_surround {w w' : Str} (hw : Blank w) (hw' : Blank w') (p : Str) :
    literalText (w ++ p ++ w') = literalText p := by
  rw [literalText, literalText, trim_surround hw hw']

theorem blank_surround {w w' : Str} (hw : Blank w) (hw' : Blank w') {p : Str} : Blank (w ++ p ++ w') ↔ Blank p := by
  rw [← trim_eq_nil_iff, ← trim_eq_nil_iff, trim_surround hw hw']

/-- The digits of a key are their own literal text: they do not start with `s`. -/
theorem literalText_of_spells {s : Str} {b : Bytes} (h : HexSpells s b) : literalText s = s := by
  rw [literalText, trim_of_no_whitespace h.not_whitespace]
  cases hstrip : stripPrefix "sha256:".toList s with
  | none => rfl
  | some rest =>
    have hs : 's' ∈ s := by
      rw [eq_append_of_stripPrefix hstrip]
      exact List.mem_append_left _ (by decide)
    exact absurd (h.digits 's' hs) (by decide)

/-- A leading `sha256:` is removed. -/
theorem literalText_sha256_append {s : Str} {b : Bytes} (h : HexSpells s b) :
    literalText ("sha256:".toList ++ s) = s := by
  have htrim : trim ("sha256:".toList ++ s) = "sha256:".toList ++ s := by
    apply trim_of_no_whitespace
    intro c hc
    rcases List.mem_append.mp hc with hscheme | hdigits
    · have hall : ("sha256:".toList.all fun c => !isWhitespace c) = true := by decide
      simpa using List.all_eq_true.mp hall c hscheme
    · exact h.not_whitespace c hdigits
  rw [literalText, htrim, stripPrefix_append, Option.getD_some]

section

variable (crates : CryptoCrates)

theorem normalizePassword_blank {p : Str} (h : Blank p) : normalizePassword crates p = ByteArr.replicate 32 0 := by
  rw [normalizePassword, trim_eq_nil_iff.mpr h]
  rfl

theorem normalizePassword_of_spells {p : Str} {k : ByteArr 32} (h : HexSpells (literalText p) k.val) :
    normalizePassword crates p = k := by
  have hlen : (asBytes (literalText p)).length = 64 := by rw [h.length_asBytes, k.property]
  have hne : trim p ≠ [] := by
    intro hnil
    rw [literalText, hnil] at hlen
    cases hlen
  have hdecode := decodeHex32_of_spells h (ByteArr.replicate 32 0)
  rw [literalText] at hlen hdecode
  rw [normalizePassword]
  simp only [List.isEmpty_iff, hne, if_false, hlen, if_true, hdecode]

theorem normalizePassword_digest {p : Str} (hp : ¬ Blank p) (hkey : ¬ IsHexKey (literalText p)) :
    normalizePassword crates p = crates.sha256 (asBytes p) := by
  rw [normalizePassword, if_neg (mt isEmpty_trim_iff.mp hp)]
  dsimp only
  split
  · rename_i hlen
    split
    · rename_i decoded hdecode
      exact absurd (isHexKey_of_decodeHex32 hdecode hlen) hkey
    · rfl
  · rfl

end

/-- **Literal keys.** Every spelling of a key normalizes to that key, with or without `sha256:` and with any
whitespace around; a password that is neither blank nor such a spelling is hashed, and nothing decoded in part is
returned; and what a password is normalized to, written in hexadecimal behind `sha256:`, normalizes to itself. -/
theorem normalizePassword_literal_keys (crates : CryptoCrates) :
    (∀ (k : ByteArr 32) (h w w' : Str), HexSpells h k.val → Blank w → Blank w' →
      normalizePassword crates (w ++ h ++ w') = k ∧
      normalizePassword crates (w ++ "sha256:".toList ++ h ++ w') = k) ∧
    (∀ p : Str, ¬ Blank p → ¬ IsHexKey (literalText p) →
      normalizePassword crates p = crates.sha256 (asBytes p)) ∧
    (∀ p : Str, normalizePassword crates ("sha256:".toList ++ hexText (normalizePassword crates p).val) =
      normalizePassword crates p) := by
  refine ⟨?_, ?_, ?_⟩
  · intro k h w w' hspells hw hw'
    constructor
    · apply normalizePassword_of_spells
      rwa [literalText_surround hw hw', literalText_of_spells hspells]
    · apply normalizePassword_of_spells
      rwa [List.append_assoc w, literalText_surround hw hw', literalText_sha256_append hspells]
  · intro p hp hkey
    exact normalizePassword_digest crates hp hkey
  · intro p
    have hspells := hexSpells_hexText (normalizePassword crates p).val
    apply normalizePassword_of_spells
    rwa [literalText_sha256_append hspells]

/-- A key in mixed case with a tab and a space around it, and 32 characters that are 64 bytes but no digits. -/
theorem normalizePassword_literal_keys_mixed_case :
    let digits := (List.replicate 32 ['a', 'B']).flatten
    normalizePassword tagCrates (['\t'] ++ digits ++ [' ']) = ByteArr.replicate 32 0xab ∧
    normalizePassword tagCrates (['\t'] ++ "sha256:".toList ++ digits ++ [' ']) = ByteArr.replicate 32 0xab ∧
    normalizePassword tagCrates (List.replicate 32 'é') = tagCrates.sha256 (asBytes (List.replicate 32 'é')) := by
  intro digits
  have hspells : ∀ n : Nat, HexSpells (List.replicate n ['a', 'B']).flatten (List.replicate n 0xab) := by
    intro n
    induction n with
    | zero => exact .nil
    | succ n ih => exact @HexSpells.cons 'a' 'B' 10 11 _ _ rfl rfl ih
  obtain ⟨hliteral, hdigest, -⟩ := normalizePassword_literal_keys tagCrates
  obtain ⟨hplain, hscheme⟩ := hliteral (ByteArr.replicate 32 0xab) digits ['\t'] [' '] (hspells 32)
    (by decide) (by decide)
  exact ⟨hplain, hscheme, hdigest _ (by decide) (by decide)⟩

end IncomUdon.Crypto
