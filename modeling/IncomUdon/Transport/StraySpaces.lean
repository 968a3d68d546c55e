/-
# IncomUdon.Transport.StraySpaces — when whitespace around a password makes no difference.

`normalize_password` decides by the trimmed password and hashes the password as typed. So whitespace around it is
ignored where the password is blank or a literal key, and kept where it is a passphrase: §1 shows that these are
exactly the cases, given that SHA-256 does not collide on the two forms, §2 what follows for the media keys of two
members who type the same passphrase with different spaces.
-/
import IncomUdon.Crypto.Password
import IncomUdon.Transport.Isolation

namespace IncomUdon.Transport

open IncomUdon.Lib
open IncomUdon.Crypto

/-- **`SpacesIgnored p w w'`** — there is no whitespace around `p`, or `p` is not hashed. -/
def SpacesIgnored (p w w' : Str) : Prop := (w = [] ∧ w' = []) ∨ Blank p ∨ IsHexKey (literalText p)

instance (p w w' : Str) : Decidable (SpacesIgnored p w w') :=
  inferInstanceAs (Decidable ((w = [] ∧ w' = []) ∨ Blank p ∨ IsHexKey (literalText p)))

/-! ## §1 — normalized passwords -/

/-- Whitespace has a length in bytes as well. -/
theorem eq_nil_of_asBytes_surround {p w w' : Str} (h : asBytes (w ++ p ++ w') = asBytes p) : w = [] ∧ w' = [] := by
  have hlen := congrArg List.length h
  rw [asBytes_append, asBytes_append, List.length_append, List.length_append] at hlen
  have hw := length_le_asBytes w
  have hw' := length_le_asBytes w'
  exact ⟨List.length_eq_zero_iff.mp (by omega), List.length_eq_zero_iff.mp (by omega)⟩

theorem SpacesIgnored.normalize_eq (crates : CryptoCrates) {p w w' : Str} (hw : Blank w) (hw' : Blank w')
    (h : SpacesIgnored p w w') : normalizePassword crates (w ++ p ++ w') = normalizePassword crates p := by
  rcases h with ⟨rfl, rfl⟩ | hblank | hkey
  · rw [List.nil_append, List.append_nil]
  · rw [normalizePassword_blank crates hblank, normalizePassword_blank crates ((blank_surround hw hw').mpr hblank)]
  · obtain ⟨k, hk⟩ := isHexKey_iff.mp hkey
    have hk' : HexSpells (literalText (w ++ p ++ w')) k.val := by rwa [literalText_surround hw hw']
    rw [normalizePassword_of_spells crates hk, normalizePassword_of_spells crates hk']

/-- A passphrase is hashed with the whitespace around it. -/
theorem normalize_surround_digest (crates : CryptoCrates) {p w w' : Str} (hw : Blank w) (hw' : Blank w')
    (h : ¬ SpacesIgnored p w w') :
    normalizePassword crates (w ++ p ++ w') = crates.sha256 (asBytes (w ++ p ++ w')) ∧
      normalizePassword crates p = crates.sha256 (asBytes p) := by
  obtain ⟨-, hblank, hkey⟩ : ¬ (w = [] ∧ w' = []) ∧ ¬ Blank p ∧ ¬ IsHexKey (literalText p) := by
    rwa [SpacesIgnored, not_or, not_or] at h
  refine ⟨normalizePassword_digest crates (mt (blank_surround hw hw').mp hblank) ?_,
    normalizePassword_digest crates hblank hkey⟩
  rwa [literalText_surround hw hw']

theorem normalize_surround_eq_iff (crates : CryptoCrates) {p w w' : Str} (hw : Blank w) (hw' : Blank w')
    (hsha : NoCollision crates (asBytes (w ++ p ++ w')) (asBytes p)) :
    normalizePassword crates (w ++ p ++ w') = normalizePassword crates p ↔ SpacesIgnored p w w' := by
  refine ⟨fun heq => ?_, SpacesIgnored.normalize_eq crates hw hw'⟩
  by_contra hkept
  obtain ⟨hsurround, hplain⟩ := normalize_surround_digest crates hw hw' hkept
  rw [hsurround, hplain] at heq
  exact hkept (.inl (eq_nil_of_asBytes_surround (hsha heq)))

/-! ## §2 — media keys -/

/-- **Silence.** Where the whitespace is kept, two members of one channel have different media keys. -/
theorem mediaKey_ne_of_stray_spaces {crates : CryptoCrates} {a b : RelayConfig} {p w w' : Str} {key key' : ByteArr 32}
    (hhkdf : HkdfInjective crates) (ha : a.password = w ++ p ++ w') (hb : b.password = p) (hw : Blank w)
    (hw' : Blank w') (hsha : NoCollision crates (asBytes a.password) (asBytes b.password))
    (hsha' : NoCollision crates (keyInput crates a) (keyInput crates b)) (hkept : ¬ SpacesIgnored p w w')
    (hkey : mediaKey crates a = some key) (hkey' : mediaKey crates b = some key') : key ≠ key' := by
  apply mediaKey_ne hhkdf hsha' ?_ hkey hkey'
  intro hpair
  rw [ha, hb] at hsha
  have hnormalized := congrArg Prod.fst hpair
  rw [secretPair, secretPair, ha, hb] at hnormalized
  exact hkept ((normalize_surround_eq_iff crates hw hw' hsha).mp hnormalized)

/-- **Stray spaces.** For every password and all whitespace around it, given that SHA-256 does not collide on the two
forms: the two normalize to the same key, and every configuration has the same media key with the one and with the
other, exactly when there is no such whitespace, the password is blank, or it is a literal key. -/
theorem stray_spaces_ignored_iff (crates : CryptoCrates) (p w w' : Str) (hw : Blank w) (hw' : Blank w')
    (hsha : NoCollision crates (asBytes (w ++ p ++ w')) (asBytes p)) :
    (normalizePassword crates (w ++ p ++ w') = normalizePassword crates p ∧
      ∀ config : RelayConfig, mediaKey crates { config with password := w ++ p ++ w' } =
        mediaKey crates { config with password := p }) ↔ SpacesIgnored p w w' := by
  rw [← normalize_surround_eq_iff crates hw hw' hsha]
  exact ⟨And.left, fun heq => ⟨heq, fun config => mediaKey_congr rfl rfl heq⟩⟩

/-- **One space is enough.** A passphrase with a space behind it normalizes to another key, and the media keys of two
members of one channel differ. -/
theorem stray_space_other_key :
    Blank [' '] ∧ NoCollision tagCrates (asBytes ([] ++ "secret".toList ++ [' '])) (asBytes "secret".toList) ∧
    normalizePassword tagCrates ([] ++ "secret".toList ++ [' ']) ≠ normalizePassword tagCrates "secret".toList ∧
    mediaKey tagCrates (member 1002 "secret ") ≠ mediaKey tagCrates (member 7 "secret") := by
  refine ⟨by decide, fun hdigest => ?_, by decide +kernel, by decide +kernel⟩
  exact absurd hdigest (by decide +kernel)

/-- The two forms of that passphrase under the equivalence. -/
theorem stray_spaces_ignored_iff_secret :
    ¬ (normalizePassword tagCrates ([] ++ "secret".toList ++ [' ']) = normalizePassword tagCrates "secret".toList ∧
      ∀ config : RelayConfig, mediaKey tagCrates { config with password := [] ++ "secret".toList ++ [' '] } =
        mediaKey tagCrates { config with password := "secret".toList }) := by
  have hsha : NoCollision tagCrates (asBytes ([] ++ "secret".toList ++ [' '])) (asBytes "secret".toList) :=
    fun hdigest => absurd hdigest (by decide +kernel)
  rw [stray_spaces_ignored_iff tagCrates "secret".toList [] [' '] (by decide) (by decide) hsha]
  decide +kernel

end IncomUdon.Transport
