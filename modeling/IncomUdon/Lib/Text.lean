/-
# IncomUdon.Lib.Text — strings as the code reads them.

A Rust `str` is modelled by the list of its characters; `asBytes` is its UTF-8 form, so byte lengths and
byte views are those of the code and not character counts. `trim` and `isWhitespace` follow the Unicode
`White_Space` property, `eqIgnoreAsciiCase` folds the letters `A` to `Z` only, and `parseU32` follows
`u32::from_str`: an optional `+`, at least one ASCII digit, no value past `u32::MAX`.

The last two sections say what trimming and stripping a prefix leave of a string, and how characters show in the
UTF-8 form: an ASCII character is its own byte, any other character shows a byte beyond ASCII.
-/
import IncomUdon.Lib.Bytes
import Mathlib.Data.List.DropRight

namespace IncomUdon.Lib

/-- A `str` or `String`: its characters in order. -/
abbrev Str := List Char

/-- `str::as_bytes`: the UTF-8 bytes. -/
def asBytes (s : Str) : Bytes := s.flatMap String.utf8EncodeChar

/-- `char::is_whitespace`: the Unicode `White_Space` property. -/
def isWhitespace (c : Char) : Bool :=
  let n := c.toNat
  (0x09 ≤ n && n ≤ 0x0d) || n == 0x20 || n == 0x85 || n == 0xa0 || n == 0x1680 ||
    (0x2000 ≤ n && n ≤ 0x200a) || n == 0x2028 || n == 0x2029 || n == 0x202f || n == 0x205f ||
    n == 0x3000

/-- `str::trim`. -/
def trim (s : Str) : Str := (s.dropWhile isWhitespace).rdropWhile isWhitespace

/-- `str::strip_prefix`. -/
def stripPrefix : Str → Str → Option Str
  | [], s => some s
  | _ :: _, [] => none
  | p :: ps, c :: cs => if p = c then stripPrefix ps cs else none

/-- `str::eq_ignore_ascii_case`. -/
def eqIgnoreAsciiCase (a b : Str) : Bool := a.map Char.toLower == b.map Char.toLower

/-- `u32::to_string`. -/
def u32ToString (n : UInt32) : Str := Nat.toDigits 10 n.toNat

/-- The value of one ASCII digit. -/
def digitValue (c : Char) : Option Nat :=
  if '0' ≤ c ∧ c ≤ '9' then some (c.toNat - '0'.toNat) else none

/-- One more digit behind `acc`, or `None` past `u32::MAX`. -/
def pushDigit (acc : Nat) (c : Char) : Option Nat := do
  let d ← digitValue c
  if acc * 10 + d < 2 ^ 32 then some (acc * 10 + d) else none

/-- `str::parse::<u32>`. -/
def parseU32 (s : Str) : Option UInt32 :=
  let digits := match s with
    | '+' :: rest => rest
    | _ => s
  if digits.isEmpty then none else (digits.foldlM pushDigit 0).map UInt32.ofNat

theorem eqIgnoreAsciiCase_iff {a b : Str} :
    eqIgnoreAsciiCase a b = true ↔ a.map Char.toLower = b.map Char.toLower := by
  simp [eqIgnoreAsciiCase]

theorem eqIgnoreAsciiCase_comm (a b : Str) : eqIgnoreAsciiCase a b = eqIgnoreAsciiCase b a := by
  rw [Bool.eq_iff_iff, eqIgnoreAsciiCase_iff, eqIgnoreAsciiCase_iff, eq_comm]

/-- The kinds of `io::Error` the code tells apart. -/
inductive IoErrorKind where
  | wouldBlock | timedOut | other
  deriving DecidableEq, Repr

/-- An `io::Error`: its kind and its text. -/
structure IoError where
  kind : IoErrorKind
  message : String
  deriving DecidableEq, Repr

/-- `slice::as_chunks::<2>`: the full pairs, and the element left over. -/
def asChunks2 {α : Type} : List α → List (α × α) × List α
  | a :: b :: rest => ((a, b) :: (asChunks2 rest).1, (asChunks2 rest).2)
  | rest => ([], rest)

/-! ## Addresses -/

/-- The `Display` text of an `Ipv4Addr`. -/
def ipv4ToString (octets : Bytes) : String :=
  String.intercalate "." (octets.map fun octet => toString octet.toNat)

/-- Start and length of the longest run of zeros, the first one if there are several. -/
def zeroSpan (segments : List Nat) : Nat × Nat :=
  (segments.zipIdx.foldl
    (fun (longest, current) (segment, i) =>
      if segment = 0 then
        let current := (if current.2 = 0 then i else current.1, current.2 + 1)
        (if longest.2 < current.2 then current else longest, current)
      else (longest, (0, 0)))
    ((0, 0), (0, 0))).1

/-- Segments in lower-case hexadecimal, with colons between them. -/
def hexSegments (segments : List Nat) : String :=
  String.intercalate ":" (segments.map fun segment => String.ofList (Nat.toDigits 16 segment))

/-- The `Display` text of an `Ipv6Addr`: an IPv4-mapped address in mixed form, any other with its longest run of
two or more zero segments shortened. -/
def ipv6ToString (octets : Bytes) : String :=
  if octets.take 12 = List.replicate 10 0 ++ [0xff, 0xff] then "::ffff:" ++ ipv4ToString (octets.drop 12)
  else
    let segments := (asChunks2 octets).1.map fun pair => pair.1.toNat * 256 + pair.2.toNat
    let zeroes := zeroSpan segments
    if 1 < zeroes.2 then
      hexSegments (segments.take zeroes.1) ++ "::" ++ hexSegments (segments.drop (zeroes.1 + zeroes.2))
    else hexSegments segments

/-! ## Trimming and prefixes -/

/-- A string of whitespace. -/
def Blank (s : Str) : Prop := ∀ c ∈ s, isWhitespace c = true

instance (s : Str) : Decidable (Blank s) := List.decidableBAll (fun c => isWhitespace c = true) s

theorem Blank.reverse {s : Str} (h : Blank s) : Blank s.reverse := fun c hc => h c (List.mem_reverse.mp hc)

theorem dropWhile_blank {s : Str} (h : Blank s) : s.dropWhile isWhitespace = [] := List.dropWhile_eq_nil_iff.mpr h

/-- Exactly a string of whitespace is trimmed away. -/
theorem trim_eq_nil_iff {s : Str} : trim s = [] ↔ Blank s := by
  rw [trim, List.rdropWhile_eq_nil_iff]
  constructor
  · intro h
    by_cases hs : s.dropWhile isWhitespace = []
    · exact List.dropWhile_eq_nil_iff.mp hs
    · -- what is left starts with a character that is not whitespace
      have hhead := List.head_dropWhile_not isWhitespace hs
      rw [h _ (List.head_mem hs)] at hhead
      cases hhead
  · intro h
    rw [dropWhile_blank h]
    exact fun c hc => nomatch hc

theorem isEmpty_trim_iff {s : Str} : (trim s).isEmpty = true ↔ Blank s := by rw [List.isEmpty_iff, trim_eq_nil_iff]

theorem rdropWhile_append_blank {w : Str} (hw : Blank w) (s : Str) :
    (s ++ w).rdropWhile isWhitespace = s.rdropWhile isWhitespace := by
  simp only [List.rdropWhile, List.reverse_append]
  rw [List.dropWhile_append_of_pos hw.reverse]

/-- **Trimming ignores whitespace around a string.** -/
theorem trim_surround {w w' : Str} (hw : Blank w) (hw' : Blank w') (s : Str) : trim (w ++ s ++ w') = trim s := by
  rw [trim, trim, List.append_assoc, List.dropWhile_append_of_pos hw, List.dropWhile_append]
  split
  · rename_i hs
    rw [List.isEmpty_iff.mp hs, dropWhile_blank hw']
  · exact rdropWhile_append_blank hw' _

/-- What is trimmed away is whitespace around the rest. -/
theorem exists_trim_surround (s : Str) : ∃ w w', Blank w ∧ Blank w' ∧ s = w ++ trim s ++ w' := by
  refine ⟨s.takeWhile isWhitespace, (s.dropWhile isWhitespace).rtakeWhile isWhitespace, ?_, ?_, ?_⟩
  · exact fun c hc => List.mem_takeWhile_imp hc
  · exact fun c hc => List.mem_rtakeWhile_imp hc
  · rw [trim, List.append_assoc, List.rdropWhile_append_rtakeWhile, List.takeWhile_append_dropWhile]

/-- Trimming once is enough. -/
@[simp] theorem trim_trim (s : Str) : trim (trim s) = trim s := by
  obtain ⟨w, w', hw, hw', hs⟩ := exists_trim_surround s
  calc trim (trim s) = trim (w ++ trim s ++ w') := (trim_surround hw hw' _).symm
    _ = trim s := by rw [← hs]

theorem trim_of_no_whitespace {s : Str} (h : ∀ c ∈ s, isWhitespace c = false) : trim s = s := by
  have hdrop : s.dropWhile isWhitespace = s := by
    cases s with
    | nil => rfl
    | cons c s => exact List.dropWhile_cons_of_neg (by simp [h c List.mem_cons_self])
  rw [trim, hdrop, List.rdropWhile_eq_self_iff]
  intro hne
  simp [h _ (List.getLast_mem hne)]

theorem stripPrefix_append (p s : Str) : stripPrefix p (p ++ s) = some s := by
  induction p with
  | nil => rfl
  | cons c p ih => rw [List.cons_append, stripPrefix, if_pos rfl, ih]

theorem eq_append_of_stripPrefix {p s r : Str} (h : stripPrefix p s = some r) : s = p ++ r := by
  induction p, s using stripPrefix.induct with
  | case1 s => exact Option.some.inj h
  | case2 => cases h
  | case3 p ps cs ih =>
    rw [stripPrefix, if_pos rfl] at h
    rw [List.cons_append, ← ih h]
  | case4 p ps c cs hne =>
    rw [stripPrefix, if_neg hne] at h
    cases h

/-! ## UTF-8 -/

/-- `String::from_utf8`. -/
def fromUtf8 (b : Bytes) : Option Str := b.toByteArray.utf8Decode?.map Array.toList

theorem fromUtf8_asBytes (s : Str) : fromUtf8 (asBytes s) = some s := by
  have hencode : (asBytes s).toByteArray = s.utf8Encode := rfl
  rw [fromUtf8, hencode, List.utf8Decode?_utf8Encode, Option.map_some]

/-- Decoding is exact: what decodes is the UTF-8 form of the result. -/
theorem fromUtf8_eq_some_iff {b : Bytes} {s : Str} : fromUtf8 b = some s ↔ b = asBytes s := by
  constructor
  · intro h
    obtain ⟨chars, hchars, rfl⟩ := Option.map_eq_some_iff.mp h
    have hsome : b.toByteArray.utf8Decode?.isSome := Option.isSome_of_eq_some hchars
    have hencode : (asBytes chars.toList).toByteArray = chars.toList.utf8Encode := rfl
    have hget : b.toByteArray.utf8Decode?.get hsome = chars := Option.get_of_eq_some hsome hchars
    apply List.toByteArray_inj.mp
    rw [hencode, ← hget, ByteArray.utf8Encode_get_utf8Decode?]
  · rintro rfl
    exact fromUtf8_asBytes s

theorem asBytes_cons (c : Char) (s : Str) : asBytes (c :: s) = String.utf8EncodeChar c ++ asBytes s :=
  List.flatMap_cons ..

theorem asBytes_append (s t : Str) : asBytes (s ++ t) = asBytes s ++ asBytes t := List.flatMap_append

/-- Every character takes at least one byte. -/
theorem length_le_asBytes (s : Str) : s.length ≤ (asBytes s).length := by
  induction s with
  | nil => exact Nat.le_refl 0
  | cons c s ih =>
    have hc : 0 < (String.utf8EncodeChar c).length := by
      rw [String.length_utf8EncodeChar]
      exact c.utf8Size_pos
    rw [asBytes_cons, List.length_append, List.length_cons]
    omega

/-- A string of ASCII characters is its own UTF-8 form. -/
theorem asBytes_of_ascii {s : Str} (h : ∀ c ∈ s, c.toNat < 128) : asBytes s = s.map fun c => UInt8.ofNat c.toNat := by
  induction s with
  | nil => rfl
  | cons c s ih =>
    obtain ⟨hc, hs⟩ := List.forall_mem_cons.mp h
    have hle : c.val.toNat ≤ 127 := Nat.le_of_lt_succ hc
    rw [asBytes_cons, ih hs, List.map_cons, String.utf8EncodeChar]
    simp only [hle, if_true]
    rfl

/-- The first byte of a character beyond ASCII is beyond ASCII. -/
theorem utf8EncodeChar_beyond_ascii {c : Char} (h : 128 ≤ c.toNat) : ∃ b ∈ String.utf8EncodeChar c, 128 ≤ b.toNat := by
  have hc : c.toNat = c.val.toNat := rfl
  unfold String.utf8EncodeChar
  simp only
  -- one case for each length of the encoding
  split
  · omega
  split
  · refine ⟨_, List.mem_cons_self, ?_⟩
    simp only [UInt8.toNat_ofNat']
    omega
  split
  · refine ⟨_, List.mem_cons_self, ?_⟩
    simp only [UInt8.toNat_ofNat']
    omega
  · refine ⟨_, List.mem_cons_self, ?_⟩
    simp only [UInt8.toNat_ofNat']
    omega

/-- So where all bytes are ASCII, so are the characters. -/
theorem ascii_of_asBytes {s : Str} (h : ∀ b ∈ asBytes s, b.toNat < 128) : ∀ c ∈ s, c.toNat < 128 := by
  intro c hc
  by_contra hbeyond
  obtain ⟨b, hb, hge⟩ := utf8EncodeChar_beyond_ascii (Nat.not_lt.mp hbeyond)
  have hlt := h b (List.mem_flatMap.mpr ⟨c, hc, hb⟩)
  omega

/-- What holds of the 128 ASCII characters holds of every character below 128. -/
theorem ascii_cases {P : Char → Prop} (h : ∀ n < 128, P (Char.ofNat n)) {c : Char} (hc : c.toNat < 128) : P c := by
  rw [← Char.ofNat_toNat c]
  exact h c.toNat hc

end IncomUdon.Lib
