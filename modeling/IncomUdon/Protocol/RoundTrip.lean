/-
# IncomUdon.Protocol.RoundTrip — what survives `encode` followed by `decode`, and `decode` followed by `encode`.

`Packet.encode` writes three header layouts; the legacy one has no room for the flags word. A version-1 packet
that encodes is therefore read back as `p.onWire`: itself, with the flags of a legacy header cleared. Since the
encoding is a datagram of the wire grammar (`Packet.encode_spells`), the round trip is completeness of the
decoder and needs no second look at its checks. Another version byte is written as it stands and refused on
reading.

The other way round the grammar leaves one choice open: the extension bytes between the named fields and
`header_len`, which no packet keeps. A datagram without them is the encoding of its packet; the header of a
datagram with them names a length no layout has, and `encode` refuses it (`encode_of_decode`).
-/
import IncomUdon.Protocol.Grammar

namespace IncomUdon.Protocol

open IncomUdon.Lib
open IncomUdon.Lib.Outcome (ok_bind reject_of reject_of_not)

/-! ## What the wire keeps -/

/-- `p` with its flags word replaced. -/
def Packet.setFlags (flags : UInt16) : Packet → Packet
  | .plain header payload => .plain { header with flags } payload
  | .secured header security payload authTag => .secured { header with flags } security payload authTag

/-- The part of a packet its encoding carries: a legacy header loses its flags. -/
def Packet.onWire (p : Packet) : Packet :=
  if p.header.headerLen = legacyHeaderLen then p.setFlags 0 else p

@[simp] theorem Packet.setFlags_header (flags : UInt16) (p : Packet) :
    (p.setFlags flags).header = { p.header with flags } := by
  cases p <;> rfl

theorem Packet.setFlags_eq_self {flags : UInt16} {p : Packet} :
    p.setFlags flags = p ↔ p.header.flags = flags := by
  constructor
  · intro h
    rw [← h, Packet.setFlags_header]
  · rintro rfl
    cases p <;> rfl

theorem Packet.onWire_of_legacy {p : Packet} (hl : p.header.headerLen = legacyHeaderLen) :
    p.onWire = p.setFlags 0 := if_pos hl

theorem Packet.onWire_of_ne {p : Packet} (hl : p.header.headerLen ≠ legacyHeaderLen) :
    p.onWire = p := if_neg hl

/-- A packet is what its encoding carries exactly when no flag is lost. -/
theorem Packet.onWire_eq_self {p : Packet} :
    p.onWire = p ↔ p.header.headerLen ≠ legacyHeaderLen ∨ p.header.flags = 0 := by
  by_cases hl : p.header.headerLen = legacyHeaderLen
  · simp [Packet.onWire_of_legacy hl, Packet.setFlags_eq_self, hl]
  · simp [Packet.onWire_of_ne hl, hl]

/-- Clearing the flags of a legacy header changes none of its bytes. -/
theorem PacketHeader.encode_clearFlags {h : PacketHeader} (hl : h.headerLen = legacyHeaderLen) :
    ({ h with flags := 0 } : PacketHeader).encode = h.encode := by
  simp [PacketHeader.encode, PacketHeader.encodeWords, hl]

/-! ## Encodings are datagrams -/

/-- **The encoding of a version-1 packet is a datagram of the grammar**, for what the wire keeps of it. -/
theorem Packet.encode_spells {p : Packet} {b : Bytes} (he : p.encode = .ok b)
    (hv : p.header.version = protocolVersion) : Spells b p.onWire := by
  cases p with
  | plain h payload =>
    simp only [Packet.encode] at he
    split at he
    · cases he
    · rename_i hlens
      obtain rfl := Except.ok.inj he
      by_cases hl : h.headerLen = legacyHeaderLen
      · -- legacy layout: the flags are cleared, and were not written
        rw [Packet.onWire_of_legacy (p := .plain h payload) hl]
        have hwf : ({ h with flags := 0 } : PacketHeader).WellFormed := ⟨hv, Or.inl ⟨hl, rfl⟩⟩
        refine .plain [] hwf (by rw [hl]; decide) ?_ ?_
        · rw [PacketHeader.fixedLen, if_pos hl, hl]
          rfl
        · rw [PacketHeader.encode_clearFlags hl, List.nil_append]
      · have hfix : h.headerLen = fixedHeaderLen := by
          by_contra hne
          exact hlens ⟨hl, hne⟩
        -- fixed layout: nothing is lost
        rw [Packet.onWire_of_ne (p := .plain h payload) hl]
        refine .plain [] ⟨hv, Or.inr (by rw [hfix]; decide)⟩ (by rw [hfix]; decide) ?_ ?_
        · rw [PacketHeader.fixedLen_of_ne hl, hfix]
          rfl
        · rw [List.nil_append]
  | secured h security payload authTag =>
    simp only [Packet.encode] at he
    split at he
    · cases he
    · rename_i hlen
      obtain rfl := Except.ok.inj he
      have hsec : h.headerLen = securedHeaderLen := not_not.mp hlen
      have hl : h.headerLen ≠ legacyHeaderLen := by rw [hsec]; decide
      rw [Packet.onWire_of_ne (p := .secured h security payload authTag) hl]
      refine .secured [] ⟨hv, Or.inr (by rw [hsec]; decide)⟩ (by rw [hsec]; rfl) ?_
      simp only [List.nil_append, List.append_assoc]

/-- The first byte of every encoding is the version, and at least the legacy header is written. -/
theorem Packet.encode_version {p : Packet} {b : Bytes} (he : p.encode = .ok b) :
    14 ≤ b.length ∧ b[0]? = some p.header.version := by
  have hfront : ∃ rest, b = p.header.encode ++ rest := by
    cases p with
    | plain h payload =>
      simp only [Packet.encode] at he
      split at he
      · cases he
      · exact ⟨payload, (Except.ok.inj he).symm⟩
    | secured h security payload authTag =>
      simp only [Packet.encode] at he
      split at he
      · cases he
      · refine ⟨security.encode.val ++ (payload ++ authTag.val), ?_⟩
        rw [← Except.ok.inj he]
        simp only [Packet.header_secured, List.append_assoc]
  obtain ⟨rest, rfl⟩ := hfront
  refine ⟨?_, rfl⟩
  rw [List.length_append, PacketHeader.encode_length]
  have := p.header.fixedLen_bounds.1
  omega

/-- Another version is refused before anything else is read. -/
theorem Packet.decode_other_version {b : Bytes} {v : UInt8} (hlong : 14 ≤ b.length)
    (hver : b[0]? = some v) (hne : v ≠ protocolVersion) :
    Packet.decode b = .err (.unsupportedVersion v) := by
  have hh : PacketHeader.decode b = .err (.unsupportedVersion v) := by
    simp only [PacketHeader.decode, ok_bind, index_eq_ok.mpr hver, reject_of hne, Outcome.err_bind,
      reject_of_not (show ¬ b.length < legacyHeaderLen.toNat from Nat.not_lt.mpr hlong)]
  simp [Packet.decode, hh]

/-- A version-1 encoding is read back as what it carries. -/
theorem Packet.decode_encode_onWire {p : Packet} {b : Bytes} (he : p.encode = .ok b)
    (hv : p.header.version = protocolVersion) : Packet.decode b = .ok p.onWire :=
  Packet.decode_complete (Packet.encode_spells he hv)

/-- A version-1 packet of 16- or 28-byte header decodes from its encoding unchanged. -/
theorem Packet.decode_own_encoding {p : Packet} {b : Bytes} (he : p.encode = .ok b)
    (hversion : p.header.version = protocolVersion) (hlayout : p.header.headerLen ≠ legacyHeaderLen) :
    Packet.decode b = .ok p := by
  rw [Packet.decode_encode_onWire he hversion, Packet.onWire_of_ne hlayout]

/-- **Encode then decode.** Whatever `p` encodes to, `decode` gives `p` back exactly when the version is 1 and
no legacy header carries flags; when only the flags are in the way it gives `p` with the flags cleared, and
another version is refused. Two version-1 packets with one encoding differ at most in the flags of a legacy
header. -/
theorem decode_of_encode {p : Packet} {b : Bytes} (he : p.encode = .ok b) :
    (Packet.decode b = .ok p ↔ p.header.version = protocolVersion ∧
      (p.header.headerLen ≠ legacyHeaderLen ∨ p.header.flags = 0)) ∧
    (p.header.version = protocolVersion →
      ¬ (p.header.headerLen ≠ legacyHeaderLen ∨ p.header.flags = 0) →
      Packet.decode b = .ok (p.setFlags 0)) ∧
    (p.header.version ≠ protocolVersion →
      Packet.decode b = .err (.unsupportedVersion p.header.version)) ∧
    (∀ q : Packet, q.encode = .ok b → p.header.version = protocolVersion →
      q.header.version = protocolVersion →
      p = q ∨ (p.header.headerLen = legacyHeaderLen ∧ q.header.headerLen = legacyHeaderLen ∧
        p.setFlags 0 = q.setFlags 0)) := by
  have hrefuse : p.header.version ≠ protocolVersion →
      Packet.decode b = .err (.unsupportedVersion p.header.version) := fun hne =>
    Packet.decode_other_version (Packet.encode_version he).1 (Packet.encode_version he).2 hne
  refine ⟨⟨fun hd => ?_, fun ⟨hv, hkeep⟩ => ?_⟩, fun hv hlost => ?_, hrefuse, fun q hq hpv hqv => ?_⟩
  · have hv : p.header.version = protocolVersion := by
      by_contra hne
      rw [hrefuse hne] at hd
      cases hd
    rw [Packet.decode_encode_onWire he hv, Outcome.ok.injEq] at hd
    exact ⟨hv, Packet.onWire_eq_self.mp hd⟩
  · rw [Packet.decode_encode_onWire he hv, Packet.onWire_eq_self.mpr hkeep]
  · rw [Packet.decode_encode_onWire he hv,
      Packet.onWire_of_legacy (not_not.mp fun hl => hlost (Or.inl hl))]
  · have hsame : p.onWire = q.onWire := by
      have hp := Packet.decode_encode_onWire he hpv
      rw [Packet.decode_encode_onWire hq hqv, Outcome.ok.injEq] at hp
      exact hp.symm
    -- the layout itself is on the wire
    have hlen : p.header.headerLen = q.header.headerLen := by
      have hwire : ∀ r : Packet, r.onWire.header.headerLen = r.header.headerLen := by
        intro r
        unfold Packet.onWire
        split
        · rw [Packet.setFlags_header]
        · rfl
      rw [← hwire p, hsame, hwire q]
    by_cases hl : p.header.headerLen = legacyHeaderLen
    · refine Or.inr ⟨hl, hlen.symm.trans hl, ?_⟩
      rw [Packet.onWire_of_legacy hl, Packet.onWire_of_legacy (hlen.symm.trans hl)] at hsame
      exact hsame
    · rw [Packet.onWire_of_ne hl, Packet.onWire_of_ne fun h => hl (hlen.trans h)] at hsame
      exact Or.inl hsame

/-- The legacy layout losing a flag, and the fixed layout keeping it. -/
theorem decode_of_encode_legacy :
    let p : Packet := .plain ⟨1, .ping, 14, 111, 1002, 9, 1⟩ [1, 2, 3, 4]
    Packet.decode [1, 14, 0, 14, 0, 0, 0, 111, 0, 0, 3, 234, 0, 9, 1, 2, 3, 4] = .ok (p.setFlags 0) :=
  (decode_of_encode (p := .plain ⟨1, .ping, 14, 111, 1002, 9, 1⟩ [1, 2, 3, 4]) (by decide)).2.1 rfl
    (by decide)

/-! ## A datagram cut short -/

/-- **The format carries no total length.** A datagram that is cut behind its headers and before its end still
decodes, to a packet with the same header and a shorter payload; a secured one takes its last 16 bytes for the
tag. -/
theorem Packet.decode_cut {p : Packet} {b : Bytes} (he : p.encode = .ok b) (hv : p.header.version = protocolVersion)
    (hlayout : p.header.headerLen ≠ legacyHeaderLen) {n : Nat} (hfront : 44 ≤ n) (hcut : n < b.length) :
    ∃ q, Packet.decode (b.take n) = .ok q ∧ q.header = p.header ∧ q ≠ p := by
  have hspells := Packet.encode_spells he hv
  rw [Packet.onWire_of_ne hlayout] at hspells
  cases p with
  | plain h payload =>
    rw [Packet.header_plain] at hlayout
    simp only [Packet.encode] at he
    split at he
    · cases he
    · obtain rfl := Except.ok.inj he
      have h16 : h.encode.length = 16 := by
        rw [PacketHeader.encode_length, PacketHeader.fixedLen_of_ne hlayout]
      rw [List.length_append, h16] at hcut
      have htake : (h.encode ++ payload).take n = h.encode ++ ([] ++ payload.take (n - 16)) := by
        rw [List.take_append, h16, List.take_of_length_le (by omega), List.nil_append]
      refine ⟨.plain h (payload.take (n - 16)), ?_, rfl, ?_⟩
      · apply Packet.decode_complete
        cases hspells with
        | plain ext hwf hlt hlen hb =>
          -- nothing stands between the header and the payload
          have hsame := congrArg List.length hb
          simp only [List.length_append] at hsame
          exact .plain [] hwf hlt (by rw [List.length_nil]; omega) htake
      · intro hsame
        have hlen := congrArg List.length (Packet.plain.inj hsame).2
        rw [List.length_take] at hlen
        omega
  | secured h security payload authTag =>
    simp only [Packet.encode] at he
    split at he
    · cases he
    · obtain rfl := Except.ok.inj he
      rw [Packet.header_secured] at hlayout
      have h16 : h.encode.length = 16 := by
        rw [PacketHeader.encode_length, PacketHeader.fixedLen_of_ne hlayout]
      have h12 : security.encode.val.length = 12 := security.encode.property
      have htag : authTag.val.length = 16 := authTag.property
      simp only [List.append_assoc, List.length_append, h16, h12, htag] at hcut
      -- what is left of payload and tag, and its last 16 bytes
      let body := (payload ++ authTag.val).take (n - 28)
      have hbody : body.length = n - 28 := by
        simp only [body, List.length_take, List.length_append, htag]
        omega
      have hlast : (body.drop (n - 44)).length = authTagLen := by
        rw [List.length_drop, hbody, authTagLen]
        omega
      have htake : (h.encode ++ security.encode.val ++ payload ++ authTag.val).take n =
          h.encode ++ (security.encode.val ++ ([] ++ (body.take (n - 44) ++ body.drop (n - 44)))) := by
        rw [List.take_append_drop, List.nil_append]
        simp only [List.append_assoc]
        rw [List.take_append, h16, List.take_of_length_le (by omega), List.take_append, h12,
          List.take_of_length_le (by omega), Nat.sub_sub]
      refine ⟨.secured h security (body.take (n - 44)) ⟨body.drop (n - 44), hlast⟩, ?_, rfl, ?_⟩
      · apply Packet.decode_complete
        cases hspells with
        | secured ext hwf hlen hb =>
          have hsame := congrArg List.length hb
          simp only [List.length_append] at hsame
          exact .secured [] hwf (by rw [List.length_nil]; omega) htake
      · intro hsame
        have hlen := congrArg List.length (Packet.secured.inj hsame).2.2.1
        rw [List.length_take, hbody] at hlen
        omega

/-! ## Decode then encode -/

/-- The header lengths `encode` writes. -/
def PacketHeader.Writable (header : PacketHeader) : Prop :=
  header.headerLen = legacyHeaderLen ∨ header.headerLen = fixedHeaderLen ∨ header.headerLen = securedHeaderLen

/-- A datagram of a writable header has no extension bytes: it is the encoding. -/
theorem Packet.encode_of_spells {p : Packet} {b : Bytes} (hs : Spells b p) (hw : p.header.Writable) :
    p.encode = .ok b := by
  cases hs with
  | @plain header ext payload hwf hlt hlen hb =>
    -- 28 is not below 28: the layout is legacy or fixed, and its fixed part is all of `header_len`
    have hlayout : header.headerLen = legacyHeaderLen ∨ header.headerLen = fixedHeaderLen := by
      rcases hw with hl | hf | hsec
      · exact Or.inl hl
      · exact Or.inr hf
      · rw [Packet.header_plain] at hsec
        rw [hsec] at hlt
        exact absurd hlt (by decide)
    have hfull : header.fixedLen = header.headerLen.toNat := by
      rcases hlayout with hl | hf
      · rw [PacketHeader.fixedLen, if_pos hl, hl]
        rfl
      · rw [PacketHeader.fixedLen_of_ne (by rw [hf]; decide), hf]
        rfl
    have hext : ext = [] := List.length_eq_zero_iff.mp (by omega)
    rw [Packet.encode, if_neg (by tauto), hb, hext, List.nil_append]
  | @secured header security ext payload authTag hwf hlen hb =>
    -- the two shorter layouts leave no room for a security header
    have hsec : header.headerLen = securedHeaderLen := by
      rcases hw with hl | hf | hsec
      · rw [Packet.header_secured] at hl
        rw [hl] at hlen
        exact absurd hlen (by simp [legacyHeaderLen]; omega)
      · rw [Packet.header_secured] at hf
        rw [hf] at hlen
        exact absurd hlen (by simp [fixedHeaderLen]; omega)
      · exact hsec
    have hext : ext = [] := by
      apply List.length_eq_zero_iff.mp
      rw [hsec] at hlen
      have h28 : securedHeaderLen.toNat = 28 := rfl
      omega
    rw [Packet.encode, if_neg (not_not.mpr hsec), hb, hext]
    simp only [List.nil_append, List.append_assoc]

/-- Any other header length is refused. -/
theorem Packet.encode_unwritable {p : Packet} (hw : ¬ p.header.Writable) :
    p.encode = .error (.unsupportedHeaderLength p.header.headerLen) := by
  unfold PacketHeader.Writable at hw
  cases p with
  | plain header payload =>
    rw [Packet.header_plain] at hw ⊢
    rw [Packet.encode, if_pos (by tauto)]
  | secured header security payload authTag =>
    rw [Packet.header_secured] at hw ⊢
    rw [Packet.encode, if_pos (by tauto)]

/-- **Decode then encode.** A packet read off a datagram encodes to that datagram, byte for byte, when its
`header_len` is 14, 16 or 28, and is refused with that `header_len` when it is any other. So two different
datagrams of these lengths never decode to one packet, and `encode` never gives other bytes than were decoded. -/
theorem encode_of_decode {b : Bytes} {p : Packet} (hd : Packet.decode b = .ok p) :
    (p.header.headerLen = 14 ∨ p.header.headerLen = 16 ∨ p.header.headerLen = 28 → p.encode = .ok b) ∧
    (¬ (p.header.headerLen = 14 ∨ p.header.headerLen = 16 ∨ p.header.headerLen = 28) →
      p.encode = .error (.unsupportedHeaderLength p.header.headerLen)) ∧
    (∀ b' p', Packet.decode b' = .ok p' → b ≠ b' →
      (p.header.headerLen = 14 ∨ p.header.headerLen = 16 ∨ p.header.headerLen = 28) →
      (p'.header.headerLen = 14 ∨ p'.header.headerLen = 16 ∨ p'.header.headerLen = 28) → p ≠ p') ∧
    (∀ bytes, p.encode = .ok bytes → bytes = b) := by
  have hback : ∀ {b p}, Packet.decode b = .ok p → p.header.Writable → p.encode = .ok b := by
    intro b p hd hw
    exact Packet.encode_of_spells (Packet.decode_sound hd) hw
  refine ⟨hback hd, Packet.encode_unwritable, ?_, ?_⟩
  · rintro b' p' hd' hne hw hw' rfl
    have hsame := (hback hd hw).symm.trans (hback hd' hw')
    exact hne (Except.ok.inj hsame)
  · intro bytes he
    by_cases hw : p.header.Writable
    · exact Except.ok.inj (he.symm.trans (hback hd hw))
    · rw [Packet.encode_unwritable hw] at he
      cases he

/-- A header of 17 bytes is read as a plain packet and not written back. -/
theorem encode_of_decode_extended :
    (Packet.plain ⟨1, .ping, 17, 111, 1002, 9, 1⟩ [7]).encode = .error (.unsupportedHeaderLength 17) :=
  (encode_of_decode (b := [1, 14, 0, 17, 0, 0, 0, 111, 0, 0, 3, 234, 0, 9, 0, 1, 255, 7]) (by decide)).2.1
    (by decide)

end IncomUdon.Protocol
