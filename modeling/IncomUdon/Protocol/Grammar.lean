/-
# IncomUdon.Protocol.Grammar — the wire grammar, and the decoder as its exact recogniser.

`Spells p b` says, without naming the decoder, which byte strings are datagrams of the packet `p`: the
encoded header, then extension bytes up to `header_len` (the version-1 layouts name none), then the payload,
and for a secured packet the tag. `decode_eq_ok_iff` shows that `Packet.decode` recognises exactly this
relation, and the round-trip and binding results of the other modules are read off the grammar instead of
the decoder's checks.

`decode_accepts_exactly` states acceptance in terms of the bytes alone (`Accepted`), says where each part of
the result comes from, and rules out every panic: each index, slice and `expect` is in range because of an
earlier check, for accepted and rejected inputs alike.
-/
import IncomUdon.Protocol.Packet
import Mathlib.Tactic.IntervalCases

namespace IncomUdon.Protocol

open IncomUdon.Lib
open IncomUdon.Lib.Outcome (reject ofExcept ok_bind bind_eq_ok bind_ne_panicked reject_of_not
  reject_eq_ok reject_ne_panicked ofExcept_eq_ok ofExcept_ne_panicked)

/-! ## §1 — packet types -/

@[simp] theorem PacketType.tryFrom_toByte (t : PacketType) : PacketType.tryFrom t.toByte = .ok t := by
  cases t <;> rfl

/-- `try_from` inverts `as u8`, and accepts nothing else. -/
theorem PacketType.tryFrom_eq_ok_iff {value : UInt8} {t : PacketType} :
    PacketType.tryFrom value = .ok t ↔ value = t.toByte := by
  constructor
  · intro h
    unfold PacketType.tryFrom at h
    split at h <;> first | (cases h; rfl) | cases h
  · rintro rfl
    exact PacketType.tryFrom_toByte t

/-- The type bytes are `0x01` to `0x0f`. -/
theorem PacketType.exists_toByte_iff {value : UInt8} :
    (∃ t : PacketType, value = t.toByte) ↔ 0x01 ≤ value ∧ value ≤ 0x0f := by
  constructor
  · rintro ⟨t, rfl⟩
    cases t <;> decide
  · rintro ⟨hlo, hhi⟩
    cases h : PacketType.tryFrom value with
    | ok t => exact ⟨t, PacketType.tryFrom_eq_ok_iff.mp h⟩
    | error e =>
      have hval : value = UInt8.ofNat value.toNat := by simp
      have hlo' : 1 ≤ value.toNat := UInt8.le_iff_toNat_le.mp hlo
      have hhi' : value.toNat ≤ 15 := UInt8.le_iff_toNat_le.mp hhi
      generalize value.toNat = n at hval hlo' hhi'
      subst hval
      interval_cases n <;> cases h

/-! ## §2 — headers -/

/-- A header some version-1 datagram can carry: the legacy layout has no room for flags. -/
structure PacketHeader.WellFormed (header : PacketHeader) : Prop where
  version : header.version = protocolVersion
  layout : (header.headerLen = legacyHeaderLen ∧ header.flags = 0) ∨
    fixedHeaderLen ≤ header.headerLen

/-- A well-formed header's `header_len` covers its fixed part. -/
theorem PacketHeader.WellFormed.fixedLen_le {header : PacketHeader} (h : header.WellFormed) :
    header.fixedLen ≤ header.headerLen.toNat := by
  unfold PacketHeader.fixedLen
  rcases h.layout with ⟨hl, -⟩ | hl
  · rw [if_pos hl, hl]
    decide
  · have hfix : (16 : Nat) ≤ header.headerLen.toNat := UInt16.le_iff_toNat_le.mp hl
    split <;> omega

theorem PacketHeader.window_encode (header : PacketHeader) (rest : Bytes) :
    window (header.encode ++ rest) 0 2 = [header.version, header.packetType.toByte] ∧
    window (header.encode ++ rest) 2 2 = be16 header.headerLen ∧
    window (header.encode ++ rest) 4 4 = be32 header.channelId ∧
    window (header.encode ++ rest) 8 4 = be32 header.senderId ∧
    window (header.encode ++ rest) 12 2 = be16 header.sequence := by
  simp only [PacketHeader.encode, PacketHeader.encodeWords, List.append_assoc]
  refine ⟨window_append_left rfl _, ?_, ?_, ?_, ?_⟩
  · rw [window_append_right (k := 2) rfl 0, window_append_left (by simp)]
  · rw [window_append_right (k := 2) rfl 2, window_append_right (k := 2) (by simp) 0,
      window_append_left (by simp)]
  · rw [window_append_right (k := 2) rfl 6, window_append_right (k := 2) (by simp) 4,
      window_append_right (k := 4) (by simp) 0, window_append_left (by simp)]
  · rw [window_append_right (k := 2) rfl 10, window_append_right (k := 2) (by simp) 8,
      window_append_right (k := 4) (by simp) 4, window_append_right (k := 4) (by simp) 0,
      window_append_left (by simp)]

theorem PacketHeader.window_encode_flags {header : PacketHeader}
    (h : header.headerLen ≠ legacyHeaderLen) (rest : Bytes) :
    window (header.encode ++ rest) 14 2 = be16 header.flags := by
  simp only [PacketHeader.encode, List.append_assoc, if_pos h]
  rw [window_append_right (k := 2) rfl 12, window_append_right (k := 12) (by simp) 0,
    window_append_left (by simp)]

/-- **What a decoded header says about the bytes.** Every field is read from its own window. -/
theorem PacketHeader.decode_windows {b : Bytes} {h : PacketHeader}
    (hd : PacketHeader.decode b = .ok h) :
    h.WellFormed ∧ 14 ≤ b.length ∧ h.headerLen.toNat ≤ b.length ∧
      window b 0 2 = [h.version, h.packetType.toByte] ∧ window b 2 2 = be16 h.headerLen ∧
      window b 4 4 = be32 h.channelId ∧ window b 8 4 = be32 h.senderId ∧
      window b 12 2 = be16 h.sequence ∧
      (h.headerLen ≠ legacyHeaderLen → window b 14 2 = be16 h.flags) := by
  simp only [PacketHeader.decode, bind_eq_ok, reject_eq_ok, ofExcept_eq_ok,
    PacketType.tryFrom_eq_ok_iff] at hd
  obtain ⟨_, hlen, version, hver, _, hv, words, hw, _, hlay, _, hcov, flags, hfl, kind, hk, packetType,
    hpt, chan, hchan, sender, hsender, sq, hsq, hret⟩ := hd
  -- what the checks leave: every window below lies in the string
  have hlong : 14 ≤ b.length := Nat.not_lt.mp hlen
  rw [index_of_lt (by omega), Outcome.ok.injEq] at hver hk
  rw [readAt_eq_window (by omega), Outcome.ok.injEq] at hw hchan hsender hsq
  subst hver hk hw hchan hsender hsq
  -- the legacy layout has no flags word, any other is at least 16 bytes
  have hlayout : (ofBe16 (window b 2 2) = legacyHeaderLen ∧ flags = 0) ∨
      fixedHeaderLen ≤ ofBe16 (window b 2 2) := by
    by_cases hl : ofBe16 (window b 2 2) = legacyHeaderLen
    · rw [PacketHeader.decodeFlags, if_pos hl, Outcome.ok.injEq] at hfl
      exact Or.inl ⟨hl, hfl.symm⟩
    · exact Or.inr (UInt16.not_lt.mp fun hlt => hlay ⟨hl, hlt⟩)
  have hflags : ofBe16 (window b 2 2) ≠ legacyHeaderLen → window b 14 2 = be16 flags := by
    intro hl
    have hfix := hlayout.resolve_left fun h => hl h.1
    have h16 : 16 ≤ (ofBe16 (window b 2 2)).toNat := UInt16.le_iff_toNat_le.mp hfix
    rw [PacketHeader.decodeFlags, if_neg hl, readAt_eq_window (by omega), ok_bind] at hfl
    obtain rfl := Outcome.ok.inj hfl
    exact (be16_ofBe16 (window_length (by omega))).symm
  obtain rfl := Outcome.ok.inj hret
  refine ⟨⟨not_not.mp hv, hlayout⟩, hlong, Nat.not_lt.mp hcov, ?_, ?_, ?_, ?_, ?_, hflags⟩
  · rw [window_pair (by omega)]
    exact congrArg _ (congrArg (· :: _) hpt)
  · exact (be16_ofBe16 (window_length (by omega))).symm
  · exact (be32_ofBe32 (window_length (by omega))).symm
  · exact (be32_ofBe32 (window_length (by omega))).symm
  · exact (be16_ofBe16 (window_length (by omega))).symm

/-- A decoded header, encoded again, is the front of the datagram. -/
theorem PacketHeader.encode_eq_take {b : Bytes} {h : PacketHeader}
    (hd : PacketHeader.decode b = .ok h) : h.encode = b.take h.fixedLen := by
  obtain ⟨-, -, -, h02, h22, h44, h84, hc2, he2⟩ := PacketHeader.decode_windows hd
  have h14 : [h.version, h.packetType.toByte] ++ h.encodeWords = window b 0 14 := by
    rw [PacketHeader.encodeWords, ← h02, ← h22, ← h44, ← h84, ← hc2]
    simp only [← List.append_assoc]
    rw [window_append_window b 0 2 2, window_append_window b 0 4 4, window_append_window b 0 8 4,
      window_append_window b 0 12 2]
  rw [PacketHeader.encode, h14, PacketHeader.fixedLen]
  by_cases hl : h.headerLen = legacyHeaderLen
  · rw [if_neg (not_not.mpr hl), if_pos hl, List.append_nil, window_zero_eq_take]
  · rw [if_pos hl, if_neg hl, ← he2 hl, window_append_window b 0 14 2, window_zero_eq_take]

/-- The header a datagram of type `t` spells, field by field. -/
def headerAt (t : PacketType) (b : Bytes) : PacketHeader where
  version := protocolVersion
  packetType := t
  headerLen := ofBe16 (window b 2 2)
  channelId := ofBe32 (window b 4 4)
  senderId := ofBe32 (window b 8 4)
  sequence := ofBe16 (window b 12 2)
  flags := if ofBe16 (window b 2 2) = legacyHeaderLen then 0 else ofBe16 (window b 14 2)

/-- A datagram that starts with the encoding of a well-formed header spells that header. -/
theorem headerAt_encode {h : PacketHeader} (hwf : h.WellFormed) (rest : Bytes) :
    headerAt h.packetType (h.encode ++ rest) = h := by
  obtain ⟨-, h22, h44, h84, hc2⟩ := h.window_encode rest
  -- a well-formed legacy header has no flags to lose
  have hflags : (if h.headerLen = legacyHeaderLen then 0
      else ofBe16 (window (h.encode ++ rest) 14 2)) = h.flags := by
    by_cases hl : h.headerLen = legacyHeaderLen
    · have hnot : ¬ fixedHeaderLen ≤ h.headerLen := by rw [hl]; decide
      rw [if_pos hl, (hwf.layout.resolve_right hnot).2]
    · rw [if_neg hl, PacketHeader.window_encode_flags hl, ofBe16_be16]
  rw [headerAt, h22, h44, h84, hc2, ofBe16_be16, ofBe32_be32, ofBe32_be32, ofBe16_be16, hflags,
    ← hwf.version]

/-- **Completeness of the header decoder**: a datagram that passes the five checks decodes, and to the
header its bytes spell. -/
theorem PacketHeader.decode_headerAt {b : Bytes} {t : PacketType} (hlong : 14 ≤ b.length)
    (hver : b[0]? = some protocolVersion) (hkind : b[1]? = some t.toByte)
    (hlay : ofBe16 (window b 2 2) = legacyHeaderLen ∨ fixedHeaderLen ≤ ofBe16 (window b 2 2))
    (hcov : (ofBe16 (window b 2 2)).toNat ≤ b.length) :
    PacketHeader.decode b = .ok (headerAt t b) := by
  have hread : ∀ off n : Nat, off + n ≤ 14 →
      (readAt b off n : Outcome ProtocolError Bytes) = .ok (window b off n) :=
    fun off n hn => readAt_eq_window (le_trans hn hlong)
  have hrej : ¬ (ofBe16 (window b 2 2) ≠ legacyHeaderLen ∧ ofBe16 (window b 2 2) < fixedHeaderLen) := by
    rintro ⟨hne, hlt⟩
    exact absurd hlt (UInt16.not_lt.mpr (hlay.resolve_left hne))
  have hflags : PacketHeader.decodeFlags b (ofBe16 (window b 2 2)) = .ok (headerAt t b).flags := by
    rw [PacketHeader.decodeFlags, headerAt]
    by_cases hl : ofBe16 (window b 2 2) = legacyHeaderLen
    · simp [hl]
    · have h16 : 16 ≤ (ofBe16 (window b 2 2)).toNat :=
        UInt16.le_iff_toNat_le.mp (hlay.resolve_left hl)
      simp [hl, readAt_eq_window (show 14 + 2 ≤ b.length by omega)]
  simp only [PacketHeader.decode, ok_bind,
    reject_of_not (show ¬ b.length < legacyHeaderLen.toNat from Nat.not_lt.mpr hlong),
    index_eq_ok.mpr hver, reject_of_not (not_not.mpr (rfl : protocolVersion = protocolVersion)),
    hread 2 2 (by omega), reject_of_not hrej, reject_of_not (Nat.not_lt.mpr hcov), hflags,
    index_eq_ok.mpr hkind, PacketType.tryFrom_toByte, Outcome.ofExcept_ok, hread 4 4 (by omega),
    hread 8 4 (by omega), hread 12 2 (by omega), Outcome.pure_eq_ok]
  rfl

/-- **The header decoder recognises the header grammar**: it returns `h` exactly on the byte strings that
start with the encoding of `h` and are at least `header_len` long. -/
theorem PacketHeader.decode_eq_ok_iff {b : Bytes} {h : PacketHeader} :
    PacketHeader.decode b = .ok h ↔
      h.WellFormed ∧ h.headerLen.toNat ≤ b.length ∧ ∃ rest, b = h.encode ++ rest := by
  constructor
  · intro hd
    obtain ⟨hwf, -, hcov, -⟩ := PacketHeader.decode_windows hd
    refine ⟨hwf, hcov, b.drop h.fixedLen, ?_⟩
    rw [PacketHeader.encode_eq_take hd, List.take_append_drop]
  · rintro ⟨hwf, hcov, rest, rfl⟩
    obtain ⟨-, h22, -⟩ := h.window_encode rest
    have hlen : 14 ≤ (h.encode ++ rest).length :=
      le_trans (le_trans h.fixedLen_bounds.1 hwf.fixedLen_le) hcov
    have hlay : h.headerLen = legacyHeaderLen ∨ fixedHeaderLen ≤ h.headerLen :=
      hwf.layout.imp_left And.left
    rw [PacketHeader.decode_headerAt hlen (t := h.packetType) (by rw [← hwf.version]; rfl) rfl
      (by rw [h22, ofBe16_be16]; exact hlay) (by rw [h22, ofBe16_be16]; exact hcov),
      headerAt_encode hwf]

/-- No index the header decoder takes is out of range. -/
theorem PacketHeader.decode_ne_panicked (b : Bytes) : PacketHeader.decode b ≠ .panicked := by
  unfold PacketHeader.decode
  refine bind_ne_panicked _ _ (reject_ne_panicked _ _) fun _ hlen => ?_
  have h14 : 14 ≤ b.length := Nat.not_lt.mp (reject_eq_ok.mp hlen)
  refine bind_ne_panicked _ _ (by simp [index_of_lt (show 0 < b.length by omega)]) fun _ _ => ?_
  refine bind_ne_panicked _ _ (reject_ne_panicked _ _) fun _ _ => ?_
  refine bind_ne_panicked _ _ (by simp [readAt_eq_window (show 2 + 2 ≤ b.length by omega)])
    fun words _ => ?_
  refine bind_ne_panicked _ _ (reject_ne_panicked _ _) fun _ hlay => ?_
  refine bind_ne_panicked _ _ (reject_ne_panicked _ _) fun _ hcov => ?_
  refine bind_ne_panicked _ _ ?flags fun _ _ => ?_
  case flags =>
    -- indices 14 and 15 are covered by `header_len`, which is at least 16 here
    rw [PacketHeader.decodeFlags]
    split
    · exact nofun
    · rename_i hl
      have hfix := UInt16.not_lt.mp fun hlt => reject_eq_ok.mp hlay ⟨hl, hlt⟩
      have h16 : 16 ≤ (ofBe16 words).toNat := UInt16.le_iff_toNat_le.mp hfix
      have hcov' := Nat.not_lt.mp (reject_eq_ok.mp hcov)
      simp [readAt_eq_window (show 14 + 2 ≤ b.length by omega)]
  refine bind_ne_panicked _ _ (by simp [index_of_lt (show 1 < b.length by omega)]) fun _ _ => ?_
  refine bind_ne_panicked _ _ (ofExcept_ne_panicked _) fun _ _ => ?_
  simp [readAt_eq_window (show 4 + 4 ≤ b.length by omega),
    readAt_eq_window (show 8 + 4 ≤ b.length by omega),
    readAt_eq_window (show 12 + 2 ≤ b.length by omega)]

/-! ## §3 — the security header -/

theorem SecurityHeader.encode_val (security : SecurityHeader) :
    security.encode.val = be64 security.nonce ++ be32 security.keyId := rfl

theorem SecurityHeader.decode_of_le {w : Bytes} (h : securityHeaderLen ≤ w.length) :
    SecurityHeader.decode w = .ok ⟨ofBe64 (window w 0 8), ofBe32 (window w 8 4)⟩ := by
  have h12 : 12 ≤ w.length := h
  have hn : (window w 0 (8 - 0)).length = 8 := window_length (by omega)
  have hk : (window w 8 (12 - 8)).length = 4 := window_length (by omega)
  simp only [SecurityHeader.decode, reject_of_not (Nat.not_lt.mpr h), ok_bind,
    slice_eq_window (show 0 ≤ 8 by omega) (show 8 ≤ w.length by omega),
    slice_eq_window (show 8 ≤ 12 by omega) h12, expectArr_of_length hn, expectArr_of_length hk,
    Outcome.pure_eq_ok]

theorem SecurityHeader.decode_ne_panicked (w : Bytes) : SecurityHeader.decode w ≠ .panicked := by
  by_cases h : w.length < securityHeaderLen
  · simp [SecurityHeader.decode, Outcome.reject_of h]
  · rw [SecurityHeader.decode_of_le (Nat.not_lt.mp h)]
    exact nofun

/-! ## §4 — packets -/

/-- The bytes of the security header, read from their place behind the fixed header. -/
def securityAt (b : Bytes) : SecurityHeader := ⟨ofBe64 (window b 16 8), ofBe32 (window b 24 4)⟩

section Decode

variable {b : Bytes} {h : PacketHeader}

/-- Below 28 the datagram is plain: the payload is what follows the header. -/
theorem Packet.decode_plain (hd : PacketHeader.decode b = .ok h)
    (hlt : h.headerLen < securedHeaderLen) :
    Packet.decode b = .ok (.plain h (b.drop h.headerLen.toNat)) := by
  obtain ⟨-, -, hcov, -⟩ := PacketHeader.decode_windows hd
  simp only [Packet.decode, hd, ok_bind, if_pos hlt, slice_to_end hcov, Outcome.pure_eq_ok]

/-- From 28 on, a datagram without room for a tag is rejected. -/
theorem Packet.decode_short (hd : PacketHeader.decode b = .ok h)
    (hge : ¬ h.headerLen < securedHeaderLen) (hlen : b.length < h.headerLen.toNat + authTagLen) :
    Packet.decode b = .err .invalidPacketLength := by
  simp only [Packet.decode, hd, ok_bind, if_neg hge, Outcome.reject_of hlen, Outcome.err_bind]

/-- From 28 on, the datagram is secured: security header, payload and tag from their three places. -/
theorem Packet.decode_secured (hd : PacketHeader.decode b = .ok h)
    (hge : ¬ h.headerLen < securedHeaderLen) (hlen : h.headerLen.toNat + authTagLen ≤ b.length) :
    Packet.decode b = .ok (.secured h (securityAt b)
      (window b h.headerLen.toNat (b.length - authTagLen - h.headerLen.toNat))
      ⟨b.drop (b.length - authTagLen), by rw [List.length_drop]; omega⟩) := by
  have h28 : 28 ≤ h.headerLen.toNat := UInt16.le_iff_toNat_le.mp (UInt16.not_lt.mp hge)
  have htag : authTagLen = 16 := rfl
  -- the security header is read from the slice up to `header_len`, which may be longer
  have hsec : SecurityHeader.decode (window b 16 (h.headerLen.toNat - 16)) = .ok (securityAt b) := by
    have hw : (window b 16 (h.headerLen.toNat - 16)).length = h.headerLen.toNat - 16 :=
      window_length (by omega)
    rw [SecurityHeader.decode_of_le (by rw [hw]; exact Nat.le_sub_of_add_le h28), securityAt]
    have hslice : window b 16 (h.headerLen.toNat - 16) = (b.take h.headerLen.toNat).drop 16 := by
      rw [window, List.drop_take]
    rw [hslice, window_slice b (by omega), window_slice b (by omega)]
  have hfix : fixedHeaderLen.toNat = 16 := rfl
  simp only [Packet.decode, hd, ok_bind, if_neg hge, reject_of_not (Nat.not_lt.mpr hlen), hfix,
    slice_eq_window (show 16 ≤ h.headerLen.toNat by omega) (show h.headerLen.toNat ≤ b.length by omega),
    hsec, checkedSub_of_le (show authTagLen ≤ b.length by omega),
    slice_to_end (show b.length - authTagLen ≤ b.length by omega),
    slice_eq_window (show h.headerLen.toNat ≤ b.length - authTagLen by omega) (Nat.sub_le _ _)]
  rw [expectArr_of_length (by rw [List.length_drop]; omega), ok_bind]
  rfl

theorem Packet.decode_ne_panicked (b : Bytes) : Packet.decode b ≠ .panicked := by
  cases hd : PacketHeader.decode b with
  | err e => simp [Packet.decode, hd]
  | panicked => exact absurd hd (PacketHeader.decode_ne_panicked b)
  | ok h =>
    by_cases hlt : h.headerLen < securedHeaderLen
    · simp [Packet.decode_plain hd hlt]
    · by_cases hlen : b.length < h.headerLen.toNat + authTagLen
      · simp [Packet.decode_short hd hlt hlen]
      · simp [Packet.decode_secured hd hlt (Nat.not_lt.mp hlen)]

/-- **The two ways to decode.** A packet is plain below 28, and secured, with room for its tag, from 28 on. -/
theorem Packet.decode_cases {p : Packet} (hd : Packet.decode b = .ok p) :
    ∃ h, PacketHeader.decode b = .ok h ∧
      ((h.headerLen < securedHeaderLen ∧ p = .plain h (b.drop h.headerLen.toNat)) ∨
      (28 ≤ h.headerLen.toNat ∧ h.headerLen.toNat + 16 ≤ b.length ∧ ∃ authTag : ByteArr authTagLen,
        authTag.val = b.drop (b.length - 16) ∧ p = .secured h (securityAt b)
          (window b h.headerLen.toNat (b.length - 16 - h.headerLen.toNat)) authTag)) := by
  cases hh : PacketHeader.decode b with
  | err e => simp [Packet.decode, hh] at hd
  | panicked => exact absurd hh (PacketHeader.decode_ne_panicked b)
  | ok h =>
    refine ⟨h, rfl, ?_⟩
    by_cases hlt : h.headerLen < securedHeaderLen
    · rw [Packet.decode_plain hh hlt] at hd
      exact Or.inl ⟨hlt, (Outcome.ok.inj hd).symm⟩
    · by_cases hshort : b.length < h.headerLen.toNat + authTagLen
      · rw [Packet.decode_short hh hlt hshort] at hd
        cases hd
      · have hroom := Nat.not_lt.mp hshort
        rw [Packet.decode_secured hh hlt hroom] at hd
        have h28 : 28 ≤ h.headerLen.toNat := UInt16.le_iff_toNat_le.mp (UInt16.not_lt.mp hlt)
        exact Or.inr ⟨h28, hroom, _, rfl, (Outcome.ok.inj hd).symm⟩

end Decode

/-- **The wire grammar.** `Spells b p`: the byte string `b` is a datagram of the packet `p`. Behind the
fields the version-1 layouts name, a header may be extended up to its `header_len`; the extension bytes are
part of the datagram and of no field. -/
inductive Spells (b : Bytes) : Packet → Prop where
  | plain {header : PacketHeader} (ext : Bytes) {payload : Bytes} (hwf : header.WellFormed)
      (hlt : header.headerLen < securedHeaderLen)
      (hlen : header.fixedLen + ext.length = header.headerLen.toNat)
      (hb : b = header.encode ++ (ext ++ payload)) : Spells b (.plain header payload)
  | secured {header : PacketHeader} {security : SecurityHeader} (ext : Bytes) {payload : Bytes}
      {authTag : ByteArr authTagLen} (hwf : header.WellFormed)
      (hlen : 28 + ext.length = header.headerLen.toNat)
      (hb : b = header.encode ++ (security.encode.val ++ (ext ++ (payload ++ authTag.val)))) :
      Spells b (.secured header security payload authTag)

theorem PacketHeader.headerLen_ne_legacy {h : PacketHeader} (h28 : 28 ≤ h.headerLen.toNat) :
    h.headerLen ≠ legacyHeaderLen := by
  intro hl
  rw [hl] at h28
  exact absurd h28 (by decide)

/-- The 28 bytes in front of a secured datagram's extension are its header and security header. -/
theorem secured_front {b : Bytes} {h : PacketHeader} (hd : PacketHeader.decode b = .ok h)
    (h28 : 28 ≤ h.headerLen.toNat) : h.encode ++ (securityAt b).encode.val = b.take 28 := by
  obtain ⟨-, -, hcov, -⟩ := PacketHeader.decode_windows hd
  have hsec : (securityAt b).encode.val = window b 16 12 := by
    rw [SecurityHeader.encode_val, securityAt, be64_ofBe64 (window_length (by omega)),
      be32_ofBe32 (window_length (by omega)), window_append_window b 16 8 4]
  rw [PacketHeader.encode_eq_take hd, PacketHeader.fixedLen_of_ne (PacketHeader.headerLen_ne_legacy h28),
    hsec, ← window_zero_eq_take, window_append_window b 0 16 12, window_zero_eq_take]

/-- Soundness: whatever decodes is spelled by the datagram. -/
theorem Packet.decode_sound {b : Bytes} {p : Packet} (hd : Packet.decode b = .ok p) : Spells b p := by
  obtain ⟨h, hh, hcase⟩ := Packet.decode_cases hd
  obtain ⟨hwf, -, hcov, -⟩ := PacketHeader.decode_windows hh
  have hfix := hwf.fixedLen_le
  rcases hcase with ⟨hlt, rfl⟩ | ⟨h28, hroom, authTag, htag, rfl⟩
  · -- the extension is what lies between the fixed part and `header_len`
    refine .plain (window b h.fixedLen (h.headerLen.toNat - h.fixedLen)) hwf hlt ?_ ?_
    · rw [window_length (by omega)]
      omega
    · rw [PacketHeader.encode_eq_take hh, ← List.append_assoc, ← window_zero_eq_take]
      have hjoin := window_append_window b 0 h.fixedLen (h.headerLen.toNat - h.fixedLen)
      rw [Nat.zero_add] at hjoin
      rw [hjoin, window_zero_eq_take, Nat.add_sub_cancel' hfix, List.take_append_drop]
  · -- here it lies behind the 28 bytes of both headers
    refine .secured (window b 28 (h.headerLen.toNat - 28)) hwf ?_ ?_
    · rw [window_length (by omega)]
      omega
    · have hjoin := window_append_window b 28 (h.headerLen.toNat - 28) (b.length - 16 - h.headerLen.toNat)
      rw [Nat.add_sub_cancel' h28] at hjoin
      have hbody : 28 + (h.headerLen.toNat - 28 + (b.length - 16 - h.headerLen.toNat)) = b.length - 16 := by
        omega
      have hfront := window_append_window b 0 28
        (h.headerLen.toNat - 28 + (b.length - 16 - h.headerLen.toNat))
      rw [Nat.zero_add, hbody, window_zero_eq_take, window_zero_eq_take] at hfront
      rw [← List.append_assoc, secured_front hh h28, ← List.append_assoc (window _ _ _), hjoin,
        ← List.append_assoc, hfront, htag, List.take_append_drop]

/-- Completeness: a datagram of `p` decodes to `p`. -/
theorem Packet.decode_complete {b : Bytes} {p : Packet} (hs : Spells b p) : Packet.decode b = .ok p := by
  cases hs with
  | @plain header ext payload hwf hlt hlen hb =>
    have hfront : (header.encode ++ ext).length = header.headerLen.toNat := by
      rw [List.length_append, PacketHeader.encode_length, hlen]
    have hh : PacketHeader.decode b = .ok header := by
      refine PacketHeader.decode_eq_ok_iff.mpr ⟨hwf, ?_, _, hb⟩
      rw [hb, ← List.append_assoc, List.length_append]
      omega
    rw [Packet.decode_plain hh hlt, hb, ← List.append_assoc, List.drop_left' hfront]
  | @secured header security ext payload authTag hwf hlen hb =>
    have h28 : 28 ≤ header.headerLen.toNat := by omega
    have h16 : header.encode.length = 16 := by
      rw [PacketHeader.encode_length,
        PacketHeader.fixedLen_of_ne (PacketHeader.headerLen_ne_legacy h28)]
    have htag : authTag.val.length = 16 := authTag.property
    have hsec : security.encode.val.length = 12 := security.encode.property
    have hbody : b.length = header.headerLen.toNat + payload.length + 16 := by
      rw [hb]
      simp only [List.length_append, h16, hsec, htag]
      omega
    -- header, security header and extension fill `header_len`
    have hfront : (header.encode ++ (security.encode.val ++ ext)).length = header.headerLen.toNat := by
      simp only [List.length_append, h16, hsec]
      omega
    have hh : PacketHeader.decode b = .ok header :=
      PacketHeader.decode_eq_ok_iff.mpr ⟨hwf, by omega, _, hb⟩
    have hge : ¬ header.headerLen < securedHeaderLen :=
      UInt16.not_lt.mpr (UInt16.le_iff_toNat_le.mpr h28)
    have hroom : header.headerLen.toNat + authTagLen ≤ b.length := by
      rw [hbody]
      exact Nat.add_le_add_right (Nat.le_add_right _ _) _
    -- the three places the decoder reads
    have hsecAt : securityAt b = security := by
      have h168 : window b 16 8 = be64 security.nonce := by
        rw [hb, window_append_right h16 0, SecurityHeader.encode_val, List.append_assoc,
          window_append_left (by simp)]
      have h244 : window b 24 4 = be32 security.keyId := by
        rw [hb, window_append_right h16 8, SecurityHeader.encode_val, List.append_assoc,
          window_append_right (k := 8) (by simp) 0, window_append_left (by simp)]
      rw [securityAt, h168, h244, ofBe64_be64, ofBe32_be32]
    have hpay : window b header.headerLen.toNat (b.length - authTagLen - header.headerLen.toNat) =
        payload := by
      have hn : b.length - authTagLen - header.headerLen.toNat = payload.length := by
        have : authTagLen = 16 := rfl
        omega
      rw [hn, hb, ← List.append_assoc security.encode.val, ← List.append_assoc,
        window_append_length hfront, List.take_left]
    have htagAt : b.drop (b.length - authTagLen) = authTag.val := by
      have hbodyLen : (header.encode ++ (security.encode.val ++ (ext ++ payload))).length =
          b.length - authTagLen := by
        have : authTagLen = 16 := rfl
        simp only [List.length_append, h16, hsec]
        omega
      have hsplit : b = header.encode ++ (security.encode.val ++ (ext ++ payload)) ++ authTag.val := by
        simp only [hb, List.append_assoc]
      conv_lhs => rw [hsplit]
      rw [List.drop_left' (hbodyLen.trans (by rw [hsplit]))]
    rw [Packet.decode_secured hh hge hroom]
    simp only [hsecAt, hpay, htagAt]

/-- **The decoder is the recogniser of the wire grammar.** -/
theorem Packet.decode_eq_ok_iff {b : Bytes} {p : Packet} : Packet.decode b = .ok p ↔ Spells b p :=
  ⟨Packet.decode_sound, Packet.decode_complete⟩

/-! ## §5 — what is accepted, in terms of the bytes -/

/-- The big-endian `u16` of `b[2..4]`. -/
def headerLenAt (b : Bytes) : Nat := ofBe (window b 2 2)

/-- The datagrams of the version-1 grammar, by their bytes alone. -/
structure Accepted (b : Bytes) : Prop where
  fixedPart : 14 ≤ b.length
  version : b[0]? = some 1
  packetType : ∃ t, b[1]? = some t ∧ 0x01 ≤ t ∧ t ≤ 0x0f
  headerLen : headerLenAt b = 14 ∨ 16 ≤ headerLenAt b
  covered : headerLenAt b ≤ b.length
  tag : headerLenAt b < 28 ∨ headerLenAt b + 16 ≤ b.length

theorem toNat_ofBe16_window (b : Bytes) : (ofBe16 (window b 2 2)).toNat = headerLenAt b := by
  have hlt : headerLenAt b < 256 ^ (window b 2 2).length := ofBe_lt _
  have hle : (window b 2 2).length ≤ 2 := List.length_take_le 2 _
  have hpow : 256 ^ (window b 2 2).length ≤ 256 ^ 2 := Nat.pow_le_pow_right (by omega) hle
  exact UInt16.toNat_ofNat_of_lt' (lt_of_lt_of_le hlt hpow)

/-- A decoded header names the length the datagram carries at `b[2..4]`. -/
theorem PacketHeader.headerLen_toNat {b : Bytes} {h : PacketHeader}
    (hd : PacketHeader.decode b = .ok h) : h.headerLen.toNat = headerLenAt b := by
  obtain ⟨-, -, -, -, h22, -⟩ := PacketHeader.decode_windows hd
  rw [← toNat_ofBe16_window, h22, ofBe16_be16]

/-- **Acceptance by the header decoder, in terms of the bytes.** -/
theorem PacketHeader.decode_isOk_iff (b : Bytes) :
    (∃ h, PacketHeader.decode b = .ok h) ↔
      14 ≤ b.length ∧ b[0]? = some 1 ∧ (∃ t, b[1]? = some t ∧ 0x01 ≤ t ∧ t ≤ 0x0f) ∧
        (headerLenAt b = 14 ∨ 16 ≤ headerLenAt b) ∧ headerLenAt b ≤ b.length := by
  constructor
  · rintro ⟨h, hd⟩
    obtain ⟨hwf, hlong, hcov, h02, -⟩ := PacketHeader.decode_windows hd
    have hhl := PacketHeader.headerLen_toNat hd
    rw [window_pair (by omega)] at h02
    obtain ⟨hv, ht⟩ : b[0] = h.version ∧ b[1] = h.packetType.toByte := by simpa using h02
    refine ⟨hlong, ?_, ⟨h.packetType.toByte, ?_, PacketType.exists_toByte_iff.mp ⟨_, rfl⟩⟩, ?_, ?_⟩
    · rw [List.getElem?_eq_getElem (by omega), hv, hwf.version]
      rfl
    · rw [List.getElem?_eq_getElem (by omega), ht]
    · rw [← hhl]
      rcases hwf.layout with ⟨hl, -⟩ | hl
      · exact Or.inl (congrArg UInt16.toNat hl)
      · exact Or.inr (UInt16.le_iff_toNat_le.mp hl)
    · rw [← hhl]
      exact hcov
  · rintro ⟨hlong, hver, ⟨tb, htb, hrange⟩, hlay, hcov⟩
    obtain ⟨t, rfl⟩ := PacketType.exists_toByte_iff.mpr hrange
    have hword := toNat_ofBe16_window b
    refine ⟨headerAt t b, PacketHeader.decode_headerAt hlong hver htb ?_ (by rw [hword]; exact hcov)⟩
    rcases hlay with hl | hl
    · exact Or.inl (UInt16.toNat_inj.mp (by rw [hword, hl]; rfl))
    · exact Or.inr (UInt16.le_iff_toNat_le.mpr (by rw [hword]; exact hl))

theorem lt_securedHeaderLen_iff {b : Bytes} {h : PacketHeader} (hd : PacketHeader.decode b = .ok h) :
    h.headerLen < securedHeaderLen ↔ headerLenAt b < 28 := by
  rw [UInt16.lt_iff_toNat_lt, PacketHeader.headerLen_toNat hd]
  exact Iff.rfl

/-- The header of a decoded packet is what the header decoder read. -/
theorem Packet.decode_header {b : Bytes} {p : Packet} (hd : Packet.decode b = .ok p) :
    PacketHeader.decode b = .ok p.header := by
  obtain ⟨h, hh, ⟨-, rfl⟩ | ⟨-, -, _, -, rfl⟩⟩ := Packet.decode_cases hd
  · exact hh
  · exact hh

/-- The header of a decoded packet, read off the bytes. -/
theorem Packet.header_eq_headerAt {b : Bytes} {p : Packet} (hd : Packet.decode b = .ok p) :
    b[1]? = some p.header.packetType.toByte ∧ p.header = headerAt p.header.packetType b := by
  obtain ⟨hwf, -, rest, hb⟩ := PacketHeader.decode_eq_ok_iff.mp (Packet.decode_header hd)
  refine ⟨by rw [hb]; rfl, ?_⟩
  rw [hb, headerAt_encode hwf]

/-- The security header, payload and tag of a secured datagram, by their places in it. -/
def securedAt (b : Bytes) (header : PacketHeader) (authTag : ByteArr authTagLen) : Packet :=
  .secured header (securityAt b) ((b.take (b.length - 16)).drop (headerLenAt b)) authTag

/-- **The two layouts of an accepted datagram.** -/
theorem Packet.decode_places {b : Bytes} {p : Packet} (hd : Packet.decode b = .ok p) :
    (headerLenAt b < 28 ∧ p = .plain p.header (b.drop (headerLenAt b))) ∨
    (28 ≤ headerLenAt b ∧ headerLenAt b + 16 ≤ b.length ∧ ∃ authTag : ByteArr authTagLen,
      authTag.val = b.drop (b.length - 16) ∧ p = securedAt b p.header authTag) := by
  obtain ⟨h, hh, hcase⟩ := Packet.decode_cases hd
  have hlen := PacketHeader.headerLen_toNat hh
  rcases hcase with ⟨hlt, rfl⟩ | ⟨h28, hroom, authTag, htag, rfl⟩
  · refine Or.inl ⟨(lt_securedHeaderLen_iff hh).mp hlt, ?_⟩
    rw [hlen]
    rfl
  · rw [hlen] at h28 hroom
    refine Or.inr ⟨h28, hroom, authTag, htag, ?_⟩
    rw [securedAt, List.drop_take, ← hlen]
    rfl

/-- **Acceptance, in terms of the bytes.** -/
theorem Packet.decode_isOk_iff (b : Bytes) : (∃ p, Packet.decode b = .ok p) ↔ Accepted b := by
  constructor
  · rintro ⟨p, hd⟩
    have hh := Packet.decode_header hd
    obtain ⟨hlong, hver, htype, hlay, hcov⟩ := (PacketHeader.decode_isOk_iff b).mp ⟨_, hh⟩
    refine ⟨hlong, hver, htype, hlay, hcov, ?_⟩
    rcases Packet.decode_places hd with ⟨hlt, -⟩ | ⟨-, hroom, -⟩
    · exact Or.inl hlt
    · exact Or.inr hroom
  · intro hacc
    obtain ⟨h, hh⟩ := (PacketHeader.decode_isOk_iff b).mpr
      ⟨hacc.fixedPart, hacc.version, hacc.packetType, hacc.headerLen, hacc.covered⟩
    by_cases hlt : h.headerLen < securedHeaderLen
    · exact ⟨_, Packet.decode_plain hh hlt⟩
    · have htag := hacc.tag.resolve_left fun h28 => hlt ((lt_securedHeaderLen_iff hh).mpr h28)
      rw [← PacketHeader.headerLen_toNat hh] at htag
      exact ⟨_, Packet.decode_secured hh hlt htag⟩

/-- **The decoder accepts exactly its grammar and never panics.** Acceptance is the six byte conditions of
`Accepted`; an accepted datagram below `header_len` 28 is plain with everything behind the header as
payload, from 28 on it is secured with security header, payload and tag cut at 16, `header_len` and the last
16 bytes; and no input, accepted or rejected, takes an index, slice or `expect` of the three decoders out of
range. -/
theorem decode_accepts_exactly (b : Bytes) :
    ((∃ p, Packet.decode b = .ok p) ↔ Accepted b) ∧
    (∀ p, Packet.decode b = .ok p →
      b[1]? = some p.header.packetType.toByte ∧ p.header = headerAt p.header.packetType b ∧
      (headerLenAt b < 28 → p = .plain p.header (b.drop (headerLenAt b))) ∧
      (28 ≤ headerLenAt b → ∃ authTag : ByteArr authTagLen,
        authTag.val = b.drop (b.length - 16) ∧ p = securedAt b p.header authTag)) ∧
    Packet.decode b ≠ .panicked ∧ PacketHeader.decode b ≠ .panicked ∧
    SecurityHeader.decode b ≠ .panicked := by
  refine ⟨Packet.decode_isOk_iff b, ?_, Packet.decode_ne_panicked b,
    PacketHeader.decode_ne_panicked b, SecurityHeader.decode_ne_panicked b⟩
  intro p hd
  obtain ⟨hkind, hhead⟩ := Packet.header_eq_headerAt hd
  refine ⟨hkind, hhead, ?_⟩
  rcases Packet.decode_places hd with ⟨hlt, hplain⟩ | ⟨hge, -, hsecured⟩
  · exact ⟨fun _ => hplain, fun hge => absurd hlt (Nat.not_lt.mpr hge)⟩
  · exact ⟨fun hlt => absurd hlt (Nat.not_lt.mpr hge), fun _ => hsecured⟩

end IncomUdon.Protocol
