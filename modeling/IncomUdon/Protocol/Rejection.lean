/-
# IncomUdon.Protocol.Rejection — why a datagram is refused.

`Accepted` of `IncomUdon.Protocol.Grammar` says what the decoder takes. `Rejected b e` is the rule for its error: the
six checks in their order, up to the first that fails, each on the bytes alone. The two rules leave no byte string out
and share none, and the decoder follows both, so the error that is reported names the first check that failed.
-/
import IncomUdon.Protocol.Grammar

namespace IncomUdon.Protocol

open IncomUdon.Lib
open IncomUdon.Lib.Outcome (reject ofExcept ok_bind err_bind reject_of reject_of_not)

/-- **`Rejected b e`** — the checks in their order, up to the first that fails. -/
inductive Rejected (b : Bytes) : ProtocolError → Prop where
  | fixedPart (h : b.length < 14) : Rejected b .packetTooShort
  | version {v : UInt8} (hlong : 14 ≤ b.length) (hv : b[0]? = some v) (h : v ≠ 1) :
      Rejected b (.unsupportedVersion v)
  | headerLen {n : UInt16} (hlong : 14 ≤ b.length) (hversion : b[0]? = some 1) (hn : n.toNat = headerLenAt b)
      (h : headerLenAt b ≠ 14 ∧ headerLenAt b < 16) : Rejected b (.unsupportedHeaderLength n)
  | covered (hlong : 14 ≤ b.length) (hversion : b[0]? = some 1) (hlen : headerLenAt b = 14 ∨ 16 ≤ headerLenAt b)
      (h : b.length < headerLenAt b) : Rejected b .invalidPacketLength
  | packetType {t : UInt8} (hlong : 14 ≤ b.length) (hversion : b[0]? = some 1)
      (hlen : headerLenAt b = 14 ∨ 16 ≤ headerLenAt b) (hcovered : headerLenAt b ≤ b.length)
      (ht : b[1]? = some t) (h : ¬ (0x01 ≤ t ∧ t ≤ 0x0f)) : Rejected b (.unsupportedPacketType t)
  | tag {t : UInt8} (hlong : 14 ≤ b.length) (hversion : b[0]? = some 1)
      (hlen : headerLenAt b = 14 ∨ 16 ≤ headerLenAt b) (hcovered : headerLenAt b ≤ b.length)
      (ht : b[1]? = some t) (htype : 0x01 ≤ t ∧ t ≤ 0x0f) (h : 28 ≤ headerLenAt b ∧ b.length < headerLenAt b + 16) :
      Rejected b .invalidPacketLength

/-- The two rules leave no byte string out. -/
theorem accepted_or_rejected (b : Bytes) : Accepted b ∨ ∃ e, Rejected b e := by
  rcases Nat.lt_or_ge b.length 14 with hshort | hlong
  · exact .inr ⟨_, .fixedPart hshort⟩
  have hv : b[0]? = some b[0] := List.getElem?_eq_getElem (by omega)
  by_cases hversion : b[0] = 1
  swap
  · exact .inr ⟨_, .version hlong hv hversion⟩
  rw [hversion] at hv
  by_cases hlen : headerLenAt b = 14 ∨ 16 ≤ headerLenAt b
  swap
  · exact .inr ⟨_, .headerLen hlong hv (toNat_ofBe16_window b) (by omega)⟩
  rcases Nat.lt_or_ge b.length (headerLenAt b) with hcut | hcovered
  · exact .inr ⟨_, .covered hlong hv hlen hcut⟩
  have ht : b[1]? = some b[1] := List.getElem?_eq_getElem (by omega)
  by_cases htype : (0x01 : UInt8) ≤ b[1] ∧ b[1] ≤ (0x0f : UInt8)
  swap
  · exact .inr ⟨_, .packetType hlong hv hlen hcovered ht htype⟩
  by_cases htag : headerLenAt b < 28 ∨ headerLenAt b + 16 ≤ b.length
  · exact .inl ⟨hlong, hv, ⟨_, ht, htype⟩, hlen, hcovered, htag⟩
  · exact .inr ⟨_, .tag hlong hv hlen hcovered ht htype (by omega)⟩

/-! ## The decoder follows the rule -/

/-- A byte that is no packet type comes back in the error. -/
theorem PacketType.tryFrom_of_not {t : UInt8} (h : ¬ (0x01 ≤ t ∧ t ≤ 0x0f)) :
    PacketType.tryFrom t = .error (.unsupportedPacketType t) := by
  cases hfrom : PacketType.tryFrom t with
  | ok kind => exact absurd (PacketType.exists_toByte_iff.mp ⟨kind, PacketType.tryFrom_eq_ok_iff.mp hfrom⟩) h
  | error e =>
    unfold PacketType.tryFrom at hfrom
    split at hfrom <;> first | exact hfrom.symm | cases hfrom

section

variable {b : Bytes} {e : ProtocolError}

/-- What the header decoder refuses, the packet decoder refuses. -/
theorem Packet.decode_of_header (h : PacketHeader.decode b = .err e) : Packet.decode b = .err e := by
  simp only [Packet.decode, h, err_bind]

/-- The first two reads of the header decoder. -/
theorem PacketHeader.decode_of_long (hlong : 14 ≤ b.length) {v : UInt8} (hv : b[0]? = some v) :
    reject (b.length < legacyHeaderLen.toNat) ProtocolError.packetTooShort = .ok () ∧
      (index b 0 : Outcome ProtocolError UInt8) = .ok v ∧
      (readAt b 2 2 : Outcome ProtocolError Bytes) = .ok (window b 2 2) :=
  ⟨reject_of_not (Nat.not_lt.mpr hlong) _, index_eq_ok.mpr hv, readAt_eq_window (by omega)⟩

/-- The version that is accepted. -/
theorem reject_version (e : ProtocolError) : reject ((1 : UInt8) ≠ protocolVersion) e = .ok () :=
  reject_of_not (not_not.mpr rfl) e

/-- The word at 2, as the checks compare it. -/
theorem layout_iff (b : Bytes) :
    (ofBe16 (window b 2 2) ≠ legacyHeaderLen ∧ ofBe16 (window b 2 2) < fixedHeaderLen) ↔
      headerLenAt b ≠ 14 ∧ headerLenAt b < 16 := by
  rw [Ne, ← UInt16.toNat_inj, UInt16.lt_iff_toNat_lt, toNat_ofBe16_window]
  exact Iff.rfl

/-- Where the layout is known and covered, the flags are read. -/
theorem PacketHeader.decodeFlags_ok (hlen : headerLenAt b = 14 ∨ 16 ≤ headerLenAt b)
    (hcovered : headerLenAt b ≤ b.length) :
    ∃ flags, PacketHeader.decodeFlags b (ofBe16 (window b 2 2)) = .ok flags := by
  unfold PacketHeader.decodeFlags
  split
  · exact ⟨0, rfl⟩
  · rename_i hne
    have hword : headerLenAt b ≠ 14 := fun h =>
      hne (UInt16.toNat_inj.mp (by rw [toNat_ofBe16_window, h]; rfl))
    rw [readAt_eq_window (show 14 + 2 ≤ b.length by omega)]
    exact ⟨_, rfl⟩

/-- **The decoder follows the rule.** -/
theorem Packet.decode_of_rejected (h : Rejected b e) : Packet.decode b = .err e := by
  cases h with
  | fixedPart h =>
    apply Packet.decode_of_header
    simp only [PacketHeader.decode, reject_of (show b.length < legacyHeaderLen.toNat from h), err_bind]
  | version hlong hv h =>
    apply Packet.decode_of_header
    obtain ⟨hfixed, hindex, -⟩ := PacketHeader.decode_of_long hlong hv
    simp only [PacketHeader.decode, hfixed, ok_bind, hindex, reject_of (show _ ≠ protocolVersion from h), err_bind]
  | @headerLen n hlong hversion hn h =>
    apply Packet.decode_of_header
    obtain ⟨hfixed, hindex, hword⟩ := PacketHeader.decode_of_long hlong hversion
    obtain rfl : ofBe16 (window b 2 2) = n := UInt16.toNat_inj.mp ((toNat_ofBe16_window b).trans hn.symm)
    simp only [PacketHeader.decode, hfixed, ok_bind, hindex, hword, reject_version,
      reject_of ((layout_iff b).mpr h), err_bind]
  | covered hlong hversion hlen h =>
    apply Packet.decode_of_header
    obtain ⟨hfixed, hindex, hword⟩ := PacketHeader.decode_of_long hlong hversion
    have hlayout := mt (layout_iff b).mp (by omega)
    have hcut : b.length < (ofBe16 (window b 2 2)).toNat := by rwa [toNat_ofBe16_window]
    simp only [PacketHeader.decode, hfixed, ok_bind, hindex, hword, reject_version,
      reject_of_not hlayout, reject_of hcut, err_bind]
  | packetType hlong hversion hlen hcovered ht h =>
    apply Packet.decode_of_header
    obtain ⟨hfixed, hindex, hword⟩ := PacketHeader.decode_of_long hlong hversion
    have hlayout := mt (layout_iff b).mp (by omega)
    have hcover : ¬ b.length < (ofBe16 (window b 2 2)).toNat := by
      rw [toNat_ofBe16_window]
      omega
    obtain ⟨flags, hflags⟩ := PacketHeader.decodeFlags_ok hlen hcovered
    simp only [PacketHeader.decode, hfixed, ok_bind, hindex, hword, reject_version,
      reject_of_not hlayout, reject_of_not hcover, hflags, index_eq_ok.mpr ht, PacketType.tryFrom_of_not h]
    rfl
  | tag hlong hversion hlen hcovered ht htype h =>
    -- the header is fine; the datagram is too short for what it announces
    obtain ⟨header, hheader⟩ := (PacketHeader.decode_isOk_iff b).mpr
      ⟨hlong, hversion, ⟨_, ht, htype⟩, hlen, hcovered⟩
    have hsecured : ¬ header.headerLen < securedHeaderLen := by
      rw [lt_securedHeaderLen_iff hheader]
      omega
    apply Packet.decode_short hheader hsecured
    rw [PacketHeader.headerLen_toNat hheader]
    exact h.2

/-- **Every refusal names the first check that failed.** -/
theorem Packet.decode_eq_err_iff : Packet.decode b = .err e ↔ Rejected b e := by
  refine ⟨fun h => ?_, Packet.decode_of_rejected⟩
  rcases accepted_or_rejected b with haccepted | ⟨e', hrejected⟩
  · obtain ⟨p, hp⟩ := (Packet.decode_isOk_iff b).mpr haccepted
    rw [hp] at h
    cases h
  · rw [Packet.decode_of_rejected hrejected] at h
    exact Outcome.err.inj h ▸ hrejected

end

end IncomUdon.Protocol
