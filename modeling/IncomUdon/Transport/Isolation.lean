/-
# IncomUdon.Transport.Isolation — stations of another channel or password hear nothing.

The media key is derived from the normalized password and the channel: both in 36 bytes, their SHA-256, and an
expansion of that. §1 shows that the derivation merges no two pairs unless SHA-256 or the expansion does, §2 that a
station with another key gets `None` out of `decode_pcm` for every datagram of `send_pcm`.

What is assumed of the crates is assumed of the two stations only: that SHA-256 does not collide on their two
inputs, and that the cipher refuses under the one key what it made under the other. For all inputs and all keys at
once no hash into 32 bytes and no cipher with 16-byte tags could have these properties.
-/
import IncomUdon.Transport.EndToEnd

namespace IncomUdon.Transport

open IncomUdon.Lib
open IncomUdon.Protocol
open IncomUdon.Crypto

/-! ## What is assumed -/

/-- SHA-256 does not collide on two inputs. -/
def NoCollision (crates : CryptoCrates) (x y : Bytes) : Prop := crates.sha256 x = crates.sha256 y → x = y

/-- The expansion is injective in its key. -/
def HkdfInjective (crates : CryptoCrates) : Prop :=
  ∀ ikm ikm' info okm, crates.hkdfExpand ikm info = some okm → crates.hkdfExpand ikm' info = some okm → ikm = ikm'

/-- What is encrypted under `key` is refused under another `key'`. -/
def RefusesOther (crates : CryptoCrates) (key key' : ByteArr 32) : Prop :=
  key ≠ key' → ∀ nonce msg aad c, crates.aesGcmEncrypt key nonce msg aad = some c →
    crates.aesGcmDecrypt key' nonce c aad = none

/-! ## §1 — keys -/

/-- What the media key is derived from. -/
def secretPair (crates : CryptoCrates) (config : RelayConfig) : ByteArr 32 × UInt32 :=
  (normalizePassword crates config.password, config.channelId)

/-- The 36 bytes `derive_password_key` hashes. -/
def keyInput (crates : CryptoCrates) (config : RelayConfig) : Bytes :=
  (normalizePassword crates config.password).val ++ be32 config.channelId

/-- The two parts have fixed lengths, so joining them loses nothing. -/
theorem keyInput_injective {crates : CryptoCrates} {a b : RelayConfig} (h : keyInput crates a = keyInput crates b) :
    secretPair crates a = secretPair crates b := by
  have hlen : (normalizePassword crates a.password).val.length = (normalizePassword crates b.password).val.length := by
    rw [(normalizePassword crates a.password).property, (normalizePassword crates b.password).property]
  obtain ⟨hpassword, hchannel⟩ := List.append_inj h hlen
  rw [secretPair, secretPair, Subtype.ext hpassword, be32_injective hchannel]

theorem mediaKey_eq_some {crates : CryptoCrates} {config : RelayConfig} {key : ByteArr 32}
    (h : mediaKey crates config = some key) :
    crates.hkdfExpand (crates.sha256 (keyInput crates config)) v2Info = some key := by
  unfold mediaKey at h
  split at h
  · cases h
  · rw [derivePasswordKey, deriveAesGcmV2Key] at h
    rw [keyInput]
    cases hexpand : crates.hkdfExpand
        (crates.sha256 ((normalizePassword crates config.password).val ++ be32 config.channelId)) v2Info with
    | none =>
      rw [hexpand] at h
      cases h
    | some okm =>
      rw [hexpand] at h
      exact h

/-- **Different pairs have different keys.** -/
theorem mediaKey_ne {crates : CryptoCrates} {a b : RelayConfig} {key key' : ByteArr 32} (hhkdf : HkdfInjective crates)
    (hsha : NoCollision crates (keyInput crates a) (keyInput crates b))
    (hpair : secretPair crates a ≠ secretPair crates b) (ha : mediaKey crates a = some key)
    (hb : mediaKey crates b = some key') : key ≠ key' := by
  rintro rfl
  have hdigest := hhkdf _ _ _ _ (mediaKey_eq_some ha) (mediaKey_eq_some hb)
  exact hpair (keyInput_injective (hsha hdigest))

/-! ## §2 — datagrams -/

section

variable {crates : CryptoCrates} {config : RelayConfig} {sequence : UInt16} {media : MediaState} {frame : Bytes}

/-- A datagram sealed under `key` decodes, and yields nothing to a station with another key or with none. -/
theorem decodePcm_of_other_key {key : ByteArr 32} {payload : Bytes} {tag : ByteArr authTagLen}
    (other : Option (ByteArr 32)) (hmode : config.encryption = .aesGcmV2)
    (hcall : (pcmCall config sequence media key frame).result crates = .ok (payload ++ tag.val))
    (hother : ∀ key', other = some key' → key ≠ key' ∧ RefusesOther crates key key') :
    ∃ bytes, (Packet.secured (pcmHeader config sequence) (pcmSecurity media) payload tag).encode = .ok bytes ∧
      ∃ packet, Packet.decode bytes = .ok packet ∧ decodePcm crates packet other = none := by
  obtain ⟨bytes, hencode, -, hdecode, hinput⟩ := sealed_onWire hmode payload tag
  refine ⟨bytes, hencode, _, hdecode, ?_⟩
  cases other with
  | none =>
    rw [decodePcm]
    split <;> rfl
  | some key' =>
    obtain ⟨hne, hrefuses⟩ := hother key' rfl
    -- the cipher made this ciphertext under `key`
    have hmade : crates.aesGcmEncrypt key (packetNonce media.nonce) (pcmPlaintext media frame)
        ((pcmHeader config sequence).encode ++ (pcmSecurity media).encode.val) = some (payload ++ tag.val) := by
      rw [EncryptCall.result, encryptAesGcmV2] at hcall
      cases henc : crates.aesGcmEncrypt key (packetNonce media.nonce) (pcmPlaintext media frame)
          ((pcmHeader config sequence).encode ++ (pcmSecurity media).encode.val) with
      | none =>
        rw [pcmCall, henc] at hcall
        cases hcall
      | some c =>
        rw [pcmCall, henc] at hcall
        rw [Except.ok.inj hcall]
    rw [decodePcm_sealed hinput, decryptAesGcmV2, hrefuses hne _ _ _ _ hmade]
    rfl

end

/-- **Isolation.** Let two stations run AES-GCM v2. If their pairs of normalized password and channel differ, every
datagram that `send_pcm` of the one puts on the socket decodes to a packet out of which `decode_pcm` of the other
gets nothing: for every frame and all counters. If the pairs are equal, so are the media keys. -/
theorem channel_password_isolation {crates : CryptoCrates} {a b : RelayConfig} (ha : a.encryption = .aesGcmV2)
    (hb : b.encryption = .aesGcmV2) (hhkdf : HkdfInjective crates)
    (hsha : NoCollision crates (keyInput crates a) (keyInput crates b))
    (haead : ∀ key key', mediaKey crates a = some key → mediaKey crates b = some key' →
      RefusesOther crates key key') :
    (secretPair crates a ≠ secretPair crates b → ∀ frame sequence audioSequence nonce sent bytes,
      bytes ∈ (sendPcm crates a sequence ⟨mediaKey crates a, audioSequence, nonce⟩ frame sent).effects.filterMap
        Effect.datagram? →
      ∃ packet, Packet.decode bytes = .ok packet ∧ decodePcm crates packet (mediaKey crates b) = none) ∧
    (secretPair crates a = secretPair crates b → mediaKey crates a = mediaKey crates b) := by
  constructor
  · intro hpair frame sequence audioSequence nonce sent bytes hbytes
    have hsends := sendPcm_sends crates a sequence ⟨mediaKey crates a, audioSequence, nonce⟩ frame sent
    generalize sendPcm crates a sequence ⟨mediaKey crates a, audioSequence, nonce⟩ frame sent = turn at hsends hbytes
    cases hsends with
    | plain _ hmode =>
      rw [ha] at hmode
      cases hmode
    | @«sealed» key payload tag _ _ hkey hcall =>
      obtain ⟨bytes', hencode, packet, hdecode, hnone⟩ := decodePcm_of_other_key (mediaKey crates b) ha hcall
        fun key' hkey' => ⟨mediaKey_ne hhkdf hsha hpair hkey hkey', haead key key' hkey hkey'⟩
      have hmem : bytes ∈ (Packet.secured (pcmHeader a sequence)
          (pcmSecurity ⟨mediaKey crates a, audioSequence, nonce⟩) payload tag).encode.toOption.toList := by
        rw [← sendPacket_datagrams .pcm _ sent]
        exact hbytes
      rw [hencode] at hmem
      rw [List.mem_singleton.mp hmem]
      exact ⟨packet, hdecode, hnone⟩
    | wrongLength | shortCiphertext | encryptionFailed | noKey => cases hbytes
  · intro hpair
    obtain ⟨hpassword, hchannel⟩ := Prod.mk.inj hpair
    exact mediaKey_congr (ha.trans hb.symm) hchannel hpassword

/-- The stand-in refuses a tag that names another key. -/
theorem tagCrates_refusesOther {key key' : ByteArr 32} (htag : keyTag key ≠ keyTag key') :
    RefusesOther tagCrates key key' := by
  intro _ nonce msg aad c hc
  obtain rfl : msg ++ keyTag key = c := Option.some.inj hc
  have hlen : (keyTag key).length = 16 := by simp [keyTag, key.property]
  apply if_neg
  rintro ⟨-, hdrop⟩
  rw [List.length_append, hlen, Nat.add_sub_cancel, List.drop_left] at hdrop
  exact htag hdrop

/-- Two members whose passwords differ: the one frame sent is one packet, and it is not heard. -/
theorem channel_password_isolation_members :
    ∃ bytes packet, (sendPcm tagCrates (member 1002 "a") 0 ⟨mediaKey tagCrates (member 1002 "a"), 0, 0⟩
        (List.replicate 320 0x5a) (.ok ())).effects.filterMap Effect.datagram? = [bytes] ∧
      Packet.decode bytes = .ok packet ∧ decodePcm tagCrates packet (mediaKey tagCrates (member 7 "b")) = none := by
  have hone : ((sendPcm tagCrates (member 1002 "a") 0 ⟨mediaKey tagCrates (member 1002 "a"), 0, 0⟩
      (List.replicate 320 0x5a) (.ok ())).effects.filterMap Effect.datagram?).length = 1 := by decide +kernel
  obtain ⟨bytes, hbytes⟩ := List.length_eq_one_iff.mp hone
  have hsha : NoCollision tagCrates (keyInput tagCrates (member 1002 "a")) (keyInput tagCrates (member 7 "b")) := by
    intro hdigest
    exact absurd hdigest (by decide +kernel)
  have haead : ∀ key key', mediaKey tagCrates (member 1002 "a") = some key →
      mediaKey tagCrates (member 7 "b") = some key' → RefusesOther tagCrates key key' := by
    intro key key' hkey hkey'
    apply tagCrates_refusesOther
    have htags : (mediaKey tagCrates (member 1002 "a")).map keyTag ≠
        (mediaKey tagCrates (member 7 "b")).map keyTag := by
      decide +kernel
    rw [hkey, hkey'] at htags
    exact fun htag => htags (congrArg some htag)
  have hhkdf : HkdfInjective tagCrates := by
    intro ikm ikm' info okm h h'
    exact Option.some.inj (h.trans h'.symm)
  obtain ⟨packet, hdecode, hnone⟩ := (channel_password_isolation (a := member 1002 "a") (b := member 7 "b") rfl rfl
    hhkdf hsha haead).1 (by decide +kernel) (List.replicate 320 0x5a) 0 0 0 (.ok ()) bytes
    (by rw [hbytes]; exact List.mem_singleton_self bytes)
  exact ⟨bytes, packet, hbytes, hdecode, hnone⟩

end IncomUdon.Transport
