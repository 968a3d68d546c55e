/-
# IncomUdon.Crypto — password normalization, key derivation and the AES-GCM helpers.

A translation of the `incomudon-crypto` crate. What it calls in the `sha2`, `hkdf` and `aes-gcm` crates is
not part of the repository: `CryptoCrates` carries those four functions as a parameter, and what a result
assumes of them is a named hypothesis (`AeadLaws`, `HkdfExpands`), each one documented behaviour of the crate.
`Aes256Gcm::new_from_slice` refuses only keys that are not 32 bytes long, which `ByteArr 32` rules out.

`tagCrates` is a stand-in that satisfies the laws, for evaluating statements on concrete inputs.
-/
import IncomUdon.Lib.Text

namespace IncomUdon.Crypto

open IncomUdon.Lib

/-! ## The crates -/

/-- The functions of the `sha2`, `hkdf` and `aes-gcm` crates the code calls. -/
structure CryptoCrates where
  /-- `Sha256::digest`. -/
  sha256 : Bytes → ByteArr 32
  /-- `Hkdf::<Sha256>::new(None, ikm).expand(info, &mut [0; 32])`. -/
  hkdfExpand : ByteArr 32 → Bytes → Option (ByteArr 32)
  /-- `Aes256Gcm::encrypt` under a key, with a nonce, a message and associated data. -/
  aesGcmEncrypt : ByteArr 32 → ByteArr 12 → Bytes → Bytes → Option Bytes
  /-- `Aes256Gcm::decrypt` under a key, with a nonce, a ciphertext with its tag, and associated data. -/
  aesGcmDecrypt : ByteArr 32 → ByteArr 12 → Bytes → Bytes → Option Bytes

/-- The longest message and associated data `aes-gcm` takes. -/
def gcmMax : Nat := 2 ^ 36

/-- **What `aes-gcm` documents**: within its length limits encryption succeeds, appends a 16-byte tag, and
decryption with the same key, nonce and associated data returns the message. -/
def AeadLaws (crates : CryptoCrates) : Prop :=
  ∀ key nonce msg aad, msg.length ≤ gcmMax → aad.length ≤ gcmMax →
    ∃ c, crates.aesGcmEncrypt key nonce msg aad = some c ∧ c.length = msg.length + 16 ∧
      crates.aesGcmDecrypt key nonce c aad = some msg

/-- **What `hkdf` documents**: an output of 32 bytes is far below the limit, so expansion succeeds. -/
def HkdfExpands (crates : CryptoCrates) : Prop :=
  ∀ ikm info, ∃ okm, crates.hkdfExpand ikm info = some okm

/-! ## The crate's own functions -/

/-- `AES_GCM_V2_KEY_ID`. -/
def aesGcmV2KeyId : UInt32 := 2

/-- `b"incomudon-session-aesgcm-v2"`. -/
def v2Info : Bytes := asBytes "incomudon-session-aesgcm-v2".toList

/-- What the helpers report of a crate that refused. -/
inductive CryptoError where
  | aead
  | hkdf
  deriving DecidableEq, Repr

/-- The value of one hexadecimal digit, of either case. -/
def hexNibble (value : UInt8) : Option UInt8 :=
  if 0x30 ≤ value ∧ value ≤ 0x39 then some (value - 0x30)
  else if 0x61 ≤ value ∧ value ≤ 0x66 then some (value - 0x61 + 10)
  else if 0x41 ≤ value ∧ value ≤ 0x46 then some (value - 0x41 + 10)
  else none

/-- The loop of `decode_hex_32`: the buffer keeps the bytes written before a digit fails. -/
def decodeHexPairs : List (UInt8 × UInt8) → Nat → ByteArr 32 → Bool × ByteArr 32
  | [], _, output => (true, output)
  | pair :: pairs, index, output =>
      match hexNibble pair.1 with
      | none => (false, output)
      | some high =>
        match hexNibble pair.2 with
        | none => (false, output)
        | some low => decodeHexPairs pairs (index + 1) (output.set index ((high <<< 4) ||| low))

/-- `decode_hex_32`: 64 digits and nothing else, or the buffer with what was written so far. -/
def decodeHex32 (value : Str) (output : ByteArr 32) : Bool × ByteArr 32 :=
  let chunks := asChunks2 (asBytes value)
  if chunks.2 ≠ [] ∨ chunks.1.length ≠ output.val.length then (false, output)
  else decodeHexPairs chunks.1 0 output

section

variable (crates : CryptoCrates)

/-- `normalize_password`: zeros for a blank password, the bytes of a literal key with or without `sha256:`, and for any
other the digest of the text as it was given, whitespace included. -/
def normalizePassword (password : Str) : ByteArr 32 :=
  let trimmed := trim password
  if trimmed.isEmpty then ByteArr.replicate 32 0
  else
    let hexValue := (stripPrefix "sha256:".toList trimmed).getD trimmed
    if (asBytes hexValue).length = 64 then
      match decodeHex32 hexValue (ByteArr.replicate 32 0) with
      | (true, decoded) => decoded
      | (false, _) => crates.sha256 (asBytes password)
    else crates.sha256 (asBytes password)

/-- `derive_password_key`: the digest of the normalized password and the channel. -/
def derivePasswordKey (normalizedPassword : ByteArr 32) (channelId : UInt32) : ByteArr 32 :=
  crates.sha256 (normalizedPassword.val ++ be32 channelId)

/-- `derive_aes_gcm_v2_key`: HKDF with the password key as input and `v2Info` as info. -/
def deriveAesGcmV2Key (passwordKey : ByteArr 32) : Except CryptoError (ByteArr 32) :=
  match crates.hkdfExpand passwordKey v2Info with
  | some key => .ok key
  | none => .error .hkdf

/-- The 64-bit counter behind four zero bytes. -/
def packetNonce (nonce : UInt64) : ByteArr 12 := ⟨[0, 0, 0, 0] ++ be64 nonce, by simp⟩

/-- `encrypt_aes_gcm_v2`: the ciphertext with its tag behind it. -/
def encryptAesGcmV2 (key : ByteArr 32) (nonceCounter : UInt64) (plaintext aad : Bytes) :
    Except CryptoError Bytes :=
  match crates.aesGcmEncrypt key (packetNonce nonceCounter) plaintext aad with
  | some ciphertext => .ok ciphertext
  | none => .error .aead

/-- `decrypt_aes_gcm_v2`. -/
def decryptAesGcmV2 (key : ByteArr 32) (nonceCounter : UInt64) (ciphertextAndTag aad : Bytes) :
    Except CryptoError Bytes :=
  match crates.aesGcmDecrypt key (packetNonce nonceCounter) ciphertextAndTag aad with
  | some plaintext => .ok plaintext
  | none => .error .aead

end

/-! ## What the helpers keep of the crates' laws -/

/-- **The nonce expansion is injective.** -/
theorem packetNonce_injective {m n : UInt64} (h : packetNonce m = packetNonce n) : m = n := by
  have hval : ([0, 0, 0, 0] : Bytes) ++ be64 m = [0, 0, 0, 0] ++ be64 n := congrArg Subtype.val h
  exact be64_injective (List.append_cancel_left hval)

theorem encryptAesGcmV2_of_some {crates : CryptoCrates} {key : ByteArr 32} {nonce : UInt64}
    {msg aad c : Bytes} (h : crates.aesGcmEncrypt key (packetNonce nonce) msg aad = some c) :
    encryptAesGcmV2 crates key nonce msg aad = .ok c := by
  rw [encryptAesGcmV2, h]

/-- Encrypting within the limits succeeds, with a result 16 bytes longer that decrypts back. -/
theorem encryptAesGcmV2_spec {crates : CryptoCrates} (haead : AeadLaws crates) (key : ByteArr 32)
    (nonce : UInt64) (msg aad : Bytes) (hmsg : msg.length ≤ gcmMax) (haad : aad.length ≤ gcmMax) :
    ∃ c, encryptAesGcmV2 crates key nonce msg aad = .ok c ∧ c.length = msg.length + 16 ∧
      decryptAesGcmV2 crates key nonce c aad = .ok msg := by
  obtain ⟨c, henc, hlen, hdec⟩ := haead key (packetNonce nonce) msg aad hmsg haad
  refine ⟨c, encryptAesGcmV2_of_some henc, hlen, ?_⟩
  rw [decryptAesGcmV2, hdec]

theorem deriveAesGcmV2Key_ok {crates : CryptoCrates} (hhkdf : HkdfExpands crates)
    (passwordKey : ByteArr 32) : ∃ key, deriveAesGcmV2Key crates passwordKey = .ok key := by
  obtain ⟨okm, h⟩ := hhkdf passwordKey v2Info
  exact ⟨okm, by rw [deriveAesGcmV2Key, h]⟩

/-! ## A stand-in for the crates -/

/-- Sixteen bytes that name a key: the tag of the stand-in. -/
def keyTag (key : ByteArr 32) : Bytes := key.val.take 16

/-- The documented behaviour in the small: a ciphertext is the message with a tag naming the key, decryption
refuses another tag, and digests pad or cut to 32 bytes. -/
def tagCrates : CryptoCrates where
  sha256 := fun b => ⟨(b ++ List.replicate 32 0).take 32, by simp⟩
  hkdfExpand := fun ikm _ => some ikm
  aesGcmEncrypt := fun key _ msg _ => some (msg ++ keyTag key)
  aesGcmDecrypt := fun key _ c _ =>
    if 16 ≤ c.length ∧ c.drop (c.length - 16) = keyTag key then some (c.take (c.length - 16)) else none

theorem tagCrates_aead : AeadLaws tagCrates := by
  intro key nonce msg aad _ _
  have htag : (keyTag key).length = 16 := by simp [keyTag, key.property]
  refine ⟨msg ++ keyTag key, rfl, by rw [List.length_append, htag], ?_⟩
  have hlen : (msg ++ keyTag key).length - 16 = msg.length := by
    rw [List.length_append, htag, Nat.add_sub_cancel]
  have hroom : 16 ≤ (msg ++ keyTag key).length := by
    rw [List.length_append, htag]
    omega
  show (if 16 ≤ (msg ++ keyTag key).length ∧ _ then _ else _) = _
  rw [hlen, List.drop_left, List.take_left, if_pos ⟨hroom, rfl⟩]

theorem tagCrates_hkdf : HkdfExpands tagCrates := fun ikm _ => ⟨ikm, rfl⟩

end IncomUdon.Crypto
