/-
# IncomUdon.Transport.Nonce — no two encryptions share a nonce.

The media nonce starts at a random value and advances by one, modulo `2^64`, with every call of the cipher. In
any run the nonces used are therefore an arc of the circle of `2^64` counters, one point a call, in order
(`CallsSoFar`); `IncomUdon.Lib.Circular` then says when one arc repeats no point and when two arcs share none.
The expansion to 96 bits is injective, so the same holds of what the cipher gets.
-/
import IncomUdon.Lib.Circular
import IncomUdon.Transport.Worker

namespace IncomUdon.Transport

open IncomUdon.Lib
open IncomUdon.Protocol
open IncomUdon.Crypto

/-! ## §1 — what one step encrypts -/

section Step

variable {crates : CryptoCrates} {config : RelayConfig} {s s' : Session} {label : Label}
  {effects : List Effect}

/-- The step calls the cipher once, for the 320-byte frame it processes, under the key of the media state. -/
def Encrypts (config : RelayConfig) (s : Session) (call : EncryptCall) : Prop :=
  ∃ frame, Processes s (.sendPcm frame) ∧ frame.length = 320 ∧ s.media.key = some call.key ∧
    call = pcmCall config s.sequence s.media call.key frame

/-- **A step calls the cipher at most once**, for a frame it processes, and advances the nonce with it. -/
theorem step_calls (hstep : step crates config s label = some (s', effects)) :
    (effects.filterMap Effect.call? = [] ∧ s'.media.nonce = s.media.nonce) ∨
    ∃ call, Encrypts config s call ∧ effects.filterMap Effect.call? = [call] ∧
      s'.media.nonce = s.media.nonce + 1 := by
  have hdoes := step_does hstep
  generalize s'.sequence = sequence, s'.media = media at hdoes
  cases hdoes with
  | calls hquiet | quiet hquiet => exact Or.inl ⟨(Effect.quiet_views hquiet).2.1, rfl⟩
  | receives => exact Or.inl ⟨(Effect.silent_views (receive_silent _ _ _ _)).2.1, rfl⟩
  | forwards => exact Or.inl ⟨sendPacket_calls .client _ _, rfl⟩
  | controls htaken =>
    refine Or.inl ⟨?_, rfl⟩
    rcases htaken with rfl | rfl <;> exact sendPacket_calls .control _ _
  | @talks env frame turn hproc hturn =>
    cases hturn with
    | wrongLength => exact Or.inl ⟨rfl, rfl⟩
    | plain => exact Or.inl ⟨sendPacket_calls .pcm _ _, rfl⟩
    | @«sealed» key payload tag hlen _ hkey =>
      refine Or.inr ⟨pcmCall config s.sequence s.media key frame, ⟨frame, hproc, hlen, hkey, rfl⟩, ?_, rfl⟩
      exact congrArg (List.cons _) (sendPacket_calls .pcm _ _)
    | @shortCiphertext key _ hlen _ hkey =>
      exact Or.inr ⟨pcmCall config s.sequence s.media key frame, ⟨frame, hproc, hlen, hkey, rfl⟩, rfl, rfl⟩
    | @encryptionFailed key _ hlen _ hkey =>
      exact Or.inr ⟨pcmCall config s.sequence s.media key frame, ⟨frame, hproc, hlen, hkey, rfl⟩, rfl, rfl⟩
    | noKey => exact Or.inl ⟨rfl, rfl⟩

end Step

/-! ## §2 — what a run encrypts -/

/-- The calls of the cipher among the effects. -/
def calls (effects : List Effect) : List EncryptCall := effects.filterMap Effect.call?

/-- So far the nonces used are the arc from the initial one, and the next one is where the arc ends; every call
was under the session's media key. -/
def CallsSoFar (crates : CryptoCrates) (config : RelayConfig) (random : UInt64) (s : Session)
    (_ : List Label) (effects : List Effect) : Prop :=
  s.media.key = mediaKey crates config ∧
  s.media.nonce.toNat = (random.toNat + (calls effects).length) % 2 ^ 64 ∧
  (calls effects).map (fun call => call.nonce.toNat) = arc (2 ^ 64) random.toNat (calls effects).length ∧
  ∀ call ∈ calls effects, mediaKey crates config = some call.key

theorem calls_append (a b : List Effect) : calls (a ++ b) = calls a ++ calls b := List.filterMap_append

theorem CallsSoFar.step {crates : CryptoCrates} {config : RelayConfig} {random : UInt64}
    {s s' : Session} {labels : List Label} {seen effects : List Effect} {label : Label}
    (h : CallsSoFar crates config random s labels seen)
    (hstep : step crates config s label = some (s', effects)) :
    CallsSoFar crates config random s' (labels ++ [label]) (seen ++ effects) := by
  obtain ⟨hkey, hnonce, hseen, hkeys⟩ := h
  have hkey' : s'.media.key = mediaKey crates config := (step_does hstep).media_key.trans hkey
  rcases step_calls hstep with ⟨hnone, hkept⟩ | ⟨call, ⟨frame, -, -, hk, hcall⟩, hone, hnext⟩
  · -- no call: the arc stays as it is
    have hcalls : calls (seen ++ effects) = calls seen := by
      rw [calls_append, calls, calls, hnone, List.append_nil]
    refine ⟨hkey', ?_, ?_, ?_⟩
    · rw [hkept, hcalls]
      exact hnonce
    · rw [hcalls]
      exact hseen
    · rw [hcalls]
      exact hkeys
  · -- one call: it takes the next point
    have hcalls : calls (seen ++ effects) = calls seen ++ [call] := by
      rw [calls_append, calls, calls, hone]
    have hat : call.nonce.toNat = (random.toNat + (calls seen).length) % 2 ^ 64 := by
      rw [hcall]
      exact hnonce
    refine ⟨hkey', ?_, ?_, ?_⟩
    · rw [hnext, hcalls, List.length_append, List.length_singleton, UInt64.toNat_add, hnonce,
        ← Nat.add_assoc]
      show (_ % 2 ^ 64 + 1) % 2 ^ 64 = _
      rw [Nat.mod_add_mod]
    · rw [hcalls, List.map_append, hseen, List.length_append, List.length_singleton, arc_succ, List.map_singleton,
        hat]
    · rw [hcalls]
      intro c hc
      rcases List.mem_append.mp hc with hold | hnew
      · exact hkeys c hold
      · rw [List.mem_singleton.mp hnew, ← hkey, hk]

theorem run_calls {crates : CryptoCrates} {config : RelayConfig} {localAddr : SocketAddr} {random : UInt64}
    {labels : List Label} {s : Session} {effects : List Effect}
    (hrun : run (step crates config) (Session.start crates config localAddr random) labels =
      some (s, effects)) : CallsSoFar crates config random s labels effects := by
  have hrandom : random.toNat < 2 ^ 64 := random.toNat_lt
  refine run_history (R := CallsSoFar crates config random) ?_ ⟨rfl, ?_, rfl, ?_⟩ hrun
  · intro s is os i s' os' h hstep
    exact h.step hstep
  · exact (Nat.mod_eq_of_lt hrandom).symm
  · intro call hcall
    cases hcall

/-! ## §3 — nonce discipline -/

/-- The 96-bit nonces of the calls, as the cipher gets them. -/
def usedNonces (effects : List Effect) : List (ByteArr 12) :=
  (calls effects).map fun call => packetNonce call.nonce

/-- A counter, expanded. -/
def expand (n : Nat) : ByteArr 12 := packetNonce (UInt64.ofNat n)

theorem expand_injOn {m n : Nat} (hm : m < 2 ^ 64) (hn : n < 2 ^ 64) (h : expand m = expand n) : m = n := by
  have hword := packetNonce_injective h
  have htoNat := congrArg UInt64.toNat hword
  rwa [UInt64.toNat_ofNat_of_lt' hm, UInt64.toNat_ofNat_of_lt' hn] at htoNat

theorem CallsSoFar.usedNonces {crates : CryptoCrates} {config : RelayConfig} {random : UInt64} {s : Session}
    {labels : List Label} {effects : List Effect} (h : CallsSoFar crates config random s labels effects) :
    usedNonces effects = (arc (2 ^ 64) random.toNat (calls effects).length).map expand := by
  obtain ⟨-, -, hnonces, -⟩ := h
  rw [← hnonces, List.map_map]
  apply List.map_congr_left
  intro call _
  show packetNonce call.nonce = packetNonce (UInt64.ofNat call.nonce.toNat)
  rw [UInt64.ofNat_toNat]

theorem arc_lt {m s n x : Nat} (hm : 0 < m) (hx : x ∈ arc m s n) : x < m := by
  obtain ⟨i, -, rfl⟩ := List.mem_map.mp hx
  exact Nat.mod_lt _ hm

/-- The expansion of two arcs is disjoint exactly when the arcs are. -/
theorem expand_disjoint_iff (s t a b : Nat) :
    ((arc (2 ^ 64) s a).map expand).Disjoint ((arc (2 ^ 64) t b).map expand) ↔
      (arc (2 ^ 64) s a).Disjoint (arc (2 ^ 64) t b) := by
  constructor
  · intro h x hxa hxb
    exact h (List.mem_map_of_mem hxa) (List.mem_map_of_mem hxb)
  · intro h y hya hyb
    obtain ⟨x, hx, rfl⟩ := List.mem_map.mp hya
    obtain ⟨z, hz, hzx⟩ := List.mem_map.mp hyb
    have hxz := expand_injOn (arc_lt (by decide) hz) (arc_lt (by decide) hx) hzx
    exact h hx (hxz ▸ hz)

/-- The distance between two counters, as `wrapping_sub` computes it. -/
theorem offset_toNat (m n : UInt64) : offset (2 ^ 64) m.toNat n.toNat = (n - m).toNat := by
  have hm := m.toNat_lt
  have hn := n.toNat_lt
  rw [UInt64.toNat_sub, offset]
  split <;> omega

/-- **GCM nonce discipline.** In any two runs that make `a` and `b` calls of the cipher, between 1 and `2^64`
each: no nonce is used twice within a run, and the two runs share none exactly when the second start is at least
`a` counters after the first and the first at least `b` after the second. Every call is made by a step that
processes a 320-byte frame, at most one a step, under the session's media key. -/
theorem nonce_discipline {crates : CryptoCrates} {config₁ config₂ : RelayConfig}
    {addr₁ addr₂ : SocketAddr} {n₁ n₂ : UInt64} {labels₁ labels₂ : List Label} {s₁ s₂ : Session}
    {effects₁ effects₂ : List Effect}
    (hrun₁ : run (step crates config₁) (Session.start crates config₁ addr₁ n₁) labels₁ = some (s₁, effects₁))
    (hrun₂ : run (step crates config₂) (Session.start crates config₂ addr₂ n₂) labels₂ = some (s₂, effects₂))
    (ha : 1 ≤ (calls effects₁).length) (ha' : (calls effects₁).length ≤ 2 ^ 64)
    (hb : 1 ≤ (calls effects₂).length) (hb' : (calls effects₂).length ≤ 2 ^ 64) :
    (usedNonces effects₁).Nodup ∧ (usedNonces effects₂).Nodup ∧
    ((usedNonces effects₁).Disjoint (usedNonces effects₂) ↔
      (calls effects₁).length ≤ (n₂ - n₁).toNat ∧ (calls effects₂).length ≤ (n₁ - n₂).toNat) ∧
    (∀ call ∈ calls effects₁, mediaKey crates config₁ = some call.key) ∧
    Along (step crates config₁) (fun s label => ∀ s' effects, step crates config₁ s label = some (s', effects) →
      calls effects = [] ∨ ∃ call, calls effects = [call] ∧ Encrypts config₁ s call)
      (Session.start crates config₁ addr₁ n₁) labels₁ := by
  have h₁ := run_calls hrun₁
  have h₂ := run_calls hrun₂
  have hnodup : ∀ (n : UInt64) (k : Nat), k ≤ 2 ^ 64 → ((arc (2 ^ 64) n.toNat k).map expand).Nodup := by
    intro n k hk
    apply List.Nodup.map_on _ (arc_nodup n.toNat_lt hk)
    intro x hx y hy hxy
    exact expand_injOn (arc_lt (by decide) hx) (arc_lt (by decide) hy) hxy
  -- what was used is the expansion of an arc
  rw [h₁.usedNonces, h₂.usedNonces]
  refine ⟨hnodup n₁ _ ha', hnodup n₂ _ hb', ?_, h₁.2.2.2, ?_⟩
  · rw [expand_disjoint_iff, arc_disjoint_iff n₁.toNat_lt n₂.toNat_lt ha ha' hb hb', offset_toNat, offset_toNat]
  · apply along_of_forall
    intro label _ s s' effects hstep
    rcases step_calls hstep with ⟨hnone, -⟩ | ⟨call, hcall, hone, -⟩
    · exact Or.inl hnone
    · exact Or.inr ⟨call, hone, hcall⟩

/-- One silent frame, sent by a station whose nonce starts at `random`. -/
def oneFrame (random : UInt64) : Option (Session × List Effect) :=
  run (step tagCrates (station .aesGcmV2)) (Session.start tagCrates (station .aesGcmV2) stationAddr random)
    [.client (.sendPcmFrame (List.replicate 320 0)), tick, tick, tick, tick]

/-- Two stations one nonce apart, one frame each. -/
theorem nonce_discipline_oneFrame :
    ∃ s₁ s₂ effects₁ effects₂, oneFrame 0 = some (s₁, effects₁) ∧ oneFrame 1 = some (s₂, effects₂) ∧
      (usedNonces effects₁).Nodup ∧ (usedNonces effects₁).Disjoint (usedNonces effects₂) := by
  have hcount₁ : (oneFrame 0).map (fun r => (calls r.2).length) = some 1 := by decide +kernel
  have hcount₂ : (oneFrame 1).map (fun r => (calls r.2).length) = some 1 := by decide +kernel
  obtain ⟨⟨s₁, effects₁⟩, hrun₁, hlen₁⟩ := Option.map_eq_some_iff.mp hcount₁
  obtain ⟨⟨s₂, effects₂⟩, hrun₂, hlen₂⟩ := Option.map_eq_some_iff.mp hcount₂
  have hlen₁ : (calls effects₁).length = 1 := hlen₁
  have hlen₂ : (calls effects₂).length = 1 := hlen₂
  obtain ⟨hnodup, -, hdisjoint, -⟩ := nonce_discipline hrun₁ hrun₂ (by rw [hlen₁])
    (by rw [hlen₁]; decide) (by rw [hlen₂]) (by rw [hlen₂]; decide)
  refine ⟨s₁, s₂, effects₁, effects₂, hrun₁, hrun₂, hnodup, hdisjoint.mpr ?_⟩
  rw [hlen₁, hlen₂]
  decide

end IncomUdon.Transport
