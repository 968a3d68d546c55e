/-
# IncomUdon.Network.Overhearing — what a listener needs to read a session of the application.

The transport derives its key from a password and the channel; the application opens its sessions with
`RelayConfig::new`, which leaves the password empty. §1 is that fact over every run, and the key it leaves: a function
of the channel number. §2 is what someone with that number makes of the datagrams that a session sends.
-/
import IncomUdon.Desktop.Identity
import IncomUdon.Network.Authentic

namespace IncomUdon.Network

open IncomUdon.Lib
open IncomUdon.Protocol
open IncomUdon.Crypto
open IncomUdon.Transport
open IncomUdon.Desktop

/-! ## §1 — the key of a channel -/

/-- The key of a channel without a password. -/
def channelKey (crates : CryptoCrates) (channelId : UInt32) : Option (ByteArr 32) :=
  (deriveAesGcmV2Key crates (derivePasswordKey crates (ByteArr.replicate 32 0) channelId)).toOption

/-- The key of a session without a password, in its three modes. -/
theorem mediaKey_of_passwordless (crates : CryptoCrates) {config : RelayConfig} (hnone : config.password = []) :
    mediaKey crates config =
      if config.encryption = .aesGcmV2 then channelKey crates config.channelId else none := by
  have hblank : normalizePassword crates config.password = ByteArr.replicate 32 0 := by rw [hnone]; rfl
  rw [mediaKey, hblank, channelKey]
  split <;> simp_all

section Runs

variable {crates : CryptoCrates} {loaded : Core.ProfileStore × String} {audio : Bool} {inputs : List Input}
  {app : App} {effects : List AppEffect}

/-- **No session of the application has a password.** -/
theorem run_passwordless (hrun : run (appStep crates) (App.start loaded audio) inputs = some (app, effects)) :
    ∀ config ∈ app.links.map Link.config, config.password = [] := by
  intro config hmem
  obtain ⟨profile, -, -, -, -, -, -, -, -, -, -, -, -, -, hconfig⟩ := run_opened hrun config hmem
  rw [hconfig]
  rfl

/-! ## §2 — what the datagrams of a session give away -/

/-- The whole frames among those a session took, in its name. -/
def wholeFrames (config : RelayConfig) (effects : List Effect) : List (UInt32 × Bytes) :=
  ((takenFrames effects).filter fun frame => frame.length = 320).map fun frame => (config.senderId, frame)

/-- Where `send_pcm` needs no key or has one, it can send every whole frame. -/
theorem voiced_whole {config : RelayConfig}
    (hable : config.encryption = .none ∨ (mediaKey crates config).isSome = true) (effects : List Effect) :
    voiced crates config effects = wholeFrames config effects := by
  have hsame : sendable crates config = fun frame => decide (frame.length = 320) := by
    funext frame
    simp [sendable, hable]
  rw [voiced, wholeFrames, hsame]

/-- Otherwise none. -/
theorem voiced_none {config : RelayConfig} (hmode : config.encryption ≠ .none) (hkey : mediaKey crates config = none)
    (effects : List Effect) : voiced crates config effects = [] := by
  simp [voiced, sendable, hmode, hkey]

/-- **The channel number opens a session.** Take any session of any run of the application. In AES-GCM v2 mode its key
is that of its channel number, whatever the store and the user, and to whoever derives that key its datagrams spell
every whole frame its worker took, in order, in its name, and nothing else. Without encryption they spell the same to
anyone, whatever the key. In AES-GCM v1 mode, which derives no key, they spell no frame to anyone. -/
theorem channel_number_opens (haead : AeadLaws crates) (hhkdf : HkdfExpands crates)
    (hrun : run (appStep crates) (App.start loaded audio) inputs = some (app, effects)) {i : Nat} {link : Link}
    (hlink : app.links[i]? = some link) :
    (link.config.encryption = .aesGcmV2 →
      mediaKey crates link.config = channelKey crates link.config.channelId ∧
      spelled crates (channelKey crates link.config.channelId) (relayed i effects) =
        wholeFrames link.config (relayed i effects)) ∧
    (link.config.encryption = .none → ∀ key,
      spelled crates key (relayed i effects) = wholeFrames link.config (relayed i effects)) ∧
    (link.config.encryption = .aesGcmV1 → ∀ key, spelled crates key (relayed i effects) = []) := by
  have hpassword : link.config.password = [] :=
    run_passwordless hrun _ (List.mem_map.mpr ⟨link, List.mem_of_getElem? hlink, rfl⟩)
  have hkey := mediaKey_of_passwordless crates hpassword
  obtain ⟨localAddr, random, labels, hsession, -⟩ := app_run_session hrun hlink
  have hspells : ∀ key, Reads crates link.config key →
      spelled crates key (relayed i effects) = voiced crates link.config (relayed i effects) :=
    fun key hreads => run_spells haead hreads hsession (taken_modest hrun hlink)
  refine ⟨fun hmode => ?_, fun hmode key => ?_, fun hmode key => ?_⟩
  · rw [if_pos hmode] at hkey
    obtain ⟨key, hsome⟩ := mediaKey_isSome hhkdf hmode
    refine ⟨hkey, ?_⟩
    rw [hspells _ fun _ => hkey.symm]
    exact voiced_whole (Or.inr (hsome ▸ rfl)) _
  · rw [hspells key fun hv2 => absurd (hmode.symm.trans hv2) (by decide)]
    exact voiced_whole (Or.inl hmode) _
  · rw [if_neg (by rw [hmode]; decide)] at hkey
    rw [hspells key fun hv2 => absurd (hmode.symm.trans hv2) (by decide)]
    exact voiced_none (by rw [hmode]; decide) hkey _

/-- What the caller's session is opened with. -/
def callerConfig : RelayConfig := RelayConfig.new (.v4 (ByteArr.replicate 4 127) 50000) 0 7 .aesGcmV2

/-- Someone who knows the number 0 of the caller's channel reads what the caller says. -/
theorem channel_number_opens_caller : ∃ app effects link,
    run (appStep tagCrates) (App.start (callerStore, "Profile restored") true) callInputs = some (app, effects) ∧
    app.links[0]? = some link ∧
    spelled tagCrates (channelKey tagCrates 0) (relayed 0 effects) = [(7, List.replicate 320 1)] := by
  have hview : (run (appStep tagCrates) (App.start (callerStore, "Profile restored") true) callInputs).map
      (fun r => (r.1.links[0]?.map Link.config, wholeFrames callerConfig (relayed 0 r.2))) =
        some (some callerConfig, [(7, List.replicate 320 1)]) := by
    decide +kernel
  obtain ⟨⟨app, effects⟩, hrun, hviews⟩ := Option.map_eq_some_iff.mp hview
  obtain ⟨hconfig, hwhole⟩ := Prod.mk.inj hviews
  obtain ⟨link, hlink, hnew⟩ := Option.map_eq_some_iff.mp hconfig
  have hreads := ((channel_number_opens tagCrates_aead tagCrates_hkdf hrun hlink).1 (hnew ▸ rfl)).2
  rw [hnew] at hreads
  exact ⟨app, effects, link, hrun, hlink, hreads.trans hwhole⟩

end Runs

end IncomUdon.Network
