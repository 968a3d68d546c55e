/-
# IncomUdon.Desktop.Identity — a session keeps the settings it was opened with.

`on_connect_relay` copies channel, sender and encryption out of the active profile and the address out of the form;
the store and the form may be changed at any time behind it. §1 says which of the resolved addresses is taken, §2 what
a session writes into the headers of its packets, and §3 traces both over whole runs back to the moment at which the
session was opened.
-/
import Mathlib.Data.List.Find
import IncomUdon.Desktop.HotMic

namespace IncomUdon.Desktop

open IncomUdon.Lib
open IncomUdon.Core
open IncomUdon.Protocol
open IncomUdon.Crypto
open IncomUdon.Transport

/-! ## §1 — the address -/

/-- `force_ipv4` leaves the address in. -/
def usable (forceIpv4 : Bool) (address : SocketAddr) : Bool := !forceIpv4 || address.isIpv4

/-- `address` is the first usable IPv6 address, or the first usable one where there is none. -/
def Preferred (forceIpv4 : Bool) (addresses : List SocketAddr) (address : SocketAddr) : Prop :=
  (addresses.find? fun a => usable forceIpv4 a && a.isIpv6) = some address ∨
    (∀ a ∈ addresses, usable forceIpv4 a = true → a.isIpv4 = true) ∧
      addresses.find? (usable forceIpv4) = some address

/-- Filtering and sorting take the first address that one of two searches finds. -/
theorem resolveRelay_ok (relay : RelayEndpoint) (addresses : List SocketAddr) :
    resolveRelay relay (.ok addresses) =
      ((addresses.find? fun a => usable relay.forceIpv4 a && a.isIpv6).or
        (addresses.find? fun a => usable relay.forceIpv4 a && !a.isIpv6)).elim
          (.error "no usable IPv4/IPv6 address was resolved") .ok := by
  change Option.elim (List.head? _) (Except.error _) Except.ok = _
  rw [List.head?_append, List.head?_filter, List.head?_filter, List.find?_filter, List.find?_filter]
  simp only [Bool.decide_and, Bool.decide_eq_true, usable]

/-- **The address that is taken** is the preferred one. -/
theorem resolveRelay_preferred {relay : RelayEndpoint} {resolved : Except IoError (List SocketAddr)}
    {address : SocketAddr} (h : resolveRelay relay resolved = .ok address) :
    ∃ addresses, resolved = .ok addresses ∧ Preferred relay.forceIpv4 addresses address := by
  cases resolved with
  | error e => cases h
  | ok addresses =>
    refine ⟨addresses, rfl, ?_⟩
    rw [resolveRelay_ok] at h
    cases hfirst : addresses.find? fun a => usable relay.forceIpv4 a && a.isIpv6 with
    | some first =>
      rw [hfirst] at h
      obtain rfl : first = address := Except.ok.inj h
      exact Or.inl hfirst
    | none =>
      -- no usable address is IPv6, so the second search passes over none of them
      have hnone : ∀ a ∈ addresses, usable relay.forceIpv4 a = true → a.isIpv4 = true := by
        intro a ha husable
        have hrefused := List.find?_eq_none.mp hfirst a ha
        rw [husable, Bool.true_and, SocketAddr.isIpv6] at hrefused
        simpa using hrefused
      have hsame : (addresses.find? fun a => usable relay.forceIpv4 a && !a.isIpv6) =
          addresses.find? (usable relay.forceIpv4) := by
        apply List.find?_congr
        intro a ha
        cases husable : usable relay.forceIpv4 a with
        | false => rfl
        | true => simp [SocketAddr.isIpv6, hnone a ha husable]
      rw [hfirst, Option.none_or, hsame] at h
      refine Or.inr ⟨hnone, ?_⟩
      cases hsecond : addresses.find? (usable relay.forceIpv4) with
      | none =>
        rw [hsecond] at h
        cases h
      | some second =>
        rw [hsecond] at h
        exact congrArg some (Except.ok.inj h)

/-! ## §2 — what a session writes into its headers -/

/-- **`Bears config packet`** — the header names the channel and the sender of the configuration, and has the length of
its mode. -/
structure Bears (config : RelayConfig) (packet : Packet) : Prop where
  version : packet.header.version = protocolVersion
  channelId : packet.header.channelId = config.channelId
  senderId : packet.header.senderId = config.senderId
  headerLen : packet.header.headerLen = if config.encryption = .none then fixedHeaderLen else 28

section Packets

variable {crates : CryptoCrates} {config : RelayConfig} {s s' : Session} {effects : List Effect}

theorem bears_controlPacket (config : RelayConfig) (sequence : UInt16) (packetType : PacketType) (payload : Bytes) :
    Bears config (controlPacket config sequence packetType payload) := by
  unfold controlPacket
  split
  · exact ⟨rfl, rfl, rfl, rfl⟩
  · exact ⟨rfl, rfl, rfl, rfl⟩

/-- What a PCM turn hands over. -/
theorem sendPcm_bears {sequence : UInt16} {media : MediaState} {frame : Bytes} {sent : Except IoError Unit}
    {turn : Turn} (h : SendsPcm crates config sequence media frame sent turn) {origin : Origin} {packet : Packet}
    (hmem : (origin, packet) ∈ turn.effects.filterMap Effect.handed?) : Bears config packet := by
  cases h with
  | plain =>
    rw [sendPacket_handed] at hmem
    obtain ⟨rfl, rfl⟩ := Prod.mk.inj (List.mem_singleton.mp hmem)
    exact ⟨rfl, rfl, rfl, rfl⟩
  | «sealed» =>
    rw [List.filterMap_cons_none rfl, sendPacket_handed] at hmem
    obtain ⟨rfl, rfl⟩ := Prod.mk.inj (List.mem_singleton.mp hmem)
    exact ⟨rfl, rfl, rfl, rfl⟩
  | _ => cases hmem

/-- **A step hands over packets of its configuration**, or a packet of the client's own. -/
theorem does_bears {label : Label} {sequence : UInt16} {media : MediaState}
    (h : Does crates config s label sequence media effects) {origin : Origin} {packet : Packet}
    (hmem : (origin, packet) ∈ effects.filterMap Effect.handed?) :
    Bears config packet ∨ .send packet ∈ effects.filterMap Effect.took? := by
  cases h with
  | calls hquiet | quiet hquiet =>
    rw [(Effect.quiet_views hquiet).1] at hmem
    cases hmem
  | receives =>
    rw [(Effect.silent_views (receive_silent _ _ _ _)).1] at hmem
    cases hmem
  | forwards =>
    rw [List.filterMap_cons_none rfl, sendPacket_handed] at hmem
    obtain ⟨rfl, rfl⟩ := Prod.mk.inj (List.mem_singleton.mp hmem)
    exact Or.inr List.mem_cons_self
  | controls htaken =>
    refine Or.inl ?_
    rw [List.filterMap_append, sendPacket_handed] at hmem
    rcases htaken with rfl | rfl
    all_goals
      obtain ⟨rfl, rfl⟩ := Prod.mk.inj (List.mem_singleton.mp hmem)
      exact bears_controlPacket _ _ _ _
  | talks _ hturn => exact Or.inl (sendPcm_bears hturn hmem)

/-- **Every packet of a session is of its configuration**, if it took no packet of the client's own. -/
theorem run_bears {localAddr : SocketAddr} {random : UInt64} {labels : List Label}
    (hrun : run (step crates config) (Session.start crates config localAddr random) labels = some (s, effects))
    (hmodest : ∀ command ∈ effects.filterMap Effect.took?, command.modest = true) {origin : Origin} {packet : Packet}
    (hmem : .handed origin packet ∈ effects) : Bears config packet := by
  have hview : (origin, packet) ∈ effects.filterMap Effect.handed? := List.mem_filterMap.mpr ⟨_, hmem, rfl⟩
  have hboth : Bears config packet ∨ .send packet ∈ effects.filterMap Effect.took? := by
    refine run_history (R := fun _ _ effects => (origin, packet) ∈ effects.filterMap Effect.handed? →
      Bears config packet ∨ .send packet ∈ effects.filterMap Effect.took?) ?_ (fun hnone => nomatch hnone) hrun hview
    intro s _ seen label s' es hseen hstep hhanded
    rw [List.filterMap_append] at hhanded ⊢
    rcases List.mem_append.mp hhanded with hold | hnew
    · exact (hseen hold).imp_right (List.mem_append_left _)
    · exact (does_bears (step_does hstep) hnew).imp_right (List.mem_append_right _)
  refine hboth.resolve_right fun htook => ?_
  cases hmodest _ htook

end Packets

/-! ## §3 — back to the moment of connecting -/

section Runs

variable {crates : CryptoCrates} {loaded : ProfileStore × String} {audio : Bool} {inputs : List Input}
  {input : Input} {app app' : App} {effects : List AppEffect}

/-- **`Opened crates loaded audio inputs config profile`** — on some input the session was opened, with no other one in
the slot: `profile` was the active one, the form held a valid relay, and the address is the preferred one of those it
resolved to. -/
def Opened (crates : CryptoCrates) (loaded : ProfileStore × String) (audio : Bool) (inputs : List Input)
    (config : RelayConfig) (profile : TransceiverProfile) : Prop :=
  ∃ past addresses opening later before seen relay,
    inputs = past ++ .callback (.connectRelay (.ok addresses) opening) :: later ∧
    run (appStep crates) (App.start loaded audio) past = some (before, seen) ∧ before.session = none ∧
    before.store.active = .ok profile ∧ relayFromWindow before.window = .ok relay ∧
    Preferred relay.forceIpv4 addresses config.relayAddr ∧
    config = RelayConfig.new config.relayAddr profile.channelId profile.senderId profile.encryption

theorem Opened.later {config : RelayConfig} {profile : TransceiverProfile}
    (h : Opened crates loaded audio inputs config profile) (input : Input) :
    Opened crates loaded audio (inputs ++ [input]) config profile := by
  obtain ⟨past, addresses, opening, later, before, seen, relay, hinputs, hrest⟩ := h
  exact ⟨past, addresses, opening, later ++ [input], before, seen, relay, by simp [hinputs], hrest⟩

/-- What a session is opened with. -/
theorem openLink_config {resolved : Except IoError (List SocketAddr)} {opening : Opening} {link : Link}
    (h : app.openLink crates resolved opening = .ok link) : ∃ addresses relay profile, resolved = .ok addresses ∧
      relayFromWindow app.window = .ok relay ∧ app.store.active = .ok profile ∧
      Preferred relay.forceIpv4 addresses link.config.relayAddr ∧
      link.config = RelayConfig.new link.config.relayAddr profile.channelId profile.senderId profile.encryption := by
  obtain ⟨relay, hrelay, h⟩ := (Outcome.bind_eq_ok _ _).mp h
  obtain ⟨relayAddr, haddr, h⟩ := (Outcome.bind_eq_ok _ _).mp h
  obtain ⟨profile, hprofile, h⟩ := (Outcome.bind_eq_ok _ _).mp h
  obtain ⟨session, -, h⟩ := (Outcome.bind_eq_ok _ _).mp h
  obtain rfl := Outcome.ok.inj h
  obtain ⟨addresses, hresolved, hpreferred⟩ :=
    resolveRelay_preferred (mapError_eq_ok.mp (Outcome.ofExcept_eq_ok.mp haddr))
  have hactive : app.store.active = .ok profile := by
    cases hstore : app.store.active with
    | ok active =>
      rw [hstore] at hprofile
      rw [Outcome.ok.inj hprofile]
    | err error => exact nomatch error
    | panicked =>
      rw [hstore] at hprofile
      cases hprofile
  exact ⟨addresses, relay, profile, hresolved, mapError_eq_ok.mp (Outcome.ofExcept_eq_ok.mp hrelay), hactive,
    hpreferred, rfl⟩

/-- **Every session was opened**, and keeps its configuration. -/
theorem run_opened (hrun : run (appStep crates) (App.start loaded audio) inputs = some (app, effects)) :
    ∀ config ∈ app.links.map Link.config, ∃ profile, Opened crates loaded audio inputs config profile := by
  have hboth : run (appStep crates) (App.start loaded audio) inputs = some (app, effects) ∧
      ∀ config ∈ app.links.map Link.config, ∃ profile, Opened crates loaded audio inputs config profile := by
    refine run_history (R := fun app inputs effects =>
      run (appStep crates) (App.start loaded audio) inputs = some (app, effects) ∧
        ∀ config ∈ app.links.map Link.config, ∃ profile, Opened crates loaded audio inputs config profile)
      ?_ ⟨rfl, ?_⟩ hrun
    · rintro app inputs seen input app' es ⟨hpast, hopened⟩ hstep
      refine ⟨run_concat hpast hstep, ?_⟩
      intro config hmem
      have hkept : config ∈ app.links.map Link.config →
          ∃ profile, Opened crates loaded audio (inputs ++ [input]) config profile := fun hold =>
        (hopened config hold).imp fun _ h => h.later input
      cases appStep_does hstep with
      | keeps hmoves | submits hmoves =>
        obtain ⟨link', hlink', rfl⟩ := List.mem_map.mp hmem
        obtain ⟨j, hj⟩ := List.mem_iff_getElem?.mp hlink'
        obtain ⟨link, hlink, hconfig⟩ := hmoves.config hj
        exact hkept (List.mem_map.mpr ⟨link, List.mem_of_getElem? hlink, hconfig⟩)
      | @opens resolved opening link hinput hslot hlink hlinks =>
        rw [hlinks, List.map_append, List.mem_append] at hmem
        rcases hmem with hold | hnew
        · exact hkept hold
        · obtain rfl : config = link.config := List.mem_singleton.mp hnew
          obtain ⟨addresses, relay, profile, rfl, hrelay, hactive, hpreferred, hconfig⟩ := openLink_config hlink
          exact ⟨profile, inputs, addresses, opening, [], app, seen, relay, by rw [hinput], hpast, hslot, hactive,
            hrelay, hpreferred, hconfig⟩
    · rw [(App.start_sessions loaded audio).1]
      simp
  exact hboth.2

/-- **A session keeps the identity it was opened with.** Take any session of any run of the application, and whatever
was saved, edited, connected and disconnected in it. The session was opened on some input, with no other one in the
slot; its channel, sender and encryption are those of the profile that was active then, and its address is the
preferred one of those that the relay of the form resolved to. And every packet it ever hands to its socket names
that channel and that sender. -/
theorem session_keeps_identity
    (hrun : run (appStep crates) (App.start loaded audio) inputs = some (app, effects)) {i : Nat} {link : Link}
    (hlink : app.links[i]? = some link) : ∃ profile, Opened crates loaded audio inputs link.config profile ∧
      ∀ origin packet, .handed origin packet ∈ relayed i effects →
        packet.header.version = protocolVersion ∧ packet.header.channelId = profile.channelId ∧
        packet.header.senderId = profile.senderId ∧
        packet.header.headerLen = if profile.encryption = .none then fixedHeaderLen else 28 := by
  obtain ⟨profile, hopened⟩ := run_opened hrun link.config (List.mem_map.mpr ⟨link, List.mem_of_getElem? hlink, rfl⟩)
  refine ⟨profile, hopened, ?_⟩
  intro origin packet hmem
  obtain ⟨localAddr, random, labels, hsession, -⟩ := app_run_session hrun hlink
  obtain ⟨hversion, hchannel, hsender, hlen⟩ := run_bears hsession (taken_modest hrun hlink) hmem
  obtain ⟨-, -, -, -, -, -, -, -, -, -, -, -, -, hconfig⟩ := hopened
  refine ⟨hversion, ?_, ?_, ?_⟩
  · rw [hchannel, hconfig]
    rfl
  · rw [hsender, hconfig]
    rfl
  · rw [hlen, hconfig]
    rfl

/-- Connect as sender 0, save another number, and let the worker send its `Join`. -/
def renumberedInputs : List Input :=
  [connects, .edit { AppWindow.new.form with senderId := "9".toList }, .callback (.saveProfile (.ok ()))] ++
    List.replicate 2 (workerTick 0)

/-- The session stays sender 0 behind the save. -/
theorem session_keeps_identity_renumbered : ∃ app effects packet,
    run (appStep tagCrates) (App.start (pcmStore, "Profile restored") true) renumberedInputs = some (app, effects) ∧
    app.store.profiles.map TransceiverProfile.senderId = [9] ∧ .handed .control packet ∈ relayed 0 effects ∧
    packet.header.senderId = 0 := by
  have hview : (run (appStep tagCrates) (App.start (pcmStore, "Profile restored") true) renumberedInputs).map
      (fun r => (r.1.store.profiles.map TransceiverProfile.senderId, r.1.links[0]?.map fun l => l.config.senderId,
        ((relayed 0 r.2).filterMap Effect.handed?).map Prod.fst)) = some ([9], some 0, [.control]) := by
    decide +kernel
  obtain ⟨⟨app, effects⟩, hrun, hviews⟩ := Option.map_eq_some_iff.mp hview
  obtain ⟨hstore, hviews⟩ := Prod.mk.inj hviews
  obtain ⟨hlink, hhanded⟩ := Prod.mk.inj hviews
  obtain ⟨link, hlink, hzero⟩ := Option.map_eq_some_iff.mp hlink
  have hcontrol : Origin.control ∈ ((relayed 0 effects).filterMap Effect.handed?).map Prod.fst := by
    rw [hhanded]
    exact List.mem_cons_self
  obtain ⟨⟨origin, packet⟩, hmem, rfl⟩ := List.mem_map.mp hcontrol
  have hpacket : .handed .control packet ∈ relayed 0 effects := by
    obtain ⟨e, he, hview⟩ := List.mem_filterMap.mp hmem
    cases e with
    | handed origin' packet' =>
      obtain ⟨rfl, rfl⟩ := Prod.mk.inj (Option.some.inj hview)
      exact he
    | _ => cases hview
  obtain ⟨profile, ⟨_, _, _, _, _, _, _, _, _, _, _, _, _, hconfig⟩, hpackets⟩ := session_keeps_identity hrun hlink
  refine ⟨app, effects, packet, hrun, hstore, hpacket, ?_⟩
  rw [(hpackets _ _ hpacket).2.2.1, ← hzero, hconfig]
  rfl

end Runs

end IncomUdon.Desktop
