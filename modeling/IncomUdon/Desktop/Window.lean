/-
# IncomUdon.Desktop.Window — the window's properties, and what the application reads and writes there.

A translation of the part of `main.rs` that touches the `AppWindow`: a profile and a relay written to the form and
read back from it, the status lines, and what a relay event shows. The window itself is generated from
`app-window.slint`; only its properties are kept, with getters that return the last value set. `int` is 32 bits.
-/
import IncomUdon.Core.Profile
import IncomUdon.Transport.Media

namespace IncomUdon.Desktop

open IncomUdon.Lib
open IncomUdon.Core
open IncomUdon.Protocol
open IncomUdon.Transport

/-! ## The properties -/

/-- The properties a user can edit. -/
structure Form where
  profileName : Str
  channelId : Str
  senderId : Str
  receiveOnly : Bool
  muteSelfId : Bool
  codecIndex : Int32
  bitrateBps : Int32
  relayHost : Str
  relayPort : Int32
  forceIpv4 : Bool
  deriving DecidableEq, Repr

/-- The properties of `AppWindow` that the application reads or writes. -/
structure AppWindow where
  form : Form
  connectionStatus : String
  activeTalker : String
  profileSaveStatus : String
  deriving DecidableEq, Repr

/-- `AppWindow::new`: the defaults of `app-window.slint`. -/
def AppWindow.new : AppWindow where
  form :=
    { profileName := "Default".toList
      channelId := "0".toList
      senderId := "0".toList
      receiveOnly := false
      muteSelfId := true
      codecIndex := 0
      bitrateBps := 16000
      relayHost := "127.0.0.1".toList
      relayPort := 50000
      forceIpv4 := false }
  connectionStatus := "Disconnected"
  activeTalker := "No active speaker"
  profileSaveStatus := ""

namespace AppWindow

/-- `set_connection_status`. -/
def setConnectionStatus (window : AppWindow) (status : String) : AppWindow :=
  { window with connectionStatus := status }

/-- `set_active_talker`. -/
def setActiveTalker (window : AppWindow) (talker : String) : AppWindow :=
  { window with activeTalker := talker }

/-- `set_profile_save_status`. -/
def setSaveStatus (window : AppWindow) (status : String) : AppWindow :=
  { window with profileSaveStatus := status }

end AppWindow

/-! ## Profiles and relays -/

/-- `codec_to_index`: the place of a codec in the list of the form. -/
def codecToIndex : Codec → Int32
  | .opus => 0
  | .codec2 => 1
  | .pcm => 2

/-- `codec_from_index`. -/
def codecFromIndex (index : Int32) : Except String Codec :=
  if index = 0 then .ok .opus
  else if index = 1 then .ok .codec2
  else if index = 2 then .ok .pcm
  else .error "unknown codec selection"

/-- `u32::try_from` of an `i32`. -/
def u32TryFrom (value : Int32) : Option UInt32 := if 0 ≤ value then some value.toUInt32 else none

/-- `u16::try_from` of an `i32`. -/
def u16TryFrom (value : Int32) : Option UInt16 :=
  if 0 ≤ value ∧ value ≤ 65535 then some value.toUInt32.toUInt16 else none

/-- `apply_profile_to_window`: every field of the profile but the encryption, a missing bitrate as zero. -/
def applyProfileToWindow (window : AppWindow) (profile : TransceiverProfile) : AppWindow :=
  { window with
    form :=
      { window.form with
        profileName := profile.name
        channelId := u32ToString profile.channelId
        senderId := u32ToString profile.senderId
        receiveOnly := profile.receiveOnly
        muteSelfId := profile.muteSelfId
        codecIndex := codecToIndex profile.codec
        bitrateBps := (profile.bitrateBps.getD 0).toInt32 } }

/-- `apply_relay_to_window`. -/
def applyRelayToWindow (window : AppWindow) (relay : RelayEndpoint) : AppWindow :=
  { window with
    form :=
      { window.form with
        relayHost := relay.host
        relayPort := relay.port.toUInt32.toInt32
        forceIpv4 := relay.forceIpv4 } }

/-- `profile_from_window`: the fields are read in this order, and what they make is validated. -/
def profileFromWindow (window : AppWindow) : Except String TransceiverProfile := do
  let channelId ← (parseU32 window.form.channelId).elim (.error "channel ID must be an unsigned integer") .ok
  let senderId ← (parseU32 window.form.senderId).elim (.error "sender ID must be an unsigned integer") .ok
  let codec ← codecFromIndex window.form.codecIndex
  let bitrateBps :=
    if codec = .pcm then none else (u32TryFrom window.form.bitrateBps).filter fun value => 0 < value
  let profile : TransceiverProfile :=
    { name := trim window.form.profileName
      channelId, senderId, codec, bitrateBps
      encryption := .aesGcmV2
      receiveOnly := window.form.receiveOnly
      muteSelfId := window.form.muteSelfId }
  (validateProfile profile).mapError ProfileError.toString
  return profile

/-- `relay_from_window`. -/
def relayFromWindow (window : AppWindow) : Except String RelayEndpoint := do
  let port ← (u16TryFrom window.form.relayPort).elim (.error "relay port is invalid") .ok
  let relay : RelayEndpoint :=
    { host := trim window.form.relayHost
      port
      forceIpv4 := window.form.forceIpv4 }
  (validateRelayEndpoint relay).mapError ProfileError.toString
  return relay

/-- `resolve_relay`, where `addresses` is the answer of `to_socket_addrs`. The sort is stable and its key has two
values, IPv6 before IPv4. -/
def resolveRelay (relay : RelayEndpoint) (addresses : Except IoError (List SocketAddr)) :
    Except String SocketAddr := do
  let addresses ← addresses.mapError IoError.message
  let addresses := addresses.filter fun address => !relay.forceIpv4 || address.isIpv4
  let addresses := addresses.filter SocketAddr.isIpv6 ++ addresses.filter fun address => !address.isIpv6
  addresses.head?.elim (.error "no usable IPv4/IPv6 address was resolved") .ok

/-! ## Relay events -/

/-- `update_talker_from_packet`: what the relay says of the talk right. -/
def updateTalkerFromPacket (window : AppWindow) (packet : Packet) : AppWindow :=
  match packet.header.packetType with
  | .grant => window.setActiveTalker s!"Sender {packet.header.senderId.toNat}"
  | .release => window.setActiveTalker "No active speaker"
  | .deny => window.setConnectionStatus "Talk request denied"
  | _ => window

/-- The window behind a relay event, and whether the event says that the worker has stopped. -/
def applyRelayEvent (window : AppWindow) : RelayEvent → AppWindow × Bool
  | .connected localAddr => (window.setConnectionStatus s!"Connected ({localAddr.toString})", false)
  | .sent packetType => (if packetType = .leave then window.setConnectionStatus "Disconnecting" else window, false)
  | .received packet => (updateTalkerFromPacket window packet, false)
  | .pcmReceived _ _ => (window, false)
  | .receiveRejected error => (window.setConnectionStatus s!"Ignored relay packet: {error.toString}", false)
  | .ioError _ => (window.setConnectionStatus "Relay network error", false)
  | .stopped => ((window.setConnectionStatus "Disconnected").setActiveTalker "No active speaker", true)

/-! ## What the form yields is valid -/

/-- A profile read from the window passes `validate_profile`. -/
theorem profileFromWindow_valid {window : AppWindow} {profile : TransceiverProfile}
    (h : profileFromWindow window = .ok profile) : validateProfile profile = .ok () := by
  obtain ⟨channelId, -, h⟩ := except_bind_eq_ok.mp h
  obtain ⟨senderId, -, h⟩ := except_bind_eq_ok.mp h
  obtain ⟨codec, -, h⟩ := except_bind_eq_ok.mp h
  obtain ⟨_, hvalid, h⟩ := except_bind_eq_ok.mp h
  obtain rfl := Except.ok.inj h
  exact mapError_eq_ok.mp hvalid

end IncomUdon.Desktop
