import IncomUdon.Lib.Channel
import IncomUdon.Lib.Circular
import IncomUdon.Lib.Disk
import IncomUdon.Lib.DropOldest
import IncomUdon.Lib.Durable
import IncomUdon.Lib.Machine
import IncomUdon.Lib.Numerals
import IncomUdon.Lib.Past
import IncomUdon.Lib.Phase
import IncomUdon.Lib.Product
import IncomUdon.Lib.Scan
import IncomUdon.Lib.Sublists
import IncomUdon.Lib.Text
import IncomUdon.Protocol.Grammar
import IncomUdon.Protocol.RoundTrip
import IncomUdon.Protocol.Rejection
import IncomUdon.Crypto
import IncomUdon.Crypto.Password
import IncomUdon.Audio.Playback
import IncomUdon.Audio.Bounded
import IncomUdon.Audio.Capture
import IncomUdon.Core.Profile
import IncomUdon.Core.Store
import IncomUdon.Core.Violation
import IncomUdon.Transport.Media
import IncomUdon.Transport.Worker
import IncomUdon.Transport.Turns
import IncomUdon.Transport.Stream
import IncomUdon.Transport.Graceful
import IncomUdon.Transport.Control
import IncomUdon.Transport.Authenticity
import IncomUdon.Transport.EndToEnd
import IncomUdon.Transport.Isolation
import IncomUdon.Transport.StraySpaces
import IncomUdon.Transport.Events
import IncomUdon.Transport.Hearing
import IncomUdon.Transport.Nonce
import IncomUdon.Transport.Sequence
import IncomUdon.Transport.Confidentiality
import IncomUdon.Desktop.ProfileStorage
import IncomUdon.Desktop.SaveStore
import IncomUdon.Desktop.Window
import IncomUdon.Desktop.FormRoundTrip
import IncomUdon.Desktop.Audio
import IncomUdon.Desktop.Output
import IncomUdon.Desktop.Freshness
import IncomUdon.Desktop.App
import IncomUdon.Desktop.Steps
import IncomUdon.Desktop.PushToTalk
import IncomUdon.Desktop.Sessions
import IncomUdon.Desktop.SelfMute
import IncomUdon.Transport.Lifecycle
import IncomUdon.Transport.Voice
import IncomUdon.Transport.Progress
import IncomUdon.Transport.Reports
import IncomUdon.Desktop.Turns
import IncomUdon.Desktop.Slot
import IncomUdon.Desktop.Closing
import IncomUdon.Desktop.HotMic
import IncomUdon.Desktop.Listening
import IncomUdon.Desktop.Identity
import IncomUdon.Desktop.Display
import IncomUdon.Desktop.Restart
import IncomUdon.Desktop.Unedited
import IncomUdon.Network.Authentic
import IncomUdon.Network.InOrder
import IncomUdon.Network.Lossless
import IncomUdon.Network.Overhearing
import IncomUdon.Network.Nonces
