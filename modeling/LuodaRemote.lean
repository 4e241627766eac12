import LuodaRemote.BlockInput
import LuodaRemote.Capture.Frames
import LuodaRemote.Client.Agreement
import LuodaRemote.Client.AudioBuffer
import LuodaRemote.Client.Grab
import LuodaRemote.Client.SharedPassword
import LuodaRemote.Client.SoftRender
import LuodaRemote.Client.VideoThread
import LuodaRemote.Client.VoiceCall
import LuodaRemote.Clipboard.Arithmetic
import LuodaRemote.Clipboard.Audit
import LuodaRemote.Clipboard.Contents
import LuodaRemote.Clipboard.DescriptorSafety
import LuodaRemote.Clipboard.Descriptors
import LuodaRemote.Clipboard.FileList
import LuodaRemote.Clipboard.Fuse
import LuodaRemote.Clipboard.FuseHandles
import LuodaRemote.Clipboard.FuseTree
import LuodaRemote.Clipboard.Listener
import LuodaRemote.Clipboard.PasteComplete
import LuodaRemote.Clipboard.ReadPosition
import LuodaRemote.Clipboard.Sharing
import LuodaRemote.Codec.Negotiation
import LuodaRemote.Config.Caches
import LuodaRemote.Config.CustomId
import LuodaRemote.Config.Ipc
import LuodaRemote.Config.PeerFiles
import LuodaRemote.Config.PermanentPassword
import LuodaRemote.Config.RendezvousServers
import LuodaRemote.Config.Strategy
import LuodaRemote.Confinement
import LuodaRemote.Connection.CameraCall
import LuodaRemote.Connection.RemoveLog
import LuodaRemote.Credential
import LuodaRemote.CustomServer.HostName
import LuodaRemote.CustomServer.LicensedName
import LuodaRemote.DirectAccess
import LuodaRemote.DisplayService
import LuodaRemote.DownloadComplete
import LuodaRemote.Downloader
import LuodaRemote.HostPort
import LuodaRemote.Identity
import LuodaRemote.Keyboard
import LuodaRemote.Kind
import LuodaRemote.LegacyKeyboard
import LuodaRemote.Lib.BinarySearch
import LuodaRemote.Lib.Pieces
import LuodaRemote.Lib.Window
import LuodaRemote.Login.FailureCount
import LuodaRemote.Net.AddrMangle
import LuodaRemote.Net.Nonces
import LuodaRemote.Net.SecureTcp
import LuodaRemote.Net.Secured
import LuodaRemote.Net.TlsFallback
import LuodaRemote.Oidc
import LuodaRemote.Packaging.Format
import LuodaRemote.Packaging.Setup
import LuodaRemote.PortForward
import LuodaRemote.Privacy
import LuodaRemote.Proxy.Setting
import LuodaRemote.RecordUpload
import LuodaRemote.Recorder
import LuodaRemote.Rendezvous
import LuodaRemote.Screenshot.Requests
import LuodaRemote.Sessions
import LuodaRemote.Snapshot
import LuodaRemote.Subscribers
import LuodaRemote.Subscriptions
import LuodaRemote.Terminal.Helper
import LuodaRemote.Terminal.Replay
import LuodaRemote.Terminal.Service
import LuodaRemote.Terminal.Sigwinch
import LuodaRemote.Transfer.Blocks
import LuodaRemote.Transfer.Cm
import LuodaRemote.Transfer.Directory
import LuodaRemote.Transfer.EmptyDirs
import LuodaRemote.Transfer.Listing
import LuodaRemote.Transfer.Loops
import LuodaRemote.Transfer.Publish
import LuodaRemote.Transfer.Read
import LuodaRemote.Transfer.Resume
import LuodaRemote.Transfer.Symlinks
import LuodaRemote.Tunnel
import LuodaRemote.VersionNumber
import LuodaRemote.VideoLoop
import LuodaRemote.VideoQos.BadNetwork
import LuodaRemote.VideoQos.Bounds
import LuodaRemote.VideoQos.Rtt
import LuodaRemote.Wayland.RdpInput
import LuodaRemote.Wayland.Uinput
import LuodaRemote.Whiteboard
import LuodaRemote.WhiteboardCursor
