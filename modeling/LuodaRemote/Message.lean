/-
  The messages a server connection receives: `libs/hbb_common/protos/message.proto` as
  `Connection::on_message` reads it, and the `ipc::Data` values the connection manager
  sends back (`src/ipc.rs`).

  Protobuf `oneof` fields are `Option`s of an inductive type, `bytes` are lists of bytes.
  An enum field with a number outside the enum makes `enum_value()` an `Err`; every reader
  here then does what it does for the default value, so such numbers are not kept apart.

  Left out are the payloads of messages whose handlers touch neither the login, the
  permissions, the subscriptions nor the input thread (clipboard contents, file actions,
  audio frames, terminal actions, privacy mode, resolutions). Their constructors remain.
-/
import Mathlib.Tactic

namespace LuodaRemote

abbrev Bytes := List UInt8

/-- `str::as_bytes`. -/
def asBytes (s : String) : Bytes := s.toUTF8.toList

/-- A peer address after `try_into_v4`; `Connection::ip` is its text form. -/
inductive IpAddr where
  | v4 (a : BitVec 32)
  | v6 (a : BitVec 128)
  deriving DecidableEq

/-- A `uuid::Uuid`: sixteen bytes. -/
structure Uuid where
  bytes : Bytes
  len : bytes.length = 16
  deriving DecidableEq

/-- `Uuid::from_slice`. -/
def Uuid.fromSlice (b : Bytes) : Option Uuid :=
  if h : b.length = 16 then some ⟨b, h⟩ else none

/-! ## Options -/

/-- `option_message::BoolOption`. -/
inductive BoolOption where
  | notSet
  | no
  | yes
  deriving DecidableEq

/-- The value an option carries, if it is set. -/
def BoolOption.choice : BoolOption → Option Bool
  | notSet => none
  | no => some false
  | yes => some true

/-- `OptionMessage`, without the picture quality, frame rate and codec fields, which go to
    `VIDEO_QOS` and `Encoder`. -/
structure OptionMessage where
  lockAfterSessionEnd : BoolOption := .notSet
  showRemoteCursor : BoolOption := .notSet
  blockInput : BoolOption := .notSet
  disableAudio : BoolOption := .notSet
  disableClipboard : BoolOption := .notSet
  enableFileTransfer : BoolOption := .notSet
  disableKeyboard : BoolOption := .notSet
  followRemoteCursor : BoolOption := .notSet
  followRemoteWindow : BoolOption := .notSet
  terminalPersistent : BoolOption := .notSet
  showMyCursor : BoolOption := .notSet
  deriving DecidableEq

/-! ## Login -/

structure PortForward where
  host : String
  port : Int
  deriving DecidableEq

/-- `login_request::Union`. -/
inductive LoginUnion where
  | fileTransfer (dir : String) (showHidden : Bool)
  | portForward (pf : PortForward)
  | viewCamera
  | terminal (serviceId : String)
  deriving DecidableEq

structure OsLogin where
  username : String := ""
  password : String := ""
  deriving DecidableEq

/-- `LoginRequest`; the defaults are protobuf's, so `{}` is `LoginRequest::default()`. -/
structure LoginRequest where
  username : String := ""
  password : Bytes := []
  myId : String := ""
  myName : String := ""
  option : Option OptionMessage := none
  union : Option LoginUnion := none
  videoAckRequired : Bool := false
  sessionId : BitVec 64 := 0
  version : String := ""
  osLogin : OsLogin := {}
  myPlatform : String := ""
  hwid : Bytes := []
  avatar : String := ""
  deriving DecidableEq

/-- The challenge sent at connection start; the peer's password answers it. -/
structure Hash where
  salt : String
  challenge : String
  deriving DecidableEq

structure SessionKey where
  peerId : String
  name : String
  sessionId : BitVec 64
  deriving DecidableEq

/-- The key a `LoginRequest` gives its session (`Connection::session_key`). -/
def LoginRequest.sessionKey (lr : LoginRequest) : SessionKey :=
  ⟨lr.myId, lr.myName, lr.sessionId⟩

/-! ## Input and other peer messages -/

structure MouseEvent where
  mask : Int
  x : Int
  y : Int
  deriving DecidableEq

/-- Passed on to the input thread as it came. -/
structure PointerDeviceEvent where
  encoded : Bytes
  deriving DecidableEq

/-- `key_event::Union`. -/
inductive KeyUnion where
  | controlKey (k : Int)
  | chr (c : Nat)
  | unicode (c : Nat)
  | seq (s : String)
  | win2winHotkey (code : Nat)
  deriving DecidableEq

inductive KeyboardMode where
  | legacy
  | map
  | translate
  | auto
  deriving DecidableEq

structure KeyEvent where
  down : Bool := false
  press : Bool := false
  union : Option KeyUnion := none
  mode : KeyboardMode := .legacy
  deriving DecidableEq

/-- `misc::Union`. `other` stands for the members whose handlers change nothing that is
    modelled (chat, refresh, restart, audio format, privacy mode, resolutions, quality of
    service, plugins, message queries). -/
inductive Misc where
  | closeReason (reason : String)
  | switchDisplay (display : Int)
  | captureDisplays (add sub set : List Int)
  | option (o : OptionMessage)
  | switchSidesRequest (uuid : Bytes)
  | selectedSid (sid : Nat)
  | other
  deriving DecidableEq

/-- `message::Union`. `other` stands for the members that `on_message` either ignores or
    handles without touching the modelled state (clipboard, file actions and responses,
    audio frames, screenshots, terminal actions). -/
inductive Message where
  | loginRequest (lr : LoginRequest)
  | auth2fa (code : String) (hwid : Bytes)
  | testDelay (fromClient : Bool)
  | switchSidesResponse (uuid : Bytes) (lr : Option LoginRequest)
  | mouseEvent (me : MouseEvent)
  | pointerDeviceEvent (pde : PointerDeviceEvent)
  | keyEvent (ke : KeyEvent)
  | voiceCallRequest (isConnect : Bool) (reqTimestamp : Int)
  | misc (m : Misc)
  | other
  deriving DecidableEq

/-! ## Data from the connection manager -/

/-- The names `ipc::Data::SwitchPermission` is sent with; the handler compares strings and
    ignores every other one. -/
inductive SwitchName where
  | keyboard
  | clipboard
  | audio
  | file
  | restart
  | recording
  | blockInput
  | unknown (name : String)
  deriving DecidableEq

/-- `ipc::Data` as the main loop of `Connection::start` handles it. `other` stands for chat,
    raw messages, clipboard files, privacy states and the answers of delegated read jobs. -/
inductive CmData where
  | authorize
  | close
  | cmErr (e : String)
  | switchPermission (name : SwitchName) (enabled : Bool)
  | voiceCallResponse (accepted : Bool)
  | closeVoiceCall
  | other
  deriving DecidableEq

end LuodaRemote
