/-
  The state of one server connection (`Connection` of `src/server/connection.rs`) and of
  what all connections of the process share (`SESSIONS`, `LOGIN_FAILURES`,
  `SWITCH_SIDES_UUID`, `AUTHED_CONNS` and the `Server`).

  The channels out of a connection (to the peer, to the connection manager, to the input
  thread) are lists of what was sent, oldest first. `SESSIONS` shares its `last_recv_time`
  cells with the connections by `Arc`: a cell is a number into `recvTimes`.

  Fields of the source that no modelled handler reads are left out: timers and audit
  buffers, file jobs, the audio and printer senders, retina and portable-service state.
-/
import LuodaRemote.Server
import LuodaRemote.Login.Failures

namespace LuodaRemote

inductive AuthConnType where
  | remote
  | fileTransfer
  | portForward
  | viewCamera
  | terminal
  deriving DecidableEq

/-! ## What a connection sends -/

/-- Messages to the peer, as far as the handlers modelled here send them. -/
inductive Outgoing where
  | loginError (error : String) (enableTrustedDevices : Bool)
  | peerInfo
  | permission (name : SwitchName) (enabled : Bool)
  | blockInputFailed (on : Bool) (details : String)
  | closeReason (reason : String)
  | testDelay
  | voiceCallRequest (isConnect : Bool)
  | voiceCallResponse (reqTimestamp : Int) (accepted : Bool)
  | displayChanged (displayIdx : Nat)
  deriving DecidableEq

/-- `ipc::Data::Login`, what the connection manager shows its user. -/
structure CmLogin where
  isFileTransfer : Bool
  isViewCamera : Bool
  isTerminal : Bool
  portForward : String
  peerId : String
  name : String
  avatar : String
  authorized : Bool
  keyboard : Bool
  clipboard : Bool
  audio : Bool
  file : Bool
  restart : Bool
  recording : Bool
  blockInput : Bool
  fromSwitch : Bool
  deriving DecidableEq

/-- Messages to the connection manager. -/
inductive ToCm where
  | login (l : CmLogin)
  | voiceCallIncoming
  | startVoiceCall
  | closeVoiceCall
  | clipboardFileEnabled (enabled : Bool)
  | close
  deriving DecidableEq

/-- `MessageInput`, what the input thread acts on. -/
inductive MessageInput where
  | mouse (me : MouseEvent) (username : String) (argb : BitVec 32) (simulate showCursor : Bool)
  | key (ke : KeyEvent) (press : Bool)
  | pointer (pde : PointerDeviceEvent)
  | blockOn
  | blockOff
  deriving DecidableEq

/-- The peer's own input events, as opposed to the block switches. -/
def MessageInput.isEvent : MessageInput → Bool
  | mouse .. | key .. | pointer _ => true
  | blockOn | blockOff => false

/-! ## Permissions and options -/

/-- The permissions the controlled side grants and the options the peer chose. -/
structure Flags where
  keyboard : Bool
  clipboard : Bool
  audio : Bool
  file : Bool
  restart : Bool
  recording : Bool
  blockInput : Bool
  lockAfterSessionEnd : Bool := false
  showRemoteCursor : Bool := false
  followRemoteCursor : Bool := false
  followRemoteWindow : Bool := false
  disableKeyboard : Bool := false
  disableClipboard : Bool := false
  disableAudio : Bool := false
  enableFileTransfer : Bool := false
  showMyCursor : Bool := false
  deriving DecidableEq, Inhabited

namespace Flags

def peerKeyboardEnabled (f : Flags) : Bool := f.keyboard && !f.disableKeyboard

def clipboardEnabled (f : Flags) : Bool := f.clipboard && !f.disableClipboard

def audioEnabled (f : Flags) : Bool := f.audio && !f.disableAudio

def fileTransferEnabled (f : Flags) : Bool := f.file && f.enableFileTransfer

def canSubClipboardService (h : Host) (f : Flags) : Bool :=
  f.clipboardEnabled && f.peerKeyboardEnabled &&
    h.builtinOption "one-way-clipboard-redirection" != "Y"

def canSubFileClipboardService (h : Host) (f : Flags) : Bool :=
  f.clipboardEnabled && f.fileTransferEnabled && h.builtinOption "one-way-file-transfer" != "Y"

/-- The cursor is streamed to a peer that may move it or asked to see it. -/
def cursorEnabled (f : Flags) : Bool := f.peerKeyboardEnabled || f.showRemoteCursor

end Flags

/-! ## One connection -/

structure Connection where
  id : Int
  ip : IpAddr
  hash : Hash
  controlPermissions : Option (BitVec 64)
  displayIdx : Nat
  flags : Flags
  fileTransfer : Option (String × Bool) := none
  viewCamera : Bool := false
  terminal : Bool := false
  /-- The address the open socket leads to. -/
  portForwardSocket : Option String := none
  portForwardAddress : String := ""
  authorized : Bool := false
  /-- Whether a TOTP secret is set. -/
  require2fa : Bool := false
  lastTestDelay : Option Nat := none
  videoAckRequired : Bool := false
  lr : LoginRequest := {}
  peerArgb : BitVec 32 := 0
  sessionLastRecvTime : Option Nat := none
  fromSwitch : Bool := false
  voiceCallRequestTimestamp : Option Int := none
  voiceCalling : Bool := false
  optionsInLogin : Option OptionMessage := none
  pressedModifiers : List Nat := []
  closed : Bool := false
  /-- Whether `try_start_cm_ipc` has run. -/
  cmIpcStarted : Bool := false
  authedConnId : Option AuthConnType := none
  servicesSubed : Bool := false
  multiUiSession : Bool := false
  terminalServiceId : String := ""
  terminalPersistent : Bool := false
  terminalUserToken : Option TerminalUserToken := none
  /-- The `select!` loop of `Connection::start` has not been left. -/
  running : Bool := true
  toPeer : List Outgoing := []
  toCm : List ToCm := []
  toInput : List MessageInput := []
  deriving DecidableEq

namespace Connection

def sessionKey (c : Connection) : SessionKey := c.lr.sessionKey

def isRemote (c : Connection) : Bool :=
  c.fileTransfer.isNone && c.portForwardSocket.isNone && !c.viewCamera && !c.terminal

def isAuthedViewCameraConn (c : Connection) : Bool := c.authedConnId == some .viewCamera

def videoSource (c : Connection) : VideoSource := if c.viewCamera then .camera else .monitor

/-- The kind `send_logon_response_and_keep_alive` settles on, by a fixed priority. -/
def authConnType (c : Connection) : AuthConnType :=
  if c.fileTransfer.isSome then .fileTransfer
  else if c.portForwardSocket.isSome then .portForward
  else if c.viewCamera then .viewCamera
  else if c.terminal then .terminal
  else .remote

end Connection

/-! ## What the connections share -/

structure Session where
  lastRecvTime : Nat
  randomPassword : String
  tfa : Bool
  deriving DecidableEq

structure AuthedConn where
  connId : Int
  connType : AuthConnType
  sessionKey : SessionKey
  deriving DecidableEq

structure Globals where
  sessions : SessionKey → Option Session
  /-- The cells behind the `last_recv_time` pointers, and the first unused one. -/
  recvTimes : Nat → Nat
  nextRecvTime : Nat
  loginFailures : Fin 2 → FailureMap
  switchSidesUuid : String → Option (Nat × Uuid)
  authedConns : List AuthedConn
  server : Server

/-- `SESSION_TIMEOUT`, in milliseconds. -/
def sessionTimeout : Nat := 30000

namespace Globals

/-- The state of a process that has taken no connection yet. -/
def init (server : Server) : Globals where
  sessions := fun _ => none
  recvTimes := fun _ => 0
  nextRecvTime := 0
  loginFailures := fun _ _ => none
  switchSidesUuid := fun _ => none
  authedConns := []
  server := server

def updateOrInsertSession (g : Globals) (now : Nat) (key : SessionKey)
    (password : Option String) (tfa : Option Bool) : Globals :=
  match g.sessions key with
  | some s =>
    { g with sessions := Function.update g.sessions key (some
      { s with randomPassword := password.getD s.randomPassword, tfa := tfa.getD s.tfa }) }
  | none =>
    { g with
      sessions := Function.update g.sessions key (some
        ⟨g.nextRecvTime, password.getD "", tfa.getD false⟩)
      recvTimes := Function.update g.recvTimes g.nextRecvTime now
      nextRecvTime := g.nextRecvTime + 1 }

def setSession2fa (g : Globals) (now : Nat) (key : SessionKey) : Globals :=
  match g.sessions key with
  | some s => { g with sessions := Function.update g.sessions key (some { s with tfa := true }) }
  | none =>
    { g with
      sessions := Function.update g.sessions key (some ⟨g.nextRecvTime, "", true⟩)
      recvTimes := Function.update g.recvTimes g.nextRecvTime now
      nextRecvTime := g.nextRecvTime + 1 }

/-- `AuthedConnID::check_remove_session`. -/
def checkRemoveSession (g : Globals) (connId : Int) (key : SessionKey) : Globals :=
  if (g.sessions key).isNone then g
  else
    let isRemote := g.authedConns.any fun c => c.connId == connId && c.connType == .remote
    let anotherRemote := g.authedConns.any fun c =>
      c.connId != connId && c.sessionKey == key && c.connType == .remote
    if isRemote || !anotherRemote then
      { g with sessions := Function.update g.sessions key none }
    else g

/-- It takes a session away at most. -/
theorem checkRemoveSession_eq (g : Globals) (connId : Int) (key : SessionKey) :
    ∃ sessions, (∀ k s, sessions k = some s → g.sessions k = some s) ∧
      g.checkRemoveSession connId key = { g with sessions := sessions } := by
  unfold checkRemoveSession
  dsimp only
  split
  · exact ⟨g.sessions, fun _ _ hs => hs, rfl⟩
  split
  · refine ⟨Function.update g.sessions key none, fun k s hs => ?_, rfl⟩
    by_cases hk : k = key
    · rw [hk, Function.update_self] at hs
      cases hs
    · rwa [Function.update_of_ne hk] at hs
  · exact ⟨g.sessions, fun _ _ hs => hs, rfl⟩

/-- The entry's `last_recv_time.elapsed() >= SESSION_TIMEOUT`; an `Instant` of the future
    counts as just now. -/
def expired (g : Globals) (now : Nat) (s : Session) : Bool :=
  decide (sessionTimeout ≤ now - g.recvTimes s.lastRecvTime)

/-- The sweep of `Drop for Connection`. -/
def sweepSessions (g : Globals) (now : Nat) : Globals :=
  { g with sessions := fun key => (g.sessions key).filter fun s => !g.expired now s }

end Globals

/-! ## A connection and its surroundings -/

structure World where
  conn : Connection
  glob : Globals

namespace World

def send (m : Outgoing) (w : World) : World :=
  { w with conn := { w.conn with toPeer := w.conn.toPeer ++ [m] } }

def sendToCm (m : ToCm) (w : World) : World :=
  { w with conn := { w.conn with toCm := w.conn.toCm ++ [m] } }

def sendToInput (m : MessageInput) (w : World) : World :=
  { w with conn := { w.conn with toInput := w.conn.toInput ++ [m] } }

def subscribe (name : ServiceName) (sub : Bool) (w : World) : World :=
  { w with glob := { w.glob with server := w.glob.server.subscribe name w.conn.id sub } }

/-- The text that asks for a 2FA code, `client::REQUIRE_2FA`. -/
def require2faText : String := "2FA Required"

def sendLoginError (env : Env) (err : String) (w : World) : World :=
  w.send (.loginError err (err == require2faText && enableTrustedDevices env))

def tryStartCm (peerId name : String) (authorized : Bool) (w : World) : World :=
  let c := w.conn
  w.sendToCm (.login
    { isFileTransfer := c.fileTransfer.isSome
      isViewCamera := c.viewCamera
      isTerminal := c.terminal
      portForward := c.portForwardAddress
      peerId := peerId
      name := name
      avatar := c.lr.avatar
      authorized := authorized
      keyboard := c.flags.keyboard
      clipboard := c.flags.clipboard
      audio := c.flags.audio
      file := c.flags.file
      restart := c.flags.restart
      recording := c.flags.recording
      blockInput := c.flags.blockInput
      fromSwitch := c.fromSwitch })

def checkRemoveSession (w : World) : World :=
  { w with glob := w.glob.checkRemoveSession w.conn.id w.conn.sessionKey }

/-- `on_close`: only the first call acts. -/
def onClose (w : World) : World :=
  if w.conn.closed then w
  else
    { w.sendToCm .close with
      conn := { (w.sendToCm .close).conn with closed := true, portForwardSocket := none } }

theorem onClose_glob (w : World) : w.onClose.glob = w.glob := by
  unfold onClose
  split
  · rfl
  · rfl

/-- `send_close_reason_no_retry`. -/
def sendCloseReasonNoRetry (reason : String) (w : World) : World :=
  let reason := if reason.isEmpty then "Closed manually by the peer" else reason
  (w.send (.closeReason reason)).checkRemoveSession

def isRecentSession (h : Host) (tfa : Bool) (w : World) : Bool :=
  match w.glob.sessions w.conn.sessionKey with
  | some session =>
    !w.conn.lr.password.isEmpty &&
      (tfa && session.tfa ||
        !tfa && validatePasswordPlain h w.conn.hash w.conn.lr session.randomPassword)
  | none => false

end World

/-- What a login that does not authorize leaves alone: everything but the request itself
    and the marks it makes, the answers, whether the loop goes on, and the tables of
    sessions, failures and uuids. -/
def World.steady (w : World) : World where
  conn := { w.conn with
    lr := {}, peerArgb := 0, optionsInLogin := none, require2fa := false, fromSwitch := false
    videoAckRequired := false, fileTransfer := none, viewCamera := false, terminal := false
    terminalPersistent := false, terminalServiceId := "", terminalUserToken := none
    portForwardAddress := "", cmIpcStarted := false, running := true, toPeer := [], toCm := [] }
  glob := { w.glob with
    sessions := fun _ => none, recvTimes := fun _ => 0, nextRecvTime := 0
    loginFailures := fun _ _ => none, switchSidesUuid := fun _ => none }

/-- The permissions a connection starts with. -/
def Flags.start (h : Host) (env : Env) (controlPermissions : Option (BitVec 64)) : Flags where
  keyboard := permission h env .keyboard controlPermissions
  clipboard := permission h env .clipboard controlPermissions
  audio := permission h env .audio controlPermissions
  file := permission h env .fileTransfer controlPermissions
  restart := permission h env .remoteRestart controlPermissions
  recording := permission h env .recordSession controlPermissions
  blockInput := permission h env .blockInput controlPermissions

/-- The permissions that are off, in the order `Connection::start` announces them. -/
def Flags.withheld (f : Flags) : List SwitchName :=
  [(SwitchName.keyboard, f.keyboard), (.clipboard, f.clipboard), (.audio, f.audio),
    (.file, f.file), (.restart, f.restart), (.recording, f.recording),
    (.blockInput, f.blockInput)].filterMap fun p => if p.2 then none else some p.1

/-! ## What a login leaves behind -/

/-- What only logins change: everything but the flags and options, the picture and voice
    state, and the channels. Of what was sent to the connection manager the login records
    stay. -/
def World.loginView (w : World) : World where
  conn := { w.conn with
    flags := default, optionsInLogin := none
    displayIdx := 0, multiUiSession := false, servicesSubed := false
    voiceCallRequestTimestamp := none, voiceCalling := false, pressedModifiers := []
    lastTestDelay := none, terminalPersistent := false, toPeer := [], toInput := []
    toCm := w.conn.toCm.filter fun m => m matches .login _ }
  glob := { w.glob with server := ⟨[], List.nodup_nil⟩ }

/-- `Connection::start` up to the loop, for a peer that `on_open` let in. -/
def Connection.start (h : Host) (env : Env) (id : Int) (ip : IpAddr) (hash : Hash)
    (controlPermissions : Option (BitVec 64)) : Connection where
  id := id
  ip := ip
  hash := hash
  controlPermissions := controlPermissions
  displayIdx := h.primaryDisplayIdx
  flags := Flags.start h env controlPermissions
  toPeer := (Flags.start h env controlPermissions).withheld.map (.permission · false)

end LuodaRemote
