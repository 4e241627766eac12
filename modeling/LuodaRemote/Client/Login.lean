/-
  The login of a controlling client: which of its passwords answers the peer's `Hash`, and what
  it writes down once the peer has let it in.

  A handler keeps the salted hash of the password it last settled on (`password`) apart from
  where that password came from (`passwordSource`). `handle_hash` goes through the candidates in
  a fixed order, each a function on a `Choice`; `handle_login_from_ui` takes what was typed, or
  the remembered hash if nothing was.

  What a `ClientEnv` holds is read anew for each message. The peer configuration on disk is an
  argument of the functions that load it, since other windows write the same file. The boxes
  shown on a login error, and of `handle_peer_info` the version, the keyboard mode and the
  encodings, are left out: no login looks at them.

  Source: `PasswordSource`, `LoginConfigHandler` (`initialize`, `set_option`, `handle_peer_info`,
  `create_login_msg`, `get_conn_token`), `handle_login_error`, `handle_hash`,
  `try_get_password_from_personal_ab`, `handle_login_from_ui` and `send_switch_login_request` of
  `src/client.rs`; `Ab` of `libs/hbb_common/src/config.rs`.
-/
import LuodaRemote.Host
import LuodaRemote.Lib.Digest
import LuodaRemote.Lib.Utf8

namespace LuodaRemote

open Lib

/-! ## Data -/

/-- `rendezvous::ConnType`. -/
inductive ConnType where
  | defaultConn
  | fileTransfer
  | portForward
  | rdp
  | viewCamera
  | terminal
  deriving DecidableEq

structure AbPeer where
  id : String
  hash : String
  deriving DecidableEq

structure AbEntry where
  name : String
  peers : List AbPeer
  deriving DecidableEq

def AbEntry.personal (e : AbEntry) : Bool :=
  e.name == "My address book" || e.name == "Legacy address book"

structure Ab where
  accessToken : String
  abEntries : List AbEntry
  deriving DecidableEq

/-- The part of a peer's configuration file that the login reads and writes. -/
structure PeerConfig where
  password : Bytes
  /-- `get_option`: empty where absent. -/
  options : String → String

def PeerConfig.setOption (config : PeerConfig) (k v : String) : PeerConfig :=
  { config with options := Function.update config.options k v }

/-- Where the password that was sent comes from. -/
inductive PasswordSource where
  | personalAb (p : Bytes)
  | sharedAb (p : String)
  | undefined
  deriving DecidableEq

structure ConnToken where
  password : Bytes
  passwordSource : PasswordSource
  sessionId : BitVec 64
  deriving DecidableEq

structure LoginConfigHandler where
  id : String
  connType : ConnType
  isTerminalAdmin : Bool
  hash : Hash
  /-- The salted hash of the password, kept for reconnecting. -/
  password : Bytes
  remember : Bool
  config : PeerConfig
  portForward : PortForward
  sessionId : BitVec 64
  forceRelay : Bool
  switchUuid : Option String
  /-- Id, server and key, for a peer of another server. -/
  otherServer : Option (String × String × String)
  passwordSource : PasswordSource
  sharedPassword : Option String

/-- The build of the client and the functions of third-party crates. -/
structure Client where
  flutter : Bool
  sha256 : Bytes → Bytes
  base64Decode : Bytes → Option Bytes
  /-- `Uuid::from_str`, as the bytes of the uuid. -/
  uuidFromStr : String → Option Bytes

/-- What a message of the peer, or the user, finds the client with. -/
structure ClientEnv where
  /-- `LocalConfig::get_option("access_token")`. -/
  accessToken : String
  /-- `Ab::load`. -/
  ab : Ab
  /-- `get_builtin_option(OPTION_DEFAULT_CONNECT_PASSWORD)`. -/
  defaultConnectPassword : String
  /-- `Config::get_id`. -/
  configId : String
  rendezvousServer : String
  /-- The display name and the avatar as `create_login_msg` works them out. -/
  displayName : String
  avatar : String
  platform : String
  version : String
  hwid : Bytes
  /-- `get_option_message(true)`. -/
  optionMessage : Option OptionMessage
  remoteDir : String

/-- What the client sends to log in. -/
inductive ClientMessage where
  | loginRequest (lr : LoginRequest)
  | switchSidesResponse (uuid : Bytes) (lr : LoginRequest)
  deriving DecidableEq

/-- The handler after a message, what was sent for it, and the box shown to the user (its type
    and its title). -/
structure Reply where
  lc : LoginConfigHandler
  sent : Option ClientMessage := none
  msgbox : Option (String × String) := none

/-! ## Hashes and sources -/

theorem asBytes_injective : Function.Injective asBytes := utf8_injective

/-- The salted hash of a password: what the client keeps of it. -/
def Client.h1 (c : Client) (password salt : String) : Bytes :=
  c.sha256 (asBytes password ++ asBytes salt)

/-- Whether the password is personal ab password. -/
def PasswordSource.isPersonalAb (s : PasswordSource) (password : Bytes) : Bool :=
  if password.isEmpty then false
  else match s with
    | personalAb p => p == password
    | _ => false

/-- Whether the password is shared ab password: its plaintext is hashed anew, with the salt of
    the latest `Hash`. -/
def PasswordSource.isSharedAb (c : Client) (s : PasswordSource) (password : Bytes) (hash : Hash) :
    Bool :=
  if password.isEmpty then false
  else match s with
    | sharedAb p => password == c.h1 p hash.salt
    | _ => false

namespace LoginConfigHandler

/-- `LoginConfigHandler::initialize` of a new handler, once the id is parsed. -/
def init (id : String) (connType : ConnType) (switchUuid : Option String)
    (forceRelay : Bool) (otherServer : Option (String × String × String))
    (sharedPassword : Option String) (connToken : Option ConnToken) (isTerminalAdmin : Bool)
    (portForward : PortForward) (random : BitVec 64) (config : PeerConfig) :
    LoginConfigHandler where
  id := id
  connType := connType
  isTerminalAdmin := connType == .terminal && isTerminalAdmin
  hash := ⟨"", ""⟩
  password := (connToken.map (·.password)).getD []
  remember := !config.password.isEmpty
  config := config
  portForward := portForward
  sessionId :=
    let sid := (connToken.map (·.sessionId)).getD 0
    if sid ≠ 0 then sid else if random ≠ 0 then random else 1
  forceRelay := forceRelay
  switchUuid := switchUuid
  otherServer := otherServer
  passwordSource := (connToken.map (·.passwordSource)).getD .undefined
  sharedPassword := sharedPassword

def getOption (lc : LoginConfigHandler) (k : String) : String := lc.config.options k

def getConnToken (lc : LoginConfigHandler) : Option ConnToken :=
  if lc.password.isEmpty then none
  else some ⟨lc.password, lc.passwordSource, lc.sessionId⟩

def getKeyTerminalServiceId (lc : LoginConfigHandler) : String :=
  if lc.isTerminalAdmin then "terminal-admin-service-id" else "terminal-service-id"

/-- `set_option`, on the configuration as it is on disk. -/
def setOption (stored : PeerConfig) (k v : String) (lc : LoginConfigHandler) :
    LoginConfigHandler :=
  if v = lc.getOption k then lc else { lc with config := stored.setOption k v }

/-! ## Messages -/

def createLoginMsg (env : ClientEnv) (osUsername osPassword : String) (password : Bytes)
    (lc : LoginConfigHandler) : LoginRequest where
  username := (lc.otherServer.map (·.1)).getD lc.id
  password := password
  myId := if lc.otherServer.isSome then env.configId ++ "@" ++ env.rendezvousServer
    else env.configId
  myName := env.displayName
  myPlatform := env.platform
  option := env.optionMessage
  sessionId := lc.sessionId
  version := env.version
  osLogin := ⟨osUsername, osPassword⟩
  hwid := if lc.getOption "trust-this-device" = "Y" then env.hwid else []
  avatar := env.avatar
  union := match lc.connType with
    | .fileTransfer =>
      some (.fileTransfer env.remoteDir (!(lc.getOption "remote_show_hidden").isEmpty))
    | .viewCamera => some .viewCamera
    | .portForward | .rdp => some (.portForward lc.portForward)
    | .terminal => some (.terminal (lc.getOption lc.getKeyTerminalServiceId))
    | .defaultConn => none

end LoginConfigHandler

/-! ## The order of passwords -/

/-- The password and its source while the candidates are gone through. -/
structure Choice where
  password : Bytes
  source : PasswordSource
  deriving DecidableEq

namespace Choice

variable (c : Client) (env : ClientEnv)

def preset (password salt : String) (ch : Choice) : Choice :=
  if ch.password.isEmpty && !password.isEmpty then ⟨c.h1 password salt, .undefined⟩ else ch

/-- The shared password goes before all others, the last password included. -/
def shared (password : Option String) (salt : String) (ch : Choice) : Choice :=
  match password with
  | some p => if p.isEmpty then ch else ⟨c.h1 p salt, .sharedAb p⟩
  | none => ch

def peerConfig (password : Bytes) (ch : Choice) : Choice :=
  if ch.password.isEmpty && !password.isEmpty then ⟨password, .undefined⟩ else ch

/-- The hash that the personal address book has for the peer. -/
def personalAbPassword (id : String) : Option Bytes :=
  if env.accessToken.isEmpty || env.accessToken != env.ab.accessToken then none
  else do
    let ab ← env.ab.abEntries.find? (·.personal)
    let p ← ab.peers.find? (·.id == id)
    c.base64Decode (asBytes p.hash)

/-- `try_get_password_from_personal_ab`. -/
def personalAb (id : String) (ch : Choice) : Choice :=
  if ch.password.isEmpty then
    match personalAbPassword c env id with
    | some p => if p.isEmpty then ch else ⟨p, .personalAb p⟩
    | none => ch
  else ch

def defaultConnect (salt : String) (ch : Choice) : Choice :=
  if ch.password.isEmpty && !env.defaultConnectPassword.isEmpty then
    ⟨c.h1 env.defaultConnectPassword salt, .sharedAb env.defaultConnectPassword⟩
  else ch

variable {c : Client} {env : ClientEnv} {ch : Choice}

theorem preset_empty (salt : String) (ch : Choice) : ch.preset c "" salt = ch := by
  simp [preset]

theorem preset_keep (hch : ch.password ≠ []) (password salt : String) :
    ch.preset c password salt = ch := by
  simp [preset, hch]

theorem shared_of_empty {password : Option String} (hp : password.getD "" = "")
    (salt : String) (ch : Choice) : ch.shared c password salt = ch := by
  cases password with
  | none => rfl
  | some q =>
    have hq : q = "" := hp
    rw [hq]
    rfl

theorem shared_of_nonempty {password : Option String} (hp : password.getD "" ≠ "")
    (salt : String) (ch : Choice) : ch.shared c password salt =
      ⟨c.h1 (password.getD "") salt, .sharedAb (password.getD "")⟩ := by
  cases password with
  | none => exact absurd rfl hp
  | some q => exact if_neg (by simpa using hp)

theorem peerConfig_empty (ch : Choice) : ch.peerConfig [] = ch := by
  simp [peerConfig]

/-- A password found is kept by the candidates after it. -/
theorem keep (c : Client) (env : ClientEnv) (hch : ch.password ≠ []) (password : Bytes)
    (id salt : String) :
    ((ch.peerConfig password).personalAb c env id).defaultConnect c env salt = ch := by
  have hne : ch.password.isEmpty = false := by simpa using hch
  have hconfig : ch.peerConfig password = ch := by simp [peerConfig, hne]
  have hab : ch.personalAb c env id = ch := by simp [personalAb, hne]
  rw [hconfig, hab]
  simp [defaultConnect, hne]

end Choice

namespace LoginConfigHandler

def last (lc : LoginConfigHandler) : Choice := ⟨lc.password, lc.passwordSource⟩

/-- Last password, preset, shared, peer configuration, personal address book and the default
    connect password, in this order. -/
def choose (c : Client) (env : ClientEnv) (passwordPreset salt : String)
    (lc : LoginConfigHandler) : Choice :=
  lc.last.preset c passwordPreset salt
    |>.shared c lc.sharedPassword salt
    |>.peerConfig lc.config.password
    |>.personalAb c env lc.id
    |>.defaultConnect c env salt

/-- `handle_hash`. -/
def handleHash (c : Client) (env : ClientEnv) (passwordPreset : String) (hash : Hash)
    (lc : LoginConfigHandler) : Reply :=
  match lc.switchUuid.bind c.uuidFromStr with
  | some uuid =>
    let lc := { lc with hash := hash, switchUuid := none }
    { lc := { lc with passwordSource := .undefined }
      sent := some (.switchSidesResponse uuid (lc.createLoginMsg env "" "" [])) }
  | none =>
    let ch := lc.choose c env passwordPreset hash.salt
    let lc := { lc with
      hash := hash, switchUuid := none, sharedPassword := none
      password := ch.password, passwordSource := ch.source }
    if lc.connType == .terminal && lc.isTerminalAdmin then
      -- the operating system's user has to log in first
      let box := if ch.password.isEmpty then "terminal-admin-login-password"
        else "terminal-admin-login"
      { lc := lc, msgbox := some (box, "") }
    else
      let osUsername := if lc.connType == .terminal then "" else lc.getOption "os-username"
      let osPassword := if lc.connType == .terminal then "" else lc.getOption "os-password"
      if ch.password.isEmpty then
        -- login without password, the remote side can click accept
        { lc := lc
          sent := some (.loginRequest (lc.createLoginMsg env osUsername osPassword []))
          msgbox := some ("input-password", "Password Required") }
      else
        let answer := c.sha256 (ch.password ++ asBytes hash.challenge)
        { lc := lc
          sent := some (.loginRequest (lc.createLoginMsg env osUsername osPassword answer)) }

/-- `handle_login_from_ui`: with nothing typed, the last or the remembered hash answers, be it
    empty. -/
def handleLoginFromUi (c : Client) (env : ClientEnv) (osUsername osPassword password : String)
    (remember : Bool) (lc : LoginConfigHandler) : Reply :=
  let lc :=
    if password.isEmpty then
      if lc.password.isEmpty then
        if lc.config.password.isEmpty then lc
        else { lc with password := lc.config.password, passwordSource := .undefined }
      else lc
    else { lc with
      password := c.h1 password lc.hash.salt, passwordSource := .undefined, remember := remember }
  let answer := c.sha256 (lc.password ++ asBytes lc.hash.challenge)
  { lc := lc, sent := some (.loginRequest (lc.createLoginMsg env osUsername osPassword answer)) }

/-- `handle_login_error`. -/
def handleLoginError (stored : PeerConfig) (err : String) (lc : LoginConfigHandler) :
    LoginConfigHandler :=
  if err = "Empty Password" then { lc with password := [] }
  else if err = "Wrong Password" then { lc with password := [] }
  else if err = "Wrong 2FA Code" ∨ err = "2FA Required" then
    if lc.getOption "trust-this-device" = "Y" then lc.setOption stored "trust-this-device" ""
    else lc
  else lc

/-! ## After the login -/

/-- The password the configuration is saved with. -/
def rememberedPassword (c : Client) (stored : PeerConfig) (lc : LoginConfigHandler) : Bytes :=
  if lc.remember then
    if !lc.password.isEmpty && lc.password != stored.password &&
        !lc.passwordSource.isSharedAb c lc.password lc.hash then lc.password
    else stored.password
  else if lc.passwordSource.isPersonalAb lc.password then lc.password
  else []

/-- The options `handle_peer_info` notes: how the peer was reached. -/
def notedOptions (stored : PeerConfig) (lc : LoginConfigHandler) : PeerConfig :=
  let config := match lc.otherServer with
    | some (_, server, key) =>
      if server = "public" then stored else stored.setOption "other-server-key" key
    | none => stored
  if lc.forceRelay then config.setOption "force-always-relay" "Y" else config

/-- What goes to the personal address book of the main window: the peer and the saved hash. -/
def syncToPersonalAb (c : Client) (saved : Bytes) (lc : LoginConfigHandler) :
    Option (String × Bytes) :=
  if c.flutter && !saved.isEmpty && !lc.passwordSource.isSharedAb c lc.password lc.hash &&
      !lc.passwordSource.isPersonalAb lc.password then some (lc.id, saved)
  else none

/-- `handle_peer_info`: the handler, which has the saved configuration, and the event
    `sync_peer_hash_password_to_personal_ab`. -/
def handlePeerInfo (c : Client) (stored : PeerConfig) (lc : LoginConfigHandler) :
    LoginConfigHandler × Option (String × Bytes) :=
  let password := lc.rememberedPassword c stored
  ({ lc with config := { lc.notedOptions stored with password := password } },
    lc.syncToPersonalAb c password)

end LoginConfigHandler

/-! ## A client for the examples -/

/-- A client that knows the digests of the given inputs. -/
def Client.sample (digests : List (Bytes × Bytes)) : Client where
  flutter := true
  sha256 := Digest.ofTable digests
  base64Decode := fun _ => none
  uuidFromStr := fun _ => none

/-- A client without an account or a default connect password. -/
def ClientEnv.sample : ClientEnv where
  accessToken := ""
  ab := ⟨"", []⟩
  defaultConnectPassword := ""
  configId := "111222333"
  rendezvousServer := "rs.example.com:21116"
  displayName := "Guest"
  avatar := ""
  platform := "Linux"
  version := "1.4.0"
  hwid := []
  optionMessage := none
  remoteDir := ""

def PeerConfig.sample : PeerConfig := ⟨[], fun _ => ""⟩

/-- A new session with the machine of the examples. -/
def LoginConfigHandler.sample (config : PeerConfig) (sharedPassword : Option String) :
    LoginConfigHandler :=
  .init "445566778" .defaultConn none false none sharedPassword none false ⟨"", 0⟩ 7 config

end LuodaRemote
