/-
  The controlled machine as a connection sees it: what is fixed for the process (`Host`)
  and what is read anew whenever a message is handled (`Env`).

  `Host` holds the build (`cfg` target and features, desktop targets only), the built-in
  settings and the functions of third-party crates: `sha2::Sha256`, the base64 decoder of
  `sodiumoxide` and the two address regexes of `hbb_common`. Nothing is assumed about them
  except where a theorem says so.

  `Env` holds the clocks, the options and passwords of `Config`, and the outcome of every
  system call the handlers make (the TCP connect of a port forward, the headless desktop,
  the display list, the terminal user). A run supplies one `Env` for each step and no two
  of them need agree.

  Source: `libs/hbb_common/src/password_security.rs`, `config.rs` (`option2bool`,
  `decode_permanent_password_h1_from_storage`), `src/common.rs` (`get_control_permission`,
  `str2color`) and `Connection::permission`, `validate_*` of `src/server/connection.rs`.
-/
import LuodaRemote.Message

namespace LuodaRemote

inductive TargetOs where
  | windows
  | linux
  | macos
  deriving DecidableEq

structure Host where
  targetOs : TargetOs
  /-- `feature = "flutter"`. -/
  flutter : Bool
  /-- `feature = "unix-file-copy-paste"`. -/
  unixFileCopyPaste : Bool
  sha256 : Bytes → Bytes
  base64Decode : Bytes → Option Bytes
  isIpStr : String → Bool
  isDomainPortStr : String → Bool
  /-- `get_builtin_option`: `BUILTIN_SETTINGS`, empty where absent. -/
  builtinOption : String → String
  /-- `HARD_SETTINGS["password"]`, empty where absent. -/
  hardPassword : String
  /-- `display_service::PRIMARY_DISPLAY_IDX`. -/
  primaryDisplayIdx : Nat
  /-- The modifier a key event stands for: `keycode_to_rdev_key` filtered by
      `keyboard::is_modifier`. -/
  modifierKey : KeyEvent → Option Nat
  /-- `crate::is_modifier`. -/
  isModifier : KeyEvent → Bool

structure TrustedDevice where
  hwid : Bytes
  time : Int
  id : String
  name : String
  platform : String
  deriving DecidableEq

inductive TerminalUserToken where
  | selfUser
  | currentLogonUser (token : Nat)
  deriving DecidableEq

/-- `to_terminal_service_token().is_some()`. -/
def TerminalUserToken.hasServiceToken : TerminalUserToken → Bool
  | selfUser => false
  | currentLogonUser _ => true

structure Env where
  /-- `Instant::now()`, in milliseconds. -/
  now : Nat
  /-- `get_time()`: the wall clock in milliseconds since the epoch. -/
  getTime : Int
  /-- `Config::get_option`. -/
  getOption : String → String
  /-- `Config::get_id`. -/
  getId : String
  /-- `password::temporary_password`. -/
  temporaryPassword : String
  /-- `Config::get_local_permanent_password_storage_and_salt`, its first part. -/
  localPermanentPasswordStorage : String
  trustedDevices : List TrustedDevice
  /-- `totp.check_current`; `none` is its `Err`. -/
  totpCheckCurrent : String → Option Bool
  /-- Whether `TcpStream::connect` to the address succeeds within three seconds. -/
  tcpConnect : String → Bool
  isInPrivacyMode : Bool
  /-- `linux_headless_handle.try_start_desktop`, read on Linux only. -/
  tryStartDesktop : String
  isPrelogin : Bool
  isLocked : Bool
  isLogonUi : Bool
  isInstalled : Bool
  /-- The outcome of `fill_terminal_user_token` on Windows. -/
  fillTerminalUserToken : Except String TerminalUserToken
  /-- `terminal_service::is_service_specified_user`. -/
  isServiceSpecifiedUser : String → Option Bool
  /-- Linux: the text of the login error for an unusable display server, else empty. -/
  displayServerError : String
  /-- The error of `update_get_sync_displays_on_login`, if it fails. -/
  syncDisplaysError : Option String
  primaryCameraExists : Bool
  /-- Windows: `on_message` switches the process to another user session on `SelectedSid`. -/
  switchesUserSession : Nat → Bool
  /-- Windows: `get_current_process_session_id` is known. -/
  hasProcessSid : Bool

/-! ## Passwords and approval -/

inductive VerificationMethod where
  | onlyUseTemporaryPassword
  | onlyUsePermanentPassword
  | useBothPasswords
  deriving DecidableEq

inductive ApproveMode where
  | both
  | password
  | click
  deriving DecidableEq

def verificationMethod (env : Env) : VerificationMethod :=
  let method := env.getOption "verification-method"
  if method = "use-temporary-password" then .onlyUseTemporaryPassword
  else if method = "use-permanent-password" then .onlyUsePermanentPassword
  else .useBothPasswords

def temporaryEnabled (env : Env) : Bool :=
  verificationMethod env != .onlyUsePermanentPassword

def permanentEnabled (env : Env) : Bool :=
  verificationMethod env != .onlyUseTemporaryPassword

def hasPermanentPassword (h : Host) (env : Env) : Bool :=
  !env.localPermanentPasswordStorage.isEmpty || !h.hardPassword.isEmpty

def hasValidPassword (h : Host) (env : Env) : Bool :=
  temporaryEnabled env && !env.temporaryPassword.isEmpty ||
    permanentEnabled env && hasPermanentPassword h env

def approveMode (env : Env) : ApproveMode :=
  let mode := env.getOption "approve-mode"
  if mode = "password" then .password
  else if mode = "click" then .click
  else .both

/-- The closure `is_logon` of `on_message`. -/
def isLogon (h : Host) (env : Env) : Bool :=
  match h.targetOs with
  | .windows => env.isPrelogin || env.isLocked || env.isLogonUi
  | .linux | .macos => env.isPrelogin || env.isLocked

/-- Approve mode Click, outside the logon-screen exception: passwords are not looked at. -/
def clickOnly (h : Host) (env : Env) : Bool :=
  approveMode env == .click &&
    !(h.builtinOption "allow-logon-screen-password" == "Y" && isLogon h env)

/-! ## Password verification -/

/-- `constant_time_eq`: the lengths, then the or of all byte differences. -/
def constantTimeEq (a b : Bytes) : Bool :=
  if a.length ≠ b.length then false
  else (List.zipWith (· ^^^ ·) a b).foldl (· ||| ·) 0 == 0

def verifyH1 (h : Host) (hash : Hash) (lr : LoginRequest) (h1 : Bytes) : Bool :=
  constantTimeEq (h.sha256 (h1 ++ asBytes hash.challenge)) lr.password

def validatePasswordPlain (h : Host) (hash : Hash) (lr : LoginRequest) (password : String) :
    Bool :=
  if password.isEmpty then false
  else verifyH1 h hash lr (h.sha256 (asBytes password ++ asBytes hash.salt))

/-- Hashed storage is the prefix `"01"` and 32 bytes in base64. -/
def decodePermanentPasswordH1FromStorage (h : Host) (storage : String) : Option Bytes :=
  match (asBytes storage) with
  | 48 :: 49 :: encoded =>
    match h.base64Decode encoded with
    | some v => if v.length = 32 then some v else none
    | none => none
  | _ => none

def validatePasswordStorage (h : Host) (hash : Hash) (lr : LoginRequest) (storage : String) :
    Bool :=
  if storage.isEmpty then false
  else match decodePermanentPasswordH1FromStorage h storage with
    | some h1 => verifyH1 h hash lr h1
    | none => validatePasswordPlain h hash lr storage

/-- The first half of `validate_password`: the temporary password, if it is enabled. -/
def validateTemporary (h : Host) (env : Env) (hash : Hash) (lr : LoginRequest) : Bool :=
  temporaryEnabled env && validatePasswordPlain h hash lr env.temporaryPassword

/-- The second half: the stored permanent password, or the preset one if none is stored. -/
def validatePermanent (h : Host) (env : Env) (hash : Hash) (lr : LoginRequest) : Bool :=
  permanentEnabled env &&
    if env.localPermanentPasswordStorage.isEmpty then
      !h.hardPassword.isEmpty && validatePasswordPlain h hash lr h.hardPassword
    else validatePasswordStorage h hash lr env.localPermanentPasswordStorage

/-! ## Permissions -/

/-- The `enable-*` options that `Connection::permission` maps to a control permission. -/
inductive EnableOption where
  | keyboard
  | remotePrinter
  | clipboard
  | fileTransfer
  | audio
  | camera
  | terminal
  | tunnel
  | remoteRestart
  | recordSession
  | blockInput
  deriving DecidableEq

def EnableOption.key : EnableOption → String
  | keyboard => "enable-keyboard"
  | remotePrinter => "enable-remote-printer"
  | clipboard => "enable-clipboard"
  | fileTransfer => "enable-file-transfer"
  | audio => "enable-audio"
  | camera => "enable-camera"
  | terminal => "enable-terminal"
  | tunnel => "enable-tunnel"
  | remoteRestart => "enable-remote-restart"
  | recordSession => "enable-record-session"
  | blockInput => "enable-block-input"

/-- The number of the matching `control_permissions::Permission`. -/
def EnableOption.index : EnableOption → Nat
  | keyboard => 0
  | remotePrinter => 1
  | clipboard => 2
  | fileTransfer => 3
  | audio => 4
  | camera => 5
  | terminal => 6
  | tunnel => 7
  | remoteRestart => 8
  | recordSession => 9
  | blockInput => 10

/-- Two bits a permission: 1 disables, 2 enables, 0 and 3 leave it open. -/
def getControlPermission (permissions : BitVec 64) (index : Nat) : Option Bool :=
  if index < 32 then
    let value := (permissions >>> (index * 2)) &&& 3
    if value = 1 then some false
    else if value = 2 then some true
    else none
  else none

def option2bool (option value : String) : Bool :=
  if "enable-".toList.isPrefixOf option.toList then value != "N"
  else if "allow-".toList.isPrefixOf option.toList || option == "stop-service" ||
      option == "direct-server" || option == "force-always-relay" then value == "Y"
  else value != "N"

def isPermissionEnabledLocally (h : Host) (env : Env) (o : EnableOption) : Bool :=
  if h.flutter && env.getOption "access-mode" == "full" then true
  else if h.flutter && env.getOption "access-mode" == "view" then false
  else option2bool o.key (env.getOption o.key)

def permission (h : Host) (env : Env) (o : EnableOption)
    (controlPermissions : Option (BitVec 64)) : Bool :=
  match controlPermissions with
  | some cp =>
    match getControlPermission cp o.index with
    | some enabled => enabled
    | none => isPermissionEnabledLocally h env o
  | none => isPermissionEnabledLocally h env o

/-! ## Small helpers of `on_message` -/

def enableTrustedDevices (env : Env) : Bool :=
  option2bool "enable-trusted-devices" (env.getOption "enable-trusted-devices")

def TrustedDevice.outdate (d : TrustedDevice) (env : Env) : Bool :=
  decide (d.time + 90 * 24 * 60 * 60 * 1000 < env.getTime)

/-- `str2color`: a 31-multiplier hash cut to 24 bits, one bit cleared, under `alpha`. -/
def str2color (s : String) (alpha : BitVec 8) : BitVec 32 :=
  let hash := (asBytes s).foldl (fun (hash : BitVec 32) byte =>
    BitVec.ofNat 32 byte.toNat + ((hash <<< 5) - hash)) 0
  ((alpha.setWidth 32) <<< 24) ||| ((hash % 16777216) &&& 0xFF7FFF)

/-- The colour a peer's cursor is drawn in. -/
def LoginRequest.argb (lr : LoginRequest) : BitVec 32 :=
  str2color (lr.myId ++ lr.myPlatform) 0xff

/-- `i64::from_str` on digits with an optional sign, `unwrap_or(0)`. -/
def parseI64 (s : List Char) : Int :=
  let digits (cs : List Char) : Option Nat :=
    if cs.isEmpty then none
    else cs.foldl (fun acc c => acc.bind fun n =>
      if c.isDigit then some (n * 10 + (c.toNat - 48)) else none) (some 0)
  let value : Option Int := match s with
    | '-' :: cs => (digits cs).map fun n => -(n : Int)
    | '+' :: cs => (digits cs).map Int.ofNat
    | cs => (digits cs).map Int.ofNat
  match value with
  | some n => if -(2 ^ 63) ≤ n ∧ n < 2 ^ 63 then n else 0
  | none => 0

/-- `1.1.10 -> 1001100`: the last number of the first part counts tenfold, and a second
    part after `-` is added. -/
def getVersionNumber (v : String) : Int :=
  let parts := v.toList.splitOn '-'
  let nums := ((parts.getD 0 []).splitOn '.').map parseI64
  let n := nums.foldl (fun n x => n * 1000 + x) 0
  let last := nums.getLastD 0
  let base := n - last + last * 10
  match parts[1]? with
  | some p => base + parseI64 p
  | none => base

def isSupportMultiUiSession (ver : String) : Bool :=
  decide (getVersionNumber "1.2.4" ≤ getVersionNumber ver)

example : getVersionNumber "1.2.4" = 1002040 := by decide +kernel

/-- An RDP request names no port, and an empty host is the machine itself. -/
def normalizePortForwardTarget (pf : PortForward) : String × Bool :=
  let isRdp := pf.host == "RDP" && pf.port == 0
  let pf := if isRdp then ⟨"localhost", 3389⟩ else pf
  let host := if pf.host.isEmpty then "localhost" else pf.host
  (host ++ ":" ++ toString pf.port, isRdp)

/-- A negative `i32` display number wraps to a huge `usize`. -/
def asUsize (display : Int) : Nat := (display % 2 ^ 64).toNat

/-! ## A machine for the examples -/

/-- `sha256("abc123" ++ "k3w7zd")`. -/
def sampleH1 : Bytes :=
  [236, 156, 158, 191, 160, 177, 105, 200, 254, 100, 12, 43, 6, 158, 223, 27, 204, 26, 141, 41,
    33, 170, 61, 19, 228, 55, 254, 95, 34, 110, 59, 229]

/-- `sha256(sampleH1 ++ "p9x2mt")`, the answer to the challenge of `Hash.sample`. -/
def sampleAnswer : Bytes :=
  [203, 167, 76, 207, 12, 190, 129, 91, 239, 168, 232, 75, 78, 153, 178, 39, 37, 191, 1, 25, 99,
    136, 211, 118, 83, 174, 220, 239, 74, 155, 228, 162]

def Hash.sample : Hash := ⟨"k3w7zd", "p9x2mt"⟩

/-- A Windows machine without presets. Of SHA-256 it knows the two digests the temporary
    password `abc123` needs. -/
def Host.sample : Host where
  targetOs := .windows
  flutter := true
  unixFileCopyPaste := false
  sha256 := fun b =>
    if b = asBytes "abc123" ++ asBytes Hash.sample.salt then sampleH1
    else if b = sampleH1 ++ asBytes Hash.sample.challenge then sampleAnswer
    else []
  base64Decode := fun _ => none
  isIpStr := fun _ => false
  isDomainPortStr := fun _ => false
  builtinOption := fun _ => ""
  hardPassword := ""
  primaryDisplayIdx := 0
  modifierKey := fun _ => none
  isModifier := fun _ => false

/-- The same with a build for Linux that can copy and paste files. -/
def Host.sampleLinux : Host :=
  { Host.sample with targetOs := .linux, unixFileCopyPaste := true }

/-- That machine with all options as they come, its user logged in. -/
def Env.sample : Env where
  now := 1000
  getTime := 1700000000000
  getOption := fun _ => ""
  getId := "445566778"
  temporaryPassword := "abc123"
  localPermanentPasswordStorage := ""
  trustedDevices := []
  totpCheckCurrent := fun _ => none
  tcpConnect := fun _ => true
  isInPrivacyMode := false
  tryStartDesktop := ""
  isPrelogin := false
  isLocked := false
  isLogonUi := false
  isInstalled := true
  fillTerminalUserToken := .ok .selfUser
  isServiceSpecifiedUser := fun _ => none
  displayServerError := ""
  syncDisplaysError := none
  primaryCameraExists := true
  switchesUserSession := fun _ => false
  hasProcessSid := false

/-- A minute and a half later, with another temporary password. -/
def Env.sampleLater : Env :=
  { Env.sample with now := 100000, temporaryPassword := "xyz789" }

/-- A login from the peer `id` to that machine, with no password. -/
def LoginRequest.sample (id : String) : LoginRequest where
  username := "445566778"
  myId := id
  myName := "guest"
  version := "1.4.0"

example : validateTemporary .sample .sample .sample
    { LoginRequest.sample "111222333" with password := sampleAnswer } = true := by decide +kernel

end LuodaRemote
