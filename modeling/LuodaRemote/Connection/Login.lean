/-
  Logging in: `handle_login_request_without_validation`, the checks `on_message` makes on a
  `LoginRequest`, and `send_logon_response_and_keep_alive`, the one place that sets
  `authorized`.

  A handler returns the new state and whether the connection is kept alive. The main
  results are inversions. `logon_cases`: the logon response leaves the connection as it
  was, ends it, or authorizes it. `loginCredential_cases`: after the checks on the request
  the credential stage either only answers, or logs on with a credential that was just
  verified.
-/
import LuodaRemote.Connection.Options

namespace LuodaRemote

namespace World

/-! ## The login request is stored -/

/-- Trusted devices let their owner skip the 2FA code. -/
def trustedDevice (env : Env) (lr : LoginRequest) : Bool :=
  !lr.hwid.isEmpty && enableTrustedDevices env &&
    match env.trustedDevices.find? fun d => d.hwid == lr.hwid with
    | some d => !d.outdate env && d.id == lr.myId && d.name == lr.myName &&
        d.platform == lr.myPlatform
    | none => false

def handleLoginRequestWithoutValidation (env : Env) (lr : LoginRequest) (w : World) : World :=
  { w with conn := { w.conn with
      lr := lr
      peerArgb := lr.argb
      optionsInLogin := lr.option.or w.conn.optionsInLogin
      require2fa := w.conn.require2fa && !trustedDevice env lr
      videoAckRequired := lr.videoAckRequired } }

/-- The request a connection holds, what is derived from it, and the uuids on offer. -/
def request (w : World) :
    LoginRequest × BitVec 32 × Option OptionMessage × Bool × (String → Option (Nat × Uuid)) :=
  (w.conn.lr, w.conn.peerArgb, w.conn.optionsInLogin, w.conn.require2fa, w.glob.switchSidesUuid)

/-! ## The kind that is asked for -/

/-- The token `fill_terminal_user_token` finds, or the text it refuses with. -/
def terminalToken (h : Host) (env : Env) : Except String TerminalUserToken :=
  if h.targetOs = .windows then env.fillTerminalUserToken else .ok .selfUser

/-- The `Terminal` arm of `on_message`, after the permission check. -/
def loginTerminal (h : Host) (env : Env) (lr : LoginRequest) (serviceId : String) (w : World) :
    World × Bool :=
  if h.targetOs = .windows ∧ lr.osLogin.username ≠ "" ∧ ¬env.isInstalled then
    (w.sendLoginError env "Supported only in the installed version.", false)
  else
    let w := { w with conn := { w.conn with
      terminal := true
      terminalPersistent := match w.conn.optionsInLogin with
        | some o => o.terminalPersistent == BoolOption.yes
        | none => w.conn.terminalPersistent
      terminalServiceId := serviceId } }
    match terminalToken h env with
    | .error msg => (w.sendLoginError env msg, false)
    | .ok token =>
      let w := { w with conn := { w.conn with terminalUserToken := some token } }
      match env.isServiceSpecifiedUser serviceId with
      | some isUser =>
        if isUser = token.hasServiceToken then (w, true)
        else (w.sendLoginError env "Terminal service user mismatch detected.", false)
      | none => (w, true)

/-- `match lr.union`: each kind has its permission and leaves its mark on the connection. -/
def loginUnion (h : Host) (env : Env) (lr : LoginRequest) (w : World) : World × Bool :=
  match lr.union with
  | some (.fileTransfer dir showHidden) =>
    if permission h env .fileTransfer w.conn.controlPermissions then
      ({ w with conn := { w.conn with fileTransfer := some (dir, showHidden) } }, true)
    else (w.sendLoginError env "No permission of file transfer", false)
  | some .viewCamera =>
    if permission h env .camera w.conn.controlPermissions then
      ({ w with conn := { w.conn with viewCamera := true } }, true)
    else (w.sendLoginError env "No permission of viewing camera", false)
  | some (.terminal serviceId) =>
    if permission h env .terminal w.conn.controlPermissions then
      w.loginTerminal h env lr serviceId
    else (w.sendLoginError env "No permission of terminal", false)
  | some (.portForward pf) =>
    if permission h env .tunnel w.conn.controlPermissions then
      ({ w with conn := { w.conn with
          portForwardAddress := (normalizePortForwardTarget pf).1 } }, true)
    else (w.sendLoginError env "No permission of IP tunneling", false)
  | none =>
    if env.isInPrivacyMode then
      (w.sendLoginError env "Someone turns on privacy mode, exit", false)
    else (w, true)

/-! ## Authorization -/

def connectPortForwardIfNeeded (env : Env) (w : World) : World × Bool :=
  if w.conn.portForwardSocket.isSome then (w, true)
  else match w.conn.lr.union with
    | some (.portForward pf) =>
      let (addr, isRdp) := normalizePortForwardTarget pf
      let w := { w with conn := { w.conn with portForwardAddress := addr } }
      if env.tcpConnect addr then
        ({ w with conn := { w.conn with portForwardSocket := some addr } }, true)
      else
        let shown := if isRdp then "RDP" else addr
        (w.sendLoginError env ("Failed to access remote " ++ shown ++
          ". Please make sure it is reachable/open."), false)
    | _ => (w, true)

/-- `authorized = true`, the entry in `AUTHED_CONNS`, and the session's receive time. -/
def authorize (w : World) : World where
  conn := { w.conn with
    authorized := true
    authedConnId := some w.conn.authConnType
    sessionLastRecvTime := (w.glob.sessions w.conn.sessionKey).map (·.lastRecvTime) }
  glob := { w.glob with
    authedConns := w.glob.authedConns ++
      [⟨w.conn.id, w.conn.authConnType, w.conn.sessionKey⟩] }

/-- The services a remote connection starts without. -/
def noperms (h : Host) (f : Flags) : List ServiceName :=
  (if f.cursorEnabled then [] else [.cursor]) ++
  (if f.showRemoteCursor then [] else [.pos]) ++
  (if f.followRemoteWindow then [] else [.windowFocus]) ++
  (if f.canSubClipboardService h then [] else [.clipboard]) ++
  (if h.unixFileCopyPaste && !f.canSubFileClipboardService h then [.fileClipboard] else []) ++
  (if f.audioEnabled then [] else [.audio])

def trySubMonitorServices (h : Host) (w : World) : World :=
  if w.conn.isRemote && !w.conn.servicesSubed then
    { conn := { w.conn with servicesSubed := true }
      glob := { w.glob with
        server := (w.glob.server.tryAddPrimayVideoService h).addConnection h w.conn.id
          (noperms h w.conn.flags) } }
  else w

def trySubCameraDisplays (env : Env) (w : World) : World :=
  { w with glob := { w.glob with server := w.glob.server.addCameraConnection env w.conn.id } }

/-- `if let Some(o) = self.options_in_login.take()`. -/
def takeOptionsInLogin (h : Host) (w : World) : World :=
  match w.conn.optionsInLogin with
  | some o => updateOptions h o { w with conn := { w.conn with optionsInLogin := none } }
  | none => w

def keyboardOff (w : World) : World := w.setFlags fun f => { f with keyboard := false }

/-- The rest of `send_logon_response_and_keep_alive`, once `authorized` is set. -/
def afterLogin (h : Host) (env : Env) (w : World) : World :=
  if w.conn.portForwardSocket.isSome then w.send .peerInfo
  else if h.targetOs = .linux ∧ w.conn.isRemote ∧ env.displayServerError ≠ "" then
    w.send (.loginError env.displayServerError false)
  else if w.conn.fileTransfer.isSome then (w.send .peerInfo).takeOptionsInLogin h
  else if w.conn.terminal then ((w.send .peerInfo).takeOptionsInLogin h).keyboardOff
  else if w.conn.viewCamera then
    (((w.send .peerInfo).takeOptionsInLogin h).trySubCameraDisplays env).keyboardOff.send
      (.permission .keyboard false)
  else match env.syncDisplaysError with
    | some err => (w.send (.loginError err false)).takeOptionsInLogin h
    | none => ((w.send .peerInfo).takeOptionsInLogin h).trySubMonitorServices h

/-- `send_logon_response_and_keep_alive`. -/
def logon (h : Host) (env : Env) (w : World) : World × Bool :=
  if w.conn.authorized then (w, true)
  else if w.conn.require2fa && !w.isRecentSession h true && !w.conn.fromSwitch then
    (w.sendLoginError env require2faText, true)
  else match w.connectPortForwardIfNeeded env with
    | (w, true) => (w.authorize.afterLogin h env, true)
    | (w, false) => (w, false)

/-! ## The credential -/

/-- `validate_password`; a temporary password is remembered for the session. -/
def validatePassword (h : Host) (env : Env) (w : World) : World × Bool :=
  if validateTemporary h env w.conn.hash w.conn.lr then
    let password := some env.temporaryPassword
    ({ w with
        glob := w.glob.updateOrInsertSession env.now w.conn.sessionKey password (some false) },
      true)
  else (w, validatePermanent h env w.conn.hash w.conn.lr)

def setFailures (i : Fin 2) (m : FailureMap) (w : World) : World :=
  { w with glob := { w.glob with loginFailures := Function.update w.glob.loginFailures i m } }

def checkFailure (i : Fin 2) (env : Env) (w : World) : CheckResult :=
  LuodaRemote.checkFailure (w.glob.loginFailures i) w.conn.ip env.getTime

/-- `check_failure(0)`: the password attempts. -/
def checkPasswordFailure (env : Env) (w : World) : CheckResult := w.checkFailure 0 env

def updateFailure (i : Fin 2) (r : CheckResult) (remove : Bool) (w : World) : World :=
  w.setFailures i (LuodaRemote.updateFailure (w.glob.loginFailures i) w.conn.ip r.failure r.time
    remove)

/-- Log on, and tell the connection manager how it went. -/
def logonAndStartCm (h : Host) (env : Env) (lr : LoginRequest) (w : World) : World × Bool :=
  match w.logon h env with
  | (w, true) => (w.tryStartCm lr.myId lr.myName w.conn.authorized, true)
  | (w, false) => (w, false)

def desktopSessionNotReady : String := "Desktop session not ready"

/-- The password attempt, `check_failure(0)` to `update_failure(.., 0)`. `errMsg` is what the
    headless desktop of a Linux machine answered. -/
def loginPassword (h : Host) (env : Env) (lr : LoginRequest) (errMsg : String) (w : World) :
    World × Bool :=
  let r := w.checkPasswordFailure env
  match r.error with
  | some err => (w.sendLoginError env err, true)
  | none =>
    match w.validatePassword h env with
    | (w, false) =>
      let w := w.updateFailure 0 r false
      if errMsg = "" then
        ((w.sendLoginError env "Wrong Password").tryStartCm lr.myId lr.myName false, true)
      else (w.sendLoginError env "Desktop session not ready, password wrong", true)
    | (w, true) =>
      let w := w.updateFailure 0 r true
      if errMsg = "" then w.logonAndStartCm h env lr
      else (w.sendLoginError env errMsg, true)

/-- From the check of `lr.username` to the end of the `LoginRequest` branch. -/
def loginCredential (h : Host) (env : Env) (lr : LoginRequest) (errMsg : String) (w : World) :
    World × Bool :=
  if !h.isIpStr lr.username && !h.isDomainPortStr lr.username && lr.username != env.getId then
    (w.sendLoginError env "Offline", false)
  else if clickOnly h env || approveMode env == .both && !hasValidPassword h env then
    let w := w.tryStartCm lr.myId lr.myName false
    (if getVersionNumber "1.2.0" ≤ getVersionNumber lr.version then
      w.sendLoginError env "No Password Access" else w, true)
  else if w.isRecentSession h false then
    if errMsg = "" then w.logonAndStartCm h env lr else (w.sendLoginError env errMsg, true)
  else if lr.password.isEmpty then
    if errMsg = "" then (w.tryStartCm lr.myId lr.myName false, true)
    else (w.sendLoginError env "Desktop session not ready, password empty", true)
  else w.loginPassword h env lr errMsg

/-- `try_start_desktop`, which exists on Linux only. -/
def desktopError (h : Host) (env : Env) : String :=
  if h.targetOs = .linux then env.tryStartDesktop else ""

/-- The `LoginRequest` branch of `on_message`. -/
def onLoginRequest (h : Host) (env : Env) (lr : LoginRequest) (w : World) : World × Bool :=
  let w := w.handleLoginRequestWithoutValidation env lr
  if w.conn.authorized then (w, true)
  else match w.loginUnion h env lr with
    | (w, false) => (w, false)
    | (w, true) =>
      let w := { w with conn := { w.conn with cmIpcStarted := true } }
      let errMsg := desktopError h env
      if errMsg ≠ "" ∧ errMsg ≠ desktopSessionNotReady then
        (w.sendLoginError env errMsg, true)
      else w.loginCredential h env lr errMsg

/-- The `Auth2fa` branch. The devices a code makes trusted are kept by `Config`. -/
def onAuth2fa (h : Host) (env : Env) (code : String) (w : World) : World × Bool :=
  let r := w.checkFailure 1 env
  match r.error with
  | some err => (w.sendLoginError env err, true)
  | none =>
    if w.conn.require2fa then
      match env.totpCheckCurrent code with
      | some true =>
        let w := w.updateFailure 1 r true
        let w := { w with
          conn := { w.conn with require2fa := false }
          glob := w.glob.setSession2fa env.now w.conn.sessionKey }
        w.logonAndStartCm h env w.conn.lr
      | some false => ((w.updateFailure 1 r false).sendLoginError env "Wrong 2FA Code", true)
      | none => (w, true)
    else (w, true)

/-- How long a switch-sides uuid is good for, in milliseconds. -/
def switchSidesTimeout : Nat := 10000

/-- `SWITCH_SIDES_UUID.retain(..)`, then `remove(&lr.my_id)`. -/
def uuidsAfter (env : Env) (id : String) (w : World) : String → Option (Nat × Uuid) :=
  Function.update
    (fun id => (w.glob.switchSidesUuid id).filter fun v =>
      decide (env.now - v.1 < switchSidesTimeout)) id none

/-- The request is stored and the uuid taken before the two are compared. -/
def switching (env : Env) (lr : LoginRequest) (w : World) : World where
  conn := (w.handleLoginRequestWithoutValidation env lr).conn
  glob := { w.glob with switchSidesUuid := w.uuidsAfter env lr.myId }

/-- The logon of a peer whose uuid was right. -/
def logonFromSwitch (h : Host) (env : Env) (lr : LoginRequest) (w : World) : World × Bool :=
  match { w with conn := { w.conn with fromSwitch := true } }.logonAndStartCm h env lr with
  | (w, true) => ({ w with conn := { w.conn with cmIpcStarted := true } }, true)
  | (w, false) => (w, false)

/-- The `SwitchSidesResponse` branch, which only Flutter builds have. -/
def onSwitchSidesResponse (h : Host) (env : Env) (uuid : Bytes) (lr : Option LoginRequest)
    (w : World) : World × Bool :=
  match h.flutter, lr with
  | true, some lr =>
    let uuidOld := (w.glob.switchSidesUuid lr.myId).filter fun v =>
      decide (env.now - v.1 < switchSidesTimeout)
    let w := w.switching env lr
    match Uuid.fromSlice uuid, uuidOld with
    | some uuid, some (_, uuidOld) =>
      if uuid = uuidOld then w.logonFromSwitch h env lr else (w, true)
    | _, _ => (w, true)
  | _, _ => (w, true)

/-! ## Authorization, inverted -/

theorem connectPortForwardIfNeeded_cases (env : Env) (w : World) :
    (w.connectPortForwardIfNeeded env = (w, true) ∧
      (w.conn.portForwardSocket.isSome ∨ ∀ pf, w.conn.lr.union ≠ some (.portForward pf))) ∨
    (∃ pf, w.conn.portForwardSocket = none ∧ w.conn.lr.union = some (.portForward pf) ∧
      w.connectPortForwardIfNeeded env =
        ({ w with conn := { w.conn with
            portForwardAddress := (normalizePortForwardTarget pf).1
            portForwardSocket := some (normalizePortForwardTarget pf).1 } }, true)) ∨
    (∃ pf sent, w.conn.portForwardSocket = none ∧ w.conn.lr.union = some (.portForward pf) ∧
      w.connectPortForwardIfNeeded env =
        ({ w with conn := { w.conn with
            portForwardAddress := (normalizePortForwardTarget pf).1,
            toPeer := sent } }, false)) := by
  unfold connectPortForwardIfNeeded
  by_cases hs : w.conn.portForwardSocket.isSome
  · rw [if_pos hs]
    exact Or.inl ⟨rfl, Or.inl hs⟩
  · rw [if_neg hs]
    have hnone : w.conn.portForwardSocket = none := by simpa using hs
    split
    · rename_i pf hpf
      dsimp only
      split
      · exact Or.inr (Or.inl ⟨pf, hnone, hpf, rfl⟩)
      · exact Or.inr (Or.inr ⟨pf, _, hnone, hpf, rfl⟩)
    · rename_i hpf
      exact Or.inl ⟨rfl, Or.inr hpf⟩

@[simp] theorem loginView_takeOptionsInLogin (h : Host) (w : World) :
    (w.takeOptionsInLogin h).loginView = w.loginView := by
  unfold takeOptionsInLogin
  split
  · rw [loginView_updateOptions]
    rfl
  · rfl

@[simp] theorem loginView_trySubMonitorServices (h : Host) (w : World) :
    (w.trySubMonitorServices h).loginView = w.loginView := by
  unfold trySubMonitorServices
  split <;> rfl

/-- After `authorized` is set the login state does not change any more. -/
theorem loginView_afterLogin (h : Host) (env : Env) (w : World) :
    (w.afterLogin h env).loginView = w.loginView := by
  have hsend : ∀ (m : Outgoing) (w : World), (w.send m).loginView = w.loginView :=
    fun _ _ => rfl
  have hoff : ∀ w : World, w.keyboardOff.loginView = w.loginView := fun _ => rfl
  have hcamera : ∀ w : World, (w.trySubCameraDisplays env).loginView = w.loginView :=
    fun _ => rfl
  unfold afterLogin
  split_ifs
  · exact hsend _ _
  · exact hsend _ _
  · rw [loginView_takeOptionsInLogin, hsend]
  · rw [hoff, loginView_takeOptionsInLogin, hsend]
  · rw [hsend, hoff, hcamera, loginView_takeOptionsInLogin, hsend]
  · split
    · rw [loginView_takeOptionsInLogin, hsend]
    · rw [loginView_trySubMonitorServices, loginView_takeOptionsInLogin, hsend]

/-- The state in which `authorized` is set: as it was, or with the socket just opened. -/
def connected (w : World) : World :=
  match w.conn.portForwardSocket, w.conn.lr.union with
  | none, some (.portForward pf) =>
    { w with conn := { w.conn with
        portForwardAddress := (normalizePortForwardTarget pf).1
        portForwardSocket := some (normalizePortForwardTarget pf).1 } }
  | _, _ => w

/-- What `send_logon_response_and_keep_alive` can do. -/
theorem logon_cases (h : Host) (env : Env) (w : World) :
    (w.conn.authorized = true ∧ w.logon h env = (w, true)) ∨
    (w.conn.require2fa = true ∧ ∃ sent,
      w.logon h env = ({ w with conn := { w.conn with toPeer := sent } }, true)) ∨
    (w.conn.authorized = false ∧ ∃ addr sent, w.logon h env =
      ({ w with conn := { w.conn with portForwardAddress := addr, toPeer := sent } }, false)) ∨
    (w.conn.authorized = false ∧
      w.logon h env = (w.connected.authorize.afterLogin h env, true)) := by
  unfold logon
  by_cases ha : w.conn.authorized
  · rw [if_pos ha]
    exact Or.inl ⟨ha, rfl⟩
  · rw [if_neg ha]
    have ha : w.conn.authorized = false := by simpa using ha
    split
    · rename_i h2
      simp only [Bool.and_eq_true] at h2
      exact Or.inr (Or.inl ⟨h2.1.1, _, rfl⟩)
    · rcases connectPortForwardIfNeeded_cases env w with ⟨heq, hno⟩ | ⟨pf, hs, hu, heq⟩ |
        ⟨pf, sent, hs, hu, heq⟩
      · rw [heq]
        refine Or.inr (Or.inr (Or.inr ⟨ha, ?_⟩))
        have hconn : w.connected = w := by
          unfold connected
          split
          · rename_i pf hs hu
            rcases hno with hno | hno
            · rw [hs] at hno
              cases hno
            · exact absurd hu (hno pf)
          · rfl
        rw [hconn]
      · rw [heq]
        refine Or.inr (Or.inr (Or.inr ⟨ha, ?_⟩))
        unfold connected
        rw [hs, hu]
      · rw [heq]
        exact Or.inr (Or.inr (Or.inl ⟨ha, _, _, rfl⟩))

/-- The logon of a connection that is not authorized and owes no code. -/
theorem logonAndStartCm_cases (h : Host) (env : Env) (lr : LoginRequest) {w : World}
    (ha : w.conn.authorized = false) (h2 : w.conn.require2fa = false) :
    (∃ addr sent, w.logonAndStartCm h env lr =
      ({ w with conn := { w.conn with portForwardAddress := addr, toPeer := sent } }, false)) ∨
    w.logonAndStartCm h env lr =
      ((w.connected.authorize.afterLogin h env).tryStartCm lr.myId lr.myName true, true) := by
  have hset : (w.connected.authorize.afterLogin h env).conn.authorized = true := by
    have hview := congrArg (fun w : World => w.conn.authorized)
      (loginView_afterLogin h env w.connected.authorize)
    exact hview
  unfold logonAndStartCm
  rcases logon_cases h env w with ⟨h1, _⟩ | ⟨h1, _⟩ | ⟨_, addr, sent, heq⟩ | ⟨_, heq⟩
  · rw [ha] at h1
    cases h1
  · rw [h2] at h1
    cases h1
  · rw [heq]
    exact Or.inl ⟨addr, sent, rfl⟩
  · rw [heq]
    dsimp only
    rw [hset]
    exact Or.inr rfl

/-! ## The credential, inverted -/

/-- The password of the request answers this connection's challenge for a password that is
    valid now, or for the one its session was opened with. -/
def Verified (h : Host) (env : Env) (w : World) (lr : LoginRequest) : Prop :=
  validateTemporary h env w.conn.hash lr = true ∨ validatePermanent h env w.conn.hash lr = true ∨
    ∃ s, w.glob.sessions lr.sessionKey = some s ∧ lr.password ≠ [] ∧
      validatePasswordPlain h w.conn.hash lr s.randomPassword = true

theorem verified_of_isRecentSession {h : Host} {env : Env} {w : World}
    (hr : w.isRecentSession h false = true) : Verified h env w w.conn.lr := by
  unfold isRecentSession at hr
  split at hr
  · rename_i s hs
    simp only [Bool.and_eq_true, Bool.not_eq_true', Bool.false_and, Bool.not_false,
      Bool.true_and, Bool.false_or, List.isEmpty_eq_false_iff] at hr
    exact Or.inr (Or.inr ⟨s, hs, hr.1, hr.2⟩)
  · cases hr

/-- What an attempt may do to the shared state short of logging on: count failures, and
    remember a temporary password that was right. -/
def Attempted (h : Host) (env : Env) (w : World) (g : Globals) : Prop :=
  ∃ failures, g = { w.glob with loginFailures := failures } ∨
    (validateTemporary h env w.conn.hash w.conn.lr = true ∧
      g = { w.glob.updateOrInsertSession env.now w.conn.sessionKey
        (some env.temporaryPassword) (some false) with loginFailures := failures })

theorem attempted_refl (h : Host) (env : Env) (w : World) : Attempted h env w w.glob :=
  ⟨w.glob.loginFailures, Or.inl rfl⟩

/-- The sessions apart, an attempt keeps what the connections share. -/
theorem Attempted.glob_eq {h : Host} {env : Env} {w : World} {g : Globals}
    (hg : Attempted h env w g) :
    g.switchSidesUuid = w.glob.switchSidesUuid ∧ g.authedConns = w.glob.authedConns ∧
      g.server = w.glob.server := by
  obtain ⟨failures, rfl | ⟨_, rfl⟩⟩ := hg
  · exact ⟨rfl, rfl, rfl⟩
  · unfold Globals.updateOrInsertSession
    split <;> exact ⟨rfl, rfl, rfl⟩

theorem Attempted.steady {h : Host} {env : Env} {w : World} {g : Globals}
    (hg : Attempted h env w g) : (World.mk w.conn g).steady = w.steady := by
  obtain ⟨_, hauthed, hserver⟩ := hg.glob_eq
  unfold World.steady
  dsimp only
  rw [hauthed, hserver]

/-- The result of a handler that only answered. -/
def Answered (h : Host) (env : Env) (w : World) (r : World × Bool) : Prop :=
  ∃ sent shown g, Attempted h env w g ∧
    r.1 = ⟨{ w.conn with toPeer := sent, toCm := shown }, g⟩

theorem loginPassword_cases (h : Host) (env : Env) (lr : LoginRequest) (errMsg : String)
    (w : World) (hlr : w.conn.lr = lr) :
    Answered h env w (w.loginPassword h env lr errMsg) ∨
    (errMsg = "" ∧ Verified h env w lr ∧ ∃ g, Attempted h env w g ∧
      w.loginPassword h env lr errMsg = logonAndStartCm h env lr ⟨w.conn, g⟩) := by
  subst hlr
  unfold loginPassword
  dsimp only
  split
  · exact Or.inl ⟨_, _, _, attempted_refl h env w, rfl⟩
  · unfold validatePassword
    by_cases ht : validateTemporary h env w.conn.hash w.conn.lr
    · rw [if_pos ht]
      dsimp only
      split
      · rename_i herr
        refine Or.inr ⟨herr, Or.inl ht, _, ⟨_, Or.inr ⟨ht, rfl⟩⟩, rfl⟩
      · exact Or.inl ⟨_, _, _, ⟨_, Or.inr ⟨ht, rfl⟩⟩, rfl⟩
    · rw [if_neg ht]
      cases hp : validatePermanent h env w.conn.hash w.conn.lr with
      | true =>
        dsimp only
        split
        · rename_i herr
          exact Or.inr ⟨herr, Or.inr (Or.inl hp), _, ⟨_, Or.inl rfl⟩, rfl⟩
        · exact Or.inl ⟨_, _, _, ⟨_, Or.inl rfl⟩, rfl⟩
      | false =>
        dsimp only
        split
        · exact Or.inl ⟨_, _, _, ⟨_, Or.inl rfl⟩, rfl⟩
        · exact Or.inl ⟨_, _, _, ⟨_, Or.inl rfl⟩, rfl⟩

theorem loginCredential_cases (h : Host) (env : Env) (lr : LoginRequest) (errMsg : String)
    (w : World) (hlr : w.conn.lr = lr) :
    Answered h env w (w.loginCredential h env lr errMsg) ∨
    (errMsg = "" ∧ clickOnly h env = false ∧ Verified h env w lr ∧ ∃ g, Attempted h env w g ∧
      w.loginCredential h env lr errMsg = logonAndStartCm h env lr ⟨w.conn, g⟩) := by
  unfold loginCredential
  split
  · exact Or.inl ⟨_, _, _, attempted_refl h env w, rfl⟩
  split
  · dsimp only
    split
    · exact Or.inl ⟨_, _, _, attempted_refl h env w, rfl⟩
    · exact Or.inl ⟨_, _, _, attempted_refl h env w, rfl⟩
  rename_i hclick
  have hclick : clickOnly h env = false := by
    simp only [Bool.or_eq_true, not_or, Bool.not_eq_true] at hclick
    exact hclick.1
  split
  · rename_i hrecent
    split
    · rename_i herr
      have hv : Verified h env w w.conn.lr := verified_of_isRecentSession hrecent
      rw [hlr] at hv
      exact Or.inr ⟨herr, hclick, hv, w.glob, attempted_refl h env w, rfl⟩
    · exact Or.inl ⟨_, _, _, attempted_refl h env w, rfl⟩
  split
  · split
    · exact Or.inl ⟨_, _, _, attempted_refl h env w, rfl⟩
    · exact Or.inl ⟨_, _, _, attempted_refl h env w, rfl⟩
  · rcases loginPassword_cases h env lr errMsg w hlr with hq | ⟨herr, hv, g, hg, heq⟩
    · exact Or.inl hq
    · exact Or.inr ⟨herr, hclick, hv, g, hg, heq⟩

/-! ## The request as a whole -/

/-- The mark a request leaves on the connection if it passes the checks on its kind. -/
def marked (lr : LoginRequest) (c : Connection) : Connection :=
  match lr.union with
  | some (.fileTransfer dir showHidden) => { c with fileTransfer := some (dir, showHidden) }
  | some .viewCamera => { c with viewCamera := true }
  | some (.terminal _) => { c with terminal := true }
  | some (.portForward pf) => { c with portForwardAddress := (normalizePortForwardTarget pf).1 }
  | none => c

/-- The permission a kind of login needs. -/
def kindPermission : Option LoginUnion → Option EnableOption
  | some (.fileTransfer ..) => some .fileTransfer
  | some .viewCamera => some .camera
  | some (.terminal _) => some .terminal
  | some (.portForward _) => some .tunnel
  | none => none

/-- The parts of a connection only the terminal arm writes. -/
def sansTerminal (c : Connection) : Connection :=
  { c with terminalPersistent := false, terminalServiceId := "", terminalUserToken := none }

/-- The checks on the kind pass and leave the mark, or end the connection with an error. -/
theorem loginUnion_cases (h : Host) (env : Env) (lr : LoginRequest) (w : World) :
    ((w.loginUnion h env lr).2 = true ∧
      (w.loginUnion h env lr).1.glob = w.glob ∧
      sansTerminal (w.loginUnion h env lr).1.conn = sansTerminal (marked lr w.conn) ∧
      ∀ o ∈ kindPermission lr.union, permission h env o w.conn.controlPermissions = true) ∨
    ((w.loginUnion h env lr).2 = false ∧
      (w.loginUnion h env lr).1.glob = w.glob ∧
      (w.loginUnion h env lr).1.steady = w.steady ∧
      (w.loginUnion h env lr).1.request = w.request) := by
  unfold loginUnion marked
  rcases lr.union with _ | ⟨dir, showHidden⟩ | pf | _ | serviceId
  · dsimp only
    split
    · exact Or.inr ⟨rfl, rfl, rfl, rfl⟩
    · exact Or.inl ⟨rfl, rfl, rfl, by simp [kindPermission]⟩
  · dsimp only
    split
    · rename_i hp
      exact Or.inl ⟨rfl, rfl, rfl, by simpa [kindPermission] using hp⟩
    · exact Or.inr ⟨rfl, rfl, rfl, rfl⟩
  · dsimp only
    split
    · rename_i hp
      exact Or.inl ⟨rfl, rfl, rfl, by simpa [kindPermission] using hp⟩
    · exact Or.inr ⟨rfl, rfl, rfl, rfl⟩
  · dsimp only
    split
    · rename_i hp
      exact Or.inl ⟨rfl, rfl, rfl, by simpa [kindPermission] using hp⟩
    · exact Or.inr ⟨rfl, rfl, rfl, rfl⟩
  · dsimp only
    split
    · rename_i hp
      have hperm : ∀ o ∈ kindPermission (some (LoginUnion.terminal serviceId)),
          permission h env o w.conn.controlPermissions = true := by
        simpa [kindPermission] using hp
      unfold loginTerminal
      split
      · exact Or.inr ⟨rfl, rfl, rfl, rfl⟩
      dsimp only
      split
      · exact Or.inr ⟨rfl, rfl, rfl, rfl⟩
      split
      · split
        · exact Or.inl ⟨rfl, rfl, rfl, hperm⟩
        · exact Or.inr ⟨rfl, rfl, rfl, rfl⟩
      · exact Or.inl ⟨rfl, rfl, rfl, hperm⟩
    · exact Or.inr ⟨rfl, rfl, rfl, rfl⟩

/-- The connection in which the credential of a request is looked at. -/
structure Requested (h : Host) (env : Env) (lr : LoginRequest) (w : World) (c : Connection) :
    Prop where
  unauthorized : w.conn.authorized = false
  permitted : ∀ o ∈ kindPermission lr.union,
    permission h env o w.conn.controlPermissions = true
  conn : sansTerminal c = { sansTerminal (marked lr
    (w.handleLoginRequestWithoutValidation env lr).conn) with cmIpcStarted := true }

namespace Requested

variable {h : Host} {env : Env} {lr : LoginRequest} {w : World} {c : Connection}

theorem lr_eq (hc : Requested h env lr w c) : c.lr = lr := by
  have := congrArg Connection.lr hc.conn
  refine this.trans ?_
  unfold marked
  split <;> rfl

theorem steady (hc : Requested h env lr w c) : (World.mk c w.glob).steady = w.steady := by
  have hview : (World.mk c w.glob).steady = (World.mk (sansTerminal c) w.glob).steady := rfl
  rw [hview, hc.conn]
  unfold marked
  split <;> rfl

theorem request_eq (hc : Requested h env lr w c) (g : Globals)
    (hg : g.switchSidesUuid = w.glob.switchSidesUuid) :
    (World.mk c g).request = (w.handleLoginRequestWithoutValidation env lr).request := by
  have hview : (World.mk c g).request = (World.mk (sansTerminal c) g).request := rfl
  rw [hview, hc.conn]
  unfold request
  rw [hg]
  unfold marked
  split <;> rfl

theorem hash_eq (hc : Requested h env lr w c) : c.hash = w.conn.hash := by
  have hsteady := congrArg (fun w : World => w.conn.hash) hc.steady
  exact hsteady

end Requested

/-- What a `LoginRequest` can do: it is stored and no more, it is refused, it is answered,
    or it logs on with a credential verified in this very step. -/
theorem onLoginRequest_cases (h : Host) (env : Env) (lr : LoginRequest) (w : World) :
    (w.conn.authorized = true ∧
      w.onLoginRequest h env lr = (w.handleLoginRequestWithoutValidation env lr, true)) ∨
    (w.conn.authorized = false ∧ (w.onLoginRequest h env lr).2 = false ∧
      (w.onLoginRequest h env lr).1.glob = w.glob ∧
      (w.onLoginRequest h env lr).1.steady = w.steady ∧
      (w.onLoginRequest h env lr).1.request =
        (w.handleLoginRequestWithoutValidation env lr).request) ∨
    (∃ c, Requested h env lr w c ∧ Answered h env ⟨c, w.glob⟩ (w.onLoginRequest h env lr)) ∨
    (∃ c g, Requested h env lr w c ∧ Attempted h env ⟨c, w.glob⟩ g ∧ desktopError h env = "" ∧
      clickOnly h env = false ∧ Verified h env w lr ∧
      w.onLoginRequest h env lr = logonAndStartCm h env lr ⟨c, g⟩) := by
  unfold onLoginRequest
  dsimp only
  by_cases ha : w.conn.authorized
  · exact Or.inl ⟨ha, if_pos ha⟩
  rw [if_neg (show ¬(w.handleLoginRequestWithoutValidation env lr).conn.authorized = true from ha)]
  have ha : w.conn.authorized = false := by simpa using ha
  have hunion := loginUnion_cases h env lr (w.handleLoginRequestWithoutValidation env lr)
  generalize hr : loginUnion h env lr (w.handleLoginRequestWithoutValidation env lr) = r
    at hunion ⊢
  obtain ⟨w2, ok⟩ := r
  rcases hunion with ⟨hok, hglob, hmark, hperm⟩ | ⟨hok, hglob, hsteady, hlr⟩
  · dsimp only at hok hglob hmark hperm ⊢
    subst hok
    dsimp only
    have hc : Requested h env lr w { w2.conn with cmIpcStarted := true } :=
      ⟨ha, hperm, congrArg (fun c : Connection => { c with cmIpcStarted := true }) hmark⟩
    have hworld : ({ w2 with conn := { w2.conn with cmIpcStarted := true } } : World) =
        ⟨{ w2.conn with cmIpcStarted := true }, w.glob⟩ := congrArg (World.mk _) hglob
    rw [hworld]
    split
    · exact Or.inr (Or.inr (Or.inl ⟨_, hc, _, _, _, attempted_refl _ _ _, rfl⟩))
    · rcases loginCredential_cases h env lr (desktopError h env)
        ⟨{ w2.conn with cmIpcStarted := true }, w.glob⟩ hc.lr_eq with
        hq | ⟨herr, hclick, hv, g, hg, heq⟩
      · exact Or.inr (Or.inr (Or.inl ⟨_, hc, hq⟩))
      · refine Or.inr (Or.inr (Or.inr ⟨_, g, hc, hg, herr, hclick, ?_, heq⟩))
        have hhash := hc.hash_eq
        unfold Verified at hv ⊢
        rwa [hhash] at hv
  · dsimp only at hok hglob hsteady hlr ⊢
    subst hok
    exact Or.inr (Or.inl ⟨ha, rfl, hglob, hsteady, hlr⟩)

/-! ## The other two ways in -/

/-- Without a TOTP secret an `Auth2fa` message gets an answer at most. -/
theorem onAuth2fa_without_2fa (h : Host) (env : Env) (code : String) {w : World}
    (h2 : w.conn.require2fa = false) :
    ∃ sent, w.onAuth2fa h env code = ({ w with conn := { w.conn with toPeer := sent } }, true) := by
  unfold onAuth2fa
  dsimp only
  split
  · exact ⟨_, rfl⟩
  · rw [if_neg (by simp [h2])]
    exact ⟨_, rfl⟩

/-- What a `SwitchSidesResponse` can do: nothing, store its request, or log on with a uuid
    stored for the requester less than ten seconds ago. -/
theorem onSwitchSidesResponse_cases (h : Host) (env : Env) (bytes : Bytes)
    (lr : Option LoginRequest) (w : World) :
    (w.onSwitchSidesResponse h env bytes lr = (w, true) ∧ (h.flutter = false ∨ lr = none)) ∨
    (∃ l, h.flutter = true ∧ lr = some l ∧
      w.onSwitchSidesResponse h env bytes lr = (w.switching env l, true)) ∨
    (∃ l t uuid, h.flutter = true ∧ lr = some l ∧ Uuid.fromSlice bytes = some uuid ∧
      w.glob.switchSidesUuid l.myId = some (t, uuid) ∧ env.now - t < switchSidesTimeout ∧
      w.onSwitchSidesResponse h env bytes lr = (w.switching env l).logonFromSwitch h env l) := by
  unfold onSwitchSidesResponse
  cases hf : h.flutter with
  | false => exact Or.inl ⟨rfl, Or.inl rfl⟩
  | true =>
    cases lr with
    | none => exact Or.inl ⟨rfl, Or.inr rfl⟩
    | some l =>
      dsimp only
      split
      · rename_i uuid t uuidOld hslice hold
        split
        · rename_i heq
          subst heq
          obtain ⟨hmem, hage⟩ := Option.filter_eq_some_iff.mp hold
          exact Or.inr (Or.inr ⟨l, t, uuid, rfl, rfl, hslice, hmem, by simpa using hage, rfl⟩)
        · exact Or.inr (Or.inl ⟨l, rfl, rfl, rfl⟩)
      · exact Or.inr (Or.inl ⟨l, rfl, rfl, rfl⟩)

end World

end LuodaRemote
