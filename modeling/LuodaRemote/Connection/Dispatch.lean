/-
  The `select!` loop of `Connection::start`: `on_message` for what the peer sends, the data
  of the connection manager, the test-delay timer, closing, and what is done when the loop
  is left.

  One arm of the loop is one step. The peer's input, display and voice messages are
  handled only once the connection is authorized.
-/
import LuodaRemote.Connection.Login

namespace LuodaRemote

namespace World

/-! ## Input -/

def inputMouse (me : MouseEvent) (simulate showCursor : Bool) (w : World) : World :=
  w.sendToInput (.mouse me w.conn.lr.myName w.conn.peerArgb simulate showCursor)

def onMouseEvent (me : MouseEvent) (w : World) : World :=
  if w.conn.isAuthedViewCameraConn then w
  else if w.conn.flags.peerKeyboardEnabled then w.inputMouse me true w.conn.flags.showMyCursor
  else if w.conn.flags.showMyCursor then w.inputMouse me false true
  else w

def onPointerDeviceEvent (pde : PointerDeviceEvent) (w : World) : World :=
  if w.conn.isAuthedViewCameraConn then w
  else if w.conn.flags.peerKeyboardEnabled then w.sendToInput (.pointer pde)
  else w

/-- On Linux every press goes down as a press, except for modifiers. -/
def isPress (h : Host) (ke : KeyEvent) : Bool :=
  if h.targetOs = .linux then
    (ke.press || ke.down) && !(h.isModifier ke || (h.modifierKey ke).isSome)
  else ke.press

def updatePressedModifiers (h : Host) (ke : KeyEvent) (w : World) : World :=
  match h.modifierKey ke with
  | some key =>
    let others := w.conn.pressedModifiers.filter (· ≠ key)
    { w with conn := { w.conn with
        pressedModifiers := if isPress h ke then key :: others else others } }
  | none => w

def onKeyEvent (h : Host) (ke : KeyEvent) (w : World) : World :=
  if w.conn.isAuthedViewCameraConn then w
  else if w.conn.flags.peerKeyboardEnabled then
    let press := isPress h ke && match ke.union with
      | some (.unicode _) | some (.seq _) => false
      | _ => true
    (w.updatePressedModifiers h ke).sendToInput (.key ke press)
  else w

/-! ## Displays -/

def switchDisplayTo (h : Host) (displayIdx : Nat) (w : World) : World :=
  let source := w.conn.videoSource
  let srv := w.glob.server
  let srv := if displayIdx ≠ h.primaryDisplayIdx then srv.addVideoService source displayIdx else srv
  let srv := if isSupportMultiUiSession w.conn.lr.version then srv
    else srv.subscribe (.video source w.conn.displayIdx) w.conn.id false
  let srv := srv.subscribe (.video source displayIdx) w.conn.id true
  { conn := { w.conn with displayIdx := displayIdx }, glob := { w.glob with server := srv } }

def handleSwitchDisplay (h : Host) (display : Int) (w : World) : World :=
  if w.conn.displayIdx ≠ asUsize display then
    let w := w.switchDisplayTo h (asUsize display)
    w.send (.displayChanged w.conn.displayIdx)
  else w

def captureDisplays (add sub set : List Nat) (w : World) : World :=
  let source := w.conn.videoSource
  let srv := (add ++ set).foldl (fun srv d => srv.addVideoService source d) w.glob.server
  let srv :=
    if !add.isEmpty then srv.captureDisplays w.conn.id source add true false
    else if !sub.isEmpty then srv.captureDisplays w.conn.id source sub false true
    else srv.captureDisplays w.conn.id source set true true
  let multiUiSession := decide (1 < srv.getSubbedDisplaysCount w.conn.id)
  let srv := if w.conn.flags.followRemoteWindow then
      srv.subscribe .windowFocus w.conn.id (!multiUiSession)
    else srv
  { conn := { w.conn with multiUiSession := multiUiSession }
    glob := { w.glob with server := srv } }

/-! ## Voice calls -/

/-- `request.req_timestamp`, or the time if it is 0. -/
def onVoiceCallConnect (env : Env) (reqTimestamp : Int) (w : World) : World :=
  let timestamp := if reqTimestamp = 0 then env.getTime else reqTimestamp
  { w with conn := { w.conn with voiceCallRequestTimestamp := some timestamp } }.sendToCm
    .voiceCallIncoming

def handleVoiceCall (accepted : Bool) (w : World) : World :=
  match w.conn.voiceCallRequestTimestamp with
  | some ts =>
    let w := w.sendToCm (if accepted then .startVoiceCall else .closeVoiceCall)
    let w := w.send (.voiceCallResponse ts accepted)
    let w := { w with conn := { w.conn with
      voiceCallRequestTimestamp := none, voiceCalling := accepted } }
    if w.conn.isAuthedViewCameraConn then
      w.subscribe .audio (w.conn.flags.audioEnabled && accepted)
    else w
  | none => w

def closeVoiceCall (w : World) : World :=
  let w := w.sendToCm .closeVoiceCall
  let w := { w with conn := { w.conn with voiceCalling := false } }
  if w.conn.isAuthedViewCameraConn then w.subscribe .audio false else w

/-! ## `on_message` -/

/-- Windows: the peer picked a user session. -/
def onSelectedSid (h : Host) (env : Env) (sid : Nat) (w : World) : World × Bool :=
  if h.targetOs = .windows ∧ env.hasProcessSid then
    if env.switchesUserSession sid then (w, false)
    else if w.conn.fileTransfer.isSome then (w, true)
    else if w.conn.viewCamera then (w.trySubCameraDisplays env, true)
    else if w.conn.terminal then (w, true)
    else (w.trySubMonitorServices h, true)
  else (w, true)

def onMisc (h : Host) (env : Env) (m : Misc) (w : World) : World × Bool :=
  match m with
  | .switchDisplay display => (w.handleSwitchDisplay h display, true)
  | .captureDisplays add sub set =>
    (w.captureDisplays (add.map asUsize) (sub.map asUsize) (set.map asUsize), true)
  | .option o => (w.updateOptions h o, true)
  | .switchSidesRequest uuid =>
    if h.flutter && (Uuid.fromSlice uuid).isSome then (w.onClose, false) else (w, true)
  | .selectedSid sid => w.onSelectedSid h env sid
  | .closeReason _ | .other => (w, true)

/-- The arm `else if self.authorized`. -/
def onAuthorizedMessage (h : Host) (env : Env) (msg : Message) (w : World) : World × Bool :=
  if w.conn.portForwardSocket.isSome then (w, true)
  else match msg with
    | .mouseEvent me => (w.onMouseEvent me, true)
    | .pointerDeviceEvent pde => (w.onPointerDeviceEvent pde, true)
    | .keyEvent ke => (w.onKeyEvent h ke, true)
    | .voiceCallRequest isConnect reqTimestamp =>
      (if isConnect then w.onVoiceCallConnect env reqTimestamp else w.closeVoiceCall, true)
    | .misc m => w.onMisc h env m
    | .loginRequest _ | .auth2fa .. | .testDelay _ | .switchSidesResponse .. | .other => (w, true)

def onTestDelay (fromClient : Bool) (w : World) : World :=
  if fromClient then w.send .testDelay
  else { w with conn := { w.conn with lastTestDelay := none } }

def onMessage (h : Host) (env : Env) (msg : Message) (w : World) : World × Bool :=
  match msg with
  | .misc (.closeReason _) => (w.onClose.checkRemoveSession, false)
  | .loginRequest lr => w.onLoginRequest h env lr
  | .auth2fa code _ => w.onAuth2fa h env code
  | .testDelay fromClient => (w.onTestDelay fromClient, true)
  | .switchSidesResponse uuid lr => w.onSwitchSidesResponse h env uuid lr
  | msg => if w.conn.authorized then w.onAuthorizedMessage h env msg else (w, true)

/-! ## The loop -/

def leaveLoop (w : World) : World := { w with conn := { w.conn with running := false } }

/-- `*t.lock().unwrap() = Instant::now()` on the session's cell. -/
def touchSession (env : Env) (w : World) : World :=
  match w.conn.sessionLastRecvTime with
  | some r =>
    { w with glob := { w.glob with recvTimes := Function.update w.glob.recvTimes r env.now } }
  | none => w

/-- What the loop does with the outcome of `on_message`: a port forward starts as soon as
    no test-delay answer can get mixed into it. -/
def afterMessage (r : World × Bool) : World :=
  if r.2 = false ∨ r.1.conn.portForwardSocket.isSome ∧ r.1.conn.authorized ∧
      r.1.conn.lastTestDelay.isNone then r.1.leaveLoop
  else r.1

/-- The arm `conn.stream.next()` for bytes that parse. -/
def peerMessage (h : Host) (env : Env) (msg : Message) (w : World) : World :=
  afterMessage ((w.touchSession env).onMessage h env msg)

/-- `ipc::Data::SwitchPermission`. -/
def switchPermission (h : Host) (name : SwitchName) (enabled : Bool) (w : World) : World :=
  match name with
  | .keyboard =>
    let w := (w.setFlags fun f => { f with keyboard := enabled }).send (.permission name enabled)
    let w := (w.subscribeClipboard h).subscribeFileClipboard h
    w.subscribe .cursor (enabled || w.conn.flags.showRemoteCursor)
  | .clipboard =>
    ((w.setFlags fun f => { f with clipboard := enabled }).send
      (.permission name enabled)).subscribeClipboard h
  | .audio =>
    let w := (w.setFlags fun f => { f with audio := enabled }).send (.permission name enabled)
    if w.conn.authorized then w.subscribeAudio else w
  | .file =>
    ((w.setFlags fun f => { f with file := enabled }).send
      (.permission name enabled)).subscribeFileClipboard h
  | .restart => (w.setFlags fun f => { f with restart := enabled }).send (.permission name enabled)
  | .recording =>
    (w.setFlags fun f => { f with recording := enabled }).send (.permission name enabled)
  | .blockInput =>
    (w.setFlags fun f => { f with blockInput := enabled }).send (.permission name enabled)
  | .unknown _ => w

/-- The arm `rx_from_cm.recv()`. -/
def cmData (h : Host) (env : Env) (data : CmData) (w : World) : World :=
  match data with
  | .authorize =>
    match { w with conn := { w.conn with require2fa := false } }.logon h env with
    | (w, false) => w.leaveLoop
    | (w, true) => if w.conn.portForwardSocket.isSome then w.leaveLoop else w
  | .close => (w.sendCloseReasonNoRetry "").onClose.leaveLoop
  | .cmErr e => if e ≠ "expected" then w.onClose.leaveLoop else w
  | .switchPermission name enabled => w.switchPermission h name enabled
  | .voiceCallResponse accepted => w.handleVoiceCall accepted
  | .closeVoiceCall => w.closeVoiceCall.send (.voiceCallRequest false)
  | .other => w

/-- The tick of `test_delay_timer` while the peer is still heard from. -/
def testDelayTick (env : Env) (w : World) : World :=
  if w.conn.lastTestDelay.isNone ∧ ¬(w.conn.portForwardSocket.isSome ∧ w.conn.authorized) then
    { w with conn := { w.conn with lastTestDelay := some env.now } }.send .testDelay
  else w

/-- The arms that end the connection from this side: an I/O error, a timeout, the web
    console, inactivity, or the service being stopped. The last three tell the peer. -/
def hostClose (reason : Option String) (w : World) : World :=
  match reason with
  | some reason => (w.sendCloseReasonNoRetry reason).onClose.leaveLoop
  | none => w.onClose.leaveLoop

/-- After the loop: the port forward runs to its end, the subscriptions are removed, and
    dropping the connection sweeps `SESSIONS` and its own entry in `AUTHED_CONNS`. -/
def finish (env : Env) (w : World) : World :=
  -- The forwarding loop only ever returns an error, and only if there is a socket.
  let w := if w.conn.portForwardSocket.isSome then w.onClose.checkRemoveSession else w
  let w := { w with glob := { w.glob with server := w.glob.server.removeConnection w.conn.id } }
  let w := w.onClose
  { w with glob := { w.glob.sweepSessions env.now with
      authedConns := if w.conn.authedConnId.isSome then
          w.glob.authedConns.filter (·.connId ≠ w.conn.id)
        else w.glob.authedConns } }

/-- The end of a connection takes its subscriptions and its entry, the sessions that have expired
    and its own at most. -/
theorem finish_glob (env : Env) (w : World) :
    ∃ sessions, (∀ k s, sessions k = some s → w.glob.sessions k = some s) ∧
      (w.finish env).glob =
        { ({ w.glob with sessions := sessions } : Globals).sweepSessions env.now with
          server := w.glob.server.removeConnection w.conn.id
          authedConns := if w.conn.authedConnId.isSome then
              w.glob.authedConns.filter (·.connId ≠ w.conn.id)
            else w.glob.authedConns } := by
  have hclose : ∀ w : World, w.onClose.conn.id = w.conn.id ∧
      w.onClose.conn.authedConnId = w.conn.authedConnId := by
    intro w
    unfold onClose
    split
    · exact ⟨rfl, rfl⟩
    · exact ⟨rfl, rfl⟩
  unfold finish
  split
  · obtain ⟨sessions, hold, heq⟩ :=
      w.glob.checkRemoveSession_eq w.conn.id w.onClose.conn.sessionKey
    refine ⟨sessions, hold, ?_⟩
    simp only [onClose_glob, (hclose _).1, (hclose _).2, checkRemoveSession, heq]
    rfl
  · refine ⟨w.glob.sessions, fun _ _ hs => hs, ?_⟩
    simp only [onClose_glob, (hclose _).1, (hclose _).2]
    rfl

/-! ## What the handlers other than the logins leave alone -/

theorem loginView_handleVoiceCall (accepted : Bool) (w : World) :
    (w.handleVoiceCall accepted).loginView = w.loginView := by
  have hcm : (w.sendToCm (if accepted then .startVoiceCall else .closeVoiceCall)).loginView =
      w.loginView := by
    cases accepted <;> simp [loginView, sendToCm]
  unfold handleVoiceCall
  generalize (if accepted then ToCm.startVoiceCall else .closeVoiceCall) = m at hcm ⊢
  split
  · dsimp only
    split
    · exact hcm
    · exact hcm
  · rfl

theorem loginView_closeVoiceCall (w : World) : w.closeVoiceCall.loginView = w.loginView := by
  unfold closeVoiceCall
  dsimp only
  split <;> simp [loginView, sendToCm, subscribe]

/-- The mouse, the pointer and the keyboard reach the modifiers held and the input channel. -/
theorem apply_input {α : Sort*} (π : World → α)
    (hinput : ∀ keys inputs (w : World),
      π { w with conn := { w.conn with pressedModifiers := keys, toInput := inputs } } = π w)
    (h : Host) (w : World) :
    (∀ me, π (w.onMouseEvent me) = π w) ∧ (∀ pde, π (w.onPointerDeviceEvent pde) = π w) ∧
      ∀ ke, π (w.onKeyEvent h ke) = π w := by
  have hsend : ∀ (m : MessageInput) (w : World), π (w.sendToInput m) = π w :=
    fun m w => hinput w.conn.pressedModifiers (w.conn.toInput ++ [m]) w
  have hmod : ∀ ke, π (w.updatePressedModifiers h ke) = π w := by
    intro ke
    unfold updatePressedModifiers
    split
    · exact hinput _ w.conn.toInput w
    · rfl
  refine ⟨fun me => ?_, fun pde => ?_, fun ke => ?_⟩
  · unfold onMouseEvent inputMouse
    split_ifs
    · rfl
    · exact hsend _ w
    · exact hsend _ w
    · rfl
  · unfold onPointerDeviceEvent
    split_ifs
    · rfl
    · exact hsend _ w
    · rfl
  · unfold onKeyEvent
    split_ifs
    · rfl
    · exact (hsend _ _).trans (hmod ke)
    · rfl

theorem loginView_input (h : Host) (w : World) :
    (∀ me, (w.onMouseEvent me).loginView = w.loginView) ∧
    (∀ pde, (w.onPointerDeviceEvent pde).loginView = w.loginView) ∧
    ∀ ke, (w.onKeyEvent h ke).loginView = w.loginView :=
  apply_input World.loginView (fun _ _ _ => rfl) h w

theorem loginView_switchPermission (h : Host) (name : SwitchName) (enabled : Bool) (w : World) :
    (w.switchPermission h name enabled).loginView = w.loginView := by
  have hfile : ∀ w : World, (w.subscribeFileClipboard h).loginView = w.loginView := by
    intro w
    unfold subscribeFileClipboard
    split <;> rfl
  have haudio : ∀ w : World, w.subscribeAudio.loginView = w.loginView := by
    intro w
    unfold subscribeAudio
    split_ifs <;> rfl
  cases name with
  | keyboard => exact hfile _
  | audio =>
    unfold switchPermission
    dsimp only
    split
    · exact haudio _
    · rfl
  | file => exact hfile _
  | _ => rfl

/-- The login state without what closing the connection changes. -/
def identity (w : World) : World where
  conn := { w.loginView.conn with closed := false, running := true, portForwardSocket := none }
  glob := { w.loginView.glob with sessions := fun _ => none, recvTimes := fun _ => 0 }

theorem identity_of_loginView {w w' : World} (h : w'.loginView = w.loginView) :
    w'.identity = w.identity := by
  unfold identity
  rw [h]

/-- What an arm that does not log in is made of: changes outside the login state, closing,
    removing or touching the session, and leaving the loop. -/
inductive Passive (env : Env) : World → World → Prop
  | view {w w' : World} (same : w'.loginView = w.loginView) : Passive env w w'
  | onClose (w : World) : Passive env w w.onClose
  | checkRemoveSession (w : World) : Passive env w w.checkRemoveSession
  | leaveLoop (w : World) : Passive env w w.leaveLoop
  | touchSession (w : World) : Passive env w (w.touchSession env)
  | trans {w w' w'' : World} (first : Passive env w w') (second : Passive env w' w'') :
      Passive env w w''

theorem Passive.refl (env : Env) (w : World) : Passive env w w := .view rfl

/-- The identity is kept. -/
theorem Passive.identity_eq {env : Env} {w w' : World} (hp : Passive env w w') :
    w'.identity = w.identity := by
  induction hp with
  | view same => exact identity_of_loginView same
  | onClose w =>
    unfold World.onClose
    split
    · rfl
    · simp [identity, loginView, sendToCm]
  | checkRemoveSession w =>
    unfold World.checkRemoveSession Globals.checkRemoveSession identity loginView
    dsimp only
    split_ifs <;> rfl
  | leaveLoop w => rfl
  | touchSession w =>
    unfold World.touchSession
    split <;> rfl
  | trans _ _ ih ih' => exact ih'.trans ih

/-- The port forward is closed at most. -/
theorem Passive.socket {env : Env} {w w' : World} (hp : Passive env w w') :
    w'.conn.portForwardSocket = w.conn.portForwardSocket ∨ w'.conn.portForwardSocket = none := by
  induction hp with
  | view same =>
    have hsocket := congrArg (fun w : World => w.conn.portForwardSocket) same
    exact Or.inl hsocket
  | onClose w =>
    unfold World.onClose
    split
    · exact Or.inl rfl
    · exact Or.inr rfl
  | checkRemoveSession w => exact Or.inl rfl
  | leaveLoop w => exact Or.inl rfl
  | touchSession w =>
    unfold World.touchSession
    split <;> exact Or.inl rfl
  | trans _ _ ih ih' =>
    rcases ih' with heq | heq
    · rw [heq]
      exact ih
    · exact Or.inr heq

theorem passive_onMisc (h : Host) (env : Env) (m : Misc) (w : World) :
    Passive env w (w.onMisc h env m).1 := by
  cases m with
  | closeReason _ | other => exact Passive.refl env w
  | switchDisplay display =>
    refine Passive.view ?_
    simp only [onMisc, handleSwitchDisplay]
    split <;> rfl
  | captureDisplays add sub set => exact Passive.view rfl
  | option o => exact Passive.view (loginView_updateOptions h o w)
  | switchSidesRequest uuid =>
    simp only [onMisc]
    split
    · exact Passive.onClose w
    · exact Passive.refl env w
  | selectedSid sid =>
    refine Passive.view ?_
    simp only [onMisc, onSelectedSid]
    split_ifs
    · rfl
    · rfl
    · rfl
    · rfl
    · exact loginView_trySubMonitorServices h w
    · rfl

theorem passive_onAuthorizedMessage (h : Host) (env : Env) (msg : Message) (w : World) :
    Passive env w (w.onAuthorizedMessage h env msg).1 := by
  unfold onAuthorizedMessage
  split
  · exact Passive.refl env w
  · cases msg with
    | mouseEvent me => exact Passive.view ((loginView_input h w).1 me)
    | pointerDeviceEvent pde => exact Passive.view ((loginView_input h w).2.1 pde)
    | keyEvent ke => exact Passive.view ((loginView_input h w).2.2 ke)
    | voiceCallRequest isConnect reqTimestamp =>
      refine Passive.view ?_
      dsimp only
      split
      · simp [onVoiceCallConnect, loginView, sendToCm]
      · exact loginView_closeVoiceCall w
    | misc m => exact passive_onMisc h env m w
    | _ => exact Passive.refl env w

theorem afterMessage_cases (r : World × Bool) :
    afterMessage r = r.1 ∨ afterMessage r = r.1.leaveLoop := by
  unfold afterMessage
  split
  · exact Or.inr rfl
  · exact Or.inl rfl

theorem Passive.afterMessage {env : Env} {w : World} {r : World × Bool}
    (hp : Passive env w r.1) : Passive env w (afterMessage r) := by
  rcases afterMessage_cases r with heq | heq
  · rw [heq]
    exact hp
  · rw [heq]
    exact hp.trans (.leaveLoop _)

theorem passive_sendCloseReasonNoRetry (env : Env) (reason : String) (w : World) :
    Passive env w (w.sendCloseReasonNoRetry reason) := by
  unfold sendCloseReasonNoRetry
  have hsend : ∀ m, Passive env w (w.send m) := fun _ => .view rfl
  exact (hsend _).trans (.checkRemoveSession _)

end World

/-- What one connection's loop can receive. -/
inductive Arm where
  | peer (msg : Message)
  /-- Bytes that do not parse as a message. -/
  | peerGarbage
  | cm (data : CmData)
  | testDelayTick
  | hostClose (reason : Option String)
  deriving DecidableEq

/-- One arm of the loop. -/
def World.arm (h : Host) (env : Env) (a : Arm) (w : World) : World :=
  match a with
  | .peer msg => w.peerMessage h env msg
  | .peerGarbage => w.touchSession env
  | .cm data => w.cmData h env data
  | .testDelayTick => w.testDelayTick env
  | .hostClose reason => w.hostClose reason

/-- The messages that carry a login request or a code. -/
def Message.isLogin : Message → Bool
  | loginRequest _ | auth2fa .. | switchSidesResponse .. => true
  | _ => false

/-- The arms that may authorize a connection. -/
def Arm.isLogin : Arm → Bool
  | peer msg => msg.isLogin
  | cm .authorize => true
  | _ => false

namespace World

theorem passive_peerMessage (h : Host) (env : Env) {msg : Message} (hmsg : msg.isLogin = false)
    (w : World) : Passive env w (w.peerMessage h env msg) := by
  refine ((Passive.touchSession w).trans ?_).afterMessage
  generalize w.touchSession env = w
  have hother : Passive env w
      (if w.conn.authorized then w.onAuthorizedMessage h env msg else (w, true)).1 := by
    split
    · exact passive_onAuthorizedMessage h env msg w
    · exact Passive.refl env w
  cases msg with
  | loginRequest lr | auth2fa code hwid | switchSidesResponse uuid lr => cases hmsg
  | testDelay fromClient =>
    refine Passive.view ?_
    simp only [onMessage, onTestDelay]
    split <;> rfl
  | misc m =>
    cases m with
    | closeReason reason =>
      exact (Passive.onClose w).trans (Passive.checkRemoveSession _)
    | _ => exact hother
  | _ => exact hother

theorem passive_cmData (h : Host) (env : Env) {data : CmData} (hdata : data ≠ .authorize)
    (w : World) : Passive env w (w.cmData h env data) := by
  cases data with
  | authorize => exact absurd rfl hdata
  | close =>
    exact ((passive_sendCloseReasonNoRetry env "" w).trans (Passive.onClose _)).trans
      (Passive.leaveLoop _)
  | cmErr e =>
    simp only [cmData]
    split
    · exact (Passive.onClose w).trans (Passive.leaveLoop _)
    · exact Passive.refl env w
  | switchPermission name enabled =>
    exact Passive.view (loginView_switchPermission h name enabled w)
  | voiceCallResponse accepted => exact Passive.view (loginView_handleVoiceCall accepted w)
  | closeVoiceCall => exact Passive.view (loginView_closeVoiceCall w)
  | other => exact Passive.refl env w

theorem passive_testDelayTick (env : Env) (w : World) : Passive env w (w.testDelayTick env) := by
  refine Passive.view ?_
  unfold testDelayTick
  split <;> rfl

theorem passive_hostClose (env : Env) (reason : Option String) (w : World) :
    Passive env w (w.hostClose reason) := by
  cases reason with
  | none => exact (Passive.onClose w).trans (Passive.leaveLoop _)
  | some reason =>
    exact ((passive_sendCloseReasonNoRetry env reason w).trans (Passive.onClose _)).trans
      (Passive.leaveLoop _)

theorem passive_arm (h : Host) (env : Env) {a : Arm} (ha : a.isLogin = false) (w : World) :
    Passive env w (w.arm h env a) := by
  cases a with
  | peer msg => exact passive_peerMessage h env ha w
  | peerGarbage => exact Passive.touchSession w
  | cm data =>
    refine passive_cmData h env ?_ w
    rintro rfl
    cases ha
  | testDelayTick => exact passive_testDelayTick env w
  | hostClose reason => exact passive_hostClose env reason w

/-! ## The arms that log in -/

/-- The marks of the kinds a connection was asked for. -/
def marks (w : World) : Option (String × Bool) × Bool × Bool :=
  (w.conn.fileTransfer, w.conn.viewCamera, w.conn.terminal)

/-- The request of the arm is stored and nothing but the answer follows. Once authorized,
    a connection gets no new marks. -/
inductive Stored (h : Host) (env : Env) (w w' : World) : Arm → LoginRequest → Prop
  | loginRequest {lr : LoginRequest} (steady : w'.steady = w.steady)
      (request : w'.request = (w.handleLoginRequestWithoutValidation env lr).request)
      (marks : w.conn.authorized = true → w'.marks = w.marks) :
      Stored h env w w' (.peer (.loginRequest lr)) lr
  | switchSides {uuid : Bytes} {lr : LoginRequest} (flutter : h.flutter = true)
      (steady : w'.steady = w.steady)
      (request : w'.request = (w.switching env lr).request)
      (marks : w.conn.authorized = true → w'.marks = w.marks) :
      Stored h env w w' (.peer (.switchSidesResponse uuid (some lr))) lr

/-- `v` is the state in which the arm, run in `w`, comes to the logon response. -/
inductive Entry (h : Host) (env : Env) (w : World) : Arm → World → Prop
  | password {lr : LoginRequest} {c : Connection} {g : Globals}
      (requested : Requested h env lr (w.touchSession env) c)
      (attempted : Attempted h env ⟨c, (w.touchSession env).glob⟩ g)
      (desktop : desktopError h env = "") (click : clickOnly h env = false)
      (verified : Verified h env w lr) : Entry h env w (.peer (.loginRequest lr)) ⟨c, g⟩
  | switchSides {bytes : Bytes} {lr : LoginRequest} {t : Nat} {uuid : Uuid}
      (flutter : h.flutter = true) (slice : Uuid.fromSlice bytes = some uuid)
      (stored : w.glob.switchSidesUuid lr.myId = some (t, uuid))
      (age : env.now - t < switchSidesTimeout) :
      Entry h env w (.peer (.switchSidesResponse bytes (some lr)))
        { (w.touchSession env).switching env lr with
          conn := { ((w.touchSession env).switching env lr).conn with fromSwitch := true } }
  | accepted : Entry h env w (.cm .authorize) w

/-- What is settled once the logon response is sent; the record for the connection manager
    and the end of the loop come after. -/
def settled (w : World) : World :=
  { w with conn := { w.conn with cmIpcStarted := false, running := true, toCm := [] } }

/-- The end of an arm that logged on from `v`: over the network the connection manager is
    told, an accepting connection manager knows. -/
def LoggedOn (h : Host) (env : Env) (a : Arm) (v w' : World) : Prop :=
  let u := v.connected.authorize.afterLogin h env
  w'.settled = u.settled ∧
    (a = .cm .authorize ∧ w'.conn.toCm = u.conn.toCm ∨
      ∃ peerId name, w'.conn.toCm = (u.tryStartCm peerId name true).conn.toCm)

/-- The port forward could not be connected, which ends the loop. -/
def ConnectFailed (v w' : World) : Prop :=
  ∃ addr sent, w' = World.leaveLoop
    ⟨{ v.conn with portForwardAddress := addr, toPeer := sent }, v.glob⟩

theorem touchSession_conn (env : Env) (w : World) : (w.touchSession env).conn = w.conn := by
  unfold touchSession
  split <;> rfl

theorem touchSession_glob (env : Env) (w : World) :
    ∃ times, (w.touchSession env).glob = { w.glob with recvTimes := times } := by
  unfold touchSession
  split
  · exact ⟨_, rfl⟩
  · exact ⟨w.glob.recvTimes, rfl⟩

theorem steady_touchSession (env : Env) (w : World) : (w.touchSession env).steady = w.steady := by
  unfold touchSession
  split <;> rfl

/-- What leaving the loop does not touch is as `on_message` left it. -/
theorem apply_afterMessage {α : Sort*} (π : World → α) (hπ : ∀ w, π w.leaveLoop = π w)
    (r : World × Bool) : π (afterMessage r) = π r.1 := by
  rcases afterMessage_cases r with heq | heq
  · rw [heq]
  · rw [heq, hπ]

theorem afterMessage_false (w : World) : afterMessage (w, false) = w.leaveLoop := by
  simp [afterMessage]

theorem logonAndStartCm_ends (h : Host) (env : Env) (a : Arm) (lr : LoginRequest) {v : World}
    (ha : v.conn.authorized = false) (h2 : v.conn.require2fa = false) :
    ConnectFailed v (afterMessage (v.logonAndStartCm h env lr)) ∨
    LoggedOn h env a v (afterMessage (v.logonAndStartCm h env lr)) := by
  rcases logonAndStartCm_cases h env lr ha h2 with ⟨addr, sent, heq⟩ | heq
  · rw [heq, afterMessage_false]
    exact Or.inl ⟨addr, sent, rfl⟩
  · rw [heq]
    refine Or.inr ⟨?_, Or.inr ⟨lr.myId, lr.myName, ?_⟩⟩
    · rw [apply_afterMessage settled fun _ => rfl]
      rfl
    · rw [apply_afterMessage (fun w => w.conn.toCm) fun _ => rfl]

theorem logonFromSwitch_ends (h : Host) (env : Env) (a : Arm) (lr : LoginRequest) {w : World}
    (ha : w.conn.authorized = false) (h2 : w.conn.require2fa = false) :
    let v : World := { w with conn := { w.conn with fromSwitch := true } }
    ConnectFailed v (afterMessage (w.logonFromSwitch h env lr)) ∨
    LoggedOn h env a v (afterMessage (w.logonFromSwitch h env lr)) := by
  intro v
  unfold logonFromSwitch
  have hv : v.conn.authorized = false := ha
  have hv2 : v.conn.require2fa = false := h2
  rcases logonAndStartCm_cases h env lr hv hv2 with ⟨addr, sent, heq⟩ | heq
  · rw [heq]
    dsimp only
    rw [afterMessage_false]
    exact Or.inl ⟨addr, sent, rfl⟩
  · rw [heq]
    refine Or.inr ⟨?_, Or.inr ⟨lr.myId, lr.myName, ?_⟩⟩
    · rw [apply_afterMessage settled fun _ => rfl]
      rfl
    · rw [apply_afterMessage (fun w => w.conn.toCm) fun _ => rfl]

theorem logonFromSwitch_authorized (h : Host) (env : Env) (lr : LoginRequest) {w : World}
    (ha : w.conn.authorized = true) :
    (w.logonFromSwitch h env lr).1.steady = w.steady ∧
      (w.logonFromSwitch h env lr).1.request = w.request ∧
      (w.logonFromSwitch h env lr).1.marks = w.marks := by
  have hlogon : ({ w with conn := { w.conn with fromSwitch := true } } : World).logon h env =
      ({ w with conn := { w.conn with fromSwitch := true } }, true) := if_pos ha
  unfold logonFromSwitch logonAndStartCm
  rw [hlogon]
  exact ⟨rfl, rfl, rfl⟩

theorem loginRequest_arm_cases (h : Host) (env : Env) (lr : LoginRequest) {w : World}
    (h2 : w.conn.require2fa = false) :
    Stored h env w (w.peerMessage h env (.loginRequest lr)) (.peer (.loginRequest lr)) lr ∨
    (w.conn.authorized = false ∧ ∃ v, Entry h env w (.peer (.loginRequest lr)) v ∧
      (ConnectFailed v (w.peerMessage h env (.loginRequest lr)) ∨
        LoggedOn h env (.peer (.loginRequest lr)) v
          (w.peerMessage h env (.loginRequest lr)))) := by
  have hconn := touchSession_conn env w
  have hsteady := steady_touchSession env w
  have hrequest : ((w.touchSession env).handleLoginRequestWithoutValidation env lr).request =
      (w.handleLoginRequestWithoutValidation env lr).request := by
    unfold touchSession
    split <;> rfl
  have hverified : Verified h env (w.touchSession env) lr → Verified h env w lr := by
    unfold touchSession
    split <;> exact id
  change Stored h env w (afterMessage ((w.touchSession env).onLoginRequest h env lr)) _ lr ∨ _ ∧
    ∃ v, Entry h env w _ v ∧
      (ConnectFailed v (afterMessage ((w.touchSession env).onLoginRequest h env lr)) ∨
        LoggedOn h env _ v (afterMessage ((w.touchSession env).onLoginRequest h env lr)))
  have hstored : ∀ r : World × Bool, r.1.steady = (w.touchSession env).steady →
      r.1.request = ((w.touchSession env).handleLoginRequestWithoutValidation env lr).request →
      (w.conn.authorized = true → r.1.marks = w.marks) →
      Stored h env w (afterMessage r) (.peer (.loginRequest lr)) lr := by
    intro r hs hr hm
    refine .loginRequest ?_ ?_ ?_
    · rw [apply_afterMessage steady fun _ => rfl, hs, hsteady]
    · rw [apply_afterMessage request fun _ => rfl, hr, hrequest]
    · intro ha
      rw [apply_afterMessage marks fun _ => rfl, hm ha]
  have hmarks : (w.touchSession env).marks = w.marks := by
    unfold marks
    rw [hconn]
  have hnot : (w.touchSession env).conn.authorized = false → ∀ {p : Prop},
      w.conn.authorized = true → p := by
    intro hfalse p htrue
    rw [hconn, htrue] at hfalse
    cases hfalse
  rcases onLoginRequest_cases h env lr (w.touchSession env) with ⟨_, heq⟩ |
    ⟨ha, _, _, hs, hr⟩ | ⟨c, hc, sent, shown, g, hg, heq⟩ | ⟨c, g, hc, hg, hdesk, hclick, hv, heq⟩
  · rw [heq]
    exact Or.inl (hstored _ rfl rfl fun _ => hmarks)
  · exact Or.inl (hstored _ hs hr (hnot ha))
  · refine Or.inl (hstored _ ?_ ?_ (hnot hc.unauthorized))
    · rw [heq, ← hc.steady]
      exact hg.steady
    · rw [heq]
      exact hc.request_eq g hg.glob_eq.1
  · rw [heq]
    have ha : w.conn.authorized = false := hconn ▸ hc.unauthorized
    have hca : c.authorized = false := by
      have hview := congrArg (fun w : World => w.conn.authorized) hc.steady
      exact hview.trans hc.unauthorized
    have hc2 : c.require2fa = false := by
      have hview := congrArg (fun r => r.2.2.2.1) (hc.request_eq g hg.glob_eq.1)
      change c.require2fa = ((w.touchSession env).conn.require2fa && _) at hview
      rw [hview, hconn, h2, Bool.false_and]
    refine Or.inr ⟨ha, ⟨c, g⟩, .password hc hg hdesk hclick (hverified hv), ?_⟩
    exact logonAndStartCm_ends h env _ lr hca hc2

theorem switchSides_arm_cases (h : Host) (env : Env) (bytes : Bytes) (lr : Option LoginRequest)
    {w : World} (h2 : w.conn.require2fa = false) :
    let a : Arm := .peer (.switchSidesResponse bytes lr)
    (Passive env w (w.arm h env a) ∧ (w.arm h env a).steady = w.steady) ∨
      (∃ l, Stored h env w (w.arm h env a) a l) ∨
    (w.conn.authorized = false ∧ ∃ v, Entry h env w a v ∧
      (ConnectFailed v (w.arm h env a) ∨ LoggedOn h env a v (w.arm h env a))) := by
  intro a
  have harm : w.arm h env a =
      afterMessage ((w.touchSession env).onSwitchSidesResponse h env bytes lr) := rfl
  have hconn := touchSession_conn env w
  have huuids : (w.touchSession env).glob.switchSidesUuid = w.glob.switchSidesUuid := by
    obtain ⟨times, heq⟩ := touchSession_glob env w
    rw [heq]
  have hstore : ∀ l (r : World × Bool), h.flutter = true →
      r.1.steady = ((w.touchSession env).switching env l).steady →
      r.1.request = ((w.touchSession env).switching env l).request →
      r.1.marks = ((w.touchSession env).switching env l).marks →
      Stored h env w (afterMessage r) (.peer (.switchSidesResponse bytes (some l))) l := by
    intro l r hf hs hr hm
    refine .switchSides hf ?_ ?_ fun _ => ?_
    · rw [apply_afterMessage steady fun _ => rfl, hs, ← steady_touchSession env w]
      rfl
    · rw [apply_afterMessage request fun _ => rfl, hr]
      unfold touchSession
      split <;> rfl
    · rw [apply_afterMessage marks fun _ => rfl, hm]
      unfold touchSession
      split <;> rfl
  rcases onSwitchSidesResponse_cases h env bytes lr (w.touchSession env) with ⟨heq, _⟩ |
    ⟨l, hf, rfl, heq⟩ | ⟨l, t, uuid, hf, rfl, hslice, hstored, hage, heq⟩
  · rw [harm, heq]
    refine Or.inl ⟨(Passive.touchSession w).afterMessage, ?_⟩
    rw [apply_afterMessage steady fun _ => rfl]
    exact steady_touchSession env w
  · rw [harm, heq]
    exact Or.inr (Or.inl ⟨l, hstore l _ hf rfl rfl rfl⟩)
  · by_cases ha : w.conn.authorized
    · -- An authorized connection stores the request and shows it once more.
      have hswitch : ((w.touchSession env).switching env l).conn.authorized = true :=
        (congrArg Connection.authorized hconn).trans ha
      obtain ⟨hs, hr, hm⟩ := logonFromSwitch_authorized h env l hswitch
      rw [harm, heq]
      exact Or.inr (Or.inl ⟨l, hstore l _ hf hs hr hm⟩)
    · have ha : w.conn.authorized = false := by simpa using ha
      rw [huuids] at hstored
      refine Or.inr (Or.inr ⟨ha, _, .switchSides hf hslice hstored hage, ?_⟩)
      rw [harm, heq]
      refine logonFromSwitch_ends h env a l ?_ ?_
      · exact (congrArg Connection.authorized hconn).trans ha
      · change ((w.touchSession env).conn.require2fa && _) = false
        rw [hconn, h2, Bool.false_and]

theorem authorize_arm_cases (h : Host) (env : Env) {w : World}
    (h2 : w.conn.require2fa = false) :
    (Passive env w (w.arm h env (.cm .authorize)) ∧
      (w.arm h env (.cm .authorize)).steady = w.steady) ∨
    (w.conn.authorized = false ∧ (ConnectFailed w (w.arm h env (.cm .authorize)) ∨
      LoggedOn h env (.cm .authorize) w (w.arm h env (.cm .authorize)))) := by
  have hsame : ({ w with conn := { w.conn with require2fa := false } } : World) = w := by
    rw [← h2]
  have hleave : ∀ {α : Sort _} (π : World → α), (∀ w, π w.leaveLoop = π w) → ∀ w : World,
      π (if w.conn.portForwardSocket.isSome then w.leaveLoop else w) = π w := by
    intro α π hπ w
    split
    · exact hπ w
    · rfl
  simp only [arm, cmData, hsame]
  rcases logon_cases h env w with ⟨_, heq⟩ | ⟨h1, _⟩ | ⟨ha, addr, sent, heq⟩ | ⟨ha, heq⟩
  · rw [heq]
    dsimp only
    split
    · exact Or.inl ⟨Passive.leaveLoop w, rfl⟩
    · exact Or.inl ⟨Passive.refl env w, rfl⟩
  · rw [h2] at h1
    cases h1
  · rw [heq]
    exact Or.inr ⟨ha, Or.inl ⟨addr, sent, rfl⟩⟩
  · rw [heq]
    dsimp only
    refine Or.inr ⟨ha, Or.inr ⟨?_, Or.inl ⟨rfl, ?_⟩⟩⟩
    · exact hleave settled (fun _ => rfl) _
    · exact hleave (fun w => w.conn.toCm) (fun _ => rfl) _

/-- Everything an arm can do, on a connection that owes no 2FA code: leave the identity
    alone, store a request, or come to the logon response with a credential, where the
    connect fails or the connection is authorized. -/
theorem arm_cases (h : Host) (env : Env) (a : Arm) {w : World} (h2 : w.conn.require2fa = false) :
    Passive env w (w.arm h env a) ∨ (∃ lr, Stored h env w (w.arm h env a) a lr) ∨
    (w.conn.authorized = false ∧ ∃ v, Entry h env w a v ∧
      (ConnectFailed v (w.arm h env a) ∨ LoggedOn h env a v (w.arm h env a))) := by
  by_cases hl : a.isLogin
  · cases a with
    | peer msg =>
      cases msg with
      | loginRequest lr =>
        rcases loginRequest_arm_cases h env lr h2 with hs | hentry
        · exact Or.inr (Or.inl ⟨lr, hs⟩)
        · exact Or.inr (Or.inr hentry)
      | switchSidesResponse bytes lr =>
        exact (switchSides_arm_cases h env bytes lr h2).imp_left And.left
      | auth2fa code hwid =>
        have h2' : (w.touchSession env).conn.require2fa = false := by
          rw [touchSession_conn, h2]
        obtain ⟨sent, heq⟩ := onAuth2fa_without_2fa h env code h2'
        refine Or.inl ((Passive.touchSession w).trans ?_)
        change Passive env _ (afterMessage ((w.touchSession env).onAuth2fa h env code))
        rw [heq]
        exact Passive.afterMessage (.view rfl)
      | _ => cases hl
    | cm data =>
      cases data with
      | authorize =>
        rcases authorize_arm_cases h env h2 with ⟨hp, _⟩ | ⟨ha, hends⟩
        · exact Or.inl hp
        · exact Or.inr (Or.inr ⟨ha, w, .accepted, hends⟩)
      | _ => cases hl
    | _ => cases hl
  · exact Or.inl (passive_arm h env (by simpa using hl) w)

end World

end LuodaRemote
