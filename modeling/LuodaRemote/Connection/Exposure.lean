/-
  What an arm of the loop exposes: the services it subscribes its connection to and the
  events it hands to the input thread.

  `SwitchesOn` and `Forwards` read both off the message and the state before. `aside_arm` and
  `isSubed_arm_other`: no arm touches the subscriptions of another connection.
  `isSubed_arm_of`: a service that the kind of the connection rules out is subscribed to only
  by an arm that switches it on; `isSubed_afterLogin_of` is the same for a logon. On the way,
  `arm_marked`: while the loop goes on, the marks of an authorized connection are those of its
  kind.
-/
import LuodaRemote.Connection.Invariant

namespace LuodaRemote

/-- The services a connection of the kind may not be subscribed to. -/
def AuthConnType.excludes : AuthConnType → ServiceName → Bool
  | remote, _ => false
  | viewCamera, .video .monitor _ | viewCamera, .clipboard => true
  | viewCamera, _ => false
  | fileTransfer, n | portForward, n | terminal, n =>
    n.isVideo || n ∈ [.clipboard, .audio, .cursor, .pos, .windowFocus]

/-- The connection may not be subscribed to the service. -/
def Connection.Excluded (c : Connection) (n : ServiceName) : Prop :=
  c.authorized = false ∨ ∃ k, c.authedConnId = some k ∧ k.excludes n = true

namespace World

/-! ## Other connections and the input thread -/

/-- The subscriptions of the other connections, and the input events. -/
def aside (w : World) : Int × (ServiceName → Int → Bool) × List MessageInput :=
  (w.conn.id, fun n j => j != w.conn.id && w.glob.server.isSubed n j,
    w.conn.toInput.filter MessageInput.isEvent)

theorem aside_of_server {w w' : World} (hid : w'.conn.id = w.conn.id)
    (hin : w'.conn.toInput = w.conn.toInput)
    (hsrv : ∀ n j, j ≠ w.conn.id →
      w'.glob.server.isSubed n j = w.glob.server.isSubed n j) : w'.aside = w.aside := by
  unfold aside
  rw [hid, hin]
  congr 2
  funext n j
  by_cases hj : j = w.conn.id
  · simp [hj]
  · rw [hsrv n j hj]

@[simp] theorem aside_subscribe (n : ServiceName) (b : Bool) (w : World) :
    (w.subscribe n b).aside = w.aside := by
  refine aside_of_server rfl rfl fun m j hj => ?_
  rw [isSubed_subscribe, if_neg fun hc => hj hc.2]

@[simp] theorem aside_updateOptions (h : Host) (o : OptionMessage) (w : World) :
    (w.updateOptions h o).aside = w.aside := by
  refine apply_updateOptions aside (fun _ _ => rfl) aside_subscribe (fun _ _ => rfl)
    (fun _ _ => rfl) ?_ ?_ (fun _ _ => rfl) h o w
  all_goals
    intro w
    simp [aside, sendToInput, MessageInput.isEvent]

@[simp] theorem aside_subscribeAudio (w : World) : w.subscribeAudio.aside = w.aside := by
  unfold subscribeAudio
  split_ifs
  · exact aside_subscribe _ _ w
  · rfl
  · exact aside_subscribe _ _ w

@[simp] theorem aside_subscribeFileClipboard (h : Host) (w : World) :
    (w.subscribeFileClipboard h).aside = w.aside := by
  unfold subscribeFileClipboard
  split
  · exact aside_subscribe _ _ w
  · rfl

theorem aside_switchPermission (h : Host) (name : SwitchName) (enabled : Bool) (w : World) :
    (w.switchPermission h name enabled).aside = w.aside := by
  cases name with
  | keyboard =>
    unfold switchPermission
    dsimp only
    rw [aside_subscribe, aside_subscribeFileClipboard]
    exact aside_subscribe _ _ _
  | clipboard => exact aside_subscribe _ _ _
  | audio =>
    unfold switchPermission
    dsimp only
    split
    · exact aside_subscribeAudio _
    · rfl
  | file => exact aside_subscribeFileClipboard _ _
  | _ => rfl

/-- Turning to a display subscribes to it, if the server has it or is given it. -/
theorem isSubed_switchDisplayTo_of {h : Host} {d : Nat} {w : World} {n : ServiceName} {j : Int}
    (hs : (w.switchDisplayTo h d).glob.server.isSubed n j = true) :
    w.glob.server.isSubed n j = true ∨ j = w.conn.id ∧ n = .video w.conn.videoSource d ∧
      (d ≠ h.primaryDisplayIdx ∨ w.glob.server.contains n = true) := by
  unfold switchDisplayTo at hs
  dsimp only at hs
  rw [Server.isSubed_subscribe] at hs
  split at hs
  · rename_i heq
    refine Or.inr ⟨heq.2, heq.1, ?_⟩
    by_cases hd : d = h.primaryDisplayIdx
    · refine Or.inr ?_
      split_ifs at hs <;> simp_all
    · exact Or.inl hd
  · refine Or.inl ?_
    split_ifs at hs with hv hp hp
    · simpa using hs
    · exact hs
    · rw [Server.isSubed_subscribe] at hs
      split at hs
      · simp at hs
      · simpa using hs
    · rw [Server.isSubed_subscribe] at hs
      split at hs
      · simp at hs
      · exact hs

theorem aside_handleSwitchDisplay (h : Host) (display : Int) (w : World) :
    (w.handleSwitchDisplay h display).aside = w.aside := by
  unfold handleSwitchDisplay switchDisplayTo
  dsimp only
  split
  · refine aside_of_server rfl rfl fun n j hj => ?_
    split_ifs <;> simp [send, Server.isSubed_subscribe, hj]
  · rfl

/-- Adding video services subscribes nobody. -/
theorem isSubed_addVideoServices (source : VideoSource) (ds : List Nat) (srv : Server)
    (n : ServiceName) (j : Int) :
    (ds.foldl (fun srv d => srv.addVideoService source d) srv).isSubed n j =
      srv.isSubed n j := by
  induction ds generalizing srv with
  | nil => rfl
  | cons d ds ih => rw [List.foldl_cons, ih, Server.isSubed_addVideoService]

theorem contains_addVideoServices (source : VideoSource) (ds : List Nat) (srv : Server)
    {n : ServiceName} (hn : n.isVideo = false) :
    (ds.foldl (fun srv d => srv.addVideoService source d) srv).contains n =
      srv.contains n := by
  induction ds generalizing srv with
  | nil => rfl
  | cons d ds ih =>
    rw [List.foldl_cons, ih, Server.contains_addVideoService_of_not_isVideo _ _ _ hn]

/-- The displays a `CaptureDisplays` message adds: `sub` is looked at only without `add`,
    `set` only without both. -/
def capturedDisplays (add sub set : List Nat) : List Nat :=
  if !add.isEmpty then add else if !sub.isEmpty then [] else set

/-- The server after the displays of the message were added and taken away. -/
theorem isSubed_capture {srv : Server} {id : Int} {source : VideoSource} {displays : List Nat}
    {incl excl : Bool} {n : ServiceName} {j : Int}
    (hs : (srv.captureDisplays id source displays incl excl).isSubed n j = true) :
    srv.isSubed n j = true ∨
      j = id ∧ incl = true ∧ ∃ d ∈ displays, n = .video source d := by
  rw [Server.isSubed_captureDisplays] at hs
  split_ifs at hs with hv hmem hi
  · obtain ⟨d, hd, heq⟩ := List.mem_map.mp hmem
    exact Or.inr ⟨hv.2, hi, d, hd, heq.symm⟩
  · exact Or.inl hs
  · exact Or.inl hs
  · exact Or.inl hs

/-- The displays of the message are subscribed to, and at times the window focus. -/
theorem isSubed_captureDisplays_of {add sub set : List Nat} {w : World} {n : ServiceName}
    {j : Int} (hs : (w.captureDisplays add sub set).glob.server.isSubed n j = true) :
    w.glob.server.isSubed n j = true ∨ j = w.conn.id ∧
      ((∃ d ∈ capturedDisplays add sub set, n = .video w.conn.videoSource d) ∨
        n = .windowFocus ∧ w.conn.flags.followRemoteWindow = true ∧
          w.glob.server.contains n = true) := by
  let added := (add ++ set).foldl (fun srv d => srv.addVideoService w.conn.videoSource d)
    w.glob.server
  let captured :=
    if !add.isEmpty then added.captureDisplays w.conn.id w.conn.videoSource add true false
    else if !sub.isEmpty then added.captureDisplays w.conn.id w.conn.videoSource sub false true
    else added.captureDisplays w.conn.id w.conn.videoSource set true true
  have hadded : added.isSubed n j = w.glob.server.isSubed n j :=
    isSubed_addVideoServices _ _ _ n j
  have hcaptured : captured.isSubed n j = true → w.glob.server.isSubed n j = true ∨
      j = w.conn.id ∧ ∃ d ∈ capturedDisplays add sub set, n = .video w.conn.videoSource d := by
    intro hc
    rw [← hadded]
    unfold capturedDisplays
    dsimp only [captured] at hc
    split_ifs at hc ⊢ with ha hb
    · exact (isSubed_capture hc).imp_right fun ⟨hj, _, hd⟩ => ⟨hj, hd⟩
    · exact (isSubed_capture hc).imp_right fun ⟨_, hi, _⟩ => absurd hi (by simp)
    · exact (isSubed_capture hc).imp_right fun ⟨hj, _, hd⟩ => ⟨hj, hd⟩
  have hcontains : n = .windowFocus → captured.contains n = w.glob.server.contains n := by
    rintro rfl
    dsimp only [captured]
    split_ifs <;>
      rw [Server.contains_captureDisplays] <;> exact contains_addVideoServices _ _ _ rfl
  change (if w.conn.flags.followRemoteWindow then captured.subscribe .windowFocus w.conn.id _
    else captured).isSubed n j = true at hs
  split at hs
  · rename_i hfollow
    rw [Server.isSubed_subscribe] at hs
    split at hs
    · rename_i heq
      rw [Bool.and_eq_true, hcontains heq.1] at hs
      exact Or.inr ⟨heq.2, Or.inr ⟨heq.1, hfollow, hs.1⟩⟩
    · exact (hcaptured hs).imp_right fun ⟨hj, hd⟩ => ⟨hj, Or.inl hd⟩
  · exact (hcaptured hs).imp_right fun ⟨hj, hd⟩ => ⟨hj, Or.inl hd⟩

theorem aside_captureDisplays (add sub set : List Nat) (w : World) :
    (w.captureDisplays add sub set).aside = w.aside := by
  unfold captureDisplays
  dsimp only
  refine aside_of_server rfl rfl fun n j hj => ?_
  dsimp only
  have hcapture : ∀ (srv : Server) (displays : List Nat) (incl excl : Bool),
      (srv.captureDisplays w.conn.id w.conn.videoSource displays incl excl).isSubed n j =
        srv.isSubed n j := by
    intro srv displays incl excl
    rw [Server.isSubed_captureDisplays, if_neg fun hc => hj hc.2]
  split_ifs <;>
    simp only [Server.isSubed_subscribe, hj, and_false, if_false, hcapture,
      isSubed_addVideoServices]

theorem aside_handleVoiceCall (accepted : Bool) (w : World) :
    (w.handleVoiceCall accepted).aside = w.aside := by
  unfold handleVoiceCall
  generalize (if accepted then ToCm.startVoiceCall else .closeVoiceCall) = m
  split
  · dsimp only
    split
    · exact aside_subscribe _ _ _
    · rfl
  · rfl

theorem aside_closeVoiceCall (w : World) : w.closeVoiceCall.aside = w.aside := by
  unfold closeVoiceCall
  dsimp only
  split
  · exact aside_subscribe _ _ _
  · rfl

theorem aside_trySubMonitorServices (h : Host) (w : World) :
    (w.trySubMonitorServices h).aside = w.aside := by
  unfold trySubMonitorServices
  split
  · refine aside_of_server rfl rfl fun n j hj => ?_
    rw [Server.isSubed_addConnection, if_neg fun hc => hj hc.2.2]
    exact Server.isSubed_addVideoService _ _ _ _ _
  · rfl

theorem aside_trySubCameraDisplays (env : Env) (w : World) :
    (w.trySubCameraDisplays env).aside = w.aside := by
  unfold trySubCameraDisplays
  refine aside_of_server rfl rfl fun n j hj => ?_
  rw [Server.isSubed_addCameraConnection]
  simp [hj]

theorem aside_onClose (w : World) : w.onClose.aside = w.aside := by
  unfold onClose
  split <;> rfl

theorem aside_checkRemoveSession (w : World) : w.checkRemoveSession.aside = w.aside := by
  unfold checkRemoveSession Globals.checkRemoveSession
  dsimp only
  split_ifs <;> rfl

theorem aside_touchSession (env : Env) (w : World) : (w.touchSession env).aside = w.aside := by
  unfold touchSession
  split <;> rfl

/-- The arm hands an event of the peer to the input thread. -/
def Forwards (w : World) (a : Arm) : Prop :=
  w.conn.authorized = true ∧ w.conn.portForwardSocket = none ∧
  w.conn.isAuthedViewCameraConn = false ∧
  match a with
  | .peer (.mouseEvent _) =>
    w.conn.flags.peerKeyboardEnabled = true ∨ w.conn.flags.showMyCursor = true
  | .peer (.pointerDeviceEvent _) | .peer (.keyEvent _) =>
    w.conn.flags.peerKeyboardEnabled = true
  | _ => False

section
variable {h : Host} {env : Env} {w : World}

theorem aside_onMisc (m : Misc) : (w.onMisc h env m).1.aside = w.aside := by
  cases m with
  | closeReason _ | other => rfl
  | switchDisplay display => exact aside_handleSwitchDisplay h display w
  | captureDisplays add sub set => exact aside_captureDisplays _ _ _ w
  | option o => exact aside_updateOptions h o w
  | switchSidesRequest uuid =>
    simp only [onMisc]
    split
    · exact aside_onClose w
    · rfl
  | selectedSid sid =>
    simp only [onMisc, onSelectedSid]
    split_ifs
    · rfl
    · rfl
    · exact aside_trySubCameraDisplays env w
    · rfl
    · exact aside_trySubMonitorServices h w
    · rfl

theorem aside_onAuthorizedMessage {msg : Message} (ha : w.conn.authorized = true)
    (hf : ¬w.Forwards (.peer msg)) : (w.onAuthorizedMessage h env msg).1.aside = w.aside := by
  unfold onAuthorizedMessage
  split
  · rfl
  · rename_i hs
    have hs : w.conn.portForwardSocket = none := by simpa using hs
    cases msg with
    | mouseEvent me =>
      dsimp only [onMouseEvent]
      split_ifs with hcam hk hc
      · rfl
      · exact absurd ⟨ha, hs, by simpa using hcam, Or.inl hk⟩ hf
      · exact absurd ⟨ha, hs, by simpa using hcam, Or.inr hc⟩ hf
      · rfl
    | pointerDeviceEvent pde =>
      dsimp only [onPointerDeviceEvent]
      split_ifs with hcam hk
      · rfl
      · exact absurd ⟨ha, hs, by simpa using hcam, hk⟩ hf
      · rfl
    | keyEvent ke =>
      dsimp only [onKeyEvent]
      split_ifs with hcam hk
      · rfl
      · exact absurd ⟨ha, hs, by simpa using hcam, hk⟩ hf
      · rfl
    | voiceCallRequest isConnect reqTimestamp =>
      dsimp only
      split
      · rfl
      · exact aside_closeVoiceCall w
    | misc m => exact aside_onMisc m
    | _ => rfl

theorem aside_peerMessage {msg : Message} (hmsg : msg.isLogin = false)
    (hf : ¬w.Forwards (.peer msg)) : (w.peerMessage h env msg).aside = w.aside := by
  have htouch := aside_touchSession env w
  have hf' : ¬(w.touchSession env).Forwards (.peer msg) := by
    unfold Forwards at hf ⊢
    rw [touchSession_conn]
    exact hf
  unfold peerMessage
  rw [apply_afterMessage aside fun _ => rfl, ← htouch]
  generalize w.touchSession env = w at hf'
  have hother : (if w.conn.authorized then w.onAuthorizedMessage h env msg
      else (w, true)).1.aside = w.aside := by
    split
    · rename_i ha
      exact aside_onAuthorizedMessage ha hf'
    · rfl
  cases msg with
  | misc m =>
    cases m with
    | closeReason reason => exact (aside_checkRemoveSession _).trans (aside_onClose w)
    | _ => exact hother
  | testDelay fromClient =>
    simp only [onMessage, onTestDelay]
    split <;> rfl
  | loginRequest _ | auth2fa _ _ | switchSidesResponse _ _ => cases hmsg
  | _ => exact hother

theorem aside_cmData {data : CmData} (hdata : data ≠ .authorize) :
    (w.cmData h env data).aside = w.aside := by
  cases data with
  | authorize => exact absurd rfl hdata
  | close =>
    refine (aside_onClose _).trans ?_
    exact aside_checkRemoveSession _
  | cmErr e =>
    dsimp only [cmData]
    split
    · exact aside_onClose w
    · rfl
  | switchPermission name enabled => exact aside_switchPermission h name enabled w
  | voiceCallResponse accepted => exact aside_handleVoiceCall accepted w
  | closeVoiceCall => exact aside_closeVoiceCall w
  | other => rfl

theorem aside_takeOptionsInLogin : (w.takeOptionsInLogin h).aside = w.aside := by
  unfold takeOptionsInLogin
  split
  · exact aside_updateOptions _ _ _
  · rfl

theorem aside_afterLogin : (w.afterLogin h env).aside = w.aside := by
  unfold afterLogin
  split_ifs
  · rfl
  · rfl
  · exact aside_takeOptionsInLogin
  · exact aside_takeOptionsInLogin
  · exact (aside_trySubCameraDisplays _ _).trans aside_takeOptionsInLogin
  · split
    · exact aside_takeOptionsInLogin
    · exact (aside_trySubMonitorServices _ _).trans aside_takeOptionsInLogin

/-- The state of the server and of the channel to the input thread at the end of a logon. -/
theorem LoggedOn.server_eq {a : Arm} {v w' : World} (hl : LoggedOn h env a v w') :
    w'.glob.server = (v.connected.authorize.afterLogin h env).glob.server := by
  have hview := congrArg (fun w : World => w.glob.server) hl.1
  exact hview

theorem LoggedOn.aside_eq {a : Arm} {v w' : World} (hl : LoggedOn h env a v w') :
    w'.aside = v.aside := by
  have hview := congrArg aside hl.1
  refine hview.trans (aside_afterLogin.trans ?_)
  exact apply_connected aside (fun _ _ => rfl) v

/-- Only the input arms change what is kept aside. -/
theorem aside_arm (h : Host) (env : Env) {a : Arm} (h2 : w.conn.require2fa = false)
    (hf : ¬w.Forwards a) :
    (w.arm h env a).aside = w.aside := by
  by_cases hl : a.isLogin
  · rcases login_arm_cases h env hl h2 with hs | ⟨_, v, he, hlog⟩
    · have hview := congrArg aside hs
      exact hview
    · have hview := congrArg aside he.steady_eq
      exact hlog.aside_eq.trans hview
  · cases a with
    | peer msg => exact aside_peerMessage (Bool.eq_false_iff.mpr hl) hf
    | peerGarbage => exact aside_touchSession env w
    | cm data => exact aside_cmData fun hd => hl (by rw [hd]; rfl)
    | testDelayTick =>
      dsimp only [arm, testDelayTick]
      split <;> rfl
    | hostClose reason =>
      cases reason with
      | none => exact aside_onClose w
      | some reason => exact (aside_onClose _).trans (aside_checkRemoveSession _)

end

/-! ## The arms that subscribe -/

/-- The service is on after the options of `o`, and `o` refreshes it. -/
def optionOn (h : Host) (f : Flags) (o : OptionMessage) : ServiceName → Bool
  | .cursor => (o.showRemoteCursor.choice.isSome || o.disableKeyboard.choice.isSome) &&
      (f.withOptions h o).cursorEnabled
  | .pos => o.showRemoteCursor == .yes
  | .windowFocus => o.followRemoteWindow == .yes
  | .audio => o.disableAudio.choice.isSome && (f.withOptions h o).audioEnabled
  | .clipboard => (o.disableClipboard.choice.isSome || o.disableKeyboard.choice.isSome) &&
      (f.withOptions h o).canSubClipboardService h
  | _ => false

/-- The service is on after the switch, and the switch refreshes it. -/
def switchOn (h : Host) (f : Flags) : SwitchName → Bool → ServiceName → Bool
  | .keyboard, enabled, .cursor => enabled || f.showRemoteCursor
  | .keyboard, enabled, .clipboard => { f with keyboard := enabled }.canSubClipboardService h
  | .keyboard, enabled, .fileClipboard =>
    h.unixFileCopyPaste && { f with keyboard := enabled }.canSubFileClipboardService h
  | .clipboard, enabled, .clipboard => { f with clipboard := enabled }.canSubClipboardService h
  | .audio, enabled, .audio => { f with audio := enabled }.audioEnabled
  | .file, enabled, .fileClipboard =>
    h.unixFileCopyPaste && { f with file := enabled }.canSubFileClipboardService h
  | _, _, _ => false

/-- The arm subscribes the connection to the service. Neither of the two conditions that look
    at the kind, audio on a camera connection and the first subscription of a remote one,
    is met by a connection the service is kept from. -/
def SwitchesOn (h : Host) (w : World) (n : ServiceName) : Arm → Prop
  | .cm (.switchPermission name enabled) =>
    w.glob.server.contains n = true ∧ switchOn h w.conn.flags name enabled n = true ∧
      (name = .audio → w.conn.authorized = true)
  | .peer (.misc m) => w.conn.authorized = true ∧ w.conn.portForwardSocket = none ∧
      match m with
      | .switchDisplay display =>
        w.conn.displayIdx ≠ asUsize display ∧
          n = .video w.conn.videoSource (asUsize display) ∧
          (asUsize display ≠ h.primaryDisplayIdx ∨ w.glob.server.contains n = true)
      | .captureDisplays add sub set =>
        (∃ d ∈ capturedDisplays (add.map asUsize) (sub.map asUsize) (set.map asUsize),
          n = .video w.conn.videoSource d) ∨
        n = .windowFocus ∧ w.conn.flags.followRemoteWindow = true ∧
          w.glob.server.contains n = true
      | .option o => w.glob.server.contains n = true ∧ optionOn h w.conn.flags o n = true
      | _ => False
  | _ => False

section
variable {h : Host} {env : Env} {w : World} {n : ServiceName}

theorem isSubed_updateOptions_of {o : OptionMessage} {k : AuthConnType}
    (hn : k.excludes n = true)
    (hs : (w.updateOptions h o).glob.server.isSubed n w.conn.id = true) :
    w.glob.server.isSubed n w.conn.id = true ∨
      w.glob.server.contains n = true ∧ optionOn h w.conn.flags o n = true := by
  cases n with
  | cursor =>
    rw [isSubed_cursor_updateOptions] at hs
    split at hs
    · rename_i hset
      rw [Bool.and_eq_true] at hs
      exact Or.inr ⟨hs.1, by simpa [optionOn, hs.2] using hset⟩
    · exact Or.inl hs
  | pos =>
    rw [isSubed_pos_updateOptions] at hs
    split at hs
    · rw [Bool.and_eq_true, Flags.showRemoteCursor_withOptions] at hs
      refine Or.inr ⟨hs.1, ?_⟩
      cases ho : o.showRemoteCursor <;> simp_all [optionOn, BoolOption.choice]
    · exact Or.inl hs
  | windowFocus =>
    rw [isSubed_windowFocus_updateOptions] at hs
    split at hs
    · rw [Bool.and_eq_true, Flags.followRemoteWindow_withOptions] at hs
      refine Or.inr ⟨hs.1, ?_⟩
      cases ho : o.followRemoteWindow <;> simp_all [optionOn, BoolOption.choice]
    · exact Or.inl hs
  | audio =>
    rw [isSubed_audio_updateOptions] at hs
    split at hs
    · rename_i hset
      rw [Bool.and_eq_true] at hs
      exact Or.inr ⟨hs.1, by simp [optionOn, hs.2, choice_isSome.mp hset.1]⟩
    · exact Or.inl hs
  | clipboard =>
    rw [isSubed_clipboard_updateOptions] at hs
    split at hs
    · rename_i hset
      rw [Bool.and_eq_true] at hs
      exact Or.inr ⟨hs.1, by simpa [optionOn, hs.2] using hset⟩
    · exact Or.inl hs
  | video source idx =>
    rw [isSubed_video_updateOptions] at hs
    exact Or.inl hs
  | display | fileClipboard | printer =>
    cases k <;> simp [AuthConnType.excludes, ServiceName.isVideo] at hn

/-- The keyboard permission refreshes three services, the cursor not by its predicate. -/
theorem isSubed_switchPermission_keyboard (enabled : Bool) (w : World) (m : ServiceName) :
    (w.switchPermission h .keyboard enabled).glob.server.isSubed m w.conn.id =
      let f := { w.conn.flags with keyboard := enabled }
      if m = .cursor then w.glob.server.contains m && (enabled || f.showRemoteCursor)
      else if m = .fileClipboard ∧ h.unixFileCopyPaste = true then
        w.glob.server.contains m && f.canSubFileClipboardService h
      else if m = .clipboard then w.glob.server.contains m && f.canSubClipboardService h
      else w.glob.server.isSubed m w.conn.id := by
  unfold switchPermission
  dsimp only
  rw [isSubed_subscribe, isSubed_subscribeFileClipboard]
  simp only [conn_subscribeFileClipboard, contains_subscribeFileClipboard, subscribeClipboard,
    isSubed_subscribe]
  simp [subscribe, setFlags, send]

@[simp] theorem id_switchPermission (name : SwitchName) (enabled : Bool) (w : World) :
    (w.switchPermission h name enabled).conn.id = w.conn.id := by
  have hview := congrArg (fun w : World => w.conn.id)
    (loginView_switchPermission h name enabled w)
  exact hview

@[simp] theorem contains_switchPermission (name : SwitchName) (enabled : Bool) (w : World)
    (m : ServiceName) :
    (w.switchPermission h name enabled).glob.server.contains m =
      w.glob.server.contains m := by
  have haudio : ∀ w : World,
      w.subscribeAudio.glob.server.contains m = w.glob.server.contains m := by
    intro w
    unfold subscribeAudio
    split_ifs
    · exact Server.contains_subscribe _ _ _ _ _
    · rfl
    · exact Server.contains_subscribe _ _ _ _ _
  cases name with
  | keyboard =>
    simp [switchPermission, subscribe, subscribeClipboard, setFlags, send, subscribeFileClipboard]
    split <;> simp
  | clipboard => simp [switchPermission, subscribe, subscribeClipboard, setFlags, send]
  | audio =>
    unfold switchPermission
    dsimp only
    split
    · exact haudio _
    · rfl
  | file => simp [switchPermission, setFlags, send]
  | _ => rfl

theorem isSubed_switchPermission_of {name : SwitchName} {enabled : Bool}
    (hs : (w.switchPermission h name enabled).glob.server.isSubed n w.conn.id = true) :
    w.glob.server.isSubed n w.conn.id = true ∨
      w.glob.server.contains n = true ∧ switchOn h w.conn.flags name enabled n = true ∧
        (name = .audio → w.conn.authorized = true) := by
  cases name with
  | keyboard =>
    rw [isSubed_switchPermission_keyboard] at hs
    dsimp only at hs
    split_ifs at hs with h1 h2 h3
    · subst h1
      rw [Bool.and_eq_true] at hs
      exact Or.inr ⟨hs.1, hs.2, by simp⟩
    · obtain ⟨rfl, hfcp⟩ := h2
      rw [Bool.and_eq_true] at hs
      exact Or.inr ⟨hs.1, Bool.and_eq_true_iff.mpr ⟨hfcp, hs.2⟩, by simp⟩
    · subst h3
      rw [Bool.and_eq_true] at hs
      exact Or.inr ⟨hs.1, hs.2, by simp⟩
    · exact Or.inl hs
  | clipboard =>
    have hs := (isSubed_subscribe _ _ _ _ _).symm.trans hs
    split at hs
    · rename_i heq
      obtain ⟨rfl, _⟩ := heq
      rw [Bool.and_eq_true] at hs
      exact Or.inr ⟨hs.1, hs.2, by simp⟩
    · exact Or.inl hs
  | audio =>
    unfold switchPermission at hs
    dsimp only at hs
    split at hs
    · rename_i ha
      rw [isSubed_subscribeAudio] at hs
      split at hs
      · rename_i heq
        obtain ⟨rfl, _⟩ := heq
        rw [Bool.and_eq_true] at hs
        exact Or.inr ⟨hs.1, hs.2, fun _ => ha⟩
      · exact Or.inl hs
    · exact Or.inl hs
  | file =>
    have hs := (isSubed_subscribeFileClipboard _ _ _ _).symm.trans hs
    split at hs
    · rename_i heq
      obtain ⟨rfl, _, hfcp⟩ := heq
      rw [Bool.and_eq_true] at hs
      exact Or.inr ⟨hs.1, Bool.and_eq_true_iff.mpr ⟨hfcp, hs.2⟩, by simp⟩
    · exact Or.inl hs
  | _ => exact Or.inl hs

theorem server_onClose : w.onClose.glob.server = w.glob.server :=
  congrArg (·.server) (onClose_glob w)

theorem server_checkRemoveSession : w.checkRemoveSession.glob.server = w.glob.server := by
  obtain ⟨_, _, heq⟩ := w.glob.checkRemoveSession_eq w.conn.id w.conn.sessionKey
  exact congrArg (·.server) heq

theorem server_touchSession : (w.touchSession env).glob.server = w.glob.server := by
  obtain ⟨times, heq⟩ := touchSession_glob env w
  rw [heq]

/-- A voice call reaches the audio of a camera connection only. -/
theorem isSubed_handleVoiceCall_of {accepted : Bool}
    (hn : w.conn.isAuthedViewCameraConn = true → n ≠ .audio)
    (hs : (w.handleVoiceCall accepted).glob.server.isSubed n w.conn.id = true) :
    w.glob.server.isSubed n w.conn.id = true := by
  unfold handleVoiceCall at hs
  generalize (if accepted then ToCm.startVoiceCall else .closeVoiceCall) = m at hs
  split at hs
  · dsimp only at hs
    split at hs
    · rename_i hcam
      rw [isSubed_subscribe, if_neg fun heq => hn hcam heq.1] at hs
      exact hs
    · exact hs
  · exact hs

theorem isSubed_closeVoiceCall_of
    (hs : w.closeVoiceCall.glob.server.isSubed n w.conn.id = true) :
    w.glob.server.isSubed n w.conn.id = true := by
  unfold closeVoiceCall at hs
  dsimp only at hs
  split at hs
  · rw [isSubed_subscribe] at hs
    split at hs
    · simp at hs
    · exact hs
  · exact hs

/-- A user session that was picked brings a connection nothing its kind keeps from it. -/
theorem isSubed_onSelectedSid_of {sid : Nat} (hs : w.conn.portForwardSocket = none)
    (hn : w.conn.authConnType.excludes n = true)
    (hsub : (w.onSelectedSid h env sid).1.glob.server.isSubed n w.conn.id = true) :
    w.glob.server.isSubed n w.conn.id = true := by
  unfold onSelectedSid at hsub
  split_ifs at hsub with hsid hswitch hfile hcam hterm
  · exact hsub
  · exact hsub
  · have hkind : w.conn.authConnType = .viewCamera := by
      simp [Connection.authConnType, hs, hcam, by simpa using hfile]
    unfold trySubCameraDisplays at hsub
    rw [Server.isSubed_addCameraConnection, Bool.or_eq_true] at hsub
    rcases hsub with hsub | hcamera
    · exact hsub
    · rw [Bool.and_eq_true, Bool.and_eq_true, beq_iff_eq] at hcamera
      rw [hkind, hcamera.1.2] at hn
      cases hn
  · exact hsub
  · have hkind : w.conn.authConnType = .remote := by
      simp [Connection.authConnType, hs, hcam, hterm, by simpa using hfile]
    rw [hkind] at hn
    cases hn
  · exact hsub

theorem isSubed_onMisc_of {m : Misc} (ha : w.conn.authorized = true)
    (hs : w.conn.portForwardSocket = none) (hn : w.conn.authConnType.excludes n = true)
    (hsub : (w.onMisc h env m).1.glob.server.isSubed n w.conn.id = true) :
    w.glob.server.isSubed n w.conn.id = true ∨ SwitchesOn h w n (.peer (.misc m)) := by
  cases m with
  | closeReason _ | other => exact Or.inl hsub
  | switchDisplay display =>
    dsimp only [onMisc, handleSwitchDisplay] at hsub
    split at hsub
    · rename_i hne
      rcases isSubed_switchDisplayTo_of hsub with hsub | ⟨_, hnew⟩
      · exact Or.inl hsub
      · exact Or.inr ⟨ha, hs, hne, hnew⟩
    · exact Or.inl hsub
  | captureDisplays add sub set =>
    rcases isSubed_captureDisplays_of hsub with hsub | ⟨_, hnew⟩
    · exact Or.inl hsub
    · exact Or.inr ⟨ha, hs, hnew⟩
  | option o => exact (isSubed_updateOptions_of hn hsub).imp_right fun hnew => ⟨ha, hs, hnew⟩
  | switchSidesRequest uuid =>
    dsimp only [onMisc] at hsub
    split at hsub
    · rw [server_onClose] at hsub
      exact Or.inl hsub
    · exact Or.inl hsub
  | selectedSid sid => exact Or.inl (isSubed_onSelectedSid_of hs hn hsub)

/-- The mouse, the pointer and the keyboard have no hand in the subscriptions. -/
theorem server_input : (∀ me, (w.onMouseEvent me).glob.server = w.glob.server) ∧
    (∀ pde, (w.onPointerDeviceEvent pde).glob.server = w.glob.server) ∧
    ∀ ke, (w.onKeyEvent h ke).glob.server = w.glob.server :=
  apply_input (fun w => w.glob.server) (fun _ _ _ => rfl) h w

theorem isSubed_onAuthorizedMessage_of {msg : Message} (ha : w.conn.authorized = true)
    (hn : w.conn.authConnType.excludes n = true)
    (hsub : (w.onAuthorizedMessage h env msg).1.glob.server.isSubed n w.conn.id = true) :
    w.glob.server.isSubed n w.conn.id = true ∨ SwitchesOn h w n (.peer msg) := by
  unfold onAuthorizedMessage at hsub
  split at hsub
  · exact Or.inl hsub
  · rename_i hs
    have hs : w.conn.portForwardSocket = none := by simpa using hs
    cases msg with
    | mouseEvent me =>
      rw [server_input (h := h).1] at hsub
      exact Or.inl hsub
    | pointerDeviceEvent pde =>
      rw [server_input (h := h).2.1] at hsub
      exact Or.inl hsub
    | keyEvent ke =>
      rw [server_input.2.2] at hsub
      exact Or.inl hsub
    | voiceCallRequest isConnect reqTimestamp =>
      dsimp only at hsub
      split at hsub
      · exact Or.inl hsub
      · exact Or.inl (isSubed_closeVoiceCall_of hsub)
    | misc m => exact isSubed_onMisc_of ha hs hn hsub
    | _ => exact Or.inl hsub

theorem isSubed_peerMessage_of {msg : Message} (hmsg : msg.isLogin = false)
    (hn : w.conn.authorized = true → w.conn.authConnType.excludes n = true)
    (hsub : (w.peerMessage h env msg).glob.server.isSubed n w.conn.id = true) :
    w.glob.server.isSubed n w.conn.id = true ∨ SwitchesOn h w n (.peer msg) := by
  unfold peerMessage at hsub
  rw [apply_afterMessage (fun v => v.glob.server.isSubed n w.conn.id) fun _ => rfl] at hsub
  -- Touching the session changes neither the connection nor the server.
  obtain ⟨times, htouch⟩ : ∃ times, w.touchSession env =
      ⟨w.conn, { w.glob with recvTimes := times }⟩ := by
    obtain ⟨times, hglob⟩ := touchSession_glob env w
    exact ⟨times, by rw [← hglob, ← touchSession_conn env w]⟩
  rw [htouch] at hsub
  generalize hv : (⟨w.conn, { w.glob with recvTimes := times }⟩ : World) = v at hsub
  have hgoal : v.glob.server.isSubed n v.conn.id = true ∨ SwitchesOn h v n (.peer msg) →
      w.glob.server.isSubed n w.conn.id = true ∨ SwitchesOn h w n (.peer msg) := by
    subst hv
    exact id
  have hconn : v.conn = w.conn := by rw [← hv]
  rw [← hconn] at hn hsub
  refine hgoal ?_
  have hother : (if v.conn.authorized then v.onAuthorizedMessage h env msg
      else (v, true)).1.glob.server.isSubed n v.conn.id = true →
      v.glob.server.isSubed n v.conn.id = true ∨ SwitchesOn h v n (.peer msg) := by
    intro hsub
    split at hsub
    · rename_i ha
      exact isSubed_onAuthorizedMessage_of ha (hn ha) hsub
    · exact Or.inl hsub
  cases msg with
  | misc m =>
    cases m with
    | closeReason reason =>
      dsimp only [onMessage] at hsub
      rw [server_checkRemoveSession, server_onClose] at hsub
      exact Or.inl hsub
    | _ => exact hother hsub
  | testDelay fromClient =>
    dsimp only [onMessage, onTestDelay] at hsub
    split at hsub <;> exact Or.inl hsub
  | loginRequest _ | auth2fa _ _ | switchSidesResponse _ _ => cases hmsg
  | _ => exact hother hsub

theorem isSubed_cmData_of {data : CmData} (hdata : data ≠ .authorize)
    (hn : w.conn.isAuthedViewCameraConn = true → n ≠ .audio)
    (hsub : (w.cmData h env data).glob.server.isSubed n w.conn.id = true) :
    w.glob.server.isSubed n w.conn.id = true ∨ SwitchesOn h w n (.cm data) := by
  cases data with
  | authorize => exact absurd rfl hdata
  | close =>
    change (w.sendCloseReasonNoRetry "").onClose.glob.server.isSubed n w.conn.id = true at hsub
    rw [server_onClose] at hsub
    exact Or.inl (server_checkRemoveSession (w := w.send _) ▸ hsub)
  | cmErr e =>
    dsimp only [cmData] at hsub
    split at hsub
    · change w.onClose.glob.server.isSubed n w.conn.id = true at hsub
      rw [server_onClose] at hsub
      exact Or.inl hsub
    · exact Or.inl hsub
  | switchPermission name enabled => exact isSubed_switchPermission_of hsub
  | voiceCallResponse accepted => exact Or.inl (isSubed_handleVoiceCall_of hn hsub)
  | closeVoiceCall => exact Or.inl (isSubed_closeVoiceCall_of hsub)
  | other => exact Or.inl hsub

/-! ## The kind and the marks -/

theorem socket_of_loginView {w' : World} (hview : w'.loginView = w.loginView) :
    w'.conn.portForwardSocket = w.conn.portForwardSocket := by
  have hsocket := congrArg (fun w : World => w.conn.portForwardSocket) hview
  exact hsocket

theorem socket_onMisc {m : Misc} (hr : (w.onMisc h env m).2 = true) :
    (w.onMisc h env m).1.conn.portForwardSocket = w.conn.portForwardSocket := by
  cases m with
  | closeReason _ | other => rfl
  | switchDisplay display =>
    dsimp only [onMisc, handleSwitchDisplay]
    split <;> rfl
  | captureDisplays add sub set => rfl
  | option o => exact socket_of_loginView (loginView_updateOptions h o w)
  | switchSidesRequest uuid =>
    dsimp only [onMisc] at hr ⊢
    split at hr
    · cases hr
    · rename_i hno
      rw [if_neg hno]
  | selectedSid sid =>
    dsimp only [onMisc, onSelectedSid]
    split_ifs
    · rfl
    · rfl
    · rfl
    · rfl
    · exact socket_of_loginView (loginView_trySubMonitorServices h w)
    · rfl

theorem socket_onAuthorizedMessage {msg : Message}
    (hr : (w.onAuthorizedMessage h env msg).2 = true) :
    (w.onAuthorizedMessage h env msg).1.conn.portForwardSocket = w.conn.portForwardSocket := by
  unfold onAuthorizedMessage at hr ⊢
  split
  · rfl
  · rename_i hs
    rw [if_neg hs] at hr
    cases msg with
    | mouseEvent me => exact socket_of_loginView ((loginView_input h w).1 me)
    | pointerDeviceEvent pde => exact socket_of_loginView ((loginView_input h w).2.1 pde)
    | keyEvent ke => exact socket_of_loginView ((loginView_input h w).2.2 ke)
    | voiceCallRequest isConnect reqTimestamp =>
      dsimp only
      split
      · rfl
      · exact socket_of_loginView (loginView_closeVoiceCall w)
    | misc m => exact socket_onMisc hr
    | _ => rfl

/-- While the loop goes on a message other than a login leaves the port forward open. -/
theorem socket_peerMessage {msg : Message} (hmsg : msg.isLogin = false)
    (hr : (w.peerMessage h env msg).conn.running = true) :
    (w.peerMessage h env msg).conn.portForwardSocket = w.conn.portForwardSocket := by
  unfold peerMessage at hr ⊢
  rw [← touchSession_conn env w]
  generalize w.touchSession env = v at hr ⊢
  rw [apply_afterMessage (fun w => w.conn.portForwardSocket) fun _ => rfl]
  have hgo : (v.onMessage h env msg).2 = true := by
    by_contra hstop
    rw [afterMessage, if_pos (Or.inl (by simpa using hstop))] at hr
    cases hr
  have hother :
      (if v.conn.authorized then v.onAuthorizedMessage h env msg else (v, true)).2 = true →
      (if v.conn.authorized then v.onAuthorizedMessage h env msg
        else (v, true)).1.conn.portForwardSocket = v.conn.portForwardSocket := by
    intro hgo
    split at hgo
    · rename_i ha
      rw [if_pos ha]
      exact socket_onAuthorizedMessage hgo
    · rename_i ha
      rw [if_neg ha]
  cases msg with
  | misc m =>
    cases m with
    | closeReason reason => cases hgo
    | _ => exact hother hgo
  | testDelay fromClient =>
    dsimp only [onMessage, onTestDelay]
    split <;> rfl
  | loginRequest _ | auth2fa _ _ | switchSidesResponse _ _ => cases hmsg
  | _ => exact hother hgo

/-- While its loop goes on an authorized connection keeps its port forward. -/
theorem arm_socket {a : Arm} (h2 : w.conn.require2fa = false) (ha : w.conn.authorized = true)
    (hr : (w.arm h env a).conn.running = true) :
    (w.arm h env a).conn.portForwardSocket = w.conn.portForwardSocket := by
  by_cases hl : a.isLogin
  · rcases login_arm_cases h env hl h2 with hs | ⟨hn, _⟩
    · have hview := congrArg (fun w : World => w.conn.portForwardSocket) hs
      exact hview
    · rw [ha] at hn
      cases hn
  · cases a with
    | peer msg => exact socket_peerMessage (Bool.eq_false_iff.mpr hl) hr
    | peerGarbage => exact congrArg Connection.portForwardSocket (touchSession_conn env w)
    | cm data =>
      cases data with
      | authorize => exact absurd rfl hl
      | close => cases hr
      | cmErr e =>
        dsimp only [arm, cmData] at hr ⊢
        split at hr
        · cases hr
        · rename_i hno
          rw [if_neg hno]
      | switchPermission name enabled =>
        exact socket_of_loginView (loginView_switchPermission h name enabled w)
      | voiceCallResponse accepted =>
        exact socket_of_loginView (loginView_handleVoiceCall accepted w)
      | closeVoiceCall => exact socket_of_loginView (loginView_closeVoiceCall w)
      | other => rfl
    | testDelayTick =>
      dsimp only [arm, testDelayTick]
      split <;> rfl
    | hostClose reason => cases reason <;> cases hr

end

end World

/-- While the loop goes on, the marks of an authorized connection are those of its kind. -/
def Connection.Marked (c : Connection) : Prop :=
  ∀ k, c.authedConnId = some k → c.running = true → c.authConnType = k

namespace World

variable {h : Host} {env : Env} {w : World}

theorem authConnType_congr {c c' : Connection}
    (hsocket : c'.portForwardSocket = c.portForwardSocket)
    (hfile : c'.fileTransfer = c.fileTransfer) (hcam : c'.viewCamera = c.viewCamera)
    (hterm : c'.terminal = c.terminal) : c'.authConnType = c.authConnType := by
  unfold Connection.authConnType
  rw [hsocket, hfile, hcam, hterm]

/-- The kind a logon gives a connection is the kind of its marks. -/
theorem LoggedOn.kind {a : Arm} {v w' : World} (hl : LoggedOn h env a v w') :
    w'.conn.authorized = true ∧ w'.conn.authedConnId = some v.connected.conn.authConnType ∧
      w'.conn.authConnType = v.connected.conn.authConnType := by
  have hview := hl.apply (fun w => (w.conn.authorized, w.conn.authedConnId, w.conn.authConnType))
    (fun _ => rfl) fun _ => rfl
  obtain ⟨hauth, hrest⟩ := Prod.mk.inj hview
  obtain ⟨hid, htype⟩ := Prod.mk.inj hrest
  exact ⟨hauth, hid, htype⟩

theorem arm_marked {a : Arm} (hc : w.conn.Sound) (hm : w.conn.Marked)
    (hr : w.conn.running = true) : (w.arm h env a).conn.Marked := by
  intro k hk hr'
  rcases arm_authedConnId h env a hc.no2fa with ⟨_, hid⟩ | ⟨_, v, _, hl⟩
  · rw [hid] at hk
    have ha : w.conn.authorized = true := by rw [← hc.authed, hk]; rfl
    obtain ⟨hfile, hrest⟩ := Prod.mk.inj (arm_marks h env a hc.no2fa ha)
    obtain ⟨hcam, hterm⟩ := Prod.mk.inj hrest
    rw [authConnType_congr (arm_socket hc.no2fa ha hr') hfile hcam hterm]
    exact hm k hk hr
  · obtain ⟨_, hid, htype⟩ := hl.kind
    rw [hid] at hk
    rw [htype]
    exact Option.some.inj hk

/-! ## The options of a login -/

/-- What a logon response reads of a connection to settle its kind and its options. -/
def logonView (c : Connection) :
    Flags × Option OptionMessage × LoginRequest × Option String × Option (String × Bool) ×
      Bool × Bool :=
  (c.flags, c.optionsInLogin, c.lr, c.portForwardSocket, c.fileTransfer, c.viewCamera, c.terminal)

/-- The connection as the logon response to the arm finds it: the request is stored and, if
    it is a `LoginRequest`, has left its mark. -/
def asking (a : Arm) (w : World) : World :=
  match a with
  | .peer (.loginRequest lr) =>
    { w with conn := marked lr { w.conn with
        lr := lr, optionsInLogin := lr.option.or w.conn.optionsInLogin } }
  | .peer (.switchSidesResponse _ (some lr)) =>
    { w with conn := { w.conn with
        lr := lr, optionsInLogin := lr.option.or w.conn.optionsInLogin } }
  | _ => w

theorem connected_congr {u v : World} (hview : logonView v.conn = logonView u.conn) :
    logonView v.connected.conn = logonView u.connected.conn := by
  have hsocket : v.conn.portForwardSocket = u.conn.portForwardSocket :=
    congrArg (fun p => p.2.2.2.1) hview
  have hlr : v.conn.lr = u.conn.lr := congrArg (fun p => p.2.2.1) hview
  unfold connected
  rw [hsocket, hlr]
  split
  · unfold logonView at hview ⊢
    simp only [Prod.mk.injEq] at hview ⊢
    exact ⟨hview.1, hview.2.1, hview.2.2.1, trivial, hview.2.2.2.2⟩
  · exact hview

theorem authConnType_of_logonView {c c' : Connection} (hview : logonView c' = logonView c) :
    c'.authConnType = c.authConnType := by
  unfold logonView at hview
  simp only [Prod.mk.injEq] at hview
  obtain ⟨_, _, _, hsocket, hfile, hcam, hterm⟩ := hview
  exact authConnType_congr hsocket hfile hcam hterm

theorem logonView_marked {c c' : Connection} (hview : logonView c' = logonView c)
    (lr : LoginRequest) : logonView (marked lr c') = logonView (marked lr c) := by
  unfold logonView at hview ⊢
  simp only [Prod.mk.injEq] at hview ⊢
  unfold marked
  cases lr.union with
  | none => exact hview
  | some u => cases u <;> simp [hview]

theorem Entry.logonView_eq {a : Arm} {v : World} (he : Entry h env w a v) :
    logonView v.conn = logonView (w.asking a).conn := by
  have hconn := touchSession_conn env w
  cases he with
  | @password lr c g requested _ _ _ _ =>
    have hview := congrArg logonView requested.conn
    refine hview.trans (logonView_marked ?_ lr)
    unfold handleLoginRequestWithoutValidation
    rw [hconn]
    rfl
  | switchSides _ _ _ _ =>
    unfold asking switching handleLoginRequestWithoutValidation
    dsimp only
    rw [hconn]
    rfl
  | accepted => rfl

theorem isSubed_takeOptionsInLogin_of {n : ServiceName} {k : AuthConnType}
    (hn : k.excludes n = true)
    (hsub : (w.takeOptionsInLogin h).glob.server.isSubed n w.conn.id = true) :
    w.glob.server.isSubed n w.conn.id = true ∨ ∃ o, w.conn.optionsInLogin = some o ∧
      w.glob.server.contains n = true ∧ optionOn h w.conn.flags o n = true := by
  unfold takeOptionsInLogin at hsub
  split at hsub
  · rename_i o ho
    exact (isSubed_updateOptions_of hn hsub).imp_right fun hon => ⟨o, ho, hon⟩
  · exact Or.inl hsub

/-- A connection of another kind than remote gets what the options of its login ask for,
    and a camera connection the camera. -/
theorem isSubed_afterLogin_of {n : ServiceName} (hn : w.conn.authConnType.excludes n = true)
    (hsub : (w.afterLogin h env).glob.server.isSubed n w.conn.id = true) :
    w.glob.server.isSubed n w.conn.id = true ∨
      w.conn.portForwardSocket = none ∧ ∃ o, w.conn.optionsInLogin = some o ∧
        w.glob.server.contains n = true ∧ optionOn h w.conn.flags o n = true := by
  unfold afterLogin at hsub
  split_ifs at hsub with hsocket hlinux hfile hterm hcam
  · exact Or.inl hsub
  · exact Or.inl hsub
  all_goals have hsocket : w.conn.portForwardSocket = none := by simpa using hsocket
  · exact (isSubed_takeOptionsInLogin_of (w := w.send .peerInfo) hn hsub).imp_right
      fun hon => ⟨hsocket, hon⟩
  · exact (isSubed_takeOptionsInLogin_of (w := w.send .peerInfo) hn hsub).imp_right
      fun hon => ⟨hsocket, hon⟩
  · have hkind : w.conn.authConnType = .viewCamera := by
      simp [Connection.authConnType, hsocket, hcam, by simpa using hfile]
    change (((w.send .peerInfo).takeOptionsInLogin h).trySubCameraDisplays
      env).glob.server.isSubed n w.conn.id = true at hsub
    unfold trySubCameraDisplays at hsub
    rw [Server.isSubed_addCameraConnection, Bool.or_eq_true] at hsub
    rcases hsub with hsub | hcamera
    · exact (isSubed_takeOptionsInLogin_of (w := w.send .peerInfo) hn hsub).imp_right
        fun hon => ⟨hsocket, hon⟩
    · rw [Bool.and_eq_true, Bool.and_eq_true, beq_iff_eq] at hcamera
      rw [hkind, hcamera.1.2] at hn
      cases hn
  · have hkind : w.conn.authConnType = .remote := by
      simp [Connection.authConnType, hsocket, hcam, hterm, by simpa using hfile]
    rw [hkind] at hn
    cases hn

/-! ## Whole arms -/

theorem isSubed_arm_of {a : Arm} (hl : a.isLogin = false) (hc : w.conn.Sound)
    (hm : w.conn.Marked) (hr : w.conn.running = true) {n : ServiceName}
    (hex : w.conn.Excluded n)
    (hsub : (w.arm h env a).glob.server.isSubed n w.conn.id = true) :
    w.glob.server.isSubed n w.conn.id = true ∨ SwitchesOn h w n a := by
  have hkind : w.conn.authorized = true → w.conn.authConnType.excludes n = true := by
    intro ha
    rcases hex with hno | ⟨k, hk, hn⟩
    · rw [ha] at hno
      cases hno
    · rw [hm k hk hr]
      exact hn
  have haudio : w.conn.isAuthedViewCameraConn = true → n ≠ .audio := by
    intro hcam hn
    have hk : w.conn.authedConnId = some .viewCamera := by
      simpa [Connection.isAuthedViewCameraConn] using hcam
    have ha : w.conn.authorized = true := by rw [← hc.authed, hk]; rfl
    have hex' := hkind ha
    rw [hm _ hk hr, hn] at hex'
    cases hex'
  cases a with
  | peer msg => exact isSubed_peerMessage_of hl hkind hsub
  | peerGarbage =>
    change (w.touchSession env).glob.server.isSubed n w.conn.id = true at hsub
    rw [server_touchSession] at hsub
    exact Or.inl hsub
  | cm data =>
    refine isSubed_cmData_of ?_ haudio hsub
    rintro rfl
    cases hl
  | testDelayTick =>
    dsimp only [arm, testDelayTick] at hsub
    split at hsub <;> exact Or.inl hsub
  | hostClose reason =>
    refine Or.inl ?_
    cases reason with
    | none =>
      change w.onClose.glob.server.isSubed n w.conn.id = true at hsub
      rwa [server_onClose] at hsub
    | some reason =>
      change (w.sendCloseReasonNoRetry reason).onClose.glob.server.isSubed n w.conn.id =
        true at hsub
      rw [server_onClose] at hsub
      exact server_checkRemoveSession (w := w.send _) ▸ hsub

/-- An input event leaves the server alone. -/
theorem server_of_forwards {a : Arm} (hf : w.Forwards a) :
    (w.arm h env a).glob.server = w.glob.server := by
  obtain ⟨ha, hs, _, hmsg⟩ := hf
  have hpeer : ∀ (msg : Message) (v : World), v.glob.server = (w.touchSession env).glob.server →
      (w.touchSession env).onMessage h env msg = (v, true) →
      (w.peerMessage h env msg).glob.server = w.glob.server := by
    intro msg v hv hon
    unfold peerMessage
    rw [apply_afterMessage (fun w => w.glob.server) fun _ => rfl, hon, hv, server_touchSession]
  have hconn := touchSession_conn env w
  have ha' : (w.touchSession env).conn.authorized = true := by rw [hconn, ha]
  have hs' : ¬(w.touchSession env).conn.portForwardSocket.isSome = true := by
    rw [hconn, hs]
    simp
  cases a with
  | peer msg =>
    cases msg with
    | mouseEvent me =>
      refine hpeer _ _ (server_input (h := h).1 me) ?_
      simp only [onMessage, onAuthorizedMessage, if_pos ha', if_neg hs']
    | pointerDeviceEvent pde =>
      refine hpeer _ _ (server_input (h := h).2.1 pde) ?_
      simp only [onMessage, onAuthorizedMessage, if_pos ha', if_neg hs']
    | keyEvent ke =>
      refine hpeer _ _ (server_input (h := h).2.2 ke) ?_
      simp only [onMessage, onAuthorizedMessage, if_pos ha', if_neg hs']
    | _ => exact absurd hmsg id
  | _ => exact absurd hmsg id

/-- No arm touches the subscriptions of another connection. -/
theorem isSubed_arm_other {a : Arm} (h2 : w.conn.require2fa = false) (n : ServiceName) {j : Int}
    (hj : j ≠ w.conn.id) :
    (w.arm h env a).glob.server.isSubed n j = w.glob.server.isSubed n j := by
  by_cases hf : w.Forwards a
  · rw [server_of_forwards hf]
  · have haside := congrArg (fun p => p.2.1 n j) (aside_arm h env h2 hf)
    have hid := arm_id h env a h2
    have hne : (j != w.conn.id) = true := bne_iff_ne.mpr hj
    dsimp only [aside] at haside
    rwa [hid, hne, Bool.true_and, Bool.true_and] at haside

end World

end LuodaRemote
