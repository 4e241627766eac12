/-
  What a peer that views the camera hears.

  Such a connection is not subscribed to the audio when it logs on: it hears the controlled side
  in a voice call only, which the peer asks for and the user of the connection manager accepts.
  The call ends when either side hangs up; a request that is refused ends it too. Six handlers
  have a hand in the subscription: the two of the call itself, the options of the login and of
  the running session, the audio permission, and a user session that is picked on Windows.

  `Call` is the state of a call by itself and `call_arm` says that every arm of the loop goes its
  way. `audio_in_call_only`: over all runs of the server a camera connection is subscribed to the
  audio precisely while its call is on and audio is permitted, and a connection that is not
  authorized has neither a call nor the audio.
-/
import LuodaRemote.Confinement
import LuodaRemote.Subscriptions

namespace LuodaRemote
open Lib

/-- A voice call: the request of the peer that is to be answered, and whether a call is on. -/
structure Call where
  request : Option Int := none
  on : Bool := false
  deriving DecidableEq

/-- What an arm makes of the call; `heard` is whether messages of the peer are acted on. -/
def Call.next (now : Int) (heard : Bool) (a : Arm) (c : Call) : Call :=
  match a with
  | .peer (.voiceCallRequest isConnect reqTimestamp) =>
    if !heard then c
    else if isConnect then
      { c with request := some (if reqTimestamp = 0 then now else reqTimestamp) }
    else { c with on := false }
  | .cm (.voiceCallResponse accepted) =>
    if c.request.isSome then { request := none, on := accepted } else c
  | .cm .closeVoiceCall => { c with on := false }
  | _ => c

/-- What the peer is told of it. -/
def Call.replies (a : Arm) (c : Call) : List Outgoing :=
  match a with
  | .cm (.voiceCallResponse accepted) => (c.request.map (.voiceCallResponse · accepted)).toList
  | .cm .closeVoiceCall => [.voiceCallRequest false]
  | _ => []

def Connection.call (c : Connection) : Call := ⟨c.voiceCallRequestTimestamp, c.voiceCalling⟩

def Connection.heard (c : Connection) : Bool := c.authorized && c.portForwardSocket.isNone

def Outgoing.ofCall : Outgoing → Bool
  | .voiceCallRequest _ | .voiceCallResponse _ _ => true
  | _ => false

/-- What the peer was told of calls so far. -/
def Connection.said (c : Connection) : List Outgoing := c.toPeer.filter (·.ofCall)

namespace World

variable {h : Host} {env : Env} {w : World}

/-! ## What a connection has of the call and of the audio -/

/-- What the subscription to the audio is a matter of. -/
def audioView (w : World) : Bool × Bool × Bool × Bool :=
  (w.glob.server.isSubed .audio w.conn.id, w.glob.server.contains .audio, w.conn.voiceCalling,
    w.conn.flags.audioEnabled)

theorem audioView_onClose (w : World) : w.onClose.audioView = w.audioView := by
  unfold onClose
  split <;> rfl

theorem audioView_checkRemoveSession (w : World) :
    w.checkRemoveSession.audioView = w.audioView := by
  unfold checkRemoveSession Globals.checkRemoveSession
  dsimp only
  split_ifs <;> rfl

theorem audioView_touchSession (w : World) : (w.touchSession env).audioView = w.audioView := by
  unfold touchSession
  split <;> rfl

theorem audioView_handleSwitchDisplay (display : Int) (w : World) :
    (w.handleSwitchDisplay h display).audioView = w.audioView := by
  unfold handleSwitchDisplay switchDisplayTo
  dsimp only
  split
  · have hadd := Server.contains_addVideoService_of_not_isVideo w.glob.server
      w.conn.videoSource (asUsize display) (m := .audio) rfl
    split_ifs <;> simp [audioView, send, Server.isSubed_subscribe, hadd]
  · rfl

theorem audioView_captureDisplays (add sub set : List Nat) (w : World) :
    (w.captureDisplays add sub set).audioView = w.audioView := by
  have hadd := contains_addVideoServices w.conn.videoSource (add ++ set) w.glob.server
    (n := .audio) rfl
  have hvideo : ServiceName.audio.isVideo = false := rfl
  unfold captureDisplays
  dsimp only
  split_ifs <;>
    simp [audioView, Server.isSubed_subscribe, Server.isSubed_captureDisplays,
      isSubed_addVideoServices, hadd, hvideo, -List.foldl_append]

theorem audioView_trySubCameraDisplays (w : World) :
    (w.trySubCameraDisplays env).audioView = w.audioView := by
  have hadd := Server.contains_addVideoService_of_not_isVideo w.glob.server .camera
    Server.primaryCameraIdx (m := .audio) rfl
  have hcont : (w.glob.server.addCameraConnection env w.conn.id).contains .audio =
      w.glob.server.contains .audio := by
    unfold Server.addCameraConnection
    split
    · exact (Server.contains_mapServices _ _ _ _).trans hadd
    · rfl
  simp [audioView, trySubCameraDisplays, Server.isSubed_addCameraConnection, hcont]

theorem audioView_sendCloseReasonNoRetry (reason : String) (w : World) :
    (w.sendCloseReasonNoRetry reason).audioView = w.audioView :=
  audioView_checkRemoveSession _

def hasAudio (w : World) : Bool := w.glob.server.contains .audio

/-- The call, what the peer was told of calls, and whether there is audio at all. -/
def callView (w : World) : Call × List Outgoing × Bool := (w.conn.call, w.conn.said, w.hasAudio)

theorem callView_congr {w' : World} (hcall : w'.conn.call = w.conn.call)
    (hsaid : w'.conn.said = w.conn.said) (hview : w'.audioView = w.audioView) :
    w'.callView = w.callView :=
  Prod.ext hcall (Prod.ext hsaid (congrArg (fun p => p.2.1) hview))

theorem said_send {m : Outgoing} (hm : m.ofCall = false) (w : World) :
    (w.send m).conn.said = w.conn.said := by
  simp [send, Connection.said, hm]

theorem callView_send {m : Outgoing} (hm : m.ofCall = false) (w : World) :
    (w.send m).callView = w.callView := Prod.ext rfl (Prod.ext (said_send hm w) rfl)

theorem callView_checkRemoveSession (w : World) : w.checkRemoveSession.callView = w.callView :=
  callView_congr rfl rfl (audioView_checkRemoveSession w)

theorem callView_subscribe (n : ServiceName) (b : Bool) (w : World) :
    (w.subscribe n b).callView = w.callView :=
  Prod.ext rfl (Prod.ext rfl (Server.contains_subscribe _ _ _ _ _))

theorem callView_updateOptions (o : OptionMessage) (w : World) :
    (w.updateOptions h o).callView = w.callView :=
  apply_updateOptions_of callView (fun _ _ => rfl) callView_subscribe
    (fun _ _ => callView_send rfl) (fun _ _ => rfl) (fun _ => rfl) (fun _ => rfl)
    (fun _ _ => rfl) h o w

theorem call_updateOptions (o : OptionMessage) (w : World) :
    (w.updateOptions h o).conn.call = w.conn.call :=
  congrArg Prod.fst (callView_updateOptions o w)

theorem callView_takeOptionsInLogin (w : World) :
    (w.takeOptionsInLogin h).callView = w.callView := by
  unfold takeOptionsInLogin
  split
  · exact callView_updateOptions _ _
  · rfl

theorem callView_trySubMonitorServices (w : World) :
    (w.trySubMonitorServices h).callView = w.callView := by
  refine Prod.ext ?_ (Prod.ext ?_ (contains_trySubMonitorServices w rfl))
  · unfold trySubMonitorServices
    split <;> rfl
  · unfold trySubMonitorServices
    split <;> rfl

theorem callView_afterLogin (w : World) : (w.afterLogin h env).callView = w.callView := by
  have htake : ((w.send .peerInfo).takeOptionsInLogin h).callView = w.callView :=
    (callView_takeOptionsInLogin _).trans (callView_send rfl w)
  unfold afterLogin
  split_ifs
  · exact callView_send rfl w
  · exact callView_send rfl w
  · exact htake
  · exact htake
  · refine (callView_send rfl _).trans (Eq.trans ?_ htake)
    exact callView_congr rfl rfl (@audioView_trySubCameraDisplays env _)
  · split
    · exact (callView_takeOptionsInLogin _).trans (callView_send rfl w)
    · exact (callView_trySubMonitorServices _).trans htake

/-- A logon does not touch the call. -/
theorem LoggedOn.call_eq {a : Arm} {v w' : World} (hl : LoggedOn h env a v w') :
    w'.conn.call = v.conn.call ∧ w'.hasAudio = v.hasAudio := by
  have hview := congrArg (fun w : World => (w.conn.call, w.hasAudio)) hl.1
  have hlogin := congrArg (fun p : Call × List Outgoing × Bool => (p.1, p.2.2))
    (@callView_afterLogin h env v.connected.authorize)
  have hconnected := apply_connected (fun w => (w.conn.call, w.hasAudio)) (fun _ _ => rfl) v
  have hpair : (w'.conn.call, w'.hasAudio) = (v.conn.call, v.hasAudio) :=
    hview.trans (hlogin.trans hconnected)
  exact Prod.mk.inj hpair

theorem callView_onClose (w : World) : w.onClose.callView = w.callView := by
  unfold onClose
  split <;> rfl

theorem callView_onMisc (m : Misc) (w : World) : (w.onMisc h env m).1.callView = w.callView := by
  cases m with
  | closeReason _ | other => rfl
  | switchDisplay display =>
    refine callView_congr ?_ ?_ (audioView_handleSwitchDisplay display w) <;>
      dsimp only [onMisc, handleSwitchDisplay] <;> split
    · rfl
    · rfl
    · exact said_send rfl _
    · rfl
  | captureDisplays add sub set =>
    refine callView_congr rfl rfl (audioView_captureDisplays _ _ _ w)
  | option o => exact callView_updateOptions o w
  | switchSidesRequest uuid =>
    dsimp only [onMisc]
    split
    · exact callView_onClose w
    · rfl
  | selectedSid sid =>
    dsimp only [onMisc, onSelectedSid]
    split_ifs
    · rfl
    · rfl
    · exact callView_congr rfl rfl (audioView_trySubCameraDisplays w)
    · rfl
    · exact callView_trySubMonitorServices w
    · rfl

theorem callView_closeVoiceCall (w : World) :
    w.closeVoiceCall.callView = ({ w.conn.call with on := false }, w.conn.said, w.hasAudio) := by
  unfold closeVoiceCall
  dsimp only
  split
  · exact callView_subscribe _ _ _
  · rfl

theorem callView_handleVoiceCall (accepted : Bool) (w : World) :
    (w.handleVoiceCall accepted).callView =
      (w.conn.call.next env.getTime w.conn.heard (.cm (.voiceCallResponse accepted)),
        w.conn.said ++ w.conn.call.replies (.cm (.voiceCallResponse accepted)), w.hasAudio) := by
  unfold handleVoiceCall Call.next Call.replies
  generalize (if accepted then ToCm.startVoiceCall else .closeVoiceCall) = m
  cases hts : w.conn.voiceCallRequestTimestamp with
  | none => simp [callView, Connection.call, hts]
  | some ts =>
    have hsaid : (w.conn.toPeer ++ [Outgoing.voiceCallResponse ts accepted]).filter (·.ofCall) =
        w.conn.said ++ [.voiceCallResponse ts accepted] := List.filter_append ..
    simp only [Connection.call, hts, Option.isSome_some, if_true]
    split
    · exact Prod.ext rfl (Prod.ext hsaid (Server.contains_subscribe _ _ _ _ _))
    · exact Prod.ext rfl (Prod.ext hsaid rfl)

theorem callView_onAuthorizedMessage (msg : Message) (ha : w.conn.authorized = true) :
    (w.onAuthorizedMessage h env msg).1.callView =
      (w.conn.call.next env.getTime w.conn.heard (.peer msg), w.conn.said, w.hasAudio) := by
  have hinput := apply_input callView (fun _ _ _ => rfl) h w
  unfold onAuthorizedMessage
  split
  · rename_i hs
    have hheard : w.conn.heard = false := by simp [Connection.heard, hs]
    unfold Call.next
    rw [hheard]
    split <;> first | rfl | contradiction
  · rename_i hs
    have hheard : w.conn.heard = true := by simpa [Connection.heard, ha] using hs
    cases msg with
    | mouseEvent me => exact hinput.1 me
    | pointerDeviceEvent pde => exact hinput.2.1 pde
    | keyEvent ke => exact hinput.2.2 ke
    | voiceCallRequest isConnect reqTimestamp =>
      cases isConnect with
      | true =>
        simp [callView, hasAudio, onVoiceCallConnect, Connection.call, Connection.said,
          sendToCm, Call.next, hheard]
      | false => simp [callView_closeVoiceCall, Call.next, hheard]
    | misc m => exact callView_onMisc m w
    | _ => rfl

theorem callView_peerMessage {msg : Message} (hmsg : msg.isLogin = false) :
    (w.peerMessage h env msg).callView =
      (w.conn.call.next env.getTime w.conn.heard (.peer msg), w.conn.said, w.hasAudio) := by
  have haudio : (w.touchSession env).hasAudio = w.hasAudio :=
    congrArg (fun p => p.2.1) (audioView_touchSession w)
  unfold peerMessage
  rw [apply_afterMessage callView fun _ => rfl, ← haudio, ← touchSession_conn env w]
  generalize w.touchSession env = w
  have hother : (if w.conn.authorized then w.onAuthorizedMessage h env msg
      else (w, true)).1.callView =
        (w.conn.call.next env.getTime w.conn.heard (.peer msg), w.conn.said, w.hasAudio) := by
    split
    · rename_i ha
      exact callView_onAuthorizedMessage msg ha
    · rename_i ha
      have hheard : w.conn.heard = false := by simp [Connection.heard, ha]
      unfold Call.next
      rw [hheard]
      split <;> first | rfl | contradiction
  cases msg with
  | misc m =>
    cases m with
    | closeReason reason => exact (callView_checkRemoveSession _).trans (callView_onClose w)
    | _ => exact hother
  | testDelay fromClient =>
    dsimp only [onMessage, onTestDelay]
    split
    · exact callView_send rfl w
    · rfl
  | loginRequest _ | auth2fa _ _ | switchSidesResponse _ _ => cases hmsg
  | _ => exact hother

theorem callView_switchPermission (name : SwitchName) (enabled : Bool) (w : World) :
    (w.switchPermission h name enabled).callView = w.callView := by
  have hsend : ∀ f : Flags → Flags,
      ((w.setFlags f).send (.permission name enabled)).callView = w.callView :=
    fun f => callView_send rfl (w.setFlags f)
  have hfile : ∀ w : World, (w.subscribeFileClipboard h).callView = w.callView := by
    intro w
    unfold subscribeFileClipboard
    split
    · exact callView_subscribe _ _ _
    · rfl
  cases name with
  | keyboard =>
    exact (callView_subscribe _ _ _).trans ((hfile _).trans ((callView_subscribe _ _ _).trans
      (hsend _)))
  | clipboard => exact (callView_subscribe _ _ _).trans (hsend _)
  | audio =>
    unfold switchPermission subscribeAudio
    dsimp only
    split_ifs <;> first | exact (callView_subscribe _ _ _).trans (hsend _) | exact hsend _
  | file => exact (hfile _).trans (hsend _)
  | unknown _ => rfl
  | _ => exact hsend _

/-- An arm that does not log in takes the call one step on its way, and tells the peer. -/
theorem callView_arm {a : Arm} (hl : a.isLogin = false) :
    (w.arm h env a).callView = (w.conn.call.next env.getTime w.conn.heard a,
      w.conn.said ++ w.conn.call.replies a, w.hasAudio) := by
  have hquiet : ∀ w' : World, w.conn.call.replies a = [] →
      w.conn.call.next env.getTime w.conn.heard a = w.conn.call →
      w'.callView = w.callView → w'.callView = (w.conn.call.next env.getTime w.conn.heard a,
        w.conn.said ++ w.conn.call.replies a, w.hasAudio) := by
    intro w' hreplies hnext hview
    rw [hreplies, hnext, List.append_nil, hview]
    rfl
  cases a with
  | peer msg =>
    rw [show w.conn.call.replies (.peer msg) = [] from rfl, List.append_nil]
    exact callView_peerMessage hl
  | peerGarbage =>
    have hconn := touchSession_conn env w
    exact hquiet _ rfl rfl (callView_congr (congrArg Connection.call hconn)
      (congrArg Connection.said hconn) (audioView_touchSession w))
  | cm data =>
    cases data with
    | authorize => cases hl
    | close =>
      exact hquiet _ rfl rfl ((callView_onClose _).trans
        ((callView_checkRemoveSession _).trans (callView_send rfl w)))
    | cmErr e =>
      refine hquiet _ rfl rfl ?_
      dsimp only [arm, cmData]
      split
      · exact callView_onClose w
      · rfl
    | switchPermission name enabled =>
      exact hquiet _ rfl rfl (callView_switchPermission name enabled w)
    | voiceCallResponse accepted => exact callView_handleVoiceCall accepted w
    | closeVoiceCall =>
      obtain ⟨hcall, hrest⟩ := Prod.mk.inj (callView_closeVoiceCall w)
      obtain ⟨hsaid, haudio⟩ := Prod.mk.inj hrest
      refine Prod.ext hcall (Prod.ext ?_ haudio)
      change (w.closeVoiceCall.conn.toPeer ++ [Outgoing.voiceCallRequest false]).filter
        (·.ofCall) = _
      rw [List.filter_append]
      exact congrArg (· ++ [Outgoing.voiceCallRequest false]) hsaid
    | other => exact hquiet _ rfl rfl rfl
  | testDelayTick =>
    refine hquiet _ rfl rfl ?_
    dsimp only [arm, testDelayTick]
    split
    · exact callView_send rfl _
    · rfl
  | hostClose reason =>
    cases reason with
    | none => exact hquiet _ rfl rfl (callView_onClose _)
    | some reason =>
      exact hquiet _ rfl rfl ((callView_onClose _).trans
        ((callView_checkRemoveSession _).trans (callView_send rfl w)))

/-- Every arm of the loop takes the call one step on its way. -/
theorem call_arm {a : Arm} (h2 : w.conn.require2fa = false) :
    (w.arm h env a).conn.call = w.conn.call.next env.getTime w.conn.heard a := by
  by_cases hl : a.isLogin
  · have hnext : w.conn.call.next env.getTime w.conn.heard a = w.conn.call := by
      unfold Call.next
      split <;> first | rfl | cases hl
    rw [hnext]
    rcases login_arm_cases h env hl h2 with hs | ⟨_, v, he, hlog⟩
    · have hview := congrArg (fun w : World => w.conn.call) hs
      exact hview
    · have hview := congrArg (fun w : World => w.conn.call) he.steady_eq
      exact hlog.call_eq.1.trans hview
  · exact congrArg Prod.fst (callView_arm (Bool.eq_false_iff.mpr hl))

/-- No arm adds or removes the audio service. -/
theorem hasAudio_arm {a : Arm} (h2 : w.conn.require2fa = false) :
    (w.arm h env a).hasAudio = w.hasAudio := by
  by_cases hl : a.isLogin
  · rcases login_arm_cases h env hl h2 with hs | ⟨_, v, he, hlog⟩
    · have hview := congrArg hasAudio hs
      exact hview
    · have hview := congrArg hasAudio he.steady_eq
      exact hlog.call_eq.2.trans hview
  · exact congrArg (fun p => p.2.2) (callView_arm (Bool.eq_false_iff.mpr hl))

/-! ## The audio -/

/-- The connection hears the machine precisely while its call is on. -/
def InTune (w : World) : Prop :=
  w.glob.server.isSubed .audio w.conn.id =
    (w.glob.server.contains .audio && (w.conn.voiceCalling && w.conn.flags.audioEnabled))

theorem inTune_congr {w' : World} (hview : w'.audioView = w.audioView) (hw : InTune w) :
    InTune w' := by
  unfold audioView at hview
  simp only [Prod.mk.injEq] at hview
  obtain ⟨hsub, hcont, hcall, henabled⟩ := hview
  unfold InTune at hw ⊢
  rw [hsub, hcont, hcall, henabled, hw]

theorem inTune_subscribe {b : Bool} (hb : b = (w.conn.voiceCalling && w.conn.flags.audioEnabled)) :
    InTune (w.subscribe .audio b) := by
  change (w.subscribe .audio b).glob.server.isSubed .audio w.conn.id = _
  rw [isSubed_subscribe, if_pos ⟨rfl, rfl⟩, hb]
  simp [subscribe]

theorem inTune_handleVoiceCall (accepted : Bool) (hcam : w.conn.isAuthedViewCameraConn = true)
    (hw : InTune w) : InTune (w.handleVoiceCall accepted) := by
  unfold handleVoiceCall
  generalize (if accepted then ToCm.startVoiceCall else .closeVoiceCall) = m
  split
  · dsimp only
    rw [if_pos (by exact hcam)]
    exact inTune_subscribe (Bool.and_comm _ _)
  · exact hw

theorem inTune_closeVoiceCall (hcam : w.conn.isAuthedViewCameraConn = true) :
    InTune w.closeVoiceCall := by
  unfold closeVoiceCall
  dsimp only
  rw [if_pos (by exact hcam)]
  exact inTune_subscribe (Bool.false_and _).symm

/-- The options turn the audio off, or on in a call. -/
theorem inTune_updateOptions (o : OptionMessage) (hcam : w.conn.isAuthedViewCameraConn = true)
    (hw : InTune w) : InTune (w.updateOptions h o) := by
  have hcall : (w.updateOptions h o).conn.voiceCalling = w.conn.voiceCalling :=
    congrArg Call.on (call_updateOptions o w)
  unfold InTune at hw ⊢
  rw [id_updateOptions, contains_updateOptions, hcall, flags_updateOptions,
    isSubed_audio_updateOptions, hw]
  simp only [hcam, true_imp_iff]
  cases ho : o.disableAudio.choice with
  | none =>
    have hset : (w.conn.flags.withOptions h o).audioEnabled = w.conn.flags.audioEnabled := by
      simp [Flags.audioEnabled, ho]
    simp [hset]
  | some b =>
    cases hon : w.conn.voiceCalling <;>
      cases hen : (w.conn.flags.withOptions h o).audioEnabled <;> simp

theorem inTune_subscribeAudio (hcam : w.conn.isAuthedViewCameraConn = true)
    (hoff : w.conn.voiceCalling = false → w.glob.server.isSubed .audio w.conn.id = false) :
    InTune w.subscribeAudio := by
  unfold subscribeAudio
  rw [if_pos hcam]
  cases hcall : w.conn.voiceCalling with
  | true => exact inTune_subscribe (by rw [hcall, Bool.true_and])
  | false =>
    cases hen : w.conn.flags.audioEnabled with
    | false => exact inTune_subscribe (by rw [hcall, Bool.false_and])
    | true => simpa [InTune, hcall] using hoff hcall

theorem inTune_switchPermission (name : SwitchName) (enabled : Bool) (hs : w.conn.Sound)
    (hcam : w.conn.isAuthedViewCameraConn = true) (hw : InTune w) :
    InTune (w.switchPermission h name enabled) := by
  have hkept : (w.switchPermission h name enabled).audioView = w.audioView →
      InTune (w.switchPermission h name enabled) := fun hview => inTune_congr hview hw
  cases name with
  | keyboard =>
    refine hkept ?_
    unfold audioView
    rw [id_switchPermission, isSubed_switchPermission_keyboard]
    simp [switchPermission, subscribe, subscribeClipboard, setFlags, send, Flags.audioEnabled]
  | clipboard =>
    exact hkept (by simp [audioView, switchPermission, subscribeClipboard, subscribe, setFlags,
      send, Server.isSubed_subscribe, Flags.audioEnabled])
  | audio =>
    have ha : w.conn.authorized = true := by
      rw [← hs.authed]
      unfold Connection.isAuthedViewCameraConn at hcam
      rw [beq_iff_eq.mp hcam]
      rfl
    unfold switchPermission
    dsimp only
    rw [if_pos (by exact ha)]
    refine inTune_subscribeAudio hcam fun hcall => ?_
    have hsub : w.glob.server.isSubed .audio w.conn.id = _ := hw
    have hcall : w.conn.voiceCalling = false := hcall
    rw [hcall, Bool.false_and, Bool.and_false] at hsub
    exact hsub
  | file =>
    refine hkept ?_
    simp [audioView, switchPermission, setFlags, send, isSubed_subscribeFileClipboard,
      Flags.audioEnabled]
  | _ => exact hkept rfl

/-! ## One arm -/

/-- A camera connection as its arms find it. -/
structure Camera (w : World) : Prop where
  kind : w.conn.isAuthedViewCameraConn = true
  sound : w.conn.Sound
  tuned : InTune w

theorem Camera.viewCamera (hw : Camera w) : w.conn.viewCamera = true :=
  hw.sound.camera (by simpa [Connection.isAuthedViewCameraConn] using hw.kind)

theorem inTune_onMisc (m : Misc) (hw : Camera w) : InTune (w.onMisc h env m).1 := by
  have hkept : ∀ w' : World, w'.audioView = w.audioView → InTune w' :=
    fun _ hview => inTune_congr hview hw.tuned
  cases m with
  | closeReason _ | other => exact hw.tuned
  | switchDisplay display => exact hkept _ (audioView_handleSwitchDisplay display w)
  | captureDisplays add sub set => exact hkept _ (audioView_captureDisplays _ _ _ w)
  | option o => exact inTune_updateOptions o hw.kind hw.tuned
  | switchSidesRequest uuid =>
    dsimp only [onMisc]
    split
    · exact hkept _ (audioView_onClose w)
    · exact hw.tuned
  | selectedSid sid =>
    -- A camera connection has its mark, so the monitor services are out of reach.
    dsimp only [onMisc, onSelectedSid]
    rw [if_pos hw.viewCamera]
    split_ifs
    · exact hw.tuned
    · exact hw.tuned
    · exact hkept _ (audioView_trySubCameraDisplays w)
    · exact hw.tuned

theorem inTune_onAuthorizedMessage (msg : Message) (hw : Camera w) :
    InTune (w.onAuthorizedMessage h env msg).1 := by
  have hinput := apply_input audioView (fun _ _ _ => rfl) h w
  unfold onAuthorizedMessage
  split
  · exact hw.tuned
  · cases msg with
    | mouseEvent me => exact inTune_congr (hinput.1 me) hw.tuned
    | pointerDeviceEvent pde => exact inTune_congr (hinput.2.1 pde) hw.tuned
    | keyEvent ke => exact inTune_congr (hinput.2.2 ke) hw.tuned
    | voiceCallRequest isConnect reqTimestamp =>
      dsimp only
      split
      · exact hw.tuned
      · exact inTune_closeVoiceCall hw.kind
    | misc m => exact inTune_onMisc m hw
    | _ => exact hw.tuned

theorem inTune_peerMessage {msg : Message} (hmsg : msg.isLogin = false) (hw : Camera w) :
    InTune (w.peerMessage h env msg) := by
  have hconn := touchSession_conn env w
  have htouch : Camera (w.touchSession env) :=
    ⟨hconn ▸ hw.kind, hconn ▸ hw.sound, inTune_congr (audioView_touchSession w) hw.tuned⟩
  unfold peerMessage
  generalize w.touchSession env = v at htouch
  refine inTune_congr (apply_afterMessage audioView (fun _ => rfl) _) ?_
  have hother : InTune (if v.conn.authorized then v.onAuthorizedMessage h env msg
      else (v, true)).1 := by
    split
    · exact inTune_onAuthorizedMessage msg htouch
    · exact htouch.tuned
  cases msg with
  | misc m =>
    cases m with
    | closeReason reason =>
      exact inTune_congr ((audioView_checkRemoveSession _).trans (audioView_onClose v))
        htouch.tuned
    | _ => exact hother
  | testDelay fromClient =>
    dsimp only [onMessage, onTestDelay]
    split <;> exact htouch.tuned
  | loginRequest _ | auth2fa _ _ | switchSidesResponse _ _ => cases hmsg
  | _ => exact hother

theorem inTune_cmData {data : CmData} (hdata : data ≠ .authorize) (hw : Camera w) :
    InTune (w.cmData h env data) := by
  have hclose : ∀ v : World, v.audioView = w.audioView → InTune v.onClose.leaveLoop :=
    fun v hv => inTune_congr ((audioView_onClose v).trans hv) hw.tuned
  cases data with
  | authorize => exact absurd rfl hdata
  | close => exact hclose _ (audioView_sendCloseReasonNoRetry "" w)
  | cmErr e =>
    dsimp only [cmData]
    split
    · exact hclose w rfl
    · exact hw.tuned
  | switchPermission name enabled =>
    exact inTune_switchPermission name enabled hw.sound hw.kind hw.tuned
  | voiceCallResponse accepted => exact inTune_handleVoiceCall accepted hw.kind hw.tuned
  | closeVoiceCall => exact inTune_closeVoiceCall hw.kind
  | other => exact hw.tuned

/-- An arm leaves a camera connection in tune with its call. -/
theorem inTune_arm (a : Arm) (hw : Camera w) : InTune (w.arm h env a) := by
  by_cases hl : a.isLogin
  · rcases login_arm_cases h env hl hw.sound.no2fa with hs | ⟨ha, _⟩
    · have hview := congrArg audioView hs
      exact inTune_congr hview hw.tuned
    · have hkind := hw.sound.authed
      have hcam := hw.kind
      unfold Connection.isAuthedViewCameraConn at hcam
      rw [beq_iff_eq.mp hcam, ha] at hkind
      cases hkind
  · cases a with
    | peer msg => exact inTune_peerMessage (Bool.eq_false_iff.mpr hl) hw
    | peerGarbage => exact inTune_congr (audioView_touchSession w) hw.tuned
    | cm data => exact inTune_cmData (fun hd => hl (by rw [hd]; rfl)) hw
    | testDelayTick =>
      dsimp only [arm, testDelayTick]
      split <;> exact hw.tuned
    | hostClose reason =>
      cases reason with
      | none => exact inTune_congr (audioView_onClose w) hw.tuned
      | some reason =>
        exact inTune_congr ((audioView_onClose _).trans
          (audioView_sendCloseReasonNoRetry reason w)) hw.tuned

/-- A connection that is not authorized has no call and no audio. -/
structure Silent (w : World) : Prop where
  call : w.conn.call = {}
  audio : w.glob.server.isSubed .audio w.conn.id = false

theorem Silent.inTune (hw : Silent w) : InTune w := by
  have hcall : w.conn.voiceCalling = false := congrArg Call.on hw.call
  unfold InTune
  rw [hw.audio, hcall, Bool.false_and, Bool.and_false]

theorem inTune_takeOptionsInLogin (hcam : w.conn.isAuthedViewCameraConn = true) (hw : InTune w) :
    InTune (w.takeOptionsInLogin h) := by
  unfold takeOptionsInLogin
  split
  · exact inTune_updateOptions _ hcam hw
  · exact hw

/-- The options of a login do not reach the audio: there is no call yet. -/
theorem inTune_afterLogin (hkind : w.conn.authConnType = .viewCamera)
    (hcam : w.conn.isAuthedViewCameraConn = true) (hw : InTune w) :
    InTune (w.afterLogin h env) := by
  have hmarks : w.conn.fileTransfer.isSome = false ∧ w.conn.portForwardSocket.isSome = false ∧
      w.conn.viewCamera = true := by
    unfold Connection.authConnType at hkind
    split_ifs at hkind with hfile hsocket hview
    exact ⟨by simpa using hfile, by simpa using hsocket, hview⟩
  obtain ⟨hfile, hsocket, hview⟩ := hmarks
  have htake : InTune ((w.send .peerInfo).takeOptionsInLogin h) :=
    inTune_takeOptionsInLogin hcam hw
  have hremote : w.conn.isRemote = false := by simp [Connection.isRemote, hview]
  unfold afterLogin
  rw [hsocket, hfile, hview, hremote]
  simp only [Bool.false_eq_true, and_false, false_and, if_false, if_true]
  split
  · exact inTune_congr rfl htake
  · exact inTune_congr (@audioView_trySubCameraDisplays env _) htake

theorem inTune_loggedOn {a : Arm} {v w' : World} (hv : Silent v) (hl : LoggedOn h env a v w')
    (hcam : w'.conn.isAuthedViewCameraConn = true) : InTune w' := by
  have hkind : v.connected.conn.authConnType = .viewCamera := by
    unfold Connection.isAuthedViewCameraConn at hcam
    rw [hl.kind.2.1] at hcam
    simpa using hcam
  have hview := congrArg audioView hl.1
  refine inTune_congr hview (inTune_afterLogin hkind ?_ ?_)
  · change (some v.connected.conn.authConnType == some AuthConnType.viewCamera) = true
    rw [hkind]
    rfl
  · have hconn : v.connected.authorize.audioView = v.audioView :=
      apply_connected audioView (fun _ _ => rfl) v
    exact inTune_congr hconn hv.inTune

/-! ## What every arm keeps -/

/-- The connection hears what it should: nothing before it is authorized, and as one that views
    the camera the machine in a call. -/
structure Hears (w : World) : Prop where
  silent : w.conn.authorized = false → Silent w
  tuned : w.conn.isAuthedViewCameraConn = true → InTune w

/-- Nothing comes of a message to a connection that is not authorized. -/
theorem silent_arm {a : Arm} (hl : a.isLogin = false) (hs : w.conn.Sound) (hm : w.conn.Marked)
    (hr : w.conn.running = true) (ha : w.conn.authorized = false) (hw : Silent w) :
    Silent (w.arm h env a) := by
  refine ⟨?_, ?_⟩
  · have hheard : w.conn.heard = false := by simp [Connection.heard, ha]
    rw [call_arm hs.no2fa, hheard, hw.call]
    unfold Call.next
    split <;> rfl
  · rw [arm_id h env a hs.no2fa]
    by_contra hsub
    rw [Bool.not_eq_false] at hsub
    rcases isSubed_arm_of hl hs hm hr (.inl ha) hsub with hbefore | hon
    · rw [hw.audio] at hbefore
      cases hbefore
    · unfold SwitchesOn at hon
      split at hon
      · rename_i name enabled
        cases name with
        | audio =>
          rw [hon.2.2 rfl] at ha
          cases ha
        | _ => exact absurd hon.2.1 (by simp [switchOn])
      · rw [hon.1] at ha
        cases ha
      · exact hon

theorem silent_congr {w' : World} (hcall : w'.conn.call = w.conn.call)
    (hview : w'.audioView = w.audioView) (hw : Silent w) : Silent w' := by
  have hsub : w'.glob.server.isSubed .audio w'.conn.id =
      w.glob.server.isSubed .audio w.conn.id := congrArg Prod.fst hview
  exact ⟨hcall.trans hw.call, hsub.trans hw.audio⟩

theorem hears_arm {a : Arm} (hs : w.conn.Sound) (hm : w.conn.Marked) (hr : w.conn.running = true)
    (hw : Hears w) : Hears (w.arm h env a) := by
  have htuned : w.conn.isAuthedViewCameraConn = true → InTune (w.arm h env a) :=
    fun hcam => inTune_arm a ⟨hcam, hs, hw.tuned hcam⟩
  by_cases hl : a.isLogin
  · rcases login_arm_cases h env hl hs.no2fa with hsame | ⟨ha, v, he, hlog⟩
    · have hauth := congrArg (fun w : World => w.conn.authorized) hsame
      have hcam := congrArg (fun w : World => w.conn.isAuthedViewCameraConn) hsame
      have hcall := congrArg (fun w : World => w.conn.call) hsame
      have hview := congrArg audioView hsame
      exact ⟨fun ha => silent_congr (w := w) hcall hview (hw.silent (hauth.symm.trans ha)),
        fun hc => htuned (hcam.symm.trans hc)⟩
    · have hcall := congrArg (fun w : World => w.conn.call) he.steady_eq
      have hview := congrArg audioView he.steady_eq
      refine ⟨fun hno => ?_, fun hcam => ?_⟩
      · rw [hlog.kind.1] at hno
        cases hno
      · have hv : Silent v := silent_congr (w := w) hcall hview (hw.silent ha)
        exact inTune_loggedOn hv hlog hcam
  · have hl : a.isLogin = false := Bool.eq_false_iff.mpr hl
    have hview := congrArg (fun w : World => (w.conn.authorized, w.conn.isAuthedViewCameraConn))
      (passive_arm h env hl w).identity_eq
    obtain ⟨hauth, hcam⟩ := Prod.mk.inj hview
    exact ⟨fun ha => silent_arm hl hs hm hr (hauth.symm.trans ha) (hw.silent (hauth.symm.trans ha)),
      fun hc => htuned (hcam.symm.trans hc)⟩

end World

/-! ## The calls of a run -/

/-- The server with the calls of its connections written down as they go. -/
structure VoiceCalls where
  system : System
  calls : Int → Call := fun _ => {}

namespace VoiceCalls

/-- What a step of the server makes of the calls: a new connection has none, and an arm that runs
    takes that of its connection one step on. -/
def next (env : Env) (s : System) (calls : Int → Call) : Action → Int → Call
  | .start .. => Function.update calls (s.idCount + 1) {}
  | .arm id a =>
    match s.conns id with
    | some c =>
      if c.running then
        Function.update calls id ((calls id).next env.getTime c.heard a)
      else calls
    | none => calls
  | .finish _ | .insertSwitchSidesUuid .. | .snapshot _ => calls

def step (h : Host) (s : VoiceCalls) (e : Env × Action) : VoiceCalls where
  system := s.system.step h e
  calls := next e.1 s.system s.calls e.2

/-- A connection that views the camera is subscribed to the audio, if the server has that service,
    precisely while its call is on and audio is permitted. Before a connection is authorized it has
    no call and no audio. -/
def InTune (s : VoiceCalls) : Prop :=
  ∀ i c, s.system.conns i = some c →
    (c.isAuthedViewCameraConn = true → s.system.glob.server.isSubed .audio i =
      (s.system.glob.server.contains .audio && ((s.calls i).on && c.flags.audioEnabled))) ∧
    (c.authorized = false → s.calls i = {} ∧ c.call = {} ∧
      s.system.glob.server.isSubed .audio i = false)

/-- What carries this through a run. -/
structure Ready (s : VoiceCalls) : Prop where
  sound : s.system.Sound
  marked : ∀ i c, s.system.conns i = some c → c.Marked
  fresh : ∀ n j, s.system.idCount < j → s.system.glob.server.isSubed n j = false
  calls : ∀ i c, s.system.conns i = some c → s.calls i = c.call
  hears : ∀ i c, s.system.conns i = some c → World.Hears ⟨c, s.system.glob⟩

theorem Ready.inTune {s : VoiceCalls} (hs : s.Ready) : s.InTune := by
  intro i c hc
  have hid : c.id = i := (hs.sound i c hc).1
  constructor
  · intro hcam
    have htuned : World.InTune ⟨c, s.system.glob⟩ := (hs.hears i c hc).tuned hcam
    have hon : (s.calls i).on = c.voiceCalling := congrArg Call.on (hs.calls i c hc)
    rw [hon, ← hid]
    exact htuned
  · intro hno
    have hsilent : World.Silent ⟨c, s.system.glob⟩ := (hs.hears i c hc).silent hno
    exact ⟨(hs.calls i c hc).trans hsilent.call, hsilent.call, hid ▸ hsilent.audio⟩

/-! ## The steps of the server -/

section
variable {h : Host} {s : VoiceCalls} {e : Env × Action}

theorem next_runs {i : Int} {c : Connection} {a : Arm} (hr : System.Runs s.system e i c a) :
    next e.1 s.system s.calls e.2 =
      Function.update s.calls i ((s.calls i).next e.1.getTime c.heard a) := by
  obtain ⟨hact, hc, hrun⟩ := hr
  simp [next, hact, hc, hrun]

/-- Connection `i` is put in, and the others are as they were. -/
theorem forall_update {P : Int → Connection → Prop} {conns : Int → Option Connection} {i : Int}
    {c : Connection} (hself : P i c) (hother : ∀ j c', j ≠ i → conns j = some c' → P j c') :
    ∀ j c', Function.update conns i (some c) j = some c' → P j c' := by
  intro j c' hc'
  by_cases hj : j = i
  · rw [hj, Function.update_self, Option.some.injEq] at hc'
    exact hj ▸ hc' ▸ hself
  · rw [Function.update_of_ne hj] at hc'
    exact hother j c' hj hc'

/-- The server changed for connection `i`, as another connection hears it. -/
theorem hears_other {i : Int} {c : Connection} {g g' : Globals} (hi : c.id ≠ i)
    (hsub : ∀ n j, j ≠ i → g'.server.isSubed n j = g.server.isSubed n j)
    (hcont : g'.server.contains .audio = g.server.contains .audio)
    (hw : World.Hears ⟨c, g⟩) : World.Hears ⟨c, g'⟩ := by
  have hview : World.audioView ⟨c, g'⟩ = World.audioView ⟨c, g⟩ := by
    unfold World.audioView
    dsimp only
    rw [hsub .audio c.id hi, hcont]
  exact ⟨fun ha => World.silent_congr (w := ⟨c, g⟩) rfl hview (hw.silent ha),
    fun hcam => World.inTune_congr hview (hw.tuned hcam)⟩

theorem ready_runs {i : Int} {c : Connection} {a : Arm} (hs : s.Ready)
    (hr : System.Runs s.system e i c a) : (step h s e).Ready := by
  obtain ⟨hid, hle, hsound⟩ := hs.sound i c hr.2.1
  have hother : ∀ n j, j ≠ i →
      (World.arm h e.1 a ⟨c, s.system.glob⟩).glob.server.isSubed n j =
        s.system.glob.server.isSubed n j := by
    intro n j hj
    rw [← hid] at hj
    exact World.isSubed_arm_other (w := ⟨c, s.system.glob⟩) hsound.no2fa n hj
  have hcalls : (step h s e).calls =
      Function.update s.calls i ((s.calls i).next e.1.getTime c.heard a) := next_runs hr
  have hsys : (step h s e).system = _ := System.step_runs (h := h) hr
  refine ⟨System.sound_step e hs.sound, ?_, fun n j hj => ?_, ?_, ?_⟩
  all_goals rw [hsys] at *
  · refine forall_update ?_ fun j c' _ => hs.marked j c'
    exact World.arm_marked (w := ⟨c, s.system.glob⟩) hsound (hs.marked i c hr.2.1) hr.2.2
  · dsimp only at *
    rw [hother n j (by omega)]
    exact hs.fresh n j hj
  · rw [hcalls]
    refine forall_update ?_ fun j c' hj hc' => ?_
    · rw [Function.update_self, hs.calls i c hr.2.1]
      exact (World.call_arm (w := ⟨c, s.system.glob⟩) hsound.no2fa).symm
    · rw [Function.update_of_ne hj]
      exact hs.calls j c' hc'
  · refine forall_update ?_ fun j c' hj hc' => ?_
    · exact World.hears_arm (w := ⟨c, s.system.glob⟩) hsound (hs.marked i c hr.2.1) hr.2.2
        (hs.hears i c hr.2.1)
    · refine hears_other (i := i) ?_ hother ?_ (hs.hears j c' hc')
      · rw [(hs.sound j c' hc').1]
        exact hj
      · exact World.hasAudio_arm (w := ⟨c, s.system.glob⟩) hsound.no2fa

theorem ready_drops {i : Int} {c : Connection} (hs : s.Ready)
    (hd : System.Drops s.system e i c) : (step h s e).Ready := by
  have hid := (hs.sound i c hd.2.1).1
  have hsub : ∀ n j, (World.finish e.1 ⟨c, s.system.glob⟩).glob.server.isSubed n j =
      (j != i && s.system.glob.server.isSubed n j) := by
    intro n j
    rw [World.server_finish, Server.isSubed_removeConnection, hid]
  have hother : ∀ n j, j ≠ i → (World.finish e.1 ⟨c, s.system.glob⟩).glob.server.isSubed n j =
      s.system.glob.server.isSubed n j := by
    intro n j hj
    rw [hsub n j, bne_iff_ne.mpr hj, Bool.true_and]
  have hcalls : (step h s e).calls = s.calls := by
    change next e.1 s.system s.calls e.2 = s.calls
    rw [hd.1]
    rfl
  have hsys : (step h s e).system = _ := System.step_drops (h := h) hd
  have hconns : ∀ j c', (step h s e).system.conns j = some c' →
      j ≠ i ∧ s.system.conns j = some c' := by
    intro j c' hc'
    rw [hsys] at hc'
    dsimp only at hc'
    by_cases hji : j = i
    · rw [hji, Function.update_self] at hc'
      cases hc'
    · rw [Function.update_of_ne hji] at hc'
      exact ⟨hji, hc'⟩
  refine ⟨System.sound_step e hs.sound, fun j c' hc' => hs.marked j c' (hconns j c' hc').2,
    fun n j hj => ?_, fun j c' hc' => ?_, fun j c' hc' => ?_⟩
  · rw [hsys] at hj ⊢
    dsimp only
    rw [hsub n j, hs.fresh n j hj, Bool.and_false]
  · rw [hcalls]
    exact hs.calls j c' (hconns j c' hc').2
  · obtain ⟨hji, hc⟩ := hconns j c' hc'
    rw [hsys]
    refine hears_other (i := i) ?_ hother ?_ (hs.hears j c' hc)
    · rw [(hs.sound j c' hc).1]
      exact hji
    · rw [World.server_finish]
      exact Server.contains_removeConnection _ _ _

/-- A connection starts without a call, and nobody was subscribed with its id. -/
theorem ready_start {env : Env} {ip : IpAddr} {hash : Hash} {cp : Option (BitVec 64)}
    (hs : s.Ready) : (step h s (env, .start ip hash cp)).Ready := by
  have hsound := System.sound_step (h := h) (env, .start ip hash cp) hs.sound
  refine ⟨hsound, ?_, fun n j hj => ?_, ?_, ?_⟩
  all_goals simp only [step, next, System.step_start] at *
  · exact forall_update nofun fun j c' _ => hs.marked j c'
  · exact hs.fresh n j (by omega)
  · refine forall_update ?_ fun j c' hj hc' => ?_
    · rw [Function.update_self]
      rfl
    · rw [Function.update_of_ne hj]
      exact hs.calls j c' hc'
  · refine forall_update ⟨fun _ => ⟨rfl, hs.fresh _ _ ?_⟩, nofun⟩ fun j c' _ => hs.hears j c'
    change s.system.idCount < s.system.idCount + 1
    omega

/-- A step that touches neither the connections nor their subscriptions. -/
theorem ready_of_same {s' : System} (hs : s.Ready) (hsound : s'.Sound)
    (hconns : s'.conns = s.system.conns) (hcount : s'.idCount = s.system.idCount)
    (hsub : ∀ n j, s'.glob.server.isSubed n j = s.system.glob.server.isSubed n j)
    (hcont : s'.glob.server.contains .audio = s.system.glob.server.contains .audio) :
    (⟨s', s.calls⟩ : VoiceCalls).Ready := by
  refine ⟨hsound, fun j c hc => ?_, fun n j hj => ?_, fun j c hc => ?_, fun j c hc => ?_⟩
  all_goals dsimp only at *
  · exact hs.marked j c (hconns ▸ hc)
  · rw [hsub]
    exact hs.fresh n j (hcount ▸ hj)
  · exact hs.calls j c (hconns ▸ hc)
  · exact hears_other (i := c.id + 1) (by omega) (fun n j _ => hsub n j) hcont
      (hs.hears j c (hconns ▸ hc))

/-- No arm runs and no connection starts: the calls are as they were. -/
theorem next_of_idle (hstart : ∀ ip hash cp, e.2 ≠ .start ip hash cp)
    (hruns : ¬∃ i c a, System.Runs s.system e i c a) : next e.1 s.system s.calls e.2 = s.calls := by
  unfold next
  split
  · rename_i hact
    exact absurd hact (hstart _ _ _)
  · rename_i id a hact
    split
    · rename_i c hc
      rw [if_neg fun hrun => hruns ⟨id, c, a, hact, hc, hrun⟩]
    · rfl
  · rfl
  · rfl
  · rfl

theorem ready_step (hs : s.Ready) (e : Env × Action) : (step h s e).Ready := by
  have hsound := System.sound_step (h := h) e hs.sound
  by_cases hruns : ∃ i c a, System.Runs s.system e i c a
  · obtain ⟨i, c, a, hr⟩ := hruns
    exact ready_runs hs hr
  obtain ⟨env, act⟩ := e
  by_cases hstart : ∃ ip hash cp, act = .start ip hash cp
  · obtain ⟨ip, hash, cp, rfl⟩ := hstart
    exact ready_start hs
  have hidle : next env s.system s.calls act = s.calls :=
    next_of_idle (e := (env, act)) (fun ip hash cp hact => hstart ⟨ip, hash, cp, hact⟩) hruns
  have hsame : (System.step h s.system (env, act)).conns = s.system.conns →
      (System.step h s.system (env, act)).idCount = s.system.idCount →
      (∀ n j, (System.step h s.system (env, act)).glob.server.isSubed n j =
        s.system.glob.server.isSubed n j) →
      (System.step h s.system (env, act)).glob.server.contains .audio =
        s.system.glob.server.contains .audio → (step h s (env, act)).Ready := by
    intro hconns hcount hsub hcont
    unfold step
    rw [hidle]
    exact ready_of_same hs hsound hconns hcount hsub hcont
  rcases System.step_cases h s.system (env, act) with hr | ⟨i, c, hd⟩ | ⟨ip, hash, cp, hact⟩ |
    ⟨peerId, uuid, hact⟩ | ⟨name, hact⟩ | heq
  · exact absurd hr hruns
  · exact ready_drops hs hd
  · exact absurd ⟨ip, hash, cp, hact⟩ hstart
  · have hact : act = _ := hact
    subst hact
    exact hsame rfl rfl (fun _ _ => rfl) rfl
  · have hact : act = _ := hact
    subst hact
    exact hsame rfl rfl (fun n j => Server.isSubed_snapshot _ _ _ _)
      (Server.contains_snapshot _ _ _)
  · exact hsame (by rw [heq]) (by rw [heq]) (fun n j => by rw [heq]) (by rw [heq])

end

/-- In every run of a new server, however the peers, the connection managers and the other
    connections get in each other's way, a connection that views the camera is subscribed to the
    audio precisely while a call is on that its peer asked for and its user accepted, and only as
    far as audio is permitted; one that is not authorized has no call and no audio. -/
theorem audio_in_call_only (h : Host) (idCount : Int)
    (captureCursorEmbedded isX11 printerReady : Bool) (es : List (Env × Action)) :
    Always (step h) InTune
      { system := .init idCount (.new h captureCursorEmbedded isX11 printerReady) } es := by
  have hinit : Ready
      { system := .init idCount (.new h captureCursorEmbedded isX11 printerReady) } := by
    refine ⟨System.sound_init _ _, fun i c hc => ?_, fun n j _ => ?_, fun i c hc => ?_,
      fun i c hc => ?_⟩
    · cases hc
    · exact Server.isSubed_new _ _ _ _ _ _
    · cases hc
    · cases hc
  exact (always_of_step (P := Ready) (fun _ e hs => ready_step hs e) hinit es).mono
    fun _ hs => hs.inTune

/-- A peer logs in to view the camera, asks for a call, and the user accepts. -/
example :
    let s := run (step .sample) { system := .init 0 (.new .sample false false false) }
      [(.sample, .start (.v4 3232235778) .sample none),
        (.sample, .arm 1 (.peer (.loginRequest { LoginRequest.sample "111222333" with
          password := sampleAnswer, union := some .viewCamera }))),
        (.sample, .arm 1 (.peer (.voiceCallRequest true 7))),
        (.sample, .arm 1 (.cm (.voiceCallResponse true)))]
    (s.system.conns 1).map (·.isAuthedViewCameraConn) = some true ∧
      s.system.glob.server.isSubed .audio 1 = true := by decide +kernel

end VoiceCalls

end LuodaRemote
