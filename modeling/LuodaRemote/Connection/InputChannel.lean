/-
  What the arms of a connection send to its input thread, and what they do to the right of the
  peer to have the input of the machine blocked.

  `arm_feeds` says it for the arms that do not log in: besides the events of the peer there is
  only the switch an option message asks for, and only `SwitchPermission` changes one of the two
  permissions. `standing_arm` is the same for being open. `loggedOn_feeds` is what a login does,
  with the options it carries.
-/
import LuodaRemote.Connection.Exposure

namespace LuodaRemote

/-- What `update_options` sends to the input thread for its `block_input`. -/
def blockSwitch (q : BoolOption) (f : Flags) : List MessageInput :=
  if f.keyboard && f.blockInput then
    (q.choice.map fun b => if b then MessageInput.blockOn else .blockOff).toList
  else []

/-- The keyboard permission after the arm. -/
def Arm.keyboardAfter : Arm → Bool → Bool
  | .cm (.switchPermission .keyboard enabled), _ => enabled
  | _, b => b

/-- The permission to block the input after the arm. -/
def Arm.blockInputAfter : Arm → Bool → Bool
  | .cm (.switchPermission .blockInput enabled), _ => enabled
  | _, b => b

namespace World

variable {h : Host} {env : Env} {w w' : World}

/-- The two permissions, and what was sent to the input thread. -/
def inputView (w : World) : Bool × Bool × List MessageInput :=
  (w.conn.flags.keyboard, w.conn.flags.blockInput, w.conn.toInput)

/-- The permissions stay, and the input thread is sent events of the peer, then `switches`. -/
structure Feeds (w w' : World) (switches : List MessageInput) : Prop where
  keyboard : w'.conn.flags.keyboard = w.conn.flags.keyboard
  blockInput : w'.conn.flags.blockInput = w.conn.flags.blockInput
  input : ∃ events, (∀ m ∈ events, m.isEvent = true) ∧
    w'.conn.toInput = w.conn.toInput ++ events ++ switches

theorem Feeds.of_same (hsame : w'.inputView = w.inputView) : Feeds w w' [] := by
  unfold inputView at hsame
  simp only [Prod.mk.injEq] at hsame
  exact ⟨hsame.1, hsame.2.1, [], by simp, by simp [hsame.2.2]⟩

theorem Feeds.event {m : MessageInput} (hm : m.isEvent = true)
    (hsame : w'.inputView = w.inputView) : Feeds w (w'.sendToInput m) [] := by
  unfold inputView at hsame
  simp only [Prod.mk.injEq] at hsame
  exact ⟨hsame.1, hsame.2.1, [m], by simpa using hm, by simp [sendToInput, hsame.2.2]⟩

/-! ## Options -/

theorem inputView_subscribeFileClipboard (w : World) :
    (w.subscribeFileClipboard h).inputView = w.inputView := by
  unfold inputView
  rw [conn_subscribeFileClipboard]

theorem inputView_subscribeAudio (w : World) : w.subscribeAudio.inputView = w.inputView := by
  unfold subscribeAudio
  split_ifs
  · rfl
  · rfl
  · rfl

theorem inputView_ifSet {f : Bool → World → World}
    (hf : ∀ b w, (f b w).inputView = w.inputView) (q : BoolOption) (w : World) :
    (ifSet q f w).inputView = w.inputView := by
  rw [apply_ifSet inputView]
  cases q.choice with
  | none => rfl
  | some b => exact hf b w

theorem inputView_optionEnableFileTransfer (b : Bool) (w : World) :
    (optionEnableFileTransfer h b w).inputView = w.inputView := by
  unfold optionEnableFileTransfer
  split
  · dsimp only
    rw [inputView_subscribeFileClipboard]
    split
    · rfl
    · rfl
  · rfl

/-- The stage of `block_input`. -/
theorem inputView_block (q : BoolOption) (w : World) :
    (ifSet q optionBlockInput w).inputView =
      (w.conn.flags.keyboard, w.conn.flags.blockInput,
        w.conn.toInput ++ blockSwitch q w.conn.flags) := by
  rw [apply_ifSet inputView]
  unfold blockSwitch
  cases q.choice with
  | none =>
    simp [inputView]
  | some b =>
    unfold optionBlockInput
    dsimp only [Option.elim]
    split
    · rfl
    · simp [inputView, send]

/-- No other option has to do with the input thread. -/
theorem inputView_updateOptions (h : Host) (o : OptionMessage) (w : World) :
    (w.updateOptions h o).inputView =
      (w.conn.flags.keyboard, w.conn.flags.blockInput,
        w.conn.toInput ++ blockSwitch o.blockInput w.conn.flags) := by
  have hblock : ∀ u : World, u.inputView = w.inputView →
      (ifSet o.blockInput optionBlockInput u).inputView =
        (w.conn.flags.keyboard, w.conn.flags.blockInput,
          w.conn.toInput ++ blockSwitch o.blockInput w.conn.flags) := by
    intro u hu
    unfold inputView at hu
    simp only [Prod.mk.injEq] at hu
    have hswitch : blockSwitch o.blockInput u.conn.flags =
        blockSwitch o.blockInput w.conn.flags := by
      unfold blockSwitch
      rw [hu.1, hu.2.1]
    rw [inputView_block, hu.1, hu.2.1, hu.2.2, hswitch]
  unfold updateOptions
  rw [inputView_ifSet, inputView_ifSet]
  · refine hblock _ ?_
    iterate 8 rw [inputView_ifSet]
    · exact fun _ _ => rfl
    · exact fun _ _ => rfl
    · exact fun _ _ => rfl
    · exact fun _ _ => rfl
    · exact fun _ _ => inputView_subscribeAudio _
    · exact inputView_optionEnableFileTransfer
    · exact fun _ _ => rfl
    · exact fun _ _ => inputView_subscribeFileClipboard _
  · exact fun _ _ => rfl
  · exact fun _ _ => rfl

theorem feeds_of_switch {switches : List MessageInput}
    (hview : w'.inputView =
      (w.conn.flags.keyboard, w.conn.flags.blockInput, w.conn.toInput ++ switches)) :
    Feeds w w' switches := by
  unfold inputView at hview
  simp only [Prod.mk.injEq] at hview
  exact ⟨hview.1, hview.2.1, [], by simp, by simp [hview.2.2]⟩

theorem feeds_updateOptions (h : Host) (o : OptionMessage) (w : World) :
    Feeds w (w.updateOptions h o) (blockSwitch o.blockInput w.conn.flags) :=
  feeds_of_switch (inputView_updateOptions h o w)

/-! ## The other handlers -/

theorem inputView_onClose (w : World) : w.onClose.inputView = w.inputView := by
  unfold onClose
  split
  · rfl
  · rfl

theorem inputView_touchSession (w : World) : (w.touchSession env).inputView = w.inputView := by
  unfold inputView
  rw [touchSession_conn]

theorem inputView_handleVoiceCall (accepted : Bool) (w : World) :
    (w.handleVoiceCall accepted).inputView = w.inputView := by
  unfold handleVoiceCall
  generalize (if accepted then ToCm.startVoiceCall else .closeVoiceCall) = m
  split
  · dsimp only
    split
    · rfl
    · rfl
  · rfl

theorem inputView_closeVoiceCall (w : World) : w.closeVoiceCall.inputView = w.inputView := by
  unfold closeVoiceCall
  dsimp only
  split
  · rfl
  · rfl

theorem inputView_trySubMonitorServices (w : World) :
    (w.trySubMonitorServices h).inputView = w.inputView := by
  unfold trySubMonitorServices
  split
  · rfl
  · rfl

/-- The switches a message of the peer asks for. -/
def blockSwitches (f : Flags) : Message → List MessageInput
  | .misc (.option o) => blockSwitch o.blockInput f
  | _ => []

theorem feeds_onMisc (m : Misc) (w : World) :
    Feeds w (w.onMisc h env m).1 (blockSwitches w.conn.flags (.misc m)) := by
  cases m with
  | closeReason _ | other => exact .of_same rfl
  | switchDisplay display =>
    refine .of_same ?_
    simp only [onMisc, handleSwitchDisplay]
    split
    · rfl
    · rfl
  | captureDisplays add sub set => exact .of_same rfl
  | option o => exact feeds_updateOptions h o w
  | switchSidesRequest uuid =>
    refine .of_same ?_
    simp only [onMisc]
    split
    · exact inputView_onClose w
    · rfl
  | selectedSid sid =>
    refine .of_same ?_
    simp only [onMisc, onSelectedSid]
    split_ifs
    · rfl
    · rfl
    · rfl
    · rfl
    · exact inputView_trySubMonitorServices w
    · rfl

theorem feeds_keyEvent (ke : KeyEvent) (w : World) : Feeds w (w.onKeyEvent h ke) [] := by
  have hmod : (w.updatePressedModifiers h ke).inputView = w.inputView := by
    unfold updatePressedModifiers
    split
    · rfl
    · rfl
  unfold onKeyEvent
  split
  · exact .of_same rfl
  · split
    · exact .event rfl hmod
    · exact .of_same rfl

theorem feeds_onAuthorizedMessage (msg : Message) (w : World) :
    Feeds w (w.onAuthorizedMessage h env msg).1
      (if w.conn.portForwardSocket.isSome then [] else blockSwitches w.conn.flags msg) := by
  unfold onAuthorizedMessage
  split
  · exact .of_same rfl
  · cases msg with
    | mouseEvent me =>
      dsimp only [onMouseEvent]
      split_ifs
      · exact .of_same rfl
      · exact .event rfl rfl
      · exact .event rfl rfl
      · exact .of_same rfl
    | pointerDeviceEvent pde =>
      dsimp only [onPointerDeviceEvent]
      split_ifs
      · exact .of_same rfl
      · exact .event rfl rfl
      · exact .of_same rfl
    | keyEvent ke => exact feeds_keyEvent ke w
    | voiceCallRequest isConnect reqTimestamp =>
      refine .of_same ?_
      dsimp only
      split
      · rfl
      · exact inputView_closeVoiceCall w
    | misc m => exact feeds_onMisc m w
    | _ => exact .of_same rfl

/-! ## Arms -/

/-- The switches an arm sends to the input thread. -/
def switches (w : World) : Arm → List MessageInput
  | .peer msg =>
    if w.conn.authorized then
      if w.conn.portForwardSocket.isSome then [] else blockSwitches w.conn.flags msg
    else []
  | _ => []

theorem Feeds.afterMessage {r : World × Bool} {sw : List MessageInput} (hf : Feeds w r.1 sw) :
    Feeds w (World.afterMessage r) sw := by
  rcases afterMessage_cases r with heq | heq
  · rw [heq]
    exact hf
  · rw [heq]
    exact ⟨hf.keyboard, hf.blockInput, hf.input⟩

theorem feeds_peerMessage {msg : Message} (hmsg : msg.isLogin = false) (w : World) :
    Feeds w (w.peerMessage h env msg) (w.switches (.peer msg)) := by
  have hconn := touchSession_conn env w
  suffices hsuff : Feeds (w.touchSession env) ((w.touchSession env).onMessage h env msg).1
      ((w.touchSession env).switches (.peer msg)) by
    have hafter := hsuff.afterMessage
    unfold switches at hafter ⊢
    rw [hconn] at hafter
    exact ⟨hconn ▸ hafter.keyboard, hconn ▸ hafter.blockInput, hconn ▸ hafter.input⟩
  generalize w.touchSession env = w
  have hother : Feeds w
      (if w.conn.authorized then w.onAuthorizedMessage h env msg else (w, true)).1
      (w.switches (.peer msg)) := by
    unfold switches
    split
    · exact feeds_onAuthorizedMessage msg w
    · exact .of_same rfl
  have hnone : blockSwitches w.conn.flags msg = [] → w.switches (.peer msg) = [] := by
    intro hno
    simp [switches, hno]
  cases msg with
  | loginRequest lr | auth2fa code hwid | switchSidesResponse uuid lr => cases hmsg
  | testDelay fromClient =>
    rw [hnone rfl]
    refine .of_same ?_
    simp only [onMessage, onTestDelay]
    split
    · rfl
    · rfl
  | misc m =>
    cases m with
    | closeReason reason =>
      rw [hnone rfl]
      exact .of_same (inputView_onClose w)
    | _ => exact hother
  | _ => exact hother

/-- What an arm that does not log in does to the permissions and sends to the input thread. -/
structure ArmFeeds (w w' : World) (a : Arm) : Prop where
  keyboard : w'.conn.flags.keyboard = a.keyboardAfter w.conn.flags.keyboard
  blockInput : w'.conn.flags.blockInput = a.blockInputAfter w.conn.flags.blockInput
  input : ∃ events, (∀ m ∈ events, m.isEvent = true) ∧
    w'.conn.toInput = w.conn.toInput ++ events ++ w.switches a

theorem feeds_switchPermission (name : SwitchName) (enabled : Bool) (w : World) :
    ArmFeeds w (w.switchPermission h name enabled) (.cm (.switchPermission name enabled)) := by
  have hfile : ∀ w : World, (w.subscribeFileClipboard h).inputView = w.inputView :=
    inputView_subscribeFileClipboard
  have hof : ∀ {w' : World} {k b : Bool}, w'.inputView = (k, b, w.conn.toInput) →
      w'.conn.flags.keyboard = k ∧ w'.conn.flags.blockInput = b ∧
        ∃ events, (∀ m ∈ events, MessageInput.isEvent m = true) ∧
          w'.conn.toInput = w.conn.toInput ++ events ++ [] := by
    intro w' k b hview
    unfold inputView at hview
    simp only [Prod.mk.injEq] at hview
    exact ⟨hview.1, hview.2.1, [], by simp, by simp [hview.2.2]⟩
  suffices hview : (w.switchPermission h name enabled).inputView =
      (Arm.keyboardAfter (.cm (.switchPermission name enabled)) w.conn.flags.keyboard,
        Arm.blockInputAfter (.cm (.switchPermission name enabled)) w.conn.flags.blockInput,
        w.conn.toInput) by
    obtain ⟨hk, hb, hin⟩ := hof hview
    exact ⟨hk, hb, hin⟩
  cases name with
  | keyboard => exact hfile _
  | file => exact hfile _
  | audio =>
    unfold switchPermission
    dsimp only
    split
    · exact inputView_subscribeAudio _
    · rfl
  | _ => rfl

theorem arm_feeds {a : Arm} (ha : a.isLogin = false) (w : World) :
    ArmFeeds w (w.arm h env a) a := by
  have hof : ∀ {a : Arm}, (∀ b, a.keyboardAfter b = b) → (∀ b, a.blockInputAfter b = b) →
      ∀ {w' : World}, Feeds w w' (w.switches a) → ArmFeeds w w' a := by
    intro a hk hb w' hf
    exact ⟨hf.keyboard.trans (hk _).symm, hf.blockInput.trans (hb _).symm, hf.input⟩
  cases a with
  | peer msg => exact hof (fun _ => rfl) (fun _ => rfl) (feeds_peerMessage ha w)
  | peerGarbage => exact hof (fun _ => rfl) (fun _ => rfl) (.of_same (inputView_touchSession w))
  | testDelayTick =>
    refine hof (fun _ => rfl) (fun _ => rfl) (.of_same ?_)
    simp only [arm, testDelayTick]
    split
    · rfl
    · rfl
  | hostClose reason =>
    refine hof (fun _ => rfl) (fun _ => rfl) (.of_same ?_)
    cases reason with
    | none => exact inputView_onClose w
    | some reason => exact inputView_onClose _
  | cm data =>
    cases data with
    | authorize => cases ha
    | switchPermission name enabled => exact feeds_switchPermission name enabled w
    | close => exact hof (fun _ => rfl) (fun _ => rfl) (.of_same (inputView_onClose _))
    | cmErr e =>
      refine hof (fun _ => rfl) (fun _ => rfl) (.of_same ?_)
      simp only [arm, cmData]
      split
      · exact inputView_onClose w
      · rfl
    | voiceCallResponse accepted =>
      exact hof (fun _ => rfl) (fun _ => rfl) (.of_same (inputView_handleVoiceCall accepted w))
    | closeVoiceCall =>
      exact hof (fun _ => rfl) (fun _ => rfl) (.of_same (inputView_closeVoiceCall w))
    | other => exact hof (fun _ => rfl) (fun _ => rfl) (.of_same rfl)

/-! ## Open connections -/

/-- What it takes for a connection to be heard: it is open, authorized and forwards no port. -/
def standing (w : World) : Bool × Bool × Option String :=
  (w.conn.closed, w.conn.authorized, w.conn.portForwardSocket)

/-- The arm comes to `on_close`. -/
def closes (h : Host) (w : World) : Arm → Bool
  | .peer (.misc (.closeReason _)) | .cm .close | .hostClose _ => true
  | .peer (.misc (.switchSidesRequest uuid)) =>
    w.conn.authorized && w.conn.portForwardSocket.isNone &&
      (h.flutter && (Uuid.fromSlice uuid).isSome)
  | .cm (.cmErr e) => e ≠ "expected"
  | _ => false

theorem standing_of_loginView (hview : w'.loginView = w.loginView) :
    w'.standing = w.standing := by
  have hstanding := congrArg standing hview
  exact hstanding

theorem standing_afterMessage (r : World × Bool) : (afterMessage r).standing = r.1.standing :=
  apply_afterMessage standing (fun _ => rfl) r

theorem standing_onMisc {m : Misc} (ha : w.conn.authorized = true)
    (hs : w.conn.portForwardSocket = none) (hc : w.closes h (.peer (.misc m)) = false) :
    (w.onMisc h env m).1.standing = w.standing := by
  cases m with
  | switchSidesRequest uuid =>
    simp only [closes, ha, hs, Option.isNone_none, Bool.true_and] at hc
    simp only [onMisc, hc, Bool.false_eq_true, if_false]
  | option o => exact standing_of_loginView (loginView_updateOptions h o w)
  | closeReason _ | other => rfl
  | switchDisplay display =>
    simp only [onMisc, handleSwitchDisplay]
    split
    · rfl
    · rfl
  | captureDisplays add sub set => rfl
  | selectedSid sid =>
    simp only [onMisc, onSelectedSid]
    split_ifs
    · rfl
    · rfl
    · rfl
    · rfl
    · exact standing_of_loginView (loginView_trySubMonitorServices h w)
    · rfl

theorem standing_peerMessage {msg : Message} (hmsg : msg.isLogin = false)
    (hc : w.closes h (.peer msg) = false) :
    (w.peerMessage h env msg).standing = w.standing := by
  have hconn := touchSession_conn env w
  unfold peerMessage
  rw [standing_afterMessage]
  suffices hsuff : ((w.touchSession env).onMessage h env msg).1.standing =
      (w.touchSession env).standing by
    rw [hsuff]
    unfold standing
    rw [hconn]
  have hc' : (w.touchSession env).closes h (.peer msg) = false := by
    unfold closes at hc ⊢
    rwa [hconn]
  revert hc'
  generalize w.touchSession env = w
  intro hc'
  have hother : (if w.conn.authorized then w.onAuthorizedMessage h env msg
      else (w, true)).1.standing = w.standing := by
    split
    · rename_i ha
      unfold onAuthorizedMessage
      split
      · rfl
      · rename_i hs
        cases msg with
        | mouseEvent me => exact standing_of_loginView ((loginView_input h w).1 me)
        | pointerDeviceEvent pde => exact standing_of_loginView ((loginView_input h w).2.1 pde)
        | keyEvent ke => exact standing_of_loginView ((loginView_input h w).2.2 ke)
        | voiceCallRequest isConnect reqTimestamp =>
          dsimp only
          split
          · rfl
          · exact standing_of_loginView (loginView_closeVoiceCall w)
        | misc m => exact standing_onMisc ha (by simpa using hs) hc'
        | _ => rfl
    · rfl
  cases msg with
  | loginRequest lr | auth2fa code hwid | switchSidesResponse uuid lr => cases hmsg
  | testDelay fromClient =>
    simp only [onMessage, onTestDelay]
    split
    · rfl
    · rfl
  | misc m =>
    cases m with
    | closeReason reason => cases hc'
    | _ => exact hother
  | _ => exact hother

/-- An arm that does not log in nor close leaves the standing of the connection. -/
theorem standing_arm {a : Arm} (ha : a.isLogin = false) (hc : w.closes h a = false) :
    (w.arm h env a).standing = w.standing := by
  cases a with
  | peer msg => exact standing_peerMessage ha hc
  | peerGarbage =>
    show (w.touchSession env).standing = _
    unfold standing
    rw [touchSession_conn]
  | testDelayTick =>
    simp only [arm, testDelayTick]
    split
    · rfl
    · rfl
  | hostClose reason => cases hc
  | cm data =>
    cases data with
    | authorize => cases ha
    | switchPermission name enabled =>
      exact standing_of_loginView (loginView_switchPermission h name enabled w)
    | close => cases hc
    | cmErr e =>
      have he : ¬e ≠ "expected" := of_decide_eq_false hc
      show (if e ≠ "expected" then w.onClose.leaveLoop else w).standing = _
      rw [if_neg he]
    | voiceCallResponse accepted =>
      exact standing_of_loginView (loginView_handleVoiceCall accepted w)
    | closeVoiceCall => exact standing_of_loginView (loginView_closeVoiceCall w)
    | other => rfl

/-- Closing ends the loop. -/
theorem running_of_closes {a : Arm} (hc : w.closes h a = true) :
    (w.arm h env a).conn.running = false := by
  cases a with
  | hostClose reason =>
    cases reason with
    | none => rfl
    | some reason => rfl
  | peerGarbage | testDelayTick => cases hc
  | cm data =>
    cases data with
    | close => rfl
    | cmErr e =>
      have he : e ≠ "expected" := of_decide_eq_true hc
      show (if e ≠ "expected" then w.onClose.leaveLoop else w).conn.running = _
      rw [if_pos he]
      rfl
    | _ => cases hc
  | peer msg =>
    cases msg with
    | misc m =>
      cases m with
      | closeReason reason =>
        show (afterMessage (_, false)).conn.running = false
        rw [afterMessage_false]
        rfl
      | switchSidesRequest uuid =>
        simp only [closes, Bool.and_eq_true, Option.isNone_iff_eq_none] at hc
        have hconn := touchSession_conn env w
        have hmsg : (w.touchSession env).onMessage h env (.misc (.switchSidesRequest uuid)) =
            ((w.touchSession env).onClose, false) := by
          simp only [onMessage, onAuthorizedMessage, onMisc, hconn, hc, Option.isSome_none,
            Bool.false_eq_true, if_false, if_true, Bool.and_self]
        show (afterMessage _).conn.running = false
        rw [hmsg, afterMessage_false]
        rfl
      | _ => cases hc
    | _ => cases hc

/-! ## Logins -/

/-- A logon of this kind takes the keyboard away. -/
def keyboardTaken (c : Connection) : Bool :=
  c.fileTransfer.isNone && (c.terminal || c.viewCamera)

/-- What the options of a login send to the input thread. -/
def loginSwitch (c : Connection) : List MessageInput :=
  match c.optionsInLogin with
  | some o => blockSwitch o.blockInput c.flags
  | none => []

theorem inputView_takeOptionsInLogin (w : World) :
    (w.takeOptionsInLogin h).inputView =
      (w.conn.flags.keyboard, w.conn.flags.blockInput,
        w.conn.toInput ++ loginSwitch w.conn) := by
  unfold takeOptionsInLogin
  split
  · rename_i o ho
    have hswitch : loginSwitch w.conn = blockSwitch o.blockInput w.conn.flags := by
      unfold loginSwitch
      rw [ho]
    rw [inputView_updateOptions, hswitch]
  · rename_i ho
    have hswitch : loginSwitch w.conn = [] := by
      unfold loginSwitch
      rw [ho]
    rw [hswitch, List.append_nil]
    rfl

theorem inputView_afterLogin (h : Host) (env : Env) (w : World) :
    (w.afterLogin h env).inputView = w.inputView ∨
    w.conn.portForwardSocket = none ∧ (w.afterLogin h env).inputView =
      (w.conn.flags.keyboard && !keyboardTaken w.conn, w.conn.flags.blockInput,
        w.conn.toInput ++ loginSwitch w.conn) := by
  have htake := inputView_takeOptionsInLogin (h := h) (w.send .peerInfo)
  have hkeep : keyboardTaken w.conn = false →
      ((w.send .peerInfo).takeOptionsInLogin h).inputView =
        (w.conn.flags.keyboard && !keyboardTaken w.conn, w.conn.flags.blockInput,
          w.conn.toInput ++ loginSwitch w.conn) := by
    intro hno
    rw [htake, hno, Bool.not_false, Bool.and_true]
    rfl
  have htaken : ∀ u : World, u.inputView = ((w.send .peerInfo).takeOptionsInLogin h).inputView →
      keyboardTaken w.conn = true → u.keyboardOff.inputView =
        (w.conn.flags.keyboard && !keyboardTaken w.conn, w.conn.flags.blockInput,
          w.conn.toInput ++ loginSwitch w.conn) := by
    intro u hu hyes
    rw [htake] at hu
    unfold inputView at hu ⊢
    simp only [Prod.mk.injEq] at hu
    rw [hyes, Bool.not_true, Bool.and_false]
    simp only [Prod.mk.injEq]
    exact ⟨rfl, hu.2.1, hu.2.2⟩
  unfold afterLogin
  split_ifs with hsocket hlinux hfile hterm hcam
  · exact Or.inl rfl
  · exact Or.inl rfl
  all_goals have hsocket : w.conn.portForwardSocket = none := by simpa using hsocket
  · have hno : keyboardTaken w.conn = false := by
      unfold keyboardTaken
      rw [Option.isNone_eq_false_iff.mpr hfile, Bool.false_and]
    exact Or.inr ⟨hsocket, hkeep hno⟩
  · exact Or.inr ⟨hsocket, htaken _ rfl (by simp [keyboardTaken, hterm, by simpa using hfile])⟩
  · refine Or.inr ⟨hsocket, ?_⟩
    exact htaken _ rfl (by simp [keyboardTaken, hcam, by simpa using hfile])
  · have hno : keyboardTaken w.conn = false := by
      simp [keyboardTaken, hcam, hterm]
    refine Or.inr ⟨hsocket, ?_⟩
    split
    · rename_i err _
      rw [hno, Bool.not_false, Bool.and_true]
      exact inputView_takeOptionsInLogin (w.send (.loginError err false))
    · rw [inputView_trySubMonitorServices]
      exact hkeep hno

/-- The arm logs on with options that block the input, and the kind of the logon takes the
    keyboard away after them. -/
def LosesKeyboard (w : World) (a : Arm) : Prop :=
  (∃ o, (w.asking a).conn.optionsInLogin = some o ∧ o.blockInput = .yes) ∧
    w.conn.flags.keyboard = true ∧ w.conn.flags.blockInput = true ∧
    (w.asking a).connected.conn.portForwardSocket = none ∧
    keyboardTaken (w.asking a).connected.conn = true

/-- What a logon does with the options of the login. -/
theorem loggedOn_feeds {a : Arm} {v : World} (he : Entry h env w a v)
    (hl : LoggedOn h env a v w') :
    w'.conn.closed = w.conn.closed ∧
      (w'.conn.toInput = w.conn.toInput ∨
        w'.conn.authorized = true ∧ w'.conn.portForwardSocket = none ∧
        ∃ o, (w.asking a).conn.optionsInLogin = some o ∧
          w'.conn.toInput = w.conn.toInput ++ blockSwitch o.blockInput w.conn.flags ∧
          w'.conn.flags.blockInput = w.conn.flags.blockInput ∧
          (w'.conn.flags.keyboard = true ↔ w.conn.flags.keyboard = true ∧
            ¬ ((w.asking a).connected.conn.portForwardSocket = none ∧
              keyboardTaken (w.asking a).connected.conn = true))) := by
  have hkept := congrArg (fun w : World => (w.conn.closed, w.inputView, w.conn.flags)) he.steady_eq
  simp only [Prod.mk.injEq] at hkept
  obtain ⟨hclosed, hinput, hflags⟩ := hkept
  have hvclosed : v.conn.closed = w.conn.closed := hclosed
  have hvinput : v.inputView = w.inputView := hinput
  have hvflags : v.conn.flags = w.conn.flags := hflags
  have hu : v.connected.authorize.inputView = w.inputView := by
    have hconn : v.connected.inputView = v.inputView :=
      apply_connected inputView (fun _ _ => rfl) v
    exact hconn.trans hvinput
  have hview : w'.inputView = (v.connected.authorize.afterLogin h env).inputView := by
    have hset := congrArg inputView hl.1
    exact hset
  have hasked := connected_congr he.logonView_eq
  unfold logonView at hasked
  simp only [Prod.mk.injEq] at hasked
  obtain ⟨huflags, huoptions, _, husocket, hufile, hucam, huterm⟩ := hasked
  have htaken : keyboardTaken v.connected.conn = keyboardTaken (w.asking a).connected.conn := by
    unfold keyboardTaken
    rw [hufile, hucam, huterm]
  have hoptions : v.connected.conn.optionsInLogin = (w.asking a).conn.optionsInLogin :=
    huoptions.trans (apply_connected (fun w => w.conn.optionsInLogin) (fun _ _ => rfl) _)
  have hstanding := hl.apply (fun w => (w.conn.closed, w.conn.portForwardSocket))
    (fun _ => rfl) fun _ => rfl
  simp only [Prod.mk.injEq] at hstanding
  have hcclosed : v.connected.conn.closed = v.conn.closed :=
    apply_connected (fun w => w.conn.closed) (fun _ _ => rfl) v
  refine ⟨hstanding.1.trans (hcclosed.trans hvclosed), ?_⟩
  rcases inputView_afterLogin h env v.connected.authorize with hsame | ⟨hsocket, hafter⟩
  · have hall := hview.trans (hsame.trans hu)
    unfold inputView at hall
    simp only [Prod.mk.injEq] at hall
    exact Or.inl hall.2.2
  · have hall := hview.trans hafter
    unfold inputView at hall hu
    simp only [Prod.mk.injEq] at hall hu
    have hcsocket : v.connected.conn.portForwardSocket = none := hsocket
    have hcflags : v.connected.conn.flags = w.conn.flags := by
      have hconn : v.connected.conn.flags = v.conn.flags :=
        apply_connected (fun w => w.conn.flags) (fun _ _ => rfl) v
      exact hconn.trans hvflags
    cases ho : (w.asking a).conn.optionsInLogin with
    | none =>
      have hnone : loginSwitch v.connected.authorize.conn = [] := by
        have hcoptions : v.connected.authorize.conn.optionsInLogin = none := hoptions.trans ho
        unfold loginSwitch
        rw [hcoptions]
      refine Or.inl ?_
      rw [hall.2.2, hnone, List.append_nil, hu.2.2]
    | some o =>
      have hsome : loginSwitch v.connected.authorize.conn =
          blockSwitch o.blockInput w.conn.flags := by
        have hcoptions : v.connected.authorize.conn.optionsInLogin = some o := hoptions.trans ho
        have haflags : v.connected.authorize.conn.flags = w.conn.flags := hcflags
        unfold loginSwitch
        rw [hcoptions, haflags]
      refine Or.inr ⟨hl.kind.1, hstanding.2.trans hcsocket, o, rfl, ?_, hall.2.1.trans hu.2.1, ?_⟩
      · rw [hall.2.2, hsome, hu.2.2]
      · have hataken : keyboardTaken v.connected.authorize.conn =
            keyboardTaken (w.asking a).connected.conn := htaken
        rw [hall.1, hu.1, hataken, ← husocket, hcsocket]
        simp

end World

end LuodaRemote
