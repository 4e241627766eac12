/-
  The subscriptions of a remote connection against its permissions.

  After `try_sub_monitor_services`, the permission switches of the connection manager and
  the options of the peer each refresh the services their author thought of. Of the five
  services that follow a predicate over the flags, two are missed in places: the cursor, when
  the keyboard permission comes back while the peer has its keyboard disabled, and the file
  clipboard, when the clipboard permission or option changes. `subscriptions_follow_iff`:
  the subscriptions follow the permissions throughout precisely in the runs where neither
  happens.
-/
import LuodaRemote.Connection.Exposure
import LuodaRemote.System

namespace LuodaRemote
open Lib

/-! ## Following the permissions -/

/-- The connection is subscribed to each of the five services that the server has exactly
    when its predicate holds. The file clipboard is in builds with file copy and paste. -/
structure Follows (h : Host) (w : World) : Prop where
  clipboard : w.glob.server.contains .clipboard = true →
    w.glob.server.isSubed .clipboard w.conn.id = w.conn.flags.canSubClipboardService h
  fileClipboard : h.unixFileCopyPaste = true → w.glob.server.contains .fileClipboard = true →
    w.glob.server.isSubed .fileClipboard w.conn.id = w.conn.flags.canSubFileClipboardService h
  audio : w.glob.server.contains .audio = true →
    w.glob.server.isSubed .audio w.conn.id = w.conn.flags.audioEnabled
  cursor : w.glob.server.contains .cursor = true →
    w.glob.server.isSubed .cursor w.conn.id = w.conn.flags.cursorEnabled
  pos : w.glob.server.contains .pos = true →
    w.glob.server.isSubed .pos w.conn.id = w.conn.flags.showRemoteCursor

/-- A change of the permissions, by the connection manager or by the peer. -/
inductive Change where
  | switchPermission (name : SwitchName) (enabled : Bool)
  | option (o : OptionMessage)
  deriving DecidableEq

def Change.arm : Change → Arm
  | .switchPermission name enabled => .cm (.switchPermission name enabled)
  | .option o => .peer (.misc (.option o))

namespace World

def changeStep (h : Host) (w : World) (x : Env × Change) : World := w.arm h x.1 x.2.arm

/-- An authorized remote connection. -/
structure AuthedRemote (w : World) : Prop where
  authorized : w.conn.authorized = true
  kind : w.conn.authedConnId = some .remote
  noSocket : w.conn.portForwardSocket = none

theorem AuthedRemote.of_loginView {w w' : World} (hw : AuthedRemote w)
    (hview : w'.loginView = w.loginView) : AuthedRemote w' := by
  have hconn := congrArg (fun w : World => (w.conn.authorized, w.conn.authedConnId,
    w.conn.portForwardSocket)) hview
  obtain ⟨h1, h2⟩ := Prod.mk.inj hconn
  obtain ⟨h2, h3⟩ := Prod.mk.inj h2
  exact ⟨h1.trans hw.authorized, h2.trans hw.kind, h3.trans hw.noSocket⟩

theorem AuthedRemote.not_camera {w : World} (hw : AuthedRemote w) :
    w.conn.isAuthedViewCameraConn = false := by
  unfold Connection.isAuthedViewCameraConn
  rw [hw.kind]
  rfl

/-! ## The two kinds of change -/

section
variable {h : Host} {w : World}

/-- On an authorized remote connection an option message comes to `update_options`. -/
theorem changeStep_option (env : Env) (o : OptionMessage) (hw : AuthedRemote w) :
    w.changeStep h (env, .option o) = (w.touchSession env).updateOptions h o := by
  have hconn := touchSession_conn env w
  have ha : (w.touchSession env).conn.authorized = true := by rw [hconn, hw.authorized]
  have hs : (w.touchSession env).conn.portForwardSocket = none := by rw [hconn, hw.noSocket]
  change afterMessage (if (w.touchSession env).conn.authorized = true then
    (w.touchSession env).onAuthorizedMessage h env (.misc (.option o)) else _) = _
  rw [if_pos ha]
  have hmsg : (w.touchSession env).onAuthorizedMessage h env (.misc (.option o)) =
      ((w.touchSession env).updateOptions h o, true) := if_neg (by rw [hs]; simp)
  have hstay := congrArg (fun w : World => w.conn.portForwardSocket)
    (loginView_updateOptions h o (w.touchSession env))
  have hnone : ((w.touchSession env).updateOptions h o).conn.portForwardSocket = none :=
    hstay.trans hs
  rw [hmsg]
  refine if_neg ?_
  rintro (hfalse | ⟨hsome, _⟩)
  · cases hfalse
  · dsimp only at hsome
    rw [hnone] at hsome
    cases hsome

/-- The change refreshes every service whose predicate it changes: the keyboard permission
    is not switched on while the peer has its keyboard disabled and wants no cursor, and the
    clipboard's part in the file clipboard does not change behind its back. -/
def Refreshes (h : Host) (w : World) (x : Env × Change) : Prop :=
  let f := w.conn.flags
  match x.2 with
  | .switchPermission .keyboard true => w.glob.server.contains .cursor = true →
      f.disableKeyboard = true → f.showRemoteCursor = true
  | .switchPermission .clipboard enabled => h.unixFileCopyPaste = true →
      w.glob.server.contains .fileClipboard = true →
      { f with clipboard := enabled }.canSubFileClipboardService h =
        f.canSubFileClipboardService h
  | .option o => h.unixFileCopyPaste = true → w.glob.server.contains .fileClipboard = true →
      o.disableKeyboard = .notSet →
      { f.withOptions h o with
          disableClipboard := f.disableClipboard }.canSubFileClipboardService h =
        (f.withOptions h o).canSubFileClipboardService h
  | .switchPermission .. => True

/-- An option that is not set leaves a flag as it was. -/
theorem canSubFileClipboard_unset {o : OptionMessage} (hfcp : h.unixFileCopyPaste = true)
    (ho : o.enableFileTransfer.choice = none) (f : Flags) :
    { f.withOptions h o with
        disableClipboard := f.disableClipboard }.canSubFileClipboardService h =
      f.canSubFileClipboardService h := by
  simp [Flags.canSubFileClipboardService, Flags.clipboardEnabled, Flags.fileTransferEnabled,
    Flags.enableFileTransfer_withOptions h o f hfcp, ho]

/-- What the file clipboard is left with when the keyboard option is not touched. -/
theorem isSubed_fileClipboard_of_notSet {o : OptionMessage} (hf : Follows h w)
    (hfcp : h.unixFileCopyPaste = true) (hcont : w.glob.server.contains .fileClipboard = true)
    (hdk : o.disableKeyboard = .notSet) :
    (w.updateOptions h o).glob.server.isSubed .fileClipboard w.conn.id =
      { w.conn.flags.withOptions h o with
          disableClipboard := w.conn.flags.disableClipboard }.canSubFileClipboardService h := by
  rw [isSubed_fileClipboard_updateOptions h o w hfcp, if_neg (by simp [hdk, BoolOption.choice])]
  cases ho : o.enableFileTransfer.choice with
  | none =>
    rw [if_neg (by simp), canSubFileClipboard_unset hfcp ho]
    exact hf.fileClipboard hfcp hcont
  | some b =>
    rw [if_pos Option.isSome_some, hcont, Bool.true_and]

theorem follows_updateOptions (o : OptionMessage) (hw : AuthedRemote w) (hf : Follows h w)
    (env : Env) : Follows h (w.updateOptions h o) ↔ Refreshes h w (env, .option o) := by
  have hcam := hw.not_camera
  constructor
  · intro hf' hfcp hcont hdk
    have hfile := hf'.fileClipboard hfcp (by rw [contains_updateOptions]; exact hcont)
    rw [id_updateOptions, isSubed_fileClipboard_of_notSet hf hfcp hcont hdk,
      flags_updateOptions] at hfile
    exact hfile
  · intro href
    refine ⟨fun hcont => ?_, fun hfcp hcont => ?_, fun hcont => ?_, fun hcont => ?_,
      fun hcont => ?_⟩
    all_goals
      rw [contains_updateOptions] at hcont
      rw [id_updateOptions, flags_updateOptions]
    · rw [isSubed_clipboard_updateOptions]
      split
      · rw [hcont, Bool.true_and]
      · rename_i hno
        rw [not_or, choice_isSome, choice_isSome, not_not, not_not] at hno
        rw [hf.clipboard hcont]
        simp [Flags.canSubClipboardService, Flags.clipboardEnabled, Flags.peerKeyboardEnabled,
          hno.1, hno.2, BoolOption.choice]
    · by_cases hdk : o.disableKeyboard = .notSet
      · rw [isSubed_fileClipboard_of_notSet hf hfcp hcont hdk]
        exact href hfcp hcont hdk
      · rw [isSubed_fileClipboard_updateOptions h o w hfcp, if_pos (choice_isSome.mpr hdk), hcont,
          Bool.true_and]
    · rw [isSubed_audio_updateOptions]
      split
      · rw [hcont, Bool.true_and]
      · rename_i hno
        have hset : o.disableAudio = .notSet := by
          by_contra hset
          exact hno ⟨choice_isSome.mpr hset, by simp [hcam]⟩
        rw [hf.audio hcont]
        simp [Flags.audioEnabled, hset, BoolOption.choice]
    · rw [isSubed_cursor_updateOptions]
      split
      · rw [hcont, Bool.true_and]
      · rename_i hno
        rw [not_or, choice_isSome, choice_isSome, not_not, not_not] at hno
        rw [hf.cursor hcont]
        simp [Flags.cursorEnabled, Flags.peerKeyboardEnabled, hno.1, hno.2, BoolOption.choice]
    · rw [isSubed_pos_updateOptions]
      split
      · rw [hcont, Bool.true_and]
      · rename_i hno
        rw [choice_isSome, not_not] at hno
        rw [hf.pos hcont]
        simp [hno, BoolOption.choice]

theorem follows_keyboard (enabled : Bool) (hf : Follows h w) :
    Follows h (w.switchPermission h .keyboard enabled) ↔
      (enabled = true → w.glob.server.contains .cursor = true →
        w.conn.flags.disableKeyboard = true → w.conn.flags.showRemoteCursor = true) := by
  have hflags : (w.switchPermission h .keyboard enabled).conn.flags =
      { w.conn.flags with keyboard := enabled } := by
    simp [switchPermission, subscribe, subscribeClipboard, setFlags, send]
  constructor
  · rintro hf' rfl hcont hdk
    have hcur := hf'.cursor (by rw [contains_switchPermission]; exact hcont)
    rw [id_switchPermission, isSubed_switchPermission_keyboard, hflags] at hcur
    simpa [hcont, Flags.cursorEnabled, Flags.peerKeyboardEnabled, hdk] using hcur
  · intro href
    refine ⟨fun hcont => ?_, fun hfcp hcont => ?_, fun hcont => ?_, fun hcont => ?_,
      fun hcont => ?_⟩
    all_goals
      rw [contains_switchPermission] at hcont
      rw [id_switchPermission, isSubed_switchPermission_keyboard, hflags]
    · simp [hcont]
    · simp [hcont, hfcp]
    · simpa [Flags.audioEnabled] using hf.audio hcont
    · -- The cursor is subscribed to as if the peer's keyboard were enabled.
      simp only [Flags.cursorEnabled, Flags.peerKeyboardEnabled]
      cases hdk : w.conn.flags.disableKeyboard with
      | false => simp [hcont]
      | true =>
        cases enabled with
        | false => simp [hcont]
        | true => simp [hcont, href rfl hcont hdk]
    · simpa using hf.pos hcont

theorem follows_clipboard (enabled : Bool) (hf : Follows h w) :
    Follows h (w.switchPermission h .clipboard enabled) ↔
      (h.unixFileCopyPaste = true → w.glob.server.contains .fileClipboard = true →
        { w.conn.flags with clipboard := enabled }.canSubFileClipboardService h =
          w.conn.flags.canSubFileClipboardService h) := by
  have hflags : (w.switchPermission h .clipboard enabled).conn.flags =
      { w.conn.flags with clipboard := enabled } := rfl
  have hsub : ∀ m, (w.switchPermission h .clipboard enabled).glob.server.isSubed m w.conn.id =
      if m = .clipboard then w.glob.server.contains m &&
        { w.conn.flags with clipboard := enabled }.canSubClipboardService h
      else w.glob.server.isSubed m w.conn.id := by
    intro m
    refine (isSubed_subscribe _ _ _ _ _).trans ?_
    simp [setFlags, send]
  constructor
  · intro hf' hfcp hcont
    have hfile := hf'.fileClipboard hfcp (by rw [contains_switchPermission]; exact hcont)
    rw [id_switchPermission, hsub, hflags, if_neg (by simp), hf.fileClipboard hfcp hcont] at hfile
    exact hfile.symm
  · intro href
    refine ⟨fun hcont => ?_, fun hfcp hcont => ?_, fun hcont => ?_, fun hcont => ?_,
      fun hcont => ?_⟩
    all_goals
      rw [contains_switchPermission] at hcont
      rw [id_switchPermission, hsub, hflags]
    · simp [hcont]
    · rw [if_neg (by simp), hf.fileClipboard hfcp hcont, href hfcp hcont]
    · simpa [Flags.audioEnabled] using hf.audio hcont
    · simpa [Flags.cursorEnabled, Flags.peerKeyboardEnabled] using hf.cursor hcont
    · simpa using hf.pos hcont

theorem follows_audio (enabled : Bool) (hw : AuthedRemote w) (hf : Follows h w) :
    Follows h (w.switchPermission h .audio enabled) := by
  let v := (w.setFlags fun f => { f with audio := enabled }).send (.permission .audio enabled)
  have hv : w.switchPermission h .audio enabled = v.subscribeAudio := if_pos hw.authorized
  have hcam : v.conn.isAuthedViewCameraConn = false := hw.not_camera
  have hflags : (w.switchPermission h .audio enabled).conn.flags =
      { w.conn.flags with audio := enabled } := by
    rw [hv, flags_subscribeAudio]
    rfl
  have hsub : ∀ m, (w.switchPermission h .audio enabled).glob.server.isSubed m w.conn.id =
      if m = .audio then w.glob.server.contains m &&
        { w.conn.flags with audio := enabled }.audioEnabled
      else w.glob.server.isSubed m w.conn.id := by
    intro m
    rw [hv]
    refine (isSubed_subscribeAudio v m w.conn.id).trans ?_
    rw [hcam]
    simp [v, setFlags, send]
  refine ⟨fun hcont => ?_, fun hfcp hcont => ?_, fun hcont => ?_, fun hcont => ?_, fun hcont => ?_⟩
  all_goals
    rw [contains_switchPermission] at hcont
    rw [id_switchPermission, hsub, hflags]
  · simpa [Flags.canSubClipboardService, Flags.clipboardEnabled, Flags.peerKeyboardEnabled]
      using hf.clipboard hcont
  · simpa [Flags.canSubFileClipboardService, Flags.clipboardEnabled, Flags.fileTransferEnabled]
      using hf.fileClipboard hfcp hcont
  · simp [hcont]
  · simpa [Flags.cursorEnabled, Flags.peerKeyboardEnabled] using hf.cursor hcont
  · simpa using hf.pos hcont

theorem follows_file (enabled : Bool) (hf : Follows h w) :
    Follows h (w.switchPermission h .file enabled) := by
  have hflags : (w.switchPermission h .file enabled).conn.flags =
      { w.conn.flags with file := enabled } := by
    simp [switchPermission, setFlags, send]
  have hsub : ∀ m, (w.switchPermission h .file enabled).glob.server.isSubed m w.conn.id =
      if m = .fileClipboard ∧ h.unixFileCopyPaste = true then w.glob.server.contains m &&
        { w.conn.flags with file := enabled }.canSubFileClipboardService h
      else w.glob.server.isSubed m w.conn.id := by
    intro m
    refine (isSubed_subscribeFileClipboard _ _ _ _).trans ?_
    simp [setFlags, send]
  refine ⟨fun hcont => ?_, fun hfcp hcont => ?_, fun hcont => ?_, fun hcont => ?_, fun hcont => ?_⟩
  all_goals
    rw [contains_switchPermission] at hcont
    rw [id_switchPermission, hsub, hflags]
  · simpa [Flags.canSubClipboardService, Flags.clipboardEnabled, Flags.peerKeyboardEnabled]
      using hf.clipboard hcont
  · simp [hcont, hfcp]
  · simpa [Flags.audioEnabled] using hf.audio hcont
  · simpa [Flags.cursorEnabled, Flags.peerKeyboardEnabled] using hf.cursor hcont
  · simpa using hf.pos hcont

/-- A permission switch keeps the subscriptions in step exactly when it refreshes what it
    changes. -/
theorem follows_switchPermission (name : SwitchName) (enabled : Bool) (hw : AuthedRemote w)
    (hf : Follows h w) (env : Env) :
    Follows h (w.switchPermission h name enabled) ↔
      Refreshes h w (env, .switchPermission name enabled) := by
  cases name with
  | keyboard =>
    rw [follows_keyboard enabled hf]
    cases enabled with
    | false => exact iff_of_true (fun hno => by cases hno) trivial
    | true => exact ⟨fun hall => hall rfl, fun hall _ => hall⟩
  | clipboard => exact follows_clipboard enabled hf
  | audio => exact iff_of_true (follows_audio enabled hw hf) trivial
  | file => exact iff_of_true (follows_file enabled hf) trivial
  | restart | recording | blockInput =>
    exact iff_of_true ⟨hf.clipboard, hf.fileClipboard, hf.audio, hf.cursor, hf.pos⟩ trivial
  | unknown name =>
    exact iff_of_true ⟨hf.clipboard, hf.fileClipboard, hf.audio, hf.cursor, hf.pos⟩ trivial

/-- One change, from a state in which the subscriptions follow. -/
theorem follows_changeStep (x : Env × Change) (hw : AuthedRemote w) (hf : Follows h w) :
    Follows h (w.changeStep h x) ↔ Refreshes h w x := by
  obtain ⟨env, change⟩ := x
  cases change with
  | switchPermission name enabled => exact follows_switchPermission name enabled hw hf env
  | option o =>
    have hconn := touchSession_conn env w
    obtain ⟨times, hglob⟩ := touchSession_glob env w
    have heq : w.touchSession env = ⟨w.conn, { w.glob with recvTimes := times }⟩ :=
      congr (congrArg World.mk hconn) hglob
    rw [changeStep_option env o hw, heq]
    exact follows_updateOptions (w := ⟨w.conn, { w.glob with recvTimes := times }⟩) o
      ⟨hw.authorized, hw.kind, hw.noSocket⟩
      ⟨hf.clipboard, hf.fileClipboard, hf.audio, hf.cursor, hf.pos⟩ env

theorem authedRemote_changeStep (x : Env × Change) (hw : AuthedRemote w) :
    AuthedRemote (w.changeStep h x) := by
  obtain ⟨env, change⟩ := x
  cases change with
  | switchPermission name enabled =>
    exact hw.of_loginView (loginView_switchPermission h name enabled w)
  | option o =>
    rw [changeStep_option env o hw]
    have htouch : AuthedRemote (w.touchSession env) := by
      have hconn := touchSession_conn env w
      exact ⟨by rw [hconn, hw.authorized], by rw [hconn, hw.kind], by rw [hconn, hw.noSocket]⟩
    exact htouch.of_loginView (loginView_updateOptions h o _)

/-! ## The first subscription -/

theorem mem_noperms (f : Flags) (m : ServiceName) : m ∈ noperms h f ↔
    m = .cursor ∧ f.cursorEnabled = false ∨ m = .pos ∧ f.showRemoteCursor = false ∨
    m = .windowFocus ∧ f.followRemoteWindow = false ∨
    m = .clipboard ∧ f.canSubClipboardService h = false ∨
    m = .fileClipboard ∧ h.unixFileCopyPaste = true ∧ f.canSubFileClipboardService h = false ∨
    m = .audio ∧ f.audioEnabled = false := by
  have hif : ∀ (b : Bool) (n : ServiceName),
      m ∈ (if b then [] else [n]) ↔ m = n ∧ b = false := by
    intro b n
    cases b <;> simp
  have hfile : m ∈ (if h.unixFileCopyPaste && !f.canSubFileClipboardService h then
      [ServiceName.fileClipboard] else []) ↔ m = .fileClipboard ∧ h.unixFileCopyPaste = true ∧
        f.canSubFileClipboardService h = false := by
    cases h.unixFileCopyPaste <;> cases f.canSubFileClipboardService h <;> simp
  unfold noperms
  simp only [List.mem_append, hif, hfile, or_assoc]

/-- Nothing the connection has no permission for was subscribed to before. The window focus
    follows no permission. -/
def NotStale (h : Host) (w : World) : Prop :=
  ∀ n ∈ noperms h w.conn.flags, n ≠ .windowFocus → w.glob.server.isSubed n w.conn.id = false

instance (h : Host) (w : World) : Decidable (NotStale h w) :=
  inferInstanceAs (Decidable (∀ n ∈ noperms h w.conn.flags, n ≠ .windowFocus →
    w.glob.server.isSubed n w.conn.id = false))

/-- `try_sub_monitor_services` adds what is permitted and takes nothing away. -/
theorem isSubed_trySubMonitorServices (hremote : w.conn.isRemote = true)
    (hfirst : w.conn.servicesSubed = false) {m : ServiceName} (hm : m.isVideo = false) :
    (w.trySubMonitorServices h).glob.server.isSubed m w.conn.id =
      if m ∈ noperms h w.conn.flags then w.glob.server.isSubed m w.conn.id
      else w.glob.server.contains m := by
  unfold trySubMonitorServices
  rw [if_pos (by simp [hremote, hfirst])]
  dsimp only
  rw [Server.isSubed_addConnection]
  unfold Server.tryAddPrimayVideoService
  rw [Server.isSubed_addVideoService, Server.contains_addVideoService_of_not_isVideo _ _ _ hm]
  by_cases hmem : m ∈ noperms h w.conn.flags
  · simp [hmem]
  · simp [hmem, hm]

theorem conn_trySubMonitorServices (hremote : w.conn.isRemote = true)
    (hfirst : w.conn.servicesSubed = false) :
    (w.trySubMonitorServices h).conn = { w.conn with servicesSubed := true } := by
  unfold trySubMonitorServices
  rw [if_pos (by simp [hremote, hfirst])]

theorem contains_trySubMonitorServices (w : World) {m : ServiceName} (hm : m.isVideo = false) :
    (w.trySubMonitorServices h).glob.server.contains m = w.glob.server.contains m := by
  unfold trySubMonitorServices
  split
  · dsimp only [Server.tryAddPrimayVideoService]
    rw [Server.contains_addConnection, Server.contains_addVideoService_of_not_isVideo _ _ _ hm]
  · rfl

/-- Right after the first subscription the services follow unless one was stale. -/
theorem follows_trySubMonitorServices (hremote : w.conn.isRemote = true)
    (hfirst : w.conn.servicesSubed = false) :
    Follows h (w.trySubMonitorServices h) ↔ NotStale h w := by
  have hconn := conn_trySubMonitorServices (h := h) hremote hfirst
  have hsub := fun (m : ServiceName) (hm : m.isVideo = false) =>
    isSubed_trySubMonitorServices (h := h) hremote hfirst hm
  have hid : (w.trySubMonitorServices h).conn.id = w.conn.id := by rw [hconn]
  have hflags : (w.trySubMonitorServices h).conn.flags = w.conn.flags := by rw [hconn]
  constructor
  · intro hf n hn hfocus
    by_contra hsubed
    rw [Bool.not_eq_false] at hsubed
    have hcont := Server.contains_of_isSubed _ hsubed
    have hafter : ∀ hv : n.isVideo = false,
        (w.trySubMonitorServices h).glob.server.isSubed n w.conn.id = true := by
      intro hv
      rw [hsub n hv, if_pos hn, hsubed]
    have hcont' : ∀ hv : n.isVideo = false,
        (w.trySubMonitorServices h).glob.server.contains n = true := by
      intro hv
      rw [contains_trySubMonitorServices w hv, hcont]
    rcases (mem_noperms _ _).mp hn with ⟨rfl, hno⟩ | ⟨rfl, hno⟩ | ⟨rfl, _⟩ | ⟨rfl, hno⟩ |
      ⟨rfl, hfcp, hno⟩ | ⟨rfl, hno⟩
    · have hval := hf.cursor (hcont' rfl)
      rw [hid, hflags, hafter rfl, hno] at hval
      cases hval
    · have hval := hf.pos (hcont' rfl)
      rw [hid, hflags, hafter rfl, hno] at hval
      cases hval
    · exact hfocus rfl
    · have hval := hf.clipboard (hcont' rfl)
      rw [hid, hflags, hafter rfl, hno] at hval
      cases hval
    · have hval := hf.fileClipboard hfcp (hcont' rfl)
      rw [hid, hflags, hafter rfl, hno] at hval
      cases hval
    · have hval := hf.audio (hcont' rfl)
      rw [hid, hflags, hafter rfl, hno] at hval
      cases hval
  · intro hstale
    have hval : ∀ m b, m.isVideo = false → m ≠ .windowFocus →
        (m ∈ noperms h w.conn.flags ↔ b = false) →
        (w.trySubMonitorServices h).glob.server.contains m = true →
        (w.trySubMonitorServices h).glob.server.isSubed m w.conn.id = b := by
      intro m b hv hfocus hmem hcont
      rw [contains_trySubMonitorServices w hv] at hcont
      rw [hsub m hv]
      cases b with
      | false => rw [if_pos (hmem.mpr rfl), hstale m (hmem.mpr rfl) hfocus]
      | true => rw [if_neg (fun hm => by cases hmem.mp hm), hcont]
    refine ⟨fun hcont => ?_, fun hfcp hcont => ?_, fun hcont => ?_, fun hcont => ?_,
      fun hcont => ?_⟩
    all_goals
      rw [hid, hflags]
      refine hval _ _ rfl (by simp) ?_ hcont
      rw [mem_noperms]
      simp
    exact fun _ => hfcp

/-! ## Whole runs -/

/-- From the first subscription of an authorized remote connection on, through any sequence
    of permission switches and option messages, the subscriptions follow the permissions
    exactly when nothing was stale at the start and every change refreshes what it changes. -/
theorem subscriptions_follow_iff (h : Host) (w : World) (hw : AuthedRemote w)
    (hremote : w.conn.isRemote = true) (hfirst : w.conn.servicesSubed = false)
    (xs : List (Env × Change)) :
    Always (changeStep h) (Follows h) (w.trySubMonitorServices h) xs ↔
      NotStale h w ∧ Along (changeStep h) (Refreshes h) (w.trySubMonitorServices h) xs := by
  have hinit : AuthedRemote (w.trySubMonitorServices h) :=
    hw.of_loginView (loginView_trySubMonitorServices h w)
  have hiff : Follows h (w.trySubMonitorServices h) →
      (Always (changeStep h) (Follows h) (w.trySubMonitorServices h) xs ↔
        Along (changeStep h) (Refreshes h) (w.trySubMonitorServices h) xs) :=
    always_iff_along (fun _ x hi => authedRemote_changeStep x hi)
      (fun _ x hi hf => follows_changeStep x hi hf) hinit
  rw [← follows_trySubMonitorServices hremote hfirst]
  constructor
  · intro hall
    exact ⟨hall.head, (hiff hall.head).mp hall⟩
  · rintro ⟨hstart, hall⟩
    exact (hiff hstart).mpr hall

end

/-- A remote connection that has just been authorized, on a fresh server. -/
def justAuthorized (h : Host) : World where
  conn := { Connection.start h .sample 1 (.v4 3232235778) .sample none with
    authorized := true, authedConnId := some .remote }
  glob := .init (.new h false false false)

/-- The clipboard permission is revoked and given back. -/
theorem subscriptions_follow_iff_clipboard :
    Always (changeStep .sample) (Follows .sample)
      ((justAuthorized .sample).trySubMonitorServices .sample)
      [(.sample, .switchPermission .clipboard false),
        (.sample, .switchPermission .clipboard true)] :=
  (subscriptions_follow_iff .sample (justAuthorized .sample) ⟨rfl, rfl, rfl⟩ rfl rfl _).mpr
    ⟨by decide +kernel, fun hno => (by cases hno), fun hno => (by cases hno), trivial⟩

/-- The peer asks for file transfer, then the user revokes the clipboard permission. -/
def clipboardRevoked : List (Env × Change) :=
  [(.sample, .option { enableFileTransfer := .yes }),
    (.sample, .switchPermission .clipboard false)]

/-- The files of the clipboard are still streamed. -/
theorem file_clipboard_not_revoked :
    ¬Always (changeStep Host.sampleLinux) (Follows Host.sampleLinux)
      ((justAuthorized Host.sampleLinux).trySubMonitorServices Host.sampleLinux)
      clipboardRevoked := by
  intro hall
  let last := run (changeStep Host.sampleLinux)
    ((justAuthorized Host.sampleLinux).trySubMonitorServices Host.sampleLinux) clipboardRevoked
  have hfile : last.glob.server.isSubed .fileClipboard last.conn.id =
      last.conn.flags.canSubFileClipboardService Host.sampleLinux :=
    hall.last.fileClipboard rfl (by decide +kernel)
  have hsubed : last.glob.server.isSubed .fileClipboard last.conn.id = true := by decide +kernel
  have hrevoked : last.conn.flags.canSubFileClipboardService Host.sampleLinux = false := by
    decide +kernel
  rw [hsubed, hrevoked] at hfile
  cases hfile

end World

end LuodaRemote
