/-
  `update_options`: the options a peer sets, at login and later, and the subscriptions it
  refreshes for each of them.

  Every option that is set is stored first and then the services its author thought of are
  subscribed to or not, by the flags as they are at that point. `flags_updateOptions` gives
  the flags at the end, and a theorem for each service, such as `isSubed_audio_updateOptions`,
  what it is left with. The two differ in one place only: the file clipboard is not refreshed
  when `disable_clipboard` changes.

  Picture quality, frame rate, codecs and the privacy mode of old clients are left out.
-/
import LuodaRemote.Connection.State

namespace LuodaRemote

namespace World

def setFlags (f : Flags → Flags) (w : World) : World :=
  { w with conn := { w.conn with flags := f w.conn.flags } }

/-- `if q != BoolOption::NotSet { .. }`. -/
def ifSet (q : BoolOption) (f : Bool → World → World) (w : World) : World :=
  match q.choice with
  | none => w
  | some b => f b w

/-- `subscribe(audio_service::NAME, ..)` as `update_options` and `SwitchPermission` do it: a
    camera connection hears audio in a voice call only. -/
def subscribeAudio (w : World) : World :=
  if w.conn.isAuthedViewCameraConn then
    if w.conn.voiceCalling || !w.conn.flags.audioEnabled then
      w.subscribe .audio w.conn.flags.audioEnabled
    else w
  else w.subscribe .audio w.conn.flags.audioEnabled

def subscribeClipboard (h : Host) (w : World) : World :=
  w.subscribe .clipboard (w.conn.flags.canSubClipboardService h)

def subscribeFileClipboard (h : Host) (w : World) : World :=
  if h.unixFileCopyPaste then
    w.subscribe .fileClipboard (w.conn.flags.canSubFileClipboardService h)
  else w

def optionShowRemoteCursor (b : Bool) (w : World) : World :=
  let w := w.setFlags fun f => { f with showRemoteCursor := b }
  (w.subscribe .cursor w.conn.flags.cursorEnabled).subscribe .pos w.conn.flags.showRemoteCursor

def optionFollowRemoteWindow (b : Bool) (w : World) : World :=
  (w.setFlags fun f => { f with followRemoteWindow := b }).subscribe .windowFocus b

def optionDisableAudio (b : Bool) (w : World) : World :=
  (w.setFlags fun f => { f with disableAudio := b }).subscribeAudio

/-- Builds that cannot copy files do not look at this option. -/
def optionEnableFileTransfer (h : Host) (b : Bool) (w : World) : World :=
  if h.targetOs = .windows ∨ h.unixFileCopyPaste then
    let w := w.setFlags fun f => { f with enableFileTransfer := b }
    let w := if h.targetOs = .windows then
      w.sendToCm (.clipboardFileEnabled w.conn.flags.fileTransferEnabled) else w
    w.subscribeFileClipboard h
  else w

def optionDisableClipboard (h : Host) (b : Bool) (w : World) : World :=
  (w.setFlags fun f => { f with disableClipboard := b }).subscribeClipboard h

def optionDisableKeyboard (h : Host) (b : Bool) (w : World) : World :=
  let w := w.setFlags fun f => { f with disableKeyboard := b }
  let w := (w.subscribeClipboard h).subscribeFileClipboard h
  w.subscribe .cursor w.conn.flags.cursorEnabled

def optionBlockInput (b : Bool) (w : World) : World :=
  if w.conn.flags.keyboard && w.conn.flags.blockInput then
    w.sendToInput (if b then .blockOn else .blockOff)
  else w.send (.blockInputFailed b "No permission")

def updateTerminalPersistence (b : Bool) (w : World) : World :=
  { w with conn := { w.conn with terminalPersistent := b } }

def updateOptions (h : Host) (o : OptionMessage) (w : World) : World :=
  w |> ifSet o.lockAfterSessionEnd (fun b => setFlags fun f => { f with lockAfterSessionEnd := b })
    |> ifSet o.showRemoteCursor optionShowRemoteCursor
    |> ifSet o.followRemoteCursor (fun b => setFlags fun f => { f with followRemoteCursor := b })
    |> ifSet o.followRemoteWindow optionFollowRemoteWindow
    |> ifSet o.disableAudio optionDisableAudio
    |> ifSet o.enableFileTransfer (optionEnableFileTransfer h)
    |> ifSet o.disableClipboard (optionDisableClipboard h)
    |> ifSet o.disableKeyboard (optionDisableKeyboard h)
    |> ifSet o.blockInput optionBlockInput
    |> ifSet o.terminalPersistent updateTerminalPersistence
    |> ifSet o.showMyCursor (fun b => setFlags fun f => { f with showMyCursor := b })

/-! ## Frame -/

@[simp] theorem choice_isSome {q : BoolOption} : q.choice.isSome = true ↔ q ≠ .notSet := by
  cases q <;> simp [BoolOption.choice]

theorem apply_ifSet {α : Sort*} (π : World → α) (q : BoolOption) (f : Bool → World → World)
    (w : World) : π (ifSet q f w) = q.choice.elim (π w) fun b => π (f b w) := by
  unfold ifSet
  cases q.choice <;> rfl

private theorem apply_ifSet_same {α : Sort*} {π : World → α} {f : Bool → World → World}
    (hf : ∀ b w, π (f b w) = π w) (q : BoolOption) (w : World) : π (ifSet q f w) = π w := by
  unfold ifSet
  cases q.choice with
  | none => rfl
  | some b => exact hf b w

/-- Whatever the basic operations leave alone, `update_options` leaves alone; all that it may send
    is that the input could not be blocked. -/
theorem apply_updateOptions_of {α : Sort*} (π : World → α)
    (hflags : ∀ g w, π (setFlags g w) = π w)
    (hsub : ∀ n b w, π (subscribe n b w) = π w)
    (hsend : ∀ b details w, π (send (.blockInputFailed b details) w) = π w)
    (hcm : ∀ b w, π (sendToCm (.clipboardFileEnabled b) w) = π w)
    (hon : ∀ w, π (sendToInput .blockOn w) = π w)
    (hoff : ∀ w, π (sendToInput .blockOff w) = π w)
    (hterm : ∀ b w, π (updateTerminalPersistence b w) = π w)
    (h : Host) (o : OptionMessage) (w : World) : π (updateOptions h o w) = π w := by
  have haudio : ∀ w, π (subscribeAudio w) = π w := by
    intro w
    unfold subscribeAudio
    split_ifs
    · exact hsub _ _ w
    · rfl
    · exact hsub _ _ w
  have hfile : ∀ w, π (subscribeFileClipboard h w) = π w := by
    intro w
    unfold subscribeFileClipboard
    split_ifs
    · exact hsub _ _ w
    · rfl
  have henable : ∀ b w, π (optionEnableFileTransfer h b w) = π w := by
    intro b w
    unfold optionEnableFileTransfer
    dsimp only
    split_ifs
    · rw [hfile, hcm, hflags]
    · rw [hfile, hflags]
    · rfl
  have hblock : ∀ b w, π (optionBlockInput b w) = π w := by
    intro b w
    unfold optionBlockInput
    split_ifs
    · exact hon w
    · exact hoff w
    · exact hsend _ _ w
  have hkeyboard : ∀ b w, π (optionDisableKeyboard h b w) = π w := by
    intro b w
    unfold optionDisableKeyboard subscribeClipboard
    dsimp only
    rw [hsub, hfile, hsub, hflags]
  have hcursor : ∀ b w, π (optionShowRemoteCursor b w) = π w := by
    intro b w
    unfold optionShowRemoteCursor
    dsimp only
    rw [hsub, hsub, hflags]
  have hclipboard : ∀ b w, π (optionDisableClipboard h b w) = π w :=
    fun b w => (hsub _ _ _).trans (hflags _ w)
  have hdisable : ∀ b w, π (optionDisableAudio b w) = π w :=
    fun b w => (haudio _).trans (hflags _ w)
  have hwindow : ∀ b w, π (optionFollowRemoteWindow b w) = π w :=
    fun b w => (hsub _ _ _).trans (hflags _ w)
  unfold updateOptions
  rw [apply_ifSet_same (fun b w => hflags _ w), apply_ifSet_same hterm,
    apply_ifSet_same hblock, apply_ifSet_same hkeyboard, apply_ifSet_same hclipboard,
    apply_ifSet_same henable, apply_ifSet_same hdisable, apply_ifSet_same hwindow,
    apply_ifSet_same (fun b w => hflags _ w), apply_ifSet_same hcursor,
    apply_ifSet_same (fun b w => hflags _ w)]

theorem apply_updateOptions {α : Sort*} (π : World → α)
    (hflags : ∀ g w, π (setFlags g w) = π w)
    (hsub : ∀ n b w, π (subscribe n b w) = π w)
    (hsend : ∀ m w, π (send m w) = π w)
    (hcm : ∀ b w, π (sendToCm (.clipboardFileEnabled b) w) = π w)
    (hon : ∀ w, π (sendToInput .blockOn w) = π w)
    (hoff : ∀ w, π (sendToInput .blockOff w) = π w)
    (hterm : ∀ b w, π (updateTerminalPersistence b w) = π w)
    (h : Host) (o : OptionMessage) (w : World) : π (updateOptions h o w) = π w :=
  apply_updateOptions_of π hflags hsub (fun _ _ => hsend _) hcm hon hoff hterm h o w

@[simp] theorem loginView_updateOptions (h : Host) (o : OptionMessage) (w : World) :
    (updateOptions h o w).loginView = w.loginView := by
  refine apply_updateOptions loginView ?_ ?_ ?_ ?_ ?_ ?_ ?_ h o w <;> intros <;>
    simp [loginView, setFlags, subscribe, send, sendToCm, sendToInput, updateTerminalPersistence]

@[simp] theorem id_updateOptions (h : Host) (o : OptionMessage) (w : World) :
    (updateOptions h o w).conn.id = w.conn.id :=
  congrArg (·.conn.id) (loginView_updateOptions h o w)

@[simp] theorem contains_updateOptions (h : Host) (o : OptionMessage) (w : World)
    (m : ServiceName) :
    (updateOptions h o w).glob.server.contains m = w.glob.server.contains m := by
  refine apply_updateOptions (fun w => w.glob.server.contains m)
    ?_ ?_ ?_ ?_ ?_ ?_ ?_ h o w <;> intros <;>
    simp [setFlags, subscribe, send, sendToCm, sendToInput, updateTerminalPersistence]

end World

/-! ## The flags at the end -/

namespace Flags

def setIf (q : BoolOption) (g : Bool → Flags → Flags) (f : Flags) : Flags :=
  q.choice.elim f (g · f)

/-- The flags after the options of `o`. -/
def withOptions (h : Host) (o : OptionMessage) (f : Flags) : Flags :=
  f |> setIf o.lockAfterSessionEnd (fun b f => { f with lockAfterSessionEnd := b })
    |> setIf o.showRemoteCursor (fun b f => { f with showRemoteCursor := b })
    |> setIf o.followRemoteCursor (fun b f => { f with followRemoteCursor := b })
    |> setIf o.followRemoteWindow (fun b f => { f with followRemoteWindow := b })
    |> setIf o.disableAudio (fun b f => { f with disableAudio := b })
    |> setIf (if h.targetOs = .windows ∨ h.unixFileCopyPaste then o.enableFileTransfer else .notSet)
        (fun b f => { f with enableFileTransfer := b })
    |> setIf o.disableClipboard (fun b f => { f with disableClipboard := b })
    |> setIf o.disableKeyboard (fun b f => { f with disableKeyboard := b })
    |> setIf o.showMyCursor (fun b f => { f with showMyCursor := b })

private theorem apply_setIf_same (p : Flags → Bool) {g : Bool → Flags → Flags}
    (hg : ∀ b f, p (g b f) = p f) (q : BoolOption) (f : Flags) : p (setIf q g f) = p f := by
  unfold setIf
  cases q.choice with
  | none => rfl
  | some b => exact hg b f

private theorem apply_setIf_self (p : Flags → Bool) {g : Bool → Flags → Flags}
    (hg : ∀ b f, p (g b f) = b) (q : BoolOption) (f : Flags) :
    p (setIf q g f) = q.choice.getD (p f) := by
  unfold setIf
  cases q.choice with
  | none => rfl
  | some b => exact hg b f

variable (h : Host) (o : OptionMessage) (f : Flags)

@[simp] theorem keyboard_withOptions : (f.withOptions h o).keyboard = f.keyboard := by
  simp (disch := intros; rfl) only [withOptions, apply_setIf_same (·.keyboard)]

@[simp] theorem clipboard_withOptions : (f.withOptions h o).clipboard = f.clipboard := by
  simp (disch := intros; rfl) only [withOptions, apply_setIf_same (·.clipboard)]

@[simp] theorem audio_withOptions : (f.withOptions h o).audio = f.audio := by
  simp (disch := intros; rfl) only [withOptions, apply_setIf_same (·.audio)]

@[simp] theorem file_withOptions : (f.withOptions h o).file = f.file := by
  simp (disch := intros; rfl) only [withOptions, apply_setIf_same (·.file)]

@[simp] theorem showRemoteCursor_withOptions : (f.withOptions h o).showRemoteCursor =
    o.showRemoteCursor.choice.getD f.showRemoteCursor := by
  simp (disch := intros; rfl) only [withOptions, apply_setIf_same (·.showRemoteCursor),
    apply_setIf_self (·.showRemoteCursor)]

@[simp] theorem disableAudio_withOptions : (f.withOptions h o).disableAudio =
    o.disableAudio.choice.getD f.disableAudio := by
  simp (disch := intros; rfl) only [withOptions, apply_setIf_same (·.disableAudio),
    apply_setIf_self (·.disableAudio)]

@[simp] theorem followRemoteWindow_withOptions : (f.withOptions h o).followRemoteWindow =
    o.followRemoteWindow.choice.getD f.followRemoteWindow := by
  simp (disch := intros; rfl) only [withOptions, apply_setIf_same (·.followRemoteWindow),
    apply_setIf_self (·.followRemoteWindow)]

@[simp] theorem disableClipboard_withOptions : (f.withOptions h o).disableClipboard =
    o.disableClipboard.choice.getD f.disableClipboard := by
  simp (disch := intros; rfl) only [withOptions, apply_setIf_same (·.disableClipboard),
    apply_setIf_self (·.disableClipboard)]

@[simp] theorem disableKeyboard_withOptions : (f.withOptions h o).disableKeyboard =
    o.disableKeyboard.choice.getD f.disableKeyboard := by
  simp (disch := intros; rfl) only [withOptions, apply_setIf_same (·.disableKeyboard),
    apply_setIf_self (·.disableKeyboard)]

@[simp] theorem showMyCursor_withOptions : (f.withOptions h o).showMyCursor =
    o.showMyCursor.choice.getD f.showMyCursor := by
  simp (disch := intros; rfl) only [withOptions, apply_setIf_same (·.showMyCursor),
    apply_setIf_self (·.showMyCursor)]

/-- On a build that copies files by the clipboard the option is read. -/
theorem enableFileTransfer_withOptions (hfcp : h.unixFileCopyPaste = true) :
    (f.withOptions h o).enableFileTransfer =
      o.enableFileTransfer.choice.getD f.enableFileTransfer := by
  simp (disch := intros; rfl) only [withOptions, apply_setIf_same (·.enableFileTransfer),
    apply_setIf_self (·.enableFileTransfer), hfcp, or_true, if_true]

end Flags

namespace World

theorem flags_ifSet {f : Bool → World → World} {g : Bool → Flags → Flags}
    (hf : ∀ b w, (f b w).conn.flags = g b w.conn.flags) (q : BoolOption) (w : World) :
    (ifSet q f w).conn.flags = w.conn.flags.setIf q g := by
  unfold ifSet Flags.setIf
  cases q.choice with
  | none => rfl
  | some b => exact hf b w

@[simp] theorem flags_subscribeAudio (w : World) :
    w.subscribeAudio.conn.flags = w.conn.flags := by
  unfold subscribeAudio
  split_ifs <;> rfl

@[simp] theorem flags_subscribeFileClipboard (h : Host) (w : World) :
    (w.subscribeFileClipboard h).conn.flags = w.conn.flags := by
  unfold subscribeFileClipboard
  split_ifs <;> rfl

@[simp] theorem conn_subscribeFileClipboard (h : Host) (w : World) :
    (w.subscribeFileClipboard h).conn = w.conn := by
  unfold subscribeFileClipboard
  split <;> rfl

@[simp] theorem contains_subscribeFileClipboard (h : Host) (w : World) (m : ServiceName) :
    (w.subscribeFileClipboard h).glob.server.contains m = w.glob.server.contains m := by
  unfold subscribeFileClipboard
  split
  · exact Server.contains_subscribe _ _ _ _ _
  · rfl

private theorem flags_optionEnableFileTransfer (h : Host) (q : BoolOption) (w : World) :
    (ifSet q (optionEnableFileTransfer h) w).conn.flags =
      w.conn.flags.setIf
        (if h.targetOs = .windows ∨ h.unixFileCopyPaste then q else .notSet)
        (fun b f => { f with enableFileTransfer := b }) := by
  split
  · rename_i hcopy
    refine flags_ifSet (fun b w => ?_) q w
    unfold optionEnableFileTransfer
    rw [if_pos hcopy, flags_subscribeFileClipboard]
    split <;> rfl
  · rename_i hcopy
    unfold ifSet
    split
    · rfl
    · unfold optionEnableFileTransfer
      rw [if_neg hcopy]
      rfl

theorem flags_updateOptions (h : Host) (o : OptionMessage) (w : World) :
    (updateOptions h o w).conn.flags = w.conn.flags.withOptions h o := by
  have hblock : ∀ q w, (ifSet q optionBlockInput w).conn.flags = w.conn.flags := by
    intro q w
    unfold ifSet
    split
    · rfl
    · unfold optionBlockInput
      split_ifs <;> rfl
  have hterm : ∀ q w, (ifSet q updateTerminalPersistence w).conn.flags = w.conn.flags := by
    intro q w
    unfold ifSet
    split <;> rfl
  unfold updateOptions Flags.withOptions
  rw [flags_ifSet (g := fun b f => { f with showMyCursor := b }) (fun _ _ => rfl), hterm, hblock,
    flags_ifSet (f := optionDisableKeyboard h) (g := fun b f => { f with disableKeyboard := b })
      (fun _ _ => flags_subscribeFileClipboard _ _),
    flags_ifSet (f := optionDisableClipboard h) (g := fun b f => { f with disableClipboard := b })
      (fun _ _ => rfl),
    flags_optionEnableFileTransfer,
    flags_ifSet (f := optionDisableAudio) (g := fun b f => { f with disableAudio := b })
      (fun _ _ => flags_subscribeAudio _),
    flags_ifSet (f := optionFollowRemoteWindow)
      (g := fun b f => { f with followRemoteWindow := b }) (fun _ _ => rfl),
    flags_ifSet (g := fun b f => { f with followRemoteCursor := b }) (fun _ _ => rfl),
    flags_ifSet (f := optionShowRemoteCursor) (g := fun b f => { f with showRemoteCursor := b })
      (fun _ _ => rfl),
    flags_ifSet (g := fun b f => { f with lockAfterSessionEnd := b }) (fun _ _ => rfl)]

/-! ## The subscriptions at the end -/

theorem isSubed_subscribe (n : ServiceName) (b : Bool) (w : World) (m : ServiceName) (j : Int) :
    (w.subscribe n b).glob.server.isSubed m j =
      if m = n ∧ j = w.conn.id then w.glob.server.contains m && b
      else w.glob.server.isSubed m j :=
  Server.isSubed_subscribe _ _ _ _ _ _

theorem isSubed_subscribeAudio (w : World) (m : ServiceName) (j : Int) :
    w.subscribeAudio.glob.server.isSubed m j =
      if m = .audio ∧ j = w.conn.id ∧
          (w.conn.isAuthedViewCameraConn → w.conn.voiceCalling ∨ !w.conn.flags.audioEnabled) then
        w.glob.server.contains m && w.conn.flags.audioEnabled
      else w.glob.server.isSubed m j := by
  unfold subscribeAudio
  by_cases hv : w.conn.isAuthedViewCameraConn
  · by_cases hc : w.conn.voiceCalling || !w.conn.flags.audioEnabled
    · rw [if_pos hv, if_pos hc, isSubed_subscribe]
      simp [hv, by simpa using hc]
    · rw [if_pos hv, if_neg hc]
      simp [hv, by simpa using hc]
  · rw [if_neg hv, isSubed_subscribe]
    simp [hv]

theorem isSubed_subscribeFileClipboard (h : Host) (w : World) (m : ServiceName) (j : Int) :
    (w.subscribeFileClipboard h).glob.server.isSubed m j =
      if m = .fileClipboard ∧ j = w.conn.id ∧ h.unixFileCopyPaste then
        w.glob.server.contains m && w.conn.flags.canSubFileClipboardService h
      else w.glob.server.isSubed m j := by
  unfold subscribeFileClipboard
  by_cases hf : h.unixFileCopyPaste
  · rw [if_pos hf, isSubed_subscribe]
    simp [hf]
  · rw [if_neg hf]
    simp [hf]

private theorem isSubed_ifSet_same {m : ServiceName} {j : Int} {f : Bool → World → World}
    (hf : ∀ b w, (f b w).glob.server.isSubed m j = w.glob.server.isSubed m j)
    (q : BoolOption) (w : World) :
    (ifSet q f w).glob.server.isSubed m j = w.glob.server.isSubed m j := by
  unfold ifSet
  cases q.choice with
  | none => rfl
  | some b => exact hf b w

section
variable (h : Host) (o : OptionMessage) (w : World)

private theorem isSubed_ifSet_setFlags {g : Bool → Flags → Flags} (q : BoolOption) (w : World)
    (m : ServiceName) (j : Int) :
    (ifSet q (fun b => setFlags (g b)) w).glob.server.isSubed m j =
      w.glob.server.isSubed m j := by
  unfold ifSet
  cases q.choice <;> rfl

private theorem isSubed_optionBlockInput (b : Bool) (w : World) (m : ServiceName) (j : Int) :
    (optionBlockInput b w).glob.server.isSubed m j = w.glob.server.isSubed m j := by
  unfold optionBlockInput
  split_ifs <;> rfl

private theorem isSubed_optionEnableFileTransfer (b : Bool) (w : World) (m : ServiceName)
    (j : Int) :
    (optionEnableFileTransfer h b w).glob.server.isSubed m j =
      if m = .fileClipboard ∧ j = w.conn.id ∧ h.unixFileCopyPaste then
        w.glob.server.contains m &&
          { w.conn.flags with enableFileTransfer := b }.canSubFileClipboardService h
      else w.glob.server.isSubed m j := by
  unfold optionEnableFileTransfer
  split
  · dsimp only
    rw [isSubed_subscribeFileClipboard]
    split_ifs <;> simp_all [setFlags, sendToCm]
  · rename_i hcopy
    rw [if_neg]
    rintro ⟨-, -, hfcp⟩
    exact hcopy (Or.inr hfcp)

private theorem isSubed_optionDisableKeyboard (b : Bool) (w : World) (m : ServiceName) (j : Int) :
    (optionDisableKeyboard h b w).glob.server.isSubed m j =
      let f := { w.conn.flags with disableKeyboard := b }
      if m = .clipboard ∧ j = w.conn.id then
        w.glob.server.contains m && f.canSubClipboardService h
      else if m = .fileClipboard ∧ j = w.conn.id ∧ h.unixFileCopyPaste then
        w.glob.server.contains m && f.canSubFileClipboardService h
      else if m = .cursor ∧ j = w.conn.id then w.glob.server.contains m && f.cursorEnabled
      else w.glob.server.isSubed m j := by
  have hid : ∀ w, (subscribeFileClipboard h w).conn = w.conn := by
    intro w
    unfold subscribeFileClipboard
    split_ifs <;> rfl
  have hcontains : ∀ w, (subscribeFileClipboard h w).glob.server.contains m =
      w.glob.server.contains m := by
    intro w
    unfold subscribeFileClipboard
    split_ifs
    · exact Server.contains_subscribe _ _ _ _ _
    · rfl
  unfold optionDisableKeyboard
  dsimp only
  rw [isSubed_subscribe, isSubed_subscribeFileClipboard, subscribeClipboard, isSubed_subscribe,
    hid, hcontains]
  by_cases hj : j = w.conn.id
  · cases m <;> simp [hj, subscribe, setFlags]
  · simp [hj, subscribe, setFlags]

/-- The options up to `disable_clipboard`. -/
private def beforeKeyboard (o : OptionMessage) : OptionMessage :=
  { o with
    disableKeyboard := .notSet, blockInput := .notSet, terminalPersistent := .notSet
    showMyCursor := .notSet }

/-- Nothing after `disable_keyboard` touches a subscription. -/
private theorem isSubed_updateOptions_keyboard (m : ServiceName) (j : Int) :
    (updateOptions h o w).glob.server.isSubed m j =
      (ifSet o.disableKeyboard (optionDisableKeyboard h)
        (updateOptions h (beforeKeyboard o) w)).glob.server.isSubed m j := by
  have hsplit : updateOptions h o w =
      (ifSet o.disableKeyboard (optionDisableKeyboard h) (updateOptions h (beforeKeyboard o) w)
        |> ifSet o.blockInput optionBlockInput
        |> ifSet o.terminalPersistent updateTerminalPersistence
        |> ifSet o.showMyCursor (fun b => setFlags fun f => { f with showMyCursor := b })) := rfl
  rw [hsplit, isSubed_ifSet_setFlags,
    isSubed_ifSet_same (f := updateTerminalPersistence) (fun _ _ => rfl),
    isSubed_ifSet_same (fun _ _ => isSubed_optionBlockInput _ _ _ _)]

/-! Each stage is passed by the services its option does not name. -/

private theorem isSubed_disableClipboard_other {m : ServiceName} (hm : m ≠ .clipboard)
    (q : BoolOption) (w : World) (j : Int) :
    (ifSet q (optionDisableClipboard h) w).glob.server.isSubed m j =
      w.glob.server.isSubed m j := by
  refine isSubed_ifSet_same (fun b w => ?_) q w
  rw [optionDisableClipboard, subscribeClipboard, isSubed_subscribe, if_neg (hm ·.1)]
  rfl

private theorem isSubed_enableFileTransfer_other {m : ServiceName} (hm : m ≠ .fileClipboard)
    (q : BoolOption) (w : World) (j : Int) :
    (ifSet q (optionEnableFileTransfer h) w).glob.server.isSubed m j =
      w.glob.server.isSubed m j := by
  refine isSubed_ifSet_same (fun b w => ?_) q w
  rw [isSubed_optionEnableFileTransfer, if_neg (hm ·.1)]

private theorem isSubed_disableAudio_other {m : ServiceName} (hm : m ≠ .audio)
    (q : BoolOption) (w : World) (j : Int) :
    (ifSet q optionDisableAudio w).glob.server.isSubed m j = w.glob.server.isSubed m j := by
  refine isSubed_ifSet_same (fun b w => ?_) q w
  rw [optionDisableAudio, isSubed_subscribeAudio, if_neg (hm ·.1)]
  rfl

private theorem isSubed_followRemoteWindow_other {m : ServiceName} (hm : m ≠ .windowFocus)
    (q : BoolOption) (w : World) (j : Int) :
    (ifSet q optionFollowRemoteWindow w).glob.server.isSubed m j =
      w.glob.server.isSubed m j := by
  refine isSubed_ifSet_same (fun b w => ?_) q w
  rw [optionFollowRemoteWindow, isSubed_subscribe, if_neg (hm ·.1)]
  rfl

private theorem isSubed_showRemoteCursor_other {m : ServiceName} (hc : m ≠ .cursor)
    (hp : m ≠ .pos) (q : BoolOption) (w : World) (j : Int) :
    (ifSet q optionShowRemoteCursor w).glob.server.isSubed m j = w.glob.server.isSubed m j := by
  refine isSubed_ifSet_same (fun b w => ?_) q w
  rw [optionShowRemoteCursor, isSubed_subscribe, if_neg (hp ·.1), isSubed_subscribe,
    if_neg (hc ·.1)]
  rfl

/-- The stages up to `disable_clipboard`, with those before a given one folded up again. -/
private theorem updateOptions_beforeKeyboard :
    updateOptions h (beforeKeyboard o) w =
      (w |> ifSet o.lockAfterSessionEnd
              (fun b => setFlags fun f => { f with lockAfterSessionEnd := b })
        |> ifSet o.showRemoteCursor optionShowRemoteCursor
        |> ifSet o.followRemoteCursor
              (fun b => setFlags fun f => { f with followRemoteCursor := b })
        |> ifSet o.followRemoteWindow optionFollowRemoteWindow
        |> ifSet o.disableAudio optionDisableAudio
        |> ifSet o.enableFileTransfer (optionEnableFileTransfer h)
        |> ifSet o.disableClipboard (optionDisableClipboard h)) := rfl

private theorem isSubed_cursor_beforeKeyboard :
    (updateOptions h (beforeKeyboard o) w).glob.server.isSubed .cursor w.conn.id =
      o.showRemoteCursor.choice.elim (w.glob.server.isSubed .cursor w.conn.id) fun b =>
        w.glob.server.contains .cursor && (w.conn.flags.peerKeyboardEnabled || b) := by
  rw [updateOptions_beforeKeyboard, isSubed_disableClipboard_other h (by simp),
    isSubed_enableFileTransfer_other h (by simp), isSubed_disableAudio_other (by simp),
    isSubed_followRemoteWindow_other (by simp), isSubed_ifSet_setFlags]
  unfold ifSet
  cases o.lockAfterSessionEnd.choice <;> cases o.showRemoteCursor.choice <;>
    simp [optionShowRemoteCursor, Server.isSubed_subscribe, setFlags, subscribe,
      Flags.cursorEnabled, Flags.peerKeyboardEnabled]

private theorem isSubed_pos_beforeKeyboard :
    (updateOptions h (beforeKeyboard o) w).glob.server.isSubed .pos w.conn.id =
      o.showRemoteCursor.choice.elim (w.glob.server.isSubed .pos w.conn.id) fun b =>
        w.glob.server.contains .pos && b := by
  rw [updateOptions_beforeKeyboard, isSubed_disableClipboard_other h (by simp),
    isSubed_enableFileTransfer_other h (by simp), isSubed_disableAudio_other (by simp),
    isSubed_followRemoteWindow_other (by simp), isSubed_ifSet_setFlags]
  unfold ifSet
  cases o.lockAfterSessionEnd.choice <;> cases o.showRemoteCursor.choice <;>
    simp [optionShowRemoteCursor, Server.isSubed_subscribe, setFlags, subscribe]

private theorem isSubed_windowFocus_beforeKeyboard :
    (updateOptions h (beforeKeyboard o) w).glob.server.isSubed .windowFocus w.conn.id =
      o.followRemoteWindow.choice.elim (w.glob.server.isSubed .windowFocus w.conn.id) fun b =>
        w.glob.server.contains .windowFocus && b := by
  let before : OptionMessage :=
    { lockAfterSessionEnd := o.lockAfterSessionEnd, showRemoteCursor := o.showRemoteCursor
      followRemoteCursor := o.followRemoteCursor }
  rw [updateOptions_beforeKeyboard, isSubed_disableClipboard_other h (by simp),
    isSubed_enableFileTransfer_other h (by simp), isSubed_disableAudio_other (by simp)]
  change (ifSet o.followRemoteWindow optionFollowRemoteWindow
    (updateOptions h before w)).glob.server.isSubed _ _ = _
  unfold ifSet
  cases o.followRemoteWindow.choice with
  | none =>
    change (ifSet o.followRemoteCursor _ _).glob.server.isSubed _ _ = _
    rw [isSubed_ifSet_setFlags, isSubed_showRemoteCursor_other (by simp) (by simp),
      isSubed_ifSet_setFlags]
    rfl
  | some b => simp [optionFollowRemoteWindow, isSubed_subscribe, setFlags]

private theorem isSubed_optionDisableAudio (b : Bool) (w : World) :
    (optionDisableAudio b w).glob.server.isSubed .audio w.conn.id =
      if w.conn.isAuthedViewCameraConn → w.conn.voiceCalling ∨ !(w.conn.flags.audio && !b) then
        w.glob.server.contains .audio && (w.conn.flags.audio && !b)
      else w.glob.server.isSubed .audio w.conn.id := by
  rw [optionDisableAudio, isSubed_subscribeAudio]
  simp [setFlags, Connection.isAuthedViewCameraConn, Flags.audioEnabled]

private theorem isSubed_audio_beforeKeyboard :
    (updateOptions h (beforeKeyboard o) w).glob.server.isSubed .audio w.conn.id =
      o.disableAudio.choice.elim (w.glob.server.isSubed .audio w.conn.id) fun b =>
        if w.conn.isAuthedViewCameraConn → w.conn.voiceCalling ∨ !(w.conn.flags.audio && !b) then
          w.glob.server.contains .audio && (w.conn.flags.audio && !b)
        else w.glob.server.isSubed .audio w.conn.id := by
  let before : OptionMessage :=
    { lockAfterSessionEnd := o.lockAfterSessionEnd, showRemoteCursor := o.showRemoteCursor
      followRemoteCursor := o.followRemoteCursor, followRemoteWindow := o.followRemoteWindow }
  have hpass : (updateOptions h before w).glob.server.isSubed .audio w.conn.id =
      w.glob.server.isSubed .audio w.conn.id := by
    change (ifSet o.followRemoteWindow optionFollowRemoteWindow _).glob.server.isSubed _ _ = _
    rw [isSubed_followRemoteWindow_other (by simp), isSubed_ifSet_setFlags,
      isSubed_showRemoteCursor_other (by simp) (by simp), isSubed_ifSet_setFlags]
  have hview : (updateOptions h before w).conn.isAuthedViewCameraConn =
      w.conn.isAuthedViewCameraConn :=
    congrArg (fun w => w.conn.isAuthedViewCameraConn) (loginView_updateOptions h before w)
  have hcall : (updateOptions h before w).conn.voiceCalling = w.conn.voiceCalling :=
    apply_updateOptions (fun w => w.conn.voiceCalling) (fun _ _ => rfl) (fun _ _ _ => rfl)
      (fun _ _ => rfl) (fun _ _ => rfl) (fun _ => rfl) (fun _ => rfl) (fun _ _ => rfl) h before w
  rw [updateOptions_beforeKeyboard, isSubed_disableClipboard_other h (by simp),
    isSubed_enableFileTransfer_other h (by simp)]
  change (ifSet o.disableAudio optionDisableAudio
    (updateOptions h before w)).glob.server.isSubed _ _ = _
  rw [apply_ifSet (fun w' => w'.glob.server.isSubed .audio w.conn.id), hpass]
  congr 1
  funext b
  have hid : w.conn.id = (updateOptions h before w).conn.id := (id_updateOptions h before w).symm
  rw [hid, isSubed_optionDisableAudio, ← hid, hpass, contains_updateOptions]
  simp only [hview, hcall, flags_updateOptions, Flags.audio_withOptions]

private theorem isSubed_clipboard_beforeKeyboard :
    (updateOptions h (beforeKeyboard o) w).glob.server.isSubed .clipboard w.conn.id =
      o.disableClipboard.choice.elim (w.glob.server.isSubed .clipboard w.conn.id) fun b =>
        w.glob.server.contains .clipboard &&
          { w.conn.flags with disableClipboard := b }.canSubClipboardService h := by
  let before := beforeKeyboard { o with disableClipboard := .notSet }
  change (ifSet o.disableClipboard (optionDisableClipboard h)
    (updateOptions h before w)).glob.server.isSubed _ _ = _
  unfold ifSet
  cases o.disableClipboard.choice with
  | none =>
    change (ifSet o.enableFileTransfer (optionEnableFileTransfer h) _).glob.server.isSubed _ _ = _
    rw [isSubed_enableFileTransfer_other h (by simp), isSubed_disableAudio_other (by simp),
      isSubed_followRemoteWindow_other (by simp), isSubed_ifSet_setFlags,
      isSubed_showRemoteCursor_other (by simp) (by simp), isSubed_ifSet_setFlags]
    rfl
  | some b =>
    simp [optionDisableClipboard, subscribeClipboard, isSubed_subscribe, setFlags,
      flags_updateOptions, Flags.canSubClipboardService, Flags.clipboardEnabled,
      Flags.peerKeyboardEnabled, before, beforeKeyboard, BoolOption.choice]

private theorem isSubed_fileClipboard_beforeKeyboard (hfcp : h.unixFileCopyPaste = true) :
    (updateOptions h (beforeKeyboard o) w).glob.server.isSubed .fileClipboard w.conn.id =
      o.enableFileTransfer.choice.elim (w.glob.server.isSubed .fileClipboard w.conn.id) fun b =>
        w.glob.server.contains .fileClipboard &&
          { w.conn.flags with enableFileTransfer := b }.canSubFileClipboardService h := by
  let before : OptionMessage :=
    { lockAfterSessionEnd := o.lockAfterSessionEnd, showRemoteCursor := o.showRemoteCursor
      followRemoteCursor := o.followRemoteCursor, followRemoteWindow := o.followRemoteWindow
      disableAudio := o.disableAudio }
  rw [updateOptions_beforeKeyboard, isSubed_disableClipboard_other h (by simp)]
  change (ifSet o.enableFileTransfer (optionEnableFileTransfer h)
    (updateOptions h before w)).glob.server.isSubed _ _ = _
  unfold ifSet
  cases o.enableFileTransfer.choice with
  | none =>
    change (ifSet o.disableAudio optionDisableAudio _).glob.server.isSubed _ _ = _
    rw [isSubed_disableAudio_other (by simp),
      isSubed_followRemoteWindow_other (by simp), isSubed_ifSet_setFlags,
      isSubed_showRemoteCursor_other (by simp) (by simp), isSubed_ifSet_setFlags]
    rfl
  | some b =>
    simp [isSubed_optionEnableFileTransfer, hfcp,
      flags_updateOptions, Flags.canSubFileClipboardService, Flags.clipboardEnabled,
      Flags.fileTransferEnabled, before, BoolOption.choice]

/-! The five services that follow the flags, after the whole message. -/

theorem isSubed_cursor_updateOptions :
    (updateOptions h o w).glob.server.isSubed .cursor w.conn.id =
      if o.showRemoteCursor.choice.isSome ∨ o.disableKeyboard.choice.isSome then
        w.glob.server.contains .cursor && (w.conn.flags.withOptions h o).cursorEnabled
      else w.glob.server.isSubed .cursor w.conn.id := by
  rw [isSubed_updateOptions_keyboard]
  unfold ifSet
  cases hk : o.disableKeyboard.choice with
  | none =>
    dsimp only
    rw [isSubed_cursor_beforeKeyboard]
    cases hs : o.showRemoteCursor.choice <;>
      simp [hk, hs, Flags.cursorEnabled, Flags.peerKeyboardEnabled]
  | some b =>
    dsimp only
    rw [isSubed_optionDisableKeyboard]
    simp [hk, flags_updateOptions, Flags.cursorEnabled, Flags.peerKeyboardEnabled, beforeKeyboard]

theorem isSubed_pos_updateOptions :
    (updateOptions h o w).glob.server.isSubed .pos w.conn.id =
      if o.showRemoteCursor.choice.isSome then
        w.glob.server.contains .pos && (w.conn.flags.withOptions h o).showRemoteCursor
      else w.glob.server.isSubed .pos w.conn.id := by
  rw [isSubed_updateOptions_keyboard, isSubed_ifSet_same fun b w => by
    rw [isSubed_optionDisableKeyboard]; simp, isSubed_pos_beforeKeyboard]
  cases hs : o.showRemoteCursor.choice <;> simp [hs]

theorem isSubed_windowFocus_updateOptions :
    (updateOptions h o w).glob.server.isSubed .windowFocus w.conn.id =
      if o.followRemoteWindow.choice.isSome then
        w.glob.server.contains .windowFocus && (w.conn.flags.withOptions h o).followRemoteWindow
      else w.glob.server.isSubed .windowFocus w.conn.id := by
  rw [isSubed_updateOptions_keyboard, isSubed_ifSet_same fun b w => by
    rw [isSubed_optionDisableKeyboard]; simp, isSubed_windowFocus_beforeKeyboard]
  cases hs : o.followRemoteWindow.choice <;> simp [hs]

theorem isSubed_audio_updateOptions :
    (updateOptions h o w).glob.server.isSubed .audio w.conn.id =
      if o.disableAudio.choice.isSome ∧ (w.conn.isAuthedViewCameraConn →
          w.conn.voiceCalling ∨ !(w.conn.flags.withOptions h o).audioEnabled) then
        w.glob.server.contains .audio && (w.conn.flags.withOptions h o).audioEnabled
      else w.glob.server.isSubed .audio w.conn.id := by
  rw [isSubed_updateOptions_keyboard, isSubed_ifSet_same fun b w => by
    rw [isSubed_optionDisableKeyboard]; simp, isSubed_audio_beforeKeyboard]
  cases hs : o.disableAudio.choice <;> simp [hs, Flags.audioEnabled]

theorem isSubed_clipboard_updateOptions :
    (updateOptions h o w).glob.server.isSubed .clipboard w.conn.id =
      if o.disableClipboard.choice.isSome ∨ o.disableKeyboard.choice.isSome then
        w.glob.server.contains .clipboard &&
          (w.conn.flags.withOptions h o).canSubClipboardService h
      else w.glob.server.isSubed .clipboard w.conn.id := by
  rw [isSubed_updateOptions_keyboard]
  unfold ifSet
  cases hk : o.disableKeyboard.choice with
  | none =>
    dsimp only
    rw [isSubed_clipboard_beforeKeyboard]
    cases hs : o.disableClipboard.choice <;>
      simp [hk, hs, Flags.canSubClipboardService, Flags.clipboardEnabled, Flags.peerKeyboardEnabled]
  | some b =>
    dsimp only
    rw [isSubed_optionDisableKeyboard]
    simp [hk, flags_updateOptions, Flags.canSubClipboardService,
      Flags.clipboardEnabled, Flags.peerKeyboardEnabled, beforeKeyboard]

/-- The file clipboard is the odd one: unless `disable_keyboard` is set too, it is refreshed
    by the old value of `disable_clipboard`. -/
theorem isSubed_fileClipboard_updateOptions (hfcp : h.unixFileCopyPaste = true) :
    (updateOptions h o w).glob.server.isSubed .fileClipboard w.conn.id =
      if o.disableKeyboard.choice.isSome then
        w.glob.server.contains .fileClipboard &&
          (w.conn.flags.withOptions h o).canSubFileClipboardService h
      else if o.enableFileTransfer.choice.isSome then
        w.glob.server.contains .fileClipboard &&
          { w.conn.flags.withOptions h o with
            disableClipboard := w.conn.flags.disableClipboard }.canSubFileClipboardService h
      else w.glob.server.isSubed .fileClipboard w.conn.id := by
  rw [isSubed_updateOptions_keyboard]
  unfold ifSet
  cases hk : o.disableKeyboard.choice with
  | none =>
    dsimp only
    rw [isSubed_fileClipboard_beforeKeyboard h o w hfcp]
    cases hs : o.enableFileTransfer.choice <;>
      simp [hs, Flags.canSubFileClipboardService, Flags.clipboardEnabled,
        Flags.fileTransferEnabled, Flags.enableFileTransfer_withOptions h o _ hfcp]
  | some b =>
    dsimp only
    rw [isSubed_optionDisableKeyboard]
    simp [hfcp, flags_updateOptions, Flags.canSubFileClipboardService,
      Flags.clipboardEnabled, Flags.fileTransferEnabled, beforeKeyboard,
      Flags.enableFileTransfer_withOptions h _ _ hfcp]

/-- Options do not reach the displays and cameras. -/
theorem isSubed_video_updateOptions (source : VideoSource) (idx : Nat) (j : Int) :
    (updateOptions h o w).glob.server.isSubed (.video source idx) j =
      w.glob.server.isSubed (.video source idx) j := by
  rw [isSubed_updateOptions_keyboard, isSubed_ifSet_same fun b w => by
    rw [isSubed_optionDisableKeyboard]; simp, updateOptions_beforeKeyboard,
    isSubed_disableClipboard_other h (by simp), isSubed_enableFileTransfer_other h (by simp),
    isSubed_disableAudio_other (by simp), isSubed_followRemoteWindow_other (by simp),
    isSubed_ifSet_setFlags, isSubed_showRemoteCursor_other (by simp) (by simp),
    isSubed_ifSet_setFlags]

end

end World

end LuodaRemote
