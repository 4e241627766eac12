/-
  The keyboard on the controlling machine: which presses and releases of its keys are passed on
  to the peer, while the keyboard is grabbed.

  What passes on is a press or a release that the shortcut for leaving the relative mouse mode does
  not keep back and that is no repeat of a modifier; it is written down in `MODIFIERS_STATE` and
  `TO_RELEASE` and handed to the keyboard mode. So the two say what the peer holds down, but for
  the keys of whose presses the mode made nothing (`Told`), as long as a release is kept back if
  and only if its press was.

  One flag stands for that, and it does not know of which key the press was kept back: the first of
  the shortcut's keys to come up has its release kept back for the other one. The flag is unset
  when it is needed where the mode is over before the keys come up, or begins while they are down;
  and a key held while the keyboard is grabbed again was let go before. Nor does the keyboard mode
  know of the press when it passes over a release. `Orderly` excludes these
  (`release_kept_back`): while the keyboard is grabbed and the flag stands for a key, that key is
  the only one that is down and not in `TO_RELEASE`.

  What `rdev` is told about modifiers for the layout is left out.

  Source: `start_grab_loop`, `should_block_relative_mouse_shortcut` and what it calls,
  `client::change_grab_status`, `client::process_event`, `is_long_press`, `release_remote_keys`,
  `update_modifiers_state`, `event_to_key_events`, `send_key_event` and
  `set_relative_mouse_mode_state` of `src/keyboard.rs`.
-/
import LuodaRemote.Client.KeyModes
import LuodaRemote.Lib.Run

namespace LuodaRemote

open Lib

namespace Grab

/-- The keys of `MODIFIERS_STATE`. -/
def Key.isModifier : Key → Bool
  | shiftLeft | shiftRight | controlLeft | controlRight | alt | altGr | metaLeft | metaRight => true
  | _ => false

def Key.isUnknown : Key → Bool
  | unknown _ => true
  | _ => false

inductive GrabState where
  | ready
  | run
  | wait
  | exit
  deriving DecidableEq

structure GrabHost where
  os : TargetOs
  codes : RdevCodes := {}
  isRdevEnabled : Bool := true

/-- The session in front, as far as the handler asks it. -/
structure CurSession where
  isDefault : Bool
  serverKeyboardEnabled : Bool
  viewOnly : Bool
  version : Int
  keyboardMode : String
  peerPlatform : String

/-- The order in which a map is iterated. -/
structure MapOrder where
  of : List Event → List Event
  perm : ∀ events, (of events).Perm events

/-! ## The handler -/

/-- The statics of `keyboard.rs`, the session in front, and what was sent. -/
structure Keyboard where
  keyboardHooked : Bool := false
  exitShortcutKeyDown : Bool := false
  relativeMouseModeActive : Bool := false
  modeStatics : ModeStatics := {}
  cur : Option CurSession := none
  /-- `TO_RELEASE`: the last press of each key in it. -/
  toRelease : List Event := []
  /-- `MODIFIERS_STATE`, of which only the entries of modifiers are looked at. -/
  modifiersState : Key → Bool := fun _ => false
  /-- What the peer was sent, in order, and of which key: `ctrl_alt_del` and `lock_screen` send of
      none. -/
  sent : List (Option Key × KeyEvent) := []
  /-- How often Flutter was told to leave the relative mouse mode. -/
  exitNotified : Nat := 0
  /-- Not in the source: the keys of whose presses, since they came down, the peer was sent
      nothing. -/
  muted : Key → Bool := fun _ => false

namespace Keyboard

def getKeyboardMode (s : Keyboard) : String := s.cur.elim "legacy" (·.keyboardMode)

def getPeerPlatform (s : Keyboard) : String := s.cur.elim "Windows" (·.peerPlatform)

/-- `TO_RELEASE` has the key. -/
def holds (s : Keyboard) (key : Key) : Bool := s.toRelease.any (·.key = key)

def isLongPress (e : Event) (s : Keyboard) : Bool :=
  e.isPress && (e.key.isModifier && s.modifiersState e.key)

def updateModifiersState (e : Event) (s : Keyboard) : Keyboard :=
  if e.key.isModifier then
    { s with modifiersState := Function.update s.modifiersState e.key e.isPress }
  else s

/-- `send_key_event` of each event: with no session in front nothing is sent. -/
def sendKeyEvents (key : Option Key) (events : List KeyEvent) (s : Keyboard) : Keyboard :=
  if s.cur.isSome then { s with sent := s.sent ++ events.map (key, ·) } else s

section

variable (h : GrabHost) (keyboardMode : String) (w : Surroundings)

/-- Nothing is sent of the event. -/
def passesOver (e : Event) (s : Keyboard) : Bool :=
  s.cur.isNone || drops h.os h.codes (getKeyboardModeEnum keyboardMode) s.getPeerPlatform w
    s.modeStatics e

/-- A release is typed. -/
def retypes (e : Event) (s : Keyboard) : Bool :=
  typesRelease h.os h.codes (getKeyboardModeEnum keyboardMode) s.getPeerPlatform w s.modeStatics e

def eventToKeyEvents (e : Event) (s : Keyboard) : Keyboard × List KeyEvent :=
  let muted := s.passesOver h keyboardMode w e && (s.muted e.key || !s.holds e.key)
  let s := s.updateModifiersState e
  let others := s.toRelease.filter (·.key ≠ e.key)
  let made := keyEvents h.os h.codes (getKeyboardModeEnum keyboardMode) s.getPeerPlatform w
    s.modeStatics e
  let s := { s with
    toRelease := if e.isPress then e :: others else others
    modeStatics := made.statics
    muted := if e.isPress then Function.update s.muted e.key muted else s.muted }
  (s.sendKeyEvents none made.apart, made.event.toList)

def processEvent (e : Event) (s : Keyboard) : Keyboard :=
  if s.isLongPress e then s
  else
    let (s, events) := s.eventToKeyEvents h keyboardMode w e
    s.sendKeyEvents (some e.key) events

end

section

variable (h : GrabHost)

/-- One round of `release_remote_keys`. -/
def releaseRemoteKey (keyboardMode : String) (w : Event → Surroundings) (s : Keyboard)
    (e : Event) : Keyboard :=
  let press := { e with isPress := true }
  let release := { e with isPress := false }
  let s := s.processEvent h keyboardMode (w release) release
  if e.key = .alt ∨ e.key = .altGr then
    (s.processEvent h keyboardMode (w press) press).processEvent h keyboardMode (w release) release
  else s

def releaseRemoteKeys (keyboardMode : String) (w : Event → Surroundings) (order : MapOrder)
    (s : Keyboard) : Keyboard :=
  (order.of s.toRelease).foldl (releaseRemoteKey h keyboardMode w) { s with toRelease := [] }

def setRelativeMouseModeState (active : Bool) (s : Keyboard) : Keyboard :=
  { s with
    relativeMouseModeActive := active
    exitShortcutKeyDown := if active then s.exitShortcutKeyDown else false }

def changeGrabStatus (state : GrabState) (keyboardMode : String) (w : Event → Surroundings)
    (order : MapOrder) (s : Keyboard) : Keyboard :=
  if h.isRdevEnabled then
    match state with
    | .ready => s
    | .run => { s with keyboardHooked := true }
    | .wait => { s.releaseRemoteKeys h keyboardMode w order with keyboardHooked := false }
    | .exit => s
  else s

def isExitRelativeMouseShortcut (key : Key) (s : Keyboard) : Bool :=
  let held (l r : Key) := s.modifiersState l || s.modifiersState r
  if h.os = .macos then key = .keyG && held .metaLeft .metaRight
  else
    let isCtrlKey := key = .controlLeft || key = .controlRight
    let isAltKey := key = .alt || key = .altGr
    isCtrlKey && held .alt .altGr || isAltKey && held .controlLeft .controlRight

def canExitRelativeMouseModeFromGrabLoop (s : Keyboard) : Bool :=
  s.relativeMouseModeActive &&
    match s.cur with
    | none => false
    | some session =>
      session.isDefault && session.serverKeyboardEnabled && !session.viewOnly &&
        decide (getVersionNumber "1.4.5" ≤ session.version)

def isTrackedKey (key : Key) : Bool :=
  if h.os = .macos then key = .keyG
  else key = .controlLeft || key = .controlRight || key = .alt || key = .altGr

/-- The second component says whether the event is kept back. -/
def shouldBlockRelativeMouseShortcut (e : Event) (s : Keyboard) : Keyboard × Bool :=
  if !s.keyboardHooked then (s, false)
  else if isTrackedKey h e.key && !e.isPress && s.exitShortcutKeyDown then
    ({ s with exitShortcutKeyDown := false }, true)
  else if s.isExitRelativeMouseShortcut h e.key then
    if !s.canExitRelativeMouseModeFromGrabLoop then (s, false)
    else if e.isPress then
      ({ s with
        exitShortcutKeyDown := true
        exitNotified := if s.exitShortcutKeyDown then s.exitNotified else s.exitNotified + 1 },
        true)
    else (s, true)
  else (s, false)

/-- The keys that translate mode asks after, on Windows and macOS. -/
def noteModeKey (e : Event) (s : Keyboard) : Keyboard :=
  let t := s.modeStatics
  { s with
    modeStatics :=
      { t with
        is0x021dDown :=
          if h.os = .windows ∧ e.positionCode = 0x021d then e.isPress else t.is0x021dDown
        isLeftOptionDown :=
          if h.os = .macos ∧ e.platformCode = h.codes.kVKOption then e.isPress
          else t.isLeftOptionDown } }

/-- The handler of the grab loop. The second component says whether the event is left to the
    machine itself. -/
def tryHandleKeyboard (w : Surroundings) (e : Event) (s : Keyboard) : Keyboard × Bool :=
  if h.os = .linux then
    if e.key.isUnknown then (s, false)
    else
      let (s, blocked) := s.shouldBlockRelativeMouseShortcut h e
      if blocked then (s, false) else (s.processEvent h s.getKeyboardMode w e, false)
  else if e.key = .capsLock || e.key = .numLock then (s, true)
  else
    let (s, blocked) := s.shouldBlockRelativeMouseShortcut h e
    if blocked then (s, false)
    else
      let (s, left) :=
        if s.keyboardHooked then (s.processEvent h s.getKeyboardMode w e, !e.isPress)
        else (s, true)
      (s.noteModeKey h e, left)

end

end Keyboard

/-! ## The machine -/

/-- The keyboard, and the keys that are down on it. -/
structure Machine where
  keyboard : Keyboard := {}
  physical : Key → Bool := fun _ => false

inductive GrabStep where
  | key (e : Event) (w : Surroundings)
  | curSession (cur : Option CurSession)
  | setRelativeMouseModeState (active : Bool)
  | changeGrabStatus (state : GrabState) (keyboardMode : String) (w : Event → Surroundings)
      (order : MapOrder)

/-- On Linux `rdev` delivers events while it is told to grab, elsewhere always. -/
def delivers (h : GrabHost) (s : Keyboard) : Bool := s.keyboardHooked || h.os ≠ .linux

def Machine.step (h : GrabHost) (m : Machine) : GrabStep → Machine
  | .key e w =>
    { keyboard := if delivers h m.keyboard then (m.keyboard.tryHandleKeyboard h w e).1
        else m.keyboard
      physical := Function.update m.physical e.key e.isPress }
  | .curSession cur => { m with keyboard := { m.keyboard with cur } }
  | .setRelativeMouseModeState active =>
    { m with keyboard := m.keyboard.setRelativeMouseModeState active }
  | .changeGrabStatus state keyboardMode w order =>
    { m with keyboard := m.keyboard.changeGrabStatus h state keyboardMode w order }

/-! ## What the peer is sent -/

/-- What was sent of one key: whether it was down. -/
def moves (key : Key) (sent : List (Option Key × KeyEvent)) : List Bool :=
  (sent.filter (·.1 = some key)).map (·.2.down)

/-- The peer holds the key down. -/
def pressed (key : Key) (sent : List (Option Key × KeyEvent)) : Bool :=
  (moves key sent).getLastD false

/-- A release follows a press, and the press of a modifier a release. -/
def Follows (key : Key) (before after : Bool) : Prop :=
  if after then before = false ∨ key.isModifier = false else before = true

/-- What was sent of the key are presses and releases by turns, but for the repeats of a key that
    is no modifier. -/
def Alternates (key : Key) (sent : List (Option Key × KeyEvent)) : Prop :=
  (false :: moves key sent).IsChain (Follows key)

/-- Keys the handler does not look at. -/
def ignores (h : GrabHost) (key : Key) : Bool :=
  if h.os = .linux then key.isUnknown else key = .capsLock || key = .numLock

namespace Keyboard

variable {h : GrabHost} {keyboardMode : String} {w : Surroundings} {e : Event} {key : Key}
  {s : Keyboard}

/-- Nothing is sent of a release if and only if nothing was sent of the presses before it, and it is
    not typed. -/
def LetsGo (h : GrabHost) (keyboardMode : String) (w : Surroundings) (e : Event)
    (s : Keyboard) : Prop :=
  s.passesOver h keyboardMode w e = s.muted e.key ∧
    (s.muted e.key = false → s.retypes h keyboardMode w e = false)

/-! ## One event -/

theorem moves_append (key : Key) (sent more : List (Option Key × KeyEvent)) :
    moves key (sent ++ more) = moves key sent ++ moves key more := by
  unfold moves
  rw [List.filter_append, List.map_append]

theorem moves_apart (key : Key) (apart : List KeyEvent) :
    moves key (apart.map (none, ·)) = [] := by
  simp [moves, List.filter_map, Function.comp_def]

/-- What the handling of an event changes, and what is sent of it. -/
theorem processEvent_eq (h : GrabHost) (keyboardMode : String) (w : Surroundings)
    (hshort : s.isLongPress e = false) :
    ∃ t sent, s.processEvent h keyboardMode w e =
      { s with
        modifiersState := (s.updateModifiersState e).modifiersState
        modeStatics := t
        toRelease := if e.isPress then e :: s.toRelease.filter (·.key ≠ e.key)
          else s.toRelease.filter (·.key ≠ e.key)
        sent
        muted := if e.isPress then Function.update s.muted e.key
            (s.passesOver h keyboardMode w e && (s.muted e.key || !s.holds e.key))
          else s.muted } ∧
      ((s.passesOver h keyboardMode w e = false → s.retypes h keyboardMode w e = false) →
        ∀ key, moves key sent =
          if e.key = key ∧ s.passesOver h keyboardMode w e = false then
            moves key s.sent ++ [e.isPress]
          else moves key s.sent) := by
  have hst : s.updateModifiersState e =
      { s with modifiersState := (s.updateModifiersState e).modifiersState } := by
    unfold updateModifiersState
    split
    · rfl
    · rfl
  have hpeer : getPeerPlatform
      { s with modifiersState := (s.updateModifiersState e).modifiersState } =
        s.getPeerPlatform := rfl
  unfold processEvent eventToKeyEvents sendKeyEvents
  rw [if_neg (by rw [hshort]; exact Bool.false_ne_true), hst]
  dsimp only
  by_cases hcur : s.cur.isSome = true
  · rw [if_pos hcur, if_pos hcur]
    refine ⟨_, _, rfl, fun hup key => ?_⟩
    have hpass : s.passesOver h keyboardMode w e = drops h.os h.codes
        (getKeyboardModeEnum keyboardMode) s.getPeerPlatform w s.modeStatics e := by
      unfold passesOver
      rw [Option.isNone_eq_false_iff.mpr hcur, Bool.false_or]
    have htypes : s.retypes h keyboardMode w e = false := by
      cases hdrops : s.passesOver h keyboardMode w e with
      | false => exact hup hdrops
      | true =>
        unfold retypes typesRelease
        rw [← hpass, hdrops]
        exact Bool.and_false _
    rw [moves_append, moves_append, moves_apart, List.append_nil, hpass]
    obtain ⟨hnone, hdrops⟩ | ⟨ke, hsome, hdown, hdrops⟩ := keyEvents_becomes htypes
    · rw [hpeer, hnone, hdrops, if_neg (fun hno => Bool.noConfusion hno.2)]
      exact List.append_nil _
    · rw [hpeer, hsome, hdrops]
      by_cases hkey : e.key = key
      · rw [if_pos ⟨hkey, rfl⟩, ← hdown]
        simp [moves, hkey]
      · rw [if_neg (fun hno => hkey hno.1)]
        simp [moves, hkey]
  · rw [if_neg hcur, if_neg hcur]
    refine ⟨_, _, rfl, fun _ key => ?_⟩
    have hpass : s.passesOver h keyboardMode w e = true := by
      unfold passesOver
      rw [Option.isNone_iff_eq_none.mpr (Option.not_isSome_iff_eq_none.mp hcur), Bool.true_or]
    rw [hpass, if_neg (fun hno => Bool.noConfusion hno.2)]

/-- What the two maps and the peer agree on: the keys of which `held` says so are down, and the peer
    was sent of their presses where the mode did not pass over them. -/
structure Told (held : Key → Prop) (s : Keyboard) : Prop where
  modifiers : ∀ key, key.isModifier = true → (s.modifiersState key = true ↔ held key)
  pressed : ∀ key, pressed key s.sent = true ↔ held key ∧ s.muted key = false
  alternates : ∀ key, Alternates key s.sent

theorem alternates_concat {sent sent' : List (Option Key × KeyEvent)} {b : Bool}
    (hmoves : moves key sent' = moves key sent ++ [b]) (halt : Alternates key sent)
    (hfollows : Follows key (pressed key sent) b) :
    Alternates key sent' ∧ pressed key sent' = b := by
  unfold Alternates Grab.pressed at *
  rw [hmoves, ← List.cons_append, List.isChain_append]
  simp_all [List.getLast?_cons]

theorem Told.congr {held held' : Key → Prop} (hs : Told held s)
    (hheld : ∀ key, held key ↔ held' key) : Told held' s :=
  ⟨fun key hmod => (hs.modifiers key hmod).trans (hheld key),
    fun key => by rw [hs.pressed key, hheld key], hs.alternates⟩

theorem modifiersState_update (hmod : key.isModifier = true) (e : Event) (s : Keyboard) :
    (s.updateModifiersState e).modifiersState key =
      if e.key = key then e.isPress else s.modifiersState key := by
  unfold updateModifiersState
  by_cases heq : e.key = key
  · rw [if_pos (heq ▸ hmod), if_pos heq, ← heq]
    exact Function.update_self ..
  · rw [if_neg heq]
    split
    · exact Function.update_of_ne (Ne.symm heq) ..
    · rfl

theorem Told.processEvent {held : Key → Prop} (hs : Told held s)
    (hin : e.isPress = true → (held e.key ↔ s.holds e.key = true))
    (hup : e.isPress = false → held e.key ∧ s.LetsGo h keyboardMode w e) :
    Told (fun key => if e.key = key then e.isPress = true else held key)
      (s.processEvent h keyboardMode w e) := by
  by_cases hshort : s.isLongPress e = true
  · unfold Keyboard.processEvent
    rw [if_pos hshort]
    unfold isLongPress at hshort
    obtain ⟨hpress, hshort⟩ := Bool.and_eq_true_iff.mp hshort
    obtain ⟨hmod, hdown⟩ := Bool.and_eq_true_iff.mp hshort
    refine hs.congr fun key => ?_
    split
    · rename_i heq
      exact iff_of_true (heq ▸ (hs.modifiers e.key hmod).mp hdown) hpress
    · exact Iff.rfl
  · have hsend : s.passesOver h keyboardMode w e = false →
        s.retypes h keyboardMode w e = false := by
      intro hpass
      cases hpress : e.isPress with
      | true => simp [retypes, typesRelease, hpress]
      | false => exact (hup hpress).2.2 ((hup hpress).2.1.symm.trans hpass)
    obtain ⟨t, sent, heq, hmoves⟩ := processEvent_eq h keyboardMode w
      (Bool.eq_false_iff.mpr hshort)
    have hmoves := hmoves hsend
    rw [heq]
    have hkey : ∀ key, Alternates key sent ∧ (Grab.pressed key sent =
        if e.key = key ∧ s.passesOver h keyboardMode w e = false then e.isPress
        else Grab.pressed key s.sent) := by
      intro key
      have hmoves := hmoves key
      split
      · rename_i hsent
        obtain ⟨rfl, hpass⟩ := hsent
        rw [if_pos ⟨rfl, hpass⟩] at hmoves
        refine alternates_concat hmoves (hs.alternates _) ?_
        unfold Follows
        cases hpress : e.isPress with
        | true =>
          unfold isLongPress at hshort
          rw [hpress, Bool.true_and] at hshort
          cases hmod : e.key.isModifier with
          | true =>
            rw [hmod, Bool.true_and, hs.modifiers _ hmod] at hshort
            exact Or.inl (Bool.eq_false_iff.mpr fun hdown => hshort ((hs.pressed _).mp hdown).1)
          | false => exact Or.inr rfl
        | false =>
          obtain ⟨hheld, hmuted, _⟩ := hup hpress
          exact (hs.pressed _).mpr ⟨hheld, hmuted.symm.trans hpass⟩
      · rename_i hno
        rw [if_neg hno] at hmoves
        unfold Alternates Grab.pressed
        rw [hmoves]
        exact ⟨hs.alternates key, rfl⟩
    refine ⟨fun key hmod => ?_, fun key => ?_, fun key => (hkey key).1⟩
    · dsimp only
      rw [modifiersState_update hmod]
      split
      · exact Iff.rfl
      · exact hs.modifiers key hmod
    · rw [(hkey key).2]
      dsimp only
      by_cases heq : e.key = key
      · subst heq
        have hpressed := hs.pressed e.key
        rw [if_pos rfl]
        cases hpress : e.isPress with
        | true =>
          have hin := hin hpress
          rw [if_pos rfl, Function.update_self]
          grind
        | false =>
          have hmuted := (hup hpress).2.1
          rw [hmuted]
          grind
      · rw [if_neg (fun hno => heq hno.1), if_neg heq, hs.pressed key]
        split
        · rw [Function.update_of_ne (Ne.symm heq)]
        · rfl

/-- `TO_RELEASE` after an event. -/
theorem toRelease_processEvent (hshort : s.isLongPress e = false) :
    (s.processEvent h keyboardMode w e).toRelease =
      if e.isPress then e :: s.toRelease.filter (·.key ≠ e.key)
      else s.toRelease.filter (·.key ≠ e.key) := by
  obtain ⟨t, sent, heq, _⟩ := processEvent_eq h keyboardMode w hshort
  rw [heq]

theorem isLongPress_release (hup : e.isPress = false) : s.isLongPress e = false := by
  unfold isLongPress
  rw [hup, Bool.false_and]

/-- A key that is let go is passed over if and only if its presses were, and so is `Alt` when it is
    struck once more. -/
def HandsOver (h : GrabHost) (keyboardMode : String) (w : Event → Surroundings) (s : Keyboard)
    (e : Event) : Prop :=
  let press := { e with isPress := true }
  let release := { e with isPress := false }
  s.LetsGo h keyboardMode (w release) release ∧ (e.key = .alt ∨ e.key = .altGr →
    ((s.processEvent h keyboardMode (w release) release).processEvent h keyboardMode (w press)
      press).LetsGo h keyboardMode (w release) release)

theorem Told.release {held : Key → Prop} (hs : Told (fun key => e.key = key ∨ held key) s)
    (hno : ¬ held e.key) (hup : e.isPress = false) (hgo : s.LetsGo h keyboardMode w e) :
    Told held (s.processEvent h keyboardMode w e) := by
  refine (hs.processEvent (fun hpress => ?_) fun _ => ⟨Or.inl rfl, hgo⟩).congr fun key => ?_
  · rw [hup] at hpress
    cases hpress
  · rw [hup]
    grind

instance (w : Event → Surroundings) : Decidable (HandsOver h keyboardMode w s e) := by
  delta HandsOver LetsGo
  infer_instance

/-- A key is let go and, for `Alt`, struck once more. -/
theorem Told.releaseRemoteKey {w : Event → Surroundings} {held : Key → Prop}
    (hs : Told (fun key => e.key = key ∨ held key) s) (hno : ¬ held e.key)
    (hnone : s.toRelease = []) (hgo : HandsOver h keyboardMode w s e) :
    Told held (s.releaseRemoteKey h keyboardMode w e) ∧
      (s.releaseRemoteKey h keyboardMode w e).toRelease = [] := by
  obtain ⟨hone, hagain⟩ := hgo
  have hup := Told.release (e := { e with isPress := false }) hs hno rfl hone
  have hempty : (s.processEvent h keyboardMode (w { e with isPress := false })
      { e with isPress := false }).toRelease = [] := by
    rw [toRelease_processEvent (isLongPress_release rfl), hnone]
    rfl
  unfold Keyboard.releaseRemoteKey
  dsimp only
  split
  · rename_i halt
    have hmod : e.key.isModifier = true := by
      rcases halt with halt | halt
      · rw [halt]
        rfl
      · rw [halt]
        rfl
    have hshort : (s.processEvent h keyboardMode (w { e with isPress := false })
        { e with isPress := false }).isLongPress { e with isPress := true } = false := by
      unfold isLongPress
      dsimp only
      rw [hmod, Bool.true_and, Bool.true_and, ← Bool.not_eq_true, hup.modifiers _ hmod]
      exact hno
    have hdown : Told (fun key => e.key = key ∨ held key)
        ((s.processEvent h keyboardMode (w { e with isPress := false })
          { e with isPress := false }).processEvent h keyboardMode (w { e with isPress := true })
            { e with isPress := true }) := by
      refine (Told.processEvent (e := { e with isPress := true }) hup
        (fun _ => iff_of_false hno ?_) fun hno => ?_).congr fun key => ?_
      · simp [holds, hempty]
      · cases hno
      · grind
    refine ⟨Told.release (e := { e with isPress := false }) hdown hno rfl (hagain halt), ?_⟩
    rw [toRelease_processEvent (isLongPress_release rfl), toRelease_processEvent hshort, hempty]
    simp
  · exact ⟨hup, hempty⟩

theorem Told.releaseRemoteKeys {w : Event → Surroundings} {events : List Event}
    (hs : Told (fun key => key ∈ events.map (·.key)) s) (hnodup : (events.map (·.key)).Nodup)
    (hnone : s.toRelease = [])
    (hgo : Along (Keyboard.releaseRemoteKey h keyboardMode w) (HandsOver h keyboardMode w) s
      events) :
    Told (fun _ => False) (events.foldl (Keyboard.releaseRemoteKey h keyboardMode w) s) ∧
      (events.foldl (Keyboard.releaseRemoteKey h keyboardMode w) s).toRelease = [] := by
  induction events generalizing s with
  | nil => exact ⟨hs.congr fun key => by simp, hnone⟩
  | cons e events ih =>
    rw [List.map_cons] at hs hnodup
    obtain ⟨hno, hnodup⟩ := List.nodup_cons.mp hnodup
    have hsplit : Told (fun key => e.key = key ∨ key ∈ events.map (·.key)) s :=
      hs.congr fun key => by rw [List.mem_cons, eq_comm]
    obtain ⟨hone, hempty⟩ := hsplit.releaseRemoteKey hno hnone hgo.1
    exact ih hone hnodup hempty hgo.2

/-! ## The shortcut -/

/-- The two halves of the shortcut; on macOS the second one does not complete it. -/
def chord (h : GrabHost) : List Key × List Key :=
  if h.os = .macos then ([.keyG], [.metaLeft, .metaRight])
  else ([.controlLeft, .controlRight], [.alt, .altGr])

/-- The peer holds, or would hold, both halves. -/
def holdsChord (h : GrabHost) (s : Keyboard) : Bool :=
  (chord h).1.any s.holds && (chord h).2.any s.holds

end Keyboard

/-! ## Runs -/

namespace Machine

variable {h : GrabHost} {m : Machine} {e : Event} {w : Surroundings} {a : GrabStep}

/-- The mode may be left only while the peer does not hold the shortcut. -/
def Free (h : GrabHost) (s : Keyboard) : Prop :=
  s.canExitRelativeMouseModeFromGrabLoop = true → s.holdsChord h = false

/-- The flag stands for the one key that is down and not in `TO_RELEASE`. -/
structure Keeps (h : GrabHost) (m : Machine) (kept : Option Key) : Prop where
  flag : m.keyboard.exitShortcutKeyDown = kept.isSome
  down : ∀ key, ignores h key = false →
    (m.physical key = true ↔ m.keyboard.holds key = true ∨ kept = some key)
  apart : ∀ key, kept = some key → m.keyboard.holds key = false ∧ Keyboard.isTrackedKey h key = true

structure Good (h : GrabHost) (m : Machine) : Prop where
  told : m.keyboard.Told (fun key => m.keyboard.holds key = true)
  nodup : (m.keyboard.toRelease.map (·.key)).Nodup
  unhooked : m.keyboard.keyboardHooked = false → m.keyboard.toRelease = []
  ignored : ∀ key, m.keyboard.holds key = true → ignores h key = false
  kept : m.keyboard.keyboardHooked = true → ∃ kept, Keeps h m kept
  free : m.keyboard.keyboardHooked = true → Free h m.keyboard

/-- A press or a release while the keyboard is grabbed.

    A press that the shortcut keeps back: the flag is unset, or the key is down already. Another
    press: it is no repeat of the one that was kept back, and on macOS, where the mode can be left,
    no command key while the peer holds `G`. A release: the key is down; while the flag is set, no
    other key of the shortcut comes up than the one kept back; and the keyboard mode treats it as it
    treated the presses. -/
def KeyOrderly (h : GrabHost) (m : Machine) (e : Event) (w : Surroundings) : Prop :=
  if e.isPress then
    if m.keyboard.isExitRelativeMouseShortcut h e.key &&
        m.keyboard.canExitRelativeMouseModeFromGrabLoop then
      m.keyboard.exitShortcutKeyDown = false ∨ m.physical e.key = true
    else
      (m.keyboard.exitShortcutKeyDown = true → m.physical e.key = true →
        m.keyboard.holds e.key = true) ∧
      (m.keyboard.canExitRelativeMouseModeFromGrabLoop = true → h.os = .macos →
        e.key ∈ (Keyboard.chord h).2 → m.keyboard.holds .keyG = false)
  else
    m.physical e.key = true ∧
    (m.keyboard.exitShortcutKeyDown = true → Keyboard.isTrackedKey h e.key = true →
      m.keyboard.holds e.key = false) ∧
    (m.keyboard.holds e.key = true → m.keyboard.LetsGo h m.keyboard.getKeyboardMode w e)

instance (h : GrabHost) (m : Machine) (e : Event) (w : Surroundings) :
    Decidable (KeyOrderly h m e w) := by
  delta KeyOrderly Keyboard.LetsGo
  infer_instance

/-- The conditions on one step. The relative mouse mode is not switched off while the flag is set,
    and it can be left from a moment on only if the peer does not hold the shortcut then. The
    keyboard is grabbed while no key is down and the flag is unset, and given up with keys that the
    keyboard mode treats as it treated their presses. -/
def Orderly (h : GrabHost) (m : Machine) : GrabStep → Prop
  | .key e w => m.keyboard.keyboardHooked = true → ignores h e.key = false → KeyOrderly h m e w
  | .curSession cur => m.keyboard.keyboardHooked = true → Free h { m.keyboard with cur }
  | .setRelativeMouseModeState active => m.keyboard.keyboardHooked = true →
      (active = false → m.keyboard.exitShortcutKeyDown = false) ∧
      Free h (m.keyboard.setRelativeMouseModeState active)
  | .changeGrabStatus .run _ _ _ => h.isRdevEnabled = true → m.keyboard.keyboardHooked = false →
      m.keyboard.exitShortcutKeyDown = false ∧ ∀ key, ignores h key = false →
        m.physical key = false
  | .changeGrabStatus .wait keyboardMode w order => h.isRdevEnabled = true →
      Along (Keyboard.releaseRemoteKey h keyboardMode w) (Keyboard.HandsOver h keyboardMode w)
        { m.keyboard with toRelease := [] } (order.of m.keyboard.toRelease)
  | .changeGrabStatus _ _ _ _ => True

/-- Beside what the peer was sent, the flag has to stand for a key, and the rest does not matter. -/
theorem Good.frame {m' : Machine} {flag : Bool} {n : Nat} {t : ModeStatics} (hm : Good h m)
    (hkey : m'.keyboard =
      { m.keyboard with exitShortcutKeyDown := flag, exitNotified := n, modeStatics := t })
    (hkept : m.keyboard.keyboardHooked = true → ∃ kept, Keeps h m' kept) : Good h m' := by
  obtain ⟨keyboard, physical⟩ := m'
  subst hkey
  exact ⟨{ hm.told with }, hm.nodup, hm.unhooked, hm.ignored, hkept, hm.free⟩

theorem Good.hooked (hm : Good h m) {key : Key} (hheld : m.keyboard.holds key = true) :
    m.keyboard.keyboardHooked = true := by
  by_contra hno
  rw [Keyboard.holds, hm.unhooked (Bool.eq_false_iff.mpr hno)] at hheld
  cases hheld

/-- What was sent of every key are presses and releases by turns, and when all keys are up, no
    modifier is down and nothing is left to release. -/
structure Even (m : Machine) : Prop where
  alternates : ∀ key, Alternates key m.keyboard.sent
  allUp : (∀ key, m.physical key = false) →
    (∀ key, key.isModifier = true → m.keyboard.modifiersState key = false) ∧
      m.keyboard.toRelease = []

theorem Good.even (hm : Good h m) : Even m := by
  refine ⟨hm.told.alternates, fun hup => ?_⟩
  have hnone : ∀ key, m.keyboard.holds key = false := by
    intro key
    by_contra hno
    have hheld := Bool.eq_true_of_not_eq_false hno
    obtain ⟨kept, hkept⟩ := hm.kept (hm.hooked hheld)
    have hdown := (hkept.down key (hm.ignored key hheld)).mpr (Or.inl hheld)
    rw [hup key] at hdown
    cases hdown
  refine ⟨fun key hmod => ?_, ?_⟩
  · rw [← Bool.not_eq_true, hm.told.modifiers key hmod, hnone key]
    exact Bool.false_ne_true
  · refine List.eq_nil_iff_forall_not_mem.mpr fun e he => ?_
    have hheld : m.keyboard.holds e.key = true := List.any_eq_true.mpr ⟨e, he, by simp⟩
    rw [hnone] at hheld
    cases hheld

end Machine

end Grab

end LuodaRemote
