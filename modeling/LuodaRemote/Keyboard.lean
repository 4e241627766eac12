/-
  The keyboard of the controlled machine: what the input thread does with the key events a
  connection forwards, and the set of pressed modifiers the connection keeps so that they can
  be let go when it ends.

  A key event is `down` or up, or a `press` (down and up at once). The handler passes it on and
  writes down the modifier it stands for; the input thread moves the key. The two look at
  different bits of the event, and at different codes: the handler at the platform's key for the
  position code, the input thread at whatever raw code it hands to `rdev`. What these codes
  stand for is the table of `rdev`, which is given here by `Rdev`.

  `held` is the keyboard as the input thread leaves it, `Tracked` says that the set is exact and
  enough to let every modifier go. From a connection with nothing pressed it stays so precisely
  as long as no event leaves a modifier down or counts as a press of one
  (`modifiers_tracked_iff`): the set never describes a modifier that is really held.

  Source: `on_message` (`KeyEvent`), `handle_input` and `release_pressed_modifiers` of
  `src/server/connection.rs`; `handle_key_`, `map_keyboard_mode`, `translate_keyboard_mode`,
  `legacy_keyboard_mode`, `simulate_win2win_hotkey` and `KEY_MAP` of
  `src/server/input_service.rs`; `is_modifier` of `src/keyboard.rs` and of `src/common.rs`.
  That Legacy events and typed text also touch the modifiers of other keys
  (`sync_modifiers`, `release_shift_for_char_input`) is not modelled.
-/
import LuodaRemote.Connection.Dispatch
import LuodaRemote.Lib.Run

namespace LuodaRemote

open Lib

/-! ## Keys -/

/-- `rdev::Key`, with every key that is no modifier taken together. -/
inductive RdevKey where
  | shiftLeft
  | shiftRight
  | controlLeft
  | controlRight
  | metaLeft
  | metaRight
  | alt
  | altGr
  | other
  deriving DecidableEq

namespace RdevKey

/-- `keyboard::is_modifier`. -/
def isModifier (k : RdevKey) : Bool := k != .other

/-- The number a key stands under in the set of a connection. -/
def num : RdevKey → Nat
  | shiftLeft => 0
  | shiftRight => 1
  | controlLeft => 2
  | controlRight => 3
  | metaLeft => 4
  | metaRight => 5
  | alt => 6
  | altGr => 7
  | other => 8

end RdevKey

/-- The codes of `rdev` on one platform. A missing code reads as 0, which is no modifier. -/
structure Rdev where
  /-- `win_key_from_scancode`, `linux_key_from_code` or `macos_key_from_code`. -/
  keyFromCode : Nat → RdevKey
  /-- The key that a raw position code moves, after the cast to the platform's code type. -/
  positionKey : Nat → RdevKey
  /-- The key that a Windows virtual key code moves. -/
  virtualKey : Nat → RdevKey
  /-- Whether `simulate_key_unicode` succeeds. -/
  simulateKeyUnicode : Nat → Bool
  keyFromCode_zero : (keyFromCode 0).isModifier = false
  positionKey_zero : (positionKey 0).isModifier = false

/-- `me.chr()`, 0 where the event has no code. -/
def KeyEvent.chr (ke : KeyEvent) : Nat :=
  match ke.union with
  | some (.chr code) => code
  | _ => 0

/-- `keycode_to_rdev_key` and its filter, as `on_message` names the key of an event. -/
def KeyEvent.key (r : Rdev) (ke : KeyEvent) : Option RdevKey :=
  Option.filter RdevKey.isModifier <|
    match ke.mode with
    | .map => some (r.keyFromCode ke.chr)
    | .translate =>
      match ke.union with
      | some (.chr code) => some (r.keyFromCode (code % 2 ^ 16))
      | _ => none
    | _ => none

/-- `crate::is_modifier`, by the values of `ControlKey`: `Alt`, `Shift`, `Control`, `Meta`,
    `RAlt`, `RShift`, `RControl`, `RWin`. -/
def KeyEvent.isModifier (ke : KeyEvent) : Bool :=
  match ke.union with
  | some (.controlKey v) => [1, 29, 4, 23, 75, 73, 74, 64].contains v
  | _ => false

/-- The machine with the keys of `rdev`. -/
def Host.withKeys (h : Host) (r : Rdev) : Host :=
  { h with
    modifierKey := fun ke => (ke.key r).map RdevKey.num
    isModifier := KeyEvent.isModifier }

/-! ## The input thread -/

/-- `control_key_value_to_key` for the values of `KEY_MAP` that are modifiers, `Menu` and, but
    for Linux, `Option` among them. -/
def controlKeyValueToKey (os : TargetOs) (value : Int) : Option RdevKey :=
  if value = 1 ∨ value = 45 then some .alt
  else if value = 24 ∧ os ≠ .linux then some .alt
  else if value = 4 then some .controlLeft
  else if value = 23 then some .metaLeft
  else if value = 29 then some .shiftLeft
  else if value = 64 then some .metaRight
  else if value = 73 then some .shiftRight
  else if value = 74 then some .controlRight
  else if value = 75 then some .altGr
  else none

/-- The key that `handle_key_` moves, up or down as `evt.down` says. -/
def movedKey (r : Rdev) (os : TargetOs) (evt : KeyEvent) : Option RdevKey :=
  match evt.mode with
  | .map => some (r.positionKey evt.chr)
  | .translate =>
    match evt.union with
    | some (.chr code) =>
      if os = .windows ∧ code / 2 ^ 16 ≠ 0 then some (r.virtualKey (code / 2 ^ 16))
      else some (r.positionKey code)
    | some (.win2winHotkey code) =>
      if os ≠ .windows then none
      else if evt.down = true ∧ r.simulateKeyUnicode (code % 2 ^ 16) = true then none
      else some (r.virtualKey (code / 2 ^ 16 % 2 ^ 16))
    | _ => none
  | _ =>
    match evt.union with
    | some (.controlKey ck) => controlKeyValueToKey os ck
    | _ => none

/-- The same where it is a modifier. -/
def movedModifier (r : Rdev) (os : TargetOs) (evt : KeyEvent) : Option RdevKey :=
  (movedKey r os evt).filter RdevKey.isModifier

/-- A modifier that is down, and the mode of the event that left it so. -/
structure HeldKey where
  key : RdevKey
  mode : KeyboardMode
  deriving DecidableEq

def handleKey (r : Rdev) (os : TargetOs) (evt : KeyEvent) (held : List HeldKey) : List HeldKey :=
  match movedModifier r os evt with
  | some k =>
    let others := held.filter (·.key ≠ k)
    if evt.down then ⟨k, evt.mode⟩ :: others else others
  | none => held

/-- `handle_input` for one message: a press is the event down, then up. -/
def handleInput (r : Rdev) (os : TargetOs) (held : List HeldKey) : MessageInput → List HeldKey
  | .key msg press =>
    let msg := { msg with press := false }
    if press then
      handleKey r os { msg with down := false } (handleKey r os { msg with down := true } held)
    else handleKey r os msg held
  | _ => held

namespace World

/-- The modifiers that are down after everything the connection forwarded. -/
def held (r : Rdev) (os : TargetOs) (w : World) : List HeldKey :=
  w.conn.toInput.foldl (handleInput r os) []

/-- `release_pressed_modifiers`: what stays down. -/
def releasePressedModifiers (w : World) (held : List HeldKey) : World × List HeldKey :=
  ({ w with conn := { w.conn with pressedModifiers := [] } },
    held.filter fun e => e.key.num ∉ w.conn.pressedModifiers)

/-- The handler passes key events on. -/
def ForwardsKeys (w : World) : Prop :=
  w.conn.isAuthedViewCameraConn = false ∧ w.conn.flags.peerKeyboardEnabled = true

/-- The set holds exactly the modifiers whose last event left them down, and letting it go
    leaves none down that was pressed in Map or Translate mode. -/
structure Tracked (r : Rdev) (os : TargetOs) (w : World) : Prop where
  exact_set : ∀ n, n ∈ w.conn.pressedModifiers ↔ ∃ e ∈ w.held r os, e.key.num = n
  released : ∀ e ∈ (w.releasePressedModifiers (w.held r os)).2,
    e.mode ≠ .map ∧ e.mode ≠ .translate

end World

/-- The event is not a press of a modifier (but on Linux, where none counts as a press), and
    it leaves none down: it is an up, or is made a press, which on Linux happens to what is not
    seen to be a modifier. -/
def KeyEvent.LeftUp (r : Rdev) (os : TargetOs) (ke : KeyEvent) : Prop :=
  ((ke.key r).isSome → os ≠ .linux → ke.press = false) ∧
  ((movedModifier r os ke).isSome → ke.down = true →
    if os = .linux then ke.isModifier = false ∧ ke.key r = none else ke.press = true)

instance (r : Rdev) (os : TargetOs) (ke : KeyEvent) : Decidable (ke.LeftUp r os) :=
  inferInstanceAs (Decidable ((_ → _ → _) ∧ (_ → _ → ite _ _ _)))

/-! ## One event -/

/-- Typed text, which is never made a press. -/
def KeyEvent.isText (ke : KeyEvent) : Bool :=
  match ke.union with
  | some (.unicode _) | some (.seq _) => true
  | _ => false

section

variable {r : Rdev} {os : TargetOs} {ke : KeyEvent}

/-- Typed text has no code, and code 0 is no modifier. -/
theorem isText_of_movedModifier (hk : (movedModifier r os ke).isSome = true) :
    ke.isText = false := by
  have hzero := r.positionKey_zero
  obtain ⟨down, press, union, mode⟩ := ke
  rcases union with _ | (_ | _ | _ | _ | _) <;> try rfl
  all_goals
    cases mode <;>
      simp [movedModifier, movedKey, KeyEvent.chr, Option.filter, hzero] at hk

theorem isText_of_key (hk : (ke.key r).isSome = true) : ke.isText = false := by
  have hzero := r.keyFromCode_zero
  obtain ⟨down, press, union, mode⟩ := ke
  rcases union with _ | (_ | _ | _ | _ | _) <;> try rfl
  all_goals
    cases mode <;> simp [KeyEvent.key, KeyEvent.chr, Option.filter, hzero] at hk

theorem isPress_of_key {h : Host} (hk : (ke.key r).isSome = true) :
    World.isPress (h.withKeys r) ke = (h.targetOs != .linux && ke.press) := by
  cases hos : h.targetOs <;> simp [World.isPress, Host.withKeys, hos, hk]

/-- The up of a press finds the key that its down moved. -/
theorem movedModifier_up {k : RdevKey}
    (hk : movedModifier r os { ke with down := true } = some k) :
    movedModifier r os { ke with down := false } = some k := by
  obtain ⟨down, press, union, mode⟩ := ke
  cases mode <;> rcases union with _ | (_ | _ | _ | _ | _) <;>
    simp_all [movedModifier, movedKey, KeyEvent.chr]

/-- A press leaves nothing new down. -/
theorem handleInput_press : handleInput r os [] (.key ke true) = [] := by
  show handleKey r os { ke with press := false, down := false }
    (handleKey r os { ke with press := false, down := true } []) = []
  cases hdown : movedModifier r os { ke with press := false, down := true } with
  | none =>
    have hstay : handleKey r os { ke with press := false, down := true } [] = [] := by
      rw [handleKey, hdown]
    rw [hstay]
    cases hup : movedModifier r os { ke with press := false, down := false } <;>
      simp [handleKey, hup]
  | some k =>
    have hup : movedModifier r os { ke with press := false, down := false } = some k :=
      @movedModifier_up r os { ke with press := false } k hdown
    simp [handleKey, hdown, hup]

/-- Any other event leaves its modifier down if it says so. -/
theorem handleInput_single : handleInput r os [] (.key ke false) =
    if ke.down then ((movedModifier r os ke).map (⟨·, ke.mode⟩)).toList else [] := by
  have hpress : movedModifier r os { ke with press := false } = movedModifier r os ke := rfl
  show handleKey r os { ke with press := false } [] = _
  cases hk : movedModifier r os ke <;> simp [handleKey, hpress, hk]

end

namespace World

variable {r : Rdev} {h : Host} {w : World} {ke : KeyEvent}

/-- What the handler passes on. -/
theorem onKeyEvent_forwards (hf : w.ForwardsKeys) :
    w.onKeyEvent (h.withKeys r) ke = (w.updatePressedModifiers (h.withKeys r) ke).sendToInput
      (.key ke (isPress (h.withKeys r) ke && !ke.isText)) := by
  rw [onKeyEvent, hf.1, hf.2, KeyEvent.isText]
  cases ke.union with
  | none => rfl
  | some u => cases u <;> rfl

theorem updatePressedModifiers_frame (r : Rdev) (h : Host) (w : World) (ke : KeyEvent) :
    ∃ keys, w.updatePressedModifiers (h.withKeys r) ke =
      { w with conn := { w.conn with pressedModifiers := keys } } := by
  unfold updatePressedModifiers
  split
  · exact ⟨_, rfl⟩
  · exact ⟨_, rfl⟩

theorem forwards_onKeyEvent (hf : w.ForwardsKeys) :
    (w.onKeyEvent (h.withKeys r) ke).ForwardsKeys := by
  obtain ⟨keys, hkeys⟩ := updatePressedModifiers_frame r h w ke
  rw [onKeyEvent_forwards hf, hkeys]
  exact hf

theorem held_onKeyEvent (hf : w.ForwardsKeys) :
    (w.onKeyEvent (h.withKeys r) ke).held r h.targetOs = handleInput r h.targetOs
      (w.held r h.targetOs) (.key ke (isPress (h.withKeys r) ke && !ke.isText)) := by
  obtain ⟨keys, hkeys⟩ := updatePressedModifiers_frame r h w ke
  rw [onKeyEvent_forwards hf, hkeys]
  exact List.foldl_concat _ _ _ _

/-- Nothing is pressed, and nothing is noted down as pressed. -/
structure Idle (r : Rdev) (os : TargetOs) (w : World) : Prop where
  forwards : w.ForwardsKeys
  pressed : w.conn.pressedModifiers = []
  held : w.held r os = []

theorem Idle.tracked {os : TargetOs} (hi : Idle r os w) : Tracked r os w where
  exact_set n := by simp [hi.pressed, hi.held]
  released e he := by simp [releasePressedModifiers, hi.held] at he

theorem Idle.pressed_onKeyEvent (hi : Idle r h.targetOs w) :
    (w.onKeyEvent (h.withKeys r) ke).conn.pressedModifiers =
      if h.targetOs ≠ .linux ∧ ke.press then ((ke.key r).map RdevKey.num).toList else [] := by
  rw [onKeyEvent_forwards hi.forwards]
  show (w.updatePressedModifiers (h.withKeys r) ke).conn.pressedModifiers = _
  have hmod : (h.withKeys r).modifierKey ke = (ke.key r).map RdevKey.num := rfl
  cases hk : ke.key r with
  | none => simp [updatePressedModifiers, hmod, hk, hi.pressed]
  | some k =>
    have hpress : isPress (h.withKeys r) ke = (h.targetOs != .linux && ke.press) :=
      isPress_of_key (by rw [hk]; rfl)
    simp [updatePressedModifiers, hmod, hk, hi.pressed, hpress]

theorem Idle.held_onKeyEvent (hi : Idle r h.targetOs w) :
    (w.onKeyEvent (h.withKeys r) ke).held r h.targetOs =
      if ke.down ∧ (isPress (h.withKeys r) ke && !ke.isText) = false then
        ((movedModifier r h.targetOs ke).map (⟨·, ke.mode⟩)).toList
      else [] := by
  rw [World.held_onKeyEvent hi.forwards, hi.held]
  cases hpress : isPress (h.withKeys r) ke && !ke.isText with
  | true => simp [handleInput_press]
  | false => simp [handleInput_single]

theorem Idle.pressed_nil_iff (hi : Idle r h.targetOs w) :
    (w.onKeyEvent (h.withKeys r) ke).conn.pressedModifiers = [] ↔
      ((ke.key r).isSome → h.targetOs ≠ .linux → ke.press = false) := by
  rw [hi.pressed_onKeyEvent]
  cases ke.key r with
  | none => simp
  | some k => by_cases hos : h.targetOs = .linux <;> simp [hos]

/-- An event that goes down is a press unless Linux sees a modifier, or the bit is not set. -/
theorem isPress_of_down (hdown : ke.down = true) :
    isPress (h.withKeys r) ke = true ↔
      if h.targetOs = .linux then ke.isModifier = false ∧ ke.key r = none
      else ke.press = true := by
  have hmod : (h.withKeys r).modifierKey ke = (ke.key r).map RdevKey.num := rfl
  have hcontrol : (h.withKeys r).isModifier ke = ke.isModifier := rfl
  have hos : (h.withKeys r).targetOs = h.targetOs := rfl
  by_cases hlinux : h.targetOs = .linux
  · simp [isPress, hos, hmod, hcontrol, hlinux, hdown]
  · simp [isPress, hos, hlinux]

theorem Idle.held_nil_iff (hi : Idle r h.targetOs w) :
    (w.onKeyEvent (h.withKeys r) ke).held r h.targetOs = [] ↔
      ((movedModifier r h.targetOs ke).isSome → ke.down = true →
        if h.targetOs = .linux then ke.isModifier = false ∧ ke.key r = none
        else ke.press = true) := by
  rw [hi.held_onKeyEvent]
  cases hk : movedModifier r h.targetOs ke with
  | none => simp
  | some k =>
    have htext : ke.isText = false := isText_of_movedModifier (by rw [hk]; rfl)
    cases hdown : ke.down with
    | false => simp
    | true =>
      rw [← isPress_of_down hdown]
      simp [htext]

/-- Nothing is pressed after an event precisely if it leaves no modifier down and presses
    none. -/
theorem Idle.idle_iff (hi : Idle r h.targetOs w) :
    Idle r h.targetOs (w.onKeyEvent (h.withKeys r) ke) ↔ ke.LeftUp r h.targetOs := by
  constructor
  · intro hidle
    exact ⟨hi.pressed_nil_iff.mp hidle.pressed, hi.held_nil_iff.mp hidle.held⟩
  · rintro ⟨hpressed, hheld⟩
    exact ⟨forwards_onKeyEvent hi.forwards, hi.pressed_nil_iff.mpr hpressed,
      hi.held_nil_iff.mpr hheld⟩

/-- Two sets that agree are both empty: what is noted down was a press, and a press leaves
    nothing down. -/
theorem Idle.idle_of_tracked (hi : Idle r h.targetOs w)
    (ht : Tracked r h.targetOs (w.onKeyEvent (h.withKeys r) ke)) :
    Idle r h.targetOs (w.onKeyEvent (h.withKeys r) ke) := by
  have hpressed : (w.onKeyEvent (h.withKeys r) ke).conn.pressedModifiers =
      if h.targetOs ≠ .linux ∧ ke.press then ((ke.key r).map RdevKey.num).toList else [] :=
    hi.pressed_onKeyEvent
  have hpressedNil : (w.onKeyEvent (h.withKeys r) ke).conn.pressedModifiers = [] := by
    rw [hpressed]
    split
    · cases hk : ke.key r with
      | none => rfl
      | some k =>
        -- the set has `k` in it, and the keyboard nothing
        rename_i hpress
        have hsome : (ke.key r).isSome = true := by rw [hk]; rfl
        have hclick : (isPress (h.withKeys r) ke && !ke.isText) = true := by
          rw [isPress_of_key hsome, isText_of_key hsome]
          simp [hpress.1, hpress.2]
        have hnone : (w.onKeyEvent (h.withKeys r) ke).held r h.targetOs = [] := by
          rw [hi.held_onKeyEvent, hclick]
          simp
        have hin : k.num ∈ (w.onKeyEvent (h.withKeys r) ke).conn.pressedModifiers := by
          rw [hpressed, if_pos hpress, hk]
          exact List.mem_singleton.mpr rfl
        obtain ⟨e, he, -⟩ := (ht.exact_set _).mp hin
        rw [hnone] at he
        cases he
    · rfl
  refine ⟨forwards_onKeyEvent hi.forwards, hpressedNil, ?_⟩
  apply List.eq_nil_iff_forall_not_mem.mpr
  intro e he
  have hin := (ht.exact_set e.key.num).mpr ⟨e, he, rfl⟩
  rw [hpressedNil] at hin
  cases hin

/-! ## Every sequence of events -/

/-- Whatever a connection with nothing pressed forwards, the set stays exact precisely as long
    as it stays empty with reason: no event presses a modifier or leaves one down. -/
theorem modifiers_tracked_iff (r : Rdev) (h : Host) (w : World) (hf : w.ForwardsKeys)
    (hpressed : w.conn.pressedModifiers = []) (hheld : w.held r h.targetOs = [])
    (kes : List KeyEvent) :
    Always (fun w ke => w.onKeyEvent (h.withKeys r) ke) (Tracked r h.targetOs) w kes ↔
      ∀ ke ∈ kes, ke.LeftUp r h.targetOs := by
  have hidle : Idle r h.targetOs w := ⟨hf, hpressed, hheld⟩
  have hruns : Always (fun w ke => w.onKeyEvent (h.withKeys r) ke) (Idle r h.targetOs) w kes ↔
      Along (fun w ke => w.onKeyEvent (h.withKeys r) ke)
        (fun _ ke => ke.LeftUp r h.targetOs) w kes :=
    always_iff_along (I := fun _ => True) (fun _ _ _ => trivial)
      (fun _ _ _ hi => hi.idle_iff) trivial hidle
  rw [← along_iff_mem, ← hruns]
  constructor
  · exact Always.strengthen (fun _ _ hi ht => hi.idle_of_tracked ht) hidle
  · exact Always.mono fun _ hi => hi.tracked

end World

/-- The scan codes of the modifiers on Windows. -/
def winKeyFromScancode (code : Nat) : RdevKey :=
  if code = 0x2A then .shiftLeft
  else if code = 0x36 then .shiftRight
  else if code = 0x1D then .controlLeft
  else if code = 0xE01D then .controlRight
  else if code = 0xE05B then .metaLeft
  else if code = 0xE05C then .metaRight
  else if code = 0x38 then .alt
  else if code = 0xE038 then .altGr
  else .other

/-- The keycodes of the modifiers under X11. -/
def linuxKeyFromCode (code : Nat) : RdevKey :=
  if code = 50 then .shiftLeft
  else if code = 62 then .shiftRight
  else if code = 37 then .controlLeft
  else if code = 105 then .controlRight
  else if code = 133 then .metaLeft
  else if code = 134 then .metaRight
  else if code = 64 then .alt
  else if code = 108 then .altGr
  else .other

def Rdev.sample : Rdev where
  keyFromCode := winKeyFromScancode
  positionKey := winKeyFromScancode
  virtualKey := fun vk =>
    if vk = 0xA0 then .shiftLeft else if vk = 0xA1 then .shiftRight else .other
  simulateKeyUnicode := fun _ => true
  keyFromCode_zero := rfl
  positionKey_zero := rfl

def Rdev.sampleLinux : Rdev where
  keyFromCode := linuxKeyFromCode
  positionKey := linuxKeyFromCode
  virtualKey := fun _ => .other
  simulateKeyUnicode := fun _ => false
  keyFromCode_zero := rfl
  positionKey_zero := rfl

/-- A connection that controls the machine of the examples. -/
def World.sampleControl (h : Host) : World where
  conn := { Connection.start h .sample 1 (.v4 3232235778) .sample none with
    authorized := true, authedConnId := some .remote }
  glob := .init (.new h false false false)

/-- A letter typed, after Shift was let go. -/
def shiftUpThenA : List KeyEvent :=
  [{ mode := .map, union := some (.chr 0x2A) },
    { mode := .map, union := some (.chr 0x1E), down := true },
    { mode := .map, union := some (.chr 0x1E) }]

theorem modifiers_tracked_iff_shiftUp :
    Always (fun w ke => w.onKeyEvent (Host.sample.withKeys .sample) ke)
      (World.Tracked .sample .windows) (.sampleControl .sample) shiftUpThenA :=
  (World.modifiers_tracked_iff .sample .sample (.sampleControl .sample) ⟨rfl, by decide⟩ rfl rfl
    shiftUpThenA).mpr (by decide)

/-- Shift goes down, in Map mode. -/
def shiftDown (code : Nat) : KeyEvent := { mode := .map, union := some (.chr code), down := true }

/-- Shift is down, and the set does not have it: when the connection ends Shift stays down. So
    on Windows, and so on Linux. -/
theorem shift_stays_down :
    (World.sampleControl .sample).ForwardsKeys ∧
    (World.sampleControl .sample).conn.pressedModifiers = [] ∧
    (World.sampleControl .sample).held .sample .windows = [] ∧
    ¬Always (fun w ke => w.onKeyEvent (Host.sample.withKeys .sample) ke)
      (World.Tracked .sample .windows) (.sampleControl .sample) [shiftDown 0x2A] ∧
    (World.sampleControl .sampleLinux).ForwardsKeys ∧
    (World.sampleControl .sampleLinux).conn.pressedModifiers = [] ∧
    (World.sampleControl .sampleLinux).held .sampleLinux .linux = [] ∧
    ¬Always (fun w ke => w.onKeyEvent (Host.sampleLinux.withKeys .sampleLinux) ke)
      (World.Tracked .sampleLinux .linux) (.sampleControl .sampleLinux) [shiftDown 50] := by
  refine ⟨⟨rfl, by decide⟩, rfl, rfl, ?_, ⟨rfl, by decide⟩, rfl, rfl, ?_⟩
  · rintro ⟨-, htracked⟩
    exact (htracked.released ⟨.shiftLeft, .map⟩ (by decide)).1 rfl
  · rintro ⟨-, htracked⟩
    exact (htracked.released ⟨.shiftLeft, .map⟩ (by decide)).1 rfl

end LuodaRemote
