/-
  The keyboard modes of the controlling machine: the key event that a press or a release becomes
  on its way to the peer, and when it becomes none.

  Legacy mode sends control keys and characters, map mode the code that the key has on the peer's
  platform, translate mode what was typed, and the code where nothing was. Each of them passes over
  some events (`drops`), and looks at each event alone: the press of a key and its release may
  differ in it. What is made is down for a press and up for a release, but for what macOS types in
  translate mode (`typesRelease`).

  The codes of `rdev` are given (`RdevCodes`), and so is what is read off the machine while an
  event is handled (`Surroundings`). The modifiers and lock modes that a key event carries are left
  out.

  Source: `legacy_keyboard_mode`, `map_keyboard_mode`, `translate_keyboard_mode` and what they
  call, `get_keyboard_mode_enum` and the match of `event_to_key_events` of `src/keyboard.rs`.
-/
import LuodaRemote.Host
import LuodaRemote.Lib.Lowercase

namespace LuodaRemote

open Lib

namespace Grab

/-! ## Keys and events -/

/-- `rdev::Key`, as far as it is told apart. -/
inductive Key where
  | alt | altGr | backspace | capsLock | controlLeft | controlRight | delete | downArrow | endKey
  | escape | f1 | f10 | f11 | f12 | f2 | f3 | f4 | f5 | f6 | f7 | f8 | f9 | home | leftArrow
  | metaLeft | metaRight | pageDown | pageUp | returnKey | rightArrow | shiftLeft | shiftRight
  | space | tab | upArrow | printScreen | scrollLock | pause | numLock | backQuote | num1 | num2
  | num3 | num4 | num5 | num6 | num7 | num8 | num9 | num0 | minus | equal | keyQ | keyW | keyE
  | keyR | keyT | keyY | keyU | keyI | keyO | keyP | leftBracket | rightBracket | keyA | keyS
  | keyD | keyF | keyG | keyH | keyJ | keyK | keyL | semiColon | quote | backSlash | keyZ | keyX
  | keyC | keyV | keyB | keyN | keyM | comma | dot | slash | insert | kpReturn | kpMinus | kpPlus
  | kpMultiply | kpDivide | kp0 | kp1 | kp2 | kp3 | kp4 | kp5 | kp6 | kp7 | kp8 | kp9 | kpDecimal
  | apps | cancel | clear | kana | hangul | junja | final | hanja | hanji | lang2 | print | select
  | execute | help | sleep | separator
  | unknown (keycode : Nat)
  | other (code : Nat)
  deriving DecidableEq

/-- `is_numpad_rdev_key`. -/
def Key.isNumpad (key : Key) : Bool :=
  key ∈ [kp0, kp1, kp2, kp3, kp4, kp5, kp6, kp7, kp8, kp9, kpMinus, kpMultiply, kpDivide, kpPlus,
    kpDecimal]

structure UnicodeInfo where
  name : Option String
  isDead : Bool
  deriving DecidableEq

/-- A `KeyPress`, or a `KeyRelease`. -/
structure Event where
  key : Key
  isPress : Bool
  unicode : Option UnicodeInfo := none
  platformCode : Nat := 0
  positionCode : Nat := 0
  deriving DecidableEq

/-- The text that was typed. -/
def Event.name (e : Event) : Option String := e.unicode.bind (·.name)

/-- The code tables of `rdev`. -/
structure RdevCodes where
  winScancodeToMacosIsoCode : Nat → Option Nat := fun _ => none
  winScancodeToMacosCode : Nat → Option Nat := fun _ => none
  winScancodeToAndroidKeyCode : Nat → Option Nat := fun _ => none
  winScancodeToLinuxCode : Nat → Option Nat := fun _ => none
  macosCodeToWinScancode : Nat → Option Nat := fun _ => none
  macosCodeToAndroidKeyCode : Nat → Option Nat := fun _ => none
  macosCodeToLinuxCode : Nat → Option Nat := fun _ => none
  linuxCodeToWinScancode : Nat → Option Nat := fun _ => none
  linuxCodeToMacosIsoCode : Nat → Option Nat := fun _ => none
  linuxCodeToMacosCode : Nat → Option Nat := fun _ => none
  linuxCodeToAndroidKeyCode : Nat → Option Nat := fun _ => none
  kVKOption : Nat := 58
  kVKRightOption : Nat := 61

/-- What is read off the machine while an event is handled. -/
structure Surroundings where
  /-- `get_key_state` of `Alt`, `Control`, `RightControl`, `Meta` and `NumLock`. -/
  alt : Bool := false
  control : Bool := false
  rightControl : Bool := false
  metaKey : Bool := false
  numLock : Bool := false
  /-- `get_win_key_state`. -/
  winKey : Bool := false
  kbLayoutType : String := ""
  /-- `is_hot_key_modifiers_down`, which asks `rdev`. -/
  hotKeyModifiersDown : Bool := false
  charFromVk : Nat → Option Char := fun _ => none
  unicodeFromVk : Nat → Option Nat := fun _ => none

/-- `IS_ALT_GR` and `IS_0X021D_DOWN` (Windows), and `IS_LEFT_OPTION_DOWN` (macOS). -/
structure ModeStatics where
  isAltGr : Bool := false
  is0x021dDown : Bool := false
  isLeftOptionDown : Bool := false

/-- What a mode makes of an event: the vectors of the source never hold more than one. -/
structure Made where
  event : Option KeyEvent
  /-- What was sent apart, by `ctrl_alt_del` or `lock_screen`. -/
  apart : List KeyEvent := []
  statics : ModeStatics

def getKeyboardModeEnum (keyboardMode : String) : KeyboardMode :=
  if keyboardMode = "map" then .map
  else if keyboardMode = "translate" then .translate
  else if keyboardMode = "legacy" then .legacy
  else .map

/-- The peer's platform in lower case, without white space. Only of capital letters of ASCII does
    lower case make the names below. -/
def peerName (platform : String) : String :=
  String.ofList ((platform.toList.map Char.toLower).filter (!isWhite ·))

/-! ## Legacy mode -/

def convertNumpadKeys (w : Surroundings) (key : Key) : Key :=
  if w.numLock then key
  else
    match key with
    | .kp0 => .insert
    | .kpDecimal => .delete
    | .kp1 => .endKey
    | .kp2 => .downArrow
    | .kp3 => .pageDown
    | .kp4 => .leftArrow
    | .kp5 => .clear
    | .kp6 => .rightArrow
    | .kp7 => .home
    | .kp8 => .upArrow
    | .kp9 => .pageUp
    | _ => key

/-- The keys that have a `ControlKey`, by its number. -/
def controlKeys : List (Key × Int) :=
  [(.alt, 1), (.altGr, 75), (.backspace, 2), (.controlLeft, 4), (.controlRight, 74),
    (.downArrow, 6), (.escape, 8), (.f1, 9), (.f10, 10), (.f11, 11), (.f12, 12), (.f2, 13),
    (.f3, 14), (.f4, 15), (.f5, 16), (.f6, 17), (.f7, 18), (.f8, 19), (.f9, 20),
    (.leftArrow, 22), (.metaLeft, 23), (.metaRight, 64), (.returnKey, 27), (.rightArrow, 28),
    (.shiftLeft, 29), (.shiftRight, 73), (.space, 30), (.tab, 31), (.upArrow, 32), (.delete, 5),
    (.apps, 65), (.cancel, 43), (.clear, 44), (.kana, 47), (.hangul, 48), (.junja, 49),
    (.final, 50), (.hanja, 51), (.hanji, 51), (.lang2, 53), (.print, 55), (.select, 54),
    (.execute, 56), (.printScreen, 57), (.help, 59), (.sleep, 60), (.separator, 61),
    (.kpReturn, 72), (.kp0, 33), (.kp1, 34), (.kp2, 35), (.kp3, 36), (.kp4, 37), (.kp5, 38),
    (.kp6, 39), (.kp7, 40), (.kp8, 41), (.kp9, 42), (.kpDivide, 70), (.kpMultiply, 66),
    (.kpDecimal, 69), (.kpMinus, 68), (.kpPlus, 67), (.home, 21), (.endKey, 7), (.insert, 58),
    (.pageUp, 26), (.pageDown, 25), (.pause, 46)]

/-- The characters of the keys that have one. -/
def keyChars : List (Key × Char) :=
  [.num1, .num2, .num3, .num4, .num5, .num6, .num7, .num8, .num9, .num0, .keyA, .keyB, .keyC,
    .keyD, .keyE, .keyF, .keyG, .keyH, .keyI, .keyJ, .keyK, .keyL, .keyM, .keyN, .keyO, .keyP,
    .keyQ, .keyR, .keyS, .keyT, .keyU, .keyV, .keyW, .keyX, .keyY, .keyZ, .comma, .dot,
    .semiColon, .quote, .leftBracket, .rightBracket, .slash, .backSlash, .minus, .equal,
    .backQuote].zip "1234567890abcdefghijklmnopqrstuvwxyz,.;'[]/\\-=`".toList

/-- The character of an event, 0 where it has none: what was typed, if it is short, and else what
    the key stands for. -/
def legacyChr (key : Key) (e : Event) : Char :=
  let chr :=
    match e.name with
    | some s => if s.utf8ByteSize ≤ 2 then s.toList.headD (Char.ofNat 0) else Char.ofNat 0
    | none => Char.ofNat 0
  -- the middle dot of Chinese layouts stands for a back quote
  let chr := if chr = Char.ofNat 0xb7 then Char.ofNat 0x60 else chr
  if chr = Char.ofNat 0 then (keyChars.lookup key).getD (Char.ofNat 0) else chr

def eventLockScreen : KeyEvent := { down := true, union := some (.controlKey 101) }

def eventCtrlAltDel (peerPlatform : String) : KeyEvent :=
  if peerPlatform = "Windows" then { down := true, union := some (.controlKey 100) }
  else { press := true, union := some (.controlKey 5) }

section

variable (os : TargetOs) (peerPlatform : String) (w : Surroundings) (t : ModeStatics)

/-- Whether Control is down; on Windows not where it is half of an `AltGr`. -/
def legacyCtrl (key : Key) : Bool × ModeStatics :=
  let ctrl := w.control || w.rightControl
  if os = .windows ∧ t.isAltGr then
    if w.alt ∨ key = .altGr then (false, t) else (ctrl, { t with isAltGr := false })
  else (ctrl, t)

/-- The extra left Control that comes with an `AltGr` on Windows. -/
def isAltGrControl (key : Key) (e : Event) : Bool :=
  os = .windows && key = .controlLeft && e.positionCode / 256 = 0xe0

def legacyKeyboardMode (e : Event) (keyEvent : KeyEvent) : Made :=
  let isWin := peerPlatform = "Windows"
  let key := if isWin then convertNumpadKeys w e.key else e.key
  let (ctrl, t) := legacyCtrl os w t key
  let command := if os = .windows then w.winKey else w.metaKey
  if isAltGrControl os key e then ⟨none, [], { t with isAltGr := true }⟩
  else if key = .delete ∧ isWin ∧ ctrl ∧ w.alt then ⟨none, [eventCtrlAltDel peerPlatform], t⟩
  else if key = .capsLock ∨ key = .numLock ∨ key = .scrollLock then ⟨none, [], t⟩
  else
    match controlKeys.lookup key with
    | some k => ⟨some { keyEvent with union := some (.controlKey k), down := e.isPress }, [], t⟩
    | none =>
      let chr := legacyChr key e
      if chr = Char.ofNat 0 then ⟨none, [], t⟩
      else if chr = 'l' ∧ isWin ∧ command then ⟨none, [eventLockScreen], t⟩
      else ⟨some { keyEvent with union := some (.chr chr.toNat), down := e.isPress }, [], t⟩

/-- Legacy mode makes no event of the left Control of an `AltGr`, of Delete with Control and Alt
    and of `l` with the command key (to Windows), of a lock key, and of a key without a
    character. -/
def legacyDrops (e : Event) : Bool :=
  let isWin := peerPlatform = "Windows"
  let key := if isWin then convertNumpadKeys w e.key else e.key
  isAltGrControl os key e || key = .delete && isWin && (legacyCtrl os w t key).1 && w.alt ||
    key = .capsLock || key = .numLock || key = .scrollLock ||
    controlKeys.lookup key = none && (legacyChr key e = Char.ofNat 0 ||
      legacyChr key e = 'l' && isWin && if os = .windows then w.winKey else w.metaKey)

end

/-! ## Map mode and translate mode -/

section

variable (os : TargetOs) (r : RdevCodes) (peer : String) (w : Surroundings) (t : ModeStatics)

/-- The code of a key on the peer's platform. -/
def mapKeycode (e : Event) : Option Nat :=
  let iso := w.kbLayoutType = "ISO"
  match os with
  | .windows =>
    if peer = "windows" then
      if 255 < e.positionCode ∧ e.positionCode / 256 ≠ 0xe0 then none else some e.positionCode
    else if peer = "macos" then
      if iso then r.winScancodeToMacosIsoCode e.positionCode
      else r.winScancodeToMacosCode e.positionCode
    else if peer = "android" then r.winScancodeToAndroidKeyCode e.positionCode
    else r.winScancodeToLinuxCode e.positionCode
  | .macos =>
    if peer = "windows" then r.macosCodeToWinScancode e.platformCode
    else if peer = "macos" then some e.platformCode
    else if peer = "android" then r.macosCodeToAndroidKeyCode e.platformCode
    else r.macosCodeToLinuxCode e.platformCode
  | .linux =>
    if peer = "windows" then r.linuxCodeToWinScancode e.positionCode
    else if peer = "macos" then
      if iso then r.linuxCodeToMacosIsoCode e.positionCode
      else r.linuxCodeToMacosCode e.positionCode
    else if peer = "android" then r.linuxCodeToAndroidKeyCode e.positionCode
    else some e.positionCode

def mapKeyboardMode (e : Event) (keyEvent : KeyEvent) : Option KeyEvent :=
  (mapKeycode os r peer w e).map fun code =>
    { keyEvent with down := e.isPress, union := some (.chr code) }

def tryFillUnicode (e : Event) (keyEvent : KeyEvent) : Option KeyEvent :=
  match e.unicode with
  | some info =>
    (info.name.filter (·.length > 0)).map fun name =>
      { keyEvent with union := some (.seq name), down := true }
  | none =>
    if os = .windows ∧ peer = "linux" ∧ w.hotKeyModifiersDown ∧ !t.is0x021dDown then
      (w.charFromVk e.platformCode).map fun chr =>
        { keyEvent with union := some (.seq (String.singleton chr)), down := true }
    else none

def tryFillWin2winHotkey (e : Event) (keyEvent : KeyEvent) : Option KeyEvent :=
  if os = .windows ∧ peer = "windows" ∧ w.hotKeyModifiersDown ∧ !t.is0x021dDown then
    let code := e.platformCode % 2 ^ 16 * 2 ^ 16
    if e.isPress then
      (w.unicodeFromVk e.platformCode).map fun unicode =>
        { keyEvent with union := some (.win2winHotkey (unicode % 2 ^ 16 + code)), down := true }
    else some { keyEvent with union := some (.win2winHotkey code), down := false }
  else none

def isAltgr (e : Event) : Bool :=
  match os with
  | .linux => e.platformCode = 0xfe03
  | .windows => t.is0x021dDown && e.positionCode = 0xe038
  | .macos => false

/-- Translate mode looks at no further than the key. -/
def isSilent (e : Event) : Bool :=
  os = .macos && e.platformCode = r.kVKRightOption || isAltgr os t e ||
    os = .windows && e.positionCode = 0x021d

/-- A dead key, which is kept for the next one. -/
def isDeadKey (e : Event) : Bool :=
  e.unicode.any (·.isDead) && !(os = .macos && peer ≠ "macos" && t.isLeftOptionDown)

def translateKeyboardMode (e : Event) (keyEvent : KeyEvent) : Option KeyEvent :=
  if isDeadKey os peer t e then none
  else if e.key.isNumpad then mapKeyboardMode os r peer w e keyEvent
  else if isSilent os r t e then none
  else
    let event := tryFillWin2winHotkey os peer w t e keyEvent
    let event := event <|>
      if os ≠ .macos ∧ e.isPress then tryFillUnicode os peer w t e keyEvent else none
    -- while AltGr is down, nothing but what was typed is sent
    if os = .windows ∧ t.is0x021dDown then event
    else
      let event := event <|>
        if os = .macos ∧ !t.isLeftOptionDown then tryFillUnicode os peer w t e keyEvent else none
      event <|> mapKeyboardMode os r peer w e keyEvent

end

/-! ## What an event becomes -/

section

variable (os : TargetOs) (r : RdevCodes) (mode : KeyboardMode) (peerPlatform : String)
  (w : Surroundings) (t : ModeStatics)

/-- The match of `event_to_key_events`. -/
def keyEvents (e : Event) : Made :=
  match mode with
  | .map => ⟨mapKeyboardMode os r (peerName peerPlatform) w e { mode }, [], t⟩
  | .translate => ⟨translateKeyboardMode os r (peerName peerPlatform) w t e { mode }, [], t⟩
  | .legacy | .auto => legacyKeyboardMode os peerPlatform w t e { mode }

/-- A text was typed, or Windows knows the character of the key. -/
def hasText (peer : String) (e : Event) : Bool :=
  match e.unicode with
  | some info => info.name.any (·.length > 0)
  | none => os = .windows && peer = "linux" && w.hotKeyModifiersDown && !t.is0x021dDown &&
      (w.charFromVk e.platformCode).isSome

/-- The event is a hot key from Windows to Windows. -/
def isHotkey (peer : String) (e : Event) : Bool :=
  os = .windows && peer = "windows" && w.hotKeyModifiersDown && !t.is0x021dDown &&
    (!e.isPress || (w.unicodeFromVk e.platformCode).isSome)

/-- Translate mode makes no event of a dead key, of a silent one, and of one without a code that
    types nothing; on Windows while `AltGr` is down of all that types nothing. -/
def translateDrops (peer : String) (e : Event) : Bool :=
  let noCode := (mapKeycode os r peer w e).isNone
  isDeadKey os peer t e || if e.key.isNumpad then noCode
    else isSilent os r t e || !(isHotkey os w t peer e ||
      (if os = .macos then !t.isLeftOptionDown else e.isPress) && hasText os w t peer e) &&
        (os = .windows && t.is0x021dDown || noCode)

/-- The mode makes no event of this one. -/
def drops (e : Event) : Bool :=
  match mode with
  | .map => (mapKeycode os r (peerName peerPlatform) w e).isNone
  | .translate => translateDrops os r w t (peerName peerPlatform) e
  | .legacy | .auto => legacyDrops os peerPlatform w t e

/-- On macOS translate mode types the text of a release as it types that of a press. -/
def typesRelease (e : Event) : Bool :=
  os = .macos && mode = .translate && !e.isPress && e.name.any (·.length > 0) &&
    !e.key.isNumpad && !t.isLeftOptionDown && !drops os r mode peerPlatform w t e

end

variable {os : TargetOs} {r : RdevCodes} {mode : KeyboardMode} {peer peerPlatform : String}
  {w : Surroundings} {t : ModeStatics} {e : Event} {keyEvent ke : KeyEvent}

/-- An event is passed over, or becomes one that is down as it is. -/
def Becomes (e : Event) (dropped : Bool) (event : Option KeyEvent) : Prop :=
  event = none ∧ dropped = true ∨ ∃ ke, event = some ke ∧ ke.down = e.isPress ∧ dropped = false

theorem legacy_becomes : Becomes e (legacyDrops os peerPlatform w t e)
    (legacyKeyboardMode os peerPlatform w t e keyEvent).event := by
  unfold legacyKeyboardMode legacyDrops Becomes
  dsimp only
  generalize (if peerPlatform = "Windows" then convertNumpadKeys w e.key else e.key) = key
  generalize legacyCtrl os w t key = ctrl
  generalize (if os = .windows then w.winKey else w.metaKey) = command
  generalize legacyChr key e = chr
  by_cases hcontrol : isAltGrControl os key e = true
  · simp [hcontrol]
  · by_cases hdelete : key = .delete ∧ peerPlatform = "Windows" ∧ ctrl.1 = true ∧ w.alt = true
    · rw [if_neg hcontrol, if_pos hdelete]
      exact Or.inl ⟨rfl, by grind⟩
    · by_cases hlock : key = .capsLock ∨ key = .numLock ∨ key = .scrollLock
      · rw [if_neg hcontrol, if_neg hdelete, if_pos hlock]
        exact Or.inl ⟨rfl, by grind⟩
      · rw [if_neg hcontrol, if_neg hdelete, if_neg hlock]
        cases controlKeys.lookup key with
        | some k => exact Or.inr ⟨_, rfl, rfl, by grind⟩
        | none =>
          dsimp only
          split_ifs
          · exact Or.inl ⟨rfl, by grind⟩
          · exact Or.inl ⟨rfl, by grind⟩
          · exact Or.inr ⟨_, rfl, rfl, by grind⟩

theorem map_becomes : Becomes e (mapKeycode os r peer w e).isNone
    (mapKeyboardMode os r peer w e keyEvent) := by
  unfold mapKeyboardMode
  cases mapKeycode os r peer w e with
  | none => exact Or.inl ⟨rfl, rfl⟩
  | some code => exact Or.inr ⟨_, rfl, rfl, rfl⟩

theorem hotkey_becomes : Becomes e (!isHotkey os w t peer e)
    (tryFillWin2winHotkey os peer w t e keyEvent) := by
  unfold tryFillWin2winHotkey isHotkey Becomes
  cases e.isPress
  all_goals
    cases w.unicodeFromVk e.platformCode
    all_goals grind

/-- What is typed is down. -/
theorem unicode_becomes :
    tryFillUnicode os peer w t e keyEvent = none ∧ hasText os w t peer e = false ∨
      ∃ ke, tryFillUnicode os peer w t e keyEvent = some ke ∧ ke.down = true ∧
        hasText os w t peer e = true := by
  unfold tryFillUnicode hasText
  cases e.unicode with
  | some info =>
    obtain ⟨name, isDead⟩ := info
    cases name with
    | none => simp
    | some name =>
      by_cases hempty : 0 < name.length
      all_goals simp [Option.filter, hempty]
  | none =>
    cases w.charFromVk e.platformCode
    all_goals grind

theorem hasText_macos : hasText .macos w t peer e = e.name.any (·.length > 0) := by
  unfold hasText Event.name
  cases e.unicode with
  | none => simp
  | some info => simp

theorem translate_becomes
    (hup : os = .macos → e.isPress = false → e.name.any (·.length > 0) = true →
      e.key.isNumpad = false → t.isLeftOptionDown = false →
      translateDrops os r w t peer e = true) :
    Becomes e (translateDrops os r w t peer e)
      (translateKeyboardMode os r peer w t e keyEvent) := by
  have hmap : Becomes e (mapKeycode os r peer w e).isNone
    (mapKeyboardMode os r peer w e keyEvent) := map_becomes
  have hhot : Becomes e (!isHotkey os w t peer e)
    (tryFillWin2winHotkey os peer w t e keyEvent) := hotkey_becomes
  have htext : tryFillUnicode os peer w t e keyEvent = none ∧ hasText os w t peer e = false ∨
      ∃ ke, tryFillUnicode os peer w t e keyEvent = some ke ∧ ke.down = true ∧
        hasText os w t peer e = true := unicode_becomes
  unfold translateKeyboardMode
  unfold translateDrops at hup ⊢
  unfold Becomes at *
  generalize mapKeyboardMode os r peer w e keyEvent = map at *
  generalize tryFillWin2winHotkey os peer w t e keyEvent = hot at *
  generalize tryFillUnicode os peer w t e keyEvent = text at *
  cases hdead : isDeadKey os peer t e with
  | true => simp
  | false =>
    cases hnumpad : e.key.isNumpad with
    | true => simpa using hmap
    | false =>
      cases hsilent : isSilent os r t e with
      | true => simp
      | false =>
        rcases hhot with ⟨rfl, hno⟩ | ⟨ke, rfl, hke, hno⟩
        · rcases htext with ⟨rfl, hno⟩ | ⟨ke, rfl, hke, hno⟩
          · rcases hmap with ⟨rfl, hno⟩ | ⟨ke, rfl, hke, hno⟩
            · simp_all
            · cases os
              all_goals
                cases hgr : t.is0x021dDown
                all_goals simp_all
          · cases hpress : e.isPress
            all_goals
              cases os with
              | windows =>
                cases hgr : t.is0x021dDown
                all_goals simp_all
              | linux => simp_all
              | macos =>
                -- a release is typed where the left Option key is up
                rw [hasText_macos] at *
                cases hoption : t.isLeftOptionDown
                all_goals simp_all
        · simp_all

/-- What a mode makes of an event is down as the event is. -/
theorem keyEvents_becomes (hup : typesRelease os r mode peerPlatform w t e = false) :
    Becomes e (drops os r mode peerPlatform w t e)
      (keyEvents os r mode peerPlatform w t e).event := by
  cases mode with
  | map => exact map_becomes
  | translate =>
    refine translate_becomes ?_
    unfold typesRelease drops at hup
    simp_all
  | legacy => exact legacy_becomes
  | auto => exact legacy_becomes

end Grab

end LuodaRemote
