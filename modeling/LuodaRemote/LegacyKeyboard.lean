/-
  Legacy keyboard mode: how a key event of the peer becomes presses and releases of keys on the
  controlled machine, and `KEYS_DOWN`, from which keys that were left down are let go.

  Pressing, writing down and letting go are three things. The modifiers of an event are pressed for
  it alone and let go at its end; the key of the event is written down before it is moved, under a
  number that is read back when `fix_key_down_timeout` lets everything go. `Recorded` says that no
  key is down that is not written down; `fixKeyDownTimeout_iff` that this is what it takes for
  nothing to stay down.

  An event breaks it in two ways (`stays_down_iff`). `CtrlAltDel` and `LockScreen` return before
  the modifiers are let go. And an up event can strike out a key and leave it down: a
  character without a hotkey modifier, which is typed and not moved, though it was moved when it
  came down with one; and a control key that `KEY_MAP` does not have, whose number may be that of
  a character.

  `Enigo` is what it says of itself: `key_down` presses a key or fails, and `get_key_state` is true
  of the keys that are down, by injection or on the machine's own keyboard. How a character key is
  made of the keys of the layout is its business.

  Source: `legacy_keyboard_mode`, `sync_modifiers` and what they call, `KEYS_DOWN`, `KEY_MAP`,
  `release_record_key` and `fix_key_down_timeout` of `src/server/input_service.rs`; `Key` of
  `libs/enigo/src/lib.rs`. The flags that macOS adds to its events are left out.
-/
import LuodaRemote.Host
import LuodaRemote.Lib.Run

namespace LuodaRemote

open Lib

namespace Enigo

/-! ## Keys -/

/-- `enigo::Key`, as far as `KEY_MAP` and the functions here name them. -/
inductive Key where
  | alt | backspace | capsLock | control | delete | downArrow | endKey | escape | f1 | f10
  | f11 | f12 | f2 | f3 | f4 | f5 | f6 | f7 | f8 | f9 | home | leftArrow | metaKey | option
  | pageDown | pageUp | returnKey | rightArrow | shift | space | tab | upArrow | numpad0
  | numpad1 | numpad2 | numpad3 | numpad4 | numpad5 | numpad6 | numpad7 | numpad8 | numpad9
  | cancel | clear | pause | kana | hangul | junja | final | hanja | kanji | convert | select
  | print | execute | snapshot | insert | help | sleep | separator | scroll | numLock | rWin
  | apps | multiply | add | subtract | decimal | divide | equals | numpadEnter | rightAlt
  | rightControl | rightShift
  | layout (c : Char)
  | raw (code : Nat)
  deriving DecidableEq

def keyMap : List (Int × Key) :=
  [(1, .alt), (2, .backspace), (3, .capsLock), (4, .control), (5, .delete), (6, .downArrow),
    (7, .endKey), (8, .escape), (9, .f1), (10, .f10), (11, .f11), (12, .f12), (13, .f2),
    (14, .f3), (15, .f4), (16, .f5), (17, .f6), (18, .f7), (19, .f8), (20, .f9), (21, .home),
    (22, .leftArrow), (23, .metaKey), (24, .option), (25, .pageDown), (26, .pageUp),
    (27, .returnKey), (28, .rightArrow), (29, .shift), (30, .space), (31, .tab), (32, .upArrow),
    (33, .numpad0), (34, .numpad1), (35, .numpad2), (36, .numpad3), (37, .numpad4),
    (38, .numpad5), (39, .numpad6), (40, .numpad7), (41, .numpad8), (42, .numpad9),
    (43, .cancel), (44, .clear), (45, .alt), (46, .pause), (47, .kana), (48, .hangul),
    (49, .junja), (50, .final), (51, .hanja), (52, .kanji), (53, .convert), (54, .select),
    (55, .print), (56, .execute), (57, .snapshot), (58, .insert), (59, .help), (60, .sleep),
    (61, .separator), (62, .scroll), (63, .numLock), (64, .rWin), (65, .apps), (66, .multiply),
    (67, .add), (68, .subtract), (69, .decimal), (70, .divide), (71, .equals),
    (72, .numpadEnter), (75, .rightAlt), (74, .rightControl), (73, .rightShift)]

namespace ControlKey

def alt : Int := 1
def control : Int := 4
def metaKey : Int := 23
def shift : Int := 29
def rWin : Int := 64
def rShift : Int := 73
def rControl : Int := 74
def rAlt : Int := 75
def ctrlAltDel : Int := 100
def lockScreen : Int := 101

end ControlKey

def controlKeyValueToKey (value : Int) : Option Key := keyMap.lookup value

/-- `char::try_from`. -/
def charOf (c : UInt32) : Option Char := if c.toNat.isValidChar then some (.ofNat c.toNat) else none

def charValueToKey (value : UInt32) : Key := .layout ((charOf value).getD (Char.ofNat 0))

def keyCharStart : Nat := 9999

/-- `KEY_INSERT` with the offset of XKB. -/
def xkbKeyInsert : Nat := 110 + 8

inductive KeysDown where
  | rdevKey (code : Nat)
  | enigoKey (recordKey : Nat)
  deriving DecidableEq

/-- `ck.value() as u64`. -/
def recordControlKey (value : Int) : Nat := (value % 2 ^ 64).toNat

def recordChr (chr : UInt32) : Nat := chr.toNat + keyCharStart

def recordKeyToKey (recordKey : Nat) : Option Key :=
  if recordKey < keyCharStart then controlKeyValueToKey recordKey
  else some (charValueToKey (UInt32.ofNat (recordKey - keyCharStart)))

/-- The key that is let go for a record. -/
def KeysDown.toKey : KeysDown → Option Key
  | rdevKey _ => none
  | enigoKey recordKey => recordKeyToKey recordKey

/-! ## The device -/

/-- How the device behaves while an event is handled. -/
structure Device where
  /-- Whether `key_down` succeeds. -/
  keyDown : Key → Bool
  /-- What the machine's own keyboard holds down; for a lock, whether it is on. -/
  held : Key → Bool
  /-- Whether text can be put on the clipboard. -/
  setClipboard : Bool := true

structure Injected where
  /-- `KEYS_DOWN`. -/
  keysDown : List KeysDown := []
  /-- The keys whose last injected action was a press. -/
  down : Key → Bool := fun _ => false
  typed : List String := []

def Injected.keyUp (key : Key) (s : Injected) : Injected :=
  { s with down := Function.update s.down key false }

def keySequence (text : String) (s : Injected) : Injected := { s with typed := s.typed ++ [text] }

namespace Device

variable (d : Device)

/-- `key_down`, which does nothing if it fails. -/
def press (key : Key) (s : Injected) : Injected :=
  if d.keyDown key then { s with down := Function.update s.down key true } else s

def getKeyState (key : Key) (s : Injected) : Bool :=
  match key with
  | .capsLock | .numLock | .scroll => d.held key
  | key => s.down key || d.held key

def getModifierState (key : Key) (s : Injected) : Bool :=
  let x := d.getKeyState key s
  match key with
  | .shift => x || d.getKeyState .rightShift s
  | .control => x || d.getKeyState .rightControl s
  | .alt => x || d.getKeyState .rightAlt s
  | .metaKey => x || d.getKeyState .rWin s
  | .rightShift => x || d.getKeyState .shift s
  | .rightControl => x || d.getKeyState .control s
  | .rightAlt => x || d.getKeyState .alt s
  | .rWin => x || d.getKeyState .metaKey s
  | _ => x

def isPressed (key : Key) (s : Injected) : Bool := d.getModifierState key s

end Device

/-! ## Events -/

inductive Union where
  | controlKey (ck : Int)
  | chr (chr : UInt32)
  | unicode (chr : UInt32)
  | seq (seq : String)
  deriving DecidableEq

/-- `KeyEvent`, without what only the other modes read. -/
structure Event where
  down : Bool
  union : Option Union
  modifiers : List Int := []
  deriving DecidableEq

structure Host where
  os : TargetOs
  isX11 : Bool := true
  waylandUseUinput : Bool := false
  toUppercase : String → String

namespace Event

def getControlKeyValue (evt : Event) : Int :=
  match evt.union with
  | some (.controlKey ck) => ck
  | _ => -1

def hasHotkeyModifiers (h : Host) (evt : Event) : Bool :=
  evt.modifiers.any fun v =>
    v = ControlKey.control || v = ControlKey.rControl || v = ControlKey.metaKey ||
      v = ControlKey.rWin || (h.os ≠ .macos && (v = ControlKey.alt || v = ControlKey.rAlt))

end Event

/-! ## Modifiers -/

section

variable (h : Host) (d : Device)

def isAltgrPressed (s : Injected) : Bool := s.keysDown.contains (.rdevKey 75)

/-- One round of `press_modifiers`, with the keys to let go. -/
def pressModifier (r : Injected × List Key) (ck : Int) : Injected × List Key :=
  match controlKeyValueToKey ck with
  | some key =>
    if d.isPressed key r.1 then r
    else if h.os = .linux ∧ key = .alt ∧ isAltgrPressed r.1 then r
    else (d.press key r.1, r.2 ++ [key])
  | none => r

def pressModifiers (evt : Event) (s : Injected) : Injected × List Key :=
  evt.modifiers.foldl (pressModifier h d) (s, [])

def fixModifier (modifiers : List Int) (key0 : Int) (key1 : Key) (s : Injected) : Injected :=
  if d.getModifierState key1 s && !modifiers.contains key0 then
    -- AltGr
    if h.os = .windows ∧ key0 = ControlKey.control ∧ d.getModifierState .alt s then s
    else s.keyUp key1
  else s

/-- The pairs `fix_modifiers` goes through: the key that exempts from it, the modifier that has
    to be in the list, and the key that is let go if it is not. -/
def fixedModifiers : List (Int × Int × Key) :=
  [(ControlKey.shift, ControlKey.shift, .shift), (ControlKey.rShift, ControlKey.shift, .rightShift),
    (ControlKey.alt, ControlKey.alt, .alt), (ControlKey.rAlt, ControlKey.alt, .rightAlt),
    (ControlKey.control, ControlKey.control, .control),
    (ControlKey.rControl, ControlKey.control, .rightControl),
    (ControlKey.metaKey, ControlKey.metaKey, .metaKey),
    (ControlKey.rWin, ControlKey.metaKey, .rWin)]

def fixModifiers (modifiers : List Int) (ck : Int) (s : Injected) : Injected :=
  fixedModifiers.foldl
    (fun s e => if ck ≠ e.1 then fixModifier h d modifiers e.2.1 e.2.2 s else s) s

def releaseUnpressedModifiers (evt : Event) (s : Injected) : Injected :=
  fixModifiers h d evt.modifiers evt.getControlKeyValue s

def syncModifiers (evt : Event) (s : Injected) : Injected × List Key :=
  if evt.down then
    if h.os = .macos then (releaseUnpressedModifiers h d evt s, [])
    else pressModifiers h d evt (releaseUnpressedModifiers h d evt s)
  else (s, [])

def releaseKeys (toRelease : List Key) (s : Injected) : Injected :=
  toRelease.foldl (fun s key => s.keyUp key) s

/-! ## The keys of an event -/

def isHotkeyModifierPressed (s : Injected) : Bool :=
  d.getModifierState .control s || d.getModifierState .rightControl s ||
    d.getModifierState .alt s || d.getModifierState .rightAlt s ||
    d.getModifierState .metaKey s || d.getModifierState .rWin s

/-- On X11 the key is released by `rdev`, which is the same key. -/
def releaseShiftForCharInput (s : Injected) : Injected :=
  if isHotkeyModifierPressed d s then s
  else
    let s := if d.getModifierState .shift s then s.keyUp .shift else s
    if d.getModifierState .rightShift s then s.keyUp .rightShift else s

def inputTextViaClipboardServer (text : String) (s : Injected) : Injected :=
  if text.isEmpty then s
  else if !d.setClipboard then s
  else if !d.keyDown .shift then s
  else if !d.keyDown (.raw xkbKeyInsert) then (d.press .shift s).keyUp .shift
  else ((d.press (.raw xkbKeyInsert) (d.press .shift s)).keyUp (.raw xkbKeyInsert)).keyUp .shift

def processControlKey (ck : Int) (down : Bool) (s : Injected) : Injected :=
  match controlKeyValueToKey ck with
  | some key => if down then d.press key s else s.keyUp key
  | none => s

def needToUppercase (s : Injected) : Bool :=
  d.getModifierState .shift s || d.getModifierState .capsLock s

/-- Characters are typed by the clipboard. -/
def viaClipboard : Bool := h.os = .linux && !h.isX11 && h.waylandUseUinput

def processChr (chr : UInt32) (down hotkey : Bool) (s : Injected) : Injected :=
  if viaClipboard h && !isHotkeyModifierPressed d s then
    if down then
      match charOf chr with
      | some c => inputTextViaClipboardServer d c.toString s
      | none => s
    else s
  else if h.os ≠ .linux && !hotkey then
    if down then
      match charOf chr with
      | some c => keySequence c.toString s
      | none => s
    else s
  else
    let key := charValueToKey chr
    if down then
      if d.keyDown key then d.press key s
      else
        match charOf chr with
        | some c =>
          keySequence (if needToUppercase d s then h.toUppercase c.toString else c.toString) s
        | none => s
    else s.keyUp key

def processUnicode (chr : UInt32) (s : Injected) : Injected :=
  match charOf chr with
  | some c =>
    if viaClipboard h then inputTextViaClipboardServer d c.toString s
    else keySequence c.toString s
  | none => s

def processSeq (seq : String) (s : Injected) : Injected :=
  if viaClipboard h then inputTextViaClipboardServer d seq s else keySequence seq s

def recordPressedKey (recordKey : KeysDown) (down : Bool) (s : Injected) : Injected :=
  if down then { s with keysDown := s.keysDown.insert recordKey }
  else { s with keysDown := s.keysDown.filter (· ≠ recordKey) }

def isFunctionKey (ck : Int) : Bool := ck = ControlKey.ctrlAltDel || ck = ControlKey.lockScreen

def legacyKeyboardMode (evt : Event) (s : Injected) : Injected :=
  let (s, toRelease) := syncModifiers h d evt s
  let shifted := if h.os = .linux then releaseShiftForCharInput d s else s
  match evt.union with
  | some (.controlKey ck) =>
    -- the keys to let go are forgotten
    if isFunctionKey ck then s
    else
      releaseKeys toRelease (processControlKey d ck evt.down
        (recordPressedKey (.enigoKey (recordControlKey ck)) evt.down s))
  | some (.chr chr) =>
    releaseKeys toRelease (processChr h d chr evt.down (evt.hasHotkeyModifiers h)
      (recordPressedKey (.enigoKey (recordChr chr)) evt.down shifted))
  | some (.unicode chr) => releaseKeys toRelease (processUnicode h d chr shifted)
  | some (.seq seq) => releaseKeys toRelease (processSeq h d seq s)
  | none => releaseKeys toRelease s

end

/-! ## Letting go -/

def releaseRecordKey (recordKey : KeysDown) (s : Injected) : Injected :=
  match recordKey.toKey with
  | some key => s.keyUp key
  | none => s

/-- `fix_key_down_timeout`, given which records are older than six minutes. -/
def fixKeyDownTimeout (expired : KeysDown → Bool) (force : Bool) (s : Injected) : Injected :=
  s.keysDown.foldl (fun s r =>
    if force || expired r then releaseRecordKey r (recordPressedKey r false s) else s) s

/-! ## Records -/

/-- The records of `KEY_MAP` read back as the keys they were made of. -/
theorem recordKeyToKey_controlKey {ck : Int} {key : Key}
    (hkey : controlKeyValueToKey ck = some key) :
    recordKeyToKey (recordControlKey ck) = some key := by
  have hmem : (ck, key) ∈ keyMap := by
    obtain ⟨l, r, hsplit, _⟩ := List.lookup_eq_some_iff.mp hkey
    rw [hsplit]
    simp
  have hall : ∀ e ∈ keyMap, 0 ≤ e.1 ∧ e.1 < keyCharStart := by decide
  obtain ⟨hpos, hlt⟩ := hall _ hmem
  have hcast : ck % 2 ^ 64 = ck := by
    unfold keyCharStart at hlt
    omega
  have hval : ((recordControlKey ck : Nat) : Int) = ck := by
    unfold recordControlKey
    rw [hcast]
    exact Int.toNat_of_nonneg hpos
  have hsmall : recordControlKey ck < keyCharStart := by
    omega
  unfold recordKeyToKey
  rw [if_pos hsmall, hval, hkey]

theorem recordKeyToKey_chr (chr : UInt32) :
    recordKeyToKey (recordChr chr) = some (charValueToKey chr) := by
  unfold recordKeyToKey recordChr
  rw [if_neg (by omega), Nat.add_sub_cancel, UInt32.ofNat_toNat]

/-- Every key that is down but those of `L` is written down. -/
def RecordedBut (L : List Key) (s : Injected) : Prop :=
  ∀ key, s.down key = true → key ∈ L ∨ ∃ r ∈ s.keysDown, r.toKey = some key

/-- No key is down that is not written down. -/
def Recorded (s : Injected) : Prop := RecordedBut [] s

theorem RecordedBut.mono {L M : List Key} {s : Injected} (hs : RecordedBut L s)
    (hsub : ∀ key ∈ L, key ∈ M) : RecordedBut M s := by
  intro key hkey
  exact (hs key hkey).imp_left (hsub key)

/-- Keys that go up need no record. -/
theorem RecordedBut.shrink {L : List Key} {s s' : Injected} (hs : RecordedBut L s)
    (hkeys : s'.keysDown = s.keysDown) (hdown : ∀ key, s'.down key = true → s.down key = true) :
    RecordedBut L s' := by
  intro key hkey
  rw [hkeys]
  exact hs key (hdown key hkey)

theorem down_keyUp {key k : Key} {s : Injected} (hk : (s.keyUp key).down k = true) :
    k ≠ key ∧ s.down k = true := by
  unfold Injected.keyUp at hk
  dsimp only at hk
  by_cases heq : k = key
  · rw [heq, Function.update_self] at hk
    cases hk
  · rw [Function.update_of_ne heq] at hk
    exact ⟨heq, hk⟩

theorem down_press {d : Device} {key k : Key} {s : Injected} (hk : (d.press key s).down k = true) :
    k = key ∨ s.down k = true := by
  unfold Device.press at hk
  split at hk
  · dsimp only at hk
    by_cases heq : k = key
    · exact Or.inl heq
    · rw [Function.update_of_ne heq] at hk
      exact Or.inr hk
  · exact Or.inr hk

theorem keysDown_press (d : Device) (key : Key) (s : Injected) :
    (d.press key s).keysDown = s.keysDown := by
  unfold Device.press
  split
  · rfl
  · rfl

theorem RecordedBut.press {L : List Key} {s : Injected} (hs : RecordedBut L s) (d : Device)
    {key : Key} (hkey : key ∈ L ∨ ∃ r ∈ s.keysDown, r.toKey = some key) :
    RecordedBut L (d.press key s) := by
  intro k hk
  rw [keysDown_press]
  rcases down_press hk with rfl | hk
  · exact hkey
  · exact hs k hk

theorem RecordedBut.keyUp {L : List Key} {s : Injected} (hs : RecordedBut L s) (key : Key) :
    RecordedBut L (s.keyUp key) := hs.shrink rfl fun _ hk => (down_keyUp hk).2

theorem RecordedBut.insert {L : List Key} {s : Injected} (hs : RecordedBut L s) (r : KeysDown) :
    RecordedBut L (recordPressedKey r true s) := by
  intro key hkey
  refine (hs key hkey).imp_right fun ⟨r', hr', hto⟩ => ⟨r', ?_, hto⟩
  exact List.mem_insert_of_mem hr'

theorem mem_insert_self (r : KeysDown) (s : Injected) :
    r ∈ (recordPressedKey r true s).keysDown := List.mem_insert_self

/-- Striking out a record whose key goes up. -/
theorem RecordedBut.strike {L : List Key} {s : Injected} (hs : RecordedBut L s) {r : KeysDown}
    {key : Key} (hto : ∀ k, r.toKey = some k → k = key) :
    RecordedBut L ((recordPressedKey r false s).keyUp key) := by
  intro k hk
  obtain ⟨hne, hk⟩ := down_keyUp hk
  refine (hs k hk).imp_right fun ⟨r', hr', hto'⟩ => ⟨r', ?_, hto'⟩
  refine List.mem_filter.mpr ⟨hr', decide_eq_true fun heq => ?_⟩
  rw [heq] at hto'
  exact hne (hto k hto')

/-- The key of the record is up, or written down otherwise, too. -/
def Covered (r : KeysDown) (s : Injected) : Prop :=
  ∀ key, r.toKey = some key → s.down key = true → ∃ r' ∈ s.keysDown, r' ≠ r ∧ r'.toKey = some key

/-- Striking out a record that is covered, and none other, leaves every key recorded. -/
theorem recorded_strike_iff {s : Injected} (hs : Recorded s) (r : KeysDown) :
    Recorded (recordPressedKey r false s) ↔ Covered r s := by
  constructor
  · intro hafter key _ hdown
    obtain hno | ⟨r', hr', hto'⟩ := hafter key hdown
    · cases hno
    · obtain ⟨hr', hne⟩ := List.mem_filter.mp hr'
      exact ⟨r', hr', of_decide_eq_true hne, hto'⟩
  · intro hcovered key hdown
    obtain hno | ⟨r', hr', hto'⟩ := hs key hdown
    · cases hno
    · refine Or.inr ?_
      by_cases heq : r' = r
      · obtain ⟨r'', hr'', hne, hto''⟩ := hcovered key (heq ▸ hto') hdown
        exact ⟨r'', List.mem_filter.mpr ⟨hr'', decide_eq_true hne⟩, hto''⟩
      · exact ⟨r', List.mem_filter.mpr ⟨hr', decide_eq_true heq⟩, hto'⟩

/-! ## Letting go -/

theorem Recorded.release {s : Injected} (hs : Recorded s) (r : KeysDown) :
    Recorded (releaseRecordKey r (recordPressedKey r false s)) := by
  unfold releaseRecordKey
  split
  · rename_i key hto
    refine hs.strike fun k hk => ?_
    rw [hto] at hk
    exact (Option.some.inj hk).symm
  · rename_i hto
    refine (recorded_strike_iff hs r).mpr fun key hkey => ?_
    rw [hto] at hkey
    cases hkey

theorem Recorded.fixKeyDownTimeout {s : Injected} (hs : Recorded s) (expired : KeysDown → Bool)
    (force : Bool) : Recorded (Enigo.fixKeyDownTimeout expired force s) := by
  unfold Enigo.fixKeyDownTimeout
  generalize s.keysDown = rs
  induction rs generalizing s with
  | nil => exact hs
  | cons r rs ih =>
    rw [List.foldl_cons]
    refine ih ?_
    split
    · exact hs.release r
    · exact hs

theorem down_releaseRecordKey (r : KeysDown) (s : Injected) (key : Key) :
    (releaseRecordKey r s).down key = (s.down key && decide (r.toKey ≠ some key)) := by
  unfold releaseRecordKey
  split
  · rename_i k hto
    rw [hto]
    unfold Injected.keyUp
    dsimp only
    by_cases heq : key = k
    · rw [heq, Function.update_self]
      simp
    · rw [Function.update_of_ne heq]
      simp [Ne.symm heq]
  · rename_i hto
    rw [hto]
    simp

theorem down_fixKeyDownTimeout (expired : KeysDown → Bool) (s : Injected) (key : Key) :
    (fixKeyDownTimeout expired true s).down key =
      (s.down key && s.keysDown.all fun r => decide (r.toKey ≠ some key)) := by
  unfold fixKeyDownTimeout
  generalize s.keysDown = rs
  induction rs generalizing s with
  | nil => simp
  | cons r rs ih =>
    rw [List.foldl_cons, ih]
    simp only [Bool.true_or, if_true, down_releaseRecordKey, List.all_cons, Bool.and_assoc]
    rfl

/-- Everything can be let go exactly if every key that is down is written down. -/
theorem fixKeyDownTimeout_iff (expired : KeysDown → Bool) (s : Injected) :
    (∀ key, (fixKeyDownTimeout expired true s).down key = false) ↔ Recorded s := by
  simp only [down_fixKeyDownTimeout, Bool.and_eq_false_iff, List.all_eq_false,
    Recorded, RecordedBut, List.not_mem_nil, false_or, decide_eq_true_eq, not_not]
  constructor
  · intro hup key hdown
    rcases hup key with hno | hrec
    · rw [hdown] at hno
      cases hno
    · exact hrec
  · intro hrec key
    cases hdown : s.down key with
    | false => exact Or.inl rfl
    | true => exact Or.inr (hrec key hdown)

/-! ## What only lets keys go -/

/-- From `s` to `s'` keys were let go at most. -/
structure Shrinks (s s' : Injected) : Prop where
  keysDown : s'.keysDown = s.keysDown
  down : ∀ key, s'.down key = true → s.down key = true

theorem Shrinks.refl (s : Injected) : Shrinks s s := ⟨rfl, fun _ hk => hk⟩

theorem Shrinks.trans {s s' s'' : Injected} (h₁ : Shrinks s s') (h₂ : Shrinks s' s'') :
    Shrinks s s'' :=
  ⟨h₂.keysDown.trans h₁.keysDown, fun key hk => h₁.down key (h₂.down key hk)⟩

theorem Shrinks.keyUp (key : Key) (s : Injected) : Shrinks s (s.keyUp key) :=
  ⟨rfl, fun _ hk => (down_keyUp hk).2⟩

theorem RecordedBut.shrinks {L : List Key} {s s' : Injected} (hs : RecordedBut L s)
    (hshrink : Shrinks s s') : RecordedBut L s' := hs.shrink hshrink.keysDown hshrink.down

section

variable {h : Host} {d : Device} {evt : Event} {s : Injected}

theorem shrinks_fixModifier (modifiers : List Int) (key0 : Int) (key1 : Key) (s : Injected) :
    Shrinks s (fixModifier h d modifiers key0 key1 s) := by
  unfold fixModifier
  split
  · split
    · exact .refl s
    · exact .keyUp key1 s
  · exact .refl s

theorem shrinks_releaseUnpressedModifiers (evt : Event) (s : Injected) :
    Shrinks s (releaseUnpressedModifiers h d evt s) := by
  unfold releaseUnpressedModifiers fixModifiers
  generalize fixedModifiers = es
  induction es generalizing s with
  | nil => exact .refl s
  | cons e es ih =>
    rw [List.foldl_cons]
    refine Shrinks.trans ?_ (ih _)
    split
    · exact shrinks_fixModifier _ _ _ s
    · exact .refl s

theorem shrinks_releaseShift (s : Injected) : Shrinks s (releaseShiftForCharInput d s) := by
  have hif : ∀ (b : Bool) (key : Key) (s : Injected), Shrinks s (if b then s.keyUp key else s) := by
    intro b key s
    split
    · exact .keyUp key s
    · exact .refl s
  unfold releaseShiftForCharInput
  split
  · exact .refl s
  · exact (hif _ _ s).trans (hif _ _ _)

theorem shrinks_clipboard (text : String) (s : Injected) :
    Shrinks s (inputTextViaClipboardServer d text s) := by
  -- what it presses it also lets go
  have hup : ∀ (key k : Key), ((d.press key s).keyUp key).down k = true → s.down k = true := by
    intro key k hk
    obtain ⟨hne, hk⟩ := down_keyUp hk
    exact (down_press hk).resolve_left hne
  unfold inputTextViaClipboardServer
  split_ifs
  · exact .refl s
  · exact .refl s
  · exact .refl s
  · exact ⟨keysDown_press d _ s, hup .shift⟩
  · refine ⟨?_, fun k hk => ?_⟩
    · show (d.press _ (d.press _ s)).keysDown = _
      rw [keysDown_press, keysDown_press]
    · obtain ⟨hne, hk⟩ := down_keyUp hk
      obtain ⟨hne', hk⟩ := down_keyUp hk
      exact (down_press ((down_press hk).resolve_left hne')).resolve_left hne

theorem shrinks_keySequence (text : String) (s : Injected) : Shrinks s (keySequence text s) :=
  ⟨rfl, fun _ hk => hk⟩

/-! ## The modifiers of an event -/

/-- A round presses nothing, or the key of the modifier, which was not pressed. -/
theorem pressModifier_cases (r : Injected × List Key) (ck : Int) :
    (pressModifier h d r ck = r ∧ ∀ key, controlKeyValueToKey ck = some key →
      d.isPressed key r.1 = true ∨ h.os = .linux ∧ key = .alt ∧ isAltgrPressed r.1 = true) ∨
    ∃ key, controlKeyValueToKey ck = some key ∧
      pressModifier h d r ck = (d.press key r.1, r.2 ++ [key]) := by
  unfold pressModifier
  cases controlKeyValueToKey ck with
  | none =>
    refine Or.inl ⟨rfl, fun key hkey => ?_⟩
    cases hkey
  | some key =>
    dsimp only
    split_ifs with hpressed hskip
    · refine Or.inl ⟨rfl, fun k hk => ?_⟩
      cases hk
      exact Or.inl hpressed
    · refine Or.inl ⟨rfl, fun k hk => ?_⟩
      cases hk
      exact Or.inr hskip
    · exact Or.inr ⟨key, rfl, rfl⟩

theorem recordedBut_pressModifiers (modifiers : List Int) {r : Injected × List Key}
    (hr : RecordedBut r.2 r.1) :
    RecordedBut (modifiers.foldl (pressModifier h d) r).2
      (modifiers.foldl (pressModifier h d) r).1 := by
  induction modifiers generalizing r with
  | nil => exact hr
  | cons ck cks ih =>
    rw [List.foldl_cons]
    refine ih ?_
    rcases pressModifier_cases (h := h) (d := d) r ck with ⟨hsame, _⟩ | ⟨key, _, hpress⟩
    · rw [hsame]
      exact hr
    · rw [hpress]
      refine (hr.mono fun k hk => ?_).press d (Or.inl ?_)
      · exact List.mem_append_left _ hk
      · exact List.mem_append_right _ (List.mem_singleton_self _)

theorem recordedBut_syncModifiers (hs : Recorded s) :
    RecordedBut (syncModifiers h d evt s).2 (syncModifiers h d evt s).1 := by
  have hfixed : Recorded (releaseUnpressedModifiers h d evt s) :=
    hs.shrinks (shrinks_releaseUnpressedModifiers evt s)
  unfold syncModifiers
  split_ifs
  · exact hfixed
  · exact recordedBut_pressModifiers evt.modifiers hfixed
  · exact hs

theorem syncModifiers_up (hup : evt.down = false) : syncModifiers h d evt s = (s, []) := by
  unfold syncModifiers
  rw [hup]
  rfl

theorem releaseKeys_nil (s : Injected) : releaseKeys [] s = s := rfl

theorem keysDown_releaseKeys (L : List Key) (s : Injected) :
    (releaseKeys L s).keysDown = s.keysDown := by
  unfold releaseKeys
  induction L generalizing s with
  | nil => rfl
  | cons key L ih => exact ih (s.keyUp key)

theorem down_releaseKeys {L : List Key} {s : Injected} {k : Key}
    (hk : (releaseKeys L s).down k = true) : k ∉ L ∧ s.down k = true := by
  unfold releaseKeys at hk
  induction L generalizing s with
  | nil => exact ⟨List.not_mem_nil, hk⟩
  | cons key L ih =>
    obtain ⟨hno, hk⟩ := ih hk
    obtain ⟨hne, hk⟩ := down_keyUp hk
    exact ⟨fun hmem => (List.mem_cons.mp hmem).elim hne hno, hk⟩

/-- What is let go at the end needs no record. -/
theorem recorded_releaseKeys {L : List Key} (hs : RecordedBut L s) :
    Recorded (releaseKeys L s) := by
  intro k hk
  obtain ⟨hno, hk⟩ := down_releaseKeys hk
  rw [keysDown_releaseKeys]
  exact Or.inr ((hs k hk).resolve_left hno)

/-! ## One event -/

variable (h d evt s)

/-- Every key that is down is written down, and the modifiers that were pressed for the event are
    up again. -/
structure Handled : Prop where
  recorded : Recorded (legacyKeyboardMode h d evt s)
  released : ∀ key ∈ (syncModifiers h d evt s).2, d.keyDown key = true →
    (legacyKeyboardMode h d evt s).down key = false

/-- The event has no modifier to press. -/
def PressesNothing : Prop :=
  ∀ ck ∈ evt.modifiers, ∀ key, controlKeyValueToKey ck = some key →
    d.isPressed key s = true ∨ (h.os = .linux ∧ key = .alt ∧ isAltgrPressed s = true) ∨
      d.keyDown key = false

/-- An up event of the character lets its key go. -/
def letsGo : Bool :=
  !(viaClipboard h && !isHotkeyModifierPressed d s) &&
    (h.os = .linux || evt.hasHotkeyModifiers h)

/-- `CtrlAltDel` and `LockScreen` have no modifier to press, and what an up event strikes out it
    lets go, unless it is up or written down otherwise, too. -/
def KeepsRecord : Prop :=
  match evt.union with
  | some (.controlKey ck) =>
    if isFunctionKey ck then
      evt.down = true → h.os ≠ .macos →
        PressesNothing h d evt (releaseUnpressedModifiers h d evt s)
    else
      evt.down = false → controlKeyValueToKey ck = none →
        Covered (.enigoKey (recordControlKey ck)) s
  | some (.chr chr) =>
    evt.down = false → letsGo h d evt s = false → Covered (.enigoKey (recordChr chr)) s
  | _ => True

variable {h d evt s}

theorem handled_of_releaseKeys {s' : Injected}
    (heq : legacyKeyboardMode h d evt s = releaseKeys (syncModifiers h d evt s).2 s')
    (hs' : RecordedBut (syncModifiers h d evt s).2 s') : Handled h d evt s := by
  refine ⟨?_, fun key hkey _ => ?_⟩
  · rw [heq]
    exact recorded_releaseKeys hs'
  · rw [heq, ← Bool.not_eq_true]
    intro hdown
    exact (down_releaseKeys hdown).1 hkey

/-- Where nothing was pressed for the event, only the records matter. -/
theorem handled_up_iff (hup : evt.down = false) :
    Handled h d evt s ↔ Recorded (legacyKeyboardMode h d evt s) := by
  refine ⟨fun hh => hh.recorded, fun hrec => ⟨hrec, fun key hkey => ?_⟩⟩
  rw [syncModifiers_up hup] at hkey
  cases hkey

/-! ### Control keys -/

theorem recordedBut_controlKey_down {L : List Key} {ck : Int} (hs : RecordedBut L s) :
    RecordedBut L (processControlKey d ck true
      (recordPressedKey (.enigoKey (recordControlKey ck)) true s)) := by
  have hrec := hs.insert (.enigoKey (recordControlKey ck))
  unfold processControlKey
  split
  · rename_i key hkey
    exact hrec.press d (Or.inr ⟨_, mem_insert_self _ s, recordKeyToKey_controlKey hkey⟩)
  · exact hrec

theorem recorded_controlKey_up_iff {ck : Int} (hs : Recorded s) :
    Recorded (processControlKey d ck false
      (recordPressedKey (.enigoKey (recordControlKey ck)) false s)) ↔
      (controlKeyValueToKey ck = none → Covered (.enigoKey (recordControlKey ck)) s) := by
  unfold processControlKey
  split
  · rename_i key hkey
    refine iff_of_true (hs.strike fun k hk => ?_) fun hnone => ?_
    · exact Option.some.inj (hk.symm.trans (recordKeyToKey_controlKey hkey))
    · rw [hkey] at hnone
      cases hnone
  · rename_i hnone
    rw [recorded_strike_iff hs]
    exact ⟨fun hcovered _ => hcovered, fun hcovered => hcovered hnone⟩

theorem legacy_controlKey {ck : Int} (hunion : evt.union = some (.controlKey ck))
    (hf : isFunctionKey ck = false) :
    legacyKeyboardMode h d evt s = releaseKeys (syncModifiers h d evt s).2
      (processControlKey d ck evt.down (recordPressedKey (.enigoKey (recordControlKey ck)) evt.down
        (syncModifiers h d evt s).1)) := by
  unfold legacyKeyboardMode
  simp only [hunion, hf, Bool.false_eq_true, if_false]

theorem legacy_functionKey {ck : Int} (hunion : evt.union = some (.controlKey ck))
    (hf : isFunctionKey ck = true) :
    legacyKeyboardMode h d evt s = (syncModifiers h d evt s).1 := by
  unfold legacyKeyboardMode
  simp only [hunion, hf, if_true]

theorem press_of_fails {key : Key} (hfails : d.keyDown key = false) (s : Injected) :
    d.press key s = s := by
  unfold Device.press
  rw [hfails]
  rfl

theorem down_press_self {key : Key} (hok : d.keyDown key = true) (s : Injected) :
    (d.press key s).down key = true := by
  unfold Device.press
  rw [if_pos hok]
  exact Function.update_self _ _ _

theorem down_press_of_down {k : Key} (hk : s.down k = true) (key : Key) :
    (d.press key s).down k = true := by
  unfold Device.press
  split
  · dsimp only
    by_cases heq : k = key
    · rw [heq]
      exact Function.update_self _ _ _
    · rw [Function.update_of_ne heq]
      exact hk
  · exact hk

/-- Keys that were pressed for the event stay so while the others are. -/
theorem pressModifiers_keeps (modifiers : List Int) {r : Injected × List Key} {key : Key}
    (hmem : key ∈ r.2) (hdown : r.1.down key = true) :
    key ∈ (modifiers.foldl (pressModifier h d) r).2 ∧
      (modifiers.foldl (pressModifier h d) r).1.down key = true := by
  induction modifiers generalizing r with
  | nil => exact ⟨hmem, hdown⟩
  | cons ck cks ih =>
    rw [List.foldl_cons]
    rcases pressModifier_cases (h := h) (d := d) r ck with ⟨hsame, _⟩ | ⟨k, _, hpress⟩
    · rw [hsame]
      exact ih hmem hdown
    · rw [hpress]
      exact ih (List.mem_append_left _ hmem) (down_press_of_down hdown k)

/-- None of the modifiers is pressed, if those that could be are found up. -/
theorem pressesNothing_of_up (modifiers : List Int) (L : List Key)
    (hup : ∀ key ∈ (modifiers.foldl (pressModifier h d) (s, L)).2, d.keyDown key = true →
      (modifiers.foldl (pressModifier h d) (s, L)).1.down key = false) :
    ∀ ck ∈ modifiers, ∀ key, controlKeyValueToKey ck = some key →
      d.isPressed key s = true ∨ (h.os = .linux ∧ key = .alt ∧ isAltgrPressed s = true) ∨
        d.keyDown key = false := by
  induction modifiers generalizing L with
  | nil =>
    intro ck hck
    cases hck
  | cons ck cks ih =>
    rw [List.foldl_cons] at hup
    rcases pressModifier_cases (h := h) (d := d) (s, L) ck with ⟨hsame, hcase⟩ | ⟨k, hk, hpress⟩
    · rw [hsame] at hup
      intro ck' hck' key hkey
      rcases List.mem_cons.mp hck' with rfl | hck'
      · exact (hcase key hkey).imp_right Or.inl
      · exact ih L hup ck' hck' key hkey
    · rw [hpress] at hup
      have hfails : d.keyDown k = false := by
        rw [← Bool.not_eq_true]
        intro hok
        -- it would stay down to the end
        obtain ⟨hmem, hdown⟩ := pressModifiers_keeps (h := h) (d := d) cks
          (r := (d.press k s, L ++ [k])) (List.mem_append_right _ (List.mem_singleton_self k))
          (down_press_self hok s)
        rw [hup k hmem hok] at hdown
        cases hdown
      rw [press_of_fails hfails] at hup
      intro ck' hck' key hkey
      rcases List.mem_cons.mp hck' with rfl | hck'
      · rw [hk] at hkey
        cases hkey
        exact Or.inr (Or.inr hfails)
      · exact ih _ hup ck' hck' key hkey

theorem up_of_pressesNothing (modifiers : List Int) {L : List Key}
    (hL : ∀ key ∈ L, d.keyDown key = false)
    (hnothing : ∀ ck ∈ modifiers, ∀ key, controlKeyValueToKey ck = some key →
      d.isPressed key s = true ∨ (h.os = .linux ∧ key = .alt ∧ isAltgrPressed s = true) ∨
        d.keyDown key = false) :
    (modifiers.foldl (pressModifier h d) (s, L)).1 = s ∧
      ∀ key ∈ (modifiers.foldl (pressModifier h d) (s, L)).2, d.keyDown key = false := by
  induction modifiers generalizing L with
  | nil => exact ⟨rfl, hL⟩
  | cons ck cks ih =>
    have hround : ∃ L', pressModifier h d (s, L) ck = (s, L') ∧
        ∀ key ∈ L', d.keyDown key = false := by
      unfold pressModifier
      cases hkey : controlKeyValueToKey ck with
      | none => exact ⟨L, rfl, hL⟩
      | some key =>
        have hcase := hnothing ck List.mem_cons_self key hkey
        dsimp only
        split_ifs with hpressed hskip
        · exact ⟨L, rfl, hL⟩
        · exact ⟨L, rfl, hL⟩
        · have hfails := (hcase.resolve_left hpressed).resolve_left hskip
          rw [press_of_fails hfails]
          refine ⟨_, rfl, fun k hk => ?_⟩
          rcases List.mem_append.mp hk with hk | hk
          · exact hL k hk
          · rw [List.mem_singleton.mp hk]
            exact hfails
    obtain ⟨L', hsame, hL'⟩ := hround
    rw [List.foldl_cons, hsame]
    exact ih hL' fun ck' hck' => hnothing ck' (List.mem_cons_of_mem _ hck')

/-- The early return is harmless if there was nothing to press. -/
theorem handled_functionKey_iff {ck : Int} (hs : Recorded s)
    (hunion : evt.union = some (.controlKey ck)) (hf : isFunctionKey ck = true) :
    Handled h d evt s ↔ (evt.down = true → h.os ≠ .macos →
      PressesNothing h d evt (releaseUnpressedModifiers h d evt s)) := by
  have hlegacy := legacy_functionKey (h := h) (d := d) (s := s) hunion hf
  have hfixed : Recorded (releaseUnpressedModifiers h d evt s) :=
    hs.shrinks (shrinks_releaseUnpressedModifiers evt s)
  by_cases hdown : evt.down = true
  · by_cases hmac : h.os = .macos
    · have hsync : syncModifiers h d evt s = (releaseUnpressedModifiers h d evt s, []) := by
        unfold syncModifiers
        rw [if_pos hdown, if_pos hmac]
      refine iff_of_true ⟨?_, fun key hkey => ?_⟩ fun _ hno => absurd hmac hno
      · rw [hlegacy, hsync]
        exact hfixed
      · rw [hsync] at hkey
        cases hkey
    · have hsync : syncModifiers h d evt s =
          pressModifiers h d evt (releaseUnpressedModifiers h d evt s) := by
        unfold syncModifiers
        rw [if_pos hdown, if_neg hmac]
      constructor
      · rintro ⟨_, hreleased⟩ _ _
        rw [hlegacy, hsync] at hreleased
        exact pressesNothing_of_up evt.modifiers [] hreleased
      · intro hnothing
        obtain ⟨hsame, hfails⟩ := up_of_pressesNothing (L := []) evt.modifiers (by simp)
          (hnothing hdown hmac)
        refine ⟨?_, fun key hkey hok => ?_⟩
        · rw [hlegacy, hsync]
          unfold pressModifiers
          rw [hsame]
          exact hfixed
        · rw [hsync] at hkey
          rw [hfails key hkey] at hok
          cases hok
  · have hup : evt.down = false := Bool.eq_false_iff.mpr hdown
    refine iff_of_true ?_ fun hyes => absurd hyes hdown
    rw [handled_up_iff hup, hlegacy, syncModifiers_up hup]
    exact hs

/-! ### Characters -/

/-- `release_shift_for_char_input` where there is one. -/
def shifted (h : Host) (d : Device) (s : Injected) : Injected :=
  if h.os = .linux then releaseShiftForCharInput d s else s

theorem shrinks_shifted (s : Injected) : Shrinks s (shifted h d s) := by
  unfold shifted
  split
  · exact shrinks_releaseShift s
  · exact .refl s

/-- Only the two Shift keys may have gone up. -/
theorem down_shifted {key : Key} (hkey : key ≠ .shift ∧ key ≠ .rightShift) (s : Injected) :
    (shifted h d s).down key = s.down key := by
  have hif : ∀ (b : Bool) (k : Key) (s : Injected), key ≠ k →
      (if b then s.keyUp k else s).down key = s.down key := by
    intro b k s hne
    split
    · exact Function.update_of_ne hne _ _
    · rfl
  unfold shifted releaseShiftForCharInput
  split
  · split
    · rfl
    · exact (hif _ _ _ hkey.2).trans (hif _ _ s hkey.1)
  · rfl

theorem isHotkeyModifierPressed_congr {s s' : Injected}
    (hsame : ∀ key, key ≠ .shift ∧ key ≠ .rightShift → s'.down key = s.down key) :
    isHotkeyModifierPressed d s' = isHotkeyModifierPressed d s := by
  unfold isHotkeyModifierPressed Device.getModifierState Device.getKeyState
  dsimp only
  rw [hsame .control (by decide), hsame .rightControl (by decide), hsame .alt (by decide),
    hsame .rightAlt (by decide), hsame .metaKey (by decide), hsame .rWin (by decide)]

theorem legacy_chr {chr : UInt32} (hunion : evt.union = some (.chr chr)) :
    legacyKeyboardMode h d evt s = releaseKeys (syncModifiers h d evt s).2
      (processChr h d chr evt.down (evt.hasHotkeyModifiers h)
        (recordPressedKey (.enigoKey (recordChr chr)) evt.down
          (shifted h d (syncModifiers h d evt s).1))) := by
  unfold legacyKeyboardMode
  simp only [hunion]
  rfl

theorem recordedBut_processChr_down {L : List Key} {chr : UInt32} (hotkey : Bool)
    (hs : RecordedBut L s) (hmem : .enigoKey (recordChr chr) ∈ s.keysDown) :
    RecordedBut L (processChr h d chr true hotkey s) := by
  unfold processChr
  simp only [if_true]
  split_ifs
  · split
    · exact hs.shrinks (shrinks_clipboard _ s)
    · exact hs
  · split
    · exact hs.shrinks (shrinks_keySequence _ s)
    · exact hs
  · exact hs.press d (Or.inr ⟨_, hmem, recordKeyToKey_chr chr⟩)
  · split
    · exact hs.shrinks (shrinks_keySequence _ s)
    · exact hs
  · split
    · exact hs.shrinks (shrinks_keySequence _ s)
    · exact hs

theorem processChr_up (chr : UInt32) (hotkey : Bool) (s : Injected) :
    processChr h d chr false hotkey s =
      if !(viaClipboard h && !isHotkeyModifierPressed d s) && (h.os = .linux || hotkey) then
        s.keyUp (charValueToKey chr)
      else s := by
  unfold processChr
  simp only [Bool.false_eq_true, if_false]
  by_cases hclip : (viaClipboard h && !isHotkeyModifierPressed d s) = true
  · simp [hclip]
  · rw [if_neg hclip, Bool.eq_false_iff.mpr hclip]
    cases hotkey with
    | true => simp
    | false => by_cases hos : h.os = .linux <;> simp [hos]

theorem covered_congr {r : KeysDown} {s s' : Injected} (hkeys : s'.keysDown = s.keysDown)
    (hdown : ∀ key, r.toKey = some key → s'.down key = s.down key) :
    Covered r s' ↔ Covered r s := by
  unfold Covered
  rw [hkeys]
  constructor
  · intro hc key hto hk
    exact hc key hto ((hdown key hto).trans hk)
  · intro hc key hto hk
    exact hc key hto ((hdown key hto).symm.trans hk)

theorem handled_chr_iff {chr : UInt32} (hs : Recorded s) (hunion : evt.union = some (.chr chr)) :
    Handled h d evt s ↔ (evt.down = false → letsGo h d evt s = false →
      Covered (.enigoKey (recordChr chr)) s) := by
  have hlegacy := legacy_chr (h := h) (d := d) (s := s) hunion
  by_cases hdown : evt.down = true
  · refine iff_of_true ?_ fun hup => ?_
    · rw [hdown] at hlegacy
      refine handled_of_releaseKeys hlegacy ?_
      have hsync : RecordedBut (syncModifiers h d evt s).2 (syncModifiers h d evt s).1 :=
        recordedBut_syncModifiers hs
      exact recordedBut_processChr_down _ ((hsync.shrinks (shrinks_shifted _)).insert _)
        (mem_insert_self _ _)
    · rw [hdown] at hup
      cases hup
  · have hup : evt.down = false := Bool.eq_false_iff.mpr hdown
    rw [handled_up_iff hup, hlegacy, hup, syncModifiers_up hup, processChr_up]
    dsimp only
    have hgo : isHotkeyModifierPressed d
        (recordPressedKey (.enigoKey (recordChr chr)) false (shifted h d s)) =
        isHotkeyModifierPressed d s :=
      isHotkeyModifierPressed_congr fun key hkey => down_shifted hkey s
    rw [hgo]
    have hshifted : Recorded (shifted h d s) := hs.shrinks (shrinks_shifted s)
    by_cases hlets : letsGo h d evt s = true
    · unfold letsGo at hlets
      rw [if_pos hlets]
      refine iff_of_true (recorded_releaseKeys (hshifted.strike fun k hk => ?_)) fun _ hno => ?_
      · exact Option.some.inj (hk.symm.trans (recordKeyToKey_chr chr))
      · unfold letsGo at hno
        rw [hlets] at hno
        cases hno
    · unfold letsGo at hlets
      rw [if_neg hlets]
      have hcovered : Covered (.enigoKey (recordChr chr)) (shifted h d s) ↔
          Covered (.enigoKey (recordChr chr)) s := by
        refine covered_congr (shrinks_shifted s).keysDown fun key hto => down_shifted ?_ s
        cases (recordKeyToKey_chr chr).symm.trans hto
        exact ⟨by simp [charValueToKey], by simp [charValueToKey]⟩
      rw [releaseKeys_nil, recorded_strike_iff hshifted, hcovered]
      exact ⟨fun hc _ _ => hc, fun hc => hc rfl (Bool.eq_false_iff.mpr hlets)⟩

/-! ### Text -/

theorem handled_text {s' : Injected} (hs : Recorded s)
    (heq : legacyKeyboardMode h d evt s = releaseKeys (syncModifiers h d evt s).2 s')
    (hshrink : Shrinks (syncModifiers h d evt s).1 s') : Handled h d evt s :=
  handled_of_releaseKeys heq ((recordedBut_syncModifiers hs).shrinks hshrink)

theorem shrinks_processSeq (text : String) (s : Injected) : Shrinks s (processSeq h d text s) := by
  unfold processSeq
  split
  · exact shrinks_clipboard text s
  · exact shrinks_keySequence text s

theorem shrinks_processUnicode (chr : UInt32) (s : Injected) :
    Shrinks s (processUnicode h d chr s) := by
  unfold processUnicode
  split
  · exact shrinks_processSeq (h := h) (d := d) _ s
  · exact .refl s

/-- What it takes for an event to leave every key that is down written down. -/
theorem handled_iff (hs : Recorded s) : Handled h d evt s ↔ KeepsRecord h d evt s := by
  unfold KeepsRecord
  cases hunion : evt.union with
  | none =>
    refine iff_of_true (handled_text hs ?_ (.refl _)) trivial
    unfold legacyKeyboardMode
    simp only [hunion]
  | some u =>
    cases u with
    | controlKey ck =>
      dsimp only
      split
      · rename_i hf
        exact handled_functionKey_iff hs hunion hf
      · rename_i hf
        have hlegacy := legacy_controlKey (h := h) (d := d) (s := s) hunion
          (Bool.eq_false_iff.mpr hf)
        by_cases hdown : evt.down = true
        · rw [hdown] at hlegacy ⊢
          refine iff_of_true (handled_of_releaseKeys hlegacy ?_) fun hno => by cases hno
          exact recordedBut_controlKey_down (recordedBut_syncModifiers hs)
        · have hup : evt.down = false := Bool.eq_false_iff.mpr hdown
          rw [handled_up_iff hup, hlegacy, syncModifiers_up hup, hup, releaseKeys_nil,
            recorded_controlKey_up_iff hs]
          exact ⟨fun hc _ => hc, fun hc => hc rfl⟩
    | chr chr => exact handled_chr_iff hs hunion
    | unicode chr =>
      have hshrink : Shrinks (syncModifiers h d evt s).1
          (processUnicode h d chr (shifted h d (syncModifiers h d evt s).1)) :=
        (shrinks_shifted _).trans (shrinks_processUnicode chr _)
      refine iff_of_true (handled_text hs ?_ hshrink) trivial
      unfold legacyKeyboardMode
      simp only [hunion]
      rfl
    | seq seq =>
      have hshrink : Shrinks (syncModifiers h d evt s).1
          (processSeq h d seq (syncModifiers h d evt s).1) := shrinks_processSeq seq _
      refine iff_of_true (handled_text hs ?_ hshrink) trivial
      unfold legacyKeyboardMode
      simp only [hunion]

end

/-! ## Runs -/

/-- What happens to the injected keys: an event of the peer, under what the device does while it
    is handled, or a look for keys that have been down for too long. -/
inductive KeyboardStep where
  | legacyKeyboardMode (d : Device) (evt : Event)
  | fixKeyDownTimeout (expired : KeysDown → Bool) (force : Bool)

def keyboardStep (h : Host) (s : Injected) : KeyboardStep → Injected
  | .legacyKeyboardMode d evt => legacyKeyboardMode h d evt s
  | .fixKeyDownTimeout expired force => fixKeyDownTimeout expired force s

/-- After the step nothing would stay down if everything were let go, because every key that is
    down is written down; and the modifiers that were pressed for an event are up. -/
def Settles (h : Host) (s : Injected) (step : KeyboardStep) : Prop :=
  (match step with
    | .legacyKeyboardMode d evt => Handled h d evt s
    | .fixKeyDownTimeout _ _ => Recorded (keyboardStep h s step)) ∧
    ∀ expired key, (fixKeyDownTimeout expired true (keyboardStep h s step)).down key = false

/-- The condition on the step: that of `KeepsRecord`, on an event. -/
def Keeps (h : Host) (s : Injected) : KeyboardStep → Prop
  | .legacyKeyboardMode d evt => KeepsRecord h d evt s
  | .fixKeyDownTimeout _ _ => True

theorem settles_iff (h : Host) {s : Injected} (hs : Recorded s) (step : KeyboardStep) :
    Settles h s step ↔ Keeps h s step := by
  unfold Settles
  simp only [fixKeyDownTimeout_iff, forall_const]
  cases step with
  | legacyKeyboardMode d evt =>
    rw [show Keeps h s (.legacyKeyboardMode d evt) = KeepsRecord h d evt s from rfl,
      ← handled_iff hs]
    exact ⟨fun hh => hh.1, fun hh => ⟨hh, hh.recorded⟩⟩
  | fixKeyDownTimeout expired force =>
    have hrec : Recorded (keyboardStep h s (.fixKeyDownTimeout expired force)) :=
      hs.fixKeyDownTimeout expired force
    exact iff_of_true ⟨hrec, hrec⟩ trivial

theorem recorded_keyboardStep (h : Host) {s : Injected} (hs : Recorded s) (step : KeyboardStep)
    (hkeeps : Keeps h s step) : Recorded (keyboardStep h s step) := by
  obtain ⟨_, hup⟩ := (settles_iff h hs step).mpr hkeeps
  exact (fixKeyDownTimeout_iff (fun _ => false) _).mp (hup _)

/-- No key stays down over a run precisely as long as its events keep the record. -/
theorem stays_down_iff (h : Host) (recorded : List KeysDown) (steps : List KeyboardStep) :
    Along (keyboardStep h) (Settles h) { keysDown := recorded } steps ↔
      Along (keyboardStep h) (Keeps h) { keysDown := recorded } steps := by
  refine along_iff_along (fun s step hs => settles_iff h hs step)
    (fun s step hs hkeeps => recorded_keyboardStep h hs step hkeeps) fun key hdown => ?_
  cases hdown

/-- A device that does what it is told, with no key held on its own keyboard. -/
def idle : Device := { keyDown := fun _ => true, held := fun _ => false }

def windowsHost : Host := { os := .windows, toUppercase := id }

/-- `CtrlAltDel`, sent with the modifiers of its name, leaves Control and Alt down, and so does
    Ctrl+C if Control is let go before `c`. -/
theorem control_stays_down :
    let cad : List KeyboardStep := [.legacyKeyboardMode idle
      { down := true, union := some (.controlKey 100), modifiers := [4, 1] }]
    let c : List KeyboardStep := [
      .legacyKeyboardMode idle
        { down := true, union := some (.chr (UInt32.ofNat 99)), modifiers := [4] },
      .legacyKeyboardMode idle { down := false, union := some (.chr (UInt32.ofNat 99)) }]
    ¬ Along (keyboardStep windowsHost) (Settles windowsHost) {} cad ∧
      ¬ Along (keyboardStep windowsHost) (Settles windowsHost) {} c := by
  refine ⟨fun hall => ?_, fun hall => ?_⟩
  · have hup := hall.1.2 (fun _ => false) .control
    revert hup
    decide
  · have hup := hall.2.1.2 (fun _ => false) (.layout 'c')
    revert hup
    decide

end Enigo

end LuodaRemote
