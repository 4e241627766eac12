/-
  The keys of the two Wayland keyboards: the keycodes that `map_key` finds for them, and the keysyms
  of characters.

  Source: `KEY_MAP`, `KEY_MAP_LAYOUT`, `map_key`, `can_input_via_keysym` and `char_to_keysym` of
  `src/server/uinput.rs`; `Key` of `libs/enigo/src/lib.rs`. The keycodes are the kernel's, which
  `evdev::Key` names.
-/
import LuodaRemote.LegacyKeyboard

namespace LuodaRemote

namespace Wayland

/-! ## Keycodes -/

/-- `enigo::Key`, with the keys that legacy mode does not name. -/
inductive Key where
  | named (key : Enigo.Key)
  | command
  | super
  | windows
  | volumeUp
  | volumeDown
  | mute
deriving DecidableEq

namespace Evdev

@[simp] def keyLeftCtrl : ℕ := 29
@[simp] def keyLeftShift : ℕ := 42
@[simp] def keyRightShift : ℕ := 54
@[simp] def keyLeftAlt : ℕ := 56
@[simp] def keyRightCtrl : ℕ := 97
@[simp] def keyRightAlt : ℕ := 100
@[simp] def keyInsert : ℕ := 110
@[simp] def keyLeftMeta : ℕ := 125
@[simp] def keyRightMeta : ℕ := 126

end Evdev

open Evdev

/-- `KEY_MAP`. -/
def keyMap : List (Enigo.Key × ℕ) :=
  [(.alt, keyLeftAlt), (.backspace, 14), (.capsLock, 58), (.control, keyLeftCtrl), (.delete, 111),
    (.downArrow, 108), (.endKey, 107), (.escape, 1), (.f1, 59), (.f10, 68), (.f11, 87),
    (.f12, 88), (.f2, 60), (.f3, 61), (.f4, 62), (.f5, 63), (.f6, 64), (.f7, 65), (.f8, 66),
    (.f9, 67), (.home, 102), (.leftArrow, 105), (.metaKey, keyLeftMeta), (.option, 357),
    (.pageDown, 109), (.pageUp, 104), (.returnKey, 28), (.rightArrow, 106),
    (.shift, keyLeftShift), (.space, 57), (.tab, 15), (.upArrow, 103), (.numpad0, 82),
    (.numpad1, 79), (.numpad2, 80), (.numpad3, 81), (.numpad4, 75), (.numpad5, 76),
    (.numpad6, 77), (.numpad7, 71), (.numpad8, 72), (.numpad9, 73), (.cancel, 223),
    (.clear, 355), (.alt, keyLeftAlt), (.pause, 119), (.kana, 90), (.hangul, 122), (.hanja, 123),
    (.select, 353), (.print, 210), (.snapshot, 99), (.insert, keyInsert), (.help, 138),
    (.sleep, 142), (.scroll, 70), (.numLock, 69), (.rWin, keyRightMeta), (.apps, 127),
    (.multiply, 55), (.add, 78), (.subtract, 74), (.decimal, 121), (.divide, 98), (.equals, 117),
    (.numpadEnter, 96), (.rightAlt, keyRightAlt), (.rightControl, keyRightCtrl),
    (.rightShift, keyRightShift)]

/-- `KEY_MAP_LAYOUT`, with whether the key is typed with Shift. -/
def keyMapLayout : List (Char × ℕ × Bool) :=
  [('a', 30, false), ('b', 48, false), ('c', 46, false), ('d', 32, false), ('e', 18, false),
    ('f', 33, false), ('g', 34, false), ('h', 35, false), ('i', 23, false), ('j', 36, false),
    ('k', 37, false), ('l', 38, false), ('m', 50, false), ('n', 49, false), ('o', 24, false),
    ('p', 25, false), ('q', 16, false), ('r', 19, false), ('s', 31, false), ('t', 20, false),
    ('u', 22, false), ('v', 47, false), ('w', 17, false), ('x', 45, false), ('y', 21, false),
    ('z', 44, false), ('0', 11, false), ('1', 2, false), ('2', 3, false), ('3', 4, false),
    ('4', 5, false), ('5', 6, false), ('6', 7, false), ('7', 8, false), ('8', 9, false),
    ('9', 10, false), (Char.ofNat 96, 41, false), ('-', 12, false), ('=', 13, false),
    ('[', 26, false), (']', 27, false), (Char.ofNat 92, 43, false), (',', 51, false),
    ('.', 52, false), ('/', 53, false), (';', 39, false), (Char.ofNat 39, 40, false),
    (' ', 57, false),
    ('A', 30, true), ('B', 48, true), ('C', 46, true), ('D', 32, true), ('E', 18, true),
    ('F', 33, true), ('G', 34, true), ('H', 35, true), ('I', 23, true), ('J', 36, true),
    ('K', 37, true), ('L', 38, true), ('M', 50, true), ('N', 49, true), ('O', 24, true),
    ('P', 25, true), ('Q', 16, true), ('R', 19, true), ('S', 31, true), ('T', 20, true),
    ('U', 22, true), ('V', 47, true), ('W', 17, true), ('X', 45, true), ('Y', 21, true),
    ('Z', 44, true), (')', 11, true), ('!', 2, true), ('@', 3, true), ('#', 4, true),
    ('$', 5, true), ('%', 6, true), ('^', 7, true), ('&', 8, true), ('*', 9, true),
    ('(', 10, true), ('~', 41, true), ('_', 12, true), ('+', 13, true), (Char.ofNat 123, 26, true),
    (Char.ofNat 125, 27, true), ('|', 43, true), ('<', 51, true), ('>', 52, true), ('?', 53, true),
    (':', 39, true), (Char.ofNat 34, 40, true)]

/-- A key is a character or another one. -/
theorem Key.layout_or (key : Key) :
    (∃ c, key = .named (.layout c)) ∨ ∀ c, key ≠ .named (.layout c) := by
  rw [← not_exists]
  exact Classical.em _

theorem Key.raw_or (key : Key) :
    (∃ code, key = .named (.raw code)) ∨ ∀ code, key ≠ .named (.raw code) := by
  rw [← not_exists]
  exact Classical.em _

def mapKey : Key → Option (ℕ × Bool)
  | .named key =>
    match keyMap.lookup key with
    | some code => some (code, false)
    | none =>
      match key with
      | .layout c => keyMapLayout.lookup c
      | _ => none
  | _ => none

/-! ## Modifiers -/

def modifierCodes : List ℕ :=
  [keyLeftShift, keyRightShift, keyLeftCtrl, keyRightCtrl, keyLeftAlt, keyRightAlt, keyLeftMeta,
    keyRightMeta]

/-- The keycode of a modifier, by its name or by its X11 code. -/
def marked : Key → Option ℕ
  | .named .shift => some keyLeftShift
  | .named .rightShift => some keyRightShift
  | .named .control => some keyLeftCtrl
  | .named .rightControl => some keyRightCtrl
  | .named .alt => some keyLeftAlt
  | .named .rightAlt => some keyRightAlt
  | .named .metaKey | .super | .windows | .command => some keyLeftMeta
  | .named .rWin => some keyRightMeta
  | .named (.raw code) => if 8 ≤ code then some (code - 8) else none
  | _ => none

theorem forall_modifierCodes {P : ℕ → Prop} :
    (∀ code ∈ modifierCodes, P code) ↔
      P 42 ∧ P 54 ∧ P 29 ∧ P 97 ∧ P 56 ∧ P 100 ∧ P 125 ∧ P 126 := by
  simp [modifierCodes]

theorem marked_raw {code c : ℕ} : marked (.named (.raw code)) = some c ↔ code = c + 8 := by
  rw [marked]
  split_ifs with h8
  · rw [Option.some.injEq]
    omega
  · simp
    omega

theorem marked_of_mem_keyMap :
    ∀ entry ∈ keyMap, entry.2 ∈ modifierCodes → marked (.named entry.1) = some entry.2 := by
  decide

theorem lookup_of_marked {key : Enigo.Key} {code : ℕ} (hraw : ∀ c, key ≠ .raw c)
    (h : marked (.named key) = some code) : keyMap.lookup key = some code := by
  unfold marked at h
  split at h
  case h_12 heq => exact absurd (Key.named.inj heq) (hraw _)
  case h_13 => cases h
  all_goals
    rename_i heq
    cases heq
  all_goals
    cases h
    decide

/-- The name of a modifier is that of its keycode in `KEY_MAP`. -/
theorem marked_iff_lookup {key : Enigo.Key} (hraw : ∀ c, key ≠ .raw c) :
    ∀ code ∈ modifierCodes, marked (.named key) = some code ↔ keyMap.lookup key = some code := by
  intro code hcode
  refine ⟨lookup_of_marked hraw, fun h => ?_⟩
  obtain ⟨l, r, hsplit, _⟩ := List.lookup_eq_some_iff.mp h
  have hmem : (key, code) ∈ keyMap := hsplit ▸ by simp
  exact marked_of_mem_keyMap _ hmem hcode

theorem mapKey_named {key : Enigo.Key} (hlayout : ∀ c, key ≠ .layout c) :
    mapKey (.named key) = (keyMap.lookup key).map fun code => (code, false) := by
  unfold mapKey
  dsimp only
  cases keyMap.lookup key with
  | some code => rfl
  | none =>
    cases key with
    | layout c => exact absurd rfl (hlayout c)
    | _ => rfl

/-! ## Keysyms -/

/-- `can_input_via_keysym`. -/
def canInputViaKeysym (c : Char) (keysym : ℕ) : Bool :=
  0x20 ≤ c.toNat && c.toNat ≤ 0x7E && keysym ≠ 0

/-- `char_to_keysym`. -/
def charToKeysym (c : Char) : ℕ :=
  let codepoint := c.toNat
  if codepoint = 0 then 0
  else if 0x20 ≤ codepoint ∧ codepoint ≤ 0x7E then codepoint
  else if 0xA0 ≤ codepoint ∧ codepoint ≤ 0xFF then codepoint
  else 0x01000000 ||| codepoint

/-! ## Characters with a key -/

theorem mapKey_layout (c : Char) : mapKey (.named (.layout c)) = keyMapLayout.lookup c := rfl

theorem canInputViaKeysym_of_mem :
    keyMapLayout.all fun entry => canInputViaKeysym entry.1 (charToKeysym entry.1) := by
  decide

theorem lookup_printable :
    (List.range 95).all fun n => (keyMapLayout.lookup (Char.ofNat (n + 32))).isSome := by
  decide +kernel

theorem not_modifier_of_mem :
    keyMapLayout.all fun entry => entry.2.1 ∉ modifierCodes := by
  decide

theorem mem_of_mapKey {c : Char} {k : ℕ × Bool} (h : mapKey (.named (.layout c)) = some k) :
    (c, k) ∈ keyMapLayout := by
  rw [mapKey_layout] at h
  obtain ⟨l, r, hsplit, _⟩ := List.lookup_eq_some_iff.mp h
  exact hsplit ▸ by simp

/-- The characters that go by keysym are those that have a key. -/
theorem mapKey_layout_isSome (c : Char) :
    (mapKey (.named (.layout c))).isSome = canInputViaKeysym c (charToKeysym c) := by
  rw [Bool.eq_iff_iff]
  constructor
  · intro h
    obtain ⟨k, hk⟩ := Option.isSome_iff_exists.mp h
    exact List.all_eq_true.mp canInputViaKeysym_of_mem _ (mem_of_mapKey hk)
  · intro h
    simp only [canInputViaKeysym, Bool.and_eq_true, decide_eq_true_eq] at h
    have hmem : c.toNat - 32 ∈ List.range 95 := by
      rw [List.mem_range]
      omega
    have hfound := List.all_eq_true.mp lookup_printable _ hmem
    rwa [Nat.sub_add_cancel h.1.1, Char.ofNat_toNat] at hfound

theorem canInput_of_mapKey {c : Char} {k : ℕ × Bool} (h : mapKey (.named (.layout c)) = some k) :
    canInputViaKeysym c (charToKeysym c) := by
  rw [← mapKey_layout_isSome, h]
  rfl

theorem not_modifier {c : Char} {code : ℕ} {isShift : Bool}
    (h : mapKey (.named (.layout c)) = some (code, isShift)) : code ∉ modifierCodes := by
  simpa using List.all_eq_true.mp not_modifier_of_mem _ (mem_of_mapKey h)

end Wayland

end LuodaRemote
