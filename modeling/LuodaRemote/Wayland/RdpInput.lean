/-
  The keyboard of the remote desktop portal (`RdpInputKeyboard` of `src/server/rdp_input.rs`), and
  what it knows of the modifiers.

  The portal cannot be asked whether a key is down, so the keyboard writes down what it has sent.
  It writes down keys and sends keycodes, and the two are not the same: the raw code of the right
  meta key is sent as the left one, `Super`, `Windows` and `Command` are written down as the left
  meta key and not sent at all, and a character that is pasted is sent with a Shift that is not
  written down. `tracked_iff` says that this is all that makes the state wrong.

  A call to the portal or to the clipboard may fail; what is proved is about runs in which none
  does.
-/
import LuodaRemote.Wayland.Keys
import LuodaRemote.Lib.Calls
import LuodaRemote.Lib.Run

namespace LuodaRemote

open Lib

namespace Wayland

open Evdev

/-- What is asked of the portal and of the clipboard. -/
inductive Request where
  | keycode (code : ℤ) (down : Bool)
  | keysym (keysym : ℕ) (down : Bool)
  | setClipboard (text : String)
deriving DecidableEq

/-! ## Modifiers -/

structure ModifierState where
  shiftLeft : Bool := false
  shiftRight : Bool := false
  ctrlLeft : Bool := false
  ctrlRight : Bool := false
  altLeft : Bool := false
  altRight : Bool := false
  metaLeft : Bool := false
  metaRight : Bool := false

namespace ModifierState

/-- Between evdev codes and X11 codes. -/
@[simp] def evdevOffset : ℕ := 8

def update (m : ModifierState) (key : Key) (down : Bool) : ModifierState :=
  match key with
  | .named .shift => { m with shiftLeft := down }
  | .named .rightShift => { m with shiftRight := down }
  | .named .control => { m with ctrlLeft := down }
  | .named .rightControl => { m with ctrlRight := down }
  | .named .alt => { m with altLeft := down }
  | .named .rightAlt => { m with altRight := down }
  | .named .metaKey | .super | .windows | .command => { m with metaLeft := down }
  | .named .rWin => { m with metaRight := down }
  | .named (.raw code) =>
    if code = keyLeftShift + evdevOffset then { m with shiftLeft := down }
    else if code = keyRightShift + evdevOffset then { m with shiftRight := down }
    else if code = keyLeftCtrl + evdevOffset then { m with ctrlLeft := down }
    else if code = keyRightCtrl + evdevOffset then { m with ctrlRight := down }
    else if code = keyLeftAlt + evdevOffset then { m with altLeft := down }
    else if code = keyRightAlt + evdevOffset then { m with altRight := down }
    else if code = keyLeftMeta + evdevOffset then { m with metaLeft := down }
    else if code = keyRightMeta + evdevOffset then { m with metaRight := down }
    else m
  | _ => m

end ModifierState

/-! ## Calls to the portal -/

section Portal

variable (ok : Request → ℕ → Bool)

def notifyKeyboardKeycode (code : ℤ) (down : Bool) : Calls Request Bool :=
  .make ok (.keycode code down)

def sendKeysym (keysym : ℕ) (down : Bool) : Calls Request Bool := .make ok (.keysym keysym down)

/-- Pastes with Shift+Insert. -/
def inputTextViaClipboard (text : String) : Calls Request Unit := do
  if text = "" then return
  if !(← .make ok (.setClipboard text)) then return
  if !(← notifyKeyboardKeycode ok keyLeftShift true) then return
  if !(← notifyKeyboardKeycode ok keyInsert true) then
    -- the Shift is let go though nothing was pasted
    let _ ← notifyKeyboardKeycode ok keyLeftShift false
    return
  let _ ← notifyKeyboardKeycode ok keyInsert false
  let _ ← notifyKeyboardKeycode ok keyLeftShift false

def getRawEvdevKeycode (key : ℕ) : ℤ :=
  let key : ℤ := key - 8
  if key = 126 then 125 else key

/-- The first half of `handle_key`: Shift down first, then the key. -/
def pressKey (code : ℕ) (isShift : Bool) : Calls Request Bool := do
  if isShift then
    if !(← notifyKeyboardKeycode ok keyLeftShift true) then return false
  if !(← notifyKeyboardKeycode ok code true) then
    if isShift then
      let _ ← notifyKeyboardKeycode ok keyLeftShift false
    return false
  return true

/-- The second half: the key first, then Shift. -/
def releaseKey (code : ℕ) (isShift : Bool) : Calls Request Bool := do
  if !(← notifyKeyboardKeycode ok code false) then
    if isShift then
      let _ ← notifyKeyboardKeycode ok keyLeftShift false
    return false
  if isShift then
    if !(← notifyKeyboardKeycode ok keyLeftShift false) then return false
  return true

/-- `handle_key`. A key with no keycode is not an error. -/
def handleKey (down : Bool) : Key → Calls Request Bool
  | .named (.raw code) => notifyKeyboardKeycode ok (getRawEvdevKeycode code) down
  | key =>
    match mapKey key with
    | some (code, isShift) => if down then pressKey ok code isShift else releaseKey ok code isShift
    | none => return true

/-- A character, down and up. -/
def inputChar (c : Char) : Calls Request Unit := do
  if canInputViaKeysym c (charToKeysym c) then
    let _ ← sendKeysym ok (charToKeysym c) true
    let _ ← sendKeysym ok (charToKeysym c) false
  else inputTextViaClipboard ok (String.singleton c)

end Portal

/-! ## The keyboard -/

structure RdpInputKeyboard where
  modifierState : ModifierState := {}
  requests : CallLog Request := []

namespace RdpInputKeyboard

def withPortal {α : Type} (m : Calls Request α) (s : RdpInputKeyboard) : α × RdpInputKeyboard :=
  ((m s.requests).1, { s with requests := (m s.requests).2 })

def updateModifier (key : Key) (down : Bool) (s : RdpInputKeyboard) : RdpInputKeyboard :=
  { s with modifierState := s.modifierState.update key down }

def getKeyState (s : RdpInputKeyboard) : Key → Bool
  | .named .shift => s.modifierState.shiftLeft
  | .named .rightShift => s.modifierState.shiftRight
  | .named .control => s.modifierState.ctrlLeft
  | .named .rightControl => s.modifierState.ctrlRight
  | .named .alt => s.modifierState.altLeft
  | .named .rightAlt => s.modifierState.altRight
  | .named .metaKey | .super | .windows | .command => s.modifierState.metaLeft
  | .named .rWin => s.modifierState.metaRight
  | _ => false

variable (ok : Request → ℕ → Bool)

def keySequence (text : String) (s : RdpInputKeyboard) : RdpInputKeyboard :=
  (s.withPortal (text.toList.forM (inputChar ok))).2

def keyDown (key : Key) (s : RdpInputKeyboard) : Bool × RdpInputKeyboard :=
  match key with
  | .named (.layout chr) =>
    if canInputViaKeysym chr (charToKeysym chr) then
      s.withPortal (sendKeysym ok (charToKeysym chr) true)
    else (true, (s.withPortal (inputTextViaClipboard ok (String.singleton chr))).2)
  | key =>
    match s.withPortal (handleKey ok true key) with
    | (true, s) => (true, s.updateModifier key true)
    | (false, s) => (false, s)

/-- The modifier is written down as released before that is sent. -/
def keyUp (key : Key) (s : RdpInputKeyboard) : RdpInputKeyboard :=
  let s := s.updateModifier key false
  match key with
  | .named (.layout chr) =>
    if canInputViaKeysym chr (charToKeysym chr) then
      (s.withPortal (sendKeysym ok (charToKeysym chr) false)).2
    else s
  | key => (s.withPortal (handleKey ok false key)).2

def keyClick (key : Key) (s : RdpInputKeyboard) : RdpInputKeyboard :=
  match key with
  | .named (.layout chr) => (s.withPortal (inputChar ok chr)).2
  | key =>
    let s :=
      match s.withPortal (handleKey ok true key) with
      | (true, s) => s.updateModifier key true
      | (false, s) => s
    ((s.updateModifier key false).withPortal (handleKey ok false key)).2

inductive KeyCall where
  | keyDown (key : Key)
  | keyUp (key : Key)
  | keyClick (key : Key)
  | keySequence (text : String)

def step (s : RdpInputKeyboard) : KeyCall → RdpInputKeyboard
  | .keyDown key => (s.keyDown ok key).2
  | .keyUp key => s.keyUp ok key
  | .keyClick key => s.keyClick ok key
  | .keySequence text => s.keySequence ok text

/-! ## What is promised -/

/-- The modifiers that the state can be asked for, with their keycodes. -/
def modifiers : List (Key × ℕ) :=
  [(.named .shift, keyLeftShift), (.named .rightShift, keyRightShift),
    (.named .control, keyLeftCtrl), (.named .rightControl, keyRightCtrl),
    (.named .alt, keyLeftAlt), (.named .rightAlt, keyRightAlt),
    (.named .metaKey, keyLeftMeta), (.named .rWin, keyRightMeta)]

def keycodeState (code : ℕ) : Request → Option Bool
  | .keycode c down => if c = code then some down else none
  | _ => none

/-- The last event that the portal was sent for the keycode was a press. -/
def lastSent (code : ℕ) (requests : CallLog Request) : Bool :=
  (lastOf (keycodeState code) requests).getD false

/-- The state of a modifier is what was last sent for it. -/
def Tracked (s : RdpInputKeyboard) : Prop :=
  ∀ m ∈ modifiers, s.getKeyState m.1 = lastSent m.2 s.requests

/-- The key is written down as what is sent for it, or leaves things as they are. -/
def KeyAllowed (m : ModifierState) (down : Bool) : Key → Prop
  | .named (.raw code) =>
    code = keyRightMeta + ModifierState.evdevOffset → m.metaLeft = down ∧ m.metaRight = down
  | .super | .windows | .command => m.metaLeft = down
  | _ => True

def pasted (c : Char) : Bool := !canInputViaKeysym c (charToKeysym c)

/-- Nothing is pasted while the left Shift is down. -/
def CharAllowed (m : ModifierState) (c : Char) : Prop := pasted c → m.shiftLeft = false

def Allowed (s : RdpInputKeyboard) : KeyCall → Prop
  | .keyDown (.named (.layout c)) | .keyClick (.named (.layout c)) => CharAllowed s.modifierState c
  | .keyDown key => KeyAllowed s.modifierState true key
  | .keyUp key | .keyClick key => KeyAllowed s.modifierState false key
  | .keySequence text => ∀ c ∈ text.toList, CharAllowed s.modifierState c

/-! ## What is written down and what is sent -/

/-- What the state says of a keycode. -/
def pressed (m : ModifierState) (code : ℕ) : Bool :=
  if code = keyLeftShift then m.shiftLeft
  else if code = keyRightShift then m.shiftRight
  else if code = keyLeftCtrl then m.ctrlLeft
  else if code = keyRightCtrl then m.ctrlRight
  else if code = keyLeftAlt then m.altLeft
  else if code = keyRightAlt then m.altRight
  else if code = keyLeftMeta then m.metaLeft
  else if code = keyRightMeta then m.metaRight
  else false

/-- The keycode that is sent for the key. -/
def moved : Key → Option ℤ
  | .named (.raw code) => some (getRawEvdevKeycode code)
  | key => (mapKey key).map fun k => k.1

theorem moved_raw {code c : ℕ} :
    moved (.named (.raw code)) = some (c : ℤ) ↔
      if code = 134 then c = 125 else code = c + 8 := by
  rw [moved, getRawEvdevKeycode, Option.some.injEq]
  split_ifs <;> omega

/-! ### The state -/

theorem pressed_update_raw (m : ModifierState) (code : ℕ) (down : Bool) :
    ∀ c ∈ modifierCodes, pressed (m.update (.named (.raw code)) down) c =
      if marked (.named (.raw code)) = some c then down else pressed m c := by
  simp only [marked_raw]
  by_cases hcode : code ∈ modifierCodes.map (· + 8)
  · simp only [modifierCodes, List.map_cons, List.map_nil, List.mem_cons,
      List.not_mem_nil, or_false] at hcode
    rw [forall_modifierCodes]
    rcases hcode with rfl | rfl | rfl | rfl | rfl | rfl | rfl | rfl
    all_goals simp [ModifierState.update, pressed]
  · have hsame : m.update (.named (.raw code)) down = m := by
      simp [modifierCodes] at hcode
      simp [ModifierState.update, hcode]
    intro c hc
    have hne : code ≠ c + 8 := by
      rintro rfl
      exact hcode (List.mem_map_of_mem hc)
    rw [hsame, if_neg hne]

theorem pressed_update (m : ModifierState) (key : Key) (down : Bool) :
    ∀ code ∈ modifierCodes, pressed (m.update key down) code =
      if marked key = some code then down else pressed m code := by
  rcases key.raw_or with ⟨code, rfl⟩ | hraw
  · exact pressed_update_raw m code down
  · rw [forall_modifierCodes]
    unfold ModifierState.update
    split
    case h_12 code => exact absurd rfl (hraw code)
    case h_13 =>
      have hnone : marked key = none := by
        unfold marked
        split <;> simp_all
      simp [hnone]
    all_goals simp [marked, pressed]

theorem tracked_iff_codes {s : RdpInputKeyboard} :
    Tracked s ↔
      ∀ code ∈ modifierCodes, pressed s.modifierState code = lastSent code s.requests := by
  simp [Tracked, modifiers, forall_modifierCodes, getKeyState, pressed]

/-! ### The portal -/

theorem moved_named {key : Enigo.Key} (hraw : ∀ c, key ≠ .raw c) (hlayout : ∀ c, key ≠ .layout c) :
    moved (.named key) = (keyMap.lookup key).map (↑) := by
  have hmoved : moved (.named key) = (mapKey (.named key)).map fun k => (k.1 : ℤ) := by
    cases key with
    | raw c => exact absurd rfl (hraw c)
    | _ => rfl
  rw [hmoved, mapKey_named hlayout, Option.map_map]
  rfl

/-- Only one raw key and the other names of the meta key are written down as something else. -/
theorem marked_iff_moved {key : Key} (hlayout : ∀ c, key ≠ .named (.layout c))
    (hraw : key ≠ .named (.raw 134)) (hsuper : key ≠ .super) (hwindows : key ≠ .windows)
    (hcommand : key ≠ .command) :
    ∀ code ∈ modifierCodes, marked key = some code ↔ moved key = some (code : ℤ) := by
  intro code hcode
  cases key with
  | named key =>
    by_cases hkey : ∃ c, key = .raw c
    · obtain ⟨c, rfl⟩ := hkey
      have hc : c ≠ 134 := by
        rintro rfl
        exact hraw rfl
      rw [marked_raw, moved_raw, if_neg hc]
    · have hkey : ∀ c, key ≠ .raw c := fun c h => hkey ⟨c, h⟩
      have hchr : ∀ c, key ≠ .layout c := fun c h => hlayout c (congrArg _ h)
      rw [moved_named hkey hchr, marked_iff_lookup hkey code hcode]
      simp
  | command => exact absurd rfl hcommand
  | super => exact absurd rfl hsuper
  | windows => exact absurd rfl hwindows
  | _ => simp [marked, moved, mapKey]

/-! ### What reaches the portal -/

/-- Nothing fails. -/
def succeeds : Request → ℕ → Bool := fun _ _ => true

def keyRequests (down : Bool) (key : Key) : CallLog Request :=
  (moved key).toList.map fun code => (.keycode code down, true)

def pasteRequests (text : String) : CallLog Request :=
  [(.keycode keyLeftShift false, true), (.keycode keyInsert false, true),
    (.keycode keyInsert true, true), (.keycode keyLeftShift true, true),
    (.setClipboard text, true)]

def charRequests (c : Char) : CallLog Request :=
  if pasted c then pasteRequests (String.singleton c)
  else [(.keysym (charToKeysym c) false, true), (.keysym (charToKeysym c) true, true)]

/-- Only characters are typed with Shift. -/
theorem mapKey_shift {key : Key} (hlayout : ∀ c, key ≠ .named (.layout c)) {code : ℕ}
    {isShift : Bool} (h : mapKey key = some (code, isShift)) : isShift = false := by
  unfold mapKey at h
  split at h
  · split at h
    · cases h
      rfl
    · split at h
      · exact absurd rfl (hlayout _)
      · cases h
  · cases h

theorem handleKey_succeeds {key : Key} (hlayout : ∀ c, key ≠ .named (.layout c)) (down : Bool)
    (log : CallLog Request) :
    handleKey succeeds down key log = (true, keyRequests down key ++ log) := by
  unfold handleKey keyRequests moved
  split
  · rfl
  · cases hmap : mapKey key with
    | none => rfl
    | some k =>
      obtain ⟨code, isShift⟩ := k
      obtain rfl := mapKey_shift hlayout hmap
      cases down <;> rfl

theorem inputTextViaClipboard_succeeds {text : String} (htext : text ≠ "")
    (log : CallLog Request) :
    inputTextViaClipboard succeeds text log = ((), pasteRequests text ++ log) := by
  unfold inputTextViaClipboard
  rw [if_neg htext]
  rfl

theorem inputChar_succeeds (c : Char) (log : CallLog Request) :
    inputChar succeeds c log = ((), charRequests c ++ log) := by
  unfold inputChar charRequests pasted
  cases canInputViaKeysym c (charToKeysym c) with
  | true => rfl
  | false => exact inputTextViaClipboard_succeeds (by simp) log

section LastSent

variable {code : ℕ} {log : CallLog Request}

theorem lastSent_keycode (c : ℤ) (down : Bool) :
    lastSent code ((.keycode c down, true) :: log) =
      if c = code then down else lastSent code log := by
  rw [lastSent, lastOf_cons, keycodeState]
  split <;> rfl

theorem lastSent_keysym (keysym : ℕ) (down : Bool) :
    lastSent code ((.keysym keysym down, true) :: log) = lastSent code log := rfl

theorem lastSent_key (down : Bool) (key : Key) :
    lastSent code (keyRequests down key ++ log) =
      if moved key = some (code : ℤ) then down else lastSent code log := by
  unfold keyRequests
  cases moved key with
  | none => simp
  | some c => simp [lastSent_keycode]

/-- The press of a click does not matter any more. -/
theorem lastSent_click (key : Key) :
    lastSent code (keyRequests false key ++ (keyRequests true key ++ log)) =
      lastSent code (keyRequests false key ++ log) := by
  simp only [lastSent_key]
  split <;> rfl

theorem lastSent_char (hcode : code ∈ modifierCodes) (c : Char) :
    lastSent code (charRequests c ++ log) =
      if pasted c ∧ code = keyLeftShift then false else lastSent code log := by
  have hinsert : code ≠ keyInsert := by
    rintro rfl
    exact absurd hcode (by decide)
  unfold charRequests
  by_cases hpasted : pasted c
  · simp only [hpasted, if_true, pasteRequests, List.cons_append, List.nil_append,
      lastSent_keycode, Nat.cast_inj, true_and, eq_comm]
    split_ifs <;> rfl
  · simp [hpasted, lastSent_keysym]

theorem lastSent_chars (hcode : code ∈ modifierCodes) (cs : List Char) :
    lastSent code (cs.flatMap charRequests ++ log) =
      if cs.any pasted ∧ code = keyLeftShift then false else lastSent code log := by
  induction cs with
  | nil => simp
  | cons c cs ih =>
    rw [List.flatMap_cons, List.append_assoc, lastSent_char hcode, ih]
    by_cases hc : pasted c ∧ code = keyLeftShift
    · have hany : (c :: cs).any pasted = true := List.any_eq_true.mpr ⟨c, List.mem_cons_self, hc.1⟩
      rw [if_pos hc, if_pos ⟨hany, hc.2⟩]
    · simp only [List.any_cons, Bool.or_eq_true, or_and_right, hc, false_or, if_false]

end LastSent

/-! ## Runs -/

theorem tracked_key {s t : RdpInputKeyboard} {key : Key} {down : Bool} (hs : Tracked s)
    (hlayout : ∀ c, key ≠ .named (.layout c))
    (hstate : ∀ code ∈ modifierCodes, pressed t.modifierState code =
      if marked key = some code then down else pressed s.modifierState code)
    (hsent : ∀ code, lastSent code t.requests =
      if moved key = some (code : ℤ) then down else lastSent code s.requests) :
    Tracked t ↔ KeyAllowed s.modifierState down key := by
  rw [tracked_iff_codes] at hs
  have hcodes : Tracked t ↔ ∀ code ∈ modifierCodes,
      (if marked key = some code then down else pressed s.modifierState code) =
        if moved key = some (code : ℤ) then down else pressed s.modifierState code := by
    rw [tracked_iff_codes]
    refine forall₂_congr fun code hcode => ?_
    rw [hstate code hcode, hsent, ← hs code hcode]
  rw [hcodes]
  by_cases hraw : key = .named (.raw 134)
  · subst hraw
    have hmarked : marked (.named (.raw 134)) = some 126 := rfl
    have hmoved : moved (.named (.raw 134)) = some 125 := rfl
    simp [forall_modifierCodes, hmarked, hmoved, KeyAllowed, pressed, eq_comm]
  by_cases hmeta : key = .super ∨ key = .windows ∨ key = .command
  · rcases hmeta with rfl | rfl | rfl
    all_goals
      simp [forall_modifierCodes, marked, moved, mapKey, KeyAllowed, pressed, eq_comm]
  · simp only [not_or] at hmeta
    have hall : KeyAllowed s.modifierState down key := by
      unfold KeyAllowed
      split
      · rename_i code
        intro hcode
        exact absurd (by rw [hcode]; rfl) hraw
      · simp at hmeta
      · simp at hmeta
      · simp at hmeta
      · trivial
    refine iff_of_true (fun code hcode => ?_) hall
    simp only [marked_iff_moved hlayout hraw hmeta.1 hmeta.2.1 hmeta.2.2 code hcode]

theorem tracked_chars {s t : RdpInputKeyboard} {cs : List Char} (hs : Tracked s)
    (hstate : t.modifierState = s.modifierState)
    (hsent : t.requests = cs.flatMap charRequests ++ s.requests) :
    Tracked t ↔ ∀ c ∈ cs, CharAllowed s.modifierState c := by
  rw [tracked_iff_codes] at hs ⊢
  have hcodes : (∀ code ∈ modifierCodes, pressed t.modifierState code = lastSent code t.requests) ↔
      ∀ code ∈ modifierCodes, pressed s.modifierState code =
        if cs.any pasted ∧ code = keyLeftShift then false
        else pressed s.modifierState code := by
    refine forall₂_congr fun code hcode => ?_
    rw [hstate, hsent, lastSent_chars hcode, ← hs code hcode]
  rw [hcodes, forall_modifierCodes]
  cases hshift : s.modifierState.shiftLeft <;> simp [pressed, CharAllowed, hshift]

theorem tracked_keysym {s : RdpInputKeyboard} (hs : Tracked s) (keysym : ℕ) (down : Bool) :
    Tracked (s.withPortal (sendKeysym succeeds keysym down)).2 := hs

theorem tracked_inputChar {s : RdpInputKeyboard} (hs : Tracked s) (c : Char) :
    Tracked (s.withPortal (inputChar succeeds c)).2 ↔ CharAllowed s.modifierState c := by
  have hsent : (s.withPortal (inputChar succeeds c)).2.requests =
      [c].flatMap charRequests ++ s.requests := by
    simp [withPortal, inputChar_succeeds]
  simpa using tracked_chars hs (by rfl) hsent

section Keys

variable {s : RdpInputKeyboard} {key : Key} (hlayout : ∀ c, key ≠ .named (.layout c))
include hlayout

theorem keyDown_key : s.keyDown succeeds key =
    (true, ⟨s.modifierState.update key true, keyRequests true key ++ s.requests⟩) := by
  unfold keyDown
  split
  · exact absurd rfl (hlayout _)
  · simp [withPortal, handleKey_succeeds hlayout, updateModifier]

theorem keyUp_key : s.keyUp succeeds key =
    ⟨s.modifierState.update key false, keyRequests false key ++ s.requests⟩ := by
  unfold keyUp
  split
  · exact absurd rfl (hlayout _)
  · simp [withPortal, handleKey_succeeds hlayout, updateModifier]

theorem keyClick_key : s.keyClick succeeds key =
    ⟨(s.modifierState.update key true).update key false,
      keyRequests false key ++ (keyRequests true key ++ s.requests)⟩ := by
  unfold keyClick
  split
  · exact absurd rfl (hlayout _)
  · simp [withPortal, handleKey_succeeds hlayout, updateModifier]

theorem tracked_keyDown (hs : Tracked s) :
    Tracked (s.keyDown succeeds key).2 ↔ KeyAllowed s.modifierState true key := by
  rw [keyDown_key hlayout]
  exact tracked_key hs hlayout (pressed_update _ _ _) fun _ => lastSent_key _ _

theorem tracked_keyUp (hs : Tracked s) :
    Tracked (s.keyUp succeeds key) ↔ KeyAllowed s.modifierState false key := by
  rw [keyUp_key hlayout]
  exact tracked_key hs hlayout (pressed_update _ _ _) fun _ => lastSent_key _ _

/-- A click ends with the release. -/
theorem tracked_keyClick (hs : Tracked s) :
    Tracked (s.keyClick succeeds key) ↔ KeyAllowed s.modifierState false key := by
  rw [keyClick_key hlayout]
  refine tracked_key hs hlayout (fun code hcode => ?_) fun code => ?_
  · rw [pressed_update _ _ _ code hcode, pressed_update _ _ _ code hcode]
    split <;> rfl
  · rw [lastSent_click, lastSent_key]

end Keys

theorem tracked_step {s : RdpInputKeyboard} (hs : Tracked s) (call : KeyCall) :
    Tracked (step succeeds s call) ↔ Allowed s call := by
  cases call with
  | keyDown key =>
    rcases key.layout_or with ⟨c, rfl⟩ | hkey
    · rw [step, keyDown, Allowed]
      by_cases hcan : canInputViaKeysym c (charToKeysym c)
      · rw [if_pos hcan]
        exact iff_of_true (tracked_keysym hs _ _) fun h => by simp [pasted, hcan] at h
      · rw [if_neg hcan, ← tracked_inputChar hs c, inputChar, if_neg hcan]
    · rw [step, tracked_keyDown hkey hs, Allowed]
      exact hkey
  | keyUp key =>
    rcases key.layout_or with ⟨c, rfl⟩ | hkey
    · refine iff_of_true ?_ trivial
      rw [step, keyUp]
      split
      · exact tracked_keysym hs _ _
      · exact hs
    · exact tracked_keyUp hkey hs
  | keyClick key =>
    rcases key.layout_or with ⟨c, rfl⟩ | hkey
    · exact tracked_inputChar hs c
    · rw [step, tracked_keyClick hkey hs, Allowed]
      exact hkey
  | keySequence text =>
    have hsent : (s.keySequence succeeds text).requests =
        text.toList.reverse.flatMap charRequests ++ s.requests := by
      simp [keySequence, withPortal, Calls.forM_adds inputChar_succeeds]
    rw [step, tracked_chars hs (by rfl) hsent, Allowed]
    simp

theorem tracked_iff (calls : List KeyCall) :
    Always (step succeeds) Tracked {} calls ↔ Along (step succeeds) Allowed {} calls :=
  always_iff_along (I := fun _ => True) (fun _ _ _ => trivial)
    (fun _ call _ hs => tracked_step hs call) trivial (by simp [Tracked, modifiers]; decide)

/-- The right meta key is pressed as the left one. -/
theorem right_meta_left :
    ¬ Always (step succeeds) Tracked {} [.keyDown (.named (.raw 134))] := by
  intro h
  exact absurd (h.2 (.named .rWin, keyRightMeta) (by decide)) (by decide)

end RdpInputKeyboard

end Wayland

end LuodaRemote
