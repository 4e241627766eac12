/-
  The keyboard of the uinput service (`handle_keyboard` of `src/server/uinput.rs`): on which channel
  the two halves of a stroke are sent.

  A character is sent to the portal as a keysym, or, if no session is open or the portal refuses, as
  keys of the uinput device. Which of the two is found out anew for its press and for its release.
  On the device a character may take Shift, which is pressed and released for it although the client
  may be holding it. `strokes_iff` says when characters are released where they were pressed and the
  client's Shift stays down.

  The portal may refuse any call; the device takes every event. `Sequence` is part of what is
  modelled, but not of the runs; the state of keys, which `GetKeyState` reads, is left out.
-/
import LuodaRemote.Wayland.Keys
import LuodaRemote.Lib.Calls
import LuodaRemote.Lib.Run

namespace LuodaRemote

open Lib

namespace Wayland

open Evdev

inductive Channel where
  | portal
  | uinput
deriving DecidableEq

inductive Attempt where
  /-- `notify_keyboard_keysym`. -/
  | keysym (keysym : ℕ) (down : Bool)
  /-- Key events that are emitted together. -/
  | emit (events : List (ℕ × Bool))
deriving DecidableEq

inductive DataKeyboard where
  | sequence (seq : String)
  | keyDown (key : Key)
  | keyUp (key : Key)
  | keyClick (key : Key)
deriving DecidableEq

/-! ## Messages -/

section Handler

variable (ok : Attempt → ℕ → Bool) (session : Bool)

def emit (events : List (ℕ × Bool)) : Calls Attempt Bool := .make ok (.emit events)

/-- Without a session there is no portal to ask. -/
def notifyKeyboardKeysym (keysym : ℕ) (down : Bool) : Calls Attempt Bool :=
  if session then .make ok (.keysym keysym down) else pure false

/-- One character of `input_text_wayland`. -/
def inputCharWayland (c : Char) : Calls Attempt Unit := do
  let keysym := charToKeysym c
  if canInputViaKeysym c keysym then
    if ← notifyKeyboardKeysym ok session keysym true then
      -- a release that fails is not tried elsewhere
      let _ ← notifyKeyboardKeysym ok session keysym false
    else
      match mapKey (.named (.layout c)) with
      | some (code, isShift) =>
        let shiftPressed ← if isShift then emit ok [(keyLeftShift, true)] else pure false
        let _ ← emit ok [(code, true), (code, false)]
        if shiftPressed then
          let _ ← emit ok [(keyLeftShift, false)]
      | none => return

def inputTextWayland (text : String) : Calls Attempt Unit :=
  text.toList.forM (inputCharWayland ok session)

def inputCharWaylandKeyEvent (chr : Char) (down : Bool) : Calls Attempt Unit := do
  let keysym := charToKeysym chr
  if canInputViaKeysym chr keysym then
    if ← notifyKeyboardKeysym ok session keysym down then return
    match mapKey (.named (.layout chr)) with
    | some (code, isShift) =>
      if down then
        if isShift then
          let _ ← emit ok [(keyLeftShift, true)]
        let _ ← emit ok [(code, true)]
      else
        let _ ← emit ok [(code, false)]
        if isShift then
          let _ ← emit ok [(keyLeftShift, false)]
    | none => return

/-- The events of a key that has a keycode. -/
def emitKey (key : Key) (states : List Bool) : Calls Attempt Unit := do
  match mapKey key with
  | some (code, _) =>
    let _ ← emit ok (states.map fun down => (code, down))
  | none => return

/-- A raw code is an X11 code. -/
def emitRaw (code : ℕ) (down : Bool) : Calls Attempt Unit := do
  if code < 8 then return
  let _ ← emit ok [(code - 8, down)]

def handleKeyboard : DataKeyboard → Calls Attempt Unit
  | .sequence seq => if seq = "" then return else inputTextWayland ok session seq
  | .keyDown (.named (.raw code)) => emitRaw ok code true
  | .keyUp (.named (.raw code)) => emitRaw ok code false
  | .keyDown (.named (.layout chr)) => inputCharWaylandKeyEvent ok session chr true
  | .keyDown key => emitKey ok key [true]
  | .keyUp (.named (.layout chr)) => inputCharWaylandKeyEvent ok session chr false
  | .keyUp key => emitKey ok key [false]
  | .keyClick (.named (.layout chr)) => inputTextWayland ok session (String.singleton chr)
  | .keyClick key => emitKey ok key [true, false]

end Handler

/-! ## Runs -/

structure UinputKeyboard where
  /-- `RDP_SESSION_INFO` is there. -/
  session : Bool
  attempts : CallLog Attempt
  /-- The channels that took a press of the character since it was last released. -/
  heldOn : Char → Finset Channel
  /-- The modifiers that the client has pressed and not released, by their keycodes. -/
  clientHeld : ℕ → Bool

inductive UinputStep where
  | session (opened : Bool)
  | keyDown (key : Key)
  | keyUp (key : Key)
  | keyClick (key : Key)
deriving DecidableEq

namespace UinputKeyboard

def start : UinputKeyboard where
  session := false
  attempts := []
  heldOn := fun _ => ∅
  clientHeld := fun _ => false

/-- The portal answers as it does, and the device takes every event. -/
def answers (portal : ℕ → Bool) : Attempt → ℕ → Bool
  | .keysym _ _, n => portal n
  | .emit _, _ => true

def channelOf (c : Char) (down : Bool) : Attempt → Option Channel
  | .keysym keysym d => if keysym = charToKeysym c ∧ d = down then some .portal else none
  | .emit events =>
    match mapKey (.named (.layout c)) with
    | some (code, _) => if (code, down) ∈ events then some .uinput else none
    | none => none

/-- Where a half of a stroke went: the last attempt counts. -/
def settledOn (c : Char) (down : Bool) (log : CallLog Attempt) : Option Channel :=
  log.findSome? fun attempt => channelOf c down attempt.1

def clientKey (key : Key) (down : Bool) (s : UinputKeyboard) : UinputKeyboard :=
  { s with clientHeld := fun code => if marked key = some code then down else s.clientHeld code }

/-- What was attempted between the states. -/
def added (s t : UinputKeyboard) : CallLog Attempt :=
  t.attempts.take (t.attempts.length - s.attempts.length)

variable (portal : ℕ → Bool)

def handle (data : DataKeyboard) (s : UinputKeyboard) : UinputKeyboard :=
  { s with attempts := (handleKeyboard (answers portal) s.session data s.attempts).2 }

def step (s : UinputKeyboard) : UinputStep → UinputKeyboard
  | .session opened => { s with session := opened }
  | .keyDown (.named (.layout c)) =>
    let t := s.handle portal (.keyDown (.named (.layout c)))
    { t with
      heldOn := Function.update t.heldOn c (t.heldOn c ∪ (settledOn c true (added s t)).toFinset) }
  | .keyUp (.named (.layout c)) =>
    let t := s.handle portal (.keyUp (.named (.layout c)))
    { t with heldOn := Function.update t.heldOn c ∅ }
  | .keyDown key => (s.handle portal (.keyDown key)).clientKey key true
  | .keyUp key => (s.handle portal (.keyUp key)).clientKey key false
  -- a click of a raw key sends nothing
  | .keyClick (.named (.raw code)) => s.handle portal (.keyClick (.named (.raw code)))
  | .keyClick key => (s.handle portal (.keyClick key)).clientKey key false

/-! ## What is promised -/

def shiftCodes : List ℕ := [keyLeftShift, keyRightShift]

def keyState (code : ℕ) : Attempt → Option Bool
  | .emit events => events.reverse.lookup code
  | .keysym _ _ => none

/-- The key is down on the device. -/
def isDown (code : ℕ) (log : CallLog Attempt) : Bool := (lastOf (keyState code) log).getD false

/-- A character is released where it was pressed, and the client's Shift is down. -/
structure Keeps (s : UinputKeyboard) (a : UinputStep) : Prop where
  released : ∀ c, a = .keyUp (.named (.layout c)) →
    ∀ channel ∈ s.heldOn c, settledOn c false (added s (step portal s a)) = some channel
  clicked : ∀ c, a = .keyClick (.named (.layout c)) →
    settledOn c false (added s (step portal s a)) = settledOn c true (added s (step portal s a))
  shift : ∀ code ∈ shiftCodes, (step portal s a).clientHeld code →
    isDown code (step portal s a).attempts

/-- Where the next half of a stroke goes. -/
def channelNow (s : UinputKeyboard) : Channel :=
  if s.session ∧ portal s.attempts.length then .portal else .uinput

def isShifted (c : Char) : Bool := ((mapKey (.named (.layout c))).map Prod.snd).getD false

/-- The Shift that the device takes for the character is not the client's. -/
def ShiftFree (s : UinputKeyboard) (c : Char) : Prop :=
  s.channelNow portal = .uinput → isShifted c → s.clientHeld keyLeftShift = false

/-- The portal is found as it was at every press of the character, and the client's Shift is not
    used for another key. -/
def Allowed (s : UinputKeyboard) : UinputStep → Prop
  | .keyUp (.named (.layout c)) =>
    (∀ channel ∈ s.heldOn c, channel = s.channelNow portal) ∧ s.ShiftFree portal c
  | .keyClick (.named (.layout c)) => s.ShiftFree portal c
  | _ => True

/-! ## One message -/

/-- What a half of a stroke adds on the device, and a stroke. -/
def halfStroke (code : ℕ) (isShift down : Bool) : CallLog Attempt :=
  match isShift, down with
  | false, down => [(.emit [(code, down)], true)]
  | true, true => [(.emit [(code, true)], true), (.emit [(keyLeftShift, true)], true)]
  | true, false => [(.emit [(keyLeftShift, false)], true), (.emit [(code, false)], true)]

def fullStroke (code : ℕ) (isShift : Bool) : CallLog Attempt :=
  if isShift then
    [(.emit [(keyLeftShift, false)], true), (.emit [(code, true), (code, false)], true),
      (.emit [(keyLeftShift, true)], true)]
  else [(.emit [(code, true), (code, false)], true)]

/-- The attempt at the portal, if there was one. -/
def refusal (session : Bool) (c : Char) (down : Bool) : CallLog Attempt :=
  if session then [(.keysym (charToKeysym c) down, false)] else []

variable {portal} {s : UinputKeyboard} {c : Char} {code : ℕ} {isShift : Bool}

theorem channelNow_portal : s.channelNow portal = .portal ↔
    s.session = true ∧ portal s.attempts.length = true := by
  unfold channelNow
  split_ifs with h <;> simp [h]

theorem channelNow_uinput : s.channelNow portal = .uinput ↔
    (s.session = true → portal s.attempts.length = false) := by
  unfold channelNow
  split_ifs with h
  · simp [h]
  · simpa using h

theorem notify_portal (hnow : s.channelNow portal = .portal) (keysym : ℕ) (down : Bool) :
    notifyKeyboardKeysym (answers portal) s.session keysym down s.attempts =
      (true, (.keysym keysym down, true) :: s.attempts) := by
  obtain ⟨hsession, hportal⟩ := channelNow_portal.mp hnow
  simp [notifyKeyboardKeysym, hsession, answers, hportal]

theorem notify_uinput (hnow : s.channelNow portal = .uinput) (c : Char) (down : Bool) :
    notifyKeyboardKeysym (answers portal) s.session (charToKeysym c) down s.attempts =
      (false, refusal s.session c down ++ s.attempts) := by
  have hportal := channelNow_uinput.mp hnow
  unfold notifyKeyboardKeysym refusal
  cases hsession : s.session with
  | true => simp [answers, hportal hsession]
  | false => rfl

theorem keyEvent_portal (hcan : canInputViaKeysym c (charToKeysym c)) (down : Bool)
    (hnow : s.channelNow portal = .portal) :
    inputCharWaylandKeyEvent (answers portal) s.session c down s.attempts =
      ((), (.keysym (charToKeysym c) down, true) :: s.attempts) := by
  unfold inputCharWaylandKeyEvent
  dsimp only
  rw [if_pos hcan, Calls.bind_apply, notify_portal hnow]
  rfl

theorem keyEvent_uinput (hkey : mapKey (.named (.layout c)) = some (code, isShift)) (down : Bool)
    (hnow : s.channelNow portal = .uinput) :
    inputCharWaylandKeyEvent (answers portal) s.session c down s.attempts =
      ((), halfStroke code isShift down ++ (refusal s.session c down ++ s.attempts)) := by
  have hcan := canInput_of_mapKey hkey
  unfold inputCharWaylandKeyEvent
  dsimp only
  rw [if_pos hcan, Calls.bind_apply, notify_uinput hnow, hkey]
  cases isShift <;> cases down <;> rfl

theorem charWayland_portal (hcan : canInputViaKeysym c (charToKeysym c))
    (hnow : s.channelNow portal = .portal) :
    ∃ taken, inputCharWayland (answers portal) s.session c s.attempts =
      ((), (.keysym (charToKeysym c) false, taken) :: (.keysym (charToKeysym c) true, true) ::
        s.attempts) := by
  have hsession := (channelNow_portal.mp hnow).1
  unfold inputCharWayland
  dsimp only
  rw [if_pos hcan, Calls.bind_apply, notify_portal hnow, hsession]
  exact ⟨_, rfl⟩

theorem charWayland_uinput (hkey : mapKey (.named (.layout c)) = some (code, isShift))
    (hnow : s.channelNow portal = .uinput) :
    inputCharWayland (answers portal) s.session c s.attempts =
      ((), fullStroke code isShift ++ (refusal s.session c true ++ s.attempts)) := by
  have hcan := canInput_of_mapKey hkey
  unfold inputCharWayland
  dsimp only
  rw [if_pos hcan, Calls.bind_apply, notify_uinput hnow, hkey]
  cases isShift <;> rfl

/-! ### Where it went -/

theorem added_eq {t : UinputKeyboard} {new : CallLog Attempt}
    (h : t.attempts = new ++ s.attempts) : added s t = new := by
  simp [added, h]

theorem settledOn_cons (down : Bool) (attempt : Attempt × Bool) (log : CallLog Attempt) :
    settledOn c down (attempt :: log) =
      (channelOf c down attempt.1).or (settledOn c down log) := by
  unfold settledOn
  rw [List.findSome?_cons]
  cases channelOf c down attempt.1 <;> rfl

theorem channelOf_emit (hkey : mapKey (.named (.layout c)) = some (code, isShift)) (down : Bool)
    (events : List (ℕ × Bool)) :
    channelOf c down (.emit events) = if (code, down) ∈ events then some .uinput else none := by
  rw [channelOf, hkey]

theorem settledOn_keysym (down taken : Bool) (log : CallLog Attempt) :
    settledOn c down ((.keysym (charToKeysym c) down, taken) :: log) = some .portal := by
  simp [settledOn_cons, channelOf]

theorem settledOn_halfStroke (hkey : mapKey (.named (.layout c)) = some (code, isShift))
    (down : Bool) (log : CallLog Attempt) :
    settledOn c down (halfStroke code isShift down ++ log) = some .uinput := by
  cases isShift <;> cases down
  all_goals
    simp only [halfStroke, List.cons_append, settledOn_cons, channelOf_emit hkey,
      List.mem_singleton]
    split_ifs <;> simp_all

theorem settledOn_fullStroke (hkey : mapKey (.named (.layout c)) = some (code, isShift))
    (down : Bool) (log : CallLog Attempt) :
    settledOn c down (fullStroke code isShift ++ log) = some .uinput := by
  have hboth : (code, down) ∈ [(code, true), (code, false)] := by
    cases down <;> simp
  cases isShift
  · simp [fullStroke, settledOn_cons, channelOf_emit hkey, hboth]
  · simp only [fullStroke, if_true, List.cons_append, settledOn_cons, channelOf_emit hkey, hboth]
    split_ifs <;> rfl

/-! ### What is down -/

theorem modifier_of_shift : ∀ k ∈ shiftCodes, k ∈ modifierCodes := by
  decide

section IsDown

variable {k : ℕ} {log : CallLog Attempt}

theorem isDown_emit (events : List (ℕ × Bool)) :
    isDown k ((.emit events, true) :: log) =
      (events.reverse.lookup k).getD (isDown k log) := by
  rw [isDown, lastOf_cons, keyState]
  cases events.reverse.lookup k <;> rfl

theorem isDown_key (down : Bool) (code : ℕ) :
    isDown k ((.emit [(code, down)], true) :: log) = if k = code then down else isDown k log := by
  rw [isDown_emit, List.reverse_singleton]
  by_cases hk : k = code
  · simp [hk]
  · have hne : (k == code) = false := beq_false_of_ne hk
    simp [hk, hne, List.lookup_cons]

theorem isDown_click (code : ℕ) :
    isDown k ((.emit [(code, true), (code, false)], true) :: log) =
      if k = code then false else isDown k log := by
  rw [isDown_emit]
  by_cases hk : k = code
  · simp [hk]
  · have hne : (k == code) = false := beq_false_of_ne hk
    simp [hk, hne, List.lookup_cons]

theorem isDown_keysym (keysym : ℕ) (down taken : Bool) :
    isDown k ((.keysym keysym down, taken) :: log) = isDown k log := by
  cases taken <;> rfl

theorem isDown_refusal (session down : Bool) :
    isDown k (refusal session c down ++ log) = isDown k log := by
  unfold refusal
  split
  · exact isDown_keysym _ _ _
  · rfl

theorem isDown_halfStroke (hkey : mapKey (.named (.layout c)) = some (code, isShift))
    (hk : k ∈ shiftCodes) (down : Bool) :
    isDown k (halfStroke code isShift down ++ log) =
      if isShift ∧ k = keyLeftShift then down else isDown k log := by
  have hne : k ≠ code := fun h => not_modifier hkey (h ▸ modifier_of_shift k hk)
  cases isShift <;> cases down
  all_goals simp [halfStroke, isDown_key, hne]

theorem isDown_fullStroke (hkey : mapKey (.named (.layout c)) = some (code, isShift))
    (hk : k ∈ shiftCodes) :
    isDown k (fullStroke code isShift ++ log) =
      if isShift ∧ k = keyLeftShift then false else isDown k log := by
  have hne : k ≠ code := fun h => not_modifier hkey (h ▸ modifier_of_shift k hk)
  cases isShift
  · simp [fullStroke, isDown_click, hne]
  · by_cases hshift : k = keyLeftShift
    · simp [fullStroke, isDown_key, hshift]
    · simp only [keyLeftShift] at hshift
      simp [fullStroke, isDown_key, isDown_click, hne, hshift]

end IsDown

/-! ### Characters -/

/-- The Shift of the device that goes with the character. -/
def TakesShift (portal : ℕ → Bool) (s : UinputKeyboard) (c : Char) (k : ℕ) : Prop :=
  s.channelNow portal = .uinput ∧ isShifted c ∧ k = keyLeftShift

instance (k : ℕ) : Decidable (TakesShift portal s c k) := inferInstanceAs (Decidable (_ ∧ _))

theorem isShifted_eq (hkey : mapKey (.named (.layout c)) = some (code, isShift)) :
    isShifted c = isShift := by
  rw [isShifted, hkey]
  rfl

theorem not_takesShift (hnow : s.channelNow portal = .portal) (k : ℕ) :
    ¬ TakesShift portal s c k := by
  rintro ⟨huinput, _⟩
  rw [hnow] at huinput
  cases huinput

theorem takesShift_iff (hkey : mapKey (.named (.layout c)) = some (code, isShift))
    (hnow : s.channelNow portal = .uinput) {k : ℕ} :
    TakesShift portal s c k ↔ isShift ∧ k = keyLeftShift := by
  simp [TakesShift, hnow, isShifted_eq hkey]

theorem exists_key (hcan : canInputViaKeysym c (charToKeysym c)) :
    ∃ code isShift, mapKey (.named (.layout c)) = some (code, isShift) := by
  rw [← mapKey_layout_isSome] at hcan
  obtain ⟨k, hk⟩ := Option.isSome_iff_exists.mp hcan
  exact ⟨k.1, k.2, hk⟩

/-- A half of a stroke goes where the portal lets it, and moves no Shift but the one it takes. -/
theorem keyEvent_spec (hcan : canInputViaKeysym c (charToKeysym c)) (down : Bool) :
    ∃ new, (inputCharWaylandKeyEvent (answers portal) s.session c down s.attempts).2 =
        new ++ s.attempts ∧
      settledOn c down new = some (s.channelNow portal) ∧
      ∀ k ∈ shiftCodes, isDown k (new ++ s.attempts) =
        if TakesShift portal s c k then down else isDown k s.attempts := by
  cases hnow : s.channelNow portal with
  | portal =>
    refine ⟨[(.keysym (charToKeysym c) down, true)], ?_, settledOn_keysym _ _ _, fun k _ => ?_⟩
    · rw [keyEvent_portal hcan down hnow]
      rfl
    · rw [if_neg (not_takesShift hnow k)]
      exact isDown_keysym _ _ _
  | uinput =>
    obtain ⟨code, isShift, hkey⟩ := exists_key hcan
    refine ⟨halfStroke code isShift down ++ refusal s.session c down, ?_,
      settledOn_halfStroke hkey _ _, fun k hk => ?_⟩
    · rw [keyEvent_uinput hkey down hnow, List.append_assoc]
    · rw [List.append_assoc, isDown_halfStroke hkey hk, isDown_refusal]
      simp only [takesShift_iff hkey hnow]

theorem keyEvent_none (hcan : canInputViaKeysym c (charToKeysym c) = false) (down : Bool) :
    (inputCharWaylandKeyEvent (answers portal) s.session c down s.attempts).2 = s.attempts := by
  unfold inputCharWaylandKeyEvent
  dsimp only
  rw [hcan]
  rfl

/-- Both halves of a click go to one channel. -/
theorem keyClick_spec (hcan : canInputViaKeysym c (charToKeysym c)) :
    ∃ new, (inputCharWayland (answers portal) s.session c s.attempts).2 = new ++ s.attempts ∧
      settledOn c false new = settledOn c true new ∧
      ∀ k ∈ shiftCodes, isDown k (new ++ s.attempts) =
        if TakesShift portal s c k then false else isDown k s.attempts := by
  cases hnow : s.channelNow portal with
  | portal =>
    obtain ⟨taken, hlog⟩ := charWayland_portal hcan hnow
    refine ⟨[(.keysym (charToKeysym c) false, taken), (.keysym (charToKeysym c) true, true)], ?_,
      ?_, fun k _ => ?_⟩
    · rw [hlog]
      rfl
    · simp [settledOn, channelOf]
    · rw [if_neg (not_takesShift hnow k)]
      exact (isDown_keysym _ _ _).trans (isDown_keysym _ _ _)
  | uinput =>
    obtain ⟨code, isShift, hkey⟩ := exists_key hcan
    refine ⟨fullStroke code isShift ++ refusal s.session c true, ?_, ?_, fun k hk => ?_⟩
    · rw [charWayland_uinput hkey hnow, List.append_assoc]
    · rw [settledOn_fullStroke hkey, settledOn_fullStroke hkey]
    · rw [List.append_assoc, isDown_fullStroke hkey hk, isDown_refusal]
      simp only [takesShift_iff hkey hnow]

theorem charWayland_none (hcan : canInputViaKeysym c (charToKeysym c) = false) :
    (inputCharWayland (answers portal) s.session c s.attempts).2 = s.attempts := by
  unfold inputCharWayland
  dsimp only
  rw [hcan]
  rfl

theorem handle_click_char :
    (s.handle portal (.keyClick (.named (.layout c)))).attempts =
      (inputCharWayland (answers portal) s.session c s.attempts).2 := by
  simp [handle, handleKeyboard, inputTextWayland]

/-! ### Keys that are no characters -/

/-- The keycode that the device gets for a key. -/
def deviceKey : Key → Option ℕ
  | .named (.raw code) => if 8 ≤ code then some (code - 8) else none
  | key => (mapKey key).map Prod.fst

theorem deviceKey_eq {key : Key} (hraw : ∀ code, key ≠ .named (.raw code)) :
    deviceKey key = (mapKey key).map Prod.fst := by
  unfold deviceKey
  split
  · exact absurd rfl (hraw _)
  · rfl

/-- Of a Shift, the device gets the key that it is. -/
theorem marked_iff_device {key : Key} (hlayout : ∀ c, key ≠ .named (.layout c)) :
    ∀ k ∈ shiftCodes, marked key = some k ↔ deviceKey key = some k := by
  intro k hk
  cases key with
  | named key =>
    by_cases hkey : ∃ code, key = .raw code
    · obtain ⟨code, rfl⟩ := hkey
      rfl
    · have hraw : ∀ code, key ≠ .raw code := fun code h => hkey ⟨code, h⟩
      have hdevice : deviceKey (.named key) = keyMap.lookup key := by
        have hchr : ∀ c, key ≠ .layout c := fun c h => hlayout c (congrArg _ h)
        rw [deviceKey_eq fun code h => hraw code (Key.named.inj h), mapKey_named hchr,
          Option.map_map]
        cases keyMap.lookup key <;> rfl
      rw [hdevice, marked_iff_lookup hraw k (modifier_of_shift k hk)]
  | command | super | windows =>
    revert k
    decide
  | _ => rfl

def keyEvents (states : List Bool) (key : Key) : CallLog Attempt :=
  (deviceKey key).toList.map fun code => (.emit (states.map fun down => (code, down)), true)

theorem isDown_keyEvents {k : ℕ} {log : CallLog Attempt} (key : Key) (down : Bool) :
    isDown k (keyEvents [down] key ++ log) =
      if deviceKey key = some k then down else isDown k log := by
  unfold keyEvents
  cases deviceKey key with
  | none => simp
  | some code => simp [isDown_key, eq_comm]

theorem isDown_keyClick {k : ℕ} {log : CallLog Attempt} (key : Key) :
    isDown k (keyEvents [true, false] key ++ log) =
      if deviceKey key = some k then false else isDown k log := by
  unfold keyEvents
  cases deviceKey key with
  | none => simp
  | some code => simp [isDown_click, eq_comm]

theorem emitKey_device {key : Key} (hraw : ∀ code, key ≠ .named (.raw code)) (states : List Bool)
    (log : CallLog Attempt) :
    emitKey (answers portal) key states log = ((), keyEvents states key ++ log) := by
  unfold emitKey keyEvents
  rw [deviceKey_eq hraw]
  cases mapKey key <;> rfl

theorem emitRaw_device (code : ℕ) (down : Bool) (log : CallLog Attempt) :
    emitRaw (answers portal) code down log =
      ((), keyEvents [down] (.named (.raw code)) ++ log) := by
  unfold emitRaw keyEvents
  rw [deviceKey]
  by_cases h8 : code < 8
  · rw [if_pos h8, if_neg (Nat.not_le.mpr h8)]
    rfl
  · rw [if_neg h8, if_pos (Nat.not_lt.mp h8)]
    rfl

theorem handle_keyDown {key : Key} (hlayout : ∀ c, key ≠ .named (.layout c)) :
    (s.handle portal (.keyDown key)).attempts = keyEvents [true] key ++ s.attempts := by
  unfold handle
  rcases key.raw_or with ⟨code, rfl⟩ | hcode
  · rw [handleKeyboard, emitRaw_device]
  · rw [handleKeyboard, emitKey_device hcode]
    · exact hcode
    · exact hlayout

theorem handle_keyUp {key : Key} (hlayout : ∀ c, key ≠ .named (.layout c)) :
    (s.handle portal (.keyUp key)).attempts = keyEvents [false] key ++ s.attempts := by
  unfold handle
  rcases key.raw_or with ⟨code, rfl⟩ | hcode
  · rw [handleKeyboard, emitRaw_device]
  · rw [handleKeyboard, emitKey_device hcode]
    · exact hcode
    · exact hlayout

theorem handle_keyClick {key : Key} (hlayout : ∀ c, key ≠ .named (.layout c))
    (hraw : ∀ code, key ≠ .named (.raw code)) :
    (s.handle portal (.keyClick key)).attempts = keyEvents [true, false] key ++ s.attempts := by
  unfold handle
  rw [handleKeyboard, emitKey_device hraw]
  exact hlayout

/-! ## Steps -/

structure Inv (s : UinputKeyboard) : Prop where
  shift : ∀ code ∈ shiftCodes, s.clientHeld code → isDown code s.attempts
  /-- A character with no keysym is not pressed at all. -/
  held : ∀ c, canInputViaKeysym c (charToKeysym c) = false → s.heldOn c = ∅

theorem inv_start : Inv start where
  shift _ _ := by rintro ⟨⟩
  held _ _ := rfl

/-- Only the release and the click of a character may break the promise in another way. -/
theorem keeps_of_shift {a : UinputStep} (hup : ∀ c, a ≠ .keyUp (.named (.layout c)))
    (hclick : ∀ c, a ≠ .keyClick (.named (.layout c)))
    (hshift : ∀ k ∈ shiftCodes, (step portal s a).clientHeld k →
      isDown k (step portal s a).attempts) :
    Keeps portal s a :=
  ⟨fun c ha => absurd ha (hup c), fun c ha => absurd ha (hclick c), hshift⟩

/-- The device and the client's Shift after a key that is no character. -/
theorem shift_key {t : UinputKeyboard} {key : Key} {down : Bool} (hi : Inv s)
    (hlayout : ∀ c, key ≠ .named (.layout c))
    (hheld : t.clientHeld = fun k => if marked key = some k then down else s.clientHeld k)
    (hdown : ∀ k, isDown k t.attempts = if deviceKey key = some k then down
      else isDown k s.attempts) :
    ∀ k ∈ shiftCodes, t.clientHeld k → isDown k t.attempts := by
  intro k hk
  rw [hheld, hdown]
  simp only [marked_iff_device hlayout k hk]
  split
  · exact id
  · exact hi.shift k hk

theorem keeps_keyDown (hi : Inv s) (key : Key) : Keeps portal s (.keyDown key) := by
  refine keeps_of_shift (by rintro c ⟨⟩) (by rintro c ⟨⟩) ?_
  rcases key.layout_or with ⟨c, rfl⟩ | hkey
  · intro k hk hheld
    have hbefore : isDown k s.attempts := hi.shift k hk hheld
    show isDown k (inputCharWaylandKeyEvent (answers portal) s.session c true s.attempts).2
    cases hcan : canInputViaKeysym c (charToKeysym c) with
    | true =>
      obtain ⟨new, hnew, _, hdown⟩ := @keyEvent_spec portal s c hcan true
      rw [hnew, hdown k hk]
      split
      · rfl
      · exact hbefore
    | false => rwa [keyEvent_none hcan]
  · have hstep : step portal s (.keyDown key) =
        (s.handle portal (.keyDown key)).clientKey key true := by
      rw [step]
      exact hkey
    rw [hstep]
    refine shift_key hi hkey rfl fun k => ?_
    exact (congrArg (isDown k) (handle_keyDown hkey)).trans (isDown_keyEvents key true)

theorem keeps_keyUp_key (hi : Inv s) {key : Key} (hkey : ∀ c, key ≠ .named (.layout c)) :
    Keeps portal s (.keyUp key) := by
  refine keeps_of_shift (fun c h => hkey c (UinputStep.keyUp.inj h)) (by rintro c ⟨⟩) ?_
  have hstep : step portal s (.keyUp key) =
      (s.handle portal (.keyUp key)).clientKey key false := by
    rw [step]
    exact hkey
  rw [hstep]
  refine shift_key hi hkey rfl fun k => ?_
  exact (congrArg (isDown k) (handle_keyUp hkey)).trans (isDown_keyEvents key false)

theorem keeps_keyClick_key (hi : Inv s) {key : Key} (hkey : ∀ c, key ≠ .named (.layout c)) :
    Keeps portal s (.keyClick key) := by
  refine keeps_of_shift (by rintro c ⟨⟩) (fun c h => hkey c (UinputStep.keyClick.inj h)) ?_
  rcases key.raw_or with ⟨code, rfl⟩ | hcode
  · exact hi.shift
  · have hstep : step portal s (.keyClick key) =
        (s.handle portal (.keyClick key)).clientKey key false := by
      rw [step]
      exact hcode
    rw [hstep]
    refine shift_key hi hkey rfl fun k => ?_
    exact (congrArg (isDown k) (handle_keyClick hkey hcode)).trans (isDown_keyClick key)

/-- The Shift that a character takes is up afterwards. -/
theorem shift_kept_iff {t : UinputKeyboard} (hi : Inv s) (hheld : t.clientHeld = s.clientHeld)
    (hdown : ∀ k ∈ shiftCodes, isDown k t.attempts =
      if TakesShift portal s c k then false else isDown k s.attempts) :
    (∀ k ∈ shiftCodes, t.clientHeld k → isDown k t.attempts) ↔ s.ShiftFree portal c := by
  rw [hheld]
  constructor
  · intro h hnow hshifted
    by_contra hclient
    rw [Bool.not_eq_false] at hclient
    have hstill := h keyLeftShift (by decide) hclient
    rw [hdown keyLeftShift (by decide), if_pos ⟨hnow, hshifted, rfl⟩] at hstill
    cases hstill
  · intro hfree k hk hclient
    have hnot : ¬ TakesShift portal s c k := by
      rintro ⟨hnow, hshifted, rfl⟩
      rw [hfree hnow hshifted] at hclient
      cases hclient
    rw [hdown k hk, if_neg hnot]
    exact hi.shift k hk hclient

theorem shiftFree_none (hcan : canInputViaKeysym c (charToKeysym c) = false) :
    s.ShiftFree portal c := by
  intro _ hshifted
  rw [← mapKey_layout_isSome, Option.isSome_eq_false_iff, Option.isNone_iff_eq_none] at hcan
  rw [isShifted, hcan] at hshifted
  cases hshifted

theorem keeps_keyUp_char (hi : Inv s) (c : Char) :
    Keeps portal s (.keyUp (.named (.layout c))) ↔
      Allowed portal s (.keyUp (.named (.layout c))) := by
  have hattempts : (step portal s (.keyUp (.named (.layout c)))).attempts =
      (inputCharWaylandKeyEvent (answers portal) s.session c false s.attempts).2 := rfl
  cases hcan : canInputViaKeysym c (charToKeysym c) with
  | true =>
    obtain ⟨new, hnew, hsettled, hdown⟩ := @keyEvent_spec portal s c hcan false
    rw [← hattempts] at hnew
    rw [← hnew] at hdown
    have hshift := shift_kept_iff (t := step portal s (.keyUp (.named (.layout c)))) hi rfl hdown
    constructor
    · intro h
      refine ⟨fun channel hheld => ?_, hshift.mp h.shift⟩
      have hreleased := h.released c rfl channel hheld
      rw [added_eq hnew, hsettled] at hreleased
      exact (Option.some.inj hreleased).symm
    · rintro ⟨hsame, hfree⟩
      refine ⟨?_, by rintro _ ⟨⟩, hshift.mpr hfree⟩
      rintro _ ⟨⟩ channel hheld
      rw [added_eq hnew, hsettled, hsame channel hheld]
  | false =>
    have hnone : s.heldOn c = ∅ := hi.held c hcan
    refine iff_of_true ⟨?_, by rintro _ ⟨⟩, ?_⟩ ⟨?_, shiftFree_none hcan⟩
    · rintro _ ⟨⟩ channel hheld
      simp [hnone] at hheld
    · rw [hattempts, keyEvent_none hcan]
      exact hi.shift
    · simp [hnone]

theorem keeps_keyClick_char (hi : Inv s) (c : Char) :
    Keeps portal s (.keyClick (.named (.layout c))) ↔
      Allowed portal s (.keyClick (.named (.layout c))) := by
  have hattempts : (step portal s (.keyClick (.named (.layout c)))).attempts =
      (inputCharWayland (answers portal) s.session c s.attempts).2 := handle_click_char
  have hclient : (step portal s (.keyClick (.named (.layout c)))).clientHeld = s.clientHeld := rfl
  cases hcan : canInputViaKeysym c (charToKeysym c) with
  | true =>
    obtain ⟨new, hnew, hsettled, hdown⟩ := @keyClick_spec portal s c hcan
    rw [← hattempts] at hnew
    rw [← hnew] at hdown
    have hshift := shift_kept_iff hi hclient hdown
    refine ⟨fun h => hshift.mp h.shift, fun hfree => ⟨by rintro _ ⟨⟩, ?_, hshift.mpr hfree⟩⟩
    rintro _ ⟨⟩
    rw [added_eq hnew, hsettled]
  | false =>
    have hsame : (step portal s (.keyClick (.named (.layout c)))).attempts = [] ++ s.attempts :=
      hattempts.trans (charWayland_none hcan)
    refine iff_of_true ⟨by rintro _ ⟨⟩, ?_, ?_⟩ (shiftFree_none hcan)
    · rintro _ ⟨⟩
      rw [added_eq hsame]
      rfl
    · rw [hsame, hclient]
      exact hi.shift

theorem keeps_iff {a : UinputStep} (hi : Inv s) : Keeps portal s a ↔ Allowed portal s a := by
  cases a with
  | session opened =>
    exact iff_of_true (keeps_of_shift (by rintro c ⟨⟩) (by rintro c ⟨⟩) hi.shift) trivial
  | keyDown key => exact iff_of_true (keeps_keyDown hi key) trivial
  | keyUp key =>
    rcases key.layout_or with ⟨c, rfl⟩ | hkey
    · exact keeps_keyUp_char hi c
    · refine iff_of_true (keeps_keyUp_key hi hkey) ?_
      rw [Allowed]
      · trivial
      · rintro c ⟨⟩
        exact hkey c rfl
      · rintro c ⟨⟩
  | keyClick key =>
    rcases key.layout_or with ⟨c, rfl⟩ | hkey
    · exact keeps_keyClick_char hi c
    · refine iff_of_true (keeps_keyClick_key hi hkey) ?_
      rw [Allowed]
      · trivial
      · rintro c ⟨⟩
      · rintro c ⟨⟩
        exact hkey c rfl

theorem held_step {a : UinputStep} (hi : Inv s) :
    ∀ c, canInputViaKeysym c (charToKeysym c) = false → (step portal s a).heldOn c = ∅ := by
  intro c hcan
  unfold step
  split
  · exact hi.held c hcan
  · rename_i pressed
    have hbefore : (s.handle portal (.keyDown (.named (.layout pressed)))).heldOn c = ∅ :=
      hi.held c hcan
    by_cases hc : c = pressed
    · subst hc
      have hsame : added s (s.handle portal (.keyDown (.named (.layout c)))) = [] :=
        added_eq (keyEvent_none hcan true)
      simp [hbefore, hsame, settledOn]
    · simpa [hc] using hbefore
  · rename_i released
    have hbefore : (s.handle portal (.keyUp (.named (.layout released)))).heldOn c = ∅ :=
      hi.held c hcan
    by_cases hc : c = released
    · simp [hc]
    · simpa [hc] using hbefore
  all_goals exact hi.held c hcan

theorem strokes_iff (portal : ℕ → Bool) (steps : List UinputStep) :
    Along (step portal) (Keeps portal) start steps ↔
      Along (step portal) (Allowed portal) start steps :=
  along_iff_along (I := Inv) (fun _ _ => keeps_iff)
    (fun _ _ hi ha => ⟨((keeps_iff hi).mpr ha).shift, held_step hi⟩) inv_start

/-- Pressed on the device and, as a session has been opened, released at the portal. -/
theorem key_left_down :
    ¬ Along (step fun _ => true) (Keeps fun _ => true) start
      [.keyDown (.named (.layout 'a')), .session true, .keyUp (.named (.layout 'a'))] := by
  intro h
  exact absurd (h.2.2.1.released 'a' rfl .uinput (by decide)) (by decide)

end UinputKeyboard

end Wayland

end LuodaRemote
