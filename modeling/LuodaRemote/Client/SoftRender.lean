/-
  How a frame gets from its decoding thread to a window (`on_rgba_soft_render`, `get_rgba` and
  `next_rgba` of `src/flutter.rs`, with the loop of `flutter/lib/models/model.dart`).

  The thread swaps the frame into the display's entry and tells the windows. A window asks for the
  size, then for the pointer, and reads from it until it calls `next_rgba`; nothing is copied. The
  flag `valid` keeps the thread from swapping meanwhile, and with it from writing to what is read.
  The flag is one for all windows, and switching displays, opening a window and changing the
  renderer see to it too.

  `frames_kept`: as long as the flag is turned off only where nobody else reads the display,
  whatever a window reads is a frame of that display, whole and unchanged until it is done.

  A `Vec` is a number under which the heap has its bytes. The texture renderer is left out.
-/
import LuodaRemote.Lib.Run
import LuodaRemote.Message

namespace LuodaRemote
open Lib

/-- `data` is no buffer if nothing was ever put there. -/
structure RgbaData where
  data : Option ℕ
  valid : Bool
  deriving DecidableEq

structure UiHandler where
  displays : List ℕ := []
  /-- Whether the window listens. -/
  eventStream : Bool := false
  deriving DecidableEq

/-- What a window reads: `bytes` were there when it was given the pointer. -/
structure RgbaHold (W : Type*) where
  window : W
  display : ℕ
  buf : ℕ
  len : ℕ
  bytes : Bytes
  deriving DecidableEq

structure SoftRender (W : Type*) where
  heap : ℕ → Option Bytes := fun _ => none
  newBuf : ℕ := 0
  /-- `rgb.raw` of the display's `VideoHandler`. -/
  raw : ℕ → Option ℕ := fun _ => none
  displayRgbas : ℕ → Option RgbaData := fun _ => none
  /-- Its keys. -/
  keys : List ℕ := []
  /-- The displays whose thread has swapped its frame in, and not told the windows yet. -/
  telling : List ℕ := []
  sessionHandlers : List (W × UiHandler) := []
  /-- `EventToUI::Rgba` that are still to be handled. -/
  events : List (W × ℕ) := []
  /-- The windows that have got a size, and are about to ask for the pointer. -/
  sized : List (W × ℕ × ℕ) := []
  held : List (RgbaHold W) := []

inductive SoftRenderAct (W : Type*) where
  /-- The display's thread decodes an image, into another allocation if `fresh`. -/
  | decode (display : ℕ) (image : Bytes) (fresh : Bool)
  | swap (display : ℕ)
  | tell (display : ℕ)
  /-- A window handles the event at the place: `getRgbaSize`. -/
  | event (i : ℕ)
  /-- `getRgba`, or `nextRgba` if there was nothing. -/
  | fetch (i : ℕ)
  /-- A window is through with what it reads: `nextRgba`. -/
  | done (i : ℕ)
  /-- `insert_peer_session_id`. -/
  | openWindow (w : W) (displays : List ℕ)
  /-- `session_start_`. -/
  | listen (w : W)
  | switchDisplay (w : W) (value : List ℕ)
  | closeWindow (w : W)
  /-- `update_use_texture_render`. -/
  | clear

namespace SoftRender

variable {W : Type*}

section
variable [DecidableEq W]

def isOpen (w : W) (s : SoftRender W) : Bool := s.sessionHandlers.any (·.1 = w)

/-- `next_rgba`. -/
def nextRgba (display : ℕ) (s : SoftRender W) : SoftRender W :=
  { s with
    displayRgbas := Function.update s.displayRgbas display
      ((s.displayRgbas display).map fun r => { r with valid := false }) }

/-- `session_next_rgba`: only a window that is open is heard. -/
def windowNext (w : W) (display : ℕ) (s : SoftRender W) : SoftRender W :=
  if s.isOpen w then s.nextRgba display else s

/-- `get_rgba`. -/
def getRgba (w : W) (display : ℕ) (s : SoftRender W) : Option ℕ :=
  if s.isOpen w then
    (s.displayRgbas display).bind fun r => if r.valid then r.data else none
  else none

def bytesAt (buf : Option ℕ) (s : SoftRender W) : Bytes := (buf.bind s.heap).getD []

def getRgbaSize (w : W) (display : ℕ) (s : SoftRender W) : ℕ :=
  (s.bytesAt (s.getRgba w display)).length

/-- Who is told of a frame: the soft renderer does not support windows with several displays. -/
def told (display : ℕ) (s : SoftRender W) : List W :=
  let isMulti := s.sessionHandlers.length > 1
  let told := s.sessionHandlers.filter fun (_, h) =>
    h.displays.length ≤ 1 && (!isMulti || h.displays.contains display) && h.eventStream
  told.map Prod.fst

def decode (display : ℕ) (image : Bytes) (fresh : Bool) (s : SoftRender W) : SoftRender W :=
  if display ∈ s.telling then s
  else
    match s.raw display, fresh with
    | some buf, false => { s with heap := Function.update s.heap buf (some image) }
    | old, _ =>
      let freed := old.elim s.heap fun buf => Function.update s.heap buf none
      { s with
        heap := Function.update freed s.newBuf (some image)
        newBuf := s.newBuf + 1
        raw := Function.update s.raw display (some s.newBuf) }

def swapped (display : ℕ) (old : Option ℕ) (s : SoftRender W) : SoftRender W :=
  { s with
    displayRgbas := Function.update s.displayRgbas display (some ⟨s.raw display, true⟩)
    keys := s.keys.insert display
    raw := Function.update s.raw display old
    telling := display :: s.telling }

def swap (display : ℕ) (s : SoftRender W) : SoftRender W :=
  if display ∈ s.telling then s
  else
    match s.displayRgbas display with
    | some r => if r.valid then s else s.swapped display r.data
    | none => s.swapped display none

def tell (display : ℕ) (s : SoftRender W) : SoftRender W :=
  if display ∈ s.telling then
    let s := { s with telling := s.telling.filter (· ≠ display) }
    if s.told display = [] then s.nextRgba display
    else { s with events := s.events ++ (s.told display).map (·, display) }
  else s

def event (i : ℕ) (s : SoftRender W) : SoftRender W :=
  match s.events[i]? with
  | none => s
  | some (w, display) =>
    { s with
      events := s.events.eraseIdx i
      sized := s.sized ++ [(w, display, s.getRgbaSize w display)] }

def fetch (i : ℕ) (s : SoftRender W) : SoftRender W :=
  match s.sized[i]? with
  | none => s
  | some (w, display, len) =>
    let s := { s with sized := s.sized.eraseIdx i }
    if len = 0 then s.windowNext w display
    else
      match s.getRgba w display with
      | none => s.windowNext w display
      | some buf => { s with held := s.held ++ [⟨w, display, buf, len, s.bytesAt buf⟩] }

def done (i : ℕ) (s : SoftRender W) : SoftRender W :=
  match s.held[i]? with
  | none => s
  | some h => { s with held := s.held.eraseIdx i }.windowNext h.window h.display

def setHandler (w : W) (f : UiHandler → UiHandler) (s : SoftRender W) : SoftRender W :=
  { s with sessionHandlers := s.sessionHandlers.map fun (v, h) => (v, if v = w then f h else h) }

/-- A window with one display has the next frame of it. -/
def nextIfOne (displays : List ℕ) (s : SoftRender W) : SoftRender W :=
  match displays with
  | [display] => s.nextRgba display
  | _ => s

def step (s : SoftRender W) : SoftRenderAct W → SoftRender W
  | .decode display image fresh => s.decode display image fresh
  | .swap display => s.swap display
  | .tell display => s.tell display
  | .event i => s.event i
  | .fetch i => s.fetch i
  | .done i => s.done i
  | .openWindow w displays =>
    let others := s.sessionHandlers.filter fun (v, _) => v ≠ w
    let new : UiHandler := { displays }
    { s with sessionHandlers := others ++ [(w, new)] }.nextIfOne displays
  | .listen w => s.setHandler w fun h => { h with eventStream := true }
  | .switchDisplay w value =>
    if s.isOpen w then (s.setHandler w fun h => { h with displays := value }).nextIfOne value
    else s
  | .closeWindow w => { s with sessionHandlers := s.sessionHandlers.filter fun (v, _) => v ≠ w }
  | .clear =>
    { s with
      heap := fun buf =>
        if s.keys.any fun display => (s.displayRgbas display).bind (·.data) = some buf then none
        else s.heap buf
      displayRgbas := fun _ => none
      keys := [] }

end

/-! ## What is read -/

/-- Where the live buffers are: with the decoders, and in the entries of the displays. -/
def slot (s : SoftRender W) : Bool × ℕ → Option ℕ
  | (true, display) => (s.displayRgbas display).bind (·.data)
  | (false, display) => s.raw display

/-- Somebody has a size of this display that is not 0, or the pointer to it. -/
def reads (display : ℕ) (s : SoftRender W) : Bool :=
  s.sized.any (fun e => e.2.1 = display && e.2.2 != 0) || s.held.any (·.display = display)

/-- The flag of a display is turned off, and its entry thrown away, while nobody (else) reads. -/
def Orderly (s : SoftRender W) : SoftRenderAct W → Bool
  | .fetch i => s.sized[i]?.all fun e => e.2.2 != 0 || !s.reads e.2.1
  | .done i => s.held[i]?.all fun h => !reads h.display { s with held := s.held.eraseIdx i }
  | .openWindow _ [display] | .switchDisplay _ [display] => !s.reads display
  | .tell display =>
    !s.telling.contains display || !(s.told display).isEmpty || !s.reads display
  | .clear => !s.sized.any (·.2.2 != 0) && s.held.isEmpty
  | _ => true

/-- Every live buffer is in one place, and has an image of its display; `images` are those that were
    decoded. -/
structure Sound (images : ℕ → List Bytes) (s : SoftRender W) : Prop where
  apart : ∀ p q buf, s.slot p = some buf → s.slot q = some buf → p = q
  alive : ∀ p buf, s.slot p = some buf →
    buf < s.newBuf ∧ ∃ image ∈ images p.2, s.heap buf = some image
  sized : ∀ w display len, (w, display, len) ∈ s.sized → len ≠ 0 →
    ∃ buf image, s.displayRgbas display = some ⟨some buf, true⟩ ∧ s.heap buf = some image ∧
      image.length = len
  held : ∀ h ∈ s.held, s.displayRgbas h.display = some ⟨some h.buf, true⟩ ∧
    s.heap h.buf = some h.bytes ∧ h.bytes.length = h.len

variable {images : ℕ → List Bytes} {s : SoftRender W}

theorem ne_of_sized {w : W} {display display' len : ℕ} (hno : s.reads display = false)
    (he : (w, display', len) ∈ s.sized) (hlen : len ≠ 0) : display' ≠ display := by
  rintro rfl
  have hread : s.reads display' = true :=
    Bool.or_eq_true_iff.mpr (.inl (List.any_eq_true.mpr ⟨_, he, by simpa using hlen⟩))
  rw [hno] at hread
  cases hread

theorem ne_of_held {display : ℕ} {h : RgbaHold W} (hno : s.reads display = false)
    (hh : h ∈ s.held) : h.display ≠ display := by
  rintro rfl
  have hread : s.reads h.display = true :=
    Bool.or_eq_true_iff.mpr (.inr (List.any_eq_true.mpr ⟨h, hh, by simp⟩))
  rw [hno] at hread
  cases hread

theorem sound_congr {s' : SoftRender W} (hs : Sound images s) (hheap : s'.heap = s.heap)
    (hnew : s'.newBuf = s.newBuf) (hraw : s'.raw = s.raw)
    (hrgbas : s'.displayRgbas = s.displayRgbas) (hsized : ∀ e ∈ s'.sized, e ∈ s.sized)
    (hheld : ∀ h ∈ s'.held, h ∈ s.held) : Sound images s' := by
  have hslot : ∀ p, s'.slot p = s.slot p := by
    rintro ⟨b, display⟩
    cases b
    · exact congrFun hraw display
    · exact congrArg (·.bind (·.data)) (congrFun hrgbas display)
  refine ⟨fun p q buf hp hq => hs.apart p q buf ?_ ?_, fun p buf hp => ?_,
    fun w display len he hlen => ?_, fun h hh => ?_⟩
  · rw [← hslot p, hp]
  · rw [← hslot q, hq]
  · rw [hslot p] at hp
    rw [hnew, hheap]
    exact hs.alive p buf hp
  · rw [hheap, hrgbas]
    exact hs.sized w display len (hsized _ he) hlen
  · rw [hheap, hrgbas]
    exact hs.held h (hheld h hh)

theorem slot_nextRgba (display : ℕ) (p : Bool × ℕ) : (s.nextRgba display).slot p = s.slot p := by
  obtain ⟨b, display'⟩ := p
  cases b
  · rfl
  · by_cases hd : display' = display
    · subst hd
      cases hentry : s.displayRgbas display' <;> simp [slot, nextRgba, hentry]
    · simp [slot, nextRgba, hd]

/-- The flag may be turned off if nobody reads. -/
theorem sound_nextRgba {display : ℕ} (hs : Sound images s) (hno : s.reads display = false) :
    Sound images (s.nextRgba display) := by
  refine ⟨fun p q buf hp hq => ?_, fun p buf hp => ?_, fun w display' len he hlen => ?_,
    fun h hh => ?_⟩
  · rw [slot_nextRgba] at hp hq
    exact hs.apart p q buf hp hq
  · rw [slot_nextRgba] at hp
    exact hs.alive p buf hp
  · have hne : display' ≠ display := ne_of_sized hno he hlen
    have hentry : (s.nextRgba display).displayRgbas display' = s.displayRgbas display' :=
      Function.update_of_ne hne _ _
    rw [hentry]
    exact hs.sized w display' len he hlen
  · have hne : h.display ≠ display := ne_of_held hno hh
    have hentry : (s.nextRgba display).displayRgbas h.display = s.displayRgbas h.display :=
      Function.update_of_ne hne _ _
    rw [hentry]
    exact hs.held h hh

theorem sound_nextIfOne {displays : List ℕ} (hs : Sound images s)
    (hno : ∀ display, displays = [display] → s.reads display = false) :
    Sound images (s.nextIfOne displays) := by
  unfold nextIfOne
  split
  · exact sound_nextRgba hs (hno _ rfl)
  · exact hs

/-- A display that is read has its flag on. -/
theorem valid_of_reads {display : ℕ} (hs : Sound images s) (hread : s.reads display = true) :
    ∃ buf, s.displayRgbas display = some ⟨some buf, true⟩ := by
  obtain hsized | hheld := Bool.or_eq_true_iff.mp hread
  · obtain ⟨⟨w, d, len⟩, he, hcond⟩ := List.any_eq_true.mp hsized
    obtain ⟨rfl, hlen⟩ : d = display ∧ len ≠ 0 := by simpa using hcond
    obtain ⟨buf, -, hentry, -⟩ := hs.sized w d len he hlen
    exact ⟨buf, hentry⟩
  · obtain ⟨h, hh, hd⟩ := List.any_eq_true.mp hheld
    obtain rfl : h.display = display := by simpa using hd
    exact ⟨h.buf, (hs.held h hh).1⟩

theorem sound_more {images' : ℕ → List Bytes} (hs : Sound images s)
    (hmore : ∀ display, ∀ image ∈ images display, image ∈ images' display) : Sound images' s := by
  refine ⟨hs.apart, fun p buf hp => ?_, hs.sized, hs.held⟩
  obtain ⟨hlt, image, himage, hheap⟩ := hs.alive p buf hp
  exact ⟨hlt, image, hmore _ _ himage, hheap⟩

/-- The decoder of a display has a buffer `b` of its own with an image, and no other has changed. -/
theorem sound_of_raw {display b newBuf : ℕ} {heap : ℕ → Option Bytes} {image : Bytes}
    (hs : Sound images s) (hle : s.newBuf ≤ newBuf) (hb : b < newBuf)
    (himage : image ∈ images display) (hheap : heap b = some image)
    (hown : ∀ p, p ≠ (false, display) → s.slot p ≠ some b)
    (hkept : ∀ p buf, p ≠ (false, display) → s.slot p = some buf → heap buf = s.heap buf) :
    Sound images { s with heap, newBuf, raw := Function.update s.raw display (some b) } := by
  have hself : ({ s with heap, newBuf, raw := Function.update s.raw display (some b) }
      : SoftRender W).slot (false, display) = some b := Function.update_self _ _ _
  have hslot : ∀ p, p ≠ (false, display) →
      ({ s with heap, newBuf, raw := Function.update s.raw display (some b) }
        : SoftRender W).slot p = s.slot p := by
    rintro ⟨side, display'⟩ hp
    cases side
    · exact Function.update_of_ne (fun hd => hp (by rw [hd])) _ _
    · rfl
  refine ⟨fun p q buf hp hq => ?_, fun p buf hp => ?_, fun w display' len he hlen => ?_,
    fun h hh => ?_⟩
  · by_cases hpd : p = (false, display) <;> by_cases hqd : q = (false, display)
    · rw [hpd, hqd]
    · rw [hpd, hself] at hp
      rw [hslot q hqd, ← hp] at hq
      exact absurd hq (hown q hqd)
    · rw [hqd, hself] at hq
      rw [hslot p hpd, ← hq] at hp
      exact absurd hp (hown p hpd)
    · rw [hslot p hpd] at hp
      rw [hslot q hqd] at hq
      exact hs.apart p q buf hp hq
  · by_cases hpd : p = (false, display)
    · rw [hpd, hself, Option.some.injEq] at hp
      subst hpd hp
      exact ⟨hb, image, himage, hheap⟩
    · rw [hslot p hpd] at hp
      obtain ⟨hlt, image', hin, hat⟩ := hs.alive p buf hp
      exact ⟨hlt.trans_le hle, image', hin, (hkept p buf hpd hp).trans hat⟩
  · obtain ⟨buf, image', hentry, hat, hlen'⟩ := hs.sized w display' len he hlen
    have hbuf : s.slot (true, display') = some buf := by simp [slot, hentry]
    exact ⟨buf, image', hentry, (hkept _ buf (by simp) hbuf).trans hat, hlen'⟩
  · obtain ⟨hentry, hat, hlen⟩ := hs.held h hh
    have hbuf : s.slot (true, h.display) = some h.buf := by simp [slot, hentry]
    exact ⟨hentry, (hkept _ h.buf (by simp) hbuf).trans hat, hlen⟩

/-- The thread writes where nobody else has a pointer to. -/
theorem sound_decode {display : ℕ} {image : Bytes} (fresh : Bool) (hs : Sound images s)
    (himage : image ∈ images display) : Sound images (s.decode display image fresh) := by
  unfold decode
  split
  · exact hs
  · split
    · rename_i buf hraw
      have hlt := (hs.alive (false, display) buf hraw).1
      have hsame : s.raw = Function.update s.raw display (some buf) := by
        rw [← hraw, Function.update_eq_self]
      have hone : ∀ p, p ≠ (false, display) → s.slot p ≠ some buf :=
        fun p hp hbuf => hp (hs.apart p (false, display) buf hbuf hraw)
      have hkept : ∀ p buf', p ≠ (false, display) → s.slot p = some buf' →
          Function.update s.heap buf (some image) buf' = s.heap buf' := fun p buf' hp hbuf' =>
        Function.update_of_ne (fun heq => hone p hp (by rw [hbuf', heq])) _ _
      have hsound := sound_of_raw hs (le_refl _) hlt himage (Function.update_self _ _ _) hone hkept
      rw [← hsame] at hsound
      exact hsound
    · rename_i old fresh' _
      dsimp only
      have hnew : ∀ p buf, s.slot p = some buf → buf ≠ s.newBuf :=
        fun p buf hp heq => absurd (hs.alive p buf hp).1 (heq ▸ lt_irrefl _)
      refine sound_of_raw hs (Nat.le_succ _) (Nat.lt_succ_self _) himage
        (Function.update_self _ _ _) (fun p _ hp => hnew p _ hp rfl) fun p buf hp hbuf => ?_
      rw [Function.update_of_ne (hnew p buf hbuf)]
      -- What is freed was the decoder's own.
      cases hraw : s.raw display with
      | none => rfl
      | some b =>
        have hne : buf ≠ b := fun heq =>
          hp (hs.apart p (false, display) b (by rw [hbuf, heq]) hraw)
        exact Function.update_of_ne hne _ _

/-- The two places of a display, changed for each other. -/
def across (display : ℕ) (p : Bool × ℕ) : Bool × ℕ :=
  if p.2 = display then (!p.1, display) else p

theorem across_across (display : ℕ) : Function.Involutive (across display) := by
  rintro ⟨side, display'⟩
  by_cases hd : display' = display <;> simp [across, hd]

/-- The thread gives its buffer away and takes one that nobody reads. -/
theorem sound_swap {display : ℕ} (hs : Sound images s) : Sound images (s.swap display) := by
  have hswapped : ∀ old, old = s.slot (true, display) → s.reads display = false →
      Sound images (s.swapped display old) := by
    intro old hold hno
    have hslot : ∀ p, (s.swapped display old).slot p = s.slot (across display p) := by
      rintro ⟨side, display'⟩
      by_cases hd : display' = display
      · subst hd
        cases side <;> simp [slot, swapped, across, hold]
      · cases side <;> simp [slot, swapped, across, hd]
    refine ⟨fun p q buf hp hq => ?_, fun p buf hp => ?_, fun w display' len he hlen => ?_,
      fun h hh => ?_⟩
    · rw [hslot] at hp hq
      exact (across_across display).injective (hs.apart _ _ buf hp hq)
    · rw [hslot] at hp
      have hp2 : (across display p).2 = p.2 := by
        unfold across
        split
        · rename_i hd
          exact hd.symm
        · rfl
      exact hp2 ▸ hs.alive _ buf hp
    · have hne : display' ≠ display := ne_of_sized hno he hlen
      dsimp only [swapped]
      rw [Function.update_of_ne hne]
      exact hs.sized w display' len he hlen
    · have hne : h.display ≠ display := ne_of_held hno hh
      dsimp only [swapped]
      rw [Function.update_of_ne hne]
      exact hs.held h hh
  unfold swap
  split
  · exact hs
  · split
    · rename_i r hentry
      split
      · exact hs
      · rename_i hvalid
        refine hswapped _ (by simp [slot, hentry]) (Bool.eq_false_iff.mpr fun hread => ?_)
        obtain ⟨buf, hbuf⟩ := valid_of_reads hs hread
        rw [hentry, Option.some.injEq] at hbuf
        exact hvalid (by rw [hbuf])
    · rename_i hentry
      refine hswapped _ (by simp [slot, hentry]) (Bool.eq_false_iff.mpr fun hread => ?_)
      obtain ⟨buf, hbuf⟩ := valid_of_reads hs hread
      rw [hentry] at hbuf
      cases hbuf

theorem reads_of_eraseIdx {i display : ℕ}
    (h : reads display { s with sized := s.sized.eraseIdx i } = true) : s.reads display = true := by
  unfold reads at h ⊢
  rw [Bool.or_eq_true] at h ⊢
  refine h.imp_left fun hsized => ?_
  obtain ⟨e, he, hd⟩ := List.any_eq_true.mp hsized
  exact List.any_eq_true.mpr ⟨e, List.mem_of_mem_eraseIdx he, hd⟩

theorem sound_handlers (handlers : List (W × UiHandler)) (hs : Sound images s) :
    Sound images { s with sessionHandlers := handlers } :=
  sound_congr hs rfl rfl rfl rfl (fun _ he => he) fun _ hh => hh

theorem sound_tell {display : ℕ} (hs : Sound images s) (hx : s.Orderly (.tell display) = true) :
    Sound images (s.tell display) := by
  have hkept : ∀ telling events, Sound images { s with telling, events } :=
    fun telling events => sound_congr hs rfl rfl rfl rfl (fun _ he => he) fun _ hh => hh
  unfold tell
  split
  · rename_i htelling
    dsimp only
    split
    · rename_i hnone
      have hquiet : s.reads display = false := by
        simpa [Orderly, htelling, show s.told display = [] from hnone] using hx
      exact sound_nextRgba (hkept _ s.events) hquiet
    · exact hkept _ _
  · exact hs

/-- The images that a step decodes. -/
def decoded (display : ℕ) : SoftRenderAct W → Option Bytes
  | .decode display' image _ => if display' = display then some image else none
  | _ => none

/-- The images that were decoded for a display. -/
def frames (display : ℕ) (xs : List (SoftRenderAct W)) : List Bytes :=
  xs.filterMap (decoded display)

/-- What the windows read is whole, unchanged, and a frame of the display they asked for. -/
def Kept (images : ℕ → List Bytes) (s : SoftRender W) : Prop :=
  ∀ h ∈ s.held, s.heap h.buf = some h.bytes ∧ h.bytes.length = h.len ∧ h.bytes ∈ images h.display

theorem Sound.kept (hs : Sound images s) : s.Kept images := by
  intro h hh
  obtain ⟨hentry, hat, hlen⟩ := hs.held h hh
  obtain ⟨-, image, himage, hat'⟩ := hs.alive (true, h.display) h.buf (by simp [slot, hentry])
  rw [hat, Option.some.injEq] at hat'
  exact ⟨hat, hlen, hat' ▸ himage⟩

theorem sound_init : Sound (fun _ => []) ({} : SoftRender W) := by
  refine ⟨?_, ?_, nofun, nofun⟩
  · rintro ⟨side, display⟩ q buf hp
    cases side <;> cases hp
  · rintro ⟨side, display⟩ buf hp
    cases side <;> cases hp

variable [DecidableEq W]

theorem sound_windowNext {w : W} {display : ℕ} (hs : Sound images s)
    (hno : s.reads display = false) : Sound images (s.windowNext w display) := by
  unfold windowNext
  split
  · exact sound_nextRgba hs hno
  · exact hs

theorem getRgba_some {w : W} {display buf : ℕ} (h : s.getRgba w display = some buf) :
    s.displayRgbas display = some ⟨some buf, true⟩ := by
  unfold getRgba at h
  split at h
  · obtain ⟨⟨data, valid⟩, hentry, hdata⟩ := Option.bind_eq_some_iff.mp h
    cases valid
    · cases hdata
    · exact hentry.trans (by rw [show data = some buf from hdata])
  · cases h

theorem sound_event (i : ℕ) (hs : Sound images s) : Sound images (s.event i) := by
  unfold event
  split
  · exact hs
  · rename_i w display _
    refine ⟨hs.apart, hs.alive, fun w' display' len he hlen => ?_, hs.held⟩
    obtain hold | hnew := List.mem_append.mp he
    · exact hs.sized w' display' len hold hlen
    · obtain ⟨rfl, rfl, rfl⟩ : w' = w ∧ display' = display ∧ len = s.getRgbaSize w display := by
        simpa using hnew
      -- There is a size only where there is a buffer with an image.
      cases hget : s.getRgba w' display' with
      | none => simp [getRgbaSize, bytesAt, hget] at hlen
      | some buf =>
        have hentry := getRgba_some hget
        obtain ⟨-, image, -, hat⟩ := hs.alive (true, display') buf (by simp [slot, hentry])
        exact ⟨buf, image, hentry, hat, by simp [getRgbaSize, bytesAt, hget, hat]⟩

theorem sound_fetch {i : ℕ} (hs : Sound images s) (hx : s.Orderly (.fetch i) = true) :
    Sound images (s.fetch i) := by
  unfold fetch
  split
  · exact hs
  · rename_i w display len hi
    have herase : Sound images { s with sized := s.sized.eraseIdx i } :=
      sound_congr hs rfl rfl rfl rfl (fun e he => List.mem_of_mem_eraseIdx he) fun h hh => hh
    have hmem : (w, display, len) ∈ s.sized := List.mem_of_getElem? hi
    dsimp only
    split
    · rename_i hlen
      have hquiet : s.reads display = false := by simpa [Orderly, hi, hlen] using hx
      exact sound_windowNext herase
        (Bool.eq_false_iff.mpr fun hread => by simp [reads_of_eraseIdx hread] at hquiet)
    · rename_i hlen
      obtain ⟨buf, image, hentry, hat, hlength⟩ := hs.sized w display len hmem hlen
      split
      · -- The window was closed, and is not heard.
        rename_i hget
        have hclosed : ¬isOpen w { s with sized := s.sized.eraseIdx i } = true := by
          intro hopen
          unfold getRgba at hget
          rw [if_pos hopen] at hget
          simp [hentry] at hget
        unfold windowNext
        rw [if_neg hclosed]
        exact herase
      · rename_i buf' hget
        have hentry' : s.displayRgbas display = some ⟨some buf', true⟩ := getRgba_some hget
        obtain rfl : buf = buf' := by
          rw [hentry] at hentry'
          simpa using hentry'
        refine ⟨herase.apart, herase.alive, herase.sized, fun h hh => ?_⟩
        obtain hold | hnew := List.mem_append.mp hh
        · exact hs.held h hold
        · rw [List.mem_singleton.mp hnew]
          have hbytes : ({ s with sized := s.sized.eraseIdx i } : SoftRender W).bytesAt (some buf) =
              image := by simp [bytesAt, hat]
          rw [hbytes]
          exact ⟨hentry, hat, hlength⟩

theorem sound_done {i : ℕ} (hs : Sound images s) (hx : s.Orderly (.done i) = true) :
    Sound images (s.done i) := by
  unfold done
  split
  · exact hs
  · rename_i h hi
    have herase : Sound images { s with held := s.held.eraseIdx i } :=
      sound_congr hs rfl rfl rfl rfl (fun e he => he) fun h hh => List.mem_of_mem_eraseIdx hh
    exact sound_windowNext herase (by simpa [Orderly, hi] using hx)

theorem sound_clear (hs : Sound images s) (hno : ∀ display, s.reads display = false) :
    Sound images (step s .clear) := by
  refine ⟨?_, ?_, fun w display len he hlen => absurd rfl (ne_of_sized (hno display) he hlen),
    fun h hh => absurd rfl (ne_of_held (hno h.display) hh)⟩
  · rintro ⟨side, d⟩ ⟨side', d'⟩ buf hp hq
    cases side <;> cases side'
    · exact hs.apart (false, d) (false, d') buf hp hq
    · cases hq
    · cases hp
    · cases hp
  · rintro ⟨side, d⟩ buf hp
    cases side
    · obtain ⟨hlt, image, himage, hat⟩ := hs.alive (false, d) buf hp
      refine ⟨hlt, image, himage, ?_⟩
      dsimp only [step]
      rw [if_neg, hat]
      rw [List.any_eq_true]
      rintro ⟨d', -, hd'⟩
      have happart := hs.apart (false, d) (true, d') buf hp (of_decide_eq_true hd')
      cases happart
    · cases hp

theorem sound_step {x : SoftRenderAct W} (hs : Sound images s) (hx : s.Orderly x = true) :
    Sound (fun display => images display ++ (decoded display x).toList) (step s x) := by
  have hmore : Sound (fun display => images display ++ (decoded display x).toList) s :=
    sound_more hs fun display image himage => List.mem_append_left _ himage
  cases x with
  | decode display image fresh =>
    exact sound_decode fresh hmore (List.mem_append_right _ (by simp [decoded]))
  | swap display => exact sound_swap hmore
  | tell display => exact sound_tell hmore hx
  | event i => exact sound_event i hmore
  | fetch i => exact sound_fetch hmore hx
  | done i => exact sound_done hmore hx
  | openWindow w displays =>
    refine sound_nextIfOne (sound_handlers _ hmore) ?_
    rintro display rfl
    have hquiet : s.reads display = false := by simpa [Orderly] using hx
    exact hquiet
  | listen w => exact sound_handlers _ hmore
  | switchDisplay w value =>
    unfold step
    dsimp only
    split
    · refine sound_nextIfOne (sound_handlers _ hmore) ?_
      rintro display rfl
      have hquiet : s.reads display = false := by simpa [Orderly] using hx
      exact hquiet
    · exact hmore
  | closeWindow w => exact sound_handlers _ hmore
  | clear =>
    refine sound_clear hmore fun display => Bool.eq_false_iff.mpr fun hread => ?_
    rw [Orderly, Bool.and_eq_true, List.isEmpty_iff] at hx
    obtain hsized | hheld := Bool.or_eq_true_iff.mp hread
    · obtain ⟨e, he, hcond⟩ := List.any_eq_true.mp hsized
      have hsome : s.sized.any (·.2.2 != 0) = true :=
        List.any_eq_true.mpr ⟨e, he, ((Bool.and_eq_true _ _).mp hcond).2⟩
      rw [hsome] at hx
      cases hx.1
    · rw [hx.2] at hheld
      cases hheld

theorem sound_run {xs : List (SoftRenderAct W)} (hs : Sound images s)
    (hxs : Along step (fun s x => s.Orderly x = true) s xs) :
    Sound (fun display => images display ++ frames display xs) (run step s xs) := by
  induction xs generalizing s images with
  | nil =>
    refine sound_more hs fun display image himage => ?_
    exact List.mem_append_left _ himage
  | cons x xs ih =>
    refine sound_more (ih (sound_step hs hxs.1) hxs.2) fun display image himage => ?_
    have hframes : frames display (x :: xs) = (decoded display x).toList ++ frames display xs := by
      unfold frames
      rw [List.filterMap_cons]
      cases decoded display x <;> rfl
    rw [hframes]
    rwa [List.append_assoc] at himage

/-- As long as the flag of a display is turned off, and its entry thrown away, only while nobody
    else reads it, in every state whatever a window reads is an image that was decoded for its
    display, of the length it was told, and as it was when the window was given the pointer. -/
theorem frames_kept (xs : List (SoftRenderAct W))
    (hxs : Along step (fun s x => s.Orderly x = true) {} xs) :
    (run step ({} : SoftRender W) xs).Kept fun display => frames display xs :=
  (sound_run sound_init hxs).kept

/-- A window is told of a frame and reads it, while the next one is decoded. -/
def oneFrame : List (SoftRenderAct ℕ) :=
  [.openWindow 0 [0], .listen 0, .decode 0 [1, 2] true, .swap 0, .tell 0, .event 0, .fetch 0,
    .decode 0 [3] false]

theorem frames_kept_oneFrame :
    (run step ({} : SoftRender ℕ) oneFrame).held = [⟨0, 0, 0, 2, [1, 2]⟩] ∧
      (run step ({} : SoftRender ℕ) oneFrame).Kept fun display => frames display oneFrame :=
  ⟨by decide, frames_kept oneFrame (by decide)⟩

/-- A second window on the same display is done first, and the thread writes into the frame that the
    first one reads. -/
example :
    let s := run step ({} : SoftRender ℕ)
      [.openWindow 0 [0], .listen 0, .openWindow 1 [0], .listen 1, .decode 0 [1, 2] true, .swap 0,
        .tell 0, .event 0, .event 0, .fetch 0, .fetch 0, .done 1, .decode 0 [3, 4] true, .swap 0,
        .tell 0, .decode 0 [5, 6] false]
    s.held.map (fun h => (h.bytes, s.heap h.buf)) = [([1, 2], some [5, 6])] := by decide

end SoftRender

end LuodaRemote
