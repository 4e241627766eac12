/-
  The cursor of a connection on the whiteboard (`update_whiteboard` and the loop of
  `start_whiteboard_` in `src/whiteboard/client.rs`).

  Of the movements that come, one in four is sent on. The last one that was held back is sent
  before the next click, or by the timer of the loop when nothing has come for a while. Only the
  first of these puts down where the cursor is: a click after the timer is drawn where the cursor
  was before. And the timer writes to the stream, past what is still in the queue.
  `passes_iff` says that nothing else goes wrong, in any order of events, ticks and turns of the
  loop.

  The loop runs, and the stream takes what it is given. Other connections use the same queue under
  other keys.
-/
import LuodaRemote.Lib.Run

namespace LuodaRemote
open Lib

/-! ## Events -/

/-- The event that came as number `tag`. -/
structure Cursor (F : Type*) where
  tag : ℕ
  x : F
  y : F
  argb : UInt32
  btns : Int32
  text : String
deriving DecidableEq

structure LastCursorEvent (F : Type*) where
  evt : Option (Cursor F)
  tm : ℕ
  c : ℕ

structure WhiteboardConn (F : Type*) where
  lastCursorPos : F × F
  lastCursorEvt : LastCursorEvent F

/-- A connection with what it has received and what it passes on. -/
structure CursorFeed (F : Type*) where
  conn : WhiteboardConn F
  /-- What `rx` holds. -/
  queue : List (Cursor F)
  /-- What was written to the stream. -/
  stream : List (Cursor F)
  received : List (Cursor F)
  /-- The last movement was sent by the timer. -/
  flushed : Bool

inductive FeedStep (F : Type*) where
  | event (x y : F) (argb : UInt32) (btns : Int32) (text : String) (now : ℕ)
  | recv
  | tick (now : ℕ)
deriving DecidableEq

namespace CursorFeed

variable {F : Type*}

def start [Zero F] (now : ℕ) : CursorFeed F where
  conn := ⟨(0, 0), ⟨none, now, 0⟩⟩
  queue := []
  stream := []
  received := []
  flushed := false

def txSendEvent (cursor : Cursor F) (s : CursorFeed F) : CursorFeed F :=
  { s with
    conn := { s.conn with
      lastCursorPos := if cursor.btns = 0 then (cursor.x, cursor.y) else s.conn.lastCursorPos }
    queue := s.queue ++ [cursor] }

def setEvt (evt : Option (Cursor F)) (c : ℕ) (s : CursorFeed F) : CursorFeed F :=
  { s with conn := { s.conn with lastCursorEvt := { s.conn.lastCursorEvt with evt, c } } }

/-- The part of `update_whiteboard` for a movement. -/
def move (cursor : Cursor F) (s : CursorFeed F) : CursorFeed F :=
  if s.conn.lastCursorEvt.c > 3 then (s.setEvt none 0).txSendEvent cursor
  else s.setEvt (some cursor) s.conn.lastCursorEvt.c

/-- What was held back, before a click. -/
def sendHeld (s : CursorFeed F) : CursorFeed F :=
  match s.conn.lastCursorEvt.evt with
  | some evt => (s.txSendEvent evt).setEvt none 0
  | none => s

def click (cursor : Cursor F) (s : CursorFeed F) : CursorFeed F :=
  let s := s.sendHeld
  s.txSendEvent { cursor with x := s.conn.lastCursorPos.1, y := s.conn.lastCursorPos.2 }

def arrive (cursor : Cursor F) (now : ℕ) (s : CursorFeed F) : CursorFeed F :=
  { s with
    conn := { s.conn with
      lastCursorEvt := ⟨s.conn.lastCursorEvt.evt, now, s.conn.lastCursorEvt.c + 1⟩ }
    received := s.received ++ [cursor] }

def updateWhiteboard (cursor : Cursor F) (now : ℕ) (s : CursorFeed F) : CursorFeed F :=
  let s := s.arrive cursor now
  if cursor.btns = 0 then { s.move cursor with flushed := false } else s.click cursor

/-- A turn of the loop for what is in the queue. -/
def recv (s : CursorFeed F) : CursorFeed F :=
  match s.queue with
  | cursor :: queue => { s with queue, stream := s.stream ++ [cursor] }
  | [] => s

/-- A turn of the loop for the timer. -/
def tick (now : ℕ) (s : CursorFeed F) : CursorFeed F :=
  if now - s.conn.lastCursorEvt.tm > 300 then
    match s.conn.lastCursorEvt.evt with
    | some evt => { s.setEvt none 0 with stream := s.stream ++ [evt], flushed := true }
    | none => s
  else s

def step (s : CursorFeed F) : FeedStep F → CursorFeed F
  | .event x y argb btns text now =>
    s.updateWhiteboard ⟨s.received.length, x, y, argb, btns, text⟩ now
  | .recv => s.recv
  | .tick now => s.tick now

/-! ## What is promised -/

/-- What has been written to the stream and what is on its way. -/
def passed (s : CursorFeed F) : List (Cursor F) := s.stream ++ s.queue

def movements (es : List (Cursor F)) : List (Cursor F) := es.filter (·.btns = 0)

def lastMovement (es : List (Cursor F)) : Option (Cursor F) := (movements es).getLast?

/-- Where the cursor is after the events. -/
def place [Zero F] (es : List (Cursor F)) : F × F :=
  match lastMovement es with
  | some e => (e.x, e.y)
  | none => (0, 0)

/-- The movements passed on are some of those that came, in order, and a click is where the cursor
    was when it came, after the movement that brought it there. -/
structure Passes [Zero F] (s : CursorFeed F) : Prop where
  received : ∀ e ∈ movements s.passed, s.received[e.tag]? = some e
  order : (movements s.passed).Pairwise (·.tag < ·.tag)
  place : ∀ e ∈ s.passed, e.btns ≠ 0 → (e.x, e.y) = place (s.received.take e.tag)
  before : ∀ e ∈ s.passed, e.btns ≠ 0 →
    ∀ m ∈ lastMovement (s.received.take e.tag), List.Sublist [m, e] s.passed

/-- A click after the timer finds the place written down, and the timer sends nothing past a
    movement in the queue. -/
def Allowed [Zero F] (s : CursorFeed F) : FeedStep F → Prop
  | .event _ _ _ btns _ _ =>
    btns ≠ 0 → s.flushed = true → s.conn.lastCursorPos = place s.received
  | .recv => True
  | .tick now => now - s.conn.lastCursorEvt.tm > 300 → s.conn.lastCursorEvt.evt ≠ none →
    movements s.queue = []

/-! ## What is passed on -/

section Lists

variable {es p q r : List (Cursor F)} {e m : Cursor F}

theorem movements_append (es es' : List (Cursor F)) :
    movements (es ++ es') = movements es ++ movements es' := List.filter_append es es'

theorem movements_move (he : e.btns = 0) : movements [e] = [e] := by
  simp [movements, he]

theorem movements_click (he : e.btns ≠ 0) : movements [e] = [] := by
  simp [movements, he]

theorem mem_movements : e ∈ movements es ↔ e ∈ es ∧ e.btns = 0 := by
  simp [movements]

theorem lastMovement_move (he : e.btns = 0) : lastMovement (es ++ [e]) = some e := by
  rw [lastMovement, movements_append, movements_move he, List.getLast?_concat]

theorem lastMovement_click (he : e.btns ≠ 0) : lastMovement (es ++ [e]) = lastMovement es := by
  rw [lastMovement, movements_append, movements_click he, List.append_nil]
  rfl

theorem mem_of_lastMovement (hm : lastMovement es = some m) : m ∈ es ∧ m.btns = 0 :=
  mem_movements.mp (List.mem_of_getLast? hm)

theorem take_arrived (he : e.tag < r.length) (a : Cursor F) :
    (r ++ [a]).take e.tag = r.take e.tag := List.take_append_of_le_length he.le

end Lists

/-- What holds of the events passed on, the events received, the movement held back and whether
    the timer sent the last one, whatever the order of steps. -/
structure Passing (p r : List (Cursor F)) (evt : Option (Cursor F)) (flushed : Bool) : Prop where
  tags : ∀ e ∈ p, e.tag < r.length
  stamped : ∀ e ∈ r, r[e.tag]? = some e
  received : ∀ e ∈ movements p, r[e.tag]? = some e
  /-- What is held back is the newest movement, and none that was sent. -/
  held : ∀ m, evt = some m →
    lastMovement r = some m ∧ (∀ e ∈ movements p, e.tag < m.tag) ∧ flushed = false
  sent : evt = none → ∀ m, lastMovement r = some m → m ∈ p
  before : ∀ e ∈ p, e.btns ≠ 0 → ∀ m ∈ lastMovement (r.take e.tag), List.Sublist [m, e] p

section Effects

variable {p q r : List (Cursor F)} {evt : Option (Cursor F)} {flushed : Bool} {e m : Cursor F}

theorem tag_lt_length (hm : r[m.tag]? = some m) : m.tag < r.length :=
  (List.getElem?_eq_some_iff.mp hm).1

theorem stamped_append (h : Passing p r evt flushed) (he : e.tag = r.length) :
    ∀ a ∈ r ++ [e], (r ++ [e])[a.tag]? = some a := by
  intro a ha
  rcases List.mem_append.mp ha with hold | hnew
  · have hgot := h.stamped a hold
    rw [List.getElem?_append_left (tag_lt_length hgot)]
    exact hgot
  · rw [List.mem_singleton.mp hnew, he, List.getElem?_concat_length]

theorem received_append (h : Passing p r evt flushed) (a : Cursor F) :
    ∀ e ∈ movements p, (r ++ [a])[e.tag]? = some e := by
  intro e he
  have hgot := h.received e he
  rw [List.getElem?_append_left (tag_lt_length hgot)]
  exact hgot

theorem tags_append (h : Passing p r evt flushed) (a : Cursor F) :
    ∀ e ∈ p, e.tag < (r ++ [a]).length := by
  intro e he
  have hlt := h.tags e he
  rw [List.length_append]
  omega

theorem before_append (h : Passing p r evt flushed) (a : Cursor F) (new : List (Cursor F)) :
    ∀ e ∈ p, e.btns ≠ 0 → ∀ m ∈ lastMovement ((r ++ [a]).take e.tag),
      List.Sublist [m, e] (p ++ new) := by
  intro e he hb m hm
  rw [take_arrived (h.tags e he)] at hm
  exact (h.before e he hb m hm).trans (List.sublist_append_left p new)

/-- A movement that is held back. -/
theorem Passing.hold (h : Passing p r evt flushed) (he : e.tag = r.length) (hb : e.btns = 0) :
    Passing p (r ++ [e]) (some e) false := by
  refine ⟨tags_append h e, stamped_append h he, received_append h e, ?_, by rintro ⟨⟩, ?_⟩
  · rintro m ⟨⟩
    refine ⟨lastMovement_move hb, fun a ha => ?_, rfl⟩
    exact (h.tags a (mem_movements.mp ha).1).trans_eq he.symm
  · intro a ha hclick m hm
    simpa using before_append h e [] a ha hclick m hm

/-- A movement that is sent on. -/
theorem Passing.move (h : Passing p r evt flushed) (he : e.tag = r.length) (hb : e.btns = 0) :
    Passing (p ++ [e]) (r ++ [e]) none false := by
  have hlast : (r ++ [e])[e.tag]? = some e :=
    stamped_append h he e (List.mem_append_right r (List.mem_singleton_self e))
  refine ⟨?_, stamped_append h he, ?_, by rintro m ⟨⟩, fun _ m hm => ?_, ?_⟩
  · exact List.forall_mem_append.mpr ⟨tags_append h e, by simp [he]⟩
  · rw [movements_append, movements_move hb]
    exact List.forall_mem_append.mpr ⟨received_append h e, List.forall_mem_singleton.mpr hlast⟩
  · rw [lastMovement_move hb] at hm
    cases hm
    exact List.mem_append_right p (List.mem_singleton_self e)
  · refine List.forall_mem_append.mpr ⟨before_append h e [e], ?_⟩
    exact List.forall_mem_singleton.mpr fun hclick => absurd hb hclick

/-- A click, at some place, with nothing held back. -/
theorem Passing.click (h : Passing p r none flushed) {c : Cursor F} (he : e.tag = r.length)
    (hc : c.tag = r.length) (hb : e.btns ≠ 0) (hcb : c.btns ≠ 0) :
    Passing (p ++ [c]) (r ++ [e]) none flushed := by
  refine ⟨?_, stamped_append h he, ?_, by rintro m ⟨⟩, fun _ m hm => ?_, ?_⟩
  · exact List.forall_mem_append.mpr ⟨tags_append h e, by simp [hc]⟩
  · rw [movements_append, movements_click hcb, List.append_nil]
    exact received_append h e
  · rw [lastMovement_click hb] at hm
    exact List.mem_append_left [c] (h.sent rfl m hm)
  · refine List.forall_mem_append.mpr ⟨before_append h e [c], ?_⟩
    refine List.forall_mem_singleton.mpr fun _ m hm => ?_
    rw [hc, List.take_left] at hm
    exact List.Sublist.append (List.singleton_sublist.mpr (h.sent rfl m hm)) (List.Sublist.refl [c])

/-- What was held back is put in somewhere. -/
theorem Passing.release (h : Passing (p ++ q) r (some m) flushed) (byTimer : Bool) :
    Passing (p ++ [m] ++ q) r none byTimer := by
  obtain ⟨hlast, _, _⟩ := h.held m rfl
  obtain ⟨hmem, hb⟩ := mem_of_lastMovement hlast
  have hsub : List.Sublist (p ++ q) (p ++ [m] ++ q) :=
    List.Sublist.append (List.sublist_append_left p [m]) (List.Sublist.refl q)
  have hcases : ∀ e ∈ p ++ [m] ++ q, e = m ∨ e ∈ p ++ q := by
    intro e he
    simp only [List.mem_append, List.mem_singleton] at he ⊢
    tauto
  refine ⟨fun e he => ?_, h.stamped, fun e he => ?_, by rintro a ⟨⟩, fun _ a ha => ?_,
    fun e he hclick => ?_⟩
  · rcases hcases e he with rfl | hold
    · exact tag_lt_length (h.stamped e hmem)
    · exact h.tags e hold
  · obtain ⟨he, heb⟩ := mem_movements.mp he
    rcases hcases e he with rfl | hold
    · exact h.stamped e hmem
    · exact h.received e (mem_movements.mpr ⟨hold, heb⟩)
  · rw [hlast] at ha
    cases ha
    simp
  · rcases hcases e he with rfl | hold
    · exact absurd hb hclick
    · exact fun a ha => (h.before e hold hclick a ha).trans hsub

/-! ### Order and places -/

theorem order_append_move (h : Passing p r evt flushed) (he : e.tag = r.length) (hb : e.btns = 0) :
    (movements (p ++ [e])).Pairwise (·.tag < ·.tag) ↔
      (movements p).Pairwise (·.tag < ·.tag) := by
  rw [movements_append, movements_move hb, List.pairwise_append]
  refine ⟨fun h => h.1, fun hp => ⟨hp, List.pairwise_singleton _ _, fun a ha b hb => ?_⟩⟩
  rw [List.mem_singleton.mp hb, he]
  exact h.tags a (mem_movements.mp ha).1

theorem movements_append_click {c : Cursor F} (hc : c.btns ≠ 0) :
    movements (p ++ [c]) = movements p := by
  rw [movements_append, movements_click hc, List.append_nil]

/-- The newest movement may come last only. -/
theorem order_release (h : Passing (p ++ q) r (some m) flushed) :
    (movements (p ++ [m] ++ q)).Pairwise (·.tag < ·.tag) ↔
      (movements (p ++ q)).Pairwise (·.tag < ·.tag) ∧ movements q = [] := by
  obtain ⟨hlast, hnewest, _⟩ := h.held m rfl
  have hb : m.btns = 0 := (mem_of_lastMovement hlast).2
  simp only [movements_append, movements_move hb] at hnewest ⊢
  constructor
  · intro hord
    refine ⟨hord.sublist ?_, List.eq_nil_iff_forall_not_mem.mpr fun a ha => ?_⟩
    · exact List.Sublist.append (List.sublist_append_left _ _) (List.Sublist.refl _)
    · have hlt : m.tag < a.tag := (List.pairwise_append.mp hord).2.2 m (by simp) a ha
      exact absurd (hnewest a (List.mem_append_right _ ha)) (Nat.lt_asymm hlt)
  · rintro ⟨hord, hnil⟩
    rw [hnil, List.append_nil] at hord hnewest ⊢
    refine List.pairwise_append.mpr ⟨hord, List.pairwise_singleton _ _, fun a ha b hb => ?_⟩
    rw [List.mem_singleton.mp hb]
    exact hnewest a ha

variable [Zero F]

/-- The clicks are where the cursor was. -/
def Placed (p r : List (Cursor F)) : Prop :=
  ∀ e ∈ p, e.btns ≠ 0 → (e.x, e.y) = place (r.take e.tag)

theorem placed_arrived (h : Passing p r evt flushed) (a : Cursor F) :
    Placed p (r ++ [a]) ↔ Placed p r := by
  refine forall₂_congr fun e he => ?_
  rw [take_arrived (h.tags e he)]

theorem placed_append_move (hb : e.btns = 0) : Placed (p ++ [e]) r ↔ Placed p r := by
  refine List.forall_mem_append.trans (and_iff_left ?_)
  exact List.forall_mem_singleton.mpr fun hclick => absurd hb hclick

theorem placed_append_click {c a : Cursor F} (hc : c.tag = r.length) (hb : c.btns ≠ 0) :
    Placed (p ++ [c]) (r ++ [a]) ↔ Placed p (r ++ [a]) ∧ (c.x, c.y) = place r := by
  refine List.forall_mem_append.trans (and_congr Iff.rfl ?_)
  rw [List.forall_mem_singleton, hc, List.take_left]
  exact ⟨fun h => h hb, fun h _ => h⟩

theorem placed_release (hb : m.btns = 0) : Placed (p ++ [m] ++ q) r ↔ Placed (p ++ q) r := by
  refine ⟨fun h e he => h e ?_, fun h e he => ?_⟩
  · rw [List.mem_append] at he ⊢
    exact he.imp (List.mem_append_left [m]) id
  · intro hclick
    refine h e ?_ hclick
    have hne : e ≠ m := by
      rintro rfl
      exact hclick hb
    simpa [hne] using he

end Effects

/-! ## One step -/

section Steps

variable {s : CursorFeed F} {e m : Cursor F} {now : ℕ}

def evt (s : CursorFeed F) : Option (Cursor F) := s.conn.lastCursorEvt.evt

theorem move_sent (hb : e.btns = 0) (hc : s.conn.lastCursorEvt.c + 1 > 3) :
    s.updateWhiteboard e now =
      ⟨⟨(e.x, e.y), ⟨none, now, 0⟩⟩, s.queue ++ [e], s.stream, s.received ++ [e], false⟩ := by
  have hc' : (s.arrive e now).conn.lastCursorEvt.c > 3 := hc
  unfold updateWhiteboard
  dsimp only
  rw [if_pos hb, move, if_pos hc']
  simp [txSendEvent, setEvt, arrive, hb]

theorem move_held (hb : e.btns = 0) (hc : ¬ s.conn.lastCursorEvt.c + 1 > 3) :
    s.updateWhiteboard e now =
      ⟨⟨s.conn.lastCursorPos, ⟨some e, now, s.conn.lastCursorEvt.c + 1⟩⟩, s.queue, s.stream,
        s.received ++ [e], false⟩ := by
  have hc' : ¬ (s.arrive e now).conn.lastCursorEvt.c > 3 := hc
  unfold updateWhiteboard
  dsimp only
  rw [if_pos hb, move, if_neg hc']
  rfl

/-- The click as it is passed on. -/
def clickAt (pos : F × F) (e : Cursor F) : Cursor F := { e with x := pos.1, y := pos.2 }

theorem click_plain (hb : e.btns ≠ 0) (hevt : s.evt = none) :
    s.updateWhiteboard e now =
      ⟨⟨s.conn.lastCursorPos, ⟨none, now, s.conn.lastCursorEvt.c + 1⟩⟩,
        s.queue ++ [clickAt s.conn.lastCursorPos e], s.stream, s.received ++ [e], s.flushed⟩ := by
  have hnone : (s.arrive e now).conn.lastCursorEvt.evt = none := hevt
  unfold updateWhiteboard click sendHeld
  dsimp only
  rw [if_neg hb, hnone]
  simp only [txSendEvent, arrive, if_neg hb, clickAt]
  rw [← hevt]
  rfl

theorem click_held (hb : e.btns ≠ 0) (hm : m.btns = 0) (hevt : s.evt = some m) :
    s.updateWhiteboard e now =
      ⟨⟨(m.x, m.y), ⟨none, now, 0⟩⟩, s.queue ++ [m] ++ [clickAt (m.x, m.y) e], s.stream,
        s.received ++ [e], s.flushed⟩ := by
  have hsome : (s.arrive e now).conn.lastCursorEvt.evt = some m := hevt
  unfold updateWhiteboard click sendHeld
  dsimp only
  rw [if_neg hb, hsome]
  simp [txSendEvent, setEvt, arrive, hb, hm, clickAt]

theorem passed_queue (s : CursorFeed F) (new : List (Cursor F)) :
    s.stream ++ (s.queue ++ new) = s.passed ++ new := (List.append_assoc ..).symm

variable [Zero F]

structure Inv (s : CursorFeed F) : Prop where
  passing : Passing s.passed s.received s.evt s.flushed
  /-- The place is written down when a movement is sent, but for the timer. -/
  pos : s.flushed = false → s.evt = none → s.conn.lastCursorPos = place s.received

theorem passes_iff_placed (h : s.Inv) : s.Passes ↔
    (movements s.passed).Pairwise (·.tag < ·.tag) ∧ Placed s.passed s.received :=
  ⟨fun hs => ⟨hs.order, hs.place⟩, fun hs => ⟨h.passing.received, hs.1, hs.2, h.passing.before⟩⟩

theorem place_move (hb : e.btns = 0) (r : List (Cursor F)) : place (r ++ [e]) = (e.x, e.y) := by
  rw [place, lastMovement_move hb]

theorem place_click (hb : e.btns ≠ 0) (r : List (Cursor F)) : place (r ++ [e]) = place r := by
  rw [place, lastMovement_click hb]
  rfl

theorem place_of_lastMovement {r : List (Cursor F)} (hm : lastMovement r = some m) :
    place r = (m.x, m.y) := by
  rw [place, hm]

variable (now) in
/-- A movement is put down or held back, whichever its turn is. -/
theorem move_keeps (h : s.Inv) (he : e.tag = s.received.length) (hb : e.btns = 0) :
    (s.updateWhiteboard e now).Inv ∧ ((s.updateWhiteboard e now).Passes ↔ s.Passes) := by
  by_cases hc : s.conn.lastCursorEvt.c + 1 > 3
  · rw [move_sent hb hc]
    have hpassed := passed_queue s [e]
    have hinv : Inv (⟨⟨(e.x, e.y), ⟨none, now, 0⟩⟩, s.queue ++ [e], s.stream, s.received ++ [e],
        false⟩ : CursorFeed F) := by
      refine ⟨?_, fun _ _ => (place_move hb _).symm⟩
      show Passing (s.stream ++ (s.queue ++ [e])) _ none false
      rw [hpassed]
      exact h.passing.move he hb
    refine ⟨hinv, ?_⟩
    rw [passes_iff_placed hinv, passes_iff_placed h]
    show (movements (s.stream ++ (s.queue ++ [e]))).Pairwise _ ∧
      Placed (s.stream ++ (s.queue ++ [e])) (s.received ++ [e]) ↔ _
    rw [hpassed, order_append_move h.passing he hb, placed_append_move hb, placed_arrived h.passing]
  · rw [move_held hb hc]
    have hinv : Inv (⟨⟨s.conn.lastCursorPos, ⟨some e, now, s.conn.lastCursorEvt.c + 1⟩⟩, s.queue,
        s.stream, s.received ++ [e], false⟩ : CursorFeed F) :=
      ⟨h.passing.hold he hb, by rintro _ ⟨⟩⟩
    refine ⟨hinv, ?_⟩
    rw [passes_iff_placed hinv, passes_iff_placed h]
    exact and_congr Iff.rfl (placed_arrived h.passing e)

variable (now) in
/-- A click with nothing held back is put where the last movement was written down. -/
theorem click_plain_keeps (h : s.Inv) (he : e.tag = s.received.length) (hb : e.btns ≠ 0)
    (hevt : s.evt = none) : (s.updateWhiteboard e now).Inv ∧
      ((s.updateWhiteboard e now).Passes ↔
        s.Passes ∧ s.conn.lastCursorPos = place s.received) := by
  have hpassing := h.passing
  rw [hevt] at hpassing
  rw [click_plain hb hevt]
  have hpassed := passed_queue s [clickAt s.conn.lastCursorPos e]
  have hinv : Inv (⟨⟨s.conn.lastCursorPos, ⟨none, now, s.conn.lastCursorEvt.c + 1⟩⟩,
      s.queue ++ [clickAt s.conn.lastCursorPos e], s.stream, s.received ++ [e], s.flushed⟩ :
        CursorFeed F) := by
    refine ⟨?_, fun hf _ => (h.pos hf hevt).trans (place_click hb _).symm⟩
    show Passing (s.stream ++ (s.queue ++ [clickAt s.conn.lastCursorPos e])) _ none s.flushed
    rw [hpassed]
    exact hpassing.click he he hb hb
  refine ⟨hinv, ?_⟩
  rw [passes_iff_placed hinv, passes_iff_placed h, and_assoc]
  show (movements (s.stream ++ (s.queue ++ [clickAt s.conn.lastCursorPos e]))).Pairwise _ ∧
    Placed (s.stream ++ (s.queue ++ [clickAt s.conn.lastCursorPos e])) (s.received ++ [e]) ↔ _
  rw [hpassed, movements_append_click (c := clickAt s.conn.lastCursorPos e) hb,
    placed_append_click (c := clickAt s.conn.lastCursorPos e) he hb, placed_arrived h.passing]
  exact Iff.rfl

variable (now) in
/-- A click behind a movement that was held back is put where that was. -/
theorem click_held_keeps (h : s.Inv) (he : e.tag = s.received.length) (hb : e.btns ≠ 0)
    (hevt : s.evt = some m) : (s.updateWhiteboard e now).Inv ∧
      ((s.updateWhiteboard e now).Passes ↔ s.Passes) := by
  have hpassing : Passing (s.passed ++ []) s.received (some m) s.flushed := by
    rw [List.append_nil, ← hevt]
    exact h.passing
  obtain ⟨hlast, _, _⟩ := hpassing.held m rfl
  have hm : m.btns = 0 := (mem_of_lastMovement hlast).2
  have hrelease := hpassing.release s.flushed
  rw [List.append_nil] at hrelease
  rw [click_held hb hm hevt]
  have hpassed : s.stream ++ (s.queue ++ [m] ++ [clickAt (m.x, m.y) e]) =
      s.passed ++ [m] ++ [clickAt (m.x, m.y) e] := by
    rw [← List.append_assoc, passed_queue]
  have hinv : Inv (⟨⟨(m.x, m.y), ⟨none, now, 0⟩⟩, s.queue ++ [m] ++ [clickAt (m.x, m.y) e],
      s.stream, s.received ++ [e], s.flushed⟩ : CursorFeed F) := by
    refine ⟨?_, fun _ _ => ?_⟩
    · show Passing (s.stream ++ (s.queue ++ [m] ++ [clickAt (m.x, m.y) e])) _ none s.flushed
      rw [hpassed]
      exact hrelease.click he he hb hb
    · exact ((place_click hb _).trans (place_of_lastMovement hlast)).symm
  refine ⟨hinv, ?_⟩
  rw [passes_iff_placed hinv, passes_iff_placed h]
  show (movements (s.stream ++ (s.queue ++ [m] ++ [clickAt (m.x, m.y) e]))).Pairwise _ ∧
    Placed (s.stream ++ (s.queue ++ [m] ++ [clickAt (m.x, m.y) e])) (s.received ++ [e]) ↔ _
  have horder := order_release hpassing
  rw [List.append_nil, List.append_nil] at horder
  rw [hpassed, movements_append_click (c := clickAt (m.x, m.y) e) hb, horder,
    placed_append_click (c := clickAt (m.x, m.y) e) he hb, placed_arrived hrelease,
    placed_append_move hm]
  have hplace : place s.received = (m.x, m.y) := place_of_lastMovement hlast
  exact and_congr (and_iff_left rfl) (and_iff_left hplace.symm)

theorem recv_keeps (h : s.Inv) : s.recv.Inv ∧ (s.recv.Passes ↔ s.Passes) := by
  unfold recv
  cases hqueue : s.queue with
  | nil => exact ⟨h, Iff.rfl⟩
  | cons c queue =>
    have hpassed : s.stream ++ [c] ++ queue = s.passed := by
      rw [passed, hqueue, List.append_assoc]
      rfl
    have hinv : Inv ({ s with queue, stream := s.stream ++ [c] } : CursorFeed F) := by
      refine ⟨?_, h.pos⟩
      show Passing (s.stream ++ [c] ++ queue) s.received s.evt s.flushed
      rw [hpassed]
      exact h.passing
    refine ⟨hinv, ?_⟩
    rw [passes_iff_placed hinv, passes_iff_placed h]
    show (movements (s.stream ++ [c] ++ queue)).Pairwise _ ∧
      Placed (s.stream ++ [c] ++ queue) s.received ↔ _
    rw [hpassed]

/-- The timer sends what is held back past the queue. -/
theorem tick_keeps (h : s.Inv) : (s.tick now).Inv ∧
    (s.Passes → ((s.tick now).Passes ↔ s.Allowed (.tick now))) := by
  by_cases hlate : now - s.conn.lastCursorEvt.tm > 300
  · cases hevt : s.evt with
    | none =>
      have hsame : s.tick now = s := by
        unfold tick
        rw [if_pos hlate, show s.conn.lastCursorEvt.evt = none from hevt]
      rw [hsame]
      exact ⟨h, fun hs => iff_of_true hs fun _ hne => absurd hevt hne⟩
    | some m =>
      have hpassing : Passing (s.stream ++ s.queue) s.received (some m) s.flushed := by
        rw [← hevt]
        exact h.passing
      have hm : m.btns = 0 := (mem_of_lastMovement (hpassing.held m rfl).1).2
      have htick : s.tick now =
          { s.setEvt none 0 with stream := s.stream ++ [m], flushed := true } := by
        unfold tick
        rw [if_pos hlate, show s.conn.lastCursorEvt.evt = some m from hevt]
      have hinv : Inv ({ s.setEvt none 0 with
          stream := s.stream ++ [m], flushed := true } : CursorFeed F) :=
        ⟨hpassing.release true, by rintro ⟨⟩⟩
      rw [htick]
      refine ⟨hinv, fun hs => ?_⟩
      rw [passes_iff_placed hinv]
      show (movements (s.stream ++ [m] ++ s.queue)).Pairwise _ ∧
        Placed (s.stream ++ [m] ++ s.queue) s.received ↔ _
      rw [order_release hpassing, placed_release hm]
      refine ⟨fun hboth _ _ => hboth.1.2, fun hall => ⟨⟨hs.order, hall hlate ?_⟩, hs.place⟩⟩
      rw [show s.conn.lastCursorEvt.evt = some m from hevt]
      exact Option.some_ne_none m
  · have hsame : s.tick now = s := if_neg hlate
    rw [hsame]
    exact ⟨h, fun hs => iff_of_true hs fun hlt => absurd hlt hlate⟩

theorem step_keeps (h : s.Inv) (a : FeedStep F) :
    (step s a).Inv ∧ (s.Passes → ((step s a).Passes ↔ s.Allowed a)) := by
  cases a with
  | event x y argb btns text now =>
    by_cases hb : btns = 0
    · obtain ⟨hinv, hiff⟩ := move_keeps now h
        (e := ⟨s.received.length, x, y, argb, btns, text⟩) rfl hb
      exact ⟨hinv, fun hs => iff_of_true (hiff.mpr hs) fun hne => absurd hb hne⟩
    · cases hevt : s.evt with
      | none =>
        obtain ⟨hinv, hiff⟩ := click_plain_keeps now h
          (e := ⟨s.received.length, x, y, argb, btns, text⟩) rfl hb hevt
        refine ⟨hinv, fun hs => hiff.trans ((and_iff_right hs).trans ?_)⟩
        refine ⟨fun hpos _ _ => hpos, fun hall => ?_⟩
        cases hf : s.flushed with
        | true => exact hall hb hf
        | false => exact h.pos hf hevt
      | some m =>
        obtain ⟨hinv, hiff⟩ := click_held_keeps now h
          (e := ⟨s.received.length, x, y, argb, btns, text⟩) rfl hb hevt
        refine ⟨hinv, fun hs => iff_of_true (hiff.mpr hs) fun _ hf => ?_⟩
        have hheld := (h.passing.held m hevt).2.2
        rw [hf] at hheld
        cases hheld
  | recv =>
    obtain ⟨hinv, hiff⟩ := recv_keeps h
    exact ⟨hinv, fun hs => iff_of_true (hiff.mpr hs) trivial⟩
  | tick now => exact tick_keeps h

theorem start_inv (now : ℕ) : (start now : CursorFeed F).Inv := by
  refine ⟨⟨?_, ?_, ?_, by rintro m ⟨⟩, by rintro _ m ⟨⟩, ?_⟩, fun _ _ => rfl⟩
  · exact fun e he => absurd he List.not_mem_nil
  · exact fun e he => absurd he List.not_mem_nil
  · exact fun e he => absurd he List.not_mem_nil
  · exact fun e he => absurd he List.not_mem_nil

theorem start_passes (now : ℕ) : (start now : CursorFeed F).Passes :=
  (passes_iff_placed (start_inv now)).mpr
    ⟨List.Pairwise.nil, fun _ he => absurd he List.not_mem_nil⟩

end Steps

/-! ## Every order of steps -/

/-- What is passed on is right throughout precisely if each step is allowed. -/
theorem passes_iff [Zero F] (now : ℕ) (steps : List (FeedStep F)) :
    Always step Passes (start now) steps ↔ Along step Allowed (start now) steps :=
  always_iff_along (I := Inv) (fun _ a h => (step_keeps h a).1)
    (fun _ a h hs => (step_keeps h a).2 hs) (start_inv now) (start_passes now)

/-- The cursor moves and rests, and the click is drawn at the origin. -/
def clickAfterRest : List (FeedStep ℤ) :=
  [.event 50 70 0 0 "" 0, .tick 301, .event 50 70 0 1 "" 400, .recv]

theorem click_at_origin : ¬ ∀ steps, Always step Passes (start 0 : CursorFeed ℤ) steps := by
  intro hall
  have hlast := (hall clickAfterRest).last
  have hmem : (⟨1, 0, 0, 0, 1, ""⟩ : Cursor ℤ) ∈ (run step (start 0) clickAfterRest).passed := by
    decide
  exact absurd (hlast.place _ hmem (by decide)) (by decide)

end CursorFeed

end LuodaRemote
