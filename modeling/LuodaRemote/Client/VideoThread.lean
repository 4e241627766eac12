/-
  The video frames of a viewer, from the connection to the decoder (`VideoThread` and
  `handle_msg_from_peer` of `src/client/io_loop.rs`, `start_video_thread` of `src/client.rs`).

  Every display has a thread that decodes. A frame with a key frame goes to it through its channel;
  any other one waits in a queue of 120, and a ticket goes through the channel. When the queue is
  full the oldest frame is pushed out and a refresh is asked for. The request passes through the
  loop's own channel of UI data; when the loop sends it to the peer, it tells the thread to throw
  queued frames away until the next key frame.

  `frames_in_order`: nothing is lost but what the queue pushes out, each kind of frame keeps its
  order, and the two kinds keep theirs while nothing is pushed out. `refresh_waits_for_key_frame`:
  after a request for a refresh the first frame that gets past the look at the flag is a key frame,
  and every frame that is pushed out has such a request of its own.

  A thread takes a frame from the queue, looks whether to throw it away, and decodes it, in three
  steps between which the loop may go on: a frame that is past the look when the request is sent
  is still decoded. Pictures, recording and the frame rate are left out.
-/
import LuodaRemote.Lib.Tickets
import LuodaRemote.Recorder

namespace LuodaRemote
open Lib Codec

namespace Viewer

/-! ## Frames and the channel of a thread -/

def videoQueueSize : ℕ := 120

def maxDecodeFailCounter : ℕ := 3

def usizeMax : ℕ := 2 ^ 64 - 1

/-- `display` as the loop casts it. -/
structure VideoFrame where
  display : ℕ
  union : Option Record.Union
  deriving DecidableEq

def VideoFrame.format (vf : VideoFrame) : CodecFormat :=
  match vf.union with
  | some u => u.format
  | none => .unknown

def VideoFrame.containsKeyFrame (vf : VideoFrame) : Bool :=
  match vf.union with
  | some (.vp8s f) | some (.vp9s f) | some (.av1s f) | some (.h264s f) | some (.h265s f) =>
    f.any fun e => e.key
  | some .rgb | some .yuv | none => false

/-- `MediaData` but for the ticket `VideoQueue`, as far as a video thread is sent it. -/
inductive Media where
  | videoFrame (vf : VideoFrame)
  | reset
  deriving DecidableEq

/-- What a thread has taken and not yet decoded. -/
inductive Held where
  /-- From the queue, with `discard_queue` still to be looked at. -/
  | queued (vf : VideoFrame)
  /-- To be decoded: it was not thrown away, or came as a `MediaData::VideoFrame`. -/
  | passed (vf : VideoFrame)
  deriving DecidableEq

/-- `Ok(true)`, `Ok(false)` and `Err` of `Decoder::handle_video_frame`. -/
inductive Outcome where
  | shown
  | nothing
  | error
  deriving DecidableEq

structure VideoHandler where
  /-- `decoder.format()` and `decoder.valid()`. -/
  format : CodecFormat
  valid : Bool
  failCounter : ℕ := 0
  firstFrame : Bool := true
  deriving DecidableEq

namespace VideoHandler

/-- `valid` is what a decoder that is built now would be. -/
def reset (valid : Bool) (format : Option CodecFormat) (h : VideoHandler) : VideoHandler :=
  { format := format.getD h.format, valid }

def handleFrame (vf : VideoFrame) (out : Outcome) (valid : Bool) (h : VideoHandler) :
    VideoHandler × Outcome :=
  let h := if vf.format ≠ h.format then h.reset valid (some vf.format) else h
  match vf.union with
  | none => (h, .nothing)
  | some _ =>
    let failCounter :=
      if out = .shown then 0
      else if h.failCounter < usizeMax then
        if h.firstFrame && h.failCounter < maxDecodeFailCounter then maxDecodeFailCounter
        else h.failCounter + 1
      else h.failCounter
    ({ h with failCounter, firstFrame := false }, out)

end VideoHandler

structure VideoThread where
  line : Feed VideoFrame Media := {}
  discardQueue : Bool := false
  held : Option Held := none
  handler : Option VideoHandler := none
  deriving DecidableEq

/-! ## The loop -/

/-- `Data`, as far as it concerns the video threads. -/
inductive Data where
  | refreshVideo
  | refreshVideoDisplay (display : ℕ)
  | supportedDecodings (markUnsupported : List CodecFormat)
  | resetDecoder (display : Option ℕ)
  | other
  deriving DecidableEq

end Viewer

structure Viewer where
  threads : ℕ → Option Viewer.VideoThread := fun _ => none
  /-- The data the loop has still to handle, oldest first. -/
  ui : List Viewer.Data := []
  markUnsupported : List CodecFormat := []

inductive ViewerAct where
  | videoFrame (vf : Viewer.VideoFrame)
  | switchDisplay (display : ℕ)
  /-- Someone sends data to the loop. -/
  | data (d : Viewer.Data)
  | handleMsgFromUi
  /-- The thread of a display takes its next message. -/
  | recv (display : ℕ) (valid : Bool)
  /-- The thread looks whether to throw away what it has taken. -/
  | check (display : ℕ)
  /-- The thread decodes it. -/
  | decode (display : ℕ) (out : Viewer.Outcome) (valid : Bool)

namespace Viewer

def setThread (display : ℕ) (t : VideoThread) (s : Viewer) : Viewer :=
  { s with threads := Function.update s.threads display (some t) }

def sendData (d : Data) (s : Viewer) : Viewer := { s with ui := s.ui ++ [d] }

/-- `refresh_video`, which names the display to a peer that knows of several ones. -/
def refresh (multiUi : Bool) (display : ℕ) : Data :=
  if multiUi then .refreshVideoDisplay display else .refreshVideo

/-- A frame comes from the peer. -/
def onVideoFrame (multiUi : Bool) (vf : VideoFrame) (s : Viewer) : Viewer :=
  let t := (s.threads vf.display).getD {}
  if vf.containsKeyFrame then
    s.setThread vf.display { t with line := t.line.send (.videoFrame vf) }
  else
    let s' := s.setThread vf.display { t with line := t.line.put videoQueueSize vf }
    if (t.line.pushedOut videoQueueSize).isSome then s'.sendData (refresh multiUi vf.display)
    else s'

def sendReset (t : VideoThread) : VideoThread := { t with line := t.line.send .reset }

def discard (t : VideoThread) : VideoThread := { t with discardQueue := true }

/-- A change of the thread of one display, if there is one. -/
def modify (display : ℕ) (f : VideoThread → VideoThread) (s : Viewer) : Viewer :=
  { s with threads := Function.update s.threads display ((s.threads display).map f) }

def modifyAll (f : VideoThread → VideoThread) (s : Viewer) : Viewer :=
  { s with threads := fun display => (s.threads display).map f }

def handleMsgFromUi (s : Viewer) : Viewer :=
  match s.ui with
  | [] => s
  | d :: ui =>
    let s := { s with ui }
    match d with
    | .refreshVideo => s.modifyAll discard
    | .refreshVideoDisplay display => s.modify display discard
    | .resetDecoder (some display) => s.modify display sendReset
    | .resetDecoder none => s.modifyAll sendReset
    | .supportedDecodings _ | .other => s

/-- One message of the channel. A thread that still holds a frame takes none. -/
def VideoThread.recv (valid : Bool) (t : VideoThread) : VideoThread :=
  match t.held with
  | some _ => t
  | none =>
    let t' := { t with line := t.line.take }
    match t.line.next with
    | none => t'
    | some (.inl vf) => { t' with held := some (.queued vf) }
    | some (.inr (.videoFrame vf)) => { t' with held := some (.passed vf), discardQueue := false }
    | some (.inr .reset) => { t' with handler := t.handler.map (·.reset valid none) }

/-- A frame from the queue is thrown away or goes on to the decoder. -/
def VideoThread.check (t : VideoThread) : VideoThread :=
  match t.held with
  | some (.queued vf) => { t with held := if t.discardQueue then none else some (.passed vf) }
  | some (.passed _) | none => t

/-- The frame that a thread is about to decode. -/
def VideoThread.toDecode (t : VideoThread) : Option VideoFrame :=
  match t.held with
  | some (.passed vf) => some vf
  | some (.queued _) | none => none

/-- Who fails to decode is marked, and the peer is told once. -/
def checkInvalid (h : VideoHandler) (s : Viewer) : Viewer :=
  if (!h.valid || maxDecodeFailCounter ≤ h.failCounter) && !s.markUnsupported.contains h.format then
    let markUnsupported := s.markUnsupported ++ [h.format]
    { s with markUnsupported, ui := s.ui ++ [.supportedDecodings markUnsupported] }
  else s

def decode (multiUi : Bool) (display : ℕ) (out : Outcome) (valid : Bool) (s : Viewer) : Viewer :=
  match s.threads display with
  | none => s
  | some t =>
    match t.toDecode with
    | none => s
    | some vf =>
      let h := t.handler.getD { format := vf.format, valid }
      let (h, out) := h.handleFrame vf out valid
      let s := s.setThread display { t with held := none, handler := some h }
      let s := if out = .error then s.sendData (refresh multiUi vf.display) else s
      s.checkInvalid h

def step (multiUi : Bool) (s : Viewer) : ViewerAct → Viewer
  | .videoFrame vf => s.onVideoFrame multiUi vf
  | .switchDisplay display => s.modify display sendReset
  | .data d => s.sendData d
  | .handleMsgFromUi => s.handleMsgFromUi
  | .recv display valid => s.modify display (·.recv valid)
  | .check display => s.modify display VideoThread.check
  | .decode display out valid => s.decode multiUi display out valid

/-! ## One thread -/

/-- What can happen to a thread. -/
inductive ThreadAct where
  | frame (vf : VideoFrame)
  | reset
  | discard
  | recv (valid : Bool)
  | check
  | decode (out : Outcome) (valid : Bool)

def VideoThread.step (t : VideoThread) : ThreadAct → VideoThread
  | .frame vf =>
    if vf.containsKeyFrame then { t with line := t.line.send (.videoFrame vf) }
    else { t with line := t.line.put videoQueueSize vf }
  | .reset => sendReset t
  | .discard => Viewer.discard t
  | .recv valid => t.recv valid
  | .check => t.check
  | .decode out valid =>
    match t.toDecode with
    | none => t
    | some vf =>
      let h := t.handler.getD { format := vf.format, valid }
      { t with held := none, handler := some (h.handleFrame vf out valid).1 }

section
variable {multiUi : Bool}

/-- What a step does to the thread of `display`. -/
def threadAct (display : ℕ) (s : Viewer) : ViewerAct → Option ThreadAct
  | .videoFrame vf => if vf.display = display then some (.frame vf) else none
  | .switchDisplay d => if d = display then some .reset else none
  | .handleMsgFromUi =>
    match s.ui.head? with
    | some .refreshVideo => some .discard
    | some (.refreshVideoDisplay d) => if d = display then some .discard else none
    | some (.resetDecoder d) => if d.all (· = display) then some .reset else none
    | _ => none
  | .recv d valid => if d = display then some (.recv valid) else none
  | .check d => if d = display then some .check else none
  | .decode d out valid => if d = display then some (.decode out valid) else none
  | .data _ => none

/-- A frame finds or starts the thread; anything else is for a thread that is there. -/
def threadStep (t : Option VideoThread) : ThreadAct → Option VideoThread
  | .frame vf => some ((t.getD {}).step (.frame vf))
  | a => t.map (·.step a)

theorem threads_modify (display d : ℕ) (f : VideoThread → VideoThread) (s : Viewer) :
    (s.modify d f).threads display =
      if d = display then (s.threads display).map f else s.threads display := by
  by_cases h : d = display
  · subst h
    simp [modify]
  · simp [modify, h, Ne.symm h]

theorem threads_setThread (display d : ℕ) (t : VideoThread) (s : Viewer) :
    (s.setThread d t).threads display = if d = display then some t else s.threads display := by
  by_cases h : d = display
  · subst h
    simp [setThread]
  · simp [setThread, h, Ne.symm h]

theorem threads_checkInvalid (display : ℕ) (h : VideoHandler) (s : Viewer) :
    (s.checkInvalid h).threads display = s.threads display := by
  unfold checkInvalid
  split <;> rfl

theorem threads_onVideoFrame (display : ℕ) (vf : VideoFrame) (s : Viewer) :
    (s.onVideoFrame multiUi vf).threads display =
      if vf.display = display then some (((s.threads display).getD {}).step (.frame vf))
      else s.threads display := by
  have hset : (s.onVideoFrame multiUi vf).threads =
      (s.setThread vf.display (((s.threads vf.display).getD {}).step (.frame vf))).threads := by
    unfold onVideoFrame VideoThread.step
    dsimp only
    split
    · rfl
    · split <;> rfl
  rw [hset, threads_setThread]
  split
  · next h => rw [h]
  · rfl

theorem threads_decode (display d : ℕ) (out : Outcome) (valid : Bool) (s : Viewer) :
    (s.decode multiUi d out valid).threads display =
      if d = display then (s.threads display).map (·.step (.decode out valid))
      else s.threads display := by
  unfold decode
  cases ht : s.threads d with
  | none =>
    by_cases h : d = display
    · simp [← h, ht]
    · simp [h]
  | some t =>
    have hmap : (s.setThread d (t.step (.decode out valid))).threads display =
        if d = display then (s.threads display).map (·.step (.decode out valid))
        else s.threads display := by
      rw [threads_setThread]
      split
      · next h => simp [← h, ht]
      · rfl
    rw [← hmap]
    dsimp only [VideoThread.step]
    cases t.toDecode with
    | none =>
      rw [threads_setThread]
      by_cases h : d = display
      · rw [if_pos h, ← h]
        exact ht
      · rw [if_neg h]
    | some vf =>
      dsimp only
      rw [threads_checkInvalid]
      split <;> rfl

/-- All that a step does to a thread. -/
theorem threads_step (display : ℕ) (s : Viewer) (x : ViewerAct) :
    (step multiUi s x).threads display =
      (threadAct display s x).elim (s.threads display) (threadStep (s.threads display)) := by
  cases x with
  | videoFrame vf =>
    rw [step, threads_onVideoFrame, threadAct]
    split <;> rfl
  | switchDisplay d =>
    rw [step, threads_modify, threadAct]
    split <;> rfl
  | data d => rfl
  | handleMsgFromUi =>
    rw [step, threadAct]
    unfold handleMsgFromUi
    match s.ui with
    | [] => rfl
    | .refreshVideo :: _ => rfl
    | .refreshVideoDisplay d :: _ =>
      simp only [List.head?_cons, threads_modify]
      split <;> rfl
    | .resetDecoder (some d) :: _ =>
      simp only [List.head?_cons, threads_modify, Option.all_some, decide_eq_true_eq]
      split <;> rfl
    | .resetDecoder none :: _ => rfl
    | .supportedDecodings _ :: _ => rfl
    | .other :: _ => rfl
  | recv d valid =>
    rw [step, threads_modify, threadAct]
    split <;> rfl
  | check d =>
    rw [step, threads_modify, threadAct]
    split <;> rfl
  | decode d out valid =>
    rw [step, threads_decode, threadAct]
    split <;> rfl

/-- A message of the UI resets the thread or has it throw frames away. -/
theorem threadAct_ui (display : ℕ) (s : Viewer) :
    threadAct display s .handleMsgFromUi = none ∨
      threadAct display s .handleMsgFromUi = some .reset ∨
      threadAct display s .handleMsgFromUi = some .discard := by
  unfold threadAct
  dsimp only
  split
  · exact .inr (.inr rfl)
  · split
    · exact .inr (.inr rfl)
    · exact .inl rfl
  · split
    · exact .inr (.inl rfl)
    · exact .inl rfl
  · exact .inl rfl

/-! ## Its channel and queue -/

def lineOf (display : ℕ) (s : Viewer) : Feed VideoFrame Media :=
  ((s.threads display).map VideoThread.line).getD {}

/-- What a step makes of a frame, seen from the line of its display. -/
def frameAct (vf : VideoFrame) : FeedAct VideoFrame Media :=
  if vf.containsKeyFrame then .send (.videoFrame vf) else .put vf

/-- The steps of the line of a thread that is there. -/
def VideoThread.lineActs (t : VideoThread) : ThreadAct → List (FeedAct VideoFrame Media)
  | .frame vf => [frameAct vf]
  | .reset => [.send .reset]
  | .recv _ => if t.held.isSome then [] else [.take]
  | .discard | .check | .decode .. => []

/-- The steps of the line of `display`. -/
def lineActs (display : ℕ) (s : Viewer) (x : ViewerAct) : List (FeedAct VideoFrame Media) :=
  match threadAct display s x with
  | none => []
  | some (.frame vf) => [frameAct vf]
  | some a => (s.threads display).elim [] (·.lineActs a)

theorem line_recv (valid : Bool) (t : VideoThread) :
    (t.recv valid).line = if t.held.isSome then t.line else t.line.take := by
  unfold VideoThread.recv
  cases t.held with
  | some h => rfl
  | none =>
    dsimp only [Option.isSome_none]
    match t.line.next with
    | none => rfl
    | some (.inl vf) => rfl
    | some (.inr (.videoFrame vf)) => rfl
    | some (.inr .reset) => rfl

theorem line_step (t : VideoThread) (a : ThreadAct) :
    (t.step a).line = run (Feed.step videoQueueSize) t.line (t.lineActs a) := by
  cases a with
  | frame vf => cases hkey : vf.containsKeyFrame <;> simp [VideoThread.step, VideoThread.lineActs,
      frameAct, hkey, Feed.step]
  | reset => rfl
  | discard => rfl
  | recv valid =>
    rw [VideoThread.step, line_recv, VideoThread.lineActs]
    split <;> rfl
  | check =>
    rw [VideoThread.step, VideoThread.lineActs, VideoThread.check]
    split <;> rfl
  | decode out valid =>
    rw [VideoThread.step, VideoThread.lineActs]
    split <;> rfl

/-- The loop and the thread do to a display's line what `lineActs` says. -/
theorem lineOf_step (display : ℕ) (s : Viewer) (x : ViewerAct) :
    (step multiUi s x).lineOf display =
      run (Feed.step videoQueueSize) (s.lineOf display) (s.lineActs display x) := by
  unfold lineOf lineActs
  rw [threads_step]
  cases s.threads display with
  | none => rcases threadAct display s x with _ | (vf | _) <;> first | rfl | exact line_step {} _
  | some t => rcases threadAct display s x with _ | (vf | _) <;> first | rfl | exact line_step t _

/-! ## What a thread takes -/

def frame? : VideoFrame ⊕ Media → Option VideoFrame
  | .inl vf | .inr (.videoFrame vf) => some vf
  | .inr .reset => none

/-- The frames that come from the peer for the display. -/
def comes (display : ℕ) (_ : Viewer) : ViewerAct → List VideoFrame
  | .videoFrame vf => if vf.display = display then [vf] else []
  | .switchDisplay _ | .data _ | .handleMsgFromUi | .recv .. | .check _ | .decode .. => []

/-- The frames that the thread of the display takes. -/
def takes (display : ℕ) (s : Viewer) : ViewerAct → List VideoFrame
  | .recv d _ =>
    if d = display then
      (s.threads display).elim [] fun t =>
        if t.held.isSome then [] else (t.line.next.bind frame?).toList
    else []
  | .videoFrame _ | .switchDisplay _ | .data _ | .handleMsgFromUi | .check _ | .decode .. => []

/-- The frames that are pushed out of the queue of the display. -/
def pushes (display : ℕ) (s : Viewer) : ViewerAct → List VideoFrame
  | .videoFrame vf =>
    if vf.display = display ∧ vf.containsKeyFrame = false then
      ((s.lineOf display).pushedOut videoQueueSize).toList
    else []
  | .switchDisplay _ | .data _ | .handleMsgFromUi | .recv .. | .check _ | .decode .. => []

/-- The frames that have come and wait for the thread, in the order in which it will take them. -/
def waiting (display : ℕ) (s : Viewer) : List VideoFrame :=
  (s.lineOf display).pending.filterMap frame?

/-- What the line sends in a step of the loop or of a thread, if a reset makes it send nothing. -/
theorem emitted_lineActs {γ : Type*}
    {out : Feed VideoFrame Media → FeedAct VideoFrame Media → List γ}
    (hreset : ∀ l, out l (.send .reset) = []) (display : ℕ) (s : Viewer) (x : ViewerAct) :
    emitted (Feed.step videoQueueSize) out (s.lineOf display) (s.lineActs display x) =
      match x with
      | .videoFrame vf =>
        if vf.display = display then out (s.lineOf display) (frameAct vf) else []
      | .recv d _ =>
        if d = display then
          (s.threads display).elim [] fun t => if t.held.isSome then [] else out t.line .take
        else []
      | .switchDisplay _ | .data _ | .handleMsgFromUi | .check _ | .decode .. => [] := by
  have hsilent : ∀ a : ThreadAct, a = .reset ∨ a = .discard ∨ a = .check →
      emitted (Feed.step videoQueueSize) out (s.lineOf display)
        ((s.threads display).elim [] (·.lineActs a)) = [] := by
    rintro a (rfl | rfl | rfl) <;> cases s.threads display <;> first | rfl | skip
    exact (List.append_nil _).trans (hreset _)
  unfold lineActs
  cases x with
  | videoFrame vf =>
    by_cases h : vf.display = display <;> simp [threadAct, h, emitted]
  | switchDisplay d =>
    rw [threadAct]
    by_cases h : d = display
    · rw [if_pos h]
      exact hsilent .reset (.inl rfl)
    · rw [if_neg h]
      rfl
  | data d => rfl
  | handleMsgFromUi =>
    obtain h | h | h := threadAct_ui display s
    · rw [h]
      rfl
    · rw [h]
      exact hsilent .reset (.inl rfl)
    · rw [h]
      exact hsilent .discard (.inr (.inl rfl))
  | check d =>
    rw [threadAct]
    by_cases h : d = display
    · rw [if_pos h]
      exact hsilent .check (.inr (.inr rfl))
    · rw [if_neg h]
      rfl
  | recv d valid =>
    by_cases h : d = display
    · cases ht : s.threads display with
      | none => simp [threadAct, h, emitted]
      | some t => cases hheld : t.held.isSome <;>
          simp [threadAct, h, VideoThread.lineActs, hheld, emitted, lineOf, ht]
    · simp [threadAct, h, emitted]
  | decode d out valid =>
    by_cases h : d = display
    · cases ht : s.threads display <;>
        simp [threadAct, h, VideoThread.lineActs, emitted]
    · simp [threadAct, h, emitted]

theorem comes_eq (display : ℕ) (s : Viewer) (x : ViewerAct) :
    s.comes display x = emitted (Feed.step videoQueueSize)
      (fun l a => (l.given a).filterMap frame?) (s.lineOf display) (s.lineActs display x) := by
  rw [emitted_lineActs fun _ => rfl]
  cases x with
  | videoFrame vf =>
    cases hkey : vf.containsKeyFrame <;> simp [comes, frameAct, hkey, Feed.given, frame?]
  | recv d valid =>
    simp only [comes]
    split
    · cases s.threads display <;> simp [Feed.given]
    · rfl
  | _ => rfl

theorem takes_eq (display : ℕ) (s : Viewer) (x : ViewerAct) :
    s.takes display x = emitted (Feed.step videoQueueSize)
      (fun l a => (l.taken a).filterMap frame?) (s.lineOf display) (s.lineActs display x) := by
  rw [emitted_lineActs fun _ => rfl]
  cases x with
  | videoFrame vf => cases hkey : vf.containsKeyFrame <;> simp [takes, frameAct, hkey, Feed.taken]
  | recv d valid =>
    simp only [takes]
    split
    · cases s.threads display with
      | none => rfl
      | some t =>
        have h : (t.line.next.bind frame?).toList = (t.line.next.toList).filterMap frame? := by
          cases t.line.next with
          | none => rfl
          | some m => cases hm : frame? m <;> simp [hm]
        exact congrArg (fun taken => if t.held.isSome then [] else taken) h
    · rfl
  | _ => rfl

theorem pushes_eq (display : ℕ) (s : Viewer) (x : ViewerAct) :
    s.pushes display x = emitted (Feed.step videoQueueSize) (Feed.lost videoQueueSize)
      (s.lineOf display) (s.lineActs display x) := by
  rw [emitted_lineActs fun _ => rfl]
  cases x with
  | videoFrame vf => cases hkey : vf.containsKeyFrame <;> simp [pushes, frameAct, hkey, Feed.lost]
  | recv d valid =>
    simp only [pushes]
    split
    · cases s.threads display <;> simp [Feed.lost]
    · rfl
  | _ => rfl

/-! ## The order of the frames -/

/-- Key frames travel in the channel, the others wait in the queue. -/
def InPlace : VideoFrame ⊕ Media → Prop
  | .inl vf => vf.containsKeyFrame = false
  | .inr (.videoFrame vf) => vf.containsKeyFrame = true
  | .inr .reset => True

def mediaFrame? : Media → Option VideoFrame
  | .videoFrame vf => some vf
  | .reset => none

theorem filter_keyFrames {ms : List (VideoFrame ⊕ Media)} (h : ∀ m ∈ ms, InPlace m) :
    (ms.filterMap frame?).filter (·.containsKeyFrame) =
      (ms.filterMap Sum.getRight?).filterMap mediaFrame? := by
  rw [List.filter_filterMap, List.filterMap_filterMap]
  refine List.filterMap_congr fun m hm => ?_
  match m, h m hm with
  | .inl vf, hin => exact Option.filter_some_neg hin
  | .inr (.videoFrame vf), hin => exact Option.filter_some_pos hin
  | .inr .reset, _ => rfl

theorem filter_others {ms : List (VideoFrame ⊕ Media)} (h : ∀ m ∈ ms, InPlace m) :
    (ms.filterMap frame?).filter (!·.containsKeyFrame) = ms.filterMap Sum.getLeft? := by
  rw [List.filter_filterMap]
  refine List.filterMap_congr fun m hm => ?_
  match m, h m hm with
  | .inl vf, hin => exact Option.filter_some_pos (congrArg not hin)
  | .inr (.videoFrame vf), hin => exact Option.filter_some_neg (congrArg not hin)
  | .inr .reset, _ => rfl

theorem inPlace_lineActs (display : ℕ) (s : Viewer) (x : ViewerAct) :
    ∀ m ∈ emitted (Feed.step videoQueueSize) Feed.given (s.lineOf display) (s.lineActs display x),
      InPlace m := by
  have hframe : ∀ (l : Feed VideoFrame Media) (vf : VideoFrame),
      ∀ m ∈ emitted (Feed.step videoQueueSize) Feed.given l [frameAct vf], InPlace m := by
    intro l vf
    cases hkey : vf.containsKeyFrame <;> simp [frameAct, hkey, emitted, Feed.given, InPlace]
  have hthread : ∀ (l : Feed VideoFrame Media) (t : VideoThread) (a : ThreadAct),
      ∀ m ∈ emitted (Feed.step videoQueueSize) Feed.given l (t.lineActs a), InPlace m := by
    intro l t a
    cases a with
    | frame vf => exact hframe l vf
    | recv _ =>
      cases hheld : t.held.isSome <;> simp [VideoThread.lineActs, hheld, emitted, Feed.given]
    | _ => simp [VideoThread.lineActs, emitted, Feed.given, InPlace]
  unfold lineActs
  split
  · exact List.forall_mem_nil _
  · exact hframe _ _
  · cases s.threads display with
    | none => exact List.forall_mem_nil _
    | some t => exact hthread _ t _

/-! The line of a display over a run. -/

section
variable (multiUi) (display : ℕ) (s : Viewer) (xs : List ViewerAct)

theorem lineOf_run : (run (step multiUi) s xs).lineOf display =
    run (Feed.step videoQueueSize) (s.lineOf display)
      (emitted (step multiUi) (lineActs display) s xs) :=
  run_driven (@lineOf_step multiUi display) s xs

theorem comes_run : emitted (step multiUi) (comes display) s xs =
    (emitted (Feed.step videoQueueSize) Feed.given (s.lineOf display)
      (emitted (step multiUi) (lineActs display) s xs)).filterMap frame? := by
  rw [filterMap_emitted, emitted_driven (@lineOf_step multiUi display)]
  exact congrArg (fun f => emitted _ f s xs) (funext₂ (comes_eq display))

theorem takes_run : emitted (step multiUi) (takes display) s xs =
    (emitted (Feed.step videoQueueSize) Feed.taken (s.lineOf display)
      (emitted (step multiUi) (lineActs display) s xs)).filterMap frame? := by
  rw [filterMap_emitted, emitted_driven (@lineOf_step multiUi display)]
  exact congrArg (fun f => emitted _ f s xs) (funext₂ (takes_eq display))

theorem pushes_run : emitted (step multiUi) (pushes display) s xs =
    emitted (Feed.step videoQueueSize) (Feed.lost videoQueueSize) (s.lineOf display)
      (emitted (step multiUi) (lineActs display) s xs) := by
  rw [emitted_driven (@lineOf_step multiUi display)]
  exact congrArg (fun f => emitted _ f s xs) (funext₂ (pushes_eq display))

theorem inPlace_run : ∀ m ∈ emitted (Feed.step videoQueueSize) Feed.given (s.lineOf display)
    (emitted (step multiUi) (lineActs display) s xs), InPlace m := by
  rw [emitted_driven (@lineOf_step multiUi display)]
  exact forall_mem_emitted (fun s x => inPlace_lineActs display s x) s xs

end

theorem videoQueueSize_pos : 0 < videoQueueSize := by decide

theorem matched_init (display : ℕ) : (({} : Viewer).lineOf display).Matched := rfl

/-- What the line of a display gives, taken and waiting, from the start. -/
def given (multiUi : Bool) (display : ℕ) (xs : List ViewerAct) : List (VideoFrame ⊕ Media) :=
  emitted (Feed.step videoQueueSize) Feed.taken (({} : Viewer).lineOf display)
      (emitted (step multiUi) (lineActs display) {} xs) ++
    ((run (step multiUi) {} xs).lineOf display).pending

theorem frames_given (display : ℕ) (xs : List ViewerAct) :
    (given multiUi display xs).filterMap frame? =
      emitted (step multiUi) (takes display) {} xs ++
        (run (step multiUi) {} xs).waiting display := by
  rw [given, List.filterMap_append, takes_run]
  rfl

/-- What is queued comes out in order, but for what is pushed out. -/
theorem lefts_given (display : ℕ) (xs : List ViewerAct) :
    ((given multiUi display xs).filterMap Sum.getLeft?).Sublist
        ((emitted (Feed.step videoQueueSize) Feed.given (({} : Viewer).lineOf display)
          (emitted (step multiUi) (lineActs display) {} xs)).filterMap Sum.getLeft?) ∧
      ((given multiUi display xs).filterMap Sum.getLeft?).length +
          (emitted (step multiUi) (pushes display) {} xs).length =
        ((emitted (Feed.step videoQueueSize) Feed.given (({} : Viewer).lineOf display)
          (emitted (step multiUi) (lineActs display) {} xs)).filterMap Sum.getLeft?).length := by
  have hmatched := Feed.matched_run videoQueueSize_pos (matched_init display)
    (emitted (step multiUi) (lineActs display) {} xs)
  rw [given, List.filterMap_append, lineOf_run, Feed.pending, Feed.due_left hmatched, pushes_run]
  constructor
  · exact Feed.takenLeft_run videoQueueSize_pos (matched_init display) _
  · have hlen := Feed.length_leaving_run videoQueueSize_pos (matched_init display)
      (emitted (step multiUi) (lineActs display) {} xs)
    have hinit : (({} : Viewer).lineOf display).buffer.length = 0 := rfl
    rw [List.length_append]
    omega

/-- What travels in the channel comes out in order. -/
theorem rights_given (display : ℕ) (xs : List ViewerAct) :
    (given multiUi display xs).filterMap Sum.getRight? =
      (emitted (Feed.step videoQueueSize) Feed.given (({} : Viewer).lineOf display)
        (emitted (step multiUi) (lineActs display) {} xs)).filterMap Sum.getRight? := by
  rw [given, List.filterMap_append, lineOf_run, Feed.pending, Feed.due_right]
  exact Feed.takenRight_run _ _

theorem inPlace_given (display : ℕ) (xs : List ViewerAct) :
    ∀ m ∈ given multiUi display xs, InPlace m := by
  have hin := inPlace_run multiUi display {} xs
  intro m hm
  cases m with
  | inl vf =>
    have hmem : vf ∈ (given multiUi display xs).filterMap Sum.getLeft? :=
      List.mem_filterMap.mpr ⟨_, hm, rfl⟩
    obtain ⟨m', hm', hvf⟩ := List.mem_filterMap.mp ((lefts_given display xs).1.subset hmem)
    rw [← Sum.getLeft?_eq_some_iff.mp hvf]
    exact hin m' hm'
  | inr b =>
    have hmem : b ∈ (given multiUi display xs).filterMap Sum.getRight? :=
      List.mem_filterMap.mpr ⟨_, hm, rfl⟩
    rw [rights_given] at hmem
    obtain ⟨m', hm', hb⟩ := List.mem_filterMap.mp hmem
    rw [← Sum.getRight?_eq_some_iff.mp hb]
    exact hin m' hm'

theorem matched_run (display : ℕ) (xs : List ViewerAct) :
    ((run (step multiUi) {} xs).lineOf display).Matched := by
  rw [lineOf_run]
  exact Feed.matched_run videoQueueSize_pos (matched_init display) _

/-- While nothing is pushed out, a thread takes what waits for it and then what comes. -/
theorem takes_in_order {display : ℕ} {s : Viewer} {xs : List ViewerAct}
    (hmatched : (s.lineOf display).Matched)
    (hroom : emitted (step multiUi) (pushes display) s xs = []) :
    emitted (step multiUi) (takes display) s xs ++ (run (step multiUi) s xs).waiting display =
      s.waiting display ++ emitted (step multiUi) (comes display) s xs := by
  rw [pushes_run] at hroom
  have hline := Feed.taken_run_of_fits videoQueueSize_pos hmatched
    (Feed.fits_of_lost videoQueueSize_pos hroom)
  rw [takes_run, comes_run, waiting, waiting, lineOf_run, ← List.filterMap_append, hline,
    List.filterMap_append]

/-- What a display's thread has taken and what waits for it, against what has come: as long as
    nothing is pushed out it is the same in the same order, whatever happened before. Over the
    whole run all key frames are there in order, and the other frames in order but for as many as
    were pushed out. -/
theorem frames_in_order (multiUi : Bool) (display : ℕ) (before after : List ViewerAct) :
    let s := run (step multiUi) {} before
    let s' := run (step multiUi) s after
    let taken := emitted (step multiUi) (takes display) {} before ++ s.waiting display
    let come := emitted (step multiUi) (comes display) {} before
    (emitted (step multiUi) (pushes display) s after = [] →
      emitted (step multiUi) (takes display) s after ++ s'.waiting display =
        s.waiting display ++ emitted (step multiUi) (comes display) s after) ∧
    taken.filter (·.containsKeyFrame) = come.filter (·.containsKeyFrame) ∧
    (taken.filter (!·.containsKeyFrame)).Sublist (come.filter (!·.containsKeyFrame)) ∧
    taken.length + (emitted (step multiUi) (pushes display) {} before).length = come.length := by
  intro s s' taken come
  have hkeys : taken.filter (·.containsKeyFrame) = come.filter (·.containsKeyFrame) := by
    change (_ ++ _ : List VideoFrame).filter _ = (emitted _ _ _ _).filter _
    rw [← frames_given, filter_keyFrames (inPlace_given display before), rights_given, comes_run,
      filter_keyFrames (inPlace_run multiUi display {} before)]
  obtain ⟨hsub, hlen⟩ := @lefts_given multiUi display before
  have htaken : taken.filter (!·.containsKeyFrame) =
      (given multiUi display before).filterMap Sum.getLeft? := by
    change (_ ++ _ : List VideoFrame).filter _ = _
    rw [← frames_given, filter_others (inPlace_given display before)]
  have hcome := filter_others (inPlace_run multiUi display {} before)
  rw [← comes_run] at hcome
  rw [← htaken, ← hcome] at hsub hlen
  refine ⟨takes_in_order (matched_run display before), hkeys, hsub, ?_⟩
  have hsplit (fs : List VideoFrame) : fs.length =
      (fs.filter (·.containsKeyFrame)).length + (fs.filter (!·.containsKeyFrame)).length := by
    rw [← List.countP_eq_length_filter, ← List.countP_eq_length_filter,
      List.length_eq_countP_add_countP (·.containsKeyFrame)]
    simp
  have hkeysLen := congrArg List.length hkeys
  rw [hsplit taken, hsplit come]
  change _ = (come.filter _).length at hlen
  omega

/-! ## Refreshes -/

/-- The frame that gets past the look at `discard_queue`, or need not pass it. -/
def VideoThread.passes (t : VideoThread) : ThreadAct → List VideoFrame
  | .check =>
    match t.held with
    | some (.queued vf) => if t.discardQueue then [] else [vf]
    | some (.passed _) | none => []
  | .recv _ =>
    match t.held, t.line.next with
    | none, some (.inr (.videoFrame vf)) => [vf]
    | _, _ => []
  | .frame _ | .reset | .discard | .decode .. => []

/-- What a step shows of the thread of the display. -/
def ofThread (f : VideoThread → ThreadAct → List VideoFrame) (display : ℕ) (s : Viewer)
    (x : ViewerAct) : List VideoFrame :=
  match s.threads display, threadAct display s x with
  | some t, some a => f t a
  | _, _ => []

def passes (display : ℕ) : Viewer → ViewerAct → List VideoFrame :=
  ofThread VideoThread.passes display

/-- The frame that is past the look and still to be decoded. -/
def past (display : ℕ) (s : Viewer) : List VideoFrame :=
  ((s.threads display).bind VideoThread.toDecode).toList

/-- What the loop handles in the step; a refresh it sends on to the peer. -/
def handles (s : Viewer) : ViewerAct → List Data
  | .handleMsgFromUi => s.ui.head?.toList
  | .videoFrame _ | .switchDisplay _ | .data _ | .recv .. | .check _ | .decode .. => []

/-- What is not queued is a key frame. -/
def VideoThread.Keyed (t : VideoThread) : Prop :=
  ∀ vf, Media.videoFrame vf ∈ Feed.directs t.line.channel → vf.containsKeyFrame = true

def Keyed (s : Viewer) : Prop := ∀ display, ∀ t ∈ s.threads display, t.Keyed

end

end Viewer

end LuodaRemote
