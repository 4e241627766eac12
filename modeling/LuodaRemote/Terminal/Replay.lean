/-
  What a client of a terminal session is sent (`handle_open`, `reset_status` and `read_outputs` of
  terminal_service.rs).

  The reader thread of a session puts chunks into a channel. `read_outputs` drains it into the
  output buffer and, while the session is active, sends the chunks on. `reset_status` closes the
  session for a client that is gone; `handle_open` on a session that exists makes it active again
  with the newest bytes of the buffer pending, which the next `read_outputs` sends first. When the
  reader thread has ended, `Closed` is sent, and a session that is not persistent is removed.

  One session is followed here from its creation, with what was drained and sent so far. An
  `append` that does not return (see `OutputBuffer.trim`) leaves the session stuck: the lock is
  held, or poisoned, and nothing is sent any more. `replay_without_gap` says what a client gets
  after a reconnect and what may follow `Closed`: a persistent session stays in place and is
  replayed to the next client.
-/
import LuodaRemote.Terminal.Buffer

namespace LuodaRemote
open Lib

namespace Terminal

/-! ## A session -/

def compressThreshold : Nat := 512

def defaultReconnectBufferBytes : Nat := 8 * 1024

def maxSigwinchPhaseAttempts : Nat := 3

inductive SigwinchPhase where
  | idle
  | tempResize (retries : Nat)
  | restore (retries : Nat)
deriving DecidableEq

/-- The phase after one `read_outputs`, in which the resize may work or not. -/
def SigwinchPhase.advance (resizeOk : Bool) : SigwinchPhase → SigwinchPhase
  | .idle => .idle
  | .tempResize 0 => .idle
  | .tempResize (retries + 1) =>
    if resizeOk then .restore maxSigwinchPhaseAttempts else .tempResize retries
  | .restore 0 => .idle
  | .restore (retries + 1) => if resizeOk then .idle else .restore retries

inductive SessionState where
  | closed
  | active (pendingBuffer : Option Bytes) (sigwinch : SigwinchPhase)
deriving DecidableEq

structure TerminalData where
  data : Bytes
  compressed : Bool
deriving DecidableEq

/-- The responses of `read_outputs`. -/
inductive Response where
  | data (d : TerminalData)
  | closed
deriving DecidableEq

structure TerminalSession where
  /-- The chunks in `output_rx`. -/
  channel : List Bytes
  /-- `reader_thread.is_finished()`. -/
  readerFinished : Bool
  outputBuffer : OutputBuffer
  closedMessageSent : Bool
  state : SessionState
deriving DecidableEq

/-- `handle_open` has just created the session. -/
def TerminalSession.new : TerminalSession where
  channel := []
  readerFinished := false
  outputBuffer := .new
  closedMessageSent := false
  state := .active none .idle

def createTerminalDataResponse (compress : Bytes → Bytes) (data : Bytes) : Response :=
  if compressThreshold < data.length then
    let compressed := compress data
    if compressed.length < data.length then .data ⟨compressed, true⟩ else .data ⟨data, false⟩
  else .data ⟨data, false⟩

/-- Puts the drained chunks into the buffer. -/
def appendAll (b : OutputBuffer) : List Bytes → Outcome OutputBuffer
  | [] => .ok b
  | data :: rest =>
    match b.append data with
    | .ok b' => appendAll b' rest
    | .underflow => .underflow
    | .spins => .spins

/-- The reconnecting branch of `handle_open`. -/
def TerminalSession.handleOpen (s : TerminalSession) : TerminalSession :=
  let buffer := s.outputBuffer.getRecent defaultReconnectBufferBytes
  { s with state := .active (if buffer = [] then none else some buffer)
                      (.tempResize maxSigwinchPhaseAttempts) }

/-- Sends the pending history first and the drained chunks after it, if the session is active. -/
def TerminalSession.send (compress : Bytes → Bytes) (resizeOk : Bool) (received : List Bytes)
    (s : TerminalSession) : TerminalSession × List Response :=
  match s.state with
  | .closed => (s, [])
  | .active pending sigwinch =>
    let replay := match pending with
      | some buffer => if buffer = [] then [] else [createTerminalDataResponse compress buffer]
      | none => []
    ({ s with state := .active none (sigwinch.advance resizeOk) },
      replay ++ received.map (createTerminalDataResponse compress))

/-- `read_outputs` on a session whose lock it gets. `none` is a session that was removed. -/
def TerminalSession.readOutputs (compress : Bytes → Bytes) (isPersistent resizeOk : Bool)
    (s : TerminalSession) : Outcome (Option TerminalSession × List Response) :=
  let shouldSendClosed := !s.closedMessageSent && s.readerFinished
  match appendAll s.outputBuffer s.channel with
  | .ok buffer =>
    let drained : TerminalSession :=
      { s with channel := [], outputBuffer := buffer,
               closedMessageSent := s.closedMessageSent || shouldSendClosed }
    let sent := drained.send compress resizeOk s.channel
    if shouldSendClosed then
      .ok (if isPersistent then some sent.1 else none, sent.2 ++ [.closed])
    else .ok (some sent.1, sent.2)
  | .underflow => .underflow
  | .spins => .spins

/-! ## What happens to a session -/

/-- The session under its id, with what was drained from its channel and sent to clients. -/
structure Served where
  session : Option TerminalSession
  /-- A call to `append` did not return. -/
  stuck : Bool
  drained : List Bytes
  sent : List Response
deriving DecidableEq

def Served.start : Served where
  session := some .new
  stuck := false
  drained := []
  sent := []

inductive Event where
  /-- The reader thread puts a chunk into the channel. -/
  | output (chunk : Bytes)
  | readerExits
  /-- `read_outputs` of a proxy, which may find the session locked. -/
  | readOutputs (locked isPersistent resizeOk : Bool)
  | resetStatus
  | handleOpen
deriving DecidableEq

/-- A `read_outputs` that gets the lock. -/
def Event.polls : Event → Bool
  | .readOutputs false _ _ => true
  | _ => false

/-- A step on a session that is there. -/
def TerminalSession.step (compress : Bytes → Bytes) (v : Served) (s : TerminalSession) :
    Event → Served
  | .output chunk =>
    if s.readerFinished then v
    else { v with session := some { s with channel := s.channel ++ [chunk] } }
  | .readerExits => { v with session := some { s with readerFinished := true } }
  | .readOutputs locked isPersistent resizeOk =>
    if locked then v
    else match s.readOutputs compress isPersistent resizeOk with
      | .ok (session, responses) =>
        { v with session := session, drained := v.drained ++ s.channel,
                 sent := v.sent ++ responses }
      | _ => { v with stuck := true, drained := v.drained ++ s.channel }
  | .resetStatus => { v with session := some { s with state := .closed } }
  | .handleOpen => { v with session := some s.handleOpen }

/-- A session that was removed is not brought back: an open creates another one. -/
def Served.step (compress : Bytes → Bytes) (v : Served) (e : Event) : Served :=
  if v.stuck then v
  else match v.session with
    | some s => s.step compress v e
    | none => v

/-- What the client makes of a response. -/
def Response.payload (decompress : Bytes → Bytes) : Response → Bytes
  | .data d => if d.compressed then decompress d.data else d.data
  | .closed => []

def payloads (decompress : Bytes → Bytes) (responses : List Response) : Bytes :=
  (responses.map (Response.payload decompress)).flatten

/-! ## What one step does -/

section Step

variable {compress decompress : Bytes → Bytes} {s s' : TerminalSession} {v : Served}
  {isPersistent resizeOk : Bool} {received : List Bytes}

/-- The history that is still to be sent. -/
def SessionState.pending : SessionState → Bytes
  | .active (some buffer) _ => buffer
  | _ => []

theorem appendAll_suffix {b b' : OutputBuffer} {chunks : List Bytes}
    (h : appendAll b chunks = .ok b') : b'.lines.flatten <:+ b.lines.flatten ++ chunks.flatten := by
  induction chunks generalizing b with
  | nil =>
    cases h
    simp
  | cons data rest ih =>
    rw [appendAll] at h
    split at h
    · next mid hmid =>
        obtain ⟨before, hbefore⟩ := OutputBuffer.append_suffix hmid
        refine (ih h).trans ⟨before, ?_⟩
        rw [← List.append_assoc, hbefore, List.flatten_cons, List.append_assoc]
    · cases h
    · cases h

@[simp] theorem payloads_nil : payloads decompress [] = [] := rfl

theorem payloads_append (xs ys : List Response) :
    payloads decompress (xs ++ ys) = payloads decompress xs ++ payloads decompress ys := by
  rw [payloads, List.map_append, List.flatten_append]
  rfl

theorem payloads_singleton (r : Response) : payloads decompress [r] = r.payload decompress := by
  simp [payloads]

section Zstd

variable (hzstd : ∀ data, decompress (compress data) = data)

include hzstd in
theorem payload_create (data : Bytes) :
    (createTerminalDataResponse compress data).payload decompress = data := by
  unfold createTerminalDataResponse
  split
  · dsimp only
    split
    · exact hzstd data
    · rfl
  · rfl

include hzstd in
theorem payloads_create (chunks : List Bytes) :
    payloads decompress (chunks.map (createTerminalDataResponse compress)) = chunks.flatten := by
  induction chunks with
  | nil => rfl
  | cons data rest ih =>
    rw [List.map_cons, ← List.singleton_append, payloads_append, payloads_singleton,
      payload_create hzstd, ih, List.flatten_cons]

include hzstd in
/-- An active session sends what is pending and what was drained. -/
theorem payloads_send {pending : Option Bytes} {g : SigwinchPhase}
    (hactive : s.state = .active pending g) :
    payloads decompress (s.send compress resizeOk received).2 =
      s.state.pending ++ received.flatten := by
  rw [TerminalSession.send, hactive]
  dsimp only
  rw [payloads_append, payloads_create hzstd]
  congr 1
  cases pending with
  | none => rfl
  | some buffer =>
    show payloads decompress (if buffer = [] then [] else _) = buffer
    split
    · next hnil => rw [hnil, payloads_nil]
    · rw [payloads_singleton, payload_create hzstd]

end Zstd

theorem create_ne_closed (data : Bytes) : createTerminalDataResponse compress data ≠ .closed := by
  unfold createTerminalDataResponse
  split
  · dsimp only
    split
    · exact nofun
    · exact nofun
  · exact nofun

theorem send_closed (hclosed : s.state = .closed) :
    s.send compress resizeOk received = (s, []) := by
  rw [TerminalSession.send, hclosed]

theorem send_silent (hnone : s.state.pending = []) :
    (s.send compress resizeOk []).2 = [] := by
  rw [TerminalSession.send]
  split
  · rfl
  · next pending g hactive =>
      rw [hactive] at hnone
      cases pending with
      | none => rfl
      | some buffer =>
        have hnil : buffer = [] := hnone
        simp [hnil]

/-- Sending is about data, and leaves nothing pending. -/
theorem closed_notMem_send : Response.closed ∉ (s.send compress resizeOk received).2 := by
  rw [TerminalSession.send]
  split
  · exact List.not_mem_nil
  · dsimp only
    rw [List.mem_append, not_or]
    constructor
    · split
      · split
        · exact List.not_mem_nil
        · exact fun hmem => create_ne_closed _ (List.mem_singleton.mp hmem).symm
      · exact List.not_mem_nil
    · intro hmem
      obtain ⟨data, -, hdata⟩ := List.mem_map.mp hmem
      exact create_ne_closed data hdata

theorem send_frame : ∃ state, (s.send compress resizeOk received).1 = { s with state := state } ∧
    state.pending = [] ∧ (state = .closed ↔ s.state = .closed) := by
  rw [TerminalSession.send]
  split
  · next hclosed => exact ⟨.closed, by rw [← hclosed], rfl, by simp [hclosed]⟩
  · next hactive => exact ⟨_, rfl, rfl, by simp [hactive]⟩

/-- What `read_outputs` makes of a session: the data it sends and the session it leaves, before
    `Closed` is dealt with. -/
structure Poll (compress : Bytes → Bytes) (s s' : TerminalSession) (data : List Response) :
    Prop where
  buffer : appendAll s.outputBuffer s.channel = .ok s'.outputBuffer
  channel : s'.channel = []
  reader : s'.readerFinished = s.readerFinished
  marked : s'.closedMessageSent = (s.closedMessageSent || s.readerFinished)
  nothingPending : s'.state.pending = []
  state : s'.state = .closed ↔ s.state = .closed
  onlyData : Response.closed ∉ data
  closed : s.state = .closed → data = []
  silent : s.state.pending = [] → s.channel = [] → data = []
  active : s.state ≠ .closed → ∀ decompress, (∀ d, decompress (compress d) = d) →
    payloads decompress data = s.state.pending ++ s.channel.flatten

/-- `Closed` goes out at the end, once the reader has ended and unless it went out before. -/
theorem readOutputs_cases {session : Option TerminalSession} {responses : List Response}
    (h : s.readOutputs compress isPersistent resizeOk = .ok (session, responses)) :
    ∃ s' data, Poll compress s s' data ∧
      ((session = some s' ∧ responses = data ∧
          (s.closedMessageSent = true ∨ s.readerFinished = false)) ∨
        ((session = some s' ∨ session = none) ∧ responses = data ++ [.closed] ∧
          s.closedMessageSent = false ∧ s.readerFinished = true)) := by
  unfold TerminalSession.readOutputs at h
  dsimp only at h
  split at h
  · next buffer hbuffer =>
      have hmark : (s.closedMessageSent || (!s.closedMessageSent && s.readerFinished)) =
          (s.closedMessageSent || s.readerFinished) := by
        cases s.closedMessageSent <;> cases s.readerFinished <;> rfl
      rw [hmark] at h
      set drained : TerminalSession :=
        { s with channel := [], outputBuffer := buffer,
                 closedMessageSent := s.closedMessageSent || s.readerFinished } with hdrained
      obtain ⟨state, hsent, hpending, hstate⟩ :=
        @send_frame compress drained resizeOk s.channel
      have hpoll : Poll compress s (drained.send compress resizeOk s.channel).1
          (drained.send compress resizeOk s.channel).2 := by
        refine ⟨?_, ?_, ?_, ?_, ?_, ?_, closed_notMem_send, ?_, ?_, ?_⟩
        · rw [hsent, hbuffer]
        · rw [hsent]
        · rw [hsent]
        · rw [hsent]
        · rw [hsent]
          exact hpending
        · rw [hsent]
          exact hstate
        · intro hclosed
          rw [send_closed (s := drained) hclosed]
        · intro hnone hchannel
          rw [hchannel]
          exact send_silent hnone
        · intro hactive decompress hzstd
          cases hs : s.state with
          | closed => exact absurd hs hactive
          | active pending g =>
            have hd : drained.state = .active pending g := hs
            rw [payloads_send hzstd hd, hd]
      refine ⟨_, _, hpoll, ?_⟩
      split at h
      · next hcloses =>
          rw [Bool.and_eq_true, Bool.not_eq_true'] at hcloses
          cases h
          refine .inr ⟨?_, rfl, hcloses.1, hcloses.2⟩
          cases isPersistent with
          | true => exact .inl rfl
          | false => exact .inr rfl
      · next hcloses =>
          cases h
          refine .inl ⟨rfl, rfl, ?_⟩
          cases hm : s.closedMessageSent with
          | true => exact .inl rfl
          | false =>
            right
            simpa [hm] using hcloses
  · cases h
  · cases h

variable (compress) in
/-- What a step can do: nothing, change the session without a word, get stuck, or poll. -/
theorem step_cases (v : Served) (e : Event) :
    (v.step compress e = v ∧ (v.stuck = false → v.session.isSome = true → e.polls = false)) ∨
    (∃ s s', v.stuck = false ∧ v.session = some s ∧
      v.step compress e = { v with session := some s' } ∧
      ((∃ chunk, e = .output chunk ∧ s.readerFinished = false ∧
          s' = { s with channel := s.channel ++ [chunk] }) ∨
        (e = .readerExits ∧ s' = { s with readerFinished := true }) ∨
        (e = .resetStatus ∧ s' = { s with state := .closed }) ∨
        (e = .handleOpen ∧ s' = s.handleOpen))) ∨
    (∃ s isPersistent resizeOk, v.stuck = false ∧ v.session = some s ∧
      e = .readOutputs false isPersistent resizeOk ∧ (v.step compress e).stuck = true ∧
      (∀ b, appendAll s.outputBuffer s.channel ≠ .ok b) ∧ (v.step compress e).sent = v.sent) ∨
    (∃ s isPersistent resizeOk session responses, v.stuck = false ∧ v.session = some s ∧
      e = .readOutputs false isPersistent resizeOk ∧
      s.readOutputs compress isPersistent resizeOk = .ok (session, responses) ∧
      v.step compress e = { v with session := session, drained := v.drained ++ s.channel,
                                   sent := v.sent ++ responses }) := by
  by_cases hstuck : v.stuck = true
  · refine .inl ⟨by rw [Served.step, if_pos hstuck], fun hno => ?_⟩
    rw [hstuck] at hno
    cases hno
  obtain hs | ⟨s, hs⟩ := v.session.eq_none_or_eq_some
  · refine .inl ⟨by rw [Served.step, if_neg hstuck, hs], fun _ hno => ?_⟩
    rw [hs] at hno
    cases hno
  have hrun : v.step compress e = s.step compress v e := by
    rw [Served.step, if_neg hstuck, hs]
  rw [Bool.not_eq_true] at hstuck
  cases e with
  | output chunk =>
    by_cases hreader : s.readerFinished = true
    · exact .inl ⟨by rw [hrun, TerminalSession.step, if_pos hreader], fun _ _ => rfl⟩
    · refine .inr (.inl ⟨s, _, hstuck, hs, ?_, .inl ⟨chunk, rfl, ?_, rfl⟩⟩)
      · rw [hrun, TerminalSession.step, if_neg hreader]
      · exact Bool.eq_false_iff.mpr hreader
  | readerExits => exact .inr (.inl ⟨s, _, hstuck, hs, hrun, .inr (.inl ⟨rfl, rfl⟩)⟩)
  | resetStatus => exact .inr (.inl ⟨s, _, hstuck, hs, hrun, .inr (.inr (.inl ⟨rfl, rfl⟩))⟩)
  | handleOpen => exact .inr (.inl ⟨s, _, hstuck, hs, hrun, .inr (.inr (.inr ⟨rfl, rfl⟩))⟩)
  | readOutputs locked isPersistent resizeOk =>
    cases locked with
    | true => exact .inl ⟨hrun, fun _ _ => rfl⟩
    | false =>
      simp only [TerminalSession.step, Bool.false_eq_true, if_false] at hrun
      split at hrun
      · next session responses hread =>
          exact .inr (.inr (.inr ⟨s, _, _, session, responses, hstuck, hs, rfl, hread, hrun⟩))
      · next hread =>
          refine .inr (.inr (.inl ⟨s, _, _, hstuck, hs, rfl, by rw [hrun], ?_, by rw [hrun]⟩))
          intro b hb
          simp only [TerminalSession.readOutputs, hb] at hread
          split at hread
          · exact hread _ _ rfl
          · exact hread _ _ rfl

theorem run_stuck (hstuck : v.stuck = true) (events : List Event) :
    run (Served.step compress) v events = v := by
  induction events with
  | nil => rfl
  | cons e rest ih => rw [run_cons, Served.step, if_pos hstuck, ih]

theorem not_stuck_of_run {events : List Event}
    (h : (run (Served.step compress) v events).stuck = false) : v.stuck = false := by
  by_contra hno
  rw [Bool.not_eq_false] at hno
  rw [run_stuck hno events, hno] at h
  cases h

/-! ## What holds throughout -/

/-- The buffer holds the end of what was drained, and a session that has sent `Closed` has nothing
    left to read. -/
structure TerminalSession.Sound (s : TerminalSession) (v : Served) : Prop where
  buffered : s.outputBuffer.lines.flatten <:+ v.drained.flatten
  unmarked : s.closedMessageSent = false → Response.closed ∉ v.sent
  marked : s.closedMessageSent = true → s.readerFinished = true ∧ s.channel = []

structure Served.Sound (v : Served) : Prop where
  once : v.sent.count .closed ≤ 1
  session : v.stuck = false → ∀ s, v.session = some s → s.Sound v

theorem sound_start : Served.start.Sound where
  once := by decide
  session _ s hs := by
    cases hs
    exact ⟨List.suffix_refl _, fun _ => List.not_mem_nil, nofun⟩

theorem Poll.buffered {data : List Response} (hp : Poll compress s s' data)
    (hs : s.Sound v) : s'.outputBuffer.lines.flatten <:+ (v.drained ++ s.channel).flatten := by
  obtain ⟨before, hbefore⟩ := hs.buffered
  refine (appendAll_suffix hp.buffer).trans ⟨before, ?_⟩
  rw [← List.append_assoc, hbefore, List.flatten_append]

theorem Poll.finished {data : List Response} (hp : Poll compress s s' data) (hs : s.Sound v)
    (hmark : s'.closedMessageSent = true) : s'.readerFinished = true ∧ s'.channel = [] := by
  refine ⟨?_, hp.channel⟩
  rw [hp.reader]
  rw [hp.marked, Bool.or_eq_true] at hmark
  rcases hmark with hmark | hreader
  · exact (hs.marked hmark).1
  · exact hreader

theorem sound_step (hv : v.Sound) (e : Event) : (v.step compress e).Sound := by
  obtain ⟨heq, -⟩ | ⟨s, s', hstuck, hs, heq, hwhat⟩ | ⟨s, _, _, hstuck, hs, -, hstuck', -, hsent⟩ |
    ⟨s, _, _, session, responses, hstuck, hs, -, hread, heq⟩ := step_cases compress v e
  · rw [heq]
    exact hv
  · rw [heq]
    refine ⟨hv.once, fun _ s₁ hs₁ => ?_⟩
    cases hs₁
    have hsound := hv.session hstuck s hs
    obtain ⟨chunk, -, hreader, rfl⟩ | ⟨-, rfl⟩ | ⟨-, rfl⟩ | ⟨-, rfl⟩ := hwhat
    · refine ⟨hsound.buffered, hsound.unmarked, fun hmark => ?_⟩
      have hreader' := (hsound.marked hmark).1
      rw [hreader] at hreader'
      cases hreader'
    · exact ⟨hsound.buffered, hsound.unmarked, fun hmark => ⟨rfl, (hsound.marked hmark).2⟩⟩
    · exact ⟨hsound.buffered, hsound.unmarked, hsound.marked⟩
    · exact ⟨hsound.buffered, hsound.unmarked, hsound.marked⟩
  · refine ⟨hsent ▸ hv.once, fun hno => ?_⟩
    rw [hstuck'] at hno
    cases hno
  · have hsound := hv.session hstuck s hs
    obtain ⟨s', data, hp, ⟨rfl, rfl, hquiet⟩ | ⟨hsession, rfl, hmark, hreader⟩⟩ :=
      readOutputs_cases hread
    · rw [heq]
      refine ⟨?_, fun _ s₁ hs₁ => ?_⟩
      · show (v.sent ++ responses).count .closed ≤ 1
        rw [List.count_append, List.count_eq_zero_of_not_mem hp.onlyData]
        exact hv.once
      · cases hs₁
        refine ⟨hp.buffered hsound, fun hmark => ?_, hp.finished hsound⟩
        rw [hp.marked, Bool.or_eq_false_iff] at hmark
        exact List.not_mem_append (hsound.unmarked hmark.1) hp.onlyData
    · rw [heq]
      have hfirst := hsound.unmarked hmark
      refine ⟨?_, fun _ s₁ hs₁ => ?_⟩
      · show (v.sent ++ (data ++ [Response.closed])).count .closed ≤ 1
        rw [List.count_append, List.count_append, List.count_eq_zero_of_not_mem hfirst,
          List.count_eq_zero_of_not_mem hp.onlyData]
        exact le_refl _
      · obtain rfl : s' = s₁ := by
          rcases hsession with rfl | rfl
          · exact Option.some.inj hs₁
          · cases hs₁
        refine ⟨hp.buffered hsound, fun hno => ?_, hp.finished hsound⟩
        rw [hp.marked, hreader, Bool.or_true] at hno
        cases hno

/-! ## After `Closed` -/

/-- `Closed` is out, and there is nothing left to read. -/
def Served.Finished (v : Served) : Prop :=
  v.stuck = false → ∀ s, v.session = some s →
    s.closedMessageSent = true ∧ s.readerFinished = true ∧ s.channel = []

/-- No history waits to be sent. -/
def Served.Silent (v : Served) : Prop :=
  v.stuck = false → ∀ s, v.session = some s → s.state.pending = []

theorem finished_step (hf : v.Finished) (e : Event) :
    (v.step compress e).Finished ∧ (v.step compress e).drained = v.drained := by
  obtain ⟨heq, -⟩ | ⟨s, s', hstuck, hs, heq, hwhat⟩ | ⟨s, _, _, hstuck, hs, -, -, hnever, -⟩ |
    ⟨s, _, _, session, responses, hstuck, hs, -, hread, heq⟩ := step_cases compress v e
  · rw [heq]
    exact ⟨hf, rfl⟩
  · obtain ⟨hmark, hreader, hchannel⟩ := hf hstuck s hs
    rw [heq]
    refine ⟨fun _ s₁ hs₁ => ?_, rfl⟩
    cases hs₁
    obtain ⟨chunk, -, hreader', -⟩ | ⟨-, rfl⟩ | ⟨-, rfl⟩ | ⟨-, rfl⟩ := hwhat
    · rw [hreader] at hreader'
      cases hreader'
    · exact ⟨hmark, rfl, hchannel⟩
    · exact ⟨hmark, hreader, hchannel⟩
    · exact ⟨hmark, hreader, hchannel⟩
  · obtain ⟨-, -, hchannel⟩ := hf hstuck s hs
    rw [hchannel] at hnever
    exact absurd rfl (hnever s.outputBuffer)
  · obtain ⟨hmark, hreader, hchannel⟩ := hf hstuck s hs
    obtain ⟨s', data, hp, ⟨rfl, rfl, -⟩ | ⟨-, -, hmark', -⟩⟩ := readOutputs_cases hread
    · rw [heq, hchannel]
      refine ⟨fun _ s₁ hs₁ => ?_, List.append_nil _⟩
      cases hs₁
      refine ⟨?_, ?_, hp.channel⟩
      · rw [hp.marked, hmark, Bool.true_or]
      · rw [hp.reader, hreader]
    · rw [hmark] at hmark'
      cases hmark'

/-- Only an open brings a finished session to send something. -/
theorem silent_step (hf : v.Finished) (hv : v.Silent) {e : Event} (hopen : e ≠ .handleOpen) :
    (v.step compress e).Silent ∧ (v.step compress e).sent = v.sent := by
  obtain ⟨heq, -⟩ | ⟨s, s', hstuck, hs, heq, hwhat⟩ | ⟨s, _, _, hstuck, hs, -, hstuck', -, hsent⟩ |
    ⟨s, _, _, session, responses, hstuck, hs, -, hread, heq⟩ := step_cases compress v e
  · rw [heq]
    exact ⟨hv, rfl⟩
  · rw [heq]
    refine ⟨fun _ s₁ hs₁ => ?_, rfl⟩
    cases hs₁
    obtain ⟨chunk, -, -, rfl⟩ | ⟨-, rfl⟩ | ⟨-, rfl⟩ | ⟨he, -⟩ := hwhat
    · exact hv hstuck s hs
    · exact hv hstuck s hs
    · rfl
    · exact absurd he hopen
  · refine ⟨fun hno => ?_, hsent⟩
    rw [hstuck'] at hno
    cases hno
  · obtain ⟨hmark, -, hchannel⟩ := hf hstuck s hs
    obtain ⟨s', data, hp, ⟨rfl, rfl, -⟩ | ⟨-, -, hmark', -⟩⟩ := readOutputs_cases hread
    · rw [heq, hp.silent (hv hstuck s hs) hchannel]
      refine ⟨fun _ s₁ hs₁ => ?_, List.append_nil _⟩
      cases hs₁
      exact hp.nothingPending
    · rw [hmark] at hmark'
      cases hmark'

theorem finished_run (hf : v.Finished) (events : List Event) :
    (run (Served.step compress) v events).drained = v.drained := by
  induction events generalizing v with
  | nil => rfl
  | cons e rest ih =>
    obtain ⟨hf', hdrained⟩ := @finished_step compress v hf e
    exact (ih hf').trans hdrained

theorem silent_run (hf : v.Finished) (hv : v.Silent) {events : List Event}
    (hopen : Event.handleOpen ∉ events) :
    (run (Served.step compress) v events).sent = v.sent := by
  induction events generalizing v with
  | nil => rfl
  | cons e rest ih =>
    rw [List.mem_cons, not_or] at hopen
    obtain ⟨hv', hsent⟩ := @silent_step compress v hf hv e (Ne.symm hopen.1)
    exact (ih (finished_step hf e).1 hv' hopen.2).trans hsent

/-- The step that sends `Closed` sends it last and leaves a quiet session. -/
theorem finished_of_closed {e : Event} (hbefore : Response.closed ∉ v.sent)
    (hafter : Response.closed ∈ (v.step compress e).sent) :
    (v.step compress e).Finished ∧ (v.step compress e).Silent ∧
      (v.step compress e).sent.getLast? = some .closed := by
  obtain ⟨heq, -⟩ | ⟨s, s', hstuck, hs, heq, hwhat⟩ | ⟨s, _, _, hstuck, hs, -, -, -, hsent⟩ |
    ⟨s, _, _, session, responses, hstuck, hs, -, hread, heq⟩ := step_cases compress v e
  · rw [heq] at hafter
    exact absurd hafter hbefore
  · rw [heq] at hafter
    exact absurd hafter hbefore
  · rw [hsent] at hafter
    exact absurd hafter hbefore
  · obtain ⟨s', data, hp, ⟨rfl, rfl, -⟩ | ⟨hsession, rfl, hmark, hreader⟩⟩ :=
      readOutputs_cases hread
    · rw [heq] at hafter
      exact absurd hafter (List.not_mem_append hbefore hp.onlyData)
    · have hkept : ∀ s₁, session = some s₁ → s' = s₁ := by
        intro s₁ hs₁
        rcases hsession with rfl | rfl
        · exact Option.some.inj hs₁
        · cases hs₁
      rw [heq]
      refine ⟨fun _ s₁ hs₁ => ?_, fun _ s₁ hs₁ => ?_, ?_⟩
      · obtain rfl := hkept s₁ hs₁
        refine ⟨?_, ?_, hp.channel⟩
        · rw [hp.marked, hreader, Bool.or_true]
        · rw [hp.reader, hreader]
      · obtain rfl := hkept s₁ hs₁
        exact hp.nothingPending
      · show (v.sent ++ (data ++ [Response.closed])).getLast? = _
        rw [← List.append_assoc, List.getLast?_concat]

/-! ## After a reconnect -/

/-- The client's turn ends. -/
def Event.Switches (e : Event) : Prop := e = .resetStatus ∨ e = .handleOpen

/-- What was sent and drained since the open at `v₀` that made `recent` pending. -/
def Since (decompress : Bytes → Bytes) (v₀ : Served) (recent : Bytes) (polled : Bool)
    (v : Served) : Prop :=
  v.stuck = false → ∃ sentNow drainedNow,
    v.sent = v₀.sent ++ sentNow ∧ v.drained = v₀.drained ++ drainedNow ∧
    (polled = false → sentNow = [] ∧ drainedNow = []) ∧
    (polled = true → payloads decompress sentNow = recent ++ drainedNow.flatten) ∧
    (polled = false → v.session.isSome = true) ∧
    ∀ s, v.session = some s →
      s.state ≠ .closed ∧ s.state.pending = if polled then [] else recent

variable {v₀ : Served} {recent : Bytes} {polled : Bool}

theorem since_open (hs : v.session = some s) :
    Since decompress v (s.outputBuffer.getRecent defaultReconnectBufferBytes) false
      (v.step compress .handleOpen) := by
  intro hstuck
  have hv : v.stuck = false := @not_stuck_of_run compress v [.handleOpen] hstuck
  have hstep : v.step compress .handleOpen = { v with session := some s.handleOpen } := by
    rw [Served.step, if_neg (by rw [hv]; exact Bool.false_ne_true), hs]
    rfl
  rw [hstep]
  refine ⟨[], [], (List.append_nil _).symm, (List.append_nil _).symm, fun _ => ⟨rfl, rfl⟩, nofun,
    fun _ => rfl, fun s₁ hs₁ => ?_⟩
  cases hs₁
  refine ⟨nofun, ?_⟩
  unfold TerminalSession.handleOpen
  dsimp only
  split
  · next hnil => exact hnil.symm
  · rfl

theorem since_step (hzstd : ∀ data, decompress (compress data) = data)
    (hv : Since decompress v₀ recent polled v) {e : Event} (he : ¬ e.Switches) :
    Since decompress v₀ recent (polled || e.polls) (v.step compress e) := by
  intro hstuck'
  have hstuck : v.stuck = false := @not_stuck_of_run compress v [e] hstuck'
  obtain ⟨sentNow, drainedNow, hsent, hdrained, hnone, hsome, hthere, hstate⟩ := hv hstuck
  obtain ⟨heq, hidle⟩ | ⟨s, s', -, hs, heq, hwhat⟩ | ⟨s, _, _, -, -, -, hno, -, -⟩ |
    ⟨s, _, _, session, responses, -, hs, rfl, hread, heq⟩ := step_cases compress v e
  · rw [heq]
    cases polled with
    | true => exact ⟨sentNow, drainedNow, hsent, hdrained, nofun, hsome, nofun, hstate⟩
    | false =>
      rw [hidle hstuck (hthere rfl)]
      exact ⟨sentNow, drainedNow, hsent, hdrained, hnone, hsome, hthere, hstate⟩
  · have hpolls : e.polls = false := by
      obtain ⟨chunk, rfl, -, -⟩ | ⟨rfl, -⟩ | ⟨rfl, -⟩ | ⟨rfl, -⟩ := hwhat <;> rfl
    rw [heq, hpolls, Bool.or_false]
    refine ⟨sentNow, drainedNow, hsent, hdrained, hnone, hsome, fun _ => rfl, fun s₁ hs₁ => ?_⟩
    cases hs₁
    obtain ⟨chunk, -, -, rfl⟩ | ⟨-, rfl⟩ | ⟨rfl, -⟩ | ⟨rfl, -⟩ := hwhat
    · exact hstate s hs
    · exact hstate s hs
    · exact absurd (.inl rfl) he
    · exact absurd (.inr rfl) he
  · rw [hno] at hstuck'
    cases hstuck'
  · obtain ⟨hactive, hpending⟩ := hstate s hs
    obtain ⟨s', data, hp, hresponses⟩ := readOutputs_cases hread
    have hpayload : payloads decompress responses = s.state.pending ++ s.channel.flatten := by
      rw [← hp.active hactive decompress hzstd]
      obtain ⟨-, rfl, -⟩ | ⟨-, rfl, -⟩ := hresponses
      · rfl
      · rw [payloads_append, payloads_singleton]
        exact List.append_nil _
    rw [heq]
    refine ⟨sentNow ++ responses, drainedNow ++ s.channel, ?_, ?_, ?_, fun _ => ?_, ?_, ?_⟩
    · rw [hsent, List.append_assoc]
    · rw [hdrained, List.append_assoc]
    · intro hno
      rw [Event.polls, Bool.or_true] at hno
      cases hno
    · rw [payloads_append, hpayload, hpending, List.flatten_append]
      cases polled with
      | true =>
        rw [hsome rfl]
        simp
      | false =>
        obtain ⟨rfl, rfl⟩ := hnone rfl
        simp
    · intro hno
      rw [Event.polls, Bool.or_true] at hno
      cases hno
    · intro s₁ hs₁
      obtain rfl : s' = s₁ := by
        obtain ⟨rfl, -, -⟩ | ⟨rfl | rfl, -, -⟩ := hresponses
        · exact Option.some.inj hs₁
        · exact Option.some.inj hs₁
        · cases hs₁
      refine ⟨fun hclosed => hactive (hp.state.mp hclosed), ?_⟩
      rw [hp.nothingPending, Event.polls, Bool.or_true, if_pos rfl]

theorem since_run (hzstd : ∀ data, decompress (compress data) = data) {events : List Event}
    (hv : Since decompress v₀ recent polled v) (he : ∀ e ∈ events, ¬ e.Switches) :
    Since decompress v₀ recent (polled || events.any Event.polls)
      (run (Served.step compress) v events) := by
  induction events generalizing v polled with
  | nil => simpa using hv
  | cons e rest ih =>
    have hrest := ih (since_step hzstd hv (he e List.mem_cons_self))
      fun e' he' => he e' (List.mem_cons_of_mem e he')
    rwa [Bool.or_assoc] at hrest

end Step

/-! ## Every run -/

/-- The run of a session from its creation. -/
def served (compress : Bytes → Bytes) (events : List Event) : Served :=
  run (Served.step compress) .start events

theorem sound_served (compress : Bytes → Bytes) (events : List Event) :
    (served compress events).Sound := by
  have hstep : ∀ v e, Served.Sound v → (Served.step compress v e).Sound :=
    fun _ e hv => sound_step hv e
  exact (always_of_step hstep sound_start events).last

/-- After an open that reconnects, and while the client keeps its turn, the client is sent the
    newest bytes that were drained before and then every chunk drained since. `Closed` is sent at
    most once and ends what the client is sent; nothing is drained after it, and nothing is sent
    until the session is opened again. -/
theorem replay_without_gap (compress decompress : Bytes → Bytes)
    (hzstd : ∀ data, decompress (compress data) = data) (events : List Event) :
    (∀ before after s, events = before ++ .handleOpen :: after →
      (served compress before).session = some s → (∀ e ∈ after, ¬ e.Switches) →
      (served compress events).stuck = false →
      ∃ recent sentNow drainedNow,
        recent <:+ (served compress before).drained.flatten ∧
        recent.length ≤ defaultReconnectBufferBytes ∧
        (served compress events).sent = (served compress before).sent ++ sentNow ∧
        (served compress events).drained = (served compress before).drained ++ drainedNow ∧
        (after.any Event.polls = false → sentNow = [] ∧ drainedNow = []) ∧
        (after.any Event.polls = true →
          payloads decompress sentNow = recent ++ drainedNow.flatten)) ∧
    (served compress events).sent.count .closed ≤ 1 ∧
    (∀ before e after, events = before ++ e :: after →
      Response.closed ∉ (served compress before).sent →
      Response.closed ∈ (served compress (before ++ [e])).sent →
      (served compress (before ++ [e])).sent.getLast? = some .closed ∧
      (served compress events).drained = (served compress (before ++ [e])).drained ∧
      (Event.handleOpen ∉ after →
        (served compress events).sent = (served compress (before ++ [e])).sent)) := by
  refine ⟨?_, (sound_served compress events).once, ?_⟩
  · intro before after s hevents hs hafter hstuck
    have hrun : served compress events =
        run (Served.step compress) ((served compress before).step compress .handleOpen) after := by
      rw [hevents, served, run_append]
      rfl
    have hopened := @since_open compress decompress s _ hs
    have hsince := since_run hzstd hopened hafter
    rw [← hrun, Bool.false_or] at hsince
    obtain ⟨sentNow, drainedNow, hsent, hdrained, hnone, hsome, -, -⟩ := hsince hstuck
    have hstart : (served compress before).stuck = false := by
      rw [hevents, served, run_append] at hstuck
      exact not_stuck_of_run hstuck
    have hsound := (sound_served compress before).session hstart s hs
    obtain ⟨hsuffix, hlength⟩ := s.outputBuffer.getRecent_spec defaultReconnectBufferBytes
    exact ⟨_, sentNow, drainedNow, hsuffix.trans hsound.buffered, hlength, hsent, hdrained, hnone,
      hsome⟩
  · intro before e after hevents hbefore hclosed
    have hlast : served compress (before ++ [e]) = (served compress before).step compress e := by
      rw [served, run_append]
      rfl
    have hrun : served compress events =
        run (Served.step compress) (served compress (before ++ [e])) after := by
      rw [hevents, hlast, served, run_append]
      rfl
    rw [hlast] at hclosed
    obtain ⟨hf, hsilent, hend⟩ := finished_of_closed hbefore hclosed
    rw [hrun, hlast]
    exact ⟨hend, finished_run hf after, silent_run hf hsilent⟩

/-- A byte, a reconnect, and another byte: short data is sent as it is. -/
theorem replay_without_gap_two_bytes :
    ∃ recent sentNow drainedNow, recent <:+ [97] ∧ recent.length ≤ defaultReconnectBufferBytes ∧
      (served (fun data => data) [.output [97], .readOutputs false true true, .resetStatus,
        .handleOpen, .output [98], .readOutputs false true true]).sent =
          [.data ⟨[97], false⟩] ++ sentNow ∧
      drainedNow = [[98]] ∧
      payloads (fun data => data) sentNow = recent ++ List.flatten drainedNow := by
  obtain ⟨recent, sentNow, drainedNow, hsuffix, hlength, hsent, hdrained, -, hsome⟩ :=
    (replay_without_gap (fun data => data) (fun data => data) (fun _ => rfl)
      [.output [97], .readOutputs false true true, .resetStatus, .handleOpen, .output [98],
        .readOutputs false true true]).1
      [.output [97], .readOutputs false true true, .resetStatus]
      [.output [98], .readOutputs false true true] _ rfl rfl (by simp [Event.Switches]) (by decide)
  have hbefore : (served (fun data => data)
      [.output [97], .readOutputs false true true, .resetStatus]).drained = [[97]] := by decide
  have hafter : (served (fun data => data) [.output [97], .readOutputs false true true,
      .resetStatus, .handleOpen, .output [98],
      .readOutputs false true true]).drained = [[97]] ++ [[98]] := by
    decide
  rw [hbefore] at hsuffix hdrained
  rw [hafter, List.append_cancel_left_eq] at hdrained
  exact ⟨recent, sentNow, drainedNow, hsuffix, hlength, hsent, hdrained.symm, hsome rfl⟩

/-- The shell of a persistent session ends, and the next client gets its output once more, after
    `Closed`. -/
theorem data_after_closed :
    ¬ ∀ before after, (served (fun data => data) [.output [97], .readerExits,
        .readOutputs false true true, .resetStatus, .handleOpen,
        .readOutputs false true true]).sent = before ++ .closed :: after →
      payloads (fun data => data) after = [] := by
  intro h
  have hrun : (served (fun data => data) [.output [97], .readerExits,
      .readOutputs false true true, .resetStatus, .handleOpen,
      .readOutputs false true true]).sent =
        [.data ⟨[97], false⟩] ++ .closed :: [.data ⟨[97], false⟩] := by decide
  exact absurd (h _ _ hrun) (by decide)

end Terminal
end LuodaRemote
