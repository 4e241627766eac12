/-
  Reads through the FUSE file system (`FuseServer::read_node` of
  libs/clipboard/src/platform/unix/fuse/cs.rs and `handle_file_content_response` beside it).

  A read sends a request to the peer and waits for replies on one channel, which all reads share.
  Reads come one after another, since the server is locked. A reply is taken for the answer if its
  stream id is that of the file; the id is made once for a node, not for a request. A reply that
  comes after a read gave up stays in the channel, and a later read of the same file takes it.

  The system is the reader, the channel, and the requests that the peer has not answered. A reply
  carries, beside what is in the message, the request that it answers. `read_range_of_fresh`: if
  whenever a read starts nothing is outstanding under the stream id of its file for another place,
  every read returns what the peer sent for its own node and offset.
-/
import LuodaRemote.Clipboard.Files

namespace LuodaRemote
open Lib

namespace Fuse

/-- `READ_RETRY`. -/
def readRetry : Nat := 3

/-- What `read_node` reads of a `FuseNode`. -/
structure FuseNode where
  connId : Int32
  streamId : Int32
  index : Nat
deriving DecidableEq

/-- The arguments of `read_node`. -/
structure ReadCall where
  node : FuseNode
  offset : Int64
  size : UInt32
deriving DecidableEq

/-- The request that is sent to `node.conn_id`. -/
def ReadCall.request (call : ReadCall) : ClipboardFile :=
  readNodeRequest call.node.streamId call.node.index call.offset call.size

/-- The stream id of a request, which the peer puts into its reply. -/
def requestStreamId : ClipboardFile → Int32
  | .fileContentsRequest streamId _ _ _ _ _ => streamId
  | _ => 0

/-- A message in the channel, and the call whose request it answers. -/
structure Reply where
  message : ClipboardFile
  answers : ReadCall
deriving DecidableEq

/-- A read under way. -/
structure Reading where
  call : ReadCall
  retryTimes : Nat
deriving DecidableEq

structure State where
  /-- The requests, resent ones included, that have no reply in the channel yet. -/
  unanswered : List ReadCall
  /-- The messages in `rx`, oldest first. -/
  rx : List Reply
  reading : Option Reading
  /-- The reads that returned `Ok`, with the reply that they took. -/
  returned : List (ReadCall × Reply)
deriving DecidableEq

def State.init : State where
  unanswered := []
  rx := []
  reading := none
  returned := []

inductive Event where
  /-- `read_node` is called and sends its request, or fails to. -/
  | start (call : ReadCall) (sendOk : Bool)
  /-- The peer answers one of the requests with a `FileContentsResponse`. -/
  | answer (k : Nat) (msgFlags : Int32) (data : Bytes)
  /-- A request or its reply is lost. -/
  | lose (k : Nat)
  /-- `recv_timeout` returns a message; a request that is sent again may fail to be sent. -/
  | recv (sendOk : Bool)
  /-- `recv_timeout` gives up, which it does only on an empty channel. -/
  | timeout
deriving DecidableEq

/-- The peer could read what was asked for. -/
def isSuccess (msgFlags : Int32) : Bool := msgFlags &&& 1 != 0

/-- What the loop of `read_node` does with a message. -/
def receive (s : State) (r : Reading) (reply : Reply) (sendOk : Bool) : State :=
  match reply.message with
  | .fileContentsResponse msgFlags streamId _ =>
    if streamId ≠ r.call.node.streamId then s
    else if isSuccess msgFlags then
      { s with reading := none, returned := s.returned ++ [(r.call, reply)] }
    else if r.retryTimes + 1 > readRetry then { s with reading := none }
    else if sendOk then
      { s with unanswered := s.unanswered ++ [r.call],
               reading := some { r with retryTimes := r.retryTimes + 1 } }
    else { s with reading := none }
  | _ => { s with reading := none }

def step (s : State) : Event → State
  | .start call sendOk =>
    match s.reading with
    | none =>
      if sendOk then
        { s with unanswered := s.unanswered ++ [call], reading := some ⟨call, 0⟩ }
      else s
    -- the server is locked
    | some _ => s
  | .answer k msgFlags data =>
    match s.unanswered[k]? with
    | some call =>
      { s with unanswered := s.unanswered.eraseIdx k,
               rx := s.rx ++ [⟨.fileContentsResponse msgFlags (requestStreamId call.request) data,
                                call⟩] }
    | none => s
  | .lose k => { s with unanswered := s.unanswered.eraseIdx k }
  | .recv sendOk =>
    match s.reading, s.rx with
    | some r, reply :: rest => receive { s with rx := rest } r reply sendOk
    | _, _ => s
  | .timeout =>
    match s.rx with
    | [] => { s with reading := none }
    | _ :: _ => s

/-! ## The property -/

/-- The two calls ask for bytes of one node from one offset on. -/
def SamePlace (call other : ReadCall) : Prop :=
  other.node = call.node ∧ other.offset = call.offset

/-- Every read that returned data returned what the peer sent for its node and offset. -/
def State.RangesRight (s : State) : Prop :=
  ∀ p ∈ s.returned, SamePlace p.1 p.2.answers

/-- A message that a read of the file would return. -/
def Reply.acceptable (streamId : Int32) (reply : Reply) : Bool :=
  match reply.message with
  | .fileContentsResponse msgFlags id _ => id == streamId && isSuccess msgFlags
  | _ => false

/-- Nothing that is outstanding under the stream id of the file is about another place. -/
def State.FreshFor (s : State) (call : ReadCall) : Prop :=
  (∀ reply ∈ s.rx, reply.acceptable call.node.streamId = true → SamePlace call reply.answers) ∧
    ∀ other ∈ s.unanswered, other.node.streamId = call.node.streamId → SamePlace call other

/-- What a run has to meet: a read starts only if nothing stale is outstanding for it. -/
def StartsFresh (s : State) : Event → Prop
  | .start call _ => s.reading = none → s.FreshFor call
  | _ => True

/-! ## Runs -/

/-- What is kept: the ranges returned are right, and nothing stale is outstanding for the read
    under way. -/
structure State.Sound (s : State) : Prop where
  ranges : s.RangesRight
  fresh : ∀ r, s.reading = some r → s.FreshFor r.call

variable {s : State}

theorem sound_init : State.init.Sound :=
  ⟨fun _ hmem => absurd hmem List.not_mem_nil, nofun⟩

theorem samePlace_self (call : ReadCall) : SamePlace call call := ⟨rfl, rfl⟩

theorem freshFor_send {call : ReadCall} (h : s.FreshFor call) (reading : Option Reading) :
    State.FreshFor { s with unanswered := s.unanswered ++ [call], reading := reading } call := by
  refine ⟨h.1, fun other hmem hid => ?_⟩
  rcases List.mem_append.mp hmem with hold | hnew
  · exact h.2 other hold hid
  · rw [List.mem_singleton.mp hnew]
    exact samePlace_self call

theorem sound_receive {r : Reading} {reply : Reply} {rest : List Reply} (hs : s.Sound)
    (hr : s.reading = some r) (hrx : s.rx = reply :: rest) (sendOk : Bool) :
    (receive { s with rx := rest } r reply sendOk).Sound := by
  obtain ⟨hqueue, hunanswered⟩ := hs.fresh r hr
  have hrest : State.FreshFor { s with rx := rest } r.call := by
    refine ⟨fun q hmem => hqueue q ?_, hunanswered⟩
    rw [hrx]
    exact List.mem_cons_of_mem reply hmem
  have hstop : State.Sound { s with rx := rest, reading := none } := ⟨hs.ranges, nofun⟩
  unfold receive
  split
  · next msgFlags streamId data hmessage =>
      split
      · refine ⟨hs.ranges, fun r' hr' => ?_⟩
        obtain rfl : r = r' := Option.some.inj (hr.symm.trans hr')
        exact hrest
      · next hid =>
          rw [ne_eq, not_not] at hid
          split
          · next hsuccess =>
              refine ⟨fun p hmem => ?_, nofun⟩
              rcases List.mem_append.mp hmem with hold | hnew
              · exact hs.ranges p hold
              · rw [List.mem_singleton.mp hnew]
                refine hqueue reply ?_ ?_
                · rw [hrx]
                  exact List.mem_cons_self
                · rw [Reply.acceptable, hmessage]
                  simp only [hid, hsuccess, beq_self_eq_true, Bool.and_self]
          · split
            · exact hstop
            · split
              · refine ⟨hs.ranges, fun r' hr' => ?_⟩
                cases hr'
                exact freshFor_send hrest _
              · exact hstop
  · exact hstop

/-- A reply put into the channel is about the request it answers. -/
theorem freshFor_answer {call : ReadCall} (h : s.FreshFor call) {k : Nat} {answered : ReadCall}
    (hk : s.unanswered[k]? = some answered) (msgFlags : Int32) (data : Bytes) :
    State.FreshFor
      { s with unanswered := s.unanswered.eraseIdx k,
               rx := s.rx ++ [⟨.fileContentsResponse msgFlags answered.node.streamId data,
                                answered⟩] } call := by
  refine ⟨fun reply hmem haccept => ?_, fun other hmem => h.2 other (List.mem_of_mem_eraseIdx hmem)⟩
  rcases List.mem_append.mp hmem with hold | hnew
  · exact h.1 reply hold haccept
  · rw [List.mem_singleton.mp hnew] at haccept ⊢
    exact h.2 answered (List.mem_of_getElem? hk) (beq_iff_eq.mp (Bool.and_eq_true_iff.mp haccept).1)

theorem sound_step (hs : s.Sound) {e : Event} (hc : StartsFresh s e) : (step s e).Sound := by
  cases e with
  | start call sendOk =>
    rw [step]
    split
    · next hidle =>
        split
        · refine ⟨hs.ranges, fun r hr => ?_⟩
          cases hr
          exact freshFor_send (hc hidle) _
        · exact hs
    · exact hs
  | answer k msgFlags data =>
    rw [step]
    split
    · next call hk =>
        exact ⟨hs.ranges, fun r hr => freshFor_answer (hs.fresh r hr) hk msgFlags data⟩
    · exact hs
  | lose k =>
    refine ⟨hs.ranges, fun r hr => ?_⟩
    obtain ⟨hqueue, hunanswered⟩ := hs.fresh r hr
    exact ⟨hqueue, fun other hmem => hunanswered other (List.mem_of_mem_eraseIdx hmem)⟩
  | recv sendOk =>
    rw [step]
    split
    · next r reply rest hr hrx => exact sound_receive hs hr hrx sendOk
    · exact hs
  | timeout =>
    rw [step]
    split
    · exact ⟨hs.ranges, nofun⟩
    · exact hs

/-- In every run in which reads start fresh, every read that returns data returns what the peer
    sent for its node and offset. -/
theorem read_range_of_fresh (events : List Event) (hfresh : Along step StartsFresh .init events) :
    Always step State.RangesRight .init events := by
  have hstep : ∀ s e, State.Sound s → StartsFresh s e → (step s e).Sound :=
    fun _ _ hs hc => sound_step hs hc
  exact (always_of_along hstep sound_init hfresh).mono fun _ hs => hs.ranges

def sampleNode : FuseNode := ⟨1, 7, 0⟩

/-- A read that times out, whose answer comes late, and a read of the same file from another
    offset. -/
def lateAnswer : List Event :=
  [.start ⟨sampleNode, 0, 4⟩ true, .timeout, .answer 0 1 [1, 2, 3, 4],
   .start ⟨sampleNode, 100, 4⟩ true, .recv true]

/-- The same, with the first read sent again. -/
def lateAnswerAgain : List Event :=
  [.start ⟨sampleNode, 0, 4⟩ true, .timeout, .answer 0 1 [1, 2, 3, 4],
   .start ⟨sampleNode, 0, 4⟩ true, .recv true]

theorem read_range_of_fresh_again :
    Along step StartsFresh .init lateAnswerAgain ∧
      Always step State.RangesRight .init lateAnswerAgain := by
  have hfresh : Along step StartsFresh .init lateAnswerAgain := by
    refine ⟨fun _ => ⟨nofun, nofun⟩, trivial, trivial, fun _ => ⟨?_, nofun⟩, trivial, trivial⟩
    intro reply hmem _
    rw [show reply = _ from List.mem_singleton.mp hmem]
    exact ⟨rfl, rfl⟩
  exact ⟨hfresh, read_range_of_fresh lateAnswerAgain hfresh⟩

/-- The late answer is returned for the wrong offset. -/
theorem late_answer_taken : ¬ Always step State.RangesRight .init lateAnswer := by
  intro h
  have hlast := h.last
  have hreturned : (run step .init lateAnswer).returned =
      [(⟨sampleNode, 100, 4⟩, ⟨.fileContentsResponse 1 7 [1, 2, 3, 4], ⟨sampleNode, 0, 4⟩⟩)] := by
    decide
  unfold State.RangesRight at hlast
  rw [hreturned] at hlast
  exact absurd (hlast _ List.mem_cons_self).2 (by decide)

end Fuse
end LuodaRemote
