/-
  The whiteboard of the controlled side (`register_whiteboard`, `unregister_whiteboard` and
  `start_whiteboard_` of `src/whiteboard/client.rs`).

  A call of `register_whiteboard` spawns a thread that starts the event loop unless there is one,
  and then puts its key into `CONNS`. A call of `unregister_whiteboard` takes the key out, and if
  none is left it spawns a thread that sends `Exit` to the loop and takes its sender away. A loop
  that ends clears `TX_WHITEBOARD` once more, and what it finds there by then is the sender of
  another loop.

  What the threads do was decided before. So a connection that comes while the exit thread is on
  its way finds the whiteboard started and loses it; a start thread that is late starts one for
  nobody; and a loop that ends takes the next one with it. `whiteboard_kept` says that nothing else
  goes wrong, in any order of steps.

  Each step holds one lock, or none. The whiteboard process can always be reached.
-/
import LuodaRemote.Lib.Run

namespace LuodaRemote
open Lib

/-! ## Calls and threads -/

/-- The events of a loop that matter for its life. -/
inductive CustomEvent where
  | clear (k : String)
  | exit
deriving DecidableEq

inductive LoopState where
  | notStarted
  | running
  /-- It has left its loop and not cleared `TX_WHITEBOARD` yet. -/
  | finishing
  | finished
deriving DecidableEq

structure EventLoop where
  state : LoopState
  /-- What `rx` holds. -/
  queue : List CustomEvent
deriving DecidableEq

structure Whiteboard where
  /-- The keys of `CONNS`. -/
  conns : List String
  /-- Whose sender `TX_WHITEBOARD` holds. -/
  tx : Option Nat
  loops : Nat → EventLoop
  nextLoop : Nat
  /-- Calls of `register_whiteboard` that have spawned their thread. -/
  inserting : List String
  /-- Calls of `unregister_whiteboard` that have removed their key, and whether it was the last. -/
  clearing : List (String × Bool)
  /-- Those among them that have sent `Clear` and still have to spawn a thread. -/
  spawning : Nat
  startThreads : Nat
  exitThreads : Nat

inductive WhiteboardStep where
  | register (k : String)
  | insert (k : String)
  | unregister (k : String)
  | clear (k : String) (isConnsEmpty : Bool)
  | spawnExit
  | startThread
  | exitThread
  | recv (i : Nat)
  | finish (i : Nat)
deriving DecidableEq

namespace Whiteboard

def start : Whiteboard where
  conns := []
  tx := none
  loops := fun _ => ⟨.notStarted, []⟩
  nextLoop := 0
  inserting := []
  clearing := []
  spawning := 0
  startThreads := 0
  exitThreads := 0

/-- `tx.send(..)`. -/
def send (e : CustomEvent) (i : Nat) (loops : Nat → EventLoop) : Nat → EventLoop :=
  Function.update loops i { loops i with queue := (loops i).queue ++ [e] }

def sendTo (e : CustomEvent) (tx : Option Nat) (loops : Nat → EventLoop) : Nat → EventLoop :=
  match tx with
  | some i => send e i loops
  | none => loops

def setLoop (i : Nat) (l : EventLoop) (s : Whiteboard) : Whiteboard :=
  { s with loops := Function.update s.loops i l }

/-- `rx.recv()`, which waits as long as nothing is there and the sender lives. -/
def recv (i : Nat) (s : Whiteboard) : Whiteboard :=
  if (s.loops i).state = .running then
    match (s.loops i).queue with
    | .exit :: rest => s.setLoop i ⟨.finishing, rest⟩
    | .clear _ :: rest => s.setLoop i ⟨.running, rest⟩
    | [] => if s.tx = some i then s else s.setLoop i ⟨.finishing, []⟩
  else s

/-- The rest of `start_whiteboard_` behind the loop. -/
def finish (i : Nat) (s : Whiteboard) : Whiteboard :=
  if (s.loops i).state = .finishing then
    { s with tx := none, loops := Function.update s.loops i ⟨.finished, []⟩ }
  else s

/-- `start_whiteboard_` up to its loop, under the lock. -/
def startThread (s : Whiteboard) : Whiteboard :=
  match s.startThreads, s.tx with
  | 0, _ => s
  | n + 1, some _ => { s with startThreads := n }
  | n + 1, none =>
    { s with
      startThreads := n
      tx := some s.nextLoop
      loops := Function.update s.loops s.nextLoop ⟨.running, []⟩
      nextLoop := s.nextLoop + 1 }

/-- The thread that `unregister_whiteboard` spawns. -/
def exitThread (s : Whiteboard) : Whiteboard :=
  match s.exitThreads with
  | 0 => s
  | n + 1 => { s with exitThreads := n, tx := none, loops := sendTo .exit s.tx s.loops }

def step (s : Whiteboard) : WhiteboardStep → Whiteboard
  | .register k =>
    { s with startThreads := s.startThreads + 1, inserting := k :: s.inserting }
  | .insert k =>
    if k ∈ s.inserting then
      { s with
        inserting := s.inserting.erase k
        conns := if k ∈ s.conns then s.conns else k :: s.conns }
    else s
  | .unregister k =>
    let conns := s.conns.filter (· ≠ k)
    { s with conns := conns, clearing := (k, conns.isEmpty) :: s.clearing }
  | .clear k isConnsEmpty =>
    if (k, isConnsEmpty) ∈ s.clearing then
      { s with
        clearing := s.clearing.erase (k, isConnsEmpty)
        loops := sendTo (.clear k) s.tx s.loops
        spawning := if isConnsEmpty then s.spawning + 1 else s.spawning }
    else s
  | .spawnExit =>
    match s.spawning with
    | 0 => s
    | n + 1 => { s with spawning := n, exitThreads := s.exitThreads + 1 }
  | .startThread => s.startThread
  | .exitThread => s.exitThread
  | .recv i => s.recv i
  | .finish i => s.finish i

/-! ## What is promised -/

/-- No call is under way, and every thread has finished or waits in its loop. -/
structure Quiet (s : Whiteboard) : Prop where
  inserting : s.inserting = []
  clearing : s.clearing = []
  spawning : s.spawning = 0
  startThreads : s.startThreads = 0
  exitThreads : s.exitThreads = 0
  finishing : ∀ i, (s.loops i).state ≠ .finishing
  waiting : ∀ i, (s.loops i).state = .running → (s.loops i).queue = [] ∧ s.tx = some i

/-- The whiteboard lives as long as it is used. -/
structure Lives (s : Whiteboard) : Prop where
  used : s.conns ≠ [] → ∃ i, s.tx = some i ∧ (s.loops i).state = .running
  one : ∀ i j, (s.loops i).state = .running → (s.loops j).state = .running → i = j
  unused : s.conns = [] → ∀ i, (s.loops i).state ≠ .running

/-- Somebody is registered, or about to be. -/
def Wanted (s : Whiteboard) : Prop := s.conns ≠ [] ∨ s.inserting ≠ []

/-- An exit thread is there, or will be. -/
def Leaving (s : Whiteboard) : Prop :=
  0 < s.exitThreads ∨ 0 < s.spawning ∨ ∃ k, (k, true) ∈ s.clearing

/-- The sender is taken away only if nobody wants it or a start thread is still to come, and a
    loop is started only if somebody wants it or an exit thread is still to come. -/
def Allowed (s : Whiteboard) : WhiteboardStep → Prop
  | .startThread => 0 < s.startThreads → s.tx = none → s.Wanted ∨ s.Leaving
  | .exitThread => 0 < s.exitThreads → s.tx ≠ none → s.Wanted → 0 < s.startThreads
  | .finish i => (s.loops i).state = .finishing → s.tx ≠ none → s.Wanted → 0 < s.startThreads
  | _ => True

/-! ## What every step keeps -/

structure Inv (s : Whiteboard) : Prop where
  wanted : s.Wanted → s.tx ≠ none ∨ 0 < s.startThreads
  left : s.tx ≠ none → s.Wanted ∨ s.Leaving
  /-- The loop of the sender has not been told to end. -/
  live : ∀ i, s.tx = some i → (s.loops i).state = .running ∧ .exit ∉ (s.loops i).queue

section Steps

variable {s : Whiteboard} {i j : Nat}

theorem sendTo_state (e : CustomEvent) (tx : Option Nat) (loops : Nat → EventLoop) (j : Nat) :
    (sendTo e tx loops j).state = (loops j).state := by
  cases tx with
  | none => rfl
  | some i =>
    by_cases hij : j = i
    · subst hij
      simp [sendTo, send]
    · simp [sendTo, send, hij]

theorem mem_sendTo {e x : CustomEvent} {tx : Option Nat} {loops : Nat → EventLoop}
    (hx : x ∈ (sendTo e tx loops j).queue) : x ∈ (loops j).queue ∨ x = e := by
  cases tx with
  | none => exact .inl hx
  | some i =>
    by_cases hij : j = i
    · subst hij
      simpa [sendTo, send] using hx
    · rw [sendTo, send, Function.update_of_ne hij] at hx
      exact .inl hx

theorem register_inv (hs : s.Inv) (k : String) : (step s (.register k)).Inv :=
  ⟨fun _ => .inr (Nat.succ_pos _), fun _ => .inl (.inr (List.cons_ne_nil _ _)), hs.live⟩

theorem insert_inv (hs : s.Inv) (k : String) : (step s (.insert k)).Inv := by
  by_cases hk : k ∈ s.inserting
  · have hwanted : s.Wanted := .inr (List.ne_nil_of_mem hk)
    have hconns : (if k ∈ s.conns then s.conns else k :: s.conns) ≠ [] := by
      split
      · rename_i hin
        exact List.ne_nil_of_mem hin
      · exact List.cons_ne_nil _ _
    rw [step, if_pos hk]
    exact ⟨fun _ => hs.wanted hwanted, fun _ => .inl (.inl hconns), hs.live⟩
  · rw [step, if_neg hk]
    exact hs

/-- Whoever takes out the last key is going to spawn an exit thread. -/
theorem unregister_inv (hs : s.Inv) (k : String) : (step s (.unregister k)).Inv := by
  have hsub (hne : s.conns.filter (· ≠ k) ≠ []) : s.conns ≠ [] := by
    rintro hnil
    rw [hnil] at hne
    exact hne rfl
  refine ⟨fun hw => hs.wanted (hw.imp hsub id), fun htx => ?_, hs.live⟩
  cases hempty : (s.conns.filter (· ≠ k)).isEmpty with
  | true =>
    refine .inr (.inr (.inr ⟨k, ?_⟩))
    show (k, true) ∈ (k, (s.conns.filter (· ≠ k)).isEmpty) :: s.clearing
    rw [hempty]
    exact List.mem_cons_self
  | false =>
    refine .inl (.inl ?_)
    simpa [step, List.isEmpty_eq_false_iff] using hempty

theorem leaving_of_clear {k : String} {isConnsEmpty : Bool}
    (hmem : (k, isConnsEmpty) ∈ s.clearing) (hl : s.Leaving) :
    (step s (.clear k isConnsEmpty)).Leaving := by
  rw [step, if_pos hmem]
  rcases hl with hexit | hspawn | ⟨k', hk'⟩
  · exact .inl hexit
  · refine .inr (.inl ?_)
    dsimp only
    split
    · exact Nat.succ_pos _
    · exact hspawn
  · by_cases heq : (k', true) = (k, isConnsEmpty)
    · cases heq
      exact .inr (.inl (Nat.succ_pos _))
    · exact .inr (.inr ⟨k', (List.mem_erase_of_ne heq).mpr hk'⟩)

theorem clear_inv (hs : s.Inv) (k : String) (isConnsEmpty : Bool) :
    (step s (.clear k isConnsEmpty)).Inv := by
  by_cases hmem : (k, isConnsEmpty) ∈ s.clearing
  · have hleaving := leaving_of_clear hmem
    rw [step, if_pos hmem] at hleaving ⊢
    refine ⟨hs.wanted, fun htx => (hs.left htx).imp id hleaving, fun i hi => ?_⟩
    obtain ⟨hrun, hno⟩ := hs.live i hi
    refine ⟨(sendTo_state _ _ _ _).trans hrun, fun hexit => ?_⟩
    rcases mem_sendTo hexit with hold | hnew
    · exact hno hold
    · cases hnew
  · rw [step, if_neg hmem]
    exact hs

theorem spawnExit_inv (hs : s.Inv) : (step s .spawnExit).Inv := by
  rw [step]
  cases hspawn : s.spawning with
  | zero => exact hs
  | succ n =>
    exact ⟨hs.wanted, fun htx => (hs.left htx).imp id fun _ => .inl (Nat.succ_pos _), hs.live⟩

theorem startThread_inv (hs : s.Inv) (hok : s.Allowed .startThread) :
    (step s .startThread).Inv := by
  rw [step, startThread]
  cases hn : s.startThreads with
  | zero => exact hs
  | succ n =>
    cases htx : s.tx with
    | some i =>
      exact ⟨fun _ => .inl (Option.some_ne_none _), fun _ => hs.left (by simp [htx]),
        fun j hj => hs.live j (htx.trans hj)⟩
    | none =>
      refine ⟨fun _ => .inl (Option.some_ne_none _), fun _ => hok (by omega) htx, ?_⟩
      rintro i ⟨⟩
      dsimp only
      rw [Function.update_self]
      exact ⟨rfl, List.not_mem_nil⟩

theorem exitThread_inv (hs : s.Inv) (hok : s.Allowed .exitThread) : (step s .exitThread).Inv := by
  rw [step, exitThread]
  cases hn : s.exitThreads with
  | zero => exact hs
  | succ n =>
    refine ⟨fun hw => .inr ?_, fun htx => absurd rfl htx, by rintro i ⟨⟩⟩
    rcases hs.wanted hw with htx | hstart
    · exact hok (by omega) htx hw
    · exact hstart

/-- A change to a loop that is not the one of the sender. -/
theorem setLoop_inv (hs : s.Inv) {l : EventLoop}
    (hl : s.tx = some i → l.state = .running ∧ .exit ∉ l.queue) : (s.setLoop i l).Inv := by
  refine ⟨hs.wanted, hs.left, fun j hj => ?_⟩
  rw [setLoop]
  dsimp only
  by_cases hij : j = i
  · subst hij
    rw [Function.update_self]
    exact hl hj
  · rw [Function.update_of_ne hij]
    exact hs.live j hj

theorem recv_inv (hs : s.Inv) (i : Nat) : (step s (.recv i)).Inv := by
  rw [step, recv]
  split
  · split
    · rename_i rest hqueue
      refine setLoop_inv hs fun htx => absurd ?_ (hs.live i htx).2
      rw [hqueue]
      exact List.mem_cons_self
    · rename_i k rest hqueue
      refine setLoop_inv hs fun htx => ⟨rfl, fun hexit => (hs.live i htx).2 ?_⟩
      rw [hqueue]
      exact List.mem_cons_of_mem _ hexit
    · split
      · exact hs
      · rename_i hgone
        exact setLoop_inv hs fun htx => absurd htx hgone
  · exact hs

theorem finish_inv (hs : s.Inv) (i : Nat) (hok : s.Allowed (.finish i)) :
    (step s (.finish i)).Inv := by
  rw [step, finish]
  split
  · rename_i hfin
    refine ⟨fun hw => .inr ?_, fun htx => absurd rfl htx, by rintro j ⟨⟩⟩
    rcases hs.wanted hw with htx | hstart
    · exact hok hfin htx hw
    · exact hstart
  · exact hs

theorem step_inv (hs : s.Inv) (e : WhiteboardStep) (hok : s.Allowed e) : (step s e).Inv := by
  cases e with
  | register k => exact register_inv hs k
  | insert k => exact insert_inv hs k
  | unregister k => exact unregister_inv hs k
  | clear k isConnsEmpty => exact clear_inv hs k isConnsEmpty
  | spawnExit => exact spawnExit_inv hs
  | startThread => exact startThread_inv hs hok
  | exitThread => exact exitThread_inv hs hok
  | recv i => exact recv_inv hs i
  | finish i => exact finish_inv hs i hok

/-- Where nothing is under way any more, the whiteboard is there precisely if it is used. -/
theorem Inv.lives (hs : s.Inv) (hq : s.Quiet) : s.Lives := by
  have hidle : ¬ s.Leaving := by
    rintro (hexit | hspawn | ⟨k, hk⟩)
    · exact hexit.ne' hq.exitThreads
    · exact hspawn.ne' hq.spawning
    · rw [hq.clearing] at hk
      cases hk
  refine ⟨fun hne => ?_, fun i j hi hj => ?_, fun hnil i hi => ?_⟩
  · rcases hs.wanted (.inl hne) with htx | hstart
    · obtain ⟨i, hi⟩ := Option.ne_none_iff_exists'.mp htx
      exact ⟨i, hi, (hs.live i hi).1⟩
    · exact absurd hq.startThreads hstart.ne'
  · exact Option.some.inj ((hq.waiting i hi).2.symm.trans (hq.waiting j hj).2)
  · have htx : s.tx ≠ none := by simp [(hq.waiting i hi).2]
    rcases (hs.left htx).resolve_right hidle with hconns | hinserting
    · exact hconns hnil
    · exact hinserting hq.inserting

end Steps

/-! ## Every run -/

theorem start_inv : start.Inv :=
  ⟨by rintro (h | h) <;> exact absurd rfl h, fun h => absurd rfl h, by rintro i ⟨⟩⟩

/-- In every order of steps that are all allowed: whenever the calls have returned and the threads
    have finished or wait, the sender of the one loop that runs is there if somebody is
    registered, and no loop runs otherwise. -/
theorem whiteboard_kept (es : List WhiteboardStep) (hok : Along step Allowed start es) :
    Always step (fun s => s.Quiet → s.Lives) start es :=
  (always_of_along (P := Inv) (fun _ e hs he => step_inv hs e he) start_inv hok).mono
    fun _ hs hq => hs.lives hq

/-- A connection comes and goes. -/
def oneGuest : List WhiteboardStep :=
  [.register "1-cursor", .insert "1-cursor", .startThread, .unregister "1-cursor",
    .clear "1-cursor" true, .spawnExit, .exitThread, .recv 0, .recv 0, .finish 0]

theorem whiteboard_kept_oneGuest :
    Always step (fun s => s.Quiet → s.Lives) start oneGuest := by
  refine whiteboard_kept oneGuest ⟨trivial, trivial, ?_, trivial, trivial, trivial, ?_, trivial,
    trivial, ?_, trivial⟩
  · exact fun _ _ => .inl (.inl (List.cons_ne_nil _ _))
  · rintro _ _ (h | h)
    · exact absurd rfl h
    · exact absurd rfl h
  · exact fun _ h => absurd rfl h

/-- The second connection comes while the exit thread is on its way: it finds the whiteboard
    started, and then the loop is told to end. -/
def secondGuest : List WhiteboardStep :=
  [.register "1-cursor", .insert "1-cursor", .startThread, .unregister "1-cursor",
    .clear "1-cursor" true, .spawnExit, .register "2-cursor", .insert "2-cursor", .startThread,
    .exitThread, .recv 0, .recv 0, .finish 0]

theorem second_guest_without_whiteboard :
    ¬ ∀ es, Always step (fun s => s.Quiet → s.Lives) start es := by
  intro hall
  have hconns : (run step start secondGuest).conns = ["2-cursor"] := by decide
  have htx : (run step start secondGuest).tx = none := by decide
  have hfinished : (run step start secondGuest).loops 0 = ⟨.finished, []⟩ := by decide
  have hother (i : Nat) : ((run step start secondGuest).loops (i + 1)).state = .notStarted := rfl
  have hquiet : (run step start secondGuest).Quiet := by
    refine ⟨by decide, by decide, by decide, by decide, by decide, fun i => ?_, fun i hi => ?_⟩
    · cases i with
      | zero => rw [hfinished]; decide
      | succ i => rw [hother i]; decide
    · cases i with
      | zero =>
        rw [hfinished] at hi
        cases hi
      | succ i =>
        rw [hother i] at hi
        cases hi
  have hused : (run step start secondGuest).conns ≠ [] := by
    rw [hconns]
    exact List.cons_ne_nil _ _
  obtain ⟨i, hi, _⟩ := ((hall secondGuest).last hquiet).used hused
  rw [htx] at hi
  cases hi

end Whiteboard

end LuodaRemote
