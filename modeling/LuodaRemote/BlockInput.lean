/-
  The input threads of the connections, and the blocking of the local input.

  Each connection has a thread of its own that takes the messages the connection sends it. On
  `BlockOn` and `BlockOff` it tells the platform and remembers the last in `block_input_mode`,
  which it applies again whenever nothing comes for half a second, and once more when its channel
  is closed. Whether a peer may have the input blocked is decided in the connection, when the
  option message arrives. Nobody tells the thread when that changes afterwards.

  `blocks_rightfully` is therefore about the runs in which no connection loses one of the two
  permissions, or ends, while its thread blocks or is about to (`KeepsRight`). In these a thread
  that has nothing left to do blocks only for a connection that is open and has both, and its peer
  can end the blocking. `blocked_after_revocation` is a run that is not of this kind.

  Source: `handle_input` and `send_block_input_error` of `src/server/connection.rs`; what the
  connections do is `System`. The messages for plugins are left out.
-/
import LuodaRemote.Connection.InputChannel
import LuodaRemote.Sessions

namespace LuodaRemote
open Lib

/-! ## Threads -/

/-- The input thread of a connection with its channel. -/
structure InputThread where
  receiver : List MessageInput := []
  blockInputMode : Bool := false
  /-- What it sent to the peer itself. -/
  toPeer : List Outgoing := []
  deriving DecidableEq

namespace InputThread

/-- `MessageInput::BlockOn` and `BlockOff`, given what the platform answers. -/
def block (on : Bool) (res : Bool × String) (t : InputThread) : InputThread :=
  if res.1 then { t with blockInputMode := on }
  else { t with toPeer := t.toPeer ++ [.blockInputFailed on res.2] }

/-- `handle_input` for one message, as far as the blocking goes. -/
def handleInput (res : Bool × String) (t : InputThread) : MessageInput → InputThread
  | .blockOn => t.block true res
  | .blockOff => t.block false res
  | .mouse .. | .key .. | .pointer _ => t

/-- The mode after a message, if the platform does not fail. -/
def switched (b : Bool) : MessageInput → Bool
  | .blockOn => true
  | .blockOff => false
  | .mouse .. | .key .. | .pointer _ => b

/-- Whether the thread blocks once it has processed its messages. -/
def settled (t : InputThread) : Bool := t.receiver.foldl switched t.blockInputMode

theorem blockInputMode_handleInput {res : Bool × String} (hres : res.1 = true) (t : InputThread)
    (m : MessageInput) : (t.handleInput res m).blockInputMode = switched t.blockInputMode m := by
  cases m with
  | blockOn | blockOff =>
    unfold handleInput block
    rw [hres]
    rfl
  | mouse | key | pointer => rfl

theorem receiver_handleInput (res : Bool × String) (t : InputThread) (m : MessageInput) :
    (t.handleInput res m).receiver = t.receiver := by
  have hblock : ∀ on, (t.block on res).receiver = t.receiver := by
    intro on
    unfold block
    split
    · rfl
    · rfl
  cases m with
  | blockOn => exact hblock true
  | blockOff => exact hblock false
  | mouse | key | pointer => rfl

theorem foldl_events (b : Bool) {ms : List MessageInput} (hms : ∀ m ∈ ms, m.isEvent = true) :
    ms.foldl switched b = b := by
  induction ms with
  | nil => rfl
  | cons m ms ih =>
    have hm : switched b m = b := by
      have hevent := hms m List.mem_cons_self
      cases m with
      | blockOn | blockOff => cases hevent
      | mouse | key | pointer => rfl
    rw [List.foldl_cons, hm]
    exact ih fun m' hm' => hms m' (List.mem_cons_of_mem _ hm')

end InputThread

/-! ## The machine -/

structure InputSystem where
  sys : System
  threads : Int → Option InputThread := fun _ => none
  /-- What the platform was last told. -/
  inputBlocked : Bool := false

inductive InputEvent where
  | server (e : Env × Action)
  /-- The thread takes a message; if that comes to `block_input`, this is its result. -/
  | recv (id : Int) (res : Bool × String)
  /-- `recv_timeout` fails: half a second has passed, or the connection is gone. -/
  | recvErr (id : Int) (res : Bool × String)

namespace InputSystem

/-- The thread of a connection when the connection has taken a step: it starts with the
    connection and gets what the connection sends. -/
def feed (c c' : Option Connection) (t : Option InputThread) : Option InputThread :=
  match c, c', t with
  | some c, some c', some t =>
    some { t with receiver := t.receiver ++ c'.toInput.drop c.toInput.length }
  | none, some _, _ => some {}
  | _, _, t => t

def step (h : Host) (s : InputSystem) (e : InputEvent) : InputSystem :=
  match e with
  | .server e =>
    let sys := s.sys.step h e
    { s with
      sys := sys
      threads := fun i => feed (s.sys.conns i) (sys.conns i) (s.threads i) }
  | .recv id res =>
    match s.threads id with
    | some t =>
      match t.receiver with
      | m :: rest =>
        let t' := { t with receiver := rest }.handleInput res m
        { s with
          threads := Function.update s.threads id (some t')
          inputBlocked := if res.1 then InputThread.switched s.inputBlocked m
            else s.inputBlocked }
      | [] => s
    | none => s
  | .recvErr id res =>
    match s.threads id with
    | some t =>
      if t.receiver.isEmpty then
        { s with
          inputBlocked := t.blockInputMode && res.1 || s.inputBlocked
          threads := if (s.sys.conns id).isSome then s.threads
            else Function.update s.threads id none }
      else s
    | none => s

/-- A server that has taken no connection yet. -/
def init (idCount : Int) (server : Server) : InputSystem := { sys := System.init idCount server }

/-- The platform blocks and unblocks when it is told to. -/
def Succeeds : InputEvent → Prop
  | .recv _ res => res.1 = true
  | _ => True

/-! ## The right to block -/

/-- A thread that has processed its messages and blocks does so for an open connection with both
    permissions. -/
def Rightful (s : InputSystem) : Prop :=
  ∀ i t, s.threads i = some t → t.receiver = [] → t.blockInputMode = true →
    ∃ c, s.sys.conns i = some c ∧ c.closed = false ∧ c.flags.keyboard = true ∧
      c.flags.blockInput = true

/-- The peer asks for the input to be unblocked, and the thread takes `n` messages. -/
def unblocking (env : Env) (id : Int) (n : Nat) : List InputEvent :=
  .server (env, .arm id (.peer (.misc (.option { blockInput := .no })))) ::
    List.replicate n (.recv id (true, ""))

/-- A peer that is connected can end the blocking of its thread. -/
def Unblockable (h : Host) (s : InputSystem) : Prop :=
  ∀ i c t env, s.sys.conns i = some c → c.running = true → s.threads i = some t →
    t.blockInputMode = true →
    ∃ n t', (run (step h) s (unblocking env i n)).threads i = some t' ∧ t'.receiver = [] ∧
      t'.blockInputMode = false

/-- The arm takes one of the two permissions away, or closes the connection. -/
def Revokes (h : Host) (w : World) (a : Arm) : Prop :=
  (a.keyboardAfter true && a.blockInputAfter true) = false ∨ w.closes h a = true

/-- The step takes nothing from a connection whose thread blocks or is about to: no permission
    and not the connection, and no logon takes the keyboard from a connection that has just asked
    for the input to be blocked. -/
def KeepsRight (h : Host) (s : InputSystem) (e : InputEvent) : Prop :=
  match e with
  | .server (env, .arm id a) => ∀ c t, s.sys.conns id = some c → c.running = true →
      s.threads id = some t →
      (t.settled = true → ¬ Revokes h ⟨c, s.sys.glob⟩ a) ∧
      (c.authorized = false → (∃ v, World.Entry h env ⟨c, s.sys.glob⟩ a v) →
        ¬ World.LosesKeyboard ⟨c, s.sys.glob⟩ a)
  | .server (_, .finish id) => ∀ c t, s.sys.conns id = some c → c.running = false →
      s.threads id = some t → t.settled = false
  | _ => True

/-! ## One arm -/

end InputSystem

/-- What it takes to have the input blocked, in full: the connection is heard. -/
structure Connection.MayBlock (c : Connection) : Prop where
  opened : c.closed = false
  keyboard : c.flags.keyboard = true
  blockInput : c.flags.blockInput = true
  authorized : c.authorized = true
  noSocket : c.portForwardSocket = none

namespace InputSystem

open InputThread World

variable {h : Host} {env : Env} {w : World} {a : Arm}

theorem foldl_blockSwitch {q : BoolOption} {f : Flags}
    (hon : (blockSwitch q f).foldl switched false = true) :
    f.keyboard = true ∧ f.blockInput = true ∧ q = .yes := by
  unfold blockSwitch at hon
  split at hon
  · rename_i hperm
    rw [Bool.and_eq_true] at hperm
    cases q with
    | notSet | no => cases hon
    | yes => exact ⟨hperm.1, hperm.2, rfl⟩
  · cases hon

/-- Only an option message of a connection that is heard switches the blocking on. -/
theorem foldl_switches (hon : (w.switches a).foldl switched false = true) :
    (∃ o, a = .peer (.misc (.option o))) ∧ w.conn.authorized = true ∧
      w.conn.portForwardSocket = none ∧ w.conn.flags.keyboard = true ∧
      w.conn.flags.blockInput = true := by
  unfold switches at hon
  split at hon
  · rename_i msg
    split at hon
    · rename_i ha
      split at hon
      · cases hon
      · rename_i hs
        have hs : w.conn.portForwardSocket = none := by simpa using hs
        unfold blockSwitches at hon
        split at hon
        · rename_i o
          obtain ⟨hk, hb, _⟩ := foldl_blockSwitch hon
          exact ⟨⟨o, rfl⟩, ha, hs, hk, hb⟩
        · cases hon
    · cases hon
  · cases hon

theorem switches_of_closes (hc : w.closes h a = true) : w.switches a = [] := by
  unfold closes at hc
  split at hc
  · unfold switches blockSwitches
    dsimp only
    split_ifs
    · rfl
    · rfl
    · rfl
  · rfl
  · rfl
  · unfold switches blockSwitches
    dsimp only
    split_ifs
    · rfl
    · rfl
    · rfl
  · rfl
  · cases hc

/-- A connection that goes on after an arm is as open as before. -/
theorem closed_arm (h2 : w.conn.require2fa = false) (hopen : w.conn.closed = false)
    (hrun : (w.arm h env a).conn.running = true) : (w.arm h env a).conn.closed = false := by
  by_cases hl : a.isLogin = true
  · rcases login_arm_cases h env hl h2 with hs | ⟨_, v, he, hlog⟩
    · have hclosed := congrArg (fun w : World => w.conn.closed) hs
      exact (show (w.arm h env a).conn.closed = w.conn.closed from hclosed).trans hopen
    · exact (loggedOn_feeds he hlog).1.trans hopen
  · by_cases hc : w.closes h a = true
    · rw [running_of_closes hc] at hrun
      cases hrun
    · have hstanding : (w.arm h env a).standing = w.standing :=
        standing_arm (Bool.eq_false_iff.mpr hl) (Bool.eq_false_iff.mpr hc)
      unfold standing at hstanding
      simp only [Prod.mk.injEq] at hstanding
      exact hstanding.1.trans hopen

/-- The arm sends messages after which the thread blocks only if the connection may have that
    done, provided the same was so before and the arm takes nothing away. -/
theorem mayBlock_arm {b : Bool} (h2 : w.conn.require2fa = false) (hopen : w.conn.closed = false)
    (hb : b = true → w.conn.MayBlock) (hrev : b = true → ¬ Revokes h w a)
    (hlose : w.conn.authorized = false → (∃ v, Entry h env w a v) → ¬ w.LosesKeyboard a) :
    ∃ ms, (w.arm h env a).conn.toInput = w.conn.toInput ++ ms ∧
      (ms.foldl switched b = true → (w.arm h env a).conn.MayBlock) := by
  by_cases hl : a.isLogin = true
  · rcases login_arm_cases h env hl h2 with hs | ⟨ha, v, he, hlog⟩
    · have hview := congrArg (fun w : World => (w.conn.closed, w.conn.flags, w.conn.authorized,
        w.conn.portForwardSocket, w.conn.toInput)) hs
      simp only [Prod.mk.injEq] at hview
      obtain ⟨hclosed, hflags, hauth, hsocket, hinput⟩ := hview
      refine ⟨[], hinput.trans (List.append_nil _).symm, fun hon => ?_⟩
      obtain ⟨hopen, hk, hbi, ha, hno⟩ := hb hon
      have hflags : (w.arm h env a).conn.flags = w.conn.flags := hflags
      exact ⟨hclosed.trans hopen, hflags ▸ hk, hflags ▸ hbi, hauth.trans ha, hsocket.trans hno⟩
    · have hoff : b = false := by
        rw [← Bool.not_eq_true]
        intro hon
        have hyes := (hb hon).authorized
        rw [ha] at hyes
        cases hyes
      obtain ⟨hclosed, hsame | ⟨hauth, hno, o, ho, hinput, hbi, hk⟩⟩ := loggedOn_feeds he hlog
      · refine ⟨[], hsame.trans (List.append_nil _).symm, fun hon => ?_⟩
        rw [hoff] at hon
        cases hon
      · refine ⟨_, hinput, fun hon => ?_⟩
        rw [hoff] at hon
        obtain ⟨hkey, hblock, hyes⟩ := foldl_blockSwitch hon
        refine ⟨hclosed.trans hopen, hk.mpr ⟨hkey, fun htaken => ?_⟩, hbi.trans hblock, hauth, hno⟩
        exact hlose ha ⟨v, he⟩ ⟨⟨o, ho, hyes⟩, hkey, hblock, htaken⟩
  · have hl : a.isLogin = false := Bool.eq_false_iff.mpr hl
    have hfeeds : ArmFeeds w (w.arm h env a) a := arm_feeds hl w
    obtain ⟨hk, hbi, events, hevents, hinput⟩ := hfeeds
    refine ⟨events ++ w.switches a, by rw [hinput, List.append_assoc], fun hon => ?_⟩
    rw [List.foldl_append, foldl_events b hevents] at hon
    by_cases hc : w.closes h a = true
    · rw [switches_of_closes hc] at hon
      exact absurd (Or.inr hc) (hrev hon)
    · have hstanding : (w.arm h env a).standing = w.standing :=
        standing_arm hl (Bool.eq_false_iff.mpr hc)
      unfold standing at hstanding
      simp only [Prod.mk.injEq] at hstanding
      obtain ⟨hclosed, hauth, hsocket⟩ := hstanding
      cases b with
      | true =>
        have hmay := hb rfl
        have hkeeps : a.keyboardAfter true = true ∧ a.blockInputAfter true = true := by
          rw [← Bool.and_eq_true, ← Bool.not_eq_false]
          exact fun hno => hrev rfl (Or.inl hno)
        rw [hmay.keyboard] at hk
        rw [hmay.blockInput] at hbi
        exact ⟨hclosed.trans hopen, hk.trans hkeeps.1, hbi.trans hkeeps.2,
          hauth.trans hmay.authorized, hsocket.trans hmay.noSocket⟩
      | false =>
        obtain ⟨⟨o, rfl⟩, ha, hno, hkey, hblock⟩ := foldl_switches hon
        exact ⟨hclosed.trans hopen, hk.trans hkey, hbi.trans hblock, hauth.trans ha,
          hsocket.trans hno⟩

/-! ## The invariant -/

/-- A thread that blocks or is about to does so for a connection that may have that done. -/
structure Inv (s : InputSystem) : Prop where
  sound : s.sys.Sound
  opened : ∀ i c, s.sys.conns i = some c → c.running = true → c.closed = false
  settled : ∀ i t, s.threads i = some t → t.settled = true →
    ∃ c, s.sys.conns i = some c ∧ c.MayBlock

theorem feed_self (c : Option Connection) (t : Option InputThread) : feed c c t = t := by
  cases c with
  | none => rfl
  | some c =>
    cases t with
    | none => rfl
    | some t => simp [feed]

theorem settled_append (t : InputThread) (ms : List MessageInput) :
    ({ t with receiver := t.receiver ++ ms } : InputThread).settled =
      ms.foldl switched t.settled := List.foldl_append

theorem inv_init (idCount : Int) (server : Server) : (init idCount server).Inv := by
  refine ⟨System.sound_init idCount server, ?_, ?_⟩
  · intro i c hc
    cases hc
  · intro i t ht
    cases ht

/-- A step of the server that leaves connection `i` as it is leaves its thread, too. -/
theorem settled_of_same {s : InputSystem} {e : Env × Action} {i : Int} {t : InputThread}
    (hs : s.Inv) (hsame : (s.sys.step h e).conns i = s.sys.conns i)
    (ht : (s.step h (.server e)).threads i = some t) (hon : t.settled = true) :
    ∃ c, (s.sys.step h e).conns i = some c ∧ c.MayBlock := by
  have hthread : s.threads i = some t := by
    rw [← ht]
    show s.threads i = feed (s.sys.conns i) ((s.sys.step h e).conns i) (s.threads i)
    rw [hsame, feed_self]
  obtain ⟨c, hc, hmay⟩ := hs.settled i t hthread hon
  exact ⟨c, hsame.trans hc, hmay⟩

theorem opened_server {s : InputSystem} (e : Env × Action) (hs : s.Inv) :
    ∀ i c, (s.sys.step h e).conns i = some c → c.running = true → c.closed = false := by
  intro i c hc hrun
  rcases System.conns_step hc with ⟨ip, hash, cp, _, _, rfl⟩ | ⟨c, a, hr, rfl⟩ | hc
  · rfl
  · exact closed_arm (w := ⟨c, s.sys.glob⟩) (hs.sound i c hr.2.1).2.2.no2fa
      (hs.opened i c hr.2.1 hr.2.2) hrun
  · exact hs.opened i c hc hrun

theorem settled_server {s : InputSystem} (e : Env × Action) (hs : s.Inv)
    (hkeep : s.KeepsRight h (.server e)) {i : Int} {t : InputThread}
    (ht : (s.step h (.server e)).threads i = some t) (hon : t.settled = true) :
    ∃ c, (s.sys.step h e).conns i = some c ∧ c.MayBlock := by
  have hfed : feed (s.sys.conns i) ((s.sys.step h e).conns i) (s.threads i) = some t := ht
  rcases System.step_cases h s.sys e with ⟨j, c, a, hr⟩ | ⟨j, c, hd⟩ | ⟨ip, hash, cp, he⟩ |
    ⟨peerId, uuid, he⟩ | ⟨name, he⟩ | heq
  · have hstep := System.step_runs (h := h) hr
    by_cases hij : i = j
    · subst hij
      have hc' : (s.sys.step h e).conns i =
          some (World.arm h e.1 a ⟨c, s.sys.glob⟩).conn := by
        rw [hstep]
        exact Function.update_self i _ _
      obtain ⟨hact, hc, hrun⟩ := hr
      rw [hc, hc'] at hfed
      cases hold : s.threads i with
      | none =>
        rw [hold] at hfed
        cases hfed
      | some told =>
        rw [hold] at hfed
        obtain ⟨env, act⟩ := e
        dsimp only at hact
        subst hact
        obtain ⟨hrev, hlose⟩ := hkeep c told hc hrun hold
        have hmay : told.settled = true → c.MayBlock := by
          intro hblocks
          obtain ⟨c₀, hc₀, hmay⟩ := hs.settled i told hold hblocks
          rw [hc] at hc₀
          cases hc₀
          exact hmay
        obtain ⟨ms, hinput, hlast⟩ := mayBlock_arm (w := ⟨c, s.sys.glob⟩)
          (hs.sound i c hc).2.2.no2fa (hs.opened i c hc hrun) hmay hrev hlose
        have hinput : (World.arm h env a ⟨c, s.sys.glob⟩).conn.toInput = c.toInput ++ ms :=
          hinput
        have htold := Option.some.inj hfed
        rw [hinput, List.drop_left] at htold
        rw [← htold, settled_append] at hon
        exact ⟨_, hc', hlast hon⟩
    · refine settled_of_same hs ?_ ht hon
      rw [hstep]
      exact Function.update_of_ne hij _ _
  · have hstep := System.step_drops (h := h) hd
    by_cases hij : i = j
    · subst hij
      have hgone : (s.sys.step h e).conns i = none := by
        rw [hstep]
        exact Function.update_self i _ _
      obtain ⟨hact, hc, hrun⟩ := hd
      rw [hc, hgone] at hfed
      obtain ⟨env, act⟩ := e
      dsimp only at hact
      subst hact
      have hoff := hkeep c t hc hrun hfed
      rw [hon] at hoff
      cases hoff
    · refine settled_of_same hs ?_ ht hon
      rw [hstep]
      exact Function.update_of_ne hij _ _
  · obtain ⟨env, act⟩ := e
    dsimp only at he
    subst he
    by_cases hij : i = s.sys.idCount + 1
    · have hnew : s.sys.conns i = none := by
        cases hc : s.sys.conns i with
        | none => rfl
        | some c =>
          have hle := (hs.sound i c hc).2.1
          omega
      have hc' : (s.sys.step h (env, .start ip hash cp)).conns i =
          some (Connection.start h env (s.sys.idCount + 1) ip hash cp) := by
        subst hij
        exact Function.update_self _ _ _
      rw [hnew, hc'] at hfed
      cases hfed
      cases hon
    · exact settled_of_same hs (Function.update_of_ne hij _ _) ht hon
  · refine settled_of_same hs ?_ ht hon
    unfold System.step
    rw [he]
  · refine settled_of_same hs ?_ ht hon
    unfold System.step
    rw [he]
  · exact settled_of_same hs (by rw [heq]) ht hon

/-- The threads change nothing about the connections, and a message that is processed is one
    less to come. -/
theorem inv_recv {s : InputSystem} (id : Int) {res : Bool × String} (hres : res.1 = true)
    (hs : s.Inv) : (s.step h (.recv id res)).Inv := by
  cases hold : s.threads id with
  | none =>
    have hstep : s.step h (.recv id res) = s := by
      simp only [step, hold]
    rw [hstep]
    exact hs
  | some t =>
    cases hrecv : t.receiver with
    | nil =>
      have hstep : s.step h (.recv id res) = s := by
        simp only [step, hold, hrecv]
      rw [hstep]
      exact hs
    | cons m rest =>
      have hsys : (s.step h (.recv id res)).sys = s.sys := by
        simp only [step, hold, hrecv]
      have hthreads : (s.step h (.recv id res)).threads =
          Function.update s.threads id
            (some ({ t with receiver := rest }.handleInput res m)) := by
        simp only [step, hold, hrecv]
      refine ⟨hsys ▸ hs.sound, hsys ▸ hs.opened, fun i t' ht' hon => ?_⟩
      rw [hthreads] at ht'
      rw [hsys]
      by_cases hi : i = id
      · subst hi
        rw [Function.update_self, Option.some.injEq] at ht'
        refine hs.settled i t hold ?_
        rw [← ht'] at hon
        unfold InputThread.settled at hon ⊢
        rw [receiver_handleInput, blockInputMode_handleInput hres] at hon
        rw [hrecv, List.foldl_cons]
        exact hon
      · rw [Function.update_of_ne hi] at ht'
        exact hs.settled i t' ht' hon

theorem inv_recvErr {s : InputSystem} (id : Int) (res : Bool × String) (hs : s.Inv) :
    (s.step h (.recvErr id res)).Inv := by
  have hsys : (s.step h (.recvErr id res)).sys = s.sys := by
    simp only [step]
    split
    · split
      · rfl
      · rfl
    · rfl
  have hthreads : ∀ i t, (s.step h (.recvErr id res)).threads i = some t →
      s.threads i = some t := by
    intro i t ht
    simp only [step] at ht
    split at ht
    · split at ht
      · dsimp only at ht
        split at ht
        · exact ht
        · by_cases hi : i = id
          · subst hi
            rw [Function.update_self] at ht
            cases ht
          · rw [Function.update_of_ne hi] at ht
            exact ht
      · exact ht
    · exact ht
  refine ⟨hsys ▸ hs.sound, hsys ▸ hs.opened, fun i t ht hon => ?_⟩
  rw [hsys]
  exact hs.settled i t (hthreads i t ht) hon

theorem inv_step {s : InputSystem} (e : InputEvent) (hs : s.Inv)
    (hkeep : Succeeds e ∧ s.KeepsRight h e) : (s.step h e).Inv := by
  cases e with
  | server e =>
    exact ⟨System.sound_step e hs.sound, opened_server e hs,
      fun i t ht hon => settled_server e hs hkeep.2 ht hon⟩
  | recv id res => exact inv_recv id hkeep.1 hs
  | recvErr id res => exact inv_recvErr id res hs

theorem rightful_of_inv {s : InputSystem} (hs : s.Inv) : s.Rightful := by
  intro i t ht hidle hmode
  have hon : t.settled = true := by
    unfold InputThread.settled
    rw [hidle]
    exact hmode
  obtain ⟨c, hc, hmay⟩ := hs.settled i t ht hon
  exact ⟨c, hc, hmay.opened, hmay.keyboard, hmay.blockInput⟩

/-! ## Unblocking -/

/-- Left alone, a thread processes its messages. -/
theorem recv_all (h : Host) (id : Int) (t : InputThread) (s : InputSystem)
    (ht : s.threads id = some t) :
    ∃ t', (run (step h) s (List.replicate t.receiver.length (.recv id (true, "")))).threads id =
      some t' ∧ t'.receiver = [] ∧ t'.blockInputMode = t.settled := by
  generalize hms : t.receiver = ms
  induction ms generalizing t s with
  | nil =>
    refine ⟨t, ht, hms, ?_⟩
    unfold InputThread.settled
    rw [hms]
    rfl
  | cons m rest ih =>
    have hnext : (s.step h (.recv id (true, ""))).threads id =
        some ({ t with receiver := rest }.handleInput (true, "") m) := by
      simp only [step, ht, hms]
      exact Function.update_self _ _ _
    obtain ⟨t', ht', hidle, hmode⟩ := ih _ _ hnext (receiver_handleInput _ _ m)
    refine ⟨t', ht', hidle, hmode.trans ?_⟩
    unfold InputThread.settled
    rw [receiver_handleInput, blockInputMode_handleInput rfl, hms, List.foldl_cons]

/-- The peer's wish to unblock is passed on, as long as the input is blocked rightly. -/
theorem unblockable_of_inv {s : InputSystem} (hs : s.Inv) : s.Unblockable h := by
  intro i c t env hc hrun ht hmode
  let a : Arm := .peer (.misc (.option { blockInput := .no }))
  let w : World := ⟨c, s.sys.glob⟩
  have hruns : System.Runs s.sys (env, .arm i a) i c a := ⟨rfl, hc, hrun⟩
  have hc' : (s.sys.step h (env, .arm i a)).conns i = some (w.arm h env a).conn := by
    rw [System.step_runs hruns]
    exact Function.update_self i _ _
  have hfeeds : ArmFeeds w (w.arm h env a) a := arm_feeds rfl w
  obtain ⟨_, _, events, hevents, hinput⟩ := hfeeds
  have hfed : (s.step h (.server (env, .arm i a))).threads i =
      some { t with receiver := t.receiver ++ (events ++ w.switches a) } := by
    show feed (s.sys.conns i) ((s.sys.step h (env, .arm i a)).conns i) (s.threads i) = _
    rw [hc, hc', ht]
    simp only [feed, hinput, List.append_assoc]
    rw [show c.toInput = w.conn.toInput from rfl, List.drop_left]
  have hoff : (w.switches a).foldl switched t.settled = false := by
    by_cases hon : t.settled = true
    · obtain ⟨c₀, hc₀, hmay⟩ := hs.settled i t ht hon
      rw [hc] at hc₀
      cases hc₀
      have hswitch : w.switches a = [.blockOff] := by
        have hauth : w.conn.authorized = true := hmay.authorized
        have hno : w.conn.portForwardSocket = none := hmay.noSocket
        have hk : w.conn.flags.keyboard = true := hmay.keyboard
        have hb : w.conn.flags.blockInput = true := hmay.blockInput
        simp [switches, a, blockSwitches, blockSwitch, hauth, hno, hk, hb, BoolOption.choice]
      rw [hswitch]
      rfl
    · rw [← Bool.not_eq_true]
      intro hyes
      rw [Bool.eq_false_iff.mpr hon] at hyes
      obtain ⟨hauth, hno, hk, hb⟩ := (foldl_switches hyes).2
      have hswitch : w.switches a = [.blockOff] := by
        simp [switches, a, blockSwitches, blockSwitch, hauth, hno, hk, hb, BoolOption.choice]
      rw [hswitch] at hyes
      cases hyes
  obtain ⟨t', ht', hidle, hlast⟩ := recv_all h i _ _ hfed
  refine ⟨_, t', ht', hidle, hlast.trans ?_⟩
  rw [settled_append, List.foldl_append, foldl_events _ hevents, hoff]

/-! ## Whole runs -/

/-- In a run in which no connection loses a permission or ends while its thread blocks, threads
    block rightfully throughout, and every peer that is connected can have its blocking ended. -/
theorem blocks_rightfully (h : Host) (idCount : Int) (server : Server) (es : List InputEvent)
    (hok : ∀ e ∈ es, Succeeds e) (hkeeps : Along (step h) (KeepsRight h) (init idCount server) es) :
    Always (step h) (fun s => s.Rightful ∧ s.Unblockable h) (init idCount server) es := by
  have hinv : Always (step h) Inv (init idCount server) es :=
    always_of_along (fun _ e hs he => inv_step e hs he) (inv_init idCount server)
      ((along_of_mem hok).and hkeeps)
  exact hinv.mono fun s hs => ⟨rightful_of_inv hs, unblockable_of_inv hs⟩

/-- A peer logs in and has the input blocked. -/
def loginAndBlock : List InputEvent :=
  (System.passwordLogin 1 .sample).map .server ++
    [.server (.sample, .arm 1 (.peer (.misc (.option { blockInput := .yes })))),
      .recv 1 (true, "")]

/-- Nothing is taken from it so far. -/
theorem blocks_rightfully_blocked :
    ((run (step .sample) (init 0 (.new .sample false false false)) loginAndBlock).threads 1).map
      (fun t => t.blockInputMode) = some true ∧
    Always (step .sample) (fun s => s.Rightful ∧ s.Unblockable .sample)
      (init 0 (.new .sample false false false)) loginAndBlock := by
  refine ⟨by decide +kernel, blocks_rightfully .sample 0 (.new .sample false false false)
    loginAndBlock ?_ ⟨trivial, ?_, ?_, trivial, trivial⟩⟩
  · intro e he
    simp only [loginAndBlock, System.passwordLogin, List.map_cons, List.map_nil,
      List.cons_append, List.nil_append, List.mem_cons, List.not_mem_nil, or_false] at he
    obtain rfl | rfl | rfl | rfl := he
    · trivial
    · trivial
    · trivial
    · rfl
  · intro c t hc _ _
    cases hc
    refine ⟨fun _ hrev => ?_, fun _ _ hlose => ?_⟩
    · rcases hrev with hno | hno
      · cases hno
      · cases hno
    · obtain ⟨⟨o, ho, _⟩, _⟩ := hlose
      cases ho
  · intro c t _ _ _
    refine ⟨fun _ hrev => ?_, fun _ hentry _ => ?_⟩
    · rcases hrev with hno | hno
      · cases hno
      · cases hno
    · obtain ⟨v, hv⟩ := hentry
      cases hv

theorem run_recv_idle {h : Host} {s : InputSystem} {id : Int} {t : InputThread} (n : Nat)
    (ht : s.threads id = some t) (hidle : t.receiver = []) (res : Bool × String) :
    run (step h) s (List.replicate n (.recv id res)) = s := by
  induction n with
  | zero => rfl
  | succ n ih =>
    have hstep : s.step h (.recv id res) = s := by
      simp only [step, ht, hidle]
    rw [List.replicate_succ, run_cons, hstep, ih]

/-- Then the keyboard permission is taken away. The thread blocks on, without the right to, and
    the peer cannot end it: its wish is refused for want of a permission. -/
theorem blocked_after_revocation :
    let s := run (step .sample) (init 0 (.new .sample false false false))
      (loginAndBlock ++ [.server (.sample, .arm 1 (.cm (.switchPermission .keyboard false)))])
    ¬ s.Rightful ∧ ¬ s.Unblockable .sample := by
  intro s
  have hthread : s.threads 1 = some { receiver := [], blockInputMode := true } := by
    decide +kernel
  have hconn : (s.sys.conns 1).map (fun c => (c.running, c.flags.keyboard)) =
      some (true, false) := by decide +kernel
  obtain ⟨c, hc, hview⟩ := Option.map_eq_some_iff.mp hconn
  obtain ⟨hrun, hkey⟩ := Prod.mk.inj hview
  refine ⟨fun hright => ?_, fun hunblock => ?_⟩
  · obtain ⟨c', hc', _, hyes, _⟩ := hright 1 _ hthread rfl rfl
    rw [hc] at hc'
    cases hc'
    rw [hkey] at hyes
    cases hyes
  · obtain ⟨n, t', ht', _, hoff⟩ := hunblock 1 c _ .sample hc hrun hthread rfl
    have hrefused : (s.step .sample (.server (.sample,
        .arm 1 (.peer (.misc (.option { blockInput := .no })))))).threads 1 =
        some { receiver := [], blockInputMode := true } := by
      decide +kernel
    unfold unblocking at ht'
    rw [run_cons, run_recv_idle n hrefused rfl] at ht'
    rw [hrefused] at ht'
    cases ht'
    cases hoff

end InputSystem

end LuodaRemote
