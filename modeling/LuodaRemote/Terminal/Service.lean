/-
  The sessions of one terminal service (`handle_open`, `handle_open_with_helper`, `handle_close`,
  `reset_status` and `read_outputs` of terminal_service.rs).

  The table of the service leads from the ids of the client to shared sessions. A session is kept
  here under its number: the sessions are numbered as they are started, and a number stands for
  the pointer that the table and a `read_outputs` under way have of it. `handle_open`,
  `handle_close` and `reset_status` run under the lock of the service. `read_outputs` takes it
  several times, and other calls come in between: it copies the table, visits each session, and
  copies the table again before it cleans up. What it sends is in `Terminal.Replay`.

  `sessions_kept`: on a service that stays persistent, whatever is called in whatever order, the
  table has every session that was started and not closed, under one id. What the service does
  when it is dropped, and the sizes of the terminals, are left out.
-/
import Mathlib.Data.List.AList
import LuodaRemote.Lib.Run
import LuodaRemote.Terminal.Replay

namespace LuodaRemote
open Lib

namespace Terminal
namespace Service

/-! ## The service -/

/-- A session as its owners share it. -/
structure Session where
  pid : Nat
  /-- The child process was not given away. -/
  child : Bool
  terminal : TerminalSession

structure PersistentTerminalService where
  serviceId : String
  sessions : AList fun _ : Int32 => Nat
  isPersistent : Bool
  needsSessionSync : Bool

structure TerminalOpened where
  terminalId : Int32
  success : Bool
  message : String
  pid : Nat
  serviceId : String
  persistentSessions : List Int32
deriving DecidableEq

inductive TerminalResponse where
  | opened (o : TerminalOpened)
  | closed (terminalId : Int32) (exitCode : Int)
deriving DecidableEq

/-- What the calls of `TerminalServiceProxy` read of it. -/
structure TerminalServiceProxy where
  serviceId : String
  /-- On Windows. -/
  hasUserToken : Bool

/-- The service and its sessions, with the numbers given away and those that were closed. -/
structure World where
  service : PersistentTerminalService
  session : Nat → Session
  started : Nat
  closed : List Nat

/-! ## Opening and closing -/

/-- `sessions.keys().min()`. -/
def lowest : List Int32 → Option Int32
  | [] => none
  | id :: ids =>
    match lowest ids with
    | none => some id
    | some least => some (if least < id then least else id)

/-- The first open after a reconnection may take over the session with the lowest id. -/
def PersistentTerminalService.remap (s : PersistentTerminalService) (terminalId : Int32) :
    PersistentTerminalService :=
  if terminalId ∉ s.sessions ∧ s.needsSessionSync ∧ s.sessions.keys ≠ [] then
    match lowest s.sessions.keys with
    | none => s
    | some lowestId =>
      match s.sessions.lookup lowestId with
      | none => s
      | some arc => { s with sessions := (s.sessions.erase lowestId).insert terminalId arc }
  else s

def World.setSession (w : World) (arc : Nat) (s : Session) : World :=
  { w with session := Function.update w.session arc s }

/-- The end of `handle_open` with a session that exists. -/
def World.reconnect (w : World) (proxy : TerminalServiceProxy) (terminalId : Int32) (arc : Nat) :
    TerminalOpened × World :=
  let session := w.session arc
  let others := w.service.sessions.keys.filter (· ≠ terminalId)
  ({ terminalId := terminalId
     success := true
     message := "Reconnected to existing terminal"
     pid := session.pid
     serviceId := proxy.serviceId
     persistentSessions :=
       if w.service.needsSessionSync ∧ 1 < w.service.sessions.keys.length then others else [] },
    { w.setSession arc { session with terminal := session.terminal.handleOpen } with
      service := { w.service with needsSessionSync := false } })

/-- A new session. The terminal, the shell and the pipes to it may fail to start, with nothing
    changed; `start` is the process that was started otherwise, and whether it is a child. -/
def World.create (w : World) (message : String) (terminalId : Int32) (child : Bool)
    (start : Except String Nat) : Except String TerminalOpened × World :=
  match start with
  | .error e => (.error e, w)
  | .ok pid =>
    (.ok { terminalId := terminalId
           success := true
           message := message
           pid := pid
           serviceId := w.service.serviceId
           persistentSessions :=
             if w.service.needsSessionSync then w.service.sessions.keys else [] },
      { w.setSession w.started ⟨pid, child, .new⟩ with
        started := w.started + 1
        service := { w.service with
          needsSessionSync := false
          sessions := w.service.sessions.insert terminalId w.started } })

def World.handleOpenWithHelper (w : World) (terminalId : Int32) (start : Except String Nat) :
    Except String TerminalOpened × World :=
  w.create "Terminal opened (helper mode)" terminalId false start

def World.handleOpen (w : World) (proxy : TerminalServiceProxy) (terminalId : Int32)
    (start : Except String Nat) : Except String TerminalOpened × World :=
  let w := { w with service := w.service.remap terminalId }
  match w.service.sessions.lookup terminalId with
  | some arc =>
    let r := w.reconnect proxy terminalId arc
    (.ok r.1, r.2)
  | none =>
    if proxy.hasUserToken then w.handleOpenWithHelper terminalId start
    else w.create "Terminal opened" terminalId true start

/-- `handle_close`. The session leaves the table first, so it is gone even if `kill` fails. -/
def World.handleClose (w : World) (terminalId : Int32) (kill : Except String Unit) :
    Except String (Option TerminalResponse) × World :=
  match w.service.sessions.lookup terminalId with
  | none => (.ok none, w)
  | some arc =>
    let session := w.session arc
    let w := { w.setSession arc { session with child := false } with
      closed := arc :: w.closed
      service := { w.service with sessions := w.service.sessions.erase terminalId } }
    if session.child then
      match kill with
      | .error e => (.error e, w)
      | .ok () => (.ok (some (.closed terminalId (-1))), w)
    else (.ok (some (.closed terminalId 0)), w)

def Session.resetStatus (s : Session) : Session :=
  { s with terminal := { s.terminal with state := .closed } }

def World.resetStatus (w : World) (isPersistent : Bool) : World :=
  { w with
    service := { w.service with isPersistent := isPersistent, needsSessionSync := true }
    session := fun arc =>
      if arc ∈ w.service.sessions.entries.map Sigma.snd then (w.session arc).resetStatus
      else w.session arc }

/-- `set_persistent`. -/
def World.setPersistent (w : World) (isPersistent : Bool) : World :=
  { w with service := { w.service with isPersistent := isPersistent } }

/-! ## `read_outputs` -/

/-- Where a `read_outputs` stands: before its copy of the table, at the sessions of the copy that
    are left, or at the second copy. -/
inductive At where
  | begun
  | visiting (left : List (Int32 × Nat))
  | cleaning (sessions : AList fun _ : Int32 => Nat)

/-- A `read_outputs` under way, with the `is_persistent` of its proxy. -/
structure Reading where
  isPersistent : Bool
  at' : At
  closedTerminals : List Int32

structure State where
  world : World
  readings : Nat → Option Reading

def State.setReading (s : State) (t : Nat) (r : Option Reading) : State :=
  { s with readings := Function.update s.readings t r }

/-- A session is visited. It may be locked; an `append` that does not return ends the thread. -/
def World.visit (w : World) (compress : Bytes → Bytes) (arc : Nat) (locked resizeOk : Bool) :
    Option (World × Bool) :=
  if locked then some (w, false)
  else
    let session := w.session arc
    let shouldSendClosed := !session.terminal.closedMessageSent && session.terminal.readerFinished
    match session.terminal.readOutputs compress true resizeOk with
    | .ok (some terminal, _) =>
      some (w.setSession arc { session with terminal := terminal }, shouldSendClosed)
    | _ => none

/-- One of the closed terminals is cleaned up. -/
def World.cleanUp (w : World) (isPersistent : Bool) (sessions : AList fun _ : Int32 => Nat)
    (terminalId : Int32) : World :=
  match sessions.lookup terminalId with
  | none => w
  | some arc =>
    let w := w.setSession arc { w.session arc with child := false }
    if isPersistent then w
    else { w with service := { w.service with sessions := w.service.sessions.erase terminalId } }

/-! ## Everything that happens -/

/-- What a `read_outputs` under way does next. -/
inductive ReadStep where
  | copySessions
  | visit (locked resizeOk : Bool)
  /-- One of the closed terminals, after the second copy of the table. -/
  | cleanUp
deriving DecidableEq

inductive Event where
  | handleOpen (proxy : TerminalServiceProxy) (terminalId : Int32) (start : Except String Nat)
  | handleClose (terminalId : Int32) (kill : Except String Unit)
  | resetStatus (isPersistent : Bool)
  | setPersistent (isPersistent : Bool)
  /-- The reader thread of a session puts a chunk into its channel. -/
  | output (arc : Nat) (chunk : Bytes)
  | readerExits (arc : Nat)
  /-- A thread makes a proxy and calls `read_outputs`. -/
  | readOutputs (t : Nat)
  | read (t : Nat) (a : ReadStep)

def World.shell (w : World) (arc : Nat) (f : TerminalSession → TerminalSession) : World :=
  w.setSession arc { w.session arc with terminal := f (w.session arc).terminal }

def State.read (compress : Bytes → Bytes) (s : State) (t : Nat) (r : Reading) : ReadStep → State
  | .copySessions =>
    match r.at' with
    | .begun =>
      s.setReading t (some { r with
        at' := .visiting (s.world.service.sessions.entries.map fun e => (e.1, e.2)) })
    | _ => s
  | .visit locked resizeOk =>
    match r.at' with
    | .visiting ((terminalId, arc) :: left) =>
      match s.world.visit compress arc locked resizeOk with
      | none => s.setReading t none
      | some (w, ended) =>
        { s with world := w }.setReading t (some { r with
          at' := .visiting left
          closedTerminals :=
            if ended then r.closedTerminals ++ [terminalId] else r.closedTerminals })
    | _ => s
  | .cleanUp =>
    match r.at', r.closedTerminals with
    | .visiting [], [] => s.setReading t none
    | .visiting [], _ :: _ =>
      s.setReading t (some { r with at' := .cleaning s.world.service.sessions })
    | .cleaning _, [] => s.setReading t none
    | .cleaning sessions, terminalId :: rest =>
      { s with world := s.world.cleanUp r.isPersistent sessions terminalId }.setReading t
        (some { r with
          at' := .cleaning (if r.isPersistent then sessions else sessions.erase terminalId)
          closedTerminals := rest })
    | _, _ => s

def step (compress : Bytes → Bytes) (s : State) : Event → State
  | .handleOpen proxy terminalId start =>
    { s with world := (s.world.handleOpen proxy terminalId start).2 }
  | .handleClose terminalId kill => { s with world := (s.world.handleClose terminalId kill).2 }
  | .resetStatus isPersistent => { s with world := s.world.resetStatus isPersistent }
  | .setPersistent isPersistent => { s with world := s.world.setPersistent isPersistent }
  | .output arc chunk =>
    { s with world := s.world.shell arc fun x => { x with channel := x.channel ++ [chunk] } }
  | .readerExits arc =>
    { s with world := s.world.shell arc fun x => { x with readerFinished := true } }
  | .readOutputs t =>
    match s.readings t with
    | none => s.setReading t (some ⟨s.world.service.isPersistent, .begun, []⟩)
    | some _ => s
  | .read t a =>
    match s.readings t with
    | none => s
    | some r => s.read compress t r a

/-- `PersistentTerminalService::new` for a persistent service. -/
def State.new (serviceId : String) : State where
  world :=
    { service := ⟨serviceId, ∅, true, false⟩
      session := fun _ => ⟨0, false, .new⟩
      started := 0
      closed := [] }
  readings := fun _ => none

/-! ## Tables with every value once -/

section Tables

variable {κ α : Type} [DecidableEq κ] {t : AList fun _ : κ => α} {P : α → Prop} {k l : κ} {a : α}

/-- The values with `P` are in the table, each under one key, and no others. -/
structure Registers (t : AList fun _ : κ => α) (P : α → Prop) : Prop where
  found : ∀ a, P a → ∃ k, t.lookup k = some a
  once : ∀ k l a, t.lookup k = some a → t.lookup l = some a → k = l
  only : ∀ k a, t.lookup k = some a → P a

theorem Registers.existsUnique (h : Registers t P) (ha : P a) : ∃! k, t.lookup k = some a := by
  obtain ⟨k, hk⟩ := h.found a ha
  exact ⟨k, hk, fun l hl => h.once l k a hl hk⟩

theorem Registers.of_iff {Q : α → Prop} (h : Registers t P) (hPQ : ∀ a, Q a ↔ P a) :
    Registers t Q where
  found := fun a ha => h.found a ((hPQ a).mp ha)
  once := h.once
  only := fun k a hk => (hPQ a).mpr (h.only k a hk)

theorem lookup_insert_eq (t : AList fun _ : κ => α) (k : κ) (a : α) (m : κ) :
    (t.insert k a).lookup m = if m = k then some a else t.lookup m := by
  split
  · next hmk => rw [hmk, AList.lookup_insert]
  · next hmk => exact AList.lookup_insert_ne hmk

theorem lookup_erase_eq (t : AList fun _ : κ => α) (k m : κ) :
    (t.erase k).lookup m = if m = k then none else t.lookup m := by
  split
  · next hmk => rw [hmk, AList.lookup_erase]
  · next hmk => exact AList.lookup_erase_ne hmk

theorem lookup_rename (t : AList fun _ : κ => α) (k l : κ) (a : α) (m : κ) :
    ((t.erase l).insert k a).lookup m =
      if m = k then some a else if m = l then none else t.lookup m := by
  rw [lookup_insert_eq, lookup_erase_eq]

theorem mem_of_lookup (hl : t.lookup l = some a) : l ∈ t := by
  rw [← AList.lookup_isSome, hl]
  rfl

theorem ne_of_notMem (hk : k ∉ t) (hl : t.lookup l = some a) : l ≠ k := by
  rintro rfl
  exact hk (mem_of_lookup hl)

theorem Registers.insert (h : Registers t P) (hk : k ∉ t) (ha : ¬ P a) :
    Registers (t.insert k a) fun b => P b ∨ b = a where
  found := by
    rintro b (hb | rfl)
    · obtain ⟨m, hm⟩ := h.found b hb
      exact ⟨m, by rw [lookup_insert_eq, if_neg (ne_of_notMem hk hm), hm]⟩
    · exact ⟨k, AList.lookup_insert t⟩
  once := by
    intro m n b hm hn
    rw [lookup_insert_eq] at hm hn
    split at hm
    · next hmk =>
        split at hn
        · next hnk => rw [hmk, hnk]
        · exact absurd (h.only n b hn) (Option.some.inj hm ▸ ha)
    · split at hn
      · exact absurd (h.only m b hm) (Option.some.inj hn ▸ ha)
      · exact h.once m n b hm hn
  only := by
    intro m b hm
    rw [lookup_insert_eq] at hm
    split at hm
    · exact .inr (Option.some.inj hm).symm
    · exact .inl (h.only m b hm)

theorem Registers.erase (h : Registers t P) (hk : t.lookup k = some a) :
    Registers (t.erase k) fun b => P b ∧ b ≠ a where
  found := by
    rintro b ⟨hb, hba⟩
    obtain ⟨m, hm⟩ := h.found b hb
    have hmk : m ≠ k := by
      rintro rfl
      exact hba (Option.some.inj (hm.symm.trans hk))
    exact ⟨m, by rw [lookup_erase_eq, if_neg hmk, hm]⟩
  once := by
    intro m n b hm hn
    rw [lookup_erase_eq] at hm hn
    split at hm
    · cases hm
    · split at hn
      · cases hn
      · exact h.once m n b hm hn
  only := by
    intro m b hm
    rw [lookup_erase_eq] at hm
    split at hm
    · cases hm
    · next hmk =>
        refine ⟨h.only m b hm, ?_⟩
        rintro rfl
        exact hmk (h.once m k b hm hk)

/-- A value that moves from one key to another is still there once. -/
theorem Registers.rename (h : Registers t P) (hk : k ∉ t) (hl : t.lookup l = some a) :
    Registers ((t.erase l).insert k a) P := by
  have hk' : k ∉ t.erase l := fun hmem => hk (AList.mem_erase.mp hmem).2
  refine ((h.erase hl).insert hk' fun ha => ha.2 rfl).of_iff fun b => ?_
  by_cases hba : b = a
  · simp [hba, h.only l a hl]
  · simp [hba]

end Tables

/-! ## What the calls do -/

/-- The session was started and not closed. -/
def World.Alive (w : World) (n : Nat) : Prop := n < w.started ∧ n ∉ w.closed

structure World.Kept (w : World) : Prop where
  registers : Registers w.service.sessions w.Alive
  past : ∀ n ∈ w.closed, n < w.started

variable {w : World} {proxy : TerminalServiceProxy} {terminalId : Int32}
  {start : Except String Nat}

theorem lowest_mem {ids : List Int32} (h : ids ≠ []) :
    ∃ least ∈ ids, lowest ids = some least ∧ ∀ id ∈ ids, least ≤ id := by
  induction ids with
  | nil => exact absurd rfl h
  | cons id ids ih =>
    rw [lowest]
    by_cases hids : ids = []
    · subst hids
      exact ⟨id, List.mem_cons_self, rfl, by simp⟩
    · obtain ⟨least, hmem, hlowest, hle⟩ := ih hids
      rw [hlowest]
      dsimp only
      split
      · next hlt =>
          refine ⟨least, List.mem_cons_of_mem id hmem, rfl, ?_⟩
          rw [List.forall_mem_cons]
          exact ⟨Int32.le_of_lt hlt, hle⟩
      · next hlt =>
          refine ⟨id, List.mem_cons_self, rfl, ?_⟩
          rw [List.forall_mem_cons]
          have hid : id ≤ least := Int32.not_lt.mp hlt
          exact ⟨Int32.le_refl id, fun other hother => Int32.le_trans hid (hle other hother)⟩

/-- The service with the session of one id under another. -/
def PersistentTerminalService.renamed (s : PersistentTerminalService) (least terminalId : Int32)
    (arc : Nat) : PersistentTerminalService :=
  { s with sessions := (s.sessions.erase least).insert terminalId arc }

theorem remap_eq (s : PersistentTerminalService)
    (h : ¬ (terminalId ∉ s.sessions ∧ s.needsSessionSync = true ∧ s.sessions.keys ≠ [])) :
    s.remap terminalId = s := if_neg h

theorem remap_renamed {s : PersistentTerminalService} (hid : terminalId ∉ s.sessions)
    (hsync : s.needsSessionSync = true) (hne : s.sessions.keys ≠ []) :
    ∃ least arc, s.sessions.lookup least = some arc ∧ (∀ id ∈ s.sessions, least ≤ id) ∧
      s.remap terminalId = s.renamed least terminalId arc := by
  obtain ⟨least, hmem, hlowest, hle⟩ := lowest_mem hne
  obtain ⟨arc, harc⟩ := Option.isSome_iff_exists.mp (AList.lookup_isSome.mpr hmem)
  refine ⟨least, arc, harc, hle, ?_⟩
  rw [PersistentTerminalService.remap, if_pos ⟨hid, hsync, hne⟩, hlowest]
  dsimp only
  rw [harc]
  rfl

/-- An open finds the session of the id, takes over the one with the lowest id, or starts one. -/
theorem handleOpen_cases (w : World) (proxy : TerminalServiceProxy) (terminalId : Int32)
    (start : Except String Nat) :
    (∃ arc, w.service.sessions.lookup terminalId = some arc ∧
      w.handleOpen proxy terminalId start =
        (.ok (w.reconnect proxy terminalId arc).1, (w.reconnect proxy terminalId arc).2)) ∨
    (terminalId ∉ w.service.sessions ∧ w.service.needsSessionSync = true ∧
      w.service.sessions.keys ≠ [] ∧
      ∃ least arc w', w.service.sessions.lookup least = some arc ∧
        (∀ id ∈ w.service.sessions, least ≤ id) ∧
        w' = { w with service := w.service.renamed least terminalId arc } ∧
        w.handleOpen proxy terminalId start =
          (.ok (w'.reconnect proxy terminalId arc).1, (w'.reconnect proxy terminalId arc).2)) ∨
    (terminalId ∉ w.service.sessions ∧
      ¬ (w.service.needsSessionSync = true ∧ w.service.sessions.keys ≠ []) ∧
      ∃ message child, w.handleOpen proxy terminalId start =
        w.create message terminalId child start) := by
  by_cases hid : terminalId ∈ w.service.sessions
  · left
    obtain ⟨arc, harc⟩ := Option.isSome_iff_exists.mp (AList.lookup_isSome.mpr hid)
    refine ⟨arc, harc, ?_⟩
    rw [World.handleOpen, remap_eq _ fun h => h.1 hid]
    dsimp only
    rw [harc]
  · right
    by_cases hsync : w.service.needsSessionSync = true ∧ w.service.sessions.keys ≠ []
    · left
      obtain ⟨least, arc, harc, hle, hremap⟩ := remap_renamed hid hsync.1 hsync.2
      refine ⟨hid, hsync.1, hsync.2, least, arc, _, harc, hle, rfl, ?_⟩
      rw [World.handleOpen, hremap]
      dsimp only [PersistentTerminalService.renamed]
      rw [AList.lookup_insert]
    · right
      refine ⟨hid, hsync, ?_⟩
      rw [World.handleOpen, remap_eq _ fun h => hsync h.2]
      dsimp only
      rw [AList.lookup_eq_none.mpr hid]
      dsimp only
      split
      · exact ⟨_, false, rfl⟩
      · exact ⟨_, true, rfl⟩

/-! ## Every call keeps the sessions -/

theorem kept_reconnect (hw : w.Kept) (proxy : TerminalServiceProxy) (terminalId : Int32)
    (arc : Nat) : (w.reconnect proxy terminalId arc).2.Kept := ⟨hw.registers, hw.past⟩

theorem kept_create (hw : w.Kept) (hid : terminalId ∉ w.service.sessions) (message : String)
    (child : Bool) : (w.create message terminalId child start).2.Kept := by
  cases start with
  | error e => exact hw
  | ok pid =>
    have hnew : ¬ w.Alive w.started := fun h => lt_irrefl _ h.1
    constructor
    · refine (hw.registers.insert hid hnew).of_iff fun n => ?_
      have hpast : w.started ∉ w.closed := fun hmem => lt_irrefl _ (hw.past _ hmem)
      show n < w.started + 1 ∧ n ∉ w.closed ↔ (n < w.started ∧ n ∉ w.closed) ∨ n = w.started
      by_cases hn : n = w.started
      · simp [hn, hpast]
      · have hlt : n < w.started + 1 ↔ n < w.started := by omega
        simp [hn, hlt]
    · exact fun n hn => (hw.past n hn).trans (Nat.lt_succ_self _)

theorem kept_handleOpen (hw : w.Kept) : (w.handleOpen proxy terminalId start).2.Kept := by
  rcases handleOpen_cases w proxy terminalId start with
    ⟨arc, -, heq⟩ | ⟨hid, -, -, least, arc, w', harc, -, hw', heq⟩ | ⟨hid, -, message, child, heq⟩
  · rw [heq]
    exact kept_reconnect hw proxy terminalId arc
  · have hkept : w'.Kept := by
      rw [hw']
      exact ⟨hw.registers.rename hid harc, hw.past⟩
    rw [heq]
    exact kept_reconnect hkept proxy terminalId arc
  · rw [heq]
    exact kept_create hw hid message child

theorem kept_handleClose (hw : w.Kept) (kill : Except String Unit) :
    (w.handleClose terminalId kill).2.Kept := by
  unfold World.handleClose
  split
  · exact hw
  · next arc harc =>
      have halive := hw.registers.only terminalId arc harc
      have hclosed : ∀ w' : World, w'.service.sessions = w.service.sessions.erase terminalId →
          w'.started = w.started → w'.closed = arc :: w.closed → w'.Kept := by
        intro w' hsessions hstarted hclosed
        constructor
        · rw [hsessions]
          refine (hw.registers.erase harc).of_iff fun n => ?_
          unfold World.Alive
          rw [hstarted, hclosed, List.mem_cons]
          tauto
        · rw [hstarted, hclosed, List.forall_mem_cons]
          exact ⟨halive.1, hw.past⟩
      dsimp only
      split
      · split
        · exact hclosed _ rfl rfl rfl
        · exact hclosed _ rfl rfl rfl
      · exact hclosed _ rfl rfl rfl

/-- The table of the service is as it was, and so is what counts as started and closed. -/
structure SameTable (w w' : World) : Prop where
  sessions : w'.service.sessions = w.service.sessions
  started : w'.started = w.started
  closed : w'.closed = w.closed

theorem SameTable.kept {w' : World} (h : SameTable w w') (hw : w.Kept) : w'.Kept := by
  obtain ⟨hsessions, hstarted, hclosed⟩ := h
  constructor
  · rw [hsessions]
    refine hw.registers.of_iff fun n => ?_
    unfold World.Alive
    rw [hstarted, hclosed]
  · rw [hstarted, hclosed]
    exact hw.past

theorem visit_sameTable {compress : Bytes → Bytes} {arc : Nat} {locked resizeOk ended : Bool}
    {w' : World} (h : w.visit compress arc locked resizeOk = some (w', ended)) :
    SameTable w w' ∧ w'.service = w.service := by
  unfold World.visit at h
  split at h
  · cases h
    exact ⟨⟨rfl, rfl, rfl⟩, rfl⟩
  · dsimp only at h
    split at h
    · cases h
      exact ⟨⟨rfl, rfl, rfl⟩, rfl⟩
    · cases h

/-- On a persistent service a clean-up leaves the session where it is. -/
theorem cleanUp_sameTable (w : World) (sessions : AList fun _ : Int32 => Nat)
    (terminalId : Int32) :
    SameTable w (w.cleanUp true sessions terminalId) ∧
      (w.cleanUp true sessions terminalId).service = w.service := by
  unfold World.cleanUp
  split
  · exact ⟨⟨rfl, rfl, rfl⟩, rfl⟩
  · rw [if_pos rfl]
    exact ⟨⟨rfl, rfl, rfl⟩, rfl⟩

/-! ## Runs -/

/-- The service is persistent, and so is every proxy that reads its outputs. -/
structure State.Persistent (s : State) : Prop where
  service : s.world.service.isPersistent = true
  readings : ∀ t r, s.readings t = some r → r.isPersistent = true

/-- The step does not make the service one that is not persistent. -/
def Event.StaysPersistent : Event → Prop
  | .resetStatus isPersistent => isPersistent = true
  | .setPersistent isPersistent => isPersistent = true
  | _ => True

structure State.Sound (s : State) : Prop where
  kept : s.world.Kept
  persistent : s.Persistent

variable {s : State} {compress : Bytes → Bytes}

theorem persistent_setReading (hs : s.Persistent) (t : Nat) {r : Option Reading}
    (hr : ∀ x, r = some x → x.isPersistent = true) : (s.setReading t r).Persistent where
  service := hs.service
  readings := by
    intro t' x hx
    unfold State.setReading at hx
    dsimp only at hx
    rw [Function.update_apply] at hx
    split at hx
    · exact hr x hx
    · exact hs.readings t' x hx

theorem handleOpen_isPersistent (w : World) (proxy : TerminalServiceProxy) (terminalId : Int32)
    (start : Except String Nat) :
    (w.handleOpen proxy terminalId start).2.service.isPersistent = w.service.isPersistent := by
  rcases handleOpen_cases w proxy terminalId start with
    ⟨arc, -, heq⟩ | ⟨-, -, -, least, arc, w', -, -, hw', heq⟩ | ⟨-, -, message, child, heq⟩
  · rw [heq]
    rfl
  · rw [heq, hw']
    rfl
  · rw [heq]
    cases start <;> rfl

theorem handleClose_isPersistent (w : World) (terminalId : Int32) (kill : Except String Unit) :
    (w.handleClose terminalId kill).2.service.isPersistent = w.service.isPersistent := by
  unfold World.handleClose
  split
  · rfl
  · dsimp only
    split
    · split <;> rfl
    · rfl

/-- A `read_outputs` of a persistent proxy leaves the service alone. -/
structure Reads (s s' : State) : Prop where
  table : SameTable s.world s'.world
  service : s'.world.service = s.world.service
  persistent : s'.Persistent

theorem Reads.sound {s' : State} (h : Reads s s') (hs : s.Sound) : s'.Sound :=
  ⟨h.table.kept hs.kept, h.persistent⟩

theorem reads_of_world {w : World} (hs : s.Persistent) (ht : SameTable s.world w)
    (hservice : w.service = s.world.service) (t : Nat) {r : Option Reading}
    (hr : ∀ x, r = some x → x.isPersistent = true) :
    Reads s ({ s with world := w }.setReading t r) where
  table := ht
  service := hservice
  persistent := persistent_setReading (s := { s with world := w })
    ⟨hservice ▸ hs.service, hs.readings⟩ t hr

theorem sameTable_refl (w : World) : SameTable w w := ⟨rfl, rfl, rfl⟩

theorem reads_read (hs : s.Persistent) {t : Nat} {r : Reading} (hr : r.isPersistent = true)
    (a : ReadStep) : Reads s (s.read compress t r a) := by
  have hsame : Reads s s := ⟨sameTable_refl _, rfl, hs⟩
  have hset : ∀ x : Option Reading, (∀ y, x = some y → y.isPersistent = true) →
      Reads s (s.setReading t x) :=
    fun x hx => reads_of_world hs (sameTable_refl _) rfl t hx
  have hnone : Reads s (s.setReading t none) := hset none nofun
  have hsome : ∀ at' closedTerminals, Reads s (s.setReading t (some
      { r with at' := at', closedTerminals := closedTerminals })) := by
    intro at' closedTerminals
    refine hset _ fun y hy => ?_
    cases hy
    exact hr
  cases a with
  | copySessions =>
    rw [State.read]
    split
    · exact hsome _ _
    · exact hsame
  | visit locked resizeOk =>
    rw [State.read]
    split
    · split
      · exact hnone
      · next w' ended hvisit =>
          obtain ⟨htable, hservice⟩ := visit_sameTable hvisit
          refine reads_of_world hs htable hservice t fun y hy => ?_
          cases hy
          exact hr
    · exact hsame
  | cleanUp =>
    rw [State.read]
    split
    · exact hnone
    · exact hsome _ _
    · exact hnone
    · rw [hr]
      obtain ⟨htable, hservice⟩ := cleanUp_sameTable s.world ‹_› ‹_›
      refine reads_of_world hs htable hservice t fun y hy => ?_
      cases hy
      rfl
    · exact hsame

/-- Everything but opening, closing and the two settings reads. -/
theorem reads_step (hs : s.Persistent) {e : Event}
    (he : (∃ arc chunk, e = .output arc chunk) ∨ (∃ arc, e = .readerExits arc) ∨
      (∃ t, e = .readOutputs t) ∨ ∃ t a, e = .read t a) : Reads s (step compress s e) := by
  rcases he with ⟨arc, chunk, rfl⟩ | ⟨arc, rfl⟩ | ⟨t, rfl⟩ | ⟨t, a, rfl⟩
  · exact ⟨⟨rfl, rfl, rfl⟩, rfl, ⟨hs.service, hs.readings⟩⟩
  · exact ⟨⟨rfl, rfl, rfl⟩, rfl, ⟨hs.service, hs.readings⟩⟩
  · rw [step]
    split
    · refine reads_of_world hs (sameTable_refl _) rfl t fun y hy => ?_
      cases hy
      exact hs.service
    · exact ⟨sameTable_refl _, rfl, hs⟩
  · rw [step]
    split
    · exact ⟨sameTable_refl _, rfl, hs⟩
    · next r hr => exact reads_read hs (hs.readings t r hr) a

theorem sound_step (hs : s.Sound) {e : Event} (he : e.StaysPersistent) :
    (step compress s e).Sound := by
  obtain ⟨hkept, hpersistent⟩ := hs
  cases e with
  | handleOpen proxy terminalId start =>
    refine ⟨kept_handleOpen hkept, ?_, hpersistent.readings⟩
    exact (handleOpen_isPersistent _ _ _ _).trans hpersistent.service
  | handleClose terminalId kill =>
    refine ⟨kept_handleClose hkept kill, ?_, hpersistent.readings⟩
    exact (handleClose_isPersistent _ _ _).trans hpersistent.service
  | resetStatus isPersistent =>
    exact ⟨⟨hkept.registers, hkept.past⟩, he, hpersistent.readings⟩
  | setPersistent isPersistent =>
    exact ⟨⟨hkept.registers, hkept.past⟩, he, hpersistent.readings⟩
  | output arc chunk =>
    exact (reads_step hpersistent (.inl ⟨arc, chunk, rfl⟩)).sound ⟨hkept, hpersistent⟩
  | readerExits arc =>
    exact (reads_step hpersistent (.inr (.inl ⟨arc, rfl⟩))).sound ⟨hkept, hpersistent⟩
  | readOutputs t =>
    exact (reads_step hpersistent (.inr (.inr (.inl ⟨t, rfl⟩)))).sound ⟨hkept, hpersistent⟩
  | read t a =>
    exact (reads_step hpersistent (.inr (.inr (.inr ⟨t, a, rfl⟩)))).sound ⟨hkept, hpersistent⟩

theorem sound_new (serviceId : String) : (State.new serviceId).Sound where
  kept :=
    { registers :=
        { found := fun a ha => absurd ha.1 (Nat.not_lt_zero a)
          once := fun k l a hk => by cases hk
          only := fun k a hk => by cases hk }
      past := fun n hn => absurd hn List.not_mem_nil }
  persistent := ⟨rfl, nofun⟩

theorem sound_run (serviceId : String) {events : List Event}
    (hstays : ∀ e ∈ events, e.StaysPersistent) :
    (run (step compress) (.new serviceId) events).Sound := by
  have hall : Always (step compress) State.Sound (.new serviceId) events :=
    always_of_along (C := fun _ e => e.StaysPersistent) (fun _ _ hs he => sound_step hs he)
      (sound_new serviceId) (along_of_mem hstays)
  exact hall.last

/-! ## Opening an id that is not there -/

/-- With the flag set and sessions left, the lowest id becomes the one asked for, and nothing else
    changes. Otherwise the open starts a session, or fails and changes nothing. -/
def World.OpensUnknown (w : World) (terminalId : Int32) (start : Except String Nat)
    (result : Except String TerminalOpened × World) : Prop :=
  if w.service.needsSessionSync = true ∧ w.service.sessions.keys ≠ [] then
    ∃ least ∈ w.service.sessions, (∀ id ∈ w.service.sessions, least ≤ id) ∧
      result.2.started = w.started ∧
      ∀ id, result.2.service.sessions.lookup id =
        if id = terminalId then w.service.sessions.lookup least
        else if id = least then none else w.service.sessions.lookup id
  else match start with
    | .ok _ => result.2.started = w.started + 1 ∧
        ∀ id, result.2.service.sessions.lookup id =
          if id = terminalId then some w.started else w.service.sessions.lookup id
    | .error err => result = (.error err, w)

theorem opens_unknown (proxy : TerminalServiceProxy) (start : Except String Nat)
    (hid : terminalId ∉ w.service.sessions) :
    w.OpensUnknown terminalId start (w.handleOpen proxy terminalId start) := by
  unfold World.OpensUnknown
  rcases handleOpen_cases w proxy terminalId start with
    ⟨arc, harc, -⟩ | ⟨-, hsync, hne, least, arc, w', harc, hle, hw', heq⟩ |
    ⟨-, hsync, message, child, heq⟩
  · exact absurd (mem_of_lookup harc) hid
  · rw [if_pos ⟨hsync, hne⟩]
    refine ⟨least, mem_of_lookup harc, hle, by rw [heq, hw']; rfl, fun id => ?_⟩
    rw [heq, hw', harc]
    exact lookup_rename w.service.sessions terminalId least arc id
  · rw [if_neg hsync, heq]
    cases start with
    | error e => rfl
    | ok pid => exact ⟨rfl, fun id => lookup_insert_eq w.service.sessions terminalId w.started id⟩

/-! ## The first open after a reset -/

/-- The ids of the answer are those of the table. -/
structure TellsAll (o : TerminalOpened) (sessions : AList fun _ : Int32 => Nat) : Prop where
  nodup : (o.terminalId :: o.persistentSessions).Nodup
  mem_iff : ∀ id, id ∈ o.terminalId :: o.persistentSessions ↔ id ∈ sessions

theorem tells_reconnect (hsync : w.service.needsSessionSync = true) {arc : Nat}
    (harc : w.service.sessions.lookup terminalId = some arc) :
    TellsAll (w.reconnect proxy terminalId arc).1
      (w.reconnect proxy terminalId arc).2.service.sessions := by
  have hmem : terminalId ∈ w.service.sessions.keys := mem_of_lookup harc
  have hnodup := w.service.sessions.keys_nodup
  -- with a single session there is nothing to tell
  have hothers : (if w.service.needsSessionSync = true ∧ 1 < w.service.sessions.keys.length then
      w.service.sessions.keys.filter (· ≠ terminalId) else []) =
      w.service.sessions.keys.filter (· ≠ terminalId) := by
    split
    · rfl
    · next hno =>
        have hone : w.service.sessions.keys.length = 1 := by
          have hpos := List.length_pos_of_mem hmem
          have hle : ¬ 1 < w.service.sessions.keys.length := fun h => hno ⟨hsync, h⟩
          omega
        obtain ⟨id, hkeys⟩ := List.length_eq_one_iff.mp hone
        rw [hkeys, List.mem_singleton] at hmem
        rw [hkeys, hmem]
        simp
  constructor
  · show (terminalId :: (if _ then _ else _)).Nodup
    rw [hothers, List.nodup_cons]
    exact ⟨by simp, hnodup.filter _⟩
  · intro id
    show id ∈ terminalId :: (if _ then _ else _) ↔ id ∈ w.service.sessions.keys
    rw [hothers, List.mem_cons, List.mem_filter]
    by_cases hid : id = terminalId
    · simp [hid, hmem]
    · simp [hid]

theorem tells_all (hsync : w.service.needsSessionSync = true) {o : TerminalOpened}
    (ho : (w.handleOpen proxy terminalId start).1 = .ok o) :
    o.terminalId = terminalId ∧
      TellsAll o (w.handleOpen proxy terminalId start).2.service.sessions := by
  rcases handleOpen_cases w proxy terminalId start with
    ⟨arc, harc, heq⟩ | ⟨-, -, -, least, arc, w', -, -, hw', heq⟩ | ⟨hid, -, message, child, heq⟩
  · rw [heq] at ho ⊢
    cases ho
    exact ⟨rfl, tells_reconnect hsync harc⟩
  · rw [heq] at ho ⊢
    cases ho
    have hsync' : w'.service.needsSessionSync = true := by rw [hw']; exact hsync
    have harc' : w'.service.sessions.lookup terminalId = some arc := by
      rw [hw']
      exact AList.lookup_insert _
    exact ⟨rfl, tells_reconnect hsync' harc'⟩
  · rw [heq] at ho ⊢
    cases start with
    | error e => cases ho
    | ok pid =>
      cases ho
      have hkeys : (w.service.sessions.insert terminalId w.started).keys =
          terminalId :: w.service.sessions.keys := by
        rw [AList.keys_insert, List.erase_of_not_mem hid]
      refine ⟨rfl, ?_, fun id => ?_⟩
      · show (terminalId :: (if _ then _ else _)).Nodup
        rw [if_pos hsync, ← hkeys]
        exact AList.keys_nodup _
      · show id ∈ terminalId :: (if _ then _ else _) ↔
          id ∈ (w.service.sessions.insert terminalId w.started).keys
        rw [if_pos hsync, hkeys]

/-- What the step answers an open that succeeds with. -/
def Event.answer (s : State) : Event → Option TerminalOpened
  | .handleOpen proxy terminalId start => (s.world.handleOpen proxy terminalId start).1.toOption
  | _ => none

/-- The flag stays up until an open succeeds. -/
theorem needsSync_step (hs : s.Sound) (hsync : s.world.service.needsSessionSync = true) {e : Event}
    (he : e.answer s = none) :
    (step compress s e).world.service.needsSessionSync = true := by
  cases e with
  | handleOpen proxy terminalId start =>
    rw [Event.answer] at he
    show (s.world.handleOpen proxy terminalId start).2.service.needsSessionSync = true
    rcases handleOpen_cases s.world proxy terminalId start with
      ⟨arc, -, heq⟩ | ⟨-, -, -, least, arc, w', -, -, -, heq⟩ | ⟨-, -, message, child, heq⟩
    · rw [heq] at he
      cases he
    · rw [heq] at he
      cases he
    · rw [heq] at he ⊢
      cases start with
      | error e => exact hsync
      | ok pid => cases he
  | handleClose terminalId kill =>
    show (s.world.handleClose terminalId kill).2.service.needsSessionSync = true
    unfold World.handleClose
    split
    · exact hsync
    · dsimp only
      split
      · split
        · exact hsync
        · exact hsync
      · exact hsync
  | resetStatus isPersistent => rfl
  | setPersistent isPersistent => exact hsync
  | output arc chunk => exact hsync
  | readerExits arc => exact hsync
  | readOutputs t =>
    rw [(reads_step hs.persistent (.inr (.inr (.inl ⟨t, rfl⟩)))).service]
    exact hsync
  | read t a =>
    rw [(reads_step hs.persistent (.inr (.inr (.inr ⟨t, a, rfl⟩)))).service]
    exact hsync

theorem needsSync_run (hs : s.Sound) (hsync : s.world.service.needsSessionSync = true)
    {events : List Event} (hstays : ∀ e ∈ events, e.StaysPersistent)
    (hno : Along (step compress) (fun s e => e.answer s = none) s events) :
    (run (step compress) s events).world.service.needsSessionSync = true := by
  induction events generalizing s with
  | nil => exact hsync
  | cons e events ih =>
    obtain ⟨he, hrest⟩ := List.forall_mem_cons.mp hstays
    exact ih (sound_step hs he) (needsSync_step hs hsync hno.1) hrest hno.2

/-! ## The sessions of a persistent service -/

/-- Every session that was started and not closed is registered under exactly one id, and nothing
    else is. -/
def World.RegistersOnce (w : World) : Prop :=
  (∀ n, n < w.started → n ∉ w.closed → ∃! id, w.service.sessions.lookup id = some n) ∧
    ∀ id n, w.service.sessions.lookup id = some n → n < w.started ∧ n ∉ w.closed

theorem World.Kept.registersOnce (hw : w.Kept) : w.RegistersOnce :=
  ⟨fun _ hn hopen => hw.registers.existsUnique ⟨hn, hopen⟩, hw.registers.only⟩

/-- On a service that stays persistent, after any calls in any order: the table has every session
    that was started and not closed under one id; an open of an id that it does not have takes over
    the lowest one if sessions are to be told of and left, and starts a session otherwise; and the
    first open that is answered after a reset tells of exactly the ids of the table. -/
theorem sessions_kept (compress : Bytes → Bytes) (serviceId : String) (events : List Event)
    (hstays : ∀ e ∈ events, e.StaysPersistent) :
    (run (step compress) (.new serviceId) events).world.RegistersOnce ∧
    (∀ proxy terminalId start, let w := (run (step compress) (.new serviceId) events).world
      terminalId ∉ w.service.sessions →
        w.OpensUnknown terminalId start (w.handleOpen proxy terminalId start)) ∧
    ∀ before isPersistent between, events = before ++ .resetStatus isPersistent :: between →
      Along (step compress) (fun s e => e.answer s = none)
        (run (step compress) (.new serviceId) (before ++ [.resetStatus isPersistent])) between →
      ∀ proxy terminalId start o, let w := (run (step compress) (.new serviceId) events).world
        (w.handleOpen proxy terminalId start).1 = .ok o →
          o.terminalId = terminalId ∧
            TellsAll o (w.handleOpen proxy terminalId start).2.service.sessions := by
  refine ⟨(sound_run serviceId hstays).kept.registersOnce,
    fun proxy terminalId start hid => opens_unknown proxy start hid, ?_⟩
  rintro before isPersistent between rfl hno proxy terminalId start o w ho
  have hsplit : before ++ .resetStatus isPersistent :: between =
      (before ++ [.resetStatus isPersistent]) ++ between := by simp
  have hfirst : ∀ e ∈ before ++ [.resetStatus isPersistent], e.StaysPersistent :=
    fun e he => hstays e (by rw [hsplit]; exact List.mem_append_left _ he)
  have hrest : ∀ e ∈ between, e.StaysPersistent :=
    fun e he => hstays e (by rw [hsplit]; exact List.mem_append_right _ he)
  have hreset : (run (step compress) (.new serviceId)
      (before ++ [.resetStatus isPersistent])).world.service.needsSessionSync = true := by
    rw [run_append]
    rfl
  have hsync : w.service.needsSessionSync = true := by
    show (run (step compress) (.new serviceId)
      (before ++ .resetStatus isPersistent :: between)).world.service.needsSessionSync = true
    rw [hsplit, run_append]
    exact needsSync_run (sound_run serviceId hfirst) hreset hrest hno
  exact tells_all hsync ho

/-- Two sessions, of which one has ended, and a connection that is gone. -/
def beforeReset : List Event :=
  [.resetStatus true, .handleOpen ⟨"ts", false⟩ 2 (.ok 100), .handleOpen ⟨"ts", false⟩ 5 (.ok 101),
   .readerExits 0, .readOutputs 0, .read 0 .copySessions, .read 0 (.visit false true)]

/-- The next connection asks for the id 7. -/
theorem sessions_kept_reconnecting :
    let w := (run (step id) (.new "ts") (beforeReset ++ [.resetStatus true])).world
    w.RegistersOnce ∧ w.OpensUnknown 7 (.ok 102) (w.handleOpen ⟨"ts", false⟩ 7 (.ok 102)) ∧
      TellsAll ⟨7, true, "Reconnected to existing terminal", 100, "ts", [5]⟩
        (w.handleOpen ⟨"ts", false⟩ 7 (.ok 102)).2.service.sessions := by
  have hstays : ∀ e ∈ beforeReset ++ [.resetStatus true], e.StaysPersistent := by
    simp [beforeReset, Event.StaysPersistent]
  obtain ⟨honce, hunknown, htells⟩ := sessions_kept id "ts" _ hstays
  refine ⟨honce, hunknown _ 7 _ (by decide), ?_⟩
  exact (htells beforeReset true [] rfl trivial ⟨"ts", false⟩ 7 (.ok 102) _ rfl).2

end Service
end Terminal
end LuodaRemote
