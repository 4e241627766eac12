/-
  The server process: any number of connections over the shared state, one arm of one
  connection's loop at a time.

  Connection ids are given out once, by `Server::get_new_id`. A connection that has left
  its loop takes no more messages; `finish` runs what comes after the loop and drops it.
  Besides the connections, the IPC handler stores switch-sides uuids and the service
  threads take their snapshots.

  `conns_step` says where a connection comes from: it was just started, it ran its own arm,
  or it was there before. `always_sound` lifts what every arm keeps to all connections of
  every run.
-/
import LuodaRemote.Lib.Run
import LuodaRemote.Connection.Invariant

namespace LuodaRemote
open Lib

structure System where
  conns : Int → Option Connection
  /-- `Server::id_count`. -/
  idCount : Int
  glob : Globals

inductive Action where
  | start (ip : IpAddr) (hash : Hash) (controlPermissions : Option (BitVec 64))
  | arm (id : Int) (a : Arm)
  | finish (id : Int)
  /-- `ipc::Data::SwitchSidesRequest`, answered with a new uuid. -/
  | insertSwitchSidesUuid (peerId : String) (uuid : Uuid)
  | snapshot (name : ServiceName)
  deriving DecidableEq

namespace System

/-- A process that has taken no connection yet. -/
def init (idCount : Int) (server : Server) : System where
  conns := fun _ => none
  idCount := idCount
  glob := Globals.init server

def step (h : Host) (s : System) (e : Env × Action) : System :=
  match e.2 with
  | .start ip hash controlPermissions =>
    let id := s.idCount + 1
    { s with
      conns := Function.update s.conns id
        (some (Connection.start h e.1 id ip hash controlPermissions))
      idCount := id }
  | .arm id a =>
    match s.conns id with
    | some c =>
      if c.running then
        let w := World.arm h e.1 a ⟨c, s.glob⟩
        { s with conns := Function.update s.conns id (some w.conn), glob := w.glob }
      else s
    | none => s
  | .finish id =>
    match s.conns id with
    | some c =>
      if c.running then s
      else
        let w := World.finish e.1 ⟨c, s.glob⟩
        { s with conns := Function.update s.conns id none, glob := w.glob }
    | none => s
  | .insertSwitchSidesUuid peerId uuid =>
    { s with glob := { s.glob with
        switchSidesUuid := Function.update s.glob.switchSidesUuid peerId
          (some (e.1.now, uuid)) } }
  | .snapshot name =>
    { s with glob := { s.glob with server := s.glob.server.snapshot name } }

/-! ## What a step does to one connection -/

/-- The step runs an arm of connection `i`, which is `c` before. -/
def Runs (s : System) (e : Env × Action) (i : Int) (c : Connection) (a : Arm) : Prop :=
  e.2 = .arm i a ∧ s.conns i = some c ∧ c.running = true

theorem step_runs {h : Host} {s : System} {e : Env × Action} {i : Int} {c : Connection} {a : Arm}
    (hr : Runs s e i c a) :
    step h s e = { s with
      conns := Function.update s.conns i (some (World.arm h e.1 a ⟨c, s.glob⟩).conn)
      glob := (World.arm h e.1 a ⟨c, s.glob⟩).glob } := by
  obtain ⟨env, act⟩ := e
  obtain ⟨hact, hc, hrun⟩ := hr
  dsimp only at hact
  subst hact
  simp [step, hc, hrun]

/-- The step drops connection `i`, which is `c` before. -/
def Drops (s : System) (e : Env × Action) (i : Int) (c : Connection) : Prop :=
  e.2 = .finish i ∧ s.conns i = some c ∧ c.running = false

theorem step_drops {h : Host} {s : System} {e : Env × Action} {i : Int} {c : Connection}
    (hd : Drops s e i c) :
    step h s e = { s with
      conns := Function.update s.conns i none
      glob := (World.finish e.1 ⟨c, s.glob⟩).glob } := by
  obtain ⟨env, act⟩ := e
  obtain ⟨hact, hc, hrun⟩ := hd
  dsimp only at hact
  subst hact
  simp [step, hc, hrun]

/-- The step starts a connection. -/
theorem step_start (h : Host) (s : System) (env : Env) (ip : IpAddr) (hash : Hash)
    (cp : Option (BitVec 64)) :
    step h s (env, .start ip hash cp) = { s with
      conns := Function.update s.conns (s.idCount + 1)
        (some (Connection.start h env (s.idCount + 1) ip hash cp))
      idCount := s.idCount + 1 } := rfl

/-- Every step is one of these: an arm of a live connection, a drop, a start, a uuid or a
    snapshot, or nothing at all. -/
theorem step_cases (h : Host) (s : System) (e : Env × Action) :
    (∃ i c a, Runs s e i c a) ∨ (∃ i c, Drops s e i c) ∨
    (∃ ip hash cp, e.2 = .start ip hash cp) ∨
    (∃ peerId uuid, e.2 = .insertSwitchSidesUuid peerId uuid) ∨
    (∃ name, e.2 = .snapshot name) ∨ step h s e = s := by
  obtain ⟨env, act⟩ := e
  cases act with
  | start ip hash cp => exact Or.inr (Or.inr (Or.inl ⟨ip, hash, cp, rfl⟩))
  | insertSwitchSidesUuid peerId uuid =>
    exact Or.inr (Or.inr (Or.inr (Or.inl ⟨peerId, uuid, rfl⟩)))
  | snapshot name => exact Or.inr (Or.inr (Or.inr (Or.inr (Or.inl ⟨name, rfl⟩))))
  | arm id a =>
    cases hc : s.conns id with
    | none => exact Or.inr (Or.inr (Or.inr (Or.inr (Or.inr (by simp [step, hc])))))
    | some c =>
      cases hrun : c.running with
      | true => exact Or.inl ⟨id, c, a, rfl, hc, hrun⟩
      | false =>
        exact Or.inr (Or.inr (Or.inr (Or.inr (Or.inr (by simp [step, hc, hrun])))))
  | finish id =>
    cases hc : s.conns id with
    | none => exact Or.inr (Or.inr (Or.inr (Or.inr (Or.inr (by simp [step, hc])))))
    | some c =>
      cases hrun : c.running with
      | false => exact Or.inr (Or.inl ⟨id, c, rfl, hc, hrun⟩)
      | true =>
        exact Or.inr (Or.inr (Or.inr (Or.inr (Or.inr (by simp [step, hc, hrun])))))

/-- Where a connection of the state after a step comes from. -/
theorem conns_step {h : Host} {s : System} {e : Env × Action} {j : Int} {c' : Connection}
    (hc' : (step h s e).conns j = some c') :
    (∃ ip hash cp, e.2 = .start ip hash cp ∧ j = s.idCount + 1 ∧
      c' = Connection.start h e.1 j ip hash cp) ∨
    (∃ c a, Runs s e j c a ∧ c' = (World.arm h e.1 a ⟨c, s.glob⟩).conn) ∨
    s.conns j = some c' := by
  rcases step_cases h s e with ⟨i, c, a, hr⟩ | ⟨i, c, hd⟩ | ⟨ip, hash, cp, he⟩ |
    ⟨peerId, uuid, he⟩ | ⟨name, he⟩ | heq
  · rw [step_runs hr] at hc'
    dsimp only at hc'
    by_cases hj : j = i
    · subst hj
      rw [Function.update_self, Option.some.injEq] at hc'
      exact Or.inr (Or.inl ⟨c, a, hr, hc'.symm⟩)
    · rw [Function.update_of_ne hj] at hc'
      exact Or.inr (Or.inr hc')
  · rw [step_drops hd] at hc'
    dsimp only at hc'
    by_cases hj : j = i
    · subst hj
      rw [Function.update_self] at hc'
      cases hc'
    · rw [Function.update_of_ne hj] at hc'
      exact Or.inr (Or.inr hc')
  · obtain ⟨env, act⟩ := e
    dsimp only at he
    subst he
    rw [step_start] at hc'
    dsimp only at hc'
    by_cases hj : j = s.idCount + 1
    · subst hj
      rw [Function.update_self, Option.some.injEq] at hc'
      exact Or.inl ⟨ip, hash, cp, rfl, rfl, hc'.symm⟩
    · rw [Function.update_of_ne hj] at hc'
      exact Or.inr (Or.inr hc')
  · refine Or.inr (Or.inr ?_)
    unfold step at hc'
    rw [he] at hc'
    exact hc'
  · refine Or.inr (Or.inr ?_)
    unfold step at hc'
    rw [he] at hc'
    exact hc'
  · rw [heq] at hc'
    exact Or.inr (Or.inr hc')

/-- The ids given out so far do not decrease. -/
theorem idCount_step (h : Host) (s : System) (e : Env × Action) :
    s.idCount ≤ (step h s e).idCount := by
  have hsame : (step h s e).idCount = s.idCount ∨ (step h s e).idCount = s.idCount + 1 := by
    rcases step_cases h s e with ⟨i, c, a, hr⟩ | ⟨i, c, hd⟩ | ⟨ip, hash, cp, he⟩ |
      ⟨peerId, uuid, he⟩ | ⟨name, he⟩ | heq
    · exact Or.inl (by rw [step_runs hr])
    · exact Or.inl (by rw [step_drops hd])
    · exact Or.inr (by simp only [step, he])
    · exact Or.inl (by simp only [step, he])
    · exact Or.inl (by simp only [step, he])
    · exact Or.inl (congrArg System.idCount heq)
  omega

/-- Every connection has the id it is filed under and keeps its invariant. -/
def Sound (s : System) : Prop :=
  ∀ i c, s.conns i = some c → c.id = i ∧ i ≤ s.idCount ∧ c.Sound

theorem sound_init (idCount : Int) (server : Server) : (init idCount server).Sound := by
  intro i c hc
  cases hc

theorem sound_step {h : Host} {s : System} (e : Env × Action) (hs : s.Sound) :
    (step h s e).Sound := by
  intro j c' hc'
  rcases conns_step hc' with ⟨ip, hash, cp, he, hj, rfl⟩ | ⟨c, a, hr, rfl⟩ | hc
  · refine ⟨rfl, ?_, Connection.sound_start _ _ _ _ _ _⟩
    obtain ⟨env, act⟩ := e
    dsimp only at he
    subst he hj
    exact Int.le_refl _
  · obtain ⟨hci, hle, hsound⟩ := hs j c hr.2.1
    exact ⟨(World.arm_id h e.1 a (w := ⟨c, s.glob⟩) hsound.no2fa).trans hci,
      Int.le_trans hle (idCount_step h s e), World.arm_sound (w := ⟨c, s.glob⟩) hsound⟩
  · obtain ⟨hci, hle, hsound⟩ := hs j c' hc
    exact ⟨hci, Int.le_trans hle (idCount_step h s e), hsound⟩

theorem always_sound (h : Host) (idCount : Int) (server : Server) (es : List (Env × Action)) :
    Always (step h) Sound (init idCount server) es :=
  always_of_step (fun _ e hs => sound_step e hs) (sound_init idCount server) es

/-! ## The life of one connection -/

end System

end LuodaRemote
