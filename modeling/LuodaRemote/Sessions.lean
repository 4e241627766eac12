/-
  How long a session is recent.

  `SESSIONS` remembers the password a session was opened with, so that a peer can come back
  after the temporary password has changed. `is_recent_session` does not look at the age of
  an entry: expired ones are removed when a connection is dropped, so as not to delete active
  sessions while somebody logs in. `recent_after_drop` says what that gives: after a drop at
  time `t`, a session is recent only if it was heard from less than `SESSION_TIMEOUT` before
  `t`. Between two drops a session does not age, as `recent_session_not_fresh` shows.
-/
import LuodaRemote.System

namespace LuodaRemote
open Lib

/-! ## The age of the sessions -/

/-- At time `t` no session in the table was expired. -/
def Globals.Young (t : Nat) (g : Globals) : Prop :=
  ∀ key s, g.sessions key = some s → t - g.recvTimes s.lastRecvTime < sessionTimeout

namespace Globals

variable {t now : Nat} {g : Globals}

theorem Young.of_same {g' : Globals} (hg : g.Young t)
    (hsame : (g'.sessions, g'.recvTimes) = (g.sessions, g.recvTimes)) : g'.Young t := by
  obtain ⟨hs, hr⟩ := Prod.mk.inj hsame
  intro key s hkey
  rw [hs] at hkey
  rw [hr]
  exact hg key s hkey

/-- A cell that is set to a time after `t` is young. -/
theorem young_set_cell (hg : g.Young t) (ht : t ≤ now) (r : Nat) :
    Young t { g with recvTimes := Function.update g.recvTimes r now } := by
  intro key s hkey
  dsimp only
  by_cases hr : s.lastRecvTime = r
  · rw [hr, Function.update_self]
    unfold sessionTimeout
    omega
  · rw [Function.update_of_ne hr]
    exact hg key s hkey

theorem young_updateOrInsertSession (hg : g.Young t) (ht : t ≤ now) (key : SessionKey)
    (password : Option String) (tfa : Option Bool) :
    (g.updateOrInsertSession now key password tfa).Young t := by
  unfold updateOrInsertSession
  split
  · rename_i old hold
    intro key' s hs
    dsimp only at hs ⊢
    by_cases hk : key' = key
    · -- The entry keeps its cell.
      rw [hk, Function.update_self, Option.some.injEq] at hs
      rw [← hs]
      exact hg key old hold
    · rw [Function.update_of_ne hk] at hs
      exact hg key' s hs
  · intro key' s hs
    have hcell := young_set_cell (g := g) hg ht g.nextRecvTime
    dsimp only at hs ⊢
    by_cases hk : key' = key
    · rw [hk, Function.update_self, Option.some.injEq] at hs
      rw [← hs]
      dsimp only
      rw [Function.update_self]
      unfold sessionTimeout
      omega
    · rw [Function.update_of_ne hk] at hs
      exact hcell key' s hs

theorem young_checkRemoveSession (hg : g.Young t) (connId : Int) (key : SessionKey) :
    (g.checkRemoveSession connId key).Young t := by
  unfold checkRemoveSession
  dsimp only
  split
  · exact hg
  split
  · intro key' s hs
    dsimp only at hs
    by_cases hk : key' = key
    · rw [hk, Function.update_self] at hs
      cases hs
    · rw [Function.update_of_ne hk] at hs
      exact hg key' s hs
  · exact hg

theorem sweepSessions_some {key : SessionKey} {s : Session}
    (hs : (g.sweepSessions now).sessions key = some s) :
    g.sessions key = some s ∧ now - g.recvTimes s.lastRecvTime < sessionTimeout := by
  obtain ⟨hkey, hage⟩ := Option.filter_eq_some_iff.mp hs
  refine ⟨hkey, ?_⟩
  unfold expired at hage
  simpa using hage

end Globals

/-! ## The arms -/

namespace World

variable {h : Host} {env : Env} {a : Arm} {w : World} {t : Nat}

theorem Passive.young {w' : World} (hp : Passive env w w') (ht : t ≤ env.now)
    (hw : w.glob.Young t) : w'.glob.Young t := by
  induction hp with
  | view same =>
    have hview := congrArg (fun w : World => (w.glob.sessions, w.glob.recvTimes)) same
    exact hw.of_same hview
  | onClose w =>
    unfold World.onClose
    split
    · exact hw
    · exact hw
  | checkRemoveSession w => exact Globals.young_checkRemoveSession hw _ _
  | leaveLoop w => exact hw
  | touchSession w =>
    unfold World.touchSession
    split
    · exact Globals.young_set_cell hw ht _
    · exact hw
  | trans _ _ ih ih' => exact ih' (ih hw)

/-- The logon response does not touch the sessions. -/
theorem young_logonAndStartCm (h : Host) (env : Env) (lr : LoginRequest) (hw : w.glob.Young t) :
    (w.logonAndStartCm h env lr).1.glob.Young t := by
  unfold logonAndStartCm
  rcases logon_cases h env w with ⟨_, heq⟩ | ⟨_, sent, heq⟩ | ⟨_, addr, sent, heq⟩ | ⟨_, heq⟩
  · rw [heq]
    exact hw
  · rw [heq]
    exact hw
  · rw [heq]
    exact hw
  · rw [heq]
    have hview := congrArg (fun w : World => (w.glob.sessions, w.glob.recvTimes))
      (loginView_afterLogin h env w.connected.authorize)
    have hconn := apply_connected (fun w : World => (w.glob.sessions, w.glob.recvTimes))
      (fun _ _ => rfl) w
    exact hw.of_same (hview.trans hconn)

theorem Attempted.young {g : Globals} (hg : Attempted h env w g) (ht : t ≤ env.now)
    (hw : w.glob.Young t) : g.Young t := by
  obtain ⟨failures, rfl | ⟨_, rfl⟩⟩ := hg
  · exact hw
  · exact Globals.young_updateOrInsertSession hw ht _ _ _

theorem young_onLoginRequest (lr : LoginRequest) (ht : t ≤ env.now) (hw : w.glob.Young t) :
    (w.onLoginRequest h env lr).1.glob.Young t := by
  rcases onLoginRequest_cases h env lr w with ⟨_, heq⟩ | ⟨_, _, hglob, _⟩ |
    ⟨c, _, sent, shown, g, hg, heq⟩ | ⟨c, g, _, hg, _, _, _, heq⟩
  · rw [heq]
    exact hw
  · rw [hglob]
    exact hw
  · rw [heq]
    exact hg.young ht hw
  · rw [heq]
    exact young_logonAndStartCm h env lr (hg.young (w := ⟨c, w.glob⟩) ht hw)

theorem young_onSwitchSidesResponse (bytes : Bytes) (lr : Option LoginRequest)
    (hw : w.glob.Young t) : (w.onSwitchSidesResponse h env bytes lr).1.glob.Young t := by
  rcases onSwitchSidesResponse_cases h env bytes lr w with ⟨heq, _⟩ | ⟨l, _, _, heq⟩ |
    ⟨l, _, _, _, _, _, _, _, heq⟩
  · rw [heq]
    exact hw
  · rw [heq]
    exact hw
  · rw [heq]
    have hlogon := young_logonAndStartCm h env l (t := t) (w := { w.switching env l with
      conn := { (w.switching env l).conn with fromSwitch := true } }) hw
    unfold logonFromSwitch
    split
    · rename_i w' hw'
      rw [hw'] at hlogon
      exact hlogon
    · rename_i w' hw'
      rw [hw'] at hlogon
      exact hlogon

/-- No arm at time `t` or later leaves a session that was expired at `t`. -/
theorem young_arm (h2 : w.conn.require2fa = false) (ht : t ≤ env.now) (hw : w.glob.Young t) :
    (w.arm h env a).glob.Young t := by
  have hleave : ∀ r : World × Bool, r.1.glob.Young t → (afterMessage r).glob.Young t := by
    intro r hr
    rw [apply_afterMessage (fun w => w.glob) fun _ => rfl]
    exact hr
  have htouch : (w.touchSession env).glob.Young t := (Passive.touchSession w).young ht hw
  by_cases hl : a.isLogin
  · cases a with
    | peer msg =>
      cases msg with
      | loginRequest lr => exact hleave _ (young_onLoginRequest lr ht htouch)
      | switchSidesResponse bytes lr =>
        exact hleave _ (young_onSwitchSidesResponse bytes lr htouch)
      | auth2fa code hwid =>
        have h2' : (w.touchSession env).conn.require2fa = false := by
          rw [touchSession_conn, h2]
        obtain ⟨sent, heq⟩ := onAuth2fa_without_2fa h env code h2'
        refine hleave ((w.touchSession env).onAuth2fa h env code) ?_
        rw [heq]
        exact htouch
      | _ => cases hl
    | cm data =>
      cases data with
      | authorize =>
        rcases authorize_arm_cases h env h2 with ⟨hp, _⟩ | ⟨_, ⟨addr, sent, heq⟩ | hl⟩
        · exact hp.young ht hw
        · rw [heq]
          exact hw
        · have hview := hl.apply (fun w => (w.glob.sessions, w.glob.recvTimes)) (fun _ => rfl)
            fun _ => rfl
          have hconn := apply_connected (fun w : World => (w.glob.sessions, w.glob.recvTimes))
            (fun _ _ => rfl) w
          exact hw.of_same (hview.trans hconn)
      | _ => cases hl
    | _ => cases hl
  · exact (passive_arm h env (by simpa using hl) w).young ht hw

/-- Dropping a connection sweeps the table: what it leaves was there and is not expired. -/
theorem sessions_finish {key : SessionKey} {s : Session}
    (hs : (w.finish env).glob.sessions key = some s) :
    w.glob.sessions key = some s ∧
      env.now - (w.finish env).glob.recvTimes s.lastRecvTime < sessionTimeout ∧
      (w.finish env).glob.recvTimes = w.glob.recvTimes := by
  obtain ⟨sessions, hold, heq⟩ := finish_glob env w
  rw [heq] at hs ⊢
  obtain ⟨hkey, hage⟩ := Globals.sweepSessions_some hs
  exact ⟨hold key s hkey, hage, rfl⟩

end World

/-! ## Whole runs -/

namespace System

/-- A drop leaves no session that is expired at its time. -/
theorem young_drops {h : Host} {s : System} {e : Env × Action} {i : Int} {c : Connection}
    (hd : Drops s e i c) : (step h s e).glob.Young e.1.now := by
  rw [step_drops hd]
  intro key session hs
  exact (World.sessions_finish hs).2.1

theorem young_step {h : Host} {s : System} {e : Env × Action} {t : Nat} (hs : s.Sound)
    (ht : t ≤ e.1.now) (hg : s.glob.Young t) : (step h s e).glob.Young t := by
  rcases step_cases h s e with ⟨i, c, a, hr⟩ | ⟨i, c, hd⟩ | ⟨ip, hash, cp, he⟩ |
    ⟨peerId, uuid, he⟩ | ⟨name, he⟩ | heq
  · rw [step_runs hr]
    exact World.young_arm (w := ⟨c, s.glob⟩) (hs i c hr.2.1).2.2.no2fa ht hg
  · rw [step_drops hd]
    intro key session hsession
    obtain ⟨hold, _, hcells⟩ := World.sessions_finish hsession
    dsimp only
    rw [hcells]
    exact hg key session hold
  · unfold step
    rw [he]
    exact hg
  · unfold step
    rw [he]
    exact hg
  · unfold step
    rw [he]
    exact hg
  · rw [heq]
    exact hg

/-- A session that counts as recent for some connection, in either sense, had been heard
    from less than `SESSION_TIMEOUT` before `t`. -/
def RecentSince (h : Host) (t : Nat) (s : System) : Prop :=
  ∀ (c : Connection) (tfa : Bool), World.isRecentSession h tfa ⟨c, s.glob⟩ = true →
    ∃ session, s.glob.sessions c.sessionKey = some session ∧
      t - s.glob.recvTimes session.lastRecvTime < sessionTimeout

theorem recentSince_of_young {h : Host} {t : Nat} {s : System} (hg : s.glob.Young t) :
    RecentSince h t s := by
  intro c tfa hrecent
  unfold World.isRecentSession at hrecent
  split at hrecent
  · rename_i session hsession
    exact ⟨session, hsession, hg _ session hsession⟩
  · cases hrecent

/-- In every run whose clock does not go back, from each drop of a connection on only
    sessions are recent that had been heard from less than `SESSION_TIMEOUT` before it. -/
theorem recent_after_drop (h : Host) (idCount : Int) (server : Server)
    (es : List (Env × Action)) (hclock : es.Pairwise fun x y => x.1.now ≤ y.1.now)
    (before after : List (Env × Action)) (e : Env × Action) (hes : es = before ++ e :: after)
    (i : Int) (c : Connection) (hd : Drops (run (step h) (init idCount server) before) e i c) :
    Always (step h) (RecentSince h e.1.now)
      (run (step h) (init idCount server) (before ++ [e])) after := by
  have hsound : (run (step h) (init idCount server) (before ++ [e])).Sound :=
    (always_sound h idCount server _).last
  have hlater : ∀ x ∈ after, e.1.now ≤ x.1.now := by
    rw [hes, List.pairwise_append, List.pairwise_cons] at hclock
    exact hclock.2.1.1
  have hstart : (run (step h) (init idCount server) (before ++ [e])).glob.Young e.1.now := by
    rw [run_append]
    exact young_drops hd
  have halong : Along (step h) (fun _ x => e.1.now ≤ x.1.now)
      (run (step h) (init idCount server) (before ++ [e])) after := along_of_mem hlater
  refine Always.mono (fun s hs => recentSince_of_young hs.2) (always_of_along
    (P := fun s => s.Sound ∧ s.glob.Young e.1.now) (C := fun _ x => e.1.now ≤ x.1.now) ?_
    ⟨hsound, hstart⟩ halong)
  rintro s x ⟨hs, hg⟩ hx
  exact ⟨sound_step x hs, young_step hs hx hg⟩

/-- A peer logs in with the temporary password. -/
def passwordLogin (id : Int) (env : Env) : List (Env × Action) :=
  [(env, .start (.v4 3232235778) .sample none),
    (env, .arm id (.peer (.loginRequest
      { LoginRequest.sample "111222333" with password := sampleAnswer })))]

/-- The session of a dropped connection, while another connection is started much later. -/
theorem recent_after_drop_once :
    Always (step .sample) (RecentSince .sample 1000)
      (run (step .sample) (init 0 (.new .sample false false false))
        (passwordLogin 1 .sample ++ [(.sample, .arm 1 (.hostClose none))] ++
          [(.sample, .finish 1)]))
      [(Env.sampleLater, .start (.v4 3232235778) .sample none)] := by
  have hclosed : ((run (step .sample) (init 0 (.new .sample false false false))
      (passwordLogin 1 .sample ++ [(.sample, .arm 1 (.hostClose none))])).conns 1).map
      (fun c => c.running) = some false := by decide +kernel
  obtain ⟨c, hc, hrunning⟩ := Option.map_eq_some_iff.mp hclosed
  exact recent_after_drop .sample 0 (.new .sample false false false)
    (passwordLogin 1 .sample ++ [(.sample, .arm 1 (.hostClose none))] ++
      (.sample, .finish 1) :: [(.sampleLater, .start (.v4 3232235778) .sample none)])
    (by decide) _ _ (.sample, .finish 1) rfl 1 c ⟨rfl, hc, hrunning⟩

/-- The peer comes back with the old password. -/
def comeBack : List (Env × Action) := passwordLogin 1 .sample ++ passwordLogin 2 Env.sampleLater

/-- It is let in, though its session was last heard from 99 seconds ago. -/
theorem recent_session_not_fresh :
    ((run (step .sample) (init 0 (.new .sample false false false)) comeBack).conns 2).map
      (fun c => c.authorized) = some true ∧
    ¬Along (step .sample) (fun s e => RecentSince .sample e.1.now s)
      (init 0 (.new .sample false false false)) comeBack := by
  refine ⟨by decide +kernel, ?_⟩
  rintro ⟨_, _, _, hlast, _⟩
  let s := run (step .sample) (init 0 (.new .sample false false false))
    (passwordLogin 1 .sample ++ [(Env.sampleLater, .start (.v4 3232235778) .sample none)])
  let c : Connection :=
    { Connection.start .sample .sample 2 (.v4 3232235778) .sample none with
      lr := { LoginRequest.sample "111222333" with password := sampleAnswer } }
  have hrecent : World.isRecentSession .sample false ⟨c, s.glob⟩ = true := by decide +kernel
  have hage : ((s.glob.sessions c.sessionKey).map fun session =>
      Env.sampleLater.now - s.glob.recvTimes session.lastRecvTime) = some 99000 := by
    decide +kernel
  obtain ⟨session, hsession, hfresh⟩ := hlast c false hrecent
  change s.glob.sessions c.sessionKey = some session at hsession
  rw [hsession, Option.map_some, Option.some.injEq] at hage
  change Env.sampleLater.now - s.glob.recvTimes session.lastRecvTime < sessionTimeout at hfresh
  rw [hage] at hfresh
  exact absurd hfresh (by decide)

end System

end LuodaRemote
