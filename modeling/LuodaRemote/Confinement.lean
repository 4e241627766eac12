/-
  What the kind of a connection keeps from it.

  A connection that is not authorized should have no service at all, a file, tunnel or
  terminal connection nothing of the screen, the sound or the clipboard, a camera connection
  no screen and no clipboard, and none of them should reach the input thread. Most handlers
  look at the permissions and not at the kind, so the confinement holds only in the runs
  whose arms all leave it alone: `Confining` says which do, `confined_of_confining` that a
  run of these confines every connection of the server throughout.
-/
import LuodaRemote.Connection.Exposure
import LuodaRemote.System

namespace LuodaRemote
open Lib

/-- The connection has nothing its kind keeps from it. -/
structure Confined (srv : Server) (c : Connection) : Prop where
  services : ∀ n, c.Excluded n → srv.isSubed n c.id = false
  input : c.authedConnId ≠ some .remote → ∀ m ∈ c.toInput, m.isEvent = false

namespace World

variable {h : Host} {env : Env} {w : World}

/-! ## One arm -/

/-- The arm leaves the confinement alone: it switches on no service that is kept from the
    connection, forwards no input of a connection that is not remote, and if it logs on, the
    options of the login ask for nothing the kind keeps from the connection. -/
structure Confining (h : Host) (env : Env) (w : World) (a : Arm) : Prop where
  services : ∀ n, w.conn.Excluded n → ¬SwitchesOn h w n a
  input : w.conn.authedConnId ≠ some .remote → ¬w.Forwards a
  login : w.conn.authorized = false → (∃ v, Entry h env w a v) →
    (w.asking a).connected.conn.portForwardSocket = none →
    ∀ o, (w.asking a).conn.optionsInLogin = some o →
    ∀ n, (w.asking a).connected.conn.authConnType.excludes n = true →
      w.glob.server.contains n = true → optionOn h w.conn.flags o n = false

theorem no_events_iff {c : Connection} :
    (∀ m ∈ c.toInput, m.isEvent = false) ↔ c.toInput.filter MessageInput.isEvent = [] := by
  simp [List.filter_eq_nil_iff]

/-- No event reaches the input thread while the kind is not remote. -/
theorem arm_input {a : Arm} (h2 : w.conn.require2fa = false)
    (hconf : Confined w.glob.server w.conn) (hcond : Confining h env w a)
    (hk : w.conn.authedConnId ≠ some .remote) :
    ∀ m ∈ (w.arm h env a).conn.toInput, m.isEvent = false := by
  have haside := aside_arm h env h2 (hcond.input hk)
  have hevents := congrArg (fun p => p.2.2) haside
  rw [no_events_iff]
  exact hevents.trans (no_events_iff.mp (hconf.input hk))

theorem confined_of_same {w' : World} (hconf : Confined w.glob.server w.conn)
    (hid : w'.conn.id = w.conn.id) (hauth : w'.conn.authorized = w.conn.authorized)
    (hkind : w'.conn.authedConnId = w.conn.authedConnId)
    (hsub : ∀ n, w.conn.Excluded n → w'.glob.server.isSubed n w.conn.id = true →
      w.glob.server.isSubed n w.conn.id = true)
    (hin : w.conn.authedConnId ≠ some .remote → ∀ m ∈ w'.conn.toInput, m.isEvent = false) :
    Confined w'.glob.server w'.conn := by
  refine ⟨fun n hex => ?_, ?_⟩
  · have hex : w.conn.Excluded n := by
      unfold Connection.Excluded at hex ⊢
      rwa [hauth, hkind] at hex
    rw [hid]
    by_contra hsubed
    rw [Bool.not_eq_false] at hsubed
    have hbefore := hsub n hex hsubed
    rw [hconf.services n hex] at hbefore
    cases hbefore
  · rw [hkind]
    exact hin

/-- A logon leaves the connection confined. -/
theorem loggedOn_confined {a : Arm} {v : World} (hc : w.conn.Sound)
    (hconf : Confined w.glob.server w.conn) (hcond : Confining h env w a)
    (ha : w.conn.authorized = false) (he : Entry h env w a v)
    (hl : LoggedOn h env a v (w.arm h env a)) :
    Confined (w.arm h env a).glob.server (w.arm h env a).conn := by
  have hnone : w.conn.authedConnId ≠ some .remote := by
    intro hk
    have hauth := hc.authed
    rw [hk, ha] at hauth
    cases hauth
  refine ⟨fun n hex => ?_, fun _ => arm_input hc.no2fa hconf hcond hnone⟩
  obtain ⟨hauth, hkind, _⟩ := hl.kind
  have hasked := connected_congr he.logonView_eq
  have hsteady := congrArg (fun w : World => (w.conn.id, w.glob.server)) he.steady_eq
  obtain ⟨hvid, hvsrv⟩ := Prod.mk.inj hsteady
  have hcid : v.connected.conn.id = v.conn.id :=
    apply_connected (fun w => w.conn.id) (fun _ _ => rfl) v
  have hcsrv : v.connected.glob.server = v.glob.server :=
    apply_connected (fun w => w.glob.server) (fun _ _ => rfl) v
  have hn : v.connected.conn.authConnType.excludes n = true := by
    rcases hex with hno | ⟨k, hk, hn⟩
    · rw [hauth] at hno
      cases hno
    · rw [hkind] at hk
      rw [Option.some.inj hk]
      exact hn
  by_contra hsubed
  rw [Bool.not_eq_false, arm_id h env a hc.no2fa, hl.server_eq] at hsubed
  have hzid : v.connected.authorize.conn.id = w.conn.id := hcid.trans hvid
  have hzsrv : v.connected.authorize.glob.server = w.glob.server := hcsrv.trans hvsrv
  rw [← hzid] at hsubed
  rcases isSubed_afterLogin_of (w := v.connected.authorize) hn hsubed with hsub |
    ⟨hsocket, o, ho, hcont, hon⟩
  · rw [hzid, hzsrv, hconf.services n (Or.inl ha)] at hsub
    cases hsub
  · have hvflags := congrArg (fun w : World => w.conn.flags) he.steady_eq
    have hflags : v.connected.authorize.conn.flags = w.conn.flags :=
      (apply_connected (fun w => w.conn.flags) (fun _ _ => rfl) v).trans hvflags
    have hoptions : (w.asking a).conn.optionsInLogin = some o := by
      have hview := congrArg (fun p => p.2.1) he.logonView_eq
      have hkept : v.connected.conn.optionsInLogin = v.conn.optionsInLogin :=
        apply_connected (fun w => w.conn.optionsInLogin) (fun _ _ => rfl) v
      exact hview.symm.trans (hkept.symm.trans ho)
    have hview := congrArg (fun p => p.2.2.2.1) hasked
    have hoff := hcond.login ha ⟨v, he⟩ (hview.symm.trans hsocket) o hoptions n
      (authConnType_of_logonView hasked ▸ hn) (hzsrv ▸ hcont)
    rw [hflags, hoff] at hon
    cases hon

theorem arm_confined {a : Arm} (hc : w.conn.Sound) (hm : w.conn.Marked)
    (hr : w.conn.running = true) (hconf : Confined w.glob.server w.conn)
    (hcond : Confining h env w a) :
    Confined (w.arm h env a).glob.server (w.arm h env a).conn := by
  by_cases hl : a.isLogin
  · rcases login_arm_cases h env hl hc.no2fa with hs | ⟨ha, v, he, hlog⟩
    · have hview := congrArg (fun w : World => (w.conn.id, w.conn.authorized,
        w.conn.authedConnId, w.glob.server)) hs
      simp only [Prod.mk.injEq] at hview
      obtain ⟨hid, hauth, hkind, hsrv⟩ := hview
      refine confined_of_same hconf hid hauth hkind (fun n _ hsub => ?_)
        (arm_input hc.no2fa hconf hcond)
      have hsrv : (w.arm h env a).glob.server = w.glob.server := hsrv
      rwa [hsrv] at hsub
    · exact loggedOn_confined hc hconf hcond ha he hlog
  · have hl : a.isLogin = false := Bool.eq_false_iff.mpr hl
    have hview := congrArg (fun w : World => (w.conn.id, w.conn.authorized,
      w.conn.authedConnId)) (passive_arm h env hl w).identity_eq
    simp only [Prod.mk.injEq] at hview
    obtain ⟨hid, hauth, hkind⟩ := hview
    refine confined_of_same hconf hid hauth hkind (fun n hex hsub => ?_)
      (arm_input hc.no2fa hconf hcond)
    rcases isSubed_arm_of hl hc hm hr hex hsub with hbefore | hon
    · exact hbefore
    · exact absurd hon (hcond.services n hex)

theorem server_finish :
    (w.finish env).glob.server = w.glob.server.removeConnection w.conn.id := by
  obtain ⟨_, _, heq⟩ := finish_glob env w
  rw [heq]

end World

/-! ## Every connection of every run -/

namespace System

/-- Every connection of the server has nothing its kind keeps from it. -/
def AllConfined (s : System) : Prop :=
  ∀ i c, s.conns i = some c → Confined s.glob.server c

/-- If the step is an arm of a connection, it leaves the confinement alone. -/
def Confining (h : Host) (s : System) (e : Env × Action) : Prop :=
  ∀ i c a, Runs s e i c a → World.Confining h e.1 ⟨c, s.glob⟩ a

/-- What carries the confinement through a run: ids are given out once, so a connection
    starts with no subscription, and the marks of a connection stay those of its kind. -/
structure Ready (s : System) : Prop where
  sound : s.Sound
  marked : ∀ i c, s.conns i = some c → c.Marked
  fresh : ∀ n j, s.idCount < j → s.glob.server.isSubed n j = false
  confined : s.AllConfined

theorem ready_runs {h : Host} {s : System} {e : Env × Action} {i : Int} {c : Connection} {a : Arm}
    (hs : s.Ready) (hcond : Confining h s e) (hr : Runs s e i c a) : (step h s e).Ready := by
  obtain ⟨hid, hle, hsound⟩ := hs.sound i c hr.2.1
  have hother : ∀ n j, j ≠ i → (World.arm h e.1 a ⟨c, s.glob⟩).glob.server.isSubed n j =
      s.glob.server.isSubed n j := by
    intro n j hj
    rw [← hid] at hj
    exact World.isSubed_arm_other (w := ⟨c, s.glob⟩) hsound.no2fa n hj
  refine ⟨sound_step e hs.sound, fun j c' hc' => ?_, fun n j hj => ?_, fun j c' hc' => ?_⟩
  all_goals
    rw [step_runs hr] at *
    dsimp only at *
  · by_cases hji : j = i
    · rw [hji, Function.update_self, Option.some.injEq] at hc'
      rw [← hc']
      exact World.arm_marked (w := ⟨c, s.glob⟩) hsound (hs.marked i c hr.2.1) hr.2.2
    · rw [Function.update_of_ne hji] at hc'
      exact hs.marked j c' hc'
  · rw [hother n j (by omega)]
    exact hs.fresh n j hj
  · by_cases hji : j = i
    · rw [hji, Function.update_self, Option.some.injEq] at hc'
      rw [← hc']
      exact World.arm_confined (w := ⟨c, s.glob⟩) hsound (hs.marked i c hr.2.1) hr.2.2
        (hs.confined i c hr.2.1) (hcond i c a hr)
    · rw [Function.update_of_ne hji] at hc'
      have hconf := hs.confined j c' hc'
      have hc'id := (hs.sound j c' hc').1
      refine ⟨fun n hex => ?_, hconf.input⟩
      rw [hother n c'.id (by rw [hc'id]; exact hji)]
      exact hconf.services n hex

theorem ready_drops {h : Host} {s : System} {e : Env × Action} {i : Int} {c : Connection}
    (hs : s.Ready) (hd : Drops s e i c) : (step h s e).Ready := by
  have hsub : ∀ n j, (World.finish e.1 ⟨c, s.glob⟩).glob.server.isSubed n j = true →
      s.glob.server.isSubed n j = true := by
    intro n j hj
    rw [World.server_finish, Server.isSubed_removeConnection, Bool.and_eq_true] at hj
    exact hj.2
  have hoff : ∀ n j, s.glob.server.isSubed n j = false →
      (World.finish e.1 ⟨c, s.glob⟩).glob.server.isSubed n j = false := by
    intro n j hno
    by_contra hj
    rw [hsub n j (by simpa using hj)] at hno
    cases hno
  have hconns : ∀ j c', (step h s e).conns j = some c' → s.conns j = some c' := by
    intro j c' hc'
    rw [step_drops hd] at hc'
    dsimp only at hc'
    by_cases hji : j = i
    · rw [hji, Function.update_self] at hc'
      cases hc'
    · rwa [Function.update_of_ne hji] at hc'
  refine ⟨sound_step e hs.sound, fun j c' hc' => hs.marked j c' (hconns j c' hc'),
    fun n j hj => ?_, fun j c' hc' => ?_⟩
  · rw [step_drops hd] at hj ⊢
    exact hoff n j (hs.fresh n j hj)
  · have hconf := hs.confined j c' (hconns j c' hc')
    refine ⟨fun n hex => ?_, hconf.input⟩
    rw [step_drops hd]
    exact hoff n c'.id (hconf.services n hex)

/-- A new connection has an id nobody was subscribed with. -/
theorem ready_start {h : Host} {s : System} {env : Env} {ip : IpAddr} {hash : Hash}
    {cp : Option (BitVec 64)} (hs : s.Ready) :
    (step h s (env, .start ip hash cp)).Ready := by
  have hsound := sound_step (h := h) (env, .start ip hash cp) hs.sound
  rw [step_start] at hsound ⊢
  refine ⟨hsound, fun j c' hc' => ?_, fun n j hj => ?_, fun j c' hc' => ?_⟩
  · dsimp only at hc'
    by_cases hj : j = s.idCount + 1
    · rw [hj, Function.update_self, Option.some.injEq] at hc'
      rw [← hc']
      intro k hk
      cases hk
    · rw [Function.update_of_ne hj] at hc'
      exact hs.marked j c' hc'
  · dsimp only at hj
    exact hs.fresh n j (by omega)
  · dsimp only at hc' ⊢
    by_cases hj : j = s.idCount + 1
    · rw [hj, Function.update_self, Option.some.injEq] at hc'
      rw [← hc']
      refine ⟨fun n _ => hs.fresh n _ ?_, fun _ m hm => ?_⟩
      · change s.idCount < s.idCount + 1
        omega
      · cases hm
    · rw [Function.update_of_ne hj] at hc'
      exact hs.confined j c' hc'

theorem ready_step {h : Host} {s : System} {e : Env × Action} (hs : s.Ready)
    (hcond : Confining h s e) : (step h s e).Ready := by
  have hsound := sound_step (h := h) e hs.sound
  rcases step_cases h s e with ⟨i, c, a, hr⟩ | ⟨i, c, hd⟩ | ⟨ip, hash, cp, he⟩ |
    ⟨peerId, uuid, he⟩ | ⟨name, he⟩ | heq
  · exact ready_runs hs hcond hr
  · exact ready_drops hs hd
  · obtain ⟨env, act⟩ := e
    dsimp only at he
    subst he
    exact ready_start hs
  · unfold step at hsound ⊢
    rw [he] at hsound ⊢
    exact ⟨hsound, hs.marked, hs.fresh, hs.confined⟩
  · unfold step at hsound ⊢
    rw [he] at hsound ⊢
    refine ⟨hsound, hs.marked, fun n j hj => ?_, fun j c hc => ⟨fun n hex => ?_, ?_⟩⟩
    · exact (Server.isSubed_snapshot _ _ _ _).trans (hs.fresh n j hj)
    · exact (Server.isSubed_snapshot _ _ _ _).trans ((hs.confined j c hc).services n hex)
    · exact (hs.confined j c hc).input
  · rw [heq]
    exact hs

/-- In every run of a new server whose arms all leave the confinement alone, every
    connection is confined in every state. -/
theorem confined_of_confining (h : Host) (idCount : Int)
    (captureCursorEmbedded isX11 printerReady : Bool) (es : List (Env × Action))
    (hcond : Along (step h) (Confining h)
      (init idCount (.new h captureCursorEmbedded isX11 printerReady)) es) :
    Always (step h) AllConfined
      (init idCount (.new h captureCursorEmbedded isX11 printerReady)) es := by
  have hinit : Ready (init idCount (.new h captureCursorEmbedded isX11 printerReady)) := by
    refine ⟨sound_init _ _, fun i c hc => ?_, fun n j _ => ?_, fun i c hc => ?_⟩
    · cases hc
    · exact Server.isSubed_new _ _ _ _ _ _
    · cases hc
  exact (always_of_along (fun _ _ hs hc => ready_step hs hc) hinit hcond).mono
    fun _ hs => hs.confined

/-- A peer logs in for file transfer. -/
def fileLogin : List (Env × Action) :=
  [(.sample, .start (.v4 3232235778) .sample none),
    (.sample, .arm 1 (.peer (.loginRequest { LoginRequest.sample "111222333" with
      password := sampleAnswer, union := some (.fileTransfer "" false) })))]

/-- Its login sets no option, so it is left with nothing but its files. -/
theorem confined_of_confining_files :
    ((run (step .sample) (init 0 (.new .sample false false false)) fileLogin).conns 1).map
      (fun c => c.authedConnId) = some (some .fileTransfer) ∧
    Always (step .sample) AllConfined (init 0 (.new .sample false false false)) fileLogin := by
  refine ⟨by decide +kernel,
    confined_of_confining .sample 0 false false false fileLogin ⟨?_, ?_, trivial⟩⟩
  · rintro i c a ⟨hact, _, _⟩
    cases hact
  · rintro i c a ⟨hact, hc, _⟩
    cases hact
    cases hc
    refine ⟨fun _ _ hon => hon, fun _ hf => hf.2.2.2, fun _ _ _ o ho => ?_⟩
    cases ho

/-- Then it moves the mouse. -/
def fileLoginThenMouse : List (Env × Action) :=
  fileLogin ++ [(.sample, .arm 1 (.peer (.mouseEvent ⟨0, 40, 60⟩)))]

/-- The keyboard permission of the machine is on, which is all the handler looks at. -/
theorem file_connection_not_confined :
    ¬Always (step .sample) AllConfined (init 0 (.new .sample false false false))
      fileLoginThenMouse := by
  intro hall
  let last := run (step .sample) (init 0 (.new .sample false false false)) fileLoginThenMouse
  have hevents : (last.conns 1).map (fun c => (c.authedConnId, c.toInput.any (·.isEvent))) =
      some (some .fileTransfer, true) := by decide +kernel
  obtain ⟨c, hc, heq⟩ := Option.map_eq_some_iff.mp hevents
  obtain ⟨hkind, hany⟩ := Prod.mk.inj heq
  obtain ⟨m, hm, hevent⟩ := List.any_eq_true.mp hany
  have hno := (hall.last 1 c hc).input (by rw [hkind]; decide) m hm
  rw [hevent] at hno
  cases hno

end System

end LuodaRemote
