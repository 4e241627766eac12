/-
  Port forwarding: what was asked for, permitted and shown before
  `connect_port_forward_if_needed` opens a socket.

  The target is taken from `self.lr` when the connection is authorized, while the tunnel
  permission is checked and the address shown to the user when a `LoginRequest` arrives. In
  between `self.lr` can be replaced: by a `SwitchSidesResponse`, which checks no permission,
  or by a `LoginRequest` that is turned away without `try_start_cm` (too many attempts, no
  desktop session). And a request that logs on by its own password has the socket opened first
  and its address shown after. `port_forward_gated`: in every run without the first two, and where
  a password comes only with a target that was shown before, a socket is opened only to a target
  that was asked for with permission and is the one last shown at that moment.
-/
import LuodaRemote.System

namespace LuodaRemote
open Lib

/-- The address a request wants forwarded, normalised. -/
def LoginRequest.target (lr : LoginRequest) : Option String :=
  match lr.union with
  | some (.portForward pf) => some (normalizePortForwardTarget pf).1
  | _ => none

/-- The `port_forward` of the last record the connection manager was shown. -/
def Connection.lastShown (c : Connection) : Option String :=
  (c.toCm.filterMap fun
    | .login l => some l.portForward
    | _ => none).getLast?

/-- A request with a target needs the tunnel permission. -/
theorem kindPermission_of_target {lr : LoginRequest} {addr : String}
    (ht : lr.target = some addr) : World.kindPermission lr.union = some .tunnel := by
  unfold LoginRequest.target at ht
  split at ht
  · rename_i hu
    rw [hu]
    rfl
  · cases ht

theorem Connection.lastShown_congr {c c' : Connection} (hcm : c.toCm = c'.toCm) :
    c.lastShown = c'.lastShown := by
  unfold lastShown
  rw [hcm]

/-! ## What is shown -/

namespace World

variable {h : Host} {env : Env} {lr : LoginRequest} {w : World}

@[simp] theorem lastShown_tryStartCm (peerId name : String) (authorized : Bool) (w : World) :
    (w.tryStartCm peerId name authorized).conn.lastShown = some w.conn.portForwardAddress := by
  simp [tryStartCm, sendToCm, Connection.lastShown]

theorem lastShown_loginView (w : World) : w.loginView.conn.lastShown = w.conn.lastShown := by
  unfold loginView Connection.lastShown
  rw [List.filterMap_filter]
  congr 1
  refine List.filterMap_congr fun m _ => ?_
  cases m <;> rfl

theorem Passive.lastShown_eq {w' : World} (hp : Passive env w w') :
    w'.conn.lastShown = w.conn.lastShown := by
  have hview : w'.loginView.conn.lastShown = w.loginView.conn.lastShown := by
    have hid := congrArg (fun w : World => w.conn.lastShown) hp.identity_eq
    exact hid
  rwa [lastShown_loginView, lastShown_loginView] at hview

/-- The socket leads to the target of the stored request, which is then the address. -/
theorem connected_of_target {addr : String} (hs : w.conn.portForwardSocket = none)
    (ht : w.conn.lr.target = some addr) :
    w.connected.conn.portForwardSocket = some addr ∧
      w.connected.conn.portForwardAddress = addr := by
  unfold LoginRequest.target at ht
  split at ht
  · rename_i pf hu
    cases ht
    unfold connected
    rw [hs, hu]
    exact ⟨rfl, rfl⟩
  · cases ht

theorem connected_of_no_target (ht : w.conn.lr.target = none) : w.connected = w := by
  unfold LoginRequest.target at ht
  split at ht
  · cases ht
  · rename_i hno
    unfold connected
    split
    · rename_i pf _ hu
      exact absurd hu (hno pf)
    · rfl

/-! ## A request for a port forward -/

/-- A permitted request for a port forward is answered through `try_start_cm`, or ends the
    connection because it is meant for another machine. -/
def Shows (h : Host) (env : Env) (lr : LoginRequest) (w : World) : Prop :=
  let w := { w with conn := { w.conn with lr := lr } }
  let offline := !h.isIpStr lr.username && !h.isDomainPortStr lr.username &&
    lr.username != env.getId
  let byClick := clickOnly h env || approveMode env == .both && !hasValidPassword h env
  (desktopError h env = "" ∨ desktopError h env = desktopSessionNotReady) ∧
    (offline = true ∨ byClick = true) ∨
  desktopError h env = "" ∧ (w.isRecentSession h false = true ∨ lr.password.isEmpty = true ∨
    (w.checkPasswordFailure env).error = none)

/-- The request logs on at once, by its own credential. -/
def LogsOn (h : Host) (env : Env) (lr : LoginRequest) (w : World) : Prop :=
  desktopError h env = "" ∧ clickOnly h env = false ∧ Verified h env w lr

theorem shows_touchSession : Shows h env lr (w.touchSession env) ↔ Shows h env lr w := by
  unfold touchSession
  split <;> exact Iff.rfl

/-- The outcome of a handler that ended the connection without a socket, or showed the
    address. -/
def Showed (addr : String) (r : World × Bool) : Prop :=
  r.2 = false ∧ r.1.conn.portForwardSocket = none ∨ r.1.conn.lastShown = some addr

theorem showed_logonAndStartCm {addr : String} (ha : w.conn.authorized = false)
    (h2 : w.conn.require2fa = false) (hs : w.conn.portForwardSocket = none)
    (ht : w.conn.lr.target = some addr) : Showed addr (w.logonAndStartCm h env lr) := by
  rcases logonAndStartCm_cases h env lr ha h2 with ⟨_, sent, heq⟩ | heq
  · rw [heq]
    exact Or.inl ⟨rfl, hs⟩
  · rw [heq]
    refine Or.inr ?_
    have hview := congrArg (fun w : World => w.conn.portForwardAddress)
      (loginView_afterLogin h env w.connected.authorize)
    have haddr : (w.connected.authorize.afterLogin h env).conn.portForwardAddress =
        w.connected.conn.portForwardAddress := hview
    rw [lastShown_tryStartCm, haddr, (connected_of_target hs ht).2]

theorem showed_loginPassword {addr : String} (ha : w.conn.authorized = false)
    (h2 : w.conn.require2fa = false) (hs : w.conn.portForwardSocket = none)
    (ht : w.conn.lr.target = some addr) (hshown : w.conn.portForwardAddress = addr)
    (hok : (w.checkPasswordFailure env).error = none) :
    Showed addr (w.loginPassword h env lr "") := by
  unfold loginPassword
  dsimp only
  rw [hok]
  dsimp only
  have hconn : (w.validatePassword h env).1.conn = w.conn := by
    unfold validatePassword
    split <;> rfl
  generalize w.validatePassword h env = r at hconn
  obtain ⟨v, ok⟩ := r
  dsimp only at hconn
  cases ok with
  | false =>
    refine Or.inr ?_
    rw [← hshown, ← hconn]
    exact lastShown_tryStartCm _ _ _ _
  | true =>
    have hconn' : ∀ r, (v.updateFailure 0 r true).conn = w.conn := fun _ => hconn
    dsimp only
    rw [if_pos rfl]
    refine showed_logonAndStartCm ?_ ?_ ?_ ?_
    · rw [hconn', ha]
    · rw [hconn', h2]
    · rw [hconn', hs]
    · rw [hconn', ht]

/-- The stage that looks at the credential, on a connection that has stored `lr`. -/
theorem showed_loginCredential {addr : String} (ha : w.conn.authorized = false)
    (h2 : w.conn.require2fa = false) (hs : w.conn.portForwardSocket = none)
    (hlr : w.conn.lr = lr) (ht : lr.target = some addr)
    (hshown : w.conn.portForwardAddress = addr) (hshows : Shows h env lr w) :
    Showed addr (w.loginCredential h env lr (desktopError h env)) := by
  have hw : ({ w with conn := { w.conn with lr := lr } } : World) = w := by rw [← hlr]
  have htw : w.conn.lr.target = some addr := by rw [hlr, ht]
  unfold Shows at hshows
  dsimp only at hshows
  rw [hw] at hshows
  unfold loginCredential
  split
  · exact Or.inl ⟨rfl, hs⟩
  rename_i hoffline
  split
  · refine Or.inr ?_
    rw [← hshown]
    dsimp only
    split <;> exact lastShown_tryStartCm _ _ _ _
  rename_i hclick
  have hrest : desktopError h env = "" ∧ (w.isRecentSession h false = true ∨
      lr.password.isEmpty = true ∨ (w.checkPasswordFailure env).error = none) := by
    rcases hshows with ⟨_, hoff | hby⟩ | hrest
    · exact absurd hoff hoffline
    · exact absurd hby hclick
    · exact hrest
  obtain ⟨hdesk, hcase⟩ := hrest
  rw [hdesk]
  split
  · rw [if_pos rfl]
    exact showed_logonAndStartCm ha h2 hs htw
  rename_i hrecent
  split
  · refine Or.inr ?_
    rw [if_pos rfl, ← hshown]
    exact lastShown_tryStartCm _ _ _ _
  rename_i hempty
  rcases hcase with hr | he | hok
  · exact absurd hr hrecent
  · exact absurd he hempty
  · exact showed_loginPassword ha h2 hs htw hshown hok

/-- A request for a port forward that shows is permitted and shown, or ends the
    connection. -/
theorem showed_onLoginRequest (h : Host) (env : Env) {addr : String}
    (ha : w.conn.authorized = false)
    (h2 : w.conn.require2fa = false) (hs : w.conn.portForwardSocket = none)
    (ht : lr.target = some addr)
    (hshows : permission h env .tunnel w.conn.controlPermissions = true → Shows h env lr w) :
    (w.onLoginRequest h env lr).2 = false ∧
      (w.onLoginRequest h env lr).1.conn.portForwardSocket = none ∨
    permission h env .tunnel w.conn.controlPermissions = true ∧
      (w.onLoginRequest h env lr).1.conn.lastShown = some addr := by
  obtain ⟨pf, hu, haddr⟩ : ∃ pf, lr.union = some (.portForward pf) ∧
      (normalizePortForwardTarget pf).1 = addr := by
    unfold LoginRequest.target at ht
    split at ht
    · rename_i pf hu
      exact ⟨pf, hu, Option.some.inj ht⟩
    · cases ht
  unfold onLoginRequest
  dsimp only
  rw [if_neg (show ¬(w.handleLoginRequestWithoutValidation env lr).conn.authorized = true by
    rw [show (w.handleLoginRequestWithoutValidation env lr).conn.authorized =
      w.conn.authorized from rfl, ha]; decide)]
  unfold loginUnion
  rw [hu]
  dsimp only
  have hcp : (w.handleLoginRequestWithoutValidation env lr).conn.controlPermissions =
    w.conn.controlPermissions := rfl
  rw [hcp]
  by_cases hperm : permission h env .tunnel w.conn.controlPermissions = true
  · rw [if_pos hperm]
    dsimp only
    have hshows := hshows hperm
    have hdesk : ¬(desktopError h env ≠ "" ∧ desktopError h env ≠ desktopSessionNotReady) := by
      rintro ⟨h1, h3⟩
      rcases hshows with ⟨hd | hd, _⟩ | ⟨hd, _⟩
      · exact h1 hd
      · exact h3 hd
      · exact h1 hd
    rw [if_neg hdesk, haddr]
    generalize hv : ({ conn := { (w.handleLoginRequestWithoutValidation env lr).conn with
      portForwardAddress := addr, cmIpcStarted := true }, glob := w.glob } : World) = v
    have hshowed : Showed addr (v.loginCredential h env lr (desktopError h env)) := by
      subst hv
      refine showed_loginCredential ha ?_ hs rfl ht rfl hshows
      change (w.conn.require2fa && _) = false
      rw [h2, Bool.false_and]
    subst hv
    rcases hshowed with hend | hlast
    · exact Or.inl hend
    · exact Or.inr ⟨hperm, hlast⟩
  · rw [if_neg hperm]
    exact Or.inl ⟨rfl, hs⟩

end World

/-! ## Whole runs of a connection -/

namespace Connection

/-- A turn of a connection's loop and the connection it found. -/
abbrev Turn := Connection × (Env × Globals × Arm)

/-- A request for a port forward to `addr` has been received while the tunnel permission
    was given. -/
def Asked (h : Host) (past : List Turn) (addr : String) : Prop :=
  ∃ p ∈ past, ∃ lr, p.1.running = true ∧ p.2.2.2 = .peer (.loginRequest lr) ∧
    lr.target = some addr ∧ permission h p.2.1 .tunnel p.1.controlPermissions = true

/-- If the turn opens a socket, its target was asked for with permission and is the one last shown
    to the connection manager by then. What was shown by then is what was shown when the turn began
    (`Entry.lastShown_eq`). -/
def Gated (h : Host) (p : Connection × List Turn) (x : Env × Globals × Arm) : Prop :=
  ∀ addr, p.1.portForwardSocket ≠ some addr → (p.1.step h x).portForwardSocket = some addr →
    Asked h (p.2 ++ [(p.1, x)]) addr ∧ p.1.lastShown = some addr

/-- Until it is authorized the connection receives no request for a port forward inside a
    `SwitchSidesResponse`, and of those that are permitted none that is not shown, and none that
    logs on by its own credential unless its target is the one last shown. -/
def ShownOnly (h : Host) (c : Connection) (x : Env × Globals × Arm) : Prop :=
  c.running = true → c.authorized = false → match x.2.2 with
    | .peer (.loginRequest lr) => ∀ addr, lr.target = some addr →
        permission h x.1 .tunnel c.controlPermissions = true →
        World.Shows h x.1 lr ⟨c, x.2.1⟩ ∧
          (World.LogsOn h x.1 lr ⟨c, x.2.1⟩ → c.lastShown = some addr)
    | .peer (.switchSidesResponse _ (some lr)) => h.flutter = true → lr.target = none
    | _ => True

/-- Until it is authorized the connection has no socket, and a port forward it has stored
    was asked for with permission and shown. -/
def Pending (h : Host) (p : Connection × List Turn) : Prop :=
  p.1.Sound ∧ (p.1.running = true → p.1.authorized = false → p.1.portForwardSocket = none ∧
    ∀ addr, p.1.lr.target = some addr → Asked h p.2 addr ∧ p.1.lastShown = some addr)

theorem Asked.mono {h : Host} {past more : List Turn} {addr : String} (ha : Asked h past addr) :
    Asked h (past ++ more) addr := by
  obtain ⟨p, hp, hrest⟩ := ha
  exact ⟨p, List.mem_append_left more hp, hrest⟩

end Connection

namespace World

variable {h : Host} {env : Env} {lr : LoginRequest} {w : World}

/-- What a request for a port forward leaves behind if it shows. -/
theorem showed_loginRequest {addr : String} (ha : w.conn.authorized = false)
    (h2 : w.conn.require2fa = false) (hs : w.conn.portForwardSocket = none)
    (ht : lr.target = some addr)
    (hshows : permission h env .tunnel w.conn.controlPermissions = true → Shows h env lr w) :
    ((w.peerMessage h env (.loginRequest lr)).conn.running = false ∧
      (w.peerMessage h env (.loginRequest lr)).conn.portForwardSocket = none) ∨
    permission h env .tunnel w.conn.controlPermissions = true ∧
      (w.peerMessage h env (.loginRequest lr)).conn.lastShown = some addr := by
  have hconn := touchSession_conn env w
  have hcase := showed_onLoginRequest h env (w := w.touchSession env) (by rw [hconn, ha])
    (by rw [hconn, h2]) (by rw [hconn, hs]) ht
    (by rw [hconn, shows_touchSession]; exact hshows)
  rw [hconn] at hcase
  change ((afterMessage ((w.touchSession env).onLoginRequest h env lr)).conn.running = false ∧ _) ∨
    _ ∧ (afterMessage ((w.touchSession env).onLoginRequest h env lr)).conn.lastShown = _
  rcases hcase with ⟨hfalse, hnone⟩ | ⟨hperm, hlast⟩
  · have hleave : afterMessage ((w.touchSession env).onLoginRequest h env lr) =
        ((w.touchSession env).onLoginRequest h env lr).1.leaveLoop := if_pos (Or.inl hfalse)
    refine Or.inl ⟨?_, ?_⟩
    · rw [hleave]
      rfl
    · change (afterMessage ((w.touchSession env).onLoginRequest h env lr)).conn.portForwardSocket
        = none
      rw [hleave]
      exact hnone
  · refine Or.inr ⟨hperm, ?_⟩
    rw [apply_afterMessage (fun w => w.conn.lastShown) fun _ => rfl]
    exact hlast

/-- The socket after the logon response. -/
theorem LoggedOn.socket_eq {a : Arm} {v w' : World} (hl : LoggedOn h env a v w') :
    w'.conn.portForwardSocket = v.connected.conn.portForwardSocket :=
  hl.apply (fun w => w.conn.portForwardSocket) (fun _ => rfl) fun _ => rfl

/-- A turn shows nothing before it comes to the logon response, which opens the socket. -/
theorem Entry.lastShown_eq {a : Arm} {v : World} (he : Entry h env w a v) :
    v.conn.lastShown = w.conn.lastShown := by
  have hconn := touchSession_conn env w
  refine Connection.lastShown_congr ?_
  cases he with
  | password requested _ _ _ _ =>
    refine (congrArg Connection.toCm requested.conn).trans ?_
    rw [← hconn]
    unfold marked
    split <;> rfl
  | switchSides _ _ _ _ =>
    have hcm : (w.touchSession env).conn.toCm = w.conn.toCm := congrArg Connection.toCm hconn
    exact hcm
  | accepted => rfl

end World

namespace Connection

variable {h : Host} {c : Connection} {past : List Turn} {x : Env × Globals × Arm}

/-- A running connection that is not authorized takes one turn: whatever socket it opens was asked
    for, and shown before, and whatever port forward it has stored afterwards is shown. -/
theorem shown_turn (hp : Pending h (c, past)) (hx : ShownOnly h c x) (hr : c.running = true)
    (ha : c.authorized = false) :
    (∀ addr, (c.step h x).portForwardSocket = some addr →
      Asked h (past ++ [(c, x)]) addr ∧ c.lastShown = some addr) ∧
    ((c.step h x).running = true → (c.step h x).authorized = false →
      (c.step h x).portForwardSocket = none ∧ ∀ addr, (c.step h x).lr.target = some addr →
        Asked h (past ++ [(c, x)]) addr ∧ (c.step h x).lastShown = some addr) := by
  obtain ⟨env, g, a⟩ := x
  obtain ⟨hs, htarget⟩ := hp.2 hr ha
  have h2 : c.require2fa = false := hp.1.no2fa
  have hstep : c.step h (env, g, a) = (World.arm h env a ⟨c, g⟩).conn := if_pos hr
  have hx := hx hr ha
  rw [hstep]
  -- A request for a port forward that does not log on is shown, or it ends the connection.
  have hrequest : ∀ lr addr, a = .peer (.loginRequest lr) → lr.target = some addr →
      ((World.arm h env a ⟨c, g⟩).conn.running = false ∧
        (World.arm h env a ⟨c, g⟩).conn.portForwardSocket = none) ∨
      Asked h (past ++ [(c, (env, g, a))]) addr ∧
        (World.arm h env a ⟨c, g⟩).conn.lastShown = some addr := by
    rintro lr addr rfl ht
    rcases World.showed_loginRequest (w := ⟨c, g⟩) ha h2 hs ht
      (fun hperm => (hx addr ht hperm).1) with hend | ⟨hperm, hlast⟩
    · exact Or.inl hend
    · exact Or.inr ⟨⟨_, List.mem_append_right past (List.mem_singleton_self _), lr, hr, rfl, ht,
        hperm⟩, hlast⟩
  rcases World.arm_cases h env a (w := ⟨c, g⟩) h2 with hpass | ⟨lr, hst⟩ | ⟨_, v, hentry, hf | hl⟩
  · have hlr := congrArg (fun w : World => w.conn.lr) hpass.identity_eq
    have hnone : (World.arm h env a ⟨c, g⟩).conn.portForwardSocket = none := by
      rcases hpass.socket with heq | heq
      · exact heq.trans hs
      · exact heq
    refine ⟨fun addr haddr => absurd (hnone.symm.trans haddr) (by simp),
      fun _ _ => ⟨hnone, fun addr haddr => ?_⟩⟩
    have hold : c.lr.target = some addr := (congrArg LoginRequest.target hlr).symm.trans haddr
    obtain ⟨hasked, hlast⟩ := htarget addr hold
    exact ⟨hasked.mono, hpass.lastShown_eq.trans hlast⟩
  · have hsteady := congrArg (fun w : World => w.conn.portForwardSocket) hst.steady_eq
    have hnone : (World.arm h env a ⟨c, g⟩).conn.portForwardSocket = none := hsteady.trans hs
    refine ⟨fun addr haddr => absurd (hnone.symm.trans haddr) (by simp),
      fun hrun _ => ⟨hnone, fun addr haddr => ?_⟩⟩
    cases hst with
    | loginRequest _ request _ =>
      have hlr := congrArg (fun r => r.1.target) request
      rcases hrequest lr addr rfl (hlr.symm.trans haddr) with ⟨hend, _⟩ | hshown
      · rw [hend] at hrun
        cases hrun
      · exact hshown
    | switchSides flutter _ request _ =>
      have hlr := congrArg (fun r => r.1.target) request
      have hno : lr.target = none := hx flutter
      exact absurd (hno.symm.trans (hlr.symm.trans haddr)) (by simp)
  · obtain ⟨addr, sent, heq⟩ := hf
    have hsteady := congrArg (fun w : World => w.conn.portForwardSocket) hentry.steady_eq
    have hnone : v.conn.portForwardSocket = none := hsteady.trans hs
    rw [heq]
    refine ⟨fun addr' haddr => ?_, fun hrun => by cases hrun⟩
    exact absurd (hnone.symm.trans haddr) (by simp)
  · have hsteady := congrArg (fun w : World => w.conn.portForwardSocket) hentry.steady_eq
    have hnone : v.conn.portForwardSocket = none := hsteady.trans hs
    have hauth : (World.arm h env a ⟨c, g⟩).conn.authorized = true :=
      hl.apply (fun w => w.conn.authorized) (fun _ => rfl) fun _ => rfl
    refine ⟨fun addr haddr => ?_, fun _ hn => by rw [hauth] at hn; cases hn⟩
    -- The socket leads to the target of the request that is logged on.
    have hvt : v.conn.lr.target = some addr := by
      rw [hl.socket_eq] at haddr
      cases hvt : v.conn.lr.target with
      | none =>
        rw [World.connected_of_no_target hvt, hnone] at haddr
        cases haddr
      | some addr' =>
        rw [(World.connected_of_target hnone hvt).1] at haddr
        exact haddr
    cases hentry with
    | password requested _ desktop click verified =>
      rw [requested.lr_eq] at hvt
      have hperm : permission h env .tunnel c.controlPermissions = true := by
        have hpermitted := requested.permitted _ (kindPermission_of_target hvt)
        rw [World.touchSession_conn] at hpermitted
        exact hpermitted
      refine ⟨⟨_, List.mem_append_right past (List.mem_singleton_self _), _, hr, rfl, hvt, hperm⟩,
        ?_⟩
      exact (hx addr hvt hperm).2 ⟨desktop, click, verified⟩
    | switchSides flutter _ _ _ => exact absurd (hvt.symm.trans (hx flutter)) (by simp)
    | accepted =>
      obtain ⟨hasked, hlast⟩ := htarget addr hvt
      exact ⟨hasked.mono, hlast⟩

/-- An authorized connection opens no socket. -/
theorem socket_of_authorized (hc : c.Sound) (ha : c.authorized = true) :
    (c.step h x).portForwardSocket = c.portForwardSocket ∨
      (c.step h x).portForwardSocket = none := by
  obtain ⟨env, g, a⟩ := x
  unfold step
  split
  · rcases World.arm_cases h env a (w := ⟨c, g⟩) hc.no2fa with hp | ⟨lr, hs⟩ | ⟨hn, _⟩
    · exact hp.socket
    · have hview := congrArg (fun w : World => w.conn.portForwardSocket) hs.steady_eq
      exact Or.inl hview
    · rw [ha] at hn
      cases hn
  · exact Or.inl rfl

/-- Once authorized, always authorized. -/
theorem authorized_step (hc : c.Sound) (ha : c.authorized = true) :
    (c.step h x).authorized = true := by
  obtain ⟨env, g, a⟩ := x
  unfold step
  split
  · rcases World.arm_authedConnId h env a (w := ⟨c, g⟩) hc.no2fa with
      ⟨hauth, _⟩ | ⟨hn, _⟩
    · exact hauth.trans ha
    · rw [ha] at hn
      cases hn
  · exact ha

theorem gated_turn (hp : Pending h (c, past)) (hx : ShownOnly h c x) : Gated h (c, past) x := by
  intro addr hbefore hafter
  cases hr : c.running with
  | false =>
    have hsame : c.step h x = c := if_neg (by simp [hr])
    exact absurd ((congrArg portForwardSocket hsame).symm.trans hafter) hbefore
  | true =>
    cases ha : c.authorized with
    | false => exact (shown_turn hp hx hr ha).1 addr hafter
    | true =>
      rcases socket_of_authorized (h := h) (x := x) hp.1 ha with heq | heq
      · exact absurd (heq.symm.trans hafter) hbefore
      · exact absurd (heq.symm.trans hafter) (by simp)

theorem pending_turn (hp : Pending h (c, past)) (hx : ShownOnly h c x) :
    Pending h (histStep (step h) (c, past) x) := by
  refine ⟨sound_step x hp.1, fun hr' ha' => ?_⟩
  change (c.step h x).running = true at hr'
  change (c.step h x).authorized = false at ha'
  have hr : c.running = true := by
    by_contra hr
    have hsame : c.step h x = c := if_neg hr
    rw [hsame] at hr'
    exact hr hr'
  have ha : c.authorized = false := by
    by_contra ha
    rw [Bool.not_eq_false] at ha
    rw [authorized_step hp.1 ha] at ha'
    cases ha'
  exact (shown_turn hp hx hr ha).2 hr' ha'

theorem pending_start (h : Host) (env : Env) (id : Int) (ip : IpAddr) (hash : Hash)
    (cp : Option (BitVec 64)) : Pending h (Connection.start h env id ip hash cp, []) :=
  ⟨sound_start h env id ip hash cp, fun _ _ => ⟨rfl, fun addr haddr => by cases haddr⟩⟩

/-- In every run of a connection whose turns all meet the condition, each socket that is
    opened leads to a target that was asked for with permission and is the one last shown when it
    is opened. -/
theorem port_forward_gated (h : Host) (env : Env) (id : Int) (ip : IpAddr) (hash : Hash)
    (cp : Option (BitVec 64)) (xs : List (Env × Globals × Arm))
    (hxs : Along (step h) (ShownOnly h) (Connection.start h env id ip hash cp) xs) :
    Along (histStep (step h)) (Gated h) (Connection.start h env id ip hash cp, []) xs := by
  have hhist : Along (histStep (step h)) (fun p x => ShownOnly h p.1 x)
      (Connection.start h env id ip hash cp, []) xs := (along_histStep []).mpr hxs
  have hpending : Always (histStep (step h)) (Pending h)
      (Connection.start h env id ip hash cp, []) xs :=
    always_of_along (fun _ _ hp hx => pending_turn hp hx) (pending_start h env id ip hash cp) hhist
  refine Always.along (C := fun p x => ShownOnly h p.1 x) ?_ hpending hhist
  exact fun _ _ hp hx => gated_turn hp hx

/-- A connection to the machine of the examples. -/
def sampleStart : Connection :=
  Connection.start .sample .sample 1 (.v4 3232235778) .sample none

/-- A request to be forwarded to the remote desktop port. -/
def rdpRequest : LoginRequest :=
  { LoginRequest.sample "111222333" with union := some (.portForward ⟨"RDP", 0⟩) }

/-- The request is shown, and its peer logs on with the password. -/
def shownForward : List (Env × Globals × Arm) :=
  [(.sample, .init (.new .sample false false false), .peer (.loginRequest rdpRequest)),
    (.sample, .init (.new .sample false false false),
      .peer (.loginRequest { rdpRequest with password := sampleAnswer }))]

theorem port_forward_gated_shown :
    Along (histStep (step .sample)) (Gated .sample) (sampleStart, []) shownForward ∧
    (run (step .sample) sampleStart shownForward).portForwardSocket = some "localhost:3389" := by
  refine ⟨port_forward_gated .sample .sample 1 (.v4 3232235778) .sample none shownForward
    ⟨fun _ _ addr _ _ => ⟨?_, fun hlogs => ?_⟩, fun _ _ addr haddr _ => ⟨?_, fun _ => ?_⟩,
      trivial⟩, by decide +kernel⟩
  · exact Or.inr ⟨by decide +kernel, Or.inr (Or.inl rfl)⟩
  · -- without a password the request does not log on
    rcases hlogs.2.2 with htemporary | hpermanent | ⟨s, hs, _⟩
    · exact absurd htemporary (by decide +kernel)
    · exact absurd hpermanent (by decide +kernel)
    · cases hs
  · exact Or.inr ⟨by decide +kernel, Or.inr (Or.inr (by decide +kernel))⟩
  · have hshown : ((sampleStart.step .sample (.sample, .init (.new .sample false false false),
        .peer (.loginRequest rdpRequest))).lastShown) = some "localhost:3389" := by decide +kernel
    exact hshown.trans haddr

/-- The password alone opens the socket before anything is shown. -/
example : (sampleStart.step .sample (.sample, .init (.new .sample false false false),
    .peer (.loginRequest { rdpRequest with password := sampleAnswer }))).portForwardSocket =
      some "localhost:3389" ∧ sampleStart.lastShown = none := by decide +kernel

/-- The uuid of a switch of sides. -/
def switchUuid : Uuid :=
  ⟨[222, 173, 190, 239, 1, 35, 69, 103, 137, 171, 205, 239, 16, 50, 84, 118], rfl⟩

/-- The same request inside a `SwitchSidesResponse`, on a machine that permits no tunnels
    and has just asked the peer to switch sides. -/
def switchedForward : Env × Globals × Arm :=
  ({ Env.sample with getOption := fun k => if k = "enable-tunnel" then "N" else "" },
    { Globals.init (.new .sample false false false) with
      switchSidesUuid := fun id => if id = "111222333" then some (500, switchUuid) else none },
    .peer (.switchSidesResponse switchUuid.bytes (some rdpRequest)))

/-- The socket is opened, though no such request came as a `LoginRequest` and the tunnel
    permission is off. -/
theorem port_forward_not_gated :
    (sampleStart.step .sample switchedForward).portForwardSocket = some "localhost:3389" ∧
    permission .sample switchedForward.1 .tunnel sampleStart.controlPermissions = false ∧
    ¬Along (histStep (step .sample)) (Gated .sample) (sampleStart, []) [switchedForward] := by
  have hopen : (sampleStart.step .sample switchedForward).portForwardSocket =
      some "localhost:3389" := by decide +kernel
  refine ⟨hopen, by decide +kernel, ?_⟩
  rintro ⟨hgated, _⟩
  obtain ⟨⟨p, hp, lr, _, harm, _⟩, _⟩ := hgated "localhost:3389" (by decide +kernel) hopen
  rw [List.nil_append, List.mem_singleton] at hp
  subst hp
  cases harm

end Connection

end LuodaRemote
