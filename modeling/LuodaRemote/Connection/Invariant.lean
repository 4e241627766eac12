/-
  What every arm keeps true of a connection, read off `arm_cases`.

  `Connection.Sound` is the invariant of a running server: no connection owes a 2FA code
  (`Connection::start` sets `require_2fa` to `None` and nothing sets it again), a connection
  is authorized exactly when it holds an entry of `AUTHED_CONNS`, and one authorized to view
  the camera has its mark set. `arm_uuids` says what an arm does to the switch-sides uuids.
-/
import LuodaRemote.Connection.Dispatch

namespace LuodaRemote

namespace World

/-! ## The outcomes of `arm_cases`, field by field -/

theorem Entry.steady_eq {h : Host} {env : Env} {w v : World} {a : Arm} (he : Entry h env w a v) :
    v.steady = w.steady := by
  cases he with
  | password requested attempted _ _ _ =>
    rw [attempted.steady, requested.steady, steady_touchSession]
  | switchSides _ _ _ _ =>
    rw [← steady_touchSession env w]
    rfl
  | accepted => rfl

theorem Entry.no2fa {h : Host} {env : Env} {w v : World} {a : Arm} (he : Entry h env w a v)
    (h2 : w.conn.require2fa = false) : v.conn.require2fa = false := by
  have htouch : (w.touchSession env).conn.require2fa = false := by rw [touchSession_conn, h2]
  cases he with
  | password requested attempted _ _ _ =>
    have hview := congrArg (fun r => r.2.2.2.1)
      (requested.request_eq _ attempted.glob_eq.1)
    refine hview.trans ?_
    change ((w.touchSession env).conn.require2fa && _) = false
    rw [htouch, Bool.false_and]
  | switchSides _ _ _ _ =>
    change ((w.touchSession env).conn.require2fa && _) = false
    rw [htouch, Bool.false_and]
  | accepted => exact h2

theorem Stored.steady_eq {h : Host} {env : Env} {w w' : World} {a : Arm}
    {lr : LoginRequest} (hs : Stored h env w w' a lr) : w'.steady = w.steady := by
  cases hs with
  | loginRequest steady _ _ => exact steady
  | switchSides _ steady _ _ => exact steady

theorem Stored.no2fa {h : Host} {env : Env} {w w' : World} {a : Arm}
    {lr : LoginRequest} (hs : Stored h env w w' a lr) (h2 : w.conn.require2fa = false) :
    w'.conn.require2fa = false := by
  have hand : (w.conn.require2fa && !trustedDevice env lr) = false := by
    rw [h2, Bool.false_and]
  cases hs with
  | loginRequest _ request _ => exact (congrArg (fun r => r.2.2.2.1) request).trans hand
  | switchSides _ _ request _ => exact (congrArg (fun r => r.2.2.2.1) request).trans hand

theorem Stored.marks_eq {h : Host} {env : Env} {w w' : World} {a : Arm}
    {lr : LoginRequest} (hs : Stored h env w w' a lr) (ha : w.conn.authorized = true) :
    w'.marks = w.marks := by
  cases hs with
  | loginRequest _ _ marks => exact marks ha
  | switchSides _ _ _ marks => exact marks ha

theorem ConnectFailed.steady_eq {v w' : World} (hf : ConnectFailed v w') :
    w'.steady = v.steady := by
  obtain ⟨addr, sent, rfl⟩ := hf
  rfl

/-- What neither the rest of the logon nor its report changes is as `authorize` left it. -/
theorem LoggedOn.apply {α : Sort*} {h : Host} {env : Env} {a : Arm} {v w' : World}
    (hl : LoggedOn h env a v w') (π : World → α) (hset : ∀ w, π w.settled = π w)
    (hview : ∀ w, π w.loginView = π w) : π w' = π v.connected.authorize := by
  have hlogin : π (v.connected.authorize.afterLogin h env) = π v.connected.authorize := by
    rw [← hview, loginView_afterLogin, hview]
  rw [← hset, hl.1, hset, hlogin]

/-- Connecting the port forward changes its address and its socket only. -/
theorem apply_connected {α : Sort*} (π : World → α)
    (hπ : ∀ (w : World) addr, π { w with conn := { w.conn with
      portForwardAddress := addr, portForwardSocket := some addr } } = π w) (w : World) :
    π w.connected = π w := by
  unfold connected
  split
  · exact hπ w _
  · rfl

/-- An arm that may log in keeps what is steady unless it does. -/
theorem login_arm_cases (h : Host) (env : Env) {a : Arm} {w : World} (hl : a.isLogin = true)
    (h2 : w.conn.require2fa = false) :
    (w.arm h env a).steady = w.steady ∨
    (w.conn.authorized = false ∧ ∃ v, Entry h env w a v ∧ LoggedOn h env a v (w.arm h env a)) := by
  have hends : ∀ v, w.conn.authorized = false → Entry h env w a v →
      ConnectFailed v (w.arm h env a) ∨ LoggedOn h env a v (w.arm h env a) →
      (w.arm h env a).steady = w.steady ∨
      (w.conn.authorized = false ∧ ∃ v, Entry h env w a v ∧
        LoggedOn h env a v (w.arm h env a)) := by
    rintro v ha he (hf | hl)
    · exact Or.inl (hf.steady_eq.trans he.steady_eq)
    · exact Or.inr ⟨ha, v, he, hl⟩
  cases a with
  | peer msg =>
    cases msg with
    | loginRequest lr =>
      rcases loginRequest_arm_cases h env lr h2 with hs | ⟨ha, v, he, hend⟩
      · exact Or.inl hs.steady_eq
      · exact hends v ha he hend
    | switchSidesResponse bytes lr =>
      rcases switchSides_arm_cases h env bytes lr h2 with ⟨_, hs⟩ | ⟨l, hs⟩ | ⟨ha, v, he, hend⟩
      · exact Or.inl hs
      · exact Or.inl hs.steady_eq
      · exact hends v ha he hend
    | auth2fa code hwid =>
      have h2' : (w.touchSession env).conn.require2fa = false := by
        rw [touchSession_conn, h2]
      obtain ⟨sent, heq⟩ := onAuth2fa_without_2fa h env code h2'
      refine Or.inl ?_
      change (afterMessage ((w.touchSession env).onAuth2fa h env code)).steady = _
      rw [apply_afterMessage steady fun _ => rfl, heq, ← steady_touchSession env w]
      rfl
    | _ => cases hl
  | cm data =>
    cases data with
    | authorize =>
      rcases authorize_arm_cases h env h2 with ⟨_, hs⟩ | ⟨ha, hend⟩
      · exact Or.inl hs
      · exact hends w ha .accepted hend
    | _ => cases hl
  | _ => cases hl

end World

/-! ## The invariant of one connection -/

/-- What holds of a connection of the server at any time. -/
structure Connection.Sound (c : Connection) : Prop where
  no2fa : c.require2fa = false
  authed : c.authedConnId.isSome = c.authorized
  camera : c.authedConnId = some .viewCamera → c.viewCamera = true

theorem Connection.sound_start (h : Host) (env : Env) (id : Int) (ip : IpAddr) (hash : Hash)
    (cp : Option (BitVec 64)) : (Connection.start h env id ip hash cp).Sound :=
  ⟨rfl, rfl, fun hnone => by cases hnone⟩

theorem Connection.viewCamera_of_authConnType {c : Connection}
    (hc : c.authConnType = .viewCamera) : c.viewCamera = true := by
  unfold authConnType at hc
  split_ifs at hc with _ _ hv
  exact hv

namespace World

variable {h : Host} {env : Env} {a : Arm} {w : World}

theorem arm_id (h : Host) (env : Env) (a : Arm) (h2 : w.conn.require2fa = false) :
    (w.arm h env a).conn.id = w.conn.id := by
  rcases arm_cases h env a h2 with hp | ⟨lr, hs⟩ | ⟨_, v, he, hf | hl⟩
  · have hview := congrArg (fun w : World => w.conn.id) hp.identity_eq
    exact hview
  · have hview := congrArg (fun w : World => w.conn.id) hs.steady_eq
    exact hview
  · have hview := congrArg (fun w : World => w.conn.id) (hf.steady_eq.trans he.steady_eq)
    exact hview
  · have hview := congrArg (fun w : World => w.conn.id) he.steady_eq
    rw [hl.apply (fun w => w.conn.id) (fun _ => rfl) fun _ => rfl]
    exact (apply_connected (fun w => w.conn.id) (fun _ _ => rfl) v).trans hview

theorem arm_no2fa (h2 : w.conn.require2fa = false) : (w.arm h env a).conn.require2fa = false := by
  rcases arm_cases h env a h2 with hp | ⟨lr, hs⟩ | ⟨_, v, he, hf | hl⟩
  · have hview := congrArg (fun w : World => w.conn.require2fa) hp.identity_eq
    exact hview.trans h2
  · exact hs.no2fa h2
  · obtain ⟨addr, sent, heq⟩ := hf
    rw [heq]
    exact he.no2fa h2
  · rw [hl.apply (fun w => w.conn.require2fa) (fun _ => rfl) fun _ => rfl]
    exact (apply_connected (fun w => w.conn.require2fa) (fun _ _ => rfl) v).trans (he.no2fa h2)

/-- The kind a connection is authorized as does not change, and a connection that is not
    authorized stays so or gets the kind its marks call for. -/
theorem arm_authedConnId (h : Host) (env : Env) (a : Arm) (h2 : w.conn.require2fa = false) :
    ((w.arm h env a).conn.authorized = w.conn.authorized ∧
      (w.arm h env a).conn.authedConnId = w.conn.authedConnId) ∨
    (w.conn.authorized = false ∧ ∃ v, Entry h env w a v ∧ LoggedOn h env a v (w.arm h env a)) := by
  rcases arm_cases h env a h2 with hp | ⟨lr, hs⟩ | ⟨ha, v, he, hf | hl⟩
  · have hview := congrArg (fun w : World => (w.conn.authorized, w.conn.authedConnId))
      hp.identity_eq
    exact Or.inl (Prod.mk.inj hview)
  · have hview := congrArg (fun w : World => (w.conn.authorized, w.conn.authedConnId))
      hs.steady_eq
    exact Or.inl (Prod.mk.inj hview)
  · have hview := congrArg (fun w : World => (w.conn.authorized, w.conn.authedConnId))
      (hf.steady_eq.trans he.steady_eq)
    exact Or.inl (Prod.mk.inj hview)
  · exact Or.inr ⟨ha, v, he, hl⟩

/-- An authorized connection keeps its marks. -/
theorem arm_marks (h : Host) (env : Env) (a : Arm) (h2 : w.conn.require2fa = false)
    (ha : w.conn.authorized = true) :
    (w.arm h env a).marks = w.marks := by
  rcases arm_cases h env a h2 with hp | ⟨lr, hs⟩ | ⟨hn, _⟩
  · have hview := congrArg marks hp.identity_eq
    exact hview
  · exact hs.marks_eq ha
  · rw [ha] at hn
    cases hn

theorem arm_sound (hc : w.conn.Sound) : (w.arm h env a).conn.Sound := by
  refine ⟨arm_no2fa hc.no2fa, ?_, ?_⟩
  · rcases arm_authedConnId h env a hc.no2fa with ⟨hauth, hid⟩ | ⟨_, v, _, hl⟩
    · rw [hauth, hid, hc.authed]
    · have hview := hl.apply (fun w => (w.conn.authorized, w.conn.authedConnId)) (fun _ => rfl)
        fun _ => rfl
      obtain ⟨hauth, hid⟩ := Prod.mk.inj hview
      rw [hauth, hid]
      rfl
  · intro hkind
    rcases arm_authedConnId h env a hc.no2fa with ⟨_, hid⟩ | ⟨_, v, _, hl⟩
    · rw [hid] at hkind
      have ha : w.conn.authorized = true := by rw [← hc.authed, hkind]; rfl
      have hview := congrArg (fun m => m.2.1) (arm_marks h env a hc.no2fa ha)
      exact hview.trans (hc.camera hkind)
    · have hview := hl.apply (fun w => (w.conn.authedConnId, w.conn.viewCamera)) (fun _ => rfl)
        fun _ => rfl
      obtain ⟨hid, hcamera⟩ := Prod.mk.inj hview
      rw [hid] at hkind
      rw [hcamera]
      exact Connection.viewCamera_of_authConnType (Option.some.inj hkind)

/-! ## The switch-sides uuids -/

theorem uuids_of_uuidsAfter {id k : String} {v : Nat × Uuid}
    (hv : w.uuidsAfter env id k = some v) : w.glob.switchSidesUuid k = some v := by
  unfold uuidsAfter at hv
  by_cases hk : k = id
  · rw [hk, Function.update_self] at hv
    cases hv
  · rw [Function.update_of_ne hk] at hv
    exact (Option.filter_eq_some_iff.mp hv).1

theorem uuidsAfter_touchSession (id : String) :
    (w.touchSession env).uuidsAfter env id = w.uuidsAfter env id := by
  obtain ⟨times, heq⟩ := touchSession_glob env w
  unfold uuidsAfter
  rw [heq]

theorem LoggedOn.uuids_eq {v w' : World} (hl : LoggedOn h env a v w') :
    w'.glob.switchSidesUuid = v.glob.switchSidesUuid :=
  (hl.apply (fun w => w.glob.switchSidesUuid) (fun _ => rfl) fun _ => rfl).trans
    (apply_connected (fun w => w.glob.switchSidesUuid) (fun _ _ => rfl) v)

/-- On the way to the logon response the uuids are looked at by a `SwitchSidesResponse`
    only, which takes the requester's. -/
theorem Entry.uuids_eq {v : World} (he : Entry h env w a v) :
    v.glob.switchSidesUuid = match a with
      | .peer (.switchSidesResponse _ (some lr)) => w.uuidsAfter env lr.myId
      | _ => w.glob.switchSidesUuid := by
  cases he with
  | password _ attempted _ _ _ =>
    obtain ⟨times, heq⟩ := touchSession_glob env w
    rw [attempted.glob_eq.1, heq]
  | switchSides _ _ _ _ => exact uuidsAfter_touchSession _
  | accepted => rfl

/-- No arm stores a uuid. -/
theorem arm_uuids (h2 : w.conn.require2fa = false) {k : String} {u : Nat × Uuid}
    (hu : (w.arm h env a).glob.switchSidesUuid k = some u) :
    w.glob.switchSidesUuid k = some u := by
  have hentry : ∀ {v}, Entry h env w a v → v.glob.switchSidesUuid k = some u →
      w.glob.switchSidesUuid k = some u := by
    intro v he hv
    rw [he.uuids_eq] at hv
    split at hv
    · exact uuids_of_uuidsAfter hv
    · exact hv
  rcases arm_cases h env a h2 with hp | ⟨lr, hs⟩ | ⟨ha, v, he, hf | hl⟩
  · have hview := congrArg (fun w : World => w.glob.switchSidesUuid k) hp.identity_eq
    exact hview.symm.trans hu
  · cases hs with
    | loginRequest _ request _ =>
      have hview := congrArg (fun r => r.2.2.2.2 k) request
      exact hview.symm.trans hu
    | switchSides _ _ request _ =>
      have hview := congrArg (fun r => r.2.2.2.2 k) request
      exact uuids_of_uuidsAfter (hview.symm.trans hu)
  · obtain ⟨addr, sent, heq⟩ := hf
    rw [heq] at hu
    exact hentry he hu
  · rw [hl.uuids_eq] at hu
    exact hentry he hu

end World

/-! ## A connection by itself -/

/-- One turn of a connection's loop, with the shared state it finds. -/
def Connection.step (h : Host) (c : Connection) (x : Env × Globals × Arm) : Connection :=
  if c.running then (World.arm h x.1 x.2.2 ⟨c, x.2.1⟩).conn else c

theorem Connection.sound_step {h : Host} {c : Connection} (x : Env × Globals × Arm)
    (hc : c.Sound) : (c.step h x).Sound := by
  unfold step
  split
  · exact World.arm_sound (w := ⟨c, x.2.1⟩) hc
  · exact hc

end LuodaRemote
