/-
  The kind a connection is authorized as, over a sequence of login requests.

  A request for a file transfer, the camera or a terminal marks the connection before its
  password is looked at, and no later request takes the mark away;
  `send_logon_response_and_keep_alive` then picks the kind from the marks by a fixed
  priority. `authorized_kind_iff`: the recorded kind is the one that was last asked for, and
  the only one set, exactly when no earlier request left a mark of another kind.
-/
import LuodaRemote.Credential

namespace LuodaRemote
open Lib

/-! ## Kinds and marks -/

/-- The kind of session a request asks for. -/
def LoginRequest.kind (lr : LoginRequest) : AuthConnType :=
  match lr.union with
  | some (.fileTransfer ..) => .fileTransfer
  | some (.portForward _) => .portForward
  | some .viewCamera => .viewCamera
  | some (.terminal _) => .terminal
  | none => .remote

/-- The kinds that `on_message` notes on the connection as soon as they are permitted. -/
def AuthConnType.marking : AuthConnType → Bool
  | .fileTransfer | .viewCamera | .terminal => true
  | .remote | .portForward => false

/-- Which of `file_transfer`, `view_camera`, `terminal` and `port_forward_socket` are set. -/
def Connection.hasMark (c : Connection) : AuthConnType → Bool
  | .fileTransfer => c.fileTransfer.isSome
  | .portForward => c.portForwardSocket.isSome
  | .viewCamera => c.viewCamera
  | .terminal => c.terminal
  | .remote => false

/-- A connection with no mark but the one of `kind` is of that kind. -/
theorem Connection.authConnType_eq {c : Connection} {kind : AuthConnType}
    (honly : ∀ k, c.hasMark k = true → k = kind)
    (hset : kind ≠ .remote → c.hasMark kind = true) : c.authConnType = kind := by
  unfold authConnType
  split
  · rename_i hm
    exact honly .fileTransfer hm
  split
  · rename_i hm
    exact honly .portForward hm
  split
  · rename_i hm
    exact honly .viewCamera hm
  split
  · rename_i hm
    exact honly .terminal hm
  · rename_i hf hp hv ht
    cases kind with
    | remote => rfl
    | fileTransfer => exact absurd (hset (by decide)) hf
    | portForward => exact absurd (hset (by decide)) hp
    | viewCamera => exact absurd (hset (by decide)) hv
    | terminal => exact absurd (hset (by decide)) ht

/-- A connection with a mark is not remote. -/
theorem Connection.authConnType_ne_remote {c : Connection} {k : AuthConnType}
    (hk : c.hasMark k = true) : c.authConnType ≠ .remote := by
  unfold authConnType
  split
  · exact (by decide)
  split
  · exact (by decide)
  split
  · exact (by decide)
  split
  · exact (by decide)
  · cases k <;> contradiction

/-! ## One login request -/

namespace World

variable {h : Host} {env : Env} {lr : LoginRequest} {w : World}

/-- The marks with which the credential of a request is looked at. -/
theorem Requested.hasMark_eq {c : Connection} (hc : Requested h env lr w c)
    (k : AuthConnType) :
    c.hasMark k = (w.conn.hasMark k || lr.kind == k && k.marking) := by
  have hconn := congrArg (fun c : Connection => c.hasMark k) hc.conn
  have hview : (sansTerminal c).hasMark k = c.hasMark k := by cases k <;> rfl
  refine (hview.symm.trans hconn).trans ?_
  unfold marked LoginRequest.kind
  rcases lr.union with _ | ⟨dir, showHidden⟩ | pf | _ | serviceId <;> cases k <;>
    simp [Connection.hasMark, sansTerminal, handleLoginRequestWithoutValidation,
      AuthConnType.marking]

/-- Connecting adds the mark of a port forward if that is what was asked for. -/
theorem hasMark_connected (hs : w.conn.portForwardSocket = none) (k : AuthConnType) :
    w.connected.conn.hasMark k =
      (w.conn.hasMark k || w.conn.lr.kind == k && k == .portForward) := by
  unfold connected LoginRequest.kind
  rw [hs]
  rcases w.conn.lr.union with _ | ⟨dir, showHidden⟩ | pf | _ | serviceId <;> cases k <;>
    simp [Connection.hasMark, hs]

/-- A request that does not authorize ends the loop or adds its mark; one that does settles
    the kind by the marks, its own included. -/
theorem loginRequest_marks (h : Host) (env : Env) (lr : LoginRequest)
    (h2 : w.conn.require2fa = false) (ha : w.conn.authorized = false)
    (hs : w.conn.portForwardSocket = none) :
    let c' := (w.peerMessage h env (.loginRequest lr)).conn
    (c'.authorized = false ∧ (c'.running = false ∨
      ∀ k, c'.hasMark k = (w.conn.hasMark k || lr.kind == k && k.marking))) ∨
    (c'.authorized = true ∧ c'.authedConnId = some c'.authConnType ∧
      ∀ k, c'.hasMark k = (w.conn.hasMark k || lr.kind == k && k != .remote)) := by
  intro c'
  have hconn := touchSession_conn env w
  have hc' : c' = (afterMessage ((w.touchSession env).onLoginRequest h env lr)).conn := rfl
  have hsteady : ∀ {c : Connection}, Requested h env lr (w.touchSession env) c →
      c.authorized = false ∧ c.portForwardSocket = none ∧
        ∀ k, c.hasMark k = (w.conn.hasMark k || lr.kind == k && k.marking) := by
    intro c hreq
    have hview := congrArg (fun w : World => (w.conn.authorized, w.conn.portForwardSocket))
      hreq.steady
    obtain ⟨h1, h3⟩ := Prod.mk.inj hview
    refine ⟨h1.trans ?_, h3.trans ?_, fun k => ?_⟩
    · rw [← ha, ← hconn]
      rfl
    · rw [← hs, ← hconn]
      rfl
    · rw [hreq.hasMark_eq, hconn]
  rw [hc']
  rcases onLoginRequest_cases h env lr (w.touchSession env) with ⟨hauth, _⟩ |
    ⟨_, hfalse, _, hst, _⟩ | ⟨c, hreq, sent, shown, g, _, heq⟩ | ⟨c, g, hreq, hg, _, _, _, heq⟩
  · rw [hconn, ha] at hauth
    cases hauth
  · -- The kind is refused, and with it the connection.
    have hleave : afterMessage ((w.touchSession env).onLoginRequest h env lr) =
        ((w.touchSession env).onLoginRequest h env lr).1.leaveLoop :=
      if_pos (Or.inl hfalse)
    have hview := congrArg (fun w : World => w.conn.authorized) hst
    rw [hleave]
    refine Or.inl ⟨hview.trans ?_, Or.inl rfl⟩
    exact (congrArg Connection.authorized hconn).trans ha
  · obtain ⟨hca, hcs, hmarks⟩ := hsteady hreq
    refine Or.inl ⟨?_, Or.inr fun k => ?_⟩
    · rw [apply_afterMessage (fun w => w.conn.authorized) fun _ => rfl, heq]
      exact hca
    · rw [apply_afterMessage (fun w => w.conn.hasMark k) fun _ => by cases k <;> rfl, heq,
        ← hmarks k]
      cases k <;> rfl
  · obtain ⟨hca, hcs, hmarks⟩ := hsteady hreq
    have hc2 : c.require2fa = false := by
      have hview := congrArg (fun r => r.2.2.2.1) (hreq.request_eq g hg.glob_eq.1)
      refine hview.trans ?_
      change ((w.touchSession env).conn.require2fa && _) = false
      rw [hconn, h2, Bool.false_and]
    rw [heq]
    rcases logonAndStartCm_ends h env (.peer (.loginRequest lr)) lr (v := ⟨c, g⟩) hca hc2 with
      ⟨addr, sent, hfail⟩ | hl
    · rw [hfail]
      exact Or.inl ⟨hca, Or.inl rfl⟩
    · have hview := hl.apply (fun w => (w.conn.authorized, w.conn.authedConnId,
        w.conn.authConnType)) (fun _ => rfl) fun _ => rfl
      obtain ⟨hauth, hkind⟩ := Prod.mk.inj hview
      obtain ⟨hkind, htype⟩ := Prod.mk.inj hkind
      refine Or.inr ⟨hauth, ?_, fun k => ?_⟩
      · rw [hkind, htype]
        rfl
      · have hmark := hl.apply (fun w => w.conn.hasMark k) (fun _ => by cases k <;> rfl)
          fun _ => by cases k <;> rfl
        have hsame : (World.mk c g).connected.authorize.conn.hasMark k =
            (World.mk c g).connected.conn.hasMark k := by cases k <;> rfl
        have hother : (k.marking || k == .portForward) = (k != .remote) := by cases k <;> rfl
        rw [hmark, hsame, hasMark_connected (w := ⟨c, g⟩) hcs, hmarks, hreq.lr_eq,
          Bool.or_assoc, ← Bool.and_or_distrib_left, hother]

end World

/-! ## Sequences of login requests -/

/-- A login request on the connection, with the machine and the shared state of the
    moment. -/
def Connection.loginStep (h : Host) (c : Connection) (x : Env × Globals × LoginRequest) :
    Connection :=
  c.step h (x.1, x.2.1, .peer (.loginRequest x.2.2))

/-- As long as the connection runs without being authorized, its marks are those of the
    requests it has had. -/
def Connection.MarkedBy (xs : List (Env × Globals × LoginRequest)) (c : Connection) : Prop :=
  c.Sound ∧ (c.authorized = false → c.running = true →
    ∀ k, c.hasMark k = xs.any fun x => x.2.2.kind == k && k.marking)

theorem Connection.markedBy_start (h : Host) (env : Env) (id : Int) (ip : IpAddr) (hash : Hash)
    (cp : Option (BitVec 64)) : (Connection.start h env id ip hash cp).MarkedBy [] :=
  ⟨Connection.sound_start h env id ip hash cp, fun _ _ k => by cases k <;> rfl⟩

theorem Connection.portForwardSocket_of_markedBy {xs : List (Env × Globals × LoginRequest)}
    {c : Connection} (hmarks : ∀ k, c.hasMark k = xs.any fun x => x.2.2.kind == k && k.marking) :
    c.portForwardSocket = none := by
  have hpf := hmarks .portForward
  rw [List.any_eq_false.mpr (by simp [AuthConnType.marking])] at hpf
  simpa [hasMark] using hpf

theorem Connection.markedBy_step {h : Host} {xs : List (Env × Globals × LoginRequest)}
    {c : Connection} (x : Env × Globals × LoginRequest) (hc : c.MarkedBy xs) :
    (c.loginStep h x).MarkedBy (xs ++ [x]) := by
  refine ⟨Connection.sound_step _ hc.1, fun ha' hr' k => ?_⟩
  cases hr : c.running with
  | false =>
    have hsame : c.loginStep h x = c := if_neg (by simp [hr])
    rw [hsame, hr] at hr'
    cases hr'
  | true =>
    have hstep : c.loginStep h x =
        (World.peerMessage h x.1 (.loginRequest x.2.2) ⟨c, x.2.1⟩).conn := if_pos hr
    have ha : c.authorized = false := by
      rcases World.arm_authedConnId h x.1 (.peer (.loginRequest x.2.2)) (w := ⟨c, x.2.1⟩)
          hc.1.no2fa with
        ⟨hsame, _⟩ | ⟨hn, _⟩
      · rw [hstep] at ha'
        exact hsame.symm.trans ha'
      · exact hn
    have hmarks := hc.2 ha hr
    rw [hstep] at ha' hr' ⊢
    rcases World.loginRequest_marks h x.1 x.2.2 (w := ⟨c, x.2.1⟩)
      hc.1.no2fa ha (portForwardSocket_of_markedBy hmarks) with ⟨_, hend | hnew⟩ | ⟨hauth, _⟩
    · rw [hend] at hr'
      cases hr'
    · rw [hnew k]
      change (c.hasMark k || _) = _
      rw [hmarks k, List.any_append]
      simp
    · rw [hauth] at ha'
      cases ha'

theorem Connection.markedBy_run (h : Host) {c : Connection}
    (ys xs : List (Env × Globals × LoginRequest)) (hc : c.MarkedBy ys) :
    (run (Connection.loginStep h) c xs).MarkedBy (ys ++ xs) := by
  induction xs generalizing c ys with
  | nil => simpa using hc
  | cons x xs ih =>
    have hnext := ih (ys ++ [x]) (Connection.markedBy_step (h := h) x hc)
    rwa [List.append_assoc, List.singleton_append] at hnext

/-- A connection that the request `lr` authorized has one kind set, the recorded one, which is the
    one of the request whose password was right. -/
def KindAgrees (h : Host) (env : Env) (lr : LoginRequest) (w : World) (c' : Connection) : Prop :=
  (∀ k k', c'.hasMark k = true → c'.hasMark k' = true → k = k') ∧
    c'.authedConnId = some lr.kind ∧ w.passwordAccepted h env lr = true

/-- After any sequence of login requests that ends with the authorization of the last, the
    kind agrees exactly when each earlier request for a file transfer, the camera or a
    terminal was of that kind too. -/
theorem authorized_kind_iff (h : Host) (env : Env) (id : Int) (ip : IpAddr) (hash : Hash)
    (cp : Option (BitVec 64)) (xs : List (Env × Globals × LoginRequest))
    (x : Env × Globals × LoginRequest) (c : Connection)
    (hc : c = run (Connection.loginStep h) (Connection.start h env id ip hash cp) xs)
    (ha : c.authorized = false) (ha' : (c.loginStep h x).authorized = true) :
    KindAgrees h x.1 x.2.2 ⟨c, x.2.1⟩ (c.loginStep h x) ↔
      ∀ y ∈ xs, y.2.2.kind.marking = true → y.2.2.kind = x.2.2.kind := by
  have hmarked : c.MarkedBy xs := by
    have hrun := Connection.markedBy_run h [] xs (Connection.markedBy_start h env id ip hash cp)
    rwa [List.nil_append, ← hc] at hrun
  have hr : c.running = true := by
    cases hr : c.running with
    | true => rfl
    | false =>
      have hsame : c.loginStep h x = c := if_neg (by simp [hr])
      rw [hsame, ha] at ha'
      cases ha'
  have hmarks := hmarked.2 ha hr
  have hstep : c.loginStep h x =
      (World.peerMessage h x.1 (.loginRequest x.2.2) ⟨c, x.2.1⟩).conn := if_pos hr
  have haccepted : World.passwordAccepted h x.1 x.2.2 ⟨c, x.2.1⟩ = true := by
    rw [hstep] at ha'
    rcases World.arm_credential (a := .peer (.loginRequest x.2.2)) (w := ⟨c, x.2.1⟩) hmarked.1 ha
      ha' with hno | hcred
    · cases hno
    · generalize (World.arm h x.1 (.peer (.loginRequest x.2.2)) ⟨c, x.2.1⟩).conn.lr = l at hcred
      cases hcred with
      | password _ accepted => exact accepted
  rw [hstep] at ha' ⊢
  rcases World.loginRequest_marks h x.1 x.2.2 (w := ⟨c, x.2.1⟩)
    hmarked.1.no2fa ha (Connection.portForwardSocket_of_markedBy hmarks) with
    ⟨hn, _⟩ | ⟨_, hkind, hset⟩
  · rw [hn] at ha'
    cases ha'
  generalize (World.peerMessage h x.1 (.loginRequest x.2.2) ⟨c, x.2.1⟩).conn = c' at hkind hset
  have hset : ∀ k, c'.hasMark k = true ↔
      (∃ y ∈ xs, y.2.2.kind = k ∧ k.marking = true) ∨ x.2.2.kind = k ∧ k ≠ .remote := by
    intro k
    rw [hset k]
    change (c.hasMark k || _) = true ↔ _
    rw [hmarks k]
    simp
  unfold KindAgrees
  rw [hkind, Option.some.injEq]
  constructor
  · rintro ⟨hone, htype, _⟩ y hy hym
    have hym' : c'.hasMark y.2.2.kind = true := (hset _).mpr (Or.inl ⟨y, hy, rfl, hym⟩)
    have hremote : x.2.2.kind ≠ .remote := by
      rw [← htype]
      exact Connection.authConnType_ne_remote hym'
    exact hone _ _ hym' ((hset _).mpr (Or.inr ⟨rfl, hremote⟩))
  · intro hall
    have honly : ∀ k, c'.hasMark k = true → k = x.2.2.kind := by
      intro k hk
      rcases (hset k).mp hk with ⟨y, hy, rfl, hm⟩ | ⟨rfl, _⟩
      · exact hall y hy hm
      · rfl
    refine ⟨fun k k' hk hk' => (honly k hk).trans (honly k' hk').symm, ?_, haccepted⟩
    exact Connection.authConnType_eq honly fun hne => (hset _).mpr (Or.inr ⟨rfl, hne⟩)

/-- A request for `union`, with the password of the machine or without one. -/
def loginFor (union : Option LoginUnion) (password : Bytes) : Env × Globals × LoginRequest :=
  (.sample, .init (.new .sample false false false),
    { LoginRequest.sample "111222333" with union := union, password := password })

/-- The connection after a request for a file transfer that had no password. -/
def askedForFiles : Connection :=
  run (Connection.loginStep .sample)
    (Connection.start .sample .sample 1 (.v4 3232235778) .sample none)
    [loginFor (some (.fileTransfer "" false)) []]

theorem authorized_kind_iff_same_kind :
    KindAgrees .sample .sample (loginFor (some (.fileTransfer "" false)) sampleAnswer).2.2
      ⟨askedForFiles, (loginFor none []).2.1⟩
      (askedForFiles.loginStep .sample
        (loginFor (some (.fileTransfer "" false)) sampleAnswer)) :=
  (authorized_kind_iff .sample .sample 1 (.v4 3232235778) .sample none
    [loginFor (some (.fileTransfer "" false)) []]
    (loginFor (some (.fileTransfer "" false)) sampleAnswer) askedForFiles rfl
    (by decide +kernel) (by decide +kernel)).mpr (by simp [loginFor, LoginRequest.kind])

/-- The next request asks for the remote desktop with the right password, and is authorized
    as a file transfer. -/
theorem kind_of_earlier_request :
    askedForFiles.authorized = false ∧
    (askedForFiles.loginStep .sample (loginFor none sampleAnswer)).authorized = true ∧
    ¬KindAgrees .sample .sample (loginFor none sampleAnswer).2.2
      ⟨askedForFiles, (loginFor none []).2.1⟩
      (askedForFiles.loginStep .sample (loginFor none sampleAnswer)) := by
  refine ⟨by decide +kernel, by decide +kernel, ?_⟩
  rintro ⟨_, hkind, _⟩
  have hfile : (askedForFiles.loginStep .sample (loginFor none sampleAnswer)).authedConnId =
      some .fileTransfer := by decide +kernel
  rw [hfile] at hkind
  exact absurd hkind (by decide)

end LuodaRemote
