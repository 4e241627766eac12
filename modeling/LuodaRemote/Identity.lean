/-
  The identity of an authorized connection: the session key, the cursor colour and the
  version that later steps take from `self.lr`, against the key under which `AUTHED_CONNS`
  recorded the connection.

  `LoginRequest` and, in Flutter builds, `SwitchSidesResponse` replace `self.lr` before they
  look at `authorized`. So the identity is not fixed for good, and `identity_fixed_iff` says
  when it is: precisely as long as every such request names the same peer, session, colour
  and version again.
-/
import LuodaRemote.System

namespace LuodaRemote
open Lib

/-- What later steps read from a stored request. -/
def LoginRequest.peerIdentity (lr : LoginRequest) : SessionKey × BitVec 32 × String :=
  (lr.sessionKey, lr.argb, lr.version)

def Connection.peerIdentity (c : Connection) : SessionKey × BitVec 32 × String :=
  (c.sessionKey, c.peerArgb, c.lr.version)

/-- The request an arm stores in `self.lr`, whatever the state of the connection. -/
def Arm.newRequest (h : Host) : Arm → Option LoginRequest
  | .peer (.loginRequest lr) => some lr
  | .peer (.switchSidesResponse _ lr) => if h.flutter then lr else none
  | _ => none

/-! ## One arm of an authorized connection -/

namespace World

variable {h : Host} {env : Env} {a : Arm} {w : World}

theorem Passive.peerIdentity_eq {w' : World} (hp : Passive env w w') :
    w'.conn.peerIdentity = w.conn.peerIdentity := by
  have hview := congrArg (fun w : World => w.conn.peerIdentity) hp.identity_eq
  exact hview

/-- An authorized connection takes the identity of the request it is sent. -/
theorem arm_peerIdentity (h2 : w.conn.require2fa = false) (ha : w.conn.authorized = true) :
    (w.arm h env a).conn.peerIdentity =
      ((a.newRequest h).map LoginRequest.peerIdentity).getD w.conn.peerIdentity := by
  have hconn := touchSession_conn env w
  have ha' : (w.touchSession env).conn.authorized = true := by rw [hconn, ha]
  have hleave : ∀ r : World × Bool,
      (afterMessage r).conn.peerIdentity = r.1.conn.peerIdentity :=
    apply_afterMessage (fun w => w.conn.peerIdentity) fun _ => rfl
  by_cases hl : a.isLogin
  · cases a with
    | peer msg =>
      cases msg with
      | loginRequest lr =>
        change (afterMessage ((w.touchSession env).onLoginRequest h env lr)).conn.peerIdentity
          = _
        have heq : (w.touchSession env).onLoginRequest h env lr =
            ((w.touchSession env).handleLoginRequestWithoutValidation env lr, true) :=
          if_pos ha'
        rw [hleave, heq]
        rfl
      | switchSidesResponse bytes lr =>
        change (afterMessage
          ((w.touchSession env).onSwitchSidesResponse h env bytes lr)).conn.peerIdentity = _
        rw [hleave]
        rcases onSwitchSidesResponse_cases h env bytes lr (w.touchSession env) with
          ⟨heq, hno⟩ | ⟨l, hf, rfl, heq⟩ | ⟨l, t, uuid, hf, rfl, _, _, _, heq⟩
        · have hnone : (Arm.peer (.switchSidesResponse bytes lr)).newRequest h = none := by
            rcases hno with hf | rfl
            · simp [Arm.newRequest, hf]
            · simp [Arm.newRequest]
          rw [heq, hnone]
          exact congrArg Connection.peerIdentity hconn
        · rw [heq]
          simp only [Arm.newRequest, hf]
          rfl
        · have hreq := (logonFromSwitch_authorized h env l
            (w := (w.touchSession env).switching env l) ha').2.1
          have hview := congrArg (fun r => (r.1.sessionKey, r.2.1, r.1.version)) hreq
          rw [heq]
          simp only [Arm.newRequest, hf]
          exact hview
      | auth2fa code hwid =>
        have h2' : (w.touchSession env).conn.require2fa = false := by rw [hconn, h2]
        obtain ⟨sent, heq⟩ := onAuth2fa_without_2fa h env code h2'
        change (afterMessage ((w.touchSession env).onAuth2fa h env code)).conn.peerIdentity = _
        have hview := congrArg Connection.peerIdentity hconn
        rw [hleave, heq]
        exact hview
      | _ => cases hl
    | cm data =>
      cases data with
      | authorize =>
        rcases authorize_arm_cases h env h2 with ⟨hp, _⟩ | ⟨hn, _⟩
        · exact hp.peerIdentity_eq
        · rw [ha] at hn
          cases hn
      | _ => cases hl
    | _ => cases hl
  · have hnone : a.newRequest h = none := by
      unfold Arm.newRequest
      split
      · exact absurd rfl hl
      · exact absurd rfl hl
      · rfl
    rw [hnone]
    exact (passive_arm h env (by simpa using hl) w).peerIdentity_eq

/-- What an arm does to the registry of authorized connections. -/
theorem arm_authedConns (h : Host) (env : Env) (a : Arm) (h2 : w.conn.require2fa = false) :
    ((w.arm h env a).glob.authedConns = w.glob.authedConns ∧
      (w.arm h env a).conn.authedConnId = w.conn.authedConnId) ∨
    (w.conn.authorized = false ∧ ∃ kind, (w.arm h env a).conn.authedConnId = some kind ∧
      (w.arm h env a).glob.authedConns =
        w.glob.authedConns ++ [⟨w.conn.id, kind, (w.arm h env a).conn.sessionKey⟩]) := by
  rcases arm_cases h env a h2 with hp | ⟨lr, hs⟩ | ⟨ha, v, he, hf | hl⟩
  · have hview := congrArg (fun w : World => (w.glob.authedConns, w.conn.authedConnId))
      hp.identity_eq
    exact Or.inl (Prod.mk.inj hview)
  · have hview := congrArg (fun w : World => (w.glob.authedConns, w.conn.authedConnId))
      hs.steady_eq
    exact Or.inl (Prod.mk.inj hview)
  · have hview := congrArg (fun w : World => (w.glob.authedConns, w.conn.authedConnId))
      (hf.steady_eq.trans he.steady_eq)
    exact Or.inl (Prod.mk.inj hview)
  · have hview := hl.apply
      (fun w => (w.glob.authedConns, w.conn.authedConnId, w.conn.sessionKey)) (fun _ => rfl)
      fun _ => rfl
    obtain ⟨hconns, hkind⟩ := Prod.mk.inj hview
    obtain ⟨hkind, hkey⟩ := Prod.mk.inj hkind
    have hbefore := congrArg (fun w : World => (w.glob.authedConns, w.conn.id)) he.steady_eq
    have hsame := apply_connected (fun w => (w.glob.authedConns, w.conn.id)) (fun _ _ => rfl) v
    obtain ⟨hcconns, hcid⟩ := Prod.mk.inj (hsame.trans hbefore)
    refine Or.inr ⟨ha, _, hkind, ?_⟩
    rw [hconns, hkey]
    change v.connected.glob.authedConns ++ [⟨v.connected.conn.id, _, _⟩] = _
    rw [hcconns, hcid]
    rfl

theorem authedConns_finish (env : Env) (w : World) :
    (w.finish env).glob.authedConns = if w.conn.authedConnId.isSome then
      w.glob.authedConns.filter (·.connId ≠ w.conn.id) else w.glob.authedConns := by
  obtain ⟨_, _, heq⟩ := finish_glob env w
  rw [heq]

end World

/-! ## The registry -/

namespace System

/-- The entries of `AUTHED_CONNS` for one connection id. -/
def entries (s : System) (i : Int) : List AuthedConn :=
  s.glob.authedConns.filter (·.connId = i)

/-- Each authorized connection has one entry, with its kind and the key it has now; nobody
    else has one. -/
def KeyRecorded (s : System) : Prop :=
  ∀ i, s.entries i = match s.conns i with
    | some c => c.authedConnId.toList.map fun kind => ⟨i, kind, c.sessionKey⟩
    | none => []

/-- Every request that an authorized connection receives names the identity it has. -/
def SameIdentity (h : Host) (s : System) (e : Env × Action) : Prop :=
  ∀ i c a lr, Runs s e i c a → c.authorized = true → a.newRequest h = some lr →
    lr.peerIdentity = c.peerIdentity

/-- From the time a connection is authorized to the end of the run its identity is the one
    it had then. -/
def IdentityFixed (h : Host) (s : System) (es : List (Env × Action)) : Prop :=
  ∀ before after, es = before ++ after → ∀ i c,
    (run (step h) s before).conns i = some c → c.authorized = true →
    Always (step h) (fun s' => ∀ c', s'.conns i = some c' → c'.peerIdentity = c.peerIdentity)
      (run (step h) s before) after

/-- The connection keeps its identity through a step that meets the condition. -/
theorem peerIdentity_step {h : Host} {s : System} {e : Env × Action} {i : Int}
    {c c' : Connection} (hs : s.Sound) (hsame : SameIdentity h s e) (hc : s.conns i = some c)
    (ha : c.authorized = true) (hc' : (step h s e).conns i = some c') :
    c'.authorized = true ∧ c'.authedConnId = c.authedConnId ∧
      c'.peerIdentity = c.peerIdentity := by
  obtain ⟨_, hle, hsound⟩ := hs i c hc
  rcases conns_step hc' with ⟨ip, hash, cp, he, hi, rfl⟩ | ⟨d, a, hr, rfl⟩ | hold
  · omega
  · have hd : d = c := Option.some.inj (hr.2.1.symm.trans hc)
    subst hd
    rcases World.arm_authedConnId h e.1 a (w := ⟨d, s.glob⟩)
      hsound.no2fa with ⟨hauth, hid⟩ | ⟨hn, _⟩
    · refine ⟨hauth.trans ha, hid, ?_⟩
      rw [World.arm_peerIdentity (w := ⟨d, s.glob⟩) hsound.no2fa ha]
      cases hreq : a.newRequest h with
      | none => rfl
      | some lr => exact hsame i d a lr hr ha hreq
    · exact absurd (ha.symm.trans hn) (by decide)
  · have hd : c' = c := Option.some.inj (hold.symm.trans hc)
    subst hd
    exact ⟨ha, rfl, rfl⟩

theorem keyRecorded_init (idCount : Int) (server : Server) :
    (init idCount server).KeyRecorded := fun _ => rfl

/-- An arm of connection `i` leaves the entries of the others alone. -/
theorem entries_runs {h : Host} {s : System} {e : Env × Action} {i j : Int} {c : Connection}
    {a : Arm} (hs : s.Sound) (hr : Runs s e i c a) (hj : j ≠ i) :
    (step h s e).entries j = s.entries j := by
  obtain ⟨hid, _, hsound⟩ := hs i c hr.2.1
  unfold entries
  rw [step_runs hr]
  dsimp only
  rcases World.arm_authedConns h e.1 a (w := ⟨c, s.glob⟩) hsound.no2fa with
    ⟨heq, _⟩ | ⟨_, kind, _, heq⟩
  · rw [heq]
  · have hne : ¬(c.id = j) := fun hcj => hj (hcj.symm.trans hid)
    rw [heq, List.filter_append]
    simp [hne]

theorem keyRecorded_runs {h : Host} {s : System} {e : Env × Action} {i : Int} {c : Connection}
    {a : Arm} (hs : s.Sound) (hrec : s.KeyRecorded) (hsame : SameIdentity h s e)
    (hr : Runs s e i c a) : (step h s e).KeyRecorded := by
  intro j
  obtain ⟨hid, _, hsound⟩ := hs i c hr.2.1
  by_cases hj : j = i
  · subst hj
    have hbefore := hrec j
    rw [hr.2.1] at hbefore
    dsimp only at hbefore
    have hc' : (step h s e).conns j = some (World.arm h e.1 a ⟨c, s.glob⟩).conn := by
      rw [step_runs hr]
      exact Function.update_self _ _ _
    rw [hc']
    have hglob : (step h s e).glob = (World.arm h e.1 a ⟨c, s.glob⟩).glob := by rw [step_runs hr]
    unfold entries at hbefore ⊢
    rw [hglob]
    dsimp only
    rcases World.arm_authedConns h e.1 a (w := ⟨c, s.glob⟩)
      hsound.no2fa with ⟨heq, hkind⟩ | ⟨ha, kind, hkind, heq⟩
    · rw [heq, hkind, hbefore]
      cases hauth : c.authorized with
      | false =>
        have hnone : c.authedConnId = none := by
          rw [← Option.isNone_iff_eq_none, ← Option.not_isSome, hsound.authed, hauth]
          rfl
        rw [hnone]
        rfl
      | true =>
        have hkey := congrArg Prod.fst (peerIdentity_step hs hsame hr.2.1 hauth hc').2.2
        have hkey : (World.arm h e.1 a ⟨c, s.glob⟩).conn.sessionKey = c.sessionKey := hkey
        rw [hkey]
    · have hnone : c.authedConnId = none := by
        rw [← Option.isNone_iff_eq_none, ← Option.not_isSome, hsound.authed]
        rw [show c.authorized = false from ha]
        rfl
      rw [hnone] at hbefore
      rw [heq, hkind, List.filter_append, hbefore]
      simp [hid]
  · rw [entries_runs hs hr hj, hrec j, step_runs hr]
    dsimp only
    rw [Function.update_of_ne hj]

theorem keyRecorded_drops {h : Host} {s : System} {e : Env × Action} {i : Int} {c : Connection}
    (hs : s.Sound) (hrec : s.KeyRecorded) (hd : Drops s e i c) :
    (step h s e).KeyRecorded := by
  intro j
  obtain ⟨hid, _, hsound⟩ := hs i c hd.2.1
  have hbefore := hrec j
  unfold entries at hbefore ⊢
  rw [step_drops hd]
  dsimp only
  rw [World.authedConns_finish]
  dsimp only
  rw [hid]
  by_cases hj : j = i
  · subst hj
    rw [Function.update_self]
    rw [hd.2.1] at hbefore
    dsimp only at hbefore
    split
    · simp [List.filter_filter]
    · rename_i hnone
      rw [Option.not_isSome_iff_eq_none] at hnone
      rw [hnone] at hbefore
      exact hbefore
  · rw [Function.update_of_ne hj, ← hbefore]
    split
    · rw [List.filter_filter]
      refine List.filter_congr fun ac _ => ?_
      by_cases hac : ac.connId = j
      · simp [hac, hj]
      · simp [hac]
    · rfl

theorem keyRecorded_step {h : Host} {s : System} {e : Env × Action} (hs : s.Sound)
    (hrec : s.KeyRecorded) (hsame : SameIdentity h s e) : (step h s e).KeyRecorded := by
  rcases step_cases h s e with ⟨i, c, a, hr⟩ | ⟨i, c, hd⟩ | ⟨ip, hash, cp, he⟩ |
    ⟨peerId, uuid, he⟩ | ⟨name, he⟩ | heq
  · exact keyRecorded_runs hs hrec hsame hr
  · exact keyRecorded_drops hs hrec hd
  · obtain ⟨env, act⟩ := e
    dsimp only at he
    subst he
    intro j
    rw [step_start]
    refine (hrec j).trans ?_
    dsimp only
    by_cases hj : j = s.idCount + 1
    · have hfree : s.conns j = none := by
        cases hc : s.conns j with
        | none => rfl
        | some c =>
          have := (hs j c hc).2.1
          omega
      subst hj
      rw [Function.update_self, hfree]
      rfl
    · rw [Function.update_of_ne hj]
  · intro j
    unfold step
    rw [he]
    exact hrec j
  · intro j
    unfold step
    rw [he]
    exact hrec j
  · rw [heq]
    exact hrec

/-! ## Whole runs -/

/-- A connection that is authorized, or gone, keeps its identity while the condition is
    met. -/
theorem peerIdentity_run {h : Host} {i : Int} {id : SessionKey × BitVec 32 × String}
    {s : System} {es : List (Env × Action)} (hs : s.Sound) (hi : i ≤ s.idCount)
    (hid : ∀ c, s.conns i = some c → c.authorized = true ∧ c.peerIdentity = id)
    (hsame : Along (step h) (SameIdentity h) s es) :
    Always (step h) (fun s' => ∀ c', s'.conns i = some c' → c'.peerIdentity = id) s es := by
  refine Always.mono (fun s' hs' c' hc' => (hs'.2.2 c' hc').2)
    (always_of_along (P := fun s' => s'.Sound ∧ i ≤ s'.idCount ∧
      ∀ c, s'.conns i = some c → c.authorized = true ∧ c.peerIdentity = id)
      (C := SameIdentity h) ?_ ⟨hs, hi, hid⟩ hsame)
  rintro s e ⟨hs, hi, hid⟩ hstep
  refine ⟨sound_step e hs, Int.le_trans hi (idCount_step h s e), fun c' hc' => ?_⟩
  cases hc : s.conns i with
  | none =>
    rcases conns_step hc' with ⟨_, _, _, _, hnew, _⟩ | ⟨d, a, hr, _⟩ | hold
    · omega
    · rw [hr.2.1] at hc
      cases hc
    · rw [hold] at hc
      cases hc
  | some c =>
    obtain ⟨ha, hcid⟩ := hid c hc
    obtain ⟨ha', _, hid'⟩ := peerIdentity_step hs hstep hc ha hc'
    exact ⟨ha', hid'.trans hcid⟩

/-- In a run of the server the identity of every authorized connection stays what it was,
    and the registry has its key, exactly when every request an authorized connection
    receives names the identity it has. -/
theorem identity_fixed_iff (h : Host) (idCount : Int) (server : Server)
    (es : List (Env × Action)) :
    (IdentityFixed h (init idCount server) es ∧
      Always (step h) KeyRecorded (init idCount server) es) ↔
    Along (step h) (SameIdentity h) (init idCount server) es := by
  have hsound : ∀ before, (run (step h) (init idCount server) before).Sound :=
    fun before => (always_sound h idCount server before).last
  constructor
  · rintro ⟨hfixed, _⟩
    refine along_of_splits fun before e after hes i c a lr hr ha hreq => ?_
    -- The identity right after the step is that of the request.
    have hnext := (hfixed before (e :: after) hes i c hr.2.1 ha).2.head
    have hc' : (step h (run (step h) (init idCount server) before) e).conns i =
        some (World.arm h e.1 a ⟨c, (run (step h) (init idCount server) before).glob⟩).conn := by
      rw [step_runs hr]
      exact Function.update_self _ _ _
    have hid := hnext _ hc'
    rw [World.arm_peerIdentity (hsound before i c hr.2.1).2.2.no2fa ha, hreq] at hid
    exact hid
  · intro hsame
    constructor
    · intro before after hes i c hc ha
      rw [hes, along_append] at hsame
      refine peerIdentity_run (hsound before) (hsound before i c hc).2.1 ?_ hsame.2
      intro d hd
      have hdc : d = c := Option.some.inj (hd.symm.trans hc)
      rw [hdc]
      exact ⟨ha, rfl⟩
    · refine Always.mono (fun _ hs => hs.2) (always_of_along
        (P := fun s => s.Sound ∧ s.KeyRecorded) (C := SameIdentity h) ?_
        ⟨sound_init idCount server, keyRecorded_init idCount server⟩ hsame)
      rintro s e ⟨hs, hrec⟩ hstep
      exact ⟨sound_step e hs, keyRecorded_step hs hrec hstep⟩

/-- A peer is let in by the user. -/
def letIn : List (Env × Action) :=
  [(.sample, .start (.v4 3232235778) .sample none),
    (.sample, .arm 1 (.peer (.loginRequest (.sample "111222333")))),
    (.sample, .arm 1 (.cm .authorize))]

/-- Afterwards the peer sends a second request under another id. -/
theorem identity_not_fixed :
    ¬(IdentityFixed .sample (init 0 (.new .sample false false false))
        (letIn ++ [(.sample, .arm 1 (.peer (.loginRequest (.sample "999888777"))))]) ∧
      Always (step .sample) KeyRecorded (init 0 (.new .sample false false false))
        (letIn ++ [(.sample, .arm 1 (.peer (.loginRequest (.sample "999888777"))))])) := by
  rintro ⟨hfixed, _⟩
  have hbefore : ((run (step .sample) (init 0 (.new .sample false false false)) letIn).conns 1).map
      (fun c => (c.authorized, c.sessionKey.peerId)) = some (true, "111222333") := by
    decide +kernel
  have hafter : ((run (step .sample) (init 0 (.new .sample false false false))
      (letIn ++ [(.sample, .arm 1 (.peer (.loginRequest (.sample "999888777"))))])).conns 1).map
      (fun c => c.sessionKey.peerId) = some "999888777" := by
    decide +kernel
  obtain ⟨c, hc, hv⟩ := Option.map_eq_some_iff.mp hbefore
  obtain ⟨c', hc', hv'⟩ := Option.map_eq_some_iff.mp hafter
  obtain ⟨ha, hid⟩ := Prod.mk.inj hv
  have hsame := (hfixed letIn _ rfl 1 c hc ha).2.head c' (by rwa [run_append] at hc')
  have hkey := congrArg (fun p => p.1.peerId) hsame
  change c'.sessionKey.peerId = c.sessionKey.peerId at hkey
  rw [hv', hid] at hkey
  exact absurd hkey (by decide)

end System

end LuodaRemote
