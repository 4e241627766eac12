/-
  A connection is authorized only by a credential: a password that verifies in the very
  step that sets `authorized`, or a switch-sides uuid stored for the requester less than ten
  seconds before. Here for every run of the server, whatever messages its connections
  receive in whatever order, and apart from the `Authorize` of the connection manager, which
  is the user's own consent.

  `SWITCH_SIDES_UUID` gives a uuid up when it is compared. So each uuid authorizes at most as
  often as it was stored, and the uuids of `Uuid::new_v4` are stored once.
-/
import LuodaRemote.System
import Mathlib.Data.Finset.Card

namespace LuodaRemote
open Lib

/-! ## Credentials -/

namespace World

/-- The password of `lr` is accepted in `w`: by `validate_password`, or by
    `is_recent_session(false)` for the session of `lr`. -/
def passwordAccepted (h : Host) (env : Env) (lr : LoginRequest) (w : World) : Bool :=
  let w := { w with conn := { w.conn with lr := lr } }
  (w.validatePassword h env).2 || w.isRecentSession h false

theorem passwordAccepted_of_verified {h : Host} {env : Env} {lr : LoginRequest} {w : World}
    (hv : Verified h env w lr) : w.passwordAccepted h env lr = true := by
  unfold passwordAccepted
  dsimp only
  rw [Bool.or_eq_true]
  rcases hv with ht | hp | ⟨s, hs, hne, hpw⟩
  · refine Or.inl ?_
    unfold validatePassword
    rw [if_pos ht]
  · refine Or.inl ?_
    unfold validatePassword
    split
    · rfl
    · exact hp
  · refine Or.inr ?_
    have hkey : w.glob.sessions
        ({ w with conn := { w.conn with lr := lr } } : World).conn.sessionKey = some s := hs
    unfold isRecentSession
    rw [hkey]
    simp [hne, hpw]

end World

/-- What the arm shows before it authorizes the connection for `lr`. -/
inductive Credential (h : Host) (env : Env) (w : World) (lr : LoginRequest) : Arm → Prop
  | password (click : clickOnly h env = false) (accepted : w.passwordAccepted h env lr = true) :
      Credential h env w lr (.peer (.loginRequest lr))
  | switchSides {bytes : Bytes} {t : Nat} {uuid : Uuid} (slice : Uuid.fromSlice bytes = some uuid)
      (stored : w.glob.switchSidesUuid lr.myId = some (t, uuid))
      (age : env.now - t < World.switchSidesTimeout) :
      Credential h env w lr (.peer (.switchSidesResponse bytes (some lr)))

/-- An arm that authorizes is the user's consent or shows a credential for the request that
    is then stored. -/
theorem World.arm_credential {h : Host} {env : Env} {a : Arm} {w : World} (hc : w.conn.Sound)
    (ha : w.conn.authorized = false) (ha' : (w.arm h env a).conn.authorized = true) :
    a = .cm .authorize ∨ Credential h env w (w.arm h env a).conn.lr a := by
  rcases World.arm_authedConnId h env a hc.no2fa with
    ⟨heq, _⟩ | ⟨_, v, he, hl⟩
  · rw [heq, ha] at ha'
    cases ha'
  · have hlr : (w.arm h env a).conn.lr = v.conn.lr :=
      (hl.apply (fun w => w.conn.lr) (fun _ => rfl) fun _ => rfl).trans
        (World.apply_connected (fun w => w.conn.lr) (fun _ _ => rfl) v)
    rw [hlr]
    cases he with
    | password requested _ _ click verified =>
      rw [requested.lr_eq]
      exact Or.inr (.password click (World.passwordAccepted_of_verified verified))
    | switchSides _ slice stored age => exact Or.inr (.switchSides slice stored age)
    | accepted => exact Or.inl rfl

/-! ## The uuids over a run -/

namespace System

/-- The step authorizes connection `i`, which was not authorized before. -/
def becomesAuthorized (h : Host) (s : System) (e : Env × Action) (i : Int) : Bool :=
  (s.conns i).all (fun c => !c.authorized) && ((step h s e).conns i).any (·.authorized)

/-- The uuid that authorizes a connection in this step. -/
def switchUuid (h : Host) (s : System) (e : Env × Action) : Option Uuid :=
  match e.2 with
  | .arm i (.peer (.switchSidesResponse bytes (some _))) =>
    if becomesAuthorized h s e i then Uuid.fromSlice bytes else none
  | _ => none

/-- The uuid that is stored in this step. -/
def storedUuid (_ : System) (e : Env × Action) : Option Uuid :=
  match e.2 with
  | .insertSwitchSidesUuid _ uuid => some uuid
  | _ => none

/-- A connection that a step authorizes was there before and ran the arm. -/
theorem becomesAuthorized_runs {h : Host} {s : System} {e : Env × Action} {i : Int}
    (hb : becomesAuthorized h s e i = true) :
    ∃ c a, Runs s e i c a ∧ c.authorized = false ∧
      (World.arm h e.1 a ⟨c, s.glob⟩).conn.authorized = true ∧
      (step h s e).conns i = some (World.arm h e.1 a ⟨c, s.glob⟩).conn := by
  unfold becomesAuthorized at hb
  rw [Bool.and_eq_true] at hb
  obtain ⟨hbefore, hafter⟩ := hb
  cases hc' : (step h s e).conns i with
  | none =>
    rw [hc'] at hafter
    cases hafter
  | some c' =>
    rw [hc', Option.any_some] at hafter
    rcases conns_step hc' with ⟨ip, hash, cp, he, hi, rfl⟩ | ⟨c, a, hr, rfl⟩ | hc
    · cases hafter
    · rw [hr.2.1, Option.all_some, Bool.not_eq_true'] at hbefore
      exact ⟨c, a, hr, hbefore, hafter, rfl⟩
    · rw [hc, Option.all_some, hafter] at hbefore
      cases hbefore

theorem uuids_finish (env : Env) (w : World) :
    (w.finish env).glob.switchSidesUuid = w.glob.switchSidesUuid := by
  obtain ⟨_, _, heq⟩ := World.finish_glob env w
  rw [heq]
  rfl

/-- Storing aside, a step only takes uuids away. -/
theorem uuids_step {h : Host} {s : System} (hs : s.Sound) {e : Env × Action}
    (hno : storedUuid s e = none) {k : String} {v : Nat × Uuid}
    (hv : (step h s e).glob.switchSidesUuid k = some v) :
    s.glob.switchSidesUuid k = some v := by
  rcases step_cases h s e with ⟨i, c, a, hr⟩ | ⟨i, c, hd⟩ | ⟨ip, hash, cp, he⟩ |
    ⟨peerId, uuid, he⟩ | ⟨name, he⟩ | heq
  · rw [step_runs hr] at hv
    exact World.arm_uuids (w := ⟨c, s.glob⟩) (hs i c hr.2.1).2.2.no2fa hv
  · rw [step_drops hd] at hv
    exact (congrFun (uuids_finish e.1 ⟨c, s.glob⟩) k).symm.trans hv
  · unfold step at hv
    rw [he] at hv
    exact hv
  · unfold storedUuid at hno
    rw [he] at hno
    cases hno
  · unfold step at hv
    rw [he] at hv
    exact hv
  · rwa [heq] at hv

/-- A uuid that authorizes was stored and is taken. -/
theorem switchUuid_taken {h : Host} {s : System} (hs : s.Sound) {e : Env × Action} {u : Uuid}
    (hu : switchUuid h s e = some u) :
    storedUuid s e = none ∧ ∃ k t, s.glob.switchSidesUuid k = some (t, u) ∧
      (step h s e).glob.switchSidesUuid k = none := by
  unfold switchUuid at hu
  split at hu
  · rename_i i bytes lr he
    split at hu
    · rename_i hb
      obtain ⟨c, a, hr, ha, ha', _⟩ := becomesAuthorized_runs hb
      have harm : a = .peer (.switchSidesResponse bytes (some lr)) := by
        have hact := hr.1
        rw [he] at hact
        exact (Action.arm.inj hact).2.symm
      subst harm
      have hno : storedUuid s e = none := by
        unfold storedUuid
        rw [he]
      have h2 : c.require2fa = false := (hs i c hr.2.1).2.2.no2fa
      rcases World.arm_authedConnId h e.1 (.peer (.switchSidesResponse bytes (some lr)))
          (w := ⟨c, s.glob⟩) h2 with
        ⟨heq, _⟩ | ⟨_, v, hentry, hl⟩
      · rw [heq] at ha'
        rw [ha] at ha'
        cases ha'
      · have huuids := hl.uuids_eq.trans hentry.uuids_eq
        cases hentry with
        | switchSides _ slice stored _ =>
          rw [slice, Option.some.injEq] at hu
          refine ⟨hno, lr.myId, _, hu ▸ stored, ?_⟩
          rw [step_runs hr]
          dsimp only
          rw [huuids]
          exact Function.update_self _ _ _
    · cases hu
  · cases hu

/-- At most `n` peers have the uuid on offer. -/
def Offered (u : Uuid) (s : System) (n : ℕ) : Prop :=
  ∃ ks : Finset String, ks.card = n ∧
    ∀ k t, s.glob.switchSidesUuid k = some (t, u) → k ∈ ks

theorem offered_step {h : Host} (u : Uuid) {s : System} (e : Env × Action) {n : ℕ}
    (hs : s.Sound) (hn : Offered u s n) :
    ∃ m, Offered u (step h s e) m ∧
      m + (switchUuid h s e).toList.count u ≤ n + (storedUuid s e).toList.count u := by
  obtain ⟨ks, rfl, hks⟩ := hn
  cases hst : storedUuid s e with
  | some v =>
    have hnone : switchUuid h s e = none := by
      cases hsw : switchUuid h s e with
      | none => rfl
      | some v' =>
        rw [(switchUuid_taken hs hsw).1] at hst
        cases hst
    obtain ⟨env, act⟩ := e
    unfold storedUuid at hst
    dsimp only at hst
    split at hst
    · rename_i peerId uuid
      cases hst
      rw [hnone]
      by_cases huv : v = u
      · -- The uuid is on offer to one more peer.
        refine ⟨(insert peerId ks).card, ⟨_, rfl, ?_⟩, ?_⟩
        · intro k t hk
          rw [Finset.mem_insert]
          by_cases hkp : k = peerId
          · exact Or.inl hkp
          · refine Or.inr (hks k t ?_)
            change Function.update s.glob.switchSidesUuid peerId _ k = _ at hk
            rwa [Function.update_of_ne hkp] at hk
        · have hcard := Finset.card_insert_le peerId ks
          simpa [huv] using hcard
      · refine ⟨ks.card, ⟨ks, rfl, ?_⟩, by simp⟩
        intro k t hk
        change Function.update s.glob.switchSidesUuid peerId _ k = _ at hk
        by_cases hkp : k = peerId
        · rw [hkp, Function.update_self] at hk
          cases hk
          exact absurd rfl huv
        · rw [Function.update_of_ne hkp] at hk
          exact hks k t hk
    · cases hst
  | none =>
    cases hsw : switchUuid h s e with
    | none => exact ⟨ks.card, ⟨ks, rfl, fun k t hk => hks k t (uuids_step hs hst hk)⟩, by simp⟩
    | some v =>
      by_cases huv : v = u
      · subst huv
        obtain ⟨_, k, t, hk, hk'⟩ := switchUuid_taken hs hsw
        have hmem : k ∈ ks := hks k t hk
        refine ⟨(ks.erase k).card, ⟨_, rfl, ?_⟩, ?_⟩
        · intro j t' hj
          rw [Finset.mem_erase]
          refine ⟨?_, hks j t' (uuids_step hs hst hj)⟩
          rintro rfl
          rw [hk'] at hj
          cases hj
        · have hcard := Finset.card_erase_add_one hmem
          simp
          omega
      · refine ⟨ks.card, ⟨ks, rfl, fun k t hk => hks k t (uuids_step hs hst hk)⟩, ?_⟩
        simp [huv]

/-- In every run, a step that authorizes a connection other than by the user's consent is a
    message of its peer that shows a credential for the request stored from then on; and no
    uuid authorizes more often than it was stored, so never twice if the uuids stored are
    distinct. -/
theorem authorized_by_credential (h : Host) (idCount : Int) (server : Server)
    (es : List (Env × Action)) :
    Along (step h) (fun s e => ∀ i, becomesAuthorized h s e i = true →
        e.2 ≠ .arm i (.cm .authorize) →
        ∃ c c' a, Runs s e i c a ∧ (step h s e).conns i = some c' ∧
          Credential h e.1 ⟨c, s.glob⟩ c'.lr a) (init idCount server) es ∧
    (∀ u, (collect (step h) (switchUuid h) (init idCount server) es).count u ≤
      (collect (step h) storedUuid (init idCount server) es).count u) ∧
    ((collect (step h) storedUuid (init idCount server) es).Nodup →
      (collect (step h) (switchUuid h) (init idCount server) es).Nodup) := by
  have hcount : ∀ u, (collect (step h) (switchUuid h) (init idCount server) es).count u ≤
      (collect (step h) storedUuid (init idCount server) es).count u := by
    intro u
    have hle := count_collect_le (b := u) (f := switchUuid h) (g := storedUuid) (Offered u)
      (fun _ e hs => sound_step (h := h) e hs)
      (fun s e n hs hn => offered_step u e hs hn) es (sound_init idCount server)
      (n := 0) ⟨∅, rfl, fun k t hk => by cases hk⟩
    rwa [Nat.zero_add] at hle
  refine ⟨?_, hcount, ?_⟩
  · refine (always_sound h idCount server es).steps ?_
    intro s e hs i hb hne
    obtain ⟨c, a, hr, ha, ha', hc'⟩ := becomesAuthorized_runs hb
    have hsound : c.Sound := (hs i c hr.2.1).2.2
    rcases World.arm_credential (w := ⟨c, s.glob⟩) hsound ha ha' with rfl | hcred
    · exact absurd hr.1 hne
    · exact ⟨c, _, a, hr, hc', hcred⟩
  · intro hnd
    rw [List.nodup_iff_count_le_one] at hnd ⊢
    exact fun u => (hcount u).trans (hnd u)

end System

end LuodaRemote
