/-
  Login attempts of several connections, interleaved.

  One attempt is three atomic steps of `Connection::on_message`: `check_failure(i)`,
  the validation of the password (`i = 0`) or of the 2FA code (`i = 1`), and
  `update_failure`. Other connections run between any two of them. `validations` is not
  in the source: it records every validation that took place, newest first, with the
  clock minute it took place in.

  Proved: along a run in which each attempt is validated on a reading of the counter that
  is still current (`Current`), the stored total is the number of failures since the last
  success whenever no update is outstanding, and nothing is validated after 31 of them
  (`counted_of_current`); if moreover no success falls into a minute that already has a
  failure and no attempt straddles the end of a minute (`SameMinute`), no minute sees more
  than 7 failures (`perMinute_of_sameMinute`).
  Without `Current` both limits fail: two attempts that overlap are written back as one.
-/
import LuodaRemote.Lib.Run
import LuodaRemote.Login.Failures

namespace LuodaRemote
open Lib

/-- An attempt that `check_failure` let through. -/
structure Attempt where
  table : Fin 2
  failure : Failure
  time : Int
  /-- The outcome, once the password or the code has been looked at. -/
  verdict : Option Bool
  passed : failure.total ≤ 30 ∧ (time = failure.minute → failure.inMinute ≤ 6)
  deriving DecidableEq

/-- A validation that took place: `read` is the minute the attempt was checked in,
    `minute` the one it was validated in. -/
structure Validation where
  ip : IpAddr
  table : Fin 2
  read : Int
  minute : Int
  ok : Bool
  deriving DecidableEq

/-- The tables, the clock (`get_time()`), and the attempt each connection is in. -/
structure LoginState where
  tables : Fin 2 → FailureMap
  clock : Int
  attempts : Int → Option Attempt
  validations : List Validation

inductive LoginStep where
  | clock (getTime : Int)
  | check (conn : Int) (i : Fin 2)
  | validate (conn : Int) (ok : Bool)
  | update (conn : Int)
  /-- The 2FA branch may end before a code is compared. -/
  | abandon (conn : Int)
  deriving DecidableEq

def LoginState.init (getTime : Int) : LoginState :=
  ⟨fun _ _ => none, getTime, fun _ => none, []⟩

def attemptOf (m : FailureMap) (ip : IpAddr) (getTime : Int) (i : Fin 2) : Option Attempt :=
  if h : (checkFailure m ip getTime).error = none then
    some ⟨i, (checkFailure m ip getTime).failure, (checkFailure m ip getTime).time, none, by
      obtain ⟨h1, h2, h3, h4⟩ := checkFailure_passed h
      rw [h1, h2]
      exact ⟨h3, h4⟩⟩
  else none

/-- One atomic step; `ipOf` gives the address each connection comes from. -/
def loginStep (ipOf : Int → IpAddr) (s : LoginState) : LoginStep → LoginState
  | .clock t => { s with clock := t }
  | .check c i =>
    match s.attempts c with
    | some _ => s
    | none =>
      { s with attempts :=
          Function.update s.attempts c (attemptOf (s.tables i) (ipOf c) s.clock i) }
  | .validate c ok =>
    match s.attempts c with
    | none => s
    | some a =>
      if a.verdict.isSome then s
      else
        { s with
          attempts := Function.update s.attempts c (some { a with verdict := some ok })
          validations := ⟨ipOf c, a.table, a.time, clockMinute s.clock, ok⟩ :: s.validations }
  | .update c =>
    match s.attempts c with
    | none => s
    | some a =>
      match a.verdict with
      | none => s
      | some ok =>
        { s with
          tables := Function.update s.tables a.table
            (updateFailure (s.tables a.table) (ipOf c) a.failure a.time ok)
          attempts := Function.update s.attempts c none }
  | .abandon c =>
    match s.attempts c with
    | none => s
    | some a =>
      if a.verdict.isSome then s
      else { s with attempts := Function.update s.attempts c none }

/-! ## What the limits are about -/

section
variable (ipOf : Int → IpAddr) (ip : IpAddr) (i : Fin 2)

def LoginState.entry (s : LoginState) : Failure := (s.tables i).read (.addr ip)

def validationsOf (vs : List Validation) : List Validation :=
  vs.filter fun v => v.ip = ip ∧ v.table = i

def failuresSinceSuccess (vs : List Validation) : Nat :=
  ((validationsOf ip i vs).takeWhile fun v => !v.ok).length

def failuresInMinute (vs : List Validation) (m : Int) : Nat :=
  (validationsOf ip i vs).countP fun v => !v.ok && v.minute == m

/-- No attempt of the address is between its validation and its update. -/
def Settled (s : LoginState) : Prop :=
  ∀ c a, s.attempts c = some a → ipOf c = ip → a.table = i → a.verdict = none

/-- The attempt of connection `c` that the step validates, if it is one of the address. -/
def Reaches (s : LoginState) (act : LoginStep) (c : Int) (a : Attempt) (ok : Bool) : Prop :=
  act = .validate c ok ∧ s.attempts c = some a ∧ a.verdict = none ∧ ipOf c = ip ∧ a.table = i

/-- The step validates an attempt of the address only when the counter it read is still
    the stored one, no other attempt has its update outstanding, and the clock shows a
    minute after the epoch's first. -/
def Current (s : LoginState) (act : LoginStep) : Prop :=
  ∀ c a ok, Reaches ipOf ip i s act c a ok →
    Settled ipOf ip i s ∧ a.failure = s.entry ip i ∧ a.time ≠ 0

/-- The clock does not fall back to an earlier minute, an attempt is validated in the
    minute it was checked in, and a success does not come in the minute of a failure. -/
def SameMinute (s : LoginState) (act : LoginStep) : Prop :=
  (∀ t, act = .clock t → clockMinute s.clock ≤ clockMinute t) ∧
  ∀ c a ok, Reaches ipOf ip i s act c a ok →
    a.time = clockMinute s.clock ∧ (ok = true → (s.entry ip i).minute ≠ clockMinute s.clock)

end

/-! ## The entry that the validations amount to -/

/-- The entry after the validations `vs` of one address, had each been counted at once. -/
def replay : List Validation → Failure
  | [] => {}
  | v :: vs => if v.ok then {} else bump (replay vs) v.read

theorem total_replay (vs : List Validation) :
    (replay vs).total = (vs.takeWhile fun v => !v.ok).length := by
  induction vs with
  | nil => rfl
  | cons v vs ih =>
    unfold replay
    cases hv : v.ok with
    | true => simp [hv]
    | false =>
      rw [if_neg (by simp), total_bump, ih, List.takeWhile_cons_of_pos (by simp [hv])]
      simp

theorem replay_eq_default {vs : List Validation} (hvs : ∀ v ∈ vs, v.read ≠ 0)
    (h : (replay vs).minute = 0) : replay vs = {} := by
  cases vs with
  | nil => rfl
  | cons v vs =>
    unfold replay at h ⊢
    cases hv : v.ok with
    | true => simp
    | false =>
      have hread := hvs v List.mem_cons_self
      rw [hv, if_neg (by simp)] at h
      unfold bump at h
      split at h
      · rename_i heq
        exact absurd (heq ▸ h) hread
      · exact absurd h hread

theorem inMinute_replay_nonneg (vs : List Validation) : 0 ≤ (replay vs).inMinute := by
  induction vs with
  | nil => exact Int.le_refl _
  | cons v vs ih =>
    unfold replay bump
    split_ifs
    · exact Int.le_refl _
    · dsimp only
      omega
    · dsimp only
      omega

section
variable {ipOf : Int → IpAddr} {ip : IpAddr} {i : Fin 2} {s : LoginState} {act : LoginStep}

/-- `e` is the stored entry, or the one that the only outstanding update will store. -/
def Lands (ipOf : Int → IpAddr) (ip : IpAddr) (i : Fin 2) (s : LoginState) (e : Failure) :
    Prop :=
  (Settled ipOf ip i s ∧ e = s.entry ip i) ∨
  ∃ c a ok, s.attempts c = some a ∧ a.verdict = some ok ∧ ipOf c = ip ∧ a.table = i ∧
    (∀ c' a', s.attempts c' = some a' → ipOf c' = ip → a'.table = i → c' ≠ c →
      a'.verdict = none) ∧
    e = (if ok then {} else bump a.failure a.time) ∧
    (a.failure.minute ≠ 0 ∨ s.entry ip i = {})

theorem entry_of_settled {e : Failure} (h : Lands ipOf ip i s e) (hs : Settled ipOf ip i s) :
    e = s.entry ip i := by
  rcases h with ⟨_, he⟩ | ⟨c, a, ok, hc, hok, hip, hi, _⟩
  · exact he
  · rw [hs c a hc hip hi] at hok
    cases hok

/-- Changing the attempt of one connection moves nothing of the address if that attempt
    neither was nor becomes outstanding for it. -/
theorem lands_of_frame {s' : LoginState} {e : Failure} {c : Int} {x : Option Attempt}
    (h : Lands ipOf ip i s e) (hentry : s'.entry ip i = s.entry ip i)
    (hatt : s'.attempts = Function.update s.attempts c x)
    (hold : ∀ a, s.attempts c = some a → ipOf c = ip → a.table = i → a.verdict = none)
    (hnew : ∀ a, x = some a → ipOf c = ip → a.table = i → a.verdict = none) :
    Lands ipOf ip i s' e := by
  -- An attempt of the new state is the changed one, or one of the old state.
  have hcases : ∀ d b, s'.attempts d = some b → ipOf d = ip → b.table = i →
      b.verdict = none ∨ s.attempts d = some b := by
    intro d b hd hip hi
    rw [hatt] at hd
    by_cases hne : d = c
    · subst hne
      rw [Function.update_self] at hd
      exact Or.inl (hnew b hd hip hi)
    · rw [Function.update_of_ne hne] at hd
      exact Or.inr hd
  rcases h with ⟨hs, he⟩ | ⟨d, b, ok, hd, hok, hip, hi, hothers, he, hmin⟩
  · refine Or.inl ⟨fun d b hd hip hi => ?_, by rw [he, hentry]⟩
    exact (hcases d b hd hip hi).elim id fun hd' => hs d b hd' hip hi
  · have hne : d ≠ c := by
      intro hdc
      subst hdc
      rw [hold b hd hip hi] at hok
      cases hok
    have hd' : s'.attempts d = some b := by rw [hatt, Function.update_of_ne hne, hd]
    refine Or.inr ⟨d, b, ok, hd', hok, hip, hi, ?_, he, by rwa [hentry]⟩
    intro d' b' hd' hip' hi' hne'
    exact (hcases d' b' hd' hip' hi').elim id fun hd'' => hothers d' b' hd'' hip' hi' hne'

theorem verdict_attemptOf {m : FailureMap} {t : Int} {j : Fin 2} {jp : IpAddr} {a : Attempt}
    (h : attemptOf m jp t j = some a) : a.verdict = none := by
  unfold attemptOf at h
  split at h
  · cases h
    rfl
  · cases h

theorem lands_check (c : Int) (j : Fin 2) {e : Failure} (h : Lands ipOf ip i s e) :
    Lands ipOf ip i (loginStep ipOf s (.check c j)) e := by
  simp only [loginStep]
  split
  · exact h
  · rename_i hc
    refine lands_of_frame h rfl rfl ?_ ?_
    · intro a ha
      rw [hc] at ha
      cases ha
    · intro a ha _ _
      exact verdict_attemptOf ha

theorem lands_abandon (c : Int) {e : Failure} (h : Lands ipOf ip i s e) :
    Lands ipOf ip i (loginStep ipOf s (.abandon c)) e := by
  simp only [loginStep]
  split
  · exact h
  rename_i a hc
  split
  · exact h
  rename_i hv
  refine lands_of_frame h rfl rfl ?_ (by simp)
  intro b hb _ _
  obtain rfl : a = b := Option.some.inj (hc.symm.trans hb)
  simpa using hv

theorem entry_update_other {a : Attempt} {c : Int} (ok : Bool)
    (hother : ¬(ipOf c = ip ∧ a.table = i)) :
    ((Function.update s.tables a.table
      (updateFailure (s.tables a.table) (ipOf c) a.failure a.time ok)) i).read (.addr ip) =
      s.entry ip i := by
  by_cases hi : a.table = i
  · have hip : ip ≠ ipOf c := fun he => hother ⟨he.symm, hi⟩
    rw [hi, Function.update_self, updateFailure_other _ hip]
    rfl
  · rw [Function.update_of_ne (Ne.symm hi)]
    rfl

/-- The update of the outstanding attempt stores what was expected of it. -/
theorem lands_update (c : Int) {e : Failure} (h : Lands ipOf ip i s e) :
    Lands ipOf ip i (loginStep ipOf s (.update c)) e := by
  simp only [loginStep]
  split
  · exact h
  rename_i a hc
  split
  · exact h
  rename_i ok hok
  by_cases hmine : ipOf c = ip ∧ a.table = i
  · obtain ⟨hip, hi⟩ := hmine
    rcases h with ⟨hs, _⟩ | ⟨d, b, ok', hd, hok', _, _, hothers, he, hmin⟩
    · rw [hs c a hc hip hi] at hok
      cases hok
    · have hcd : c = d := by
        by_contra hne
        rw [hothers c a hc hip hi hne] at hok
        cases hok
      subst hcd
      obtain rfl : a = b := Option.some.inj (hc.symm.trans hd)
      obtain rfl : ok = ok' := Option.some.inj (hok.symm.trans hok')
      refine Or.inl ⟨?_, ?_⟩
      · intro d b hd hipd hid
        by_cases hne : d = c
        · subst hne
          simp at hd
        · exact hothers d b ((Function.update_of_ne hne _ _).symm.trans hd) hipd hid hne
      · subst hip hi
        rw [he, LoginState.entry]
        dsimp only
        rw [Function.update_self]
        cases ok with
        | true => exact (updateFailure_succeeded _ _ _ _ hmin).symm
        | false => exact (updateFailure_failed _ _ _ _).symm
  · refine lands_of_frame h (entry_update_other ok hmine) rfl ?_ (by simp)
    intro b hb hip hi
    obtain rfl : a = b := Option.some.inj (hc.symm.trans hb)
    exact absurd ⟨hip, hi⟩ hmine

/-! ## Steps of other connections -/

def LoginStep.conn : LoginStep → Option Int
  | .clock _ => none
  | .check c _ | .validate c _ | .update c | .abandon c => some c

theorem attempts_step_other {d : Int} (h : act.conn ≠ some d) :
    (loginStep ipOf s act).attempts d = s.attempts d := by
  have hne : ∀ {c : Int}, some c ≠ some d → d ≠ c := fun h he => h (by rw [he])
  cases act with
  | clock t => rfl
  | check c j =>
    simp only [loginStep]
    split
    · rfl
    · exact Function.update_of_ne (hne h) _ _
  | validate c ok =>
    simp only [loginStep]
    split
    · rfl
    · split
      · rfl
      · exact Function.update_of_ne (hne h) _ _
  | update c =>
    simp only [loginStep]
    split
    · rfl
    · split
      · rfl
      · exact Function.update_of_ne (hne h) _ _
  | abandon c =>
    simp only [loginStep]
    split
    · rfl
    · split
      · rfl
      · exact Function.update_of_ne (hne h) _ _

theorem attempts_run_other {d : Int} {acts : List LoginStep}
    (h : ∀ act ∈ acts, act.conn ≠ some d) (s : LoginState) :
    (run (loginStep ipOf) s acts).attempts d = s.attempts d := by
  induction acts generalizing s with
  | nil => rfl
  | cons act acts ih =>
    rw [run_cons, ih (fun b hb => h b (List.mem_cons_of_mem _ hb)),
      attempts_step_other (h act List.mem_cons_self)]

/-- Only the connections that took a step need to be looked at. -/
theorem settled_run {t : Int} {acts : List LoginStep} (cs : List Int)
    (hcs : ∀ act ∈ acts, ∀ c ∈ act.conn, c ∈ cs)
    (h : ∀ c ∈ cs, ipOf c = ip →
      ∀ a ∈ (run (loginStep ipOf) (LoginState.init t) acts).attempts c, a.verdict = none) :
    Settled ipOf ip i (run (loginStep ipOf) (LoginState.init t) acts) := by
  intro c a hc hip _
  by_cases hmem : c ∈ cs
  · exact h c hmem hip a hc
  · have hother : ∀ act ∈ acts, act.conn ≠ some c := fun act hact hconn =>
      hmem (hcs act hact c hconn)
    rw [attempts_run_other hother] at hc
    cases hc

/-! ## Validations -/

theorem validationsOf_cons_other {v : Validation} (vs : List Validation)
    (h : ¬(v.ip = ip ∧ v.table = i)) :
    validationsOf ip i (v :: vs) = validationsOf ip i vs := by
  simp only [validationsOf]
  rw [List.filter_cons_of_neg (by simpa using h)]

/-- A step that validates an attempt of the address records it. -/
theorem validationsOf_step_reaches {c : Int} {a : Attempt} {ok : Bool}
    (h : Reaches ipOf ip i s act c a ok) :
    validationsOf ip i (loginStep ipOf s act).validations =
      ⟨ip, i, a.time, clockMinute s.clock, ok⟩ :: validationsOf ip i s.validations := by
  obtain ⟨rfl, hc, hv, rfl, rfl⟩ := h
  simp [loginStep, hc, hv, validationsOf]

/-- Any other step leaves the validations of the address as they are. -/
theorem validationsOf_step_other (h : ∀ c a ok, ¬Reaches ipOf ip i s act c a ok) :
    validationsOf ip i (loginStep ipOf s act).validations = validationsOf ip i s.validations := by
  cases act with
  | clock t => rfl
  | check c j =>
    simp only [loginStep]
    split <;> rfl
  | update c =>
    simp only [loginStep]
    split
    · rfl
    · split <;> rfl
  | abandon c =>
    simp only [loginStep]
    split
    · rfl
    · split <;> rfl
  | validate c ok =>
    simp only [loginStep]
    split
    · rfl
    rename_i a hc
    split
    · rfl
    rename_i hv
    refine validationsOf_cons_other _ fun hmine => ?_
    exact h c a ok ⟨rfl, hc, by simpa using hv, hmine.1, hmine.2⟩

/-- The table, with its outstanding update, agrees with the validations. -/
def Counted (ipOf : Int → IpAddr) (ip : IpAddr) (i : Fin 2) (s : LoginState) : Prop :=
  Lands ipOf ip i s (replay (validationsOf ip i s.validations)) ∧
    ∀ v ∈ validationsOf ip i s.validations, v.read ≠ 0

theorem lands_reaches {c : Int} {a : Attempt} {ok : Bool} (h : Counted ipOf ip i s)
    (hr : Reaches ipOf ip i s act c a ok) (hs : Settled ipOf ip i s)
    (hread : a.failure = s.entry ip i) :
    Lands ipOf ip i (loginStep ipOf s act) (if ok then {} else bump a.failure a.time) := by
  have he := entry_of_settled h.1 hs
  obtain ⟨rfl, hc, hv, hip, hi⟩ := hr
  simp only [loginStep, hc, hv, Option.isSome_none]
  refine Or.inr ⟨c, { a with verdict := some ok }, ok, Function.update_self _ _ _, rfl, hip,
    hi, ?_, rfl, ?_⟩
  · intro d b hd hipd hid hne
    exact hs d b ((Function.update_of_ne hne _ _).symm.trans hd) hipd hid
  · -- An entry of minute 0 is the empty one, and then there is nothing to remove.
    by_cases h0 : a.failure.minute = 0
    · refine Or.inr (he.symm.trans (replay_eq_default h.2 ?_))
      rw [he, ← hread, h0]
    · exact Or.inl h0

theorem lands_step_other {e : Failure} (h : Lands ipOf ip i s e)
    (hother : ∀ c a ok, ¬Reaches ipOf ip i s act c a ok) :
    Lands ipOf ip i (loginStep ipOf s act) e := by
  cases act with
  | clock t => exact h
  | check c j => exact lands_check c j h
  | update c => exact lands_update c h
  | abandon c => exact lands_abandon c h
  | validate c ok =>
    simp only [loginStep]
    split
    · exact h
    rename_i a hc
    split
    · exact h
    rename_i hv
    have hv : a.verdict = none := by simpa using hv
    refine lands_of_frame h rfl rfl ?_ ?_
    · intro b hb _ _
      obtain rfl : a = b := Option.some.inj (hc.symm.trans hb)
      exact hv
    · intro b hb hip hi
      obtain rfl := Option.some.inj hb
      exact absurd ⟨rfl, hc, hv, hip, hi⟩ (hother c a ok)

theorem counted_step (h : Counted ipOf ip i s) (hc : Current ipOf ip i s act) :
    Counted ipOf ip i (loginStep ipOf s act) := by
  by_cases hr : ∃ c a ok, Reaches ipOf ip i s act c a ok
  · obtain ⟨c, a, ok, hr⟩ := hr
    obtain ⟨hs, hread, ht⟩ := hc c a ok hr
    unfold Counted
    rw [validationsOf_step_reaches hr]
    constructor
    · unfold replay
      rw [entry_of_settled h.1 hs, ← hread]
      exact lands_reaches h hr hs hread
    · rintro v (_ | ⟨_, hv⟩)
      · exact ht
      · exact h.2 v hv
  · push Not at hr
    unfold Counted
    rw [validationsOf_step_other hr]
    exact ⟨lands_step_other h.1 hr, h.2⟩

theorem counted_init (t : Int) : Counted ipOf ip i (LoginState.init t) := by
  constructor
  · refine Or.inl ⟨fun c a hc => ?_, rfl⟩
    cases hc
  · intro v hv
    cases hv

theorem counted_of_current {t : Int} {acts : List LoginStep}
    (h : Along (loginStep ipOf) (Current ipOf ip i) (LoginState.init t) acts) :
    Always (loginStep ipOf) (Counted ipOf ip i) (LoginState.init t) acts :=
  always_of_along (fun _ _ => counted_step) (counted_init t) h

/-- When nothing is outstanding the stored total is the number of failures. -/
theorem total_of_counted (h : Counted ipOf ip i s) (hs : Settled ipOf ip i s) :
    (s.entry ip i).total = failuresSinceSuccess ip i s.validations := by
  rw [← entry_of_settled h.1 hs, total_replay]
  rfl

theorem failuresSinceSuccess_of_reaches {c : Int} {a : Attempt} {ok : Bool}
    (h : Counted ipOf ip i s) (hc : Current ipOf ip i s act)
    (hr : Reaches ipOf ip i s act c a ok) :
    failuresSinceSuccess ip i s.validations ≤ 30 := by
  obtain ⟨hs, hread, _⟩ := hc c a ok hr
  have htotal := total_of_counted h hs
  have hle := a.passed.1
  rw [hread, htotal] at hle
  omega

/-! ## One minute -/

/-- The failures of the current minute are at most what the entry counts for it, and no
    minute has more than 7. -/
structure PerMinute (ip : IpAddr) (i : Fin 2) (s : LoginState) : Prop where
  past : ∀ v ∈ validationsOf ip i s.validations, v.minute ≤ clockMinute s.clock
  limit : ∀ m, failuresInMinute ip i s.validations m ≤ 7
  counted : (failuresInMinute ip i s.validations (clockMinute s.clock) : Int) ≤
    if (replay (validationsOf ip i s.validations)).minute = clockMinute s.clock then
      (replay (validationsOf ip i s.validations)).inMinute
    else 0

theorem failuresInMinute_future {vs : List Validation} {m : Int}
    (h : ∀ v ∈ validationsOf ip i vs, v.minute < m) : failuresInMinute ip i vs m = 0 := by
  unfold failuresInMinute
  rw [List.countP_eq_zero]
  intro v hv hm
  have := h v hv
  simp only [Bool.and_eq_true, beq_iff_eq] at hm
  omega

theorem perMinute_clock {t : Int} (h : PerMinute ip i s)
    (ht : clockMinute s.clock ≤ clockMinute t) :
    PerMinute ip i { s with clock := t } := by
  refine ⟨fun v hv => Int.le_trans (h.past v hv) ht, h.limit, ?_⟩
  by_cases heq : clockMinute t = clockMinute s.clock
  · have := h.counted
    dsimp only
    rwa [heq]
  · -- A new minute starts with no failure in it.
    have hlt : clockMinute s.clock < clockMinute t := by omega
    have hzero : failuresInMinute ip i s.validations (clockMinute t) = 0 :=
      failuresInMinute_future fun v hv => Int.lt_of_le_of_lt (h.past v hv) hlt
    dsimp only
    rw [hzero]
    split
    · exact inMinute_replay_nonneg _
    · exact Int.le_refl _

theorem failuresInMinute_step {c : Int} {a : Attempt} {ok : Bool}
    (hr : Reaches ipOf ip i s act c a ok) (m : Int) :
    failuresInMinute ip i (loginStep ipOf s act).validations m =
      failuresInMinute ip i s.validations m +
        if ok = false ∧ clockMinute s.clock = m then 1 else 0 := by
  unfold failuresInMinute
  rw [validationsOf_step_reaches hr, List.countP_cons]
  cases ok <;> simp

theorem clock_step_reaches {c : Int} {a : Attempt} {ok : Bool}
    (hr : Reaches ipOf ip i s act c a ok) : (loginStep ipOf s act).clock = s.clock := by
  obtain ⟨rfl, hc, hv, -, -⟩ := hr
  simp [loginStep, hc, hv]

theorem clock_step_other (hnot : ∀ t, act ≠ .clock t) :
    (loginStep ipOf s act).clock = s.clock := by
  cases act with
  | clock t => exact absurd rfl (hnot t)
  | check c j =>
    simp only [loginStep]
    split <;> rfl
  | validate c ok =>
    simp only [loginStep]
    split
    · rfl
    · split <;> rfl
  | update c =>
    simp only [loginStep]
    split
    · rfl
    · split <;> rfl
  | abandon c =>
    simp only [loginStep]
    split
    · rfl
    · split <;> rfl

theorem perMinute_reaches {c : Int} {a : Attempt} {ok : Bool} (hcount : Counted ipOf ip i s)
    (h : PerMinute ip i s) (hcur : Current ipOf ip i s act)
    (hsame : SameMinute ipOf ip i s act) (hr : Reaches ipOf ip i s act c a ok) :
    PerMinute ip i (loginStep ipOf s act) := by
  obtain ⟨hs, hread, _⟩ := hcur c a ok hr
  obtain ⟨htime, hsucc⟩ := hsame.2 c a ok hr
  have he : replay (validationsOf ip i s.validations) = a.failure := by
    rw [entry_of_settled hcount.1 hs, hread]
  have hnow := h.counted
  rw [he] at hnow
  have hpassed := a.passed.2
  rw [htime] at hpassed
  -- What was counted for this minute is at most 6, since the attempt got through.
  have hsix : (failuresInMinute ip i s.validations (clockMinute s.clock) : Int) ≤ 6 := by
    split at hnow
    · rename_i hmin
      exact Int.le_trans hnow (hpassed hmin.symm)
    · omega
  refine ⟨?_, ?_, ?_⟩
  · rw [validationsOf_step_reaches hr, clock_step_reaches hr]
    rintro v (_ | ⟨_, hv⟩)
    · exact Int.le_refl _
    · exact h.past v hv
  · intro m
    rw [failuresInMinute_step hr]
    split
    · rename_i hm
      rw [← hm.2]
      omega
    · exact h.limit m
  · rw [clock_step_reaches hr, validationsOf_step_reaches hr, failuresInMinute_step hr]
    unfold replay
    cases ok with
    | true =>
      have hne := hsucc rfl
      rw [← hread] at hne
      rw [if_neg hne] at hnow
      simp only [Bool.true_eq_false, false_and, if_false, if_true]
      split <;> omega
    | false =>
      simp only [Bool.false_eq_true, if_false, true_and, if_true, he, bump, htime]
      split_ifs at hnow ⊢ <;> simp_all

theorem perMinute_step (hcount : Counted ipOf ip i s) (h : PerMinute ip i s)
    (hcur : Current ipOf ip i s act) (hsame : SameMinute ipOf ip i s act) :
    PerMinute ip i (loginStep ipOf s act) := by
  by_cases hr : ∃ c a ok, Reaches ipOf ip i s act c a ok
  · obtain ⟨c, a, ok, hr⟩ := hr
    exact perMinute_reaches hcount h hcur hsame hr
  · push Not at hr
    by_cases hclock : ∃ t, act = .clock t
    · obtain ⟨t, rfl⟩ := hclock
      exact perMinute_clock h (hsame.1 t rfl)
    · push Not at hclock
      have hvs := validationsOf_step_other hr
      have ht : (loginStep ipOf s act).clock = s.clock := clock_step_other hclock
      constructor
      · rw [hvs, ht]
        exact h.past
      · unfold failuresInMinute
        rw [hvs]
        exact h.limit
      · unfold failuresInMinute
        rw [hvs, ht]
        exact h.counted

theorem perMinute_init (t : Int) : PerMinute ip i (LoginState.init t) := by
  refine ⟨fun v hv => (by cases hv), fun m => Nat.zero_le _, ?_⟩
  change (0 : Int) ≤ _
  split <;> exact Int.le_refl _

theorem perMinute_of_sameMinute {t : Int} {acts : List LoginStep}
    (hcur : Along (loginStep ipOf) (Current ipOf ip i) (LoginState.init t) acts)
    (hsame : Along (loginStep ipOf) (SameMinute ipOf ip i) (LoginState.init t) acts) :
    Always (loginStep ipOf) (fun s => Counted ipOf ip i s ∧ PerMinute ip i s)
      (LoginState.init t) acts := by
  refine always_of_along ?_ ⟨counted_init t, perMinute_init t⟩ (hcur.and hsame)
  intro s act h hc
  exact ⟨counted_step h.1 hc.1, perMinute_step h.1 h.2 hc.1 hc.2⟩

end

/-! ## Steps that keep the conditions -/

theorem keeps_of_not_reaches {ipOf : Int → IpAddr} {ip : IpAddr} {i : Fin 2} {s : LoginState}
    {act : LoginStep} (hclock : act.conn ≠ none)
    (hno : ∀ c a ok, ¬ Reaches ipOf ip i s act c a ok) :
    Current ipOf ip i s act ∧ SameMinute ipOf ip i s act := by
  refine ⟨fun c a ok h => absurd h (hno c a ok), fun t ht => ?_,
    fun c a ok h => absurd h (hno c a ok)⟩
  rw [ht] at hclock
  exact absurd rfl hclock

/-- A failure of an attempt that read what is stored and is in its minute still. -/
theorem keeps_validate {ipOf : Int → IpAddr} {ip : IpAddr} {i : Fin 2} {s : LoginState} {c : Int}
    (hs : Settled ipOf ip i s) (hminute : clockMinute s.clock ≠ 0)
    (hread : ∀ a ∈ s.attempts c, a.failure = s.entry ip i ∧ a.time = clockMinute s.clock) :
    Current ipOf ip i s (.validate c false) ∧ SameMinute ipOf ip i s (.validate c false) := by
  refine ⟨?_, fun t ht => ?_, ?_⟩
  · rintro c a ok ⟨hact, hc, _⟩
    cases hact
    obtain ⟨hf, ht⟩ := hread a hc
    exact ⟨hs, hf, ht ▸ hminute⟩
  · cases ht
  · rintro c a ok ⟨hact, hc, _⟩
    cases hact
    exact ⟨(hread a hc).2, by simp⟩

/-! ## The limits of `check_failure` -/

/-- Along a run whose attempts at the address are validated on a current reading: the
    stored total is the number of failures since the last success in every state with no
    update outstanding, an attempt is validated only after at most 30 of them, and, if the
    attempts also keep to their minute, no minute has more than 7. -/
theorem login_failures_counted (ipOf : Int → IpAddr) (ip : IpAddr) (i : Fin 2) (t : Int)
    (acts : List LoginStep)
    (hcur : Along (loginStep ipOf) (Current ipOf ip i) (LoginState.init t) acts) :
    Always (loginStep ipOf)
      (fun s => Settled ipOf ip i s →
        (s.entry ip i).total = failuresSinceSuccess ip i s.validations)
      (LoginState.init t) acts ∧
    Along (loginStep ipOf)
      (fun s act => ∀ c a ok, Reaches ipOf ip i s act c a ok →
        failuresSinceSuccess ip i s.validations ≤ 30)
      (LoginState.init t) acts ∧
    (Along (loginStep ipOf) (SameMinute ipOf ip i) (LoginState.init t) acts →
      Always (loginStep ipOf) (fun s => ∀ m, failuresInMinute ip i s.validations m ≤ 7)
        (LoginState.init t) acts) := by
  have hcounted := counted_of_current hcur
  refine ⟨hcounted.mono fun s h => total_of_counted h, ?_, ?_⟩
  · exact hcounted.along (fun s act h hc c a ok => failuresSinceSuccess_of_reaches h hc) hcur
  · intro hsame
    exact (perMinute_of_sameMinute hcur hsame).mono fun s h => h.2.limit

/-- Connection 2 comes from 192.168.1.3, any other from 192.168.1.2. -/
def twoPeers (c : Int) : IpAddr := if c = 2 then .v4 0xC0A80103 else .v4 0xC0A80102

/-- Two wrong passwords from 192.168.1.2, between the check and the update of one from
    192.168.1.3, in November 2023. -/
theorem login_failures_counted_two_peers :
    let ip : IpAddr := .v4 0xC0A80102
    let acts : List LoginStep :=
      [.check 1 0, .check 2 0, .validate 2 false, .validate 1 false, .update 1, .check 1 0,
        .validate 1 false, .update 2, .update 1]
    let s := run (loginStep twoPeers) (LoginState.init 1700000000000) acts
    (s.entry ip 0).total = 2 ∧ failuresSinceSuccess ip 0 s.validations = 2 ∧
      failuresInMinute ip 0 s.validations 28333333 ≤ 7 := by
  intro ip acts s
  have hquiet : ∀ (s : LoginState) (act : LoginStep), act.conn ≠ none →
      (∀ ok, act ≠ .validate 1 ok) → (∀ c, act.conn = some c → c = 1 ∨ c = 2) →
      Current twoPeers ip 0 s act ∧ SameMinute twoPeers ip 0 s act := by
    refine fun s act hclock hact hconn => keeps_of_not_reaches hclock ?_
    rintro c a ok ⟨rfl, _, _, hip, _⟩
    obtain rfl | rfl := hconn c rfl
    · exact hact ok rfl
    · revert hip
      decide
  have hall : Along (loginStep twoPeers)
      (fun s act => Current twoPeers ip 0 s act ∧ SameMinute twoPeers ip 0 s act)
      (LoginState.init 1700000000000) acts := by
    refine ⟨hquiet _ _ (by decide) (by simp) (by simp [LoginStep.conn]),
      hquiet _ _ (by decide) (by simp) (by simp [LoginStep.conn]),
      hquiet _ _ (by decide) (by simp) (by simp [LoginStep.conn]), ?_,
      hquiet _ _ (by decide) (by simp) (by simp [LoginStep.conn]),
      hquiet _ _ (by decide) (by simp) (by simp [LoginStep.conn]), ?_,
      hquiet _ _ (by decide) (by simp) (by simp [LoginStep.conn]),
      hquiet _ _ (by decide) (by simp) (by simp [LoginStep.conn]), trivial⟩
    · have hs : Settled twoPeers ip 0 (run (loginStep twoPeers)
          (LoginState.init 1700000000000) [.check 1 0, .check 2 0, .validate 2 false]) :=
        settled_run [1, 2] (by decide) (by decide)
      exact keeps_validate hs (by decide) (by decide)
    · have hs : Settled twoPeers ip 0 (run (loginStep twoPeers)
          (LoginState.init 1700000000000) [.check 1 0, .check 2 0, .validate 2 false,
            .validate 1 false, .update 1, .check 1 0]) :=
        settled_run [1, 2] (by decide) (by decide)
      exact keeps_validate hs (by decide) (by decide)
  obtain ⟨htotal, _, hminute⟩ :=
    login_failures_counted twoPeers ip 0 1700000000000 acts (hall.mono fun _ _ h => h.1)
  have hs : Settled twoPeers ip 0 s := settled_run [1, 2] (by decide) (by decide)
  have htwo : failuresSinceSuccess ip 0 s.validations = 2 := by decide
  refine ⟨?_, htwo, (hminute (hall.mono fun _ _ h => h.2)).last _⟩
  rw [htotal.last hs, htwo]
  rfl

/-- Two connections of one address, checked before either is counted: both read an empty
    entry, both fail, and the entry ends at 1. -/
theorem login_failures_overlap :
    ¬ ∀ (ipOf : Int → IpAddr) (ip : IpAddr) (i : Fin 2) (t : Int) (acts : List LoginStep),
      Always (loginStep ipOf)
        (fun s => Settled ipOf ip i s →
          (s.entry ip i).total = failuresSinceSuccess ip i s.validations)
        (LoginState.init t) acts := by
  intro h
  let ip : IpAddr := .v4 0xC0A80102
  let acts : List LoginStep :=
    [.check 1 0, .check 2 0, .validate 1 false, .validate 2 false, .update 1, .update 2]
  have hs : Settled (fun _ => ip) ip 0
      (run (loginStep fun _ => ip) (LoginState.init 1700000000000) acts) :=
    settled_run [1, 2] (by decide) (by decide)
  have htotal := (h (fun _ => ip) ip 0 1700000000000 acts).last hs
  exact absurd htotal (by decide)

end LuodaRemote
