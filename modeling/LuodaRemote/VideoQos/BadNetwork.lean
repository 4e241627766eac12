/-
  The frame rate of a user whose network is bad, from an average delay of 150 ms on.

  There the rate is `slowFps` of the delay, between the bounds. A longer delay never gives more
  frames, but for the step at 300 ms: above it the rate is not held below the one in force
  (`never_faster_iff`).
-/
import LuodaRemote.VideoQos.Bounds

namespace LuodaRemote.VideoQos
open Lib

/-! ## The rule -/

/-- The rate in force, divided by what the delay is of 150 ms. -/
def devideFps (fps avgDelay : Nat) : Nat :=
  U32.ofRat ⌈(fps : ℚ) / ((avgDelay : ℚ) / delayThreshold150Ms)⌉

/-- What `adaptFps` gives from 150 ms on. -/
def slowFps (fps minFps avgDelay : Nat) : Nat :=
  if avgDelay < 200 then max minFps (devideFps fps avgDelay)
  else if avgDelay < 300 then min minFps (devideFps fps avgDelay)
  else if avgDelay < 600 then delayThreshold150Ms * minFps / avgDelay
  else min (delayThreshold150Ms * minFps / avgDelay) (devideFps fps avgDelay)

/-- The same between the bounds. -/
def slowRate (fps highestFps minFps avgDelay : Nat) : Nat :=
  max VideoQos.minFps (min (slowFps fps minFps avgDelay) highestFps)

theorem thresholds_pos {avgDelay : Nat} (havg : 0 < avgDelay) :
    (0 : ℚ) < (avgDelay : ℚ) / delayThreshold150Ms := by
  apply div_pos
  · exact_mod_cast havg
  · norm_num [delayThreshold150Ms]

theorem devideFps_le_iff {avgDelay n : Nat} (havg : 0 < avgDelay) (hn : n < 2 ^ 32 - 1)
    (fps : Nat) : devideFps fps avgDelay ≤ n ↔ 150 * fps ≤ n * avgDelay := by
  have hdelay := thresholds_pos havg
  have hquotient : (fps : ℚ) / ((avgDelay : ℚ) / delayThreshold150Ms) ≤ n ↔
      150 * fps ≤ n * avgDelay := by
    rw [div_le_iff₀ hdelay, mul_div_assoc', le_div_iff₀ (by norm_num [delayThreshold150Ms])]
    unfold delayThreshold150Ms
    rw [mul_comm]
    norm_cast
  unfold devideFps U32.ofRat
  rw [← hquotient, min_le_iff, or_iff_left (by omega), ← Int.floor_toNat,
    Int.floor_intCast, Int.toNat_le, Int.ceil_le, Int.cast_natCast]

theorem devideFps_anti {a b : Nat} (ha : 0 < a) (hab : a ≤ b) (fps : Nat) :
    devideFps fps b ≤ devideFps fps a := by
  have hdelay := thresholds_pos ha
  have hdelays : (a : ℚ) / delayThreshold150Ms ≤ (b : ℚ) / delayThreshold150Ms := by gcongr
  have hquotients : (fps : ℚ) / ((b : ℚ) / delayThreshold150Ms) ≤
      (fps : ℚ) / ((a : ℚ) / delayThreshold150Ms) := by gcongr
  unfold devideFps U32.ofRat
  apply min_le_min_right
  apply Nat.floor_mono
  exact_mod_cast Int.ceil_mono hquotients

/-- The step at 300 ms, where the rate goes to half of `minFps`, is one down. -/
def StepsDown (fps highestFps minFps : Nat) : Prop :=
  min (minFps / 2) highestFps ≤ max VideoQos.minFps (devideFps fps 299)

theorem slowRate_succ_le {fps highestFps minFps avgDelay : Nat}
    (h : StepsDown fps highestFps minFps) (havg : delayThreshold150Ms ≤ avgDelay) :
    slowRate fps highestFps minFps (avgDelay + 1) ≤ slowRate fps highestFps minFps avgDelay := by
  have hpos : 0 < avgDelay := Nat.lt_of_lt_of_le (by decide) havg
  have hanti : devideFps fps (avgDelay + 1) ≤ devideFps fps avgDelay :=
    devideFps_anti hpos (Nat.le_succ avgDelay) fps
  have hdiv : delayThreshold150Ms * minFps / (avgDelay + 1) ≤
      delayThreshold150Ms * minFps / avgDelay := Nat.div_le_div_left (Nat.le_succ _) hpos
  rcases eq_or_ne avgDelay 299 with rfl | hne
  · have hhalf : delayThreshold150Ms * minFps / (299 + 1) = minFps / 2 := by
      unfold delayThreshold150Ms
      omega
    have habove : slowFps fps minFps (299 + 1) = minFps / 2 := hhalf
    have hbelow : slowFps fps minFps 299 = min minFps (devideFps fps 299) := rfl
    unfold slowRate
    rw [habove, hbelow]
    unfold StepsDown at h
    omega
  · have hslow : slowFps fps minFps (avgDelay + 1) ≤ slowFps fps minFps avgDelay := by
      unfold slowFps
      split_ifs <;> omega
    unfold slowRate
    omega

theorem slowRate_anti {fps highestFps minFps a b : Nat} (h : StepsDown fps highestFps minFps)
    (ha : delayThreshold150Ms ≤ a) (hab : a ≤ b) :
    slowRate fps highestFps minFps b ≤ slowRate fps highestFps minFps a := by
  induction b, hab using Nat.le_induction with
  | base => exact le_rfl
  | succ b hab ih => exact (slowRate_succ_le h (ha.trans hab)).trans ih

theorem stepsDown_of_anti {fps highestFps minFps : Nat} (hhighest : VideoQos.minFps ≤ highestFps)
    (h : slowRate fps highestFps minFps 300 ≤ slowRate fps highestFps minFps 299) :
    StepsDown fps highestFps minFps := by
  have hhalf : slowFps fps minFps 300 = minFps / 2 := by
    show 150 * minFps / 300 = minFps / 2
    omega
  have hbelow : slowFps fps minFps 299 = min minFps (devideFps fps 299) := rfl
  unfold slowRate at h
  rw [hhalf, hbelow] at h
  unfold StepsDown
  omega

/-- The rates that `usualFps` gives are few, and even. -/
theorem stepsDown_iff {highestFps minFps : Nat} (hmin : minFps ∈ [8, 10, 12])
    (hhighest : 1 ≤ highestFps) (fps : Nat) :
    StepsDown fps highestFps minFps ↔ minFps ≤ fps + 2 ∨ highestFps ≤ fps / 2 + 1 := by
  have hsix : min (minFps / 2) highestFps ≤ 6 := by
    fin_cases hmin <;> omega
  have hle : devideFps fps 299 ≤ min (minFps / 2) highestFps - 1 ↔
      150 * fps ≤ (min (minFps / 2) highestFps - 1) * 299 :=
    devideFps_le_iff (by decide) (by omega) fps
  unfold StepsDown VideoQos.minFps
  fin_cases hmin <;> omega

theorem slowRate_le {fps highestFps minFps avgDelay : Nat} (hmin : 1 ≤ minFps)
    (havg : delayThreshold150Ms ≤ avgDelay) :
    slowRate fps highestFps minFps avgDelay ≤ max fps minFps := by
  have hdevide : devideFps fps avgDelay ≤ fps := devideFps_le fps havg
  have hdiv : delayThreshold150Ms * minFps / avgDelay ≤ minFps := by
    apply Nat.div_le_of_le_mul
    exact Nat.mul_le_mul_right minFps havg
  have hslow : slowFps fps minFps avgDelay ≤ max fps minFps := by
    unfold slowFps
    split_ifs <;> omega
  unfold slowRate VideoQos.minFps
  omega

/-! ## The function -/

theorem adaptFps_slow {avgDelay : Nat} (havg : delayThreshold150Ms ≤ avgDelay)
    (quick fps minFps normalFps oldAvgDelay : Nat) :
    UserDelay.adaptFps quick fps minFps normalFps (delayThreshold150Ms * minFps) oldAvgDelay
      avgDelay = .ok (quick, slowFps fps minFps avgDelay) := by
  have hlarge : 150 ≤ avgDelay := havg
  have hne : avgDelay ≠ 0 := by omega
  have hthreshold : (delayThreshold150Ms : ℚ) ≠ 0 := by norm_num [delayThreshold150Ms]
  have htimes : divRat avgDelay delayThreshold150Ms = .ok ((avgDelay : ℚ) / delayThreshold150Ms) :=
    if_neg hthreshold
  have hdevide : divRat fps ((avgDelay : ℚ) / delayThreshold150Ms) =
      .ok ((fps : ℚ) / ((avgDelay : ℚ) / delayThreshold150Ms)) :=
    if_neg (div_ne_zero (Nat.cast_ne_zero.mpr hne) hthreshold)
  have hdiv : U32.div (delayThreshold150Ms * minFps) avgDelay =
      .ok (delayThreshold150Ms * minFps / avgDelay) := if_neg hne
  unfold UserDelay.adaptFps
  rw [if_neg (by omega), if_neg (by omega), if_neg (Nat.not_lt.mpr havg), htimes, hdiv]
  show (do
    let devide ← divRat fps ((avgDelay : ℚ) / delayThreshold150Ms)
    _) = _
  rw [hdevide]
  unfold slowFps
  split_ifs <;> rfl

theorem returns_self {α : Type} (x : Except Fault α) :
    Returns (fun _ => True) x fun a => x = .ok a := by
  cases x with
  | error e => trivial
  | ok a => exact returns_ok rfl

section NetworkDelay

variable {d : UserDelay} {delay fps highestFps minFps normalFps dividendMs : Nat}

/-- The history and the round trips are those of the delay; the rest is not looked at. -/
theorem avgDelay_networkDelay {d' : UserDelay}
    (h : d.networkDelay delay fps highestFps minFps normalFps dividendMs = .ok d') :
    (∃ oldAvgDelay, d.avgDelay = .ok oldAvgDelay) ∧
      d'.avgDelay = (d.addDelay (max delay 10)).avgDelay := by
  cases hold : d.avgDelay with
  | error e =>
    unfold UserDelay.networkDelay at h
    rw [hold] at h
    cases h
  | ok oldAvgDelay =>
    refine ⟨⟨oldAvgDelay, rfl⟩, ?_⟩
    have hkeeps : Returns (fun _ => True)
        (d.networkDelay delay fps highestFps minFps normalFps dividendMs)
        fun d' => d'.avgDelay = (d.addDelay (max delay 10)).avgDelay := by
      unfold UserDelay.networkDelay
      refine (returns_self _).bind fun _ _ => (returns_self _).bind fun _ _ => ?_
      refine (returns_self _).bind fun _ _ => (returns_self _).bind fun _ _ => ?_
      exact (returns_self _).bind fun _ _ => returns_ok rfl
    rw [h] at hkeeps
    exact hkeeps

theorem networkDelay_slow {oldAvgDelay avgDelay : Nat} (hold : d.avgDelay = .ok oldAvgDelay)
    (havg : (d.addDelay (max delay 10)).avgDelay = .ok avgDelay)
    (hslow : delayThreshold150Ms ≤ avgDelay) (hhighest : VideoQos.minFps ≤ highestFps) :
    d.networkDelay delay fps highestFps minFps normalFps (delayThreshold150Ms * minFps) =
      .ok { d.addDelay (max delay 10) with
        increaseFpsCount := 0
        quickIncreaseFpsCount := 0
        fps := some (slowRate fps highestFps minFps avgDelay) } := by
  have hlarge : 150 ≤ avgDelay := hslow
  have hmax : max avgDelay 10 = avgDelay := by omega
  have hclamp : clamp VideoQos.minFps highestFps (slowFps fps minFps avgDelay) =
      .ok (slowRate fps highestFps minFps avgDelay) := if_pos hhighest
  have hgood : ¬ avgDelay < delayThreshold150Ms := by omega
  have hquick : 50 < avgDelay := by omega
  have hreset : ¬ 3 ≤ 0 := by omega
  unfold UserDelay.networkDelay
  simp only [hold, havg, bind, Except.bind, hmax, adaptFps_slow hslow, if_neg hgood,
    if_pos hquick, if_neg hreset, pure, Except.pure, hclamp]

end NetworkDelay

/-! ## The state -/

theorem Table.lookup_modify {κ α : Type} [DecidableEq κ] (t : Table κ α) (k : κ) (f : α → α) :
    (t.modify k f).lookup k = (t.lookup k).map f := by
  have h : (t.modify k f).lookup k = (t.lookup k).map fun a => if k = k then f a else a :=
    List.dlookup_map₂ (f := fun k' a => if k' = k then f a else a) k
  simpa only [if_true] using h

namespace VideoQoS

variable (s : VideoQoS) (id : Int)

/-- The same with other delays of a user. -/
def withDelay (d : UserDelay) : VideoQoS :=
  { s with users := s.users.modify id fun u => { u with delay := d } }

theorem values_withDelay {β : Type} (g : UserData → β) (hg : ∀ u d, g { u with delay := d } = g u)
    (d : UserDelay) : (s.withDelay id d).users.values.map g = s.users.values.map g := by
  unfold withDelay Table.modify Table.update Table.values
  rw [List.map_map, List.map_map, List.map_map]
  apply List.map_congr_left
  intro e _
  show g (if e.1 = id then { e.2 with delay := d } else e.2) = g e.2
  split
  · exact hg e.2 d
  · rfl

theorem highestFps_withDelay (d : UserDelay) : (s.withDelay id d).highestFps = s.highestFps := by
  unfold highestFps
  rw [values_withDelay s id userFps (fun _ _ => rfl)]

theorem latestQuality_withDelay (d : UserDelay) :
    (s.withDelay id d).latestQuality = s.latestQuality := by
  have h := values_withDelay s id (·.quality) (fun _ _ => rfl) d
  have hfilter (l : List UserData) :
      l.filterMap (·.quality) = (l.map (·.quality)).filterMap fun q => q := by
    rw [List.filterMap_map]
    rfl
  unfold latestQuality
  rw [hfilter, h, hfilter]

variable {s id}

theorem highestFps_ok (s : VideoQoS) :
    ∃ highestFps, s.highestFps = .ok highestFps ∧ minFps ≤ highestFps := by
  have hbounds : minFps ≤ maxFps := by decide
  unfold highestFps clamp
  rw [if_pos hbounds]
  exact ⟨_, rfl, le_max_left _ _⟩

theorem minFps_le_highestFps {highestFps : Nat} (h : s.highestFps = .ok highestFps) :
    minFps ≤ highestFps := by
  obtain ⟨highestFps', h', hpos⟩ := highestFps_ok s
  obtain rfl : highestFps' = highestFps := Except.ok.inj (h'.symm.trans h)
  exact hpos

/-- Adjusting the rate in force does not touch the users. -/
theorem adjustFps_users (s : VideoQoS) (now : Nat) :
    ∃ t, s.adjustFps now = .ok t ∧ t.users = s.users := by
  obtain ⟨highestFps, hhighest, hpos⟩ := highestFps_ok s
  unfold adjustFps
  rw [hhighest]
  simp only [bind, Except.bind, clamp, if_pos hpos]
  exact ⟨_, rfl, rfl⟩

theorem adjustRatio_users (s : VideoQoS) (dynamicScreen : Bool) (now : Nat) :
    Returns (fun _ => True) (s.adjustRatio dynamicScreen now) fun t => t.users = s.users := by
  unfold adjustRatio
  split
  · exact returns_ok rfl
  · refine (returns_self _).bind fun delays _ => ?_
    split
    · exact returns_ok rfl
    · refine (returns_self _).bind fun _ _ => (returns_self _).bind fun _ _ => ?_
      exact (returns_self _).bind fun _ _ => returns_ok rfl

/-- The least rate for the quality that was asked for. -/
def leastFps (s : VideoQoS) : Nat := (usualFps s.latestQuality.ratio).1

theorem leastFps_withDelay (s : VideoQoS) (id : Int) (d : UserDelay) :
    (s.withDelay id d).leastFps = s.leastFps := by
  unfold leastFps
  rw [latestQuality_withDelay]

theorem leastFps_mem (s : VideoQoS) : s.leastFps ∈ [8, 10, 12] := by
  unfold leastFps usualFps
  split_ifs <;> simp

theorem lookup_withDelay {user : UserData} (huser : s.users.lookup id = some user)
    (d : UserDelay) : (s.withDelay id d).users.lookup id = some { user with delay := d } := by
  show (s.users.modify id _).lookup id = _
  rw [Table.lookup_modify, huser]
  rfl

section

variable {user : UserData} {highestFps : Nat} (huser : s.users.lookup id = some user)
  (hhighest : s.highestFps = .ok highestFps) (linux : Bool) (delay now : Nat)
include huser hhighest

theorem userNetworkDelay_eq :
    s.userNetworkDelay linux id delay now = (do
      let d ← user.delay.networkDelay delay s.fps highestFps s.leastFps
        (usualFps s.latestQuality.ratio).2 (delayThreshold150Ms * s.leastFps)
      let t ← (s.withDelay id d).adjustFps now
      if user.delay.fps.isNone && !linux then t.adjustRatio false now else pure t) := by
  have hleast : s.leastFps ≤ 12 := usualFps_le _
  have hmul : U32.mul delayThreshold150Ms s.leastFps = .ok (delayThreshold150Ms * s.leastFps) := by
    apply if_pos
    unfold delayThreshold150Ms
    omega
  unfold userNetworkDelay
  rw [hhighest]
  show (do
    let dividendMs ← U32.mul delayThreshold150Ms s.leastFps
    _) = _
  rw [hmul, huser]
  rfl

theorem userNetworkDelay_returns :
    Returns (fun _ => True) (s.userNetworkDelay linux id delay now) fun t =>
      ∃ d, user.delay.networkDelay delay s.fps highestFps s.leastFps
          (usualFps s.latestQuality.ratio).2 (delayThreshold150Ms * s.leastFps) = .ok d ∧
        t.users.lookup id = some { user with delay := d } := by
  rw [userNetworkDelay_eq huser hhighest]
  refine (returns_self _).bind fun d hd => ?_
  obtain ⟨t, ht, husers⟩ := adjustFps_users (s.withDelay id d) now
  have hlookup : t.users.lookup id = some { user with delay := d } := by
    rw [husers, lookup_withDelay huser]
  rw [ht]
  show Returns _ (if user.delay.fps.isNone && !linux then t.adjustRatio false now else pure t) _
  split
  · refine (adjustRatio_users t false now).mono fun t' ht' => ⟨d, hd, ?_⟩
    rw [ht', hlookup]
  · exact returns_ok ⟨d, hd, hlookup⟩

/-- Of a user that had a rate before. -/
theorem userNetworkDelay_ok {d : UserDelay} (hrate : user.delay.fps.isSome)
    (hd : user.delay.networkDelay delay s.fps highestFps s.leastFps
      (usualFps s.latestQuality.ratio).2 (delayThreshold150Ms * s.leastFps) = .ok d) :
    ∃ t, s.userNetworkDelay linux id delay now = .ok t ∧
      t.users.lookup id = some { user with delay := d } := by
  obtain ⟨t, ht, husers⟩ := adjustFps_users (s.withDelay id d) now
  have hnone : user.delay.fps.isNone = false := by
    rw [← Option.not_isSome, hrate]
    rfl
  refine ⟨t, ?_, ?_⟩
  · rw [userNetworkDelay_eq huser hhighest, hd]
    show ((s.withDelay id d).adjustFps now >>= _) = _
    rw [ht, hnone]
    rfl
  · rw [husers, lookup_withDelay huser]

end

/-! ## The delay and the rate -/

/-- The average delay of a user and the rate that he has. -/
def Outcome (s : VideoQoS) (id : Int) (avgDelay fps : Nat) : Prop :=
  ∃ user, s.users.lookup id = some user ∧ user.delay.avgDelay = .ok avgDelay ∧
    user.delay.fps = some fps

/-- With some delays before, and one more, the function comes to this average and this rate. -/
def Assigns (s : VideoQoS) (linux : Bool) (id : Int) (now avgDelay fps : Nat) : Prop :=
  ∃ d delay t, (s.withDelay id d).userNetworkDelay linux id delay now = .ok t ∧
    t.Outcome id avgDelay fps

def NeverFaster (s : VideoQoS) (linux : Bool) (id : Int) (now : Nat) : Prop :=
  (∀ avgDelay fps avgDelay' fps', s.Assigns linux id now avgDelay fps →
    s.Assigns linux id now avgDelay' fps' → delayThreshold150Ms ≤ avgDelay →
      avgDelay ≤ avgDelay' → fps' ≤ fps) ∧
  ∀ avgDelay fps, s.Assigns linux id now avgDelay fps → delayThreshold150Ms ≤ avgDelay →
    fps ≤ max s.fps s.leastFps

/-- A user that has a rate and no delays yet. -/
def fresh : UserDelay := { fps := some initFps }

theorem avgDelay_fresh {avgDelay : Nat} (hlt : avgDelay < 2 ^ 32) :
    (fresh.addDelay avgDelay).avgDelay = .ok avgDelay := by
  have hrtt : (fresh.addDelay avgDelay).rttCalculator.getRtt = none := rfl
  have hsum : U32.sum [avgDelay] = .ok avgDelay := by
    unfold U32.sum
    rw [List.sum_singleton, if_pos hlt]
  have hdiv : U32.div avgDelay ([avgDelay].length % 2 ^ 32) = .ok avgDelay :=
    congrArg Except.ok (Nat.div_one avgDelay)
  unfold UserDelay.avgDelay
  rw [hrtt]
  show (U32.sum [avgDelay] >>= _) = _
  rw [hsum]
  show (U32.div avgDelay ([avgDelay].length % 2 ^ 32) >>= _) = _
  rw [hdiv]
  rfl

section

variable {user : UserData} {highestFps : Nat} {linux : Bool} {now avgDelay fps : Nat}
  (huser : s.users.lookup id = some user) (hhighest : s.highestFps = .ok highestFps)
include huser hhighest

theorem rate_of_assigns (h : s.Assigns linux id now avgDelay fps)
    (hslow : delayThreshold150Ms ≤ avgDelay) :
    fps = slowRate s.fps highestFps s.leastFps avgDelay := by
  have hpos := minFps_le_highestFps hhighest
  obtain ⟨d, delay, t, ht, user', hlookup, havg, hfps⟩ := h
  have hleast := leastFps_withDelay s id d
  have hreturns := userNetworkDelay_returns (lookup_withDelay huser d)
    ((highestFps_withDelay s id d).trans hhighest) linux delay now
  rw [ht] at hreturns
  obtain ⟨d', hd', hlookup'⟩ := hreturns
  obtain rfl : { user with delay := d' } = user' :=
    Option.some.inj (hlookup'.symm.trans hlookup)
  obtain ⟨⟨oldAvgDelay, hold⟩, hkeeps⟩ := avgDelay_networkDelay hd'
  rw [networkDelay_slow hold (hkeeps.symm.trans havg) hslow hpos] at hd'
  rw [← Except.ok.inj hd', hleast] at hfps
  exact (Option.some.inj hfps).symm

theorem assigns_rate (hslow : delayThreshold150Ms ≤ avgDelay) (hlt : avgDelay < 2 ^ 32) :
    s.Assigns linux id now avgDelay (slowRate s.fps highestFps s.leastFps avgDelay) := by
  have hpos := minFps_le_highestFps hhighest
  have hlarge : 150 ≤ avgDelay := hslow
  have hmax : max avgDelay 10 = avgDelay := by omega
  have hleast := leastFps_withDelay s id fresh
  have havg : (fresh.addDelay (max avgDelay 10)).avgDelay = .ok avgDelay := by
    rw [hmax, avgDelay_fresh hlt]
  have hold : fresh.avgDelay = .ok delayThreshold150Ms := rfl
  obtain ⟨t, ht, hlookup⟩ := userNetworkDelay_ok (lookup_withDelay huser fresh)
    ((highestFps_withDelay s id fresh).trans hhighest) linux avgDelay now rfl
    (networkDelay_slow hold havg hslow hpos)
  refine ⟨fresh, avgDelay, t, ht, _, hlookup, havg, ?_⟩
  rw [hleast]
  rfl

end

theorem never_faster_iff {user : UserData} (huser : s.users.lookup id = some user) (linux : Bool)
    (now : Nat) :
    s.NeverFaster linux id now ↔
      s.leastFps ≤ s.fps + 2 ∨
        ∃ highestFps, s.highestFps = .ok highestFps ∧ highestFps ≤ s.fps / 2 + 1 := by
  obtain ⟨highestFps, hhighest, hpos⟩ := highestFps_ok s
  have hmin := leastFps_mem s
  have hiff : (∃ h, s.highestFps = .ok h ∧ h ≤ s.fps / 2 + 1) ↔ highestFps ≤ s.fps / 2 + 1 := by
    rw [hhighest]
    simp
  rw [hiff, ← stepsDown_iff hmin hpos]
  constructor
  · intro h
    apply stepsDown_of_anti hpos
    exact h.1 299 _ 300 _ (assigns_rate huser hhighest (by decide) (by decide))
      (assigns_rate huser hhighest (by decide) (by decide)) (by decide) (by decide)
  · intro h
    refine ⟨fun a fps b fps' ha hb hslow hab => ?_, fun a fps ha hslow => ?_⟩
    · rw [rate_of_assigns huser hhighest ha hslow,
        rate_of_assigns huser hhighest hb (hslow.trans hab)]
      exact slowRate_anti h hslow hab
    · rw [rate_of_assigns huser hhighest ha hslow]
      refine slowRate_le ?_ hslow
      revert hmin
      generalize s.leastFps = least
      intro hmin
      fin_cases hmin <;> decide

/-- One user, and the rate in force. -/
def single (fps : Nat) : VideoQoS :=
  { VideoQoS.init 0 with fps, users := AList.singleton 1 { delay := { fps := some fps } } }

theorem leastFps_single (fps : Nat) : (single fps).leastFps = 10 := by
  show (usualFps brBalanced).1 = 10
  norm_num [usualFps, brBalanced, brBest]

theorem single_never_faster : (single 30).NeverFaster false 1 0 := by
  refine (@never_faster_iff (single 30) 1 { delay := { fps := some 30 } } rfl false 0).mpr ?_
  left
  rw [leastFps_single]
  decide

theorem single_assigns {avgDelay : Nat} (hslow : delayThreshold150Ms ≤ avgDelay)
    (hlt : avgDelay < 2 ^ 32) :
    (single 1).Assigns false 1 0 avgDelay (slowRate 1 30 10 avgDelay) := by
  have h := @assigns_rate (single 1) 1 { delay := { fps := some 1 } } 30 false 0 avgDelay rfl rfl
    hslow hlt
  rwa [leastFps_single] at h

/-- After an average of 299 ms the rate is 1, and after 300 ms it is 5. -/
theorem more_frames_at_300 : ¬ (single 1).NeverFaster false 1 0 := by
  intro h
  have hbelow : devideFps 1 299 ≤ 1 := (devideFps_le_iff (by decide) (by decide) 1).mpr (by decide)
  have hdown : slowRate 1 30 10 300 ≤ slowRate 1 30 10 299 :=
    h.1 299 _ 300 _ (single_assigns (by decide) (by decide))
      (single_assigns (by decide) (by decide)) (by decide) (by decide)
  have habove : slowRate 1 30 10 300 = 5 := by decide
  have hone : slowRate 1 30 10 299 = max 1 (min (min 10 (devideFps 1 299)) 30) := rfl
  omega

end VideoQoS

end LuodaRemote.VideoQos
