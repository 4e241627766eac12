/-
  The bounds of the frame rate, over whole runs.

  `Good` is what every state satisfies: the rate is between 1 and 120, the caps are as well, and no
  history of delays is longer than nine. From it each operation is `Safe`: nothing goes wrong in it
  but a sum of delays that does not fit in a word. `Capped` is what adjusting the rate establishes,
  and setting a cap may break until the next time.
-/
import LuodaRemote.VideoQos.State

namespace LuodaRemote.VideoQos
open Lib

/-! ## Tables -/

namespace Table

variable {κ α : Type} [DecidableEq κ] {t : Table κ α} {P : α → Prop}

theorem mem_values_of_lookup {k : κ} {a : α} (h : t.lookup k = some a) : a ∈ t.values :=
  List.mem_map_of_mem (f := Sigma.snd) (AList.mem_lookup_iff.mp h)

theorem forall_insert (ht : ∀ a ∈ t.values, P a) (k : κ) {a : α} (ha : P a) :
    ∀ b ∈ values (t.insert k a), P b := by
  intro b hb
  rw [values, AList.entries_insert, List.map_cons, List.mem_cons] at hb
  rcases hb with rfl | hb
  · exact ha
  · exact ht b (((List.kerase_sublist k t.entries).map Sigma.snd).subset hb)

theorem forall_erase (ht : ∀ a ∈ t.values, P a) (k : κ) : ∀ b ∈ values (t.erase k), P b :=
  fun b hb => ht b (((List.kerase_sublist k t.entries).map Sigma.snd).subset hb)

theorem forall_modify (ht : ∀ a ∈ t.values, P a) (k : κ) {f : α → α}
    (hf : ∀ a, P a → P (f a)) : ∀ b ∈ (t.modify k f).values, P b := by
  intro b hb
  rw [values, modify, update, List.map_map] at hb
  obtain ⟨e, he, rfl⟩ := List.mem_map.mp hb
  have ha : P e.2 := ht e.2 (List.mem_map_of_mem he)
  show P (if e.1 = k then f e.2 else e.2)
  split
  · exact hf _ ha
  · exact ha

end Table

/-! ## What holds of every state -/

structure UserData.Good (u : UserData) : Prop where
  custom : ∀ fps ∈ u.customFps, minFps ≤ fps ∧ fps ≤ maxFps
  auto : ∀ fps ∈ u.autoAdjustFps, minFps ≤ fps ∧ fps ≤ maxFps
  quality : ∀ q ∈ u.quality, brMin ≤ q.2.ratio
  history : u.delay.delayHistory.length ≤ historyDelayLen + 1

structure VideoQoS.Good (s : VideoQoS) : Prop where
  fps_pos : minFps ≤ s.fps
  fps_le : s.fps ≤ maxFps
  users : ∀ u ∈ s.users.values, u.Good
  bitrate : s.bitrateStore + 300 < 2 ^ 32

/-- The rate is below every cap, and at most 2 while a user does not answer. -/
structure VideoQoS.Capped (s : VideoQoS) : Prop where
  custom : ∀ u ∈ s.users.values, ∀ fps ∈ u.customFps, s.fps ≤ fps
  auto : ∀ u ∈ s.users.values, ∀ fps ∈ u.autoAdjustFps, s.fps ≤ fps
  delayed : ∀ u ∈ s.users.values, u.delay.responseDelayed = true → s.fps ≤ 2

/-- Nothing but a sum of delays goes wrong. -/
abbrev Safe {α : Type} (x : Except Fault α) (Q : α → Prop) : Prop :=
  Returns (· = Fault.sumOverflow) x Q

theorem good_default : ({} : UserData).Good where
  custom := by simp
  auto := by simp
  quality := by simp
  history := Nat.zero_le _

theorem good_init (now : Nat) : (VideoQoS.init now).Good where
  fps_pos := show minFps ≤ fpsDefault by decide
  fps_le := show fpsDefault ≤ maxFps by decide
  users u hu := absurd hu List.not_mem_nil
  bitrate := show 0 + 300 < 2 ^ 32 by decide

theorem sum_safe (as : List Nat) : Safe (U32.sum as) (· = as.sum) :=
  U32.returns_sum (A := (· = Fault.sumOverflow)) rfl as

/-! ## Delays -/

section Delays

variable {d : UserDelay}

theorem avgDelay_safe (hlen : d.delayHistory.length ≤ historyDelayLen + 1) :
    Safe d.avgDelay fun _ => True := by
  unfold UserDelay.avgDelay
  split
  · rename_i hpos
    have hlen' : d.delayHistory.length % 2 ^ 32 ≠ 0 := by
      rw [Nat.mod_eq_of_lt (hlen.trans_lt (by decide))]
      exact hpos.ne'
    refine (sum_safe _).bind fun sum _ => (U32.returns_div hlen').bind fun avg _ => ?_
    split
    · split
      · rename_i hrtt
        exact (U32.returns_sub hrtt.le).mono fun _ _ => trivial
      · trivial
    · trivial
  · trivial

theorem length_addDelay (hlen : d.delayHistory.length ≤ historyDelayLen + 1) (delay : Nat) :
    (d.addDelay delay).delayHistory.length ≤ historyDelayLen + 1 := by
  unfold UserDelay.addDelay
  dsimp only
  rw [List.length_append, List.length_singleton]
  split
  · rw [List.length_tail]
    omega
  · omega

/-- A delay of at least 150 ms does not raise the rate. -/
theorem devideFps_le (fps : Nat) {avgDelay : Nat} (havg : delayThreshold150Ms ≤ avgDelay) :
    U32.ofRat ⌈(fps : ℚ) / ((avgDelay : ℚ) / delayThreshold150Ms)⌉ ≤ fps := by
  have htimes : (1 : ℚ) ≤ (avgDelay : ℚ) / delayThreshold150Ms := by
    rw [le_div_iff₀ (by norm_num [delayThreshold150Ms]), one_mul]
    exact_mod_cast havg
  refine U32.ofRat_le ?_
  have hceil : ⌈(fps : ℚ) / ((avgDelay : ℚ) / delayThreshold150Ms)⌉ ≤ (fps : ℤ) :=
    Int.ceil_le.mpr (by
      rw [Int.cast_natCast]
      exact div_le_self (Nat.cast_nonneg _) htimes)
  exact_mod_cast hceil

/-- The rule divides by nothing that is zero, and its result is small. -/
theorem adaptFps_safe {quick fps minFps normalFps dividendMs oldAvgDelay avgDelay : Nat}
    (hfps : fps ≤ maxFps) (hmin : minFps ≤ maxFps) (hdividend : dividendMs < 2 ^ 16)
    (havg : avgDelay ≠ 0) :
    Safe (UserDelay.adaptFps quick fps minFps normalFps dividendMs oldAvgDelay avgDelay)
      fun r => r.2 < 2 ^ 16 := by
  unfold maxFps at hfps hmin
  have hdiv := Nat.div_le_self dividendMs avgDelay
  have hup (n : Nat) (hn : n ≤ 5) (r : Nat) :
      Safe (U32.add fps n >>= fun fps => pure (r, max minFps fps)) fun r => r.2 < 2 ^ 16 := by
    refine (U32.returns_add (by omega)).bind fun fps' hfps' => returns_ok ?_
    show max minFps fps' < 2 ^ 16
    omega
  unfold UserDelay.adaptFps
  split
  · -- below 50 ms
    split
    · exact hup 5 le_rfl 0
    · refine hup _ ?_ (quick + 1)
      split <;> omega
  · split
    · -- below 100 ms
      refine hup _ ?_ quick
      split
      · split <;> omega
      · omega
    · split
      · -- below 150 ms
        refine returns_ok ?_
        show max minFps fps < 2 ^ 16
        omega
      · rename_i hslow
        have hdevide := devideFps_le fps (Nat.not_lt.mp hslow)
        have hthreshold : (delayThreshold150Ms : ℚ) ≠ 0 := by norm_num [delayThreshold150Ms]
        have htimes : (avgDelay : ℚ) / delayThreshold150Ms ≠ 0 :=
          div_ne_zero (Nat.cast_ne_zero.mpr havg) hthreshold
        refine (returns_divRat hthreshold).bind fun times heq => ?_
        subst heq
        refine (returns_divRat htimes).bind fun devide heq => ?_
        subst heq
        dsimp only
        split
        · refine returns_ok (?_ : max _ _ < _)
          omega
        · split
          · refine returns_ok (?_ : min _ _ < _)
            omega
          · split
            · refine (U32.returns_div havg).bind fun fps' heq => returns_ok (?_ : fps' < _)
              omega
            · refine (U32.returns_div havg).bind fun fps' heq => returns_ok (?_ : min _ _ < _)
              omega

theorem networkDelay_safe {delay fps highestFps minFps normalFps dividendMs : Nat}
    (hlen : d.delayHistory.length ≤ historyDelayLen + 1) (hfps : fps ≤ maxFps)
    (hmin : minFps ≤ maxFps) (hdividend : dividendMs < 2 ^ 16)
    (hhighest : VideoQos.minFps ≤ highestFps) :
    Safe (d.networkDelay delay fps highestFps minFps normalFps dividendMs)
      fun d' => d'.delayHistory.length ≤ historyDelayLen + 1 := by
  have hlen' := length_addDelay hlen (max delay 10)
  unfold UserDelay.networkDelay
  refine (avgDelay_safe hlen).bind fun oldAvgDelay _ => ?_
  refine (avgDelay_safe hlen').bind fun avgDelay _ => ?_
  refine (adaptFps_safe hfps hmin hdividend (by omega)).bind fun (quick, fps') hfps' => ?_
  have hstable (increase : Nat) :
      Safe (if 3 ≤ increase then U32.add fps' 1 else pure fps') fun _ => True := by
    have hroom : fps' + 1 < 2 ^ 32 := by
      have hsmall : fps' < 2 ^ 16 := hfps'
      omega
    split
    · exact (U32.returns_add hroom).mono fun _ _ => trivial
    · trivial
  refine (hstable _).bind fun _ _ => (returns_clamp hhighest _).bind fun _ _ => ?_
  exact returns_ok hlen'

end Delays

/-! ## The highest rate -/

section Users

variable {u : UserData} {s : VideoQoS}

theorem userFps_pos (hu : u.Good) : minFps ≤ VideoQoS.userFps u := by
  have hcustom : minFps ≤ u.customFps.getD fpsDefault := by
    cases hfps : u.customFps with
    | none => decide
    | some fps => exact (hu.custom fps hfps).1
  unfold VideoQoS.userFps
  cases hauto : u.autoAdjustFps with
  | none => exact hcustom
  | some autoAdjustFps =>
    dsimp only
    split
    · exact (hu.auto autoAdjustFps hauto).1
    · exact hcustom

/-- The rate of a user is below what he set and below what his client asked for. -/
theorem userFps_le (hu : u.Good) :
    (∀ fps ∈ u.customFps, VideoQoS.userFps u ≤ fps) ∧
      ∀ fps ∈ u.autoAdjustFps, VideoQoS.userFps u ≤ fps := by
  unfold VideoQoS.userFps
  refine ⟨fun fps hfps => ?_, fun fps hfps => ?_⟩
  · have hpos : fps ≠ 0 := Nat.ne_of_gt (hu.custom fps hfps).1
    rw [Option.mem_def.mp hfps, Option.getD_some]
    dsimp only
    split
    · split
      · rename_i hlow
        exact (hlow.resolve_left hpos).le
      · exact le_rfl
    · exact le_rfl
  · rw [Option.mem_def.mp hfps]
    dsimp only
    split
    · exact le_rfl
    · rename_i hhigh
      exact Nat.not_lt.mp fun hlow => hhigh (.inr hlow)

theorem highestFps_safe (hs : ∀ u ∈ s.users.values, u.Good) :
    Safe s.highestFps fun highestFps => minFps ≤ highestFps ∧ highestFps ≤ maxFps ∧
      ∀ u ∈ s.users.values, highestFps ≤ VideoQoS.userFps u := by
  unfold VideoQoS.highestFps
  refine (returns_clamp (by decide) _).mono fun highestFps heq => ?_
  subst heq
  refine ⟨le_max_left _ _, max_le (by decide) (min_le_right _ _), fun u hu => ?_⟩
  refine max_le (userFps_pos (hs u hu)) ((min_le_left _ _).trans ?_)
  have hmem : VideoQoS.userFps u ∈ (s.users.values.map VideoQoS.userFps).filter (minFps ≤ ·) :=
    List.mem_filter.mpr
      ⟨List.mem_map_of_mem hu, decide_eq_true (userFps_pos (hs u hu))⟩
  cases hleast : ((s.users.values.map VideoQoS.userFps).filter (minFps ≤ ·)).min? with
  | none =>
    rw [List.min?_eq_none_iff] at hleast
    exact absurd hmem (hleast ▸ List.not_mem_nil)
  | some least => exact (List.min?_eq_some_iff.mp hleast).2 _ hmem

/-- Adjusting puts the rate below every cap, and changes nothing else. -/
theorem adjustFps_safe (hs : s.Good) (now : Nat) :
    Safe (s.adjustFps now) fun t => t.Good ∧ t.Capped := by
  unfold VideoQoS.adjustFps
  refine (highestFps_safe hs.users).bind fun highestFps ⟨hpos, hle, hcaps⟩ => ?_
  refine (returns_clamp hpos _).bind fun fps heq => returns_ok ⟨?_, ?_⟩
  · exact
      { fps_pos := heq ▸ le_max_left _ _
        fps_le := heq ▸ max_le (by decide) ((min_le_right _ _).trans hle)
        users := hs.users
        bitrate := hs.bitrate }
  · have hhighest : fps ≤ highestFps := heq ▸ max_le hpos (min_le_right _ _)
    refine ⟨fun u hu cap hcap => ?_, fun u hu cap hcap => ?_, fun u hu hdelayed => ?_⟩
    · exact (hhighest.trans (hcaps u hu)).trans ((userFps_le (hs.users u hu)).1 cap hcap)
    · exact (hhighest.trans (hcaps u hu)).trans ((userFps_le (hs.users u hu)).2 cap hcap)
    · have hany : s.users.values.any (·.delay.responseDelayed) = true :=
        List.any_eq_true.mpr ⟨u, hu, hdelayed⟩
      have hlow (fps : Nat) : (if minFps + 1 < fps then minFps + 1 else fps) ≤ 2 := by
        split
        · decide
        · rename_i hle
          exact Nat.not_lt.mp hle
      have hinit {fps : Nat} (hfps : fps ≤ 2) :
          (if elapsedSecs now s.newUserInstant < 1 then if initFps < fps then initFps else fps
            else fps) ≤ 2 := by
        split
        · split
          · rename_i hhigh
            exact hhigh.le.trans hfps
          · exact hfps
        · exact hfps
      rw [heq, hany, if_pos rfl]
      exact max_le (by decide) ((min_le_left _ _).trans (hinit (hlow _)))

/-! ## The ratio -/

theorem mem_of_later {qs : List (Int × Quality)} {latest : Option (Int × Quality)}
    {q : Int × Quality} (h : qs.foldl VideoQoS.later latest = some q) :
    q ∈ qs ∨ latest = some q := by
  induction qs generalizing latest with
  | nil => exact .inr h
  | cons p qs ih =>
    rcases ih h with hq | hq
    · exact .inl (List.mem_cons_of_mem _ hq)
    · have hlater : VideoQoS.later latest p = some p ∨ VideoQoS.later latest p = latest := by
        unfold VideoQoS.later
        cases latest with
        | none => exact .inl rfl
        | some p' =>
          dsimp only
          split
          · exact .inr rfl
          · exact .inl rfl
      rcases hlater with heq | heq
      · rw [heq] at hq
        exact .inl (Option.some.inj hq ▸ List.mem_cons_self ..)
      · exact .inr (heq ▸ hq)

theorem le_latestQuality (hs : ∀ u ∈ s.users.values, u.Good) : brMin ≤ s.latestQuality.ratio := by
  unfold VideoQoS.latestQuality
  cases hlatest : (s.users.values.filterMap (·.quality)).foldl VideoQoS.later none with
  | none => norm_num [Quality.ratio, brMin, brBalanced]
  | some q =>
    rcases mem_of_later hlatest with hmem | hnone
    · obtain ⟨u, hu, hq⟩ := List.mem_filterMap.mp hmem
      exact (hs u hu).quality q hq
    · cases hnone

theorem lowered_le (min : ℚ) (ratio1Mbps : Option ℚ) : VideoQoS.lowered min ratio1Mbps ≤ min := by
  cases ratio1Mbps with
  | none => exact le_rfl
  | some ratio1Mbps =>
    unfold VideoQoS.lowered
    dsimp only
    split
    · rename_i hlow
      exact hlow.le
    · exact le_rfl

/-- The bounds of the ratio are the right way round for every quality that can be asked for. -/
theorem minRatio_le (ratio1Mbps : Option ℚ) {q : Quality} (hq : brMin ≤ q.ratio) :
    VideoQoS.minRatio ratio1Mbps q ≤ q.ratio * maxBrMultiple := by
  cases q with
  | best =>
    refine max_le ((lowered_le _ _).trans ?_) ?_ <;>
      norm_num [Quality.ratio, brBest, brMin, maxBrMultiple]
  | balanced =>
    refine max_le ((lowered_le _ _).trans ((min_le_right _ _).trans ?_)) ?_ <;>
      norm_num [Quality.ratio, brBalanced, brMinHighResolution, maxBrMultiple]
  | low => norm_num [VideoQoS.minRatio, Quality.ratio, brSpeed, brMinHighResolution, maxBrMultiple]
  | custom ratio =>
    have hratio : (1 : ℚ) / 5 ≤ ratio := hq
    show (1 : ℚ) / 10 ≤ ratio * (3 / 2)
    linarith

theorem ratio1Mbps_safe (s : VideoQoS) : Safe s.ratio1Mbps fun _ => True := by
  unfold VideoQoS.ratio1Mbps
  split
  · rename_i hpos
    exact (returns_divRat (Nat.cast_ne_zero.mpr hpos.ne')).bind fun _ _ => trivial
  · trivial

theorem ratioAddStepKbps_safe (hs : s.bitrateStore + 300 < 2 ^ 32) :
    Safe s.ratioAddStepKbps fun _ => True := by
  unfold VideoQoS.ratioAddStepKbps
  split
  · rename_i hpos
    refine (U32.returns_add hs).bind fun _ _ => ?_
    exact (returns_divRat (Nat.cast_ne_zero.mpr hpos.ne')).bind fun _ _ => trivial
  · trivial

/-- Adjusting the ratio leaves the rate and the users alone. -/
theorem adjustRatio_safe (hs : s.Good) (dynamicScreen : Bool) (now : Nat) :
    Safe (s.adjustRatio dynamicScreen now) fun t =>
      ∃ ratio adjustRatioInstant, t = { s with ratio, adjustRatioInstant } := by
  unfold VideoQoS.adjustRatio
  split
  · exact returns_ok ⟨_, _, rfl⟩
  · have hdelays : Safe (s.users.values.mapM (·.delay.avgDelay)) fun _ => True :=
      (Returns.mapM fun u hu => avgDelay_safe (hs.users u hu).history).mono fun _ _ => trivial
    refine hdelays.bind fun delays _ => ?_
    cases delays.max? with
    | none => exact returns_ok ⟨_, _, rfl⟩
    | some maxDelay =>
      refine (ratio1Mbps_safe s).bind fun ratio1Mbps _ => ?_
      refine (ratioAddStepKbps_safe hs.bitrate).bind fun ratioAddStepKbps _ => ?_
      refine (returns_clamp (minRatio_le _ (le_latestQuality hs.users)) _).bind fun _ _ => ?_
      exact returns_ok ⟨_, _, rfl⟩

/-! ## The operations -/

/-- Neither the good states nor the caps depend on the ratio. -/
theorem VideoQoS.Good.ratio (hs : s.Good) (ratio : ℚ) (adjustRatioInstant : Nat) :
    VideoQoS.Good { s with ratio, adjustRatioInstant } :=
  ⟨hs.fps_pos, hs.fps_le, hs.users, hs.bitrate⟩

theorem VideoQoS.Capped.ratio (hs : s.Capped) (ratio : ℚ) (adjustRatioInstant : Nat) :
    VideoQoS.Capped { s with ratio, adjustRatioInstant } :=
  ⟨hs.custom, hs.auto, hs.delayed⟩

theorem VideoQoS.Good.modify (hs : s.Good) (id : Int) {f : UserData → UserData}
    (hf : ∀ u, u.Good → (f u).Good) : VideoQoS.Good { s with users := s.users.modify id f } :=
  ⟨hs.fps_pos, hs.fps_le, Table.forall_modify hs.users id hf, hs.bitrate⟩

theorem convertQuality_safe (q : Int) :
    Safe (VideoQoS.convertQuality q) fun quality => brMin ≤ quality.ratio := by
  unfold VideoQoS.convertQuality
  split
  · exact returns_ok (by norm_num [Quality.ratio, brMin, brBalanced])
  · split
    · exact returns_ok (by norm_num [Quality.ratio, brMin, brSpeed])
    · split
      · exact returns_ok (by norm_num [Quality.ratio, brMin, brBest])
      · refine (returns_clamp (by norm_num [brMin, brMax]) _).bind fun b hb => ?_
        exact returns_ok (hb ▸ le_max_left _ _)

theorem usualFps_le (targetRatio : ℚ) : (VideoQoS.usualFps targetRatio).1 ≤ 12 := by
  unfold VideoQoS.usualFps
  split
  · decide
  · split <;> decide

theorem userImageQuality_safe (hs : s.Good) (id imageQuality time : Int) :
    Safe (s.userImageQuality id imageQuality time) VideoQoS.Good := by
  unfold VideoQoS.userImageQuality
  refine (convertQuality_safe imageQuality).bind fun quality hquality => ?_
  split
  · refine returns_ok ((hs.modify id fun u hu => ?_).ratio _ s.adjustRatioInstant)
    refine ⟨hu.custom, hu.auto, fun q hq => ?_, hu.history⟩
    exact Option.mem_some.mp hq ▸ hquality
  · exact returns_ok hs

theorem userNetworkDelay_safe (hs : s.Good) (linux : Bool) (id : Int) (delay now : Nat) :
    Safe (s.userNetworkDelay linux id delay now) fun t => t.Good ∧ t.Capped := by
  have hmin := usualFps_le s.latestQuality.ratio
  unfold VideoQoS.userNetworkDelay
  refine (highestFps_safe hs.users).bind fun highestFps ⟨hhighest, _⟩ => ?_
  dsimp only
  have hmul : delayThreshold150Ms * (VideoQoS.usualFps s.latestQuality.ratio).1 < 2 ^ 16 := by
    unfold delayThreshold150Ms
    omega
  refine (U32.returns_mul (by omega)).bind fun dividendMs hdividend => ?_
  cases huser : s.users.lookup id with
  | none => exact adjustFps_safe hs now
  | some user =>
    have hgood := hs.users user (Table.mem_values_of_lookup huser)
    refine (networkDelay_safe hgood.history hs.fps_le (hmin.trans (by decide))
      (hdividend ▸ hmul) hhighest).bind fun d hd => ?_
    refine (adjustFps_safe (hs.modify id fun u hu => ?_) now).bind fun t ⟨ht, hcapped⟩ => ?_
    · exact ⟨hu.custom, hu.auto, hu.quality, hd⟩
    · split
      · refine (adjustRatio_safe ht false now).mono ?_
        rintro _ ⟨ratio, instant, rfl⟩
        exact ⟨ht.ratio ratio instant, hcapped.ratio ratio instant⟩
      · exact returns_ok ⟨ht, hcapped⟩

theorem userDelayResponseElapsed_safe (hs : s.Good) (id : Int) (elapsed now : Nat) :
    Safe (s.userDelayResponseElapsed id elapsed now) fun t =>
      t.Good ∧ ((s.users.lookup id).isSome ∧ 2000 < elapsed → t.Capped) := by
  unfold VideoQoS.userDelayResponseElapsed
  split
  · split
    · refine (adjustFps_safe (hs.modify id fun u hu => ?_) now).mono ?_
      · exact ⟨hu.custom, hu.auto, hu.quality, length_addDelay hu.history _⟩
      · exact fun t ht => ⟨ht.1, fun _ => ht.2⟩
    · rename_i hsoon
      refine returns_ok ⟨hs.modify id fun u hu => ?_, fun h => absurd h.2 hsoon⟩
      exact ⟨hu.custom, hu.auto, hu.quality, hu.history⟩
  · rename_i hnone
    exact returns_ok ⟨hs, fun h => absurd h.1 hnone⟩

theorem updateDisplayData_safe (hs : s.Good) (videoServiceName : String) (sendCounter now : Nat) :
    Safe (s.updateDisplayData videoServiceName sendCounter now) fun t => t.Good ∧ t.Capped := by
  unfold VideoQoS.updateDisplayData
  refine (adjustFps_safe ?_ now).bind fun t ⟨ht, hcapped⟩ => ?_
  · exact ⟨hs.fps_pos, hs.fps_le, hs.users, hs.bitrate⟩
  · split
    · split
      · refine (adjustRatio_safe ?_ _ now).mono ?_
        · exact ⟨ht.fps_pos, ht.fps_le, ht.users, ht.bitrate⟩
        · rintro _ ⟨ratio, instant, rfl⟩
          refine ⟨⟨ht.fps_pos, ht.fps_le, ht.users, ht.bitrate⟩, ?_⟩
          exact ⟨hcapped.custom, hcapped.auto, hcapped.delayed⟩
      · exact returns_ok ⟨ht, hcapped⟩
    · exact returns_ok ⟨ht.ratio _ _, hcapped.ratio _ _⟩

end Users

/-- The event ends in `adjust_fps`. -/
def EndsInAdjustFps (s : VideoQoS) : QosEvent → Prop
  | .userNetworkDelay _ _ => True
  | .updateDisplayData _ _ => True
  | .userDelayResponseElapsed id elapsed => (s.users.lookup id).isSome ∧ 2000 < elapsed
  | _ => False

/-- One event keeps the bounds, and the caps hold after those that adjust the rate. -/
theorem step_safe {s : VideoQoS} (hs : s.Good) (linux : Bool) (e : Nat × QosEvent) :
    Safe (step linux s e) fun t => t.Good ∧ (EndsInAdjustFps s e.2 → t.Capped) := by
  obtain ⟨now, e⟩ := e
  cases e with
  | onConnectionOpen id enableAbr =>
    refine returns_ok ⟨⟨hs.fps_pos, hs.fps_le, ?_, hs.bitrate⟩, fun h => h.elim⟩
    exact Table.forall_insert hs.users id good_default
  | onConnectionClose id =>
    refine returns_ok ⟨?_, fun h => h.elim⟩
    unfold VideoQoS.onConnectionClose
    dsimp only
    split
    · exact good_init now
    · exact ⟨hs.fps_pos, hs.fps_le, Table.forall_erase hs.users id, hs.bitrate⟩
  | userCustomFps id fps =>
    refine returns_ok ⟨?_, fun h => h.elim⟩
    unfold VideoQoS.userCustomFps
    split
    · exact hs
    · rename_i hfps
      refine hs.modify id fun u hu => ⟨fun f hf => ?_, hu.auto, hu.quality, hu.history⟩
      obtain rfl := Option.mem_some.mp hf
      omega
  | userAutoAdjustFps id fps =>
    refine returns_ok ⟨?_, fun h => h.elim⟩
    unfold VideoQoS.userAutoAdjustFps
    split
    · exact hs
    · rename_i hfps
      refine hs.modify id fun u hu => ⟨hu.custom, fun f hf => ?_, hu.quality, hu.history⟩
      obtain rfl := Option.mem_some.mp hf
      omega
  | userImageQuality id imageQuality time =>
    exact (userImageQuality_safe hs id imageQuality time).mono fun t ht => ⟨ht, fun h => h.elim⟩
  | userNetworkDelay id delay =>
    exact (userNetworkDelay_safe hs linux id delay now).mono fun t ht => ⟨ht.1, fun _ => ht.2⟩
  | userDelayResponseElapsed id elapsed => exact userDelayResponseElapsed_safe hs id elapsed now
  | newDisplay name =>
    exact returns_ok ⟨⟨hs.fps_pos, hs.fps_le, hs.users, hs.bitrate⟩, fun h => h.elim⟩
  | removeDisplay name =>
    exact returns_ok ⟨⟨hs.fps_pos, hs.fps_le, hs.users, hs.bitrate⟩, fun h => h.elim⟩
  | updateDisplayData name sendCounter =>
    exact (updateDisplayData_safe hs name sendCounter now).mono fun t ht => ⟨ht.1, fun _ => ht.2⟩
  | setSupportChangingQuality name support =>
    exact returns_ok ⟨⟨hs.fps_pos, hs.fps_le, hs.users, hs.bitrate⟩, fun h => h.elim⟩
  | storeBitrate bitrate =>
    exact returns_ok ⟨⟨hs.fps_pos, hs.fps_le, hs.users, bitrate.small⟩, fun h => h.elim⟩
  | ratio =>
    refine returns_ok ⟨?_, fun h => h.elim⟩
    unfold VideoQoS.checkRatio
    split
    · exact hs.ratio _ _
    · exact hs
  | rehash users =>
    refine returns_ok ⟨?_, fun h => h.elim⟩
    split
    · rename_i hperm
      refine ⟨hs.fps_pos, hs.fps_le, fun u hu => hs.users u ?_, hs.bitrate⟩
      exact (hperm.map Sigma.snd).subset hu
    · exact hs

/-- In every run the rate is between 1 and 120, and nothing goes wrong but a sum of delays that does
    not fit in a word: there is no division by zero, no underflow, and no `clamp` whose bounds are
    the wrong way round. After what adjusts the rate it is below the caps of all users, and at most
    2 while one of them does not answer. -/
theorem fps_bounded (linux : Bool) (start : Nat) (events : List (Nat × QosEvent)) :
    events.foldlM (step linux) (VideoQoS.init start) = .error .sumOverflow ∨
      ∃ s, events.foldlM (step linux) (VideoQoS.init start) = .ok s ∧
        minFps ≤ s.fps ∧ s.fps ≤ maxFps ∧
        ∀ e, step linux s e = .error .sumOverflow ∨
          ∃ t, step linux s e = .ok t ∧ (EndsInAdjustFps s e.2 → t.Capped) := by
  have hrun : Safe (events.foldlM (step linux) (VideoQoS.init start)) VideoQoS.Good :=
    Returns.foldlM (fun s e hs => (step_safe hs linux e).mono fun _ ht => ht.1) (good_init start)
      events
  refine (returns_iff_of_eq.mp hrun).imp_right ?_
  rintro ⟨s, heq, hs⟩
  refine ⟨s, heq, hs.fps_pos, hs.fps_le, fun e => ?_⟩
  refine (returns_iff_of_eq.mp (step_safe hs linux e)).imp_right ?_
  rintro ⟨t, ht, _, hcapped⟩
  exact ⟨t, ht, hcapped⟩

/-- Three good samples in a row raise the rate. -/
example : ([(0, .onConnectionOpen 1 "Y"), (5, .userCustomFps 1 60), (2000, .userNetworkDelay 1 20),
    (3000, .userNetworkDelay 1 30), (4000, .userNetworkDelay 1 30)].foldlM (step false)
      (.init 0)).map (·.fps) = .ok 36 := by decide +kernel

end LuodaRemote.VideoQos
