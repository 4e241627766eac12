/-
  The list of displays and its announcements (`src/server/display_service.rs`).

  The service thread announces the list whenever `is_synced` is off, which is so at the start, for
  a new subscriber and after a change. While somebody holds a guard of
  `temp_ignore_displays_changed`, a change is taken over without a word; the guard lets it be
  announced when it goes. But all guards share one flag, and the first that goes clears it for
  the others: a change that comes while another one is still held is announced at once.
  `announcements_iff` says that this is all that goes wrong, in any order of steps.

  A guard goes in two steps, which clear the flag and `is_synced`; until both are done it is held.
  The service thread looks for new subscribers and asks for the list in two steps as well.
-/
import LuodaRemote.Lib.Run

namespace LuodaRemote
open Lib

/-! ## The list -/

structure SyncDisplaysInfo (α : Type*) where
  displays : List α
  isSynced : Bool
deriving DecidableEq

namespace SyncDisplaysInfo

variable {α : Type*} [DecidableEq α]

/-- `ignore` is `TEMP_IGNORE_DISPLAYS_CHANGED`. -/
def checkChanged (ignore : Bool) (displays : List α) (s : SyncDisplaysInfo α) :
    SyncDisplaysInfo α :=
  let changed := ⟨displays, if ignore then s.isSynced else false⟩
  if s.displays.length ≠ displays.length then changed
  else if displays.zipIdx.any fun (d, i) => s.displays[i]? ≠ some d then changed
  else s

/-- The list to announce, unless it has been. -/
def getUpdateSyncDisplays (s : SyncDisplaysInfo α) : Option (List α) × SyncDisplaysInfo α :=
  if s.isSynced then (none, s) else (some s.displays, { s with isSynced := true })

theorem checkChanged_same {ignore : Bool} {s : SyncDisplaysInfo α} :
    s.checkChanged ignore s.displays = s := by
  have hsame : (s.displays.zipIdx.any fun (d, i) => decide (s.displays[i]? ≠ some d)) = false := by
    rw [List.any_eq_false]
    rintro ⟨d, i⟩ hd
    simpa using List.mem_zipIdx_iff_getElem?.mp hd
  unfold checkChanged
  rw [if_neg (by simp), hsame]
  rfl

theorem checkChanged_other {ignore : Bool} {displays : List α} {s : SyncDisplaysInfo α}
    (hne : displays ≠ s.displays) :
    s.checkChanged ignore displays = ⟨displays, if ignore then s.isSynced else false⟩ := by
  unfold checkChanged
  dsimp only
  by_cases hlen : s.displays.length = displays.length
  · rw [if_neg (not_not.mpr hlen), if_pos]
    by_contra hall
    rw [Bool.not_eq_true, List.any_eq_false] at hall
    refine hne (List.ext_getElem? fun i => ?_)
    cases hi : displays[i]? with
    | none =>
      rw [List.getElem?_eq_none_iff] at hi
      exact (List.getElem?_eq_none_iff.mpr (hlen.trans_le hi)).symm
    | some d =>
      have hd := hall (d, i) (List.mem_zipIdx_iff_getElem?.mpr hi)
      simpa using (not_not.mp fun hno => hd (decide_eq_true hno)).symm
  · exact if_pos hlen

end SyncDisplaysInfo

/-! ## Service and guards -/

/-- Why `is_synced` is off. -/
inductive Cause where
  | start
  | subscriber
  /-- A change, and whether a guard was held. -/
  | change (guarded : Bool)
  | release
deriving DecidableEq

structure DisplayService (α : Type*) where
  info : SyncDisplaysInfo α
  /-- `TEMP_IGNORE_DISPLAYS_CHANGED`. -/
  ignore : Bool
  /-- Guards that have not begun to go. -/
  held : ℕ
  /-- Guards that have cleared the flag and not `is_synced`. -/
  releasing : ℕ
  /-- The service thread has seen new subscribers. -/
  subscribing : Bool
  /-- What has turned `is_synced` off since it was on. -/
  causes : List Cause
  /-- The lists announced with their causes, the last one first. -/
  announcements : List (List α × List Cause)

inductive DisplayStep (α : Type*) where
  | checkChanged (displays : List α)
  | poll
  | seeSubscribers
  | newSubscriber
  | guard
  | clearFlag
  | clearSynced
deriving DecidableEq

namespace DisplayService

variable {α : Type*}

def start : DisplayService α where
  info := ⟨[], false⟩
  ignore := false
  held := 0
  releasing := 0
  subscribing := false
  causes := [.start]
  announcements := []

def guarded (s : DisplayService α) : Bool := 0 < s.held + s.releasing

/-- `is_synced = false`. -/
def unsync (cause : Cause) (s : DisplayService α) : DisplayService α :=
  { s with info := { s.info with isSynced := false }, causes := cause :: s.causes }

def poll (s : DisplayService α) : DisplayService α :=
  match s.info.getUpdateSyncDisplays with
  | (none, info) => { s with info }
  | (some displays, info) =>
    { s with info, causes := [], announcements := (displays, s.causes) :: s.announcements }

def announced (s : DisplayService α) : Option (List α) := s.announcements.head?.map Prod.fst

/-- Nothing has been announced, or would be now, because of a change under a guard; with no guard,
    what is taken for announced is the list; and when a guard has gone, the list comes next. -/
structure Announces (s : DisplayService α) : Prop where
  unguarded : ∀ p ∈ s.poll.announcements, .change true ∉ p.2
  synced : s.guarded = false → s.info.isSynced = true → s.announced = some s.info.displays
  released : .release ∈ s.causes → s.info.isSynced = false ∧
    s.poll.announced = some s.info.displays

/-! ## Polls -/

structure Inv (s : DisplayService α) : Prop where
  ignore : s.ignore = true → 0 < s.held
  causes : s.info.isSynced = true → s.causes = []
  /-- Only a guard keeps the list from being announced. -/
  synced : s.info.isSynced = true → s.guarded = true ∨ s.announced = some s.info.displays

/-- No cause that there is or was is a change under a guard. -/
def Clean (s : DisplayService α) : Prop :=
  .change true ∉ s.causes ∧ ∀ p ∈ s.announcements, .change true ∉ p.2

section Polls

variable {s : DisplayService α}

theorem guarded_eq_true : s.guarded = true ↔ 0 < s.held + s.releasing := decide_eq_true_iff

theorem poll_synced (hs : s.info.isSynced = true) : s.poll = s := by
  unfold poll SyncDisplaysInfo.getUpdateSyncDisplays
  rw [if_pos hs]

theorem poll_unsynced (hs : s.info.isSynced = false) :
    s.poll = { s with
      info := ⟨s.info.displays, true⟩
      causes := []
      announcements := (s.info.displays, s.causes) :: s.announcements } := by
  unfold poll SyncDisplaysInfo.getUpdateSyncDisplays
  rw [if_neg (by simp [hs])]

/-- What will be announced anyway needs no guard. -/
theorem inv_of_unsynced (hi : s.ignore = true → 0 < s.held) (hs : s.info.isSynced = false) :
    s.Inv := by
  refine ⟨hi, fun h => ?_, fun h => ?_⟩
  · rw [hs] at h
    cases h
  · rw [hs] at h
    cases h

theorem poll_inv (hs : s.Inv) : s.poll.Inv := by
  cases hsync : s.info.isSynced with
  | true =>
    rw [poll_synced hsync]
    exact hs
  | false =>
    rw [poll_unsynced hsync]
    exact ⟨hs.ignore, fun _ => rfl, fun _ => .inr rfl⟩

/-- What a poll would announce is what there is and was. -/
theorem unguarded_iff (hs : s.Inv) :
    (∀ p ∈ s.poll.announcements, .change true ∉ p.2) ↔ s.Clean := by
  cases hsync : s.info.isSynced with
  | true =>
    rw [poll_synced hsync, Clean, hs.causes hsync]
    simp
  | false =>
    rw [poll_unsynced hsync, Clean]
    exact List.forall_mem_cons

theorem announces_iff (hs : s.Inv) : s.Announces ↔ s.Clean := by
  refine ⟨fun h => (unguarded_iff hs).mp h.unguarded, fun h => ⟨(unguarded_iff hs).mpr h, ?_, ?_⟩⟩
  · intro hg hsync
    refine (hs.synced hsync).resolve_left ?_
    rw [hg]
    exact Bool.false_ne_true
  · intro hrelease
    have hsync : s.info.isSynced = false := by
      by_contra hnot
      rw [hs.causes (Bool.eq_true_of_not_eq_false hnot)] at hrelease
      cases hrelease
    rw [poll_unsynced hsync]
    exact ⟨hsync, rfl⟩

theorem clean_unsync {cause : Cause} (hc : cause ≠ .change true) (hs : s.Clean) :
    (s.unsync cause).Clean :=
  ⟨List.not_mem_cons_of_ne_of_not_mem hc.symm hs.1, hs.2⟩

theorem clean_poll (hs : s.Inv) (hclean : s.Clean) : s.poll.Clean := by
  refine ⟨?_, (unguarded_iff hs).mpr hclean⟩
  cases hsync : s.info.isSynced with
  | true =>
    rw [poll_synced hsync]
    exact hclean.1
  | false =>
    rw [poll_unsynced hsync]
    exact List.not_mem_nil

theorem start_inv : (start : DisplayService α).Inv := inv_of_unsynced (by rintro ⟨⟩) rfl

theorem start_clean : (start : DisplayService α).Clean := by
  simp [Clean, start]

end Polls

/-! ## One step -/

variable [DecidableEq α]

def checkChanged (displays : List α) (s : DisplayService α) : DisplayService α :=
  { s with
    info := s.info.checkChanged s.ignore displays
    causes :=
      if displays ≠ s.info.displays ∧ s.ignore = false then .change s.guarded :: s.causes
      else s.causes }

def step (s : DisplayService α) : DisplayStep α → DisplayService α
  | .checkChanged displays => s.checkChanged displays
  | .poll => s.poll
  | .seeSubscribers => if s.ignore then s else { s with subscribing := true }
  | .newSubscriber =>
    if s.subscribing then { s.unsync .subscriber with subscribing := false } else s
  | .guard => { s with ignore := true, held := s.held + 1 }
  | .clearFlag =>
    match s.held with
    | 0 => s
    | n + 1 => { s with ignore := false, held := n, releasing := s.releasing + 1 }
  | .clearSynced =>
    match s.releasing with
    | 0 => s
    | n + 1 => { s.unsync .release with releasing := n }

/-- A change under a guard finds the flag set. -/
def Ignores (s : DisplayService α) : DisplayStep α → Prop
  | .checkChanged displays =>
    displays ≠ s.info.displays → s.guarded = true → s.ignore = true
  | _ => True

section Steps

variable {s : DisplayService α}

theorem checkChanged_same : s.checkChanged s.info.displays = s := by
  unfold checkChanged
  rw [SyncDisplaysInfo.checkChanged_same, if_neg (by simp)]

theorem checkChanged_ignored {displays : List α} (hne : displays ≠ s.info.displays)
    (hi : s.ignore = true) :
    s.checkChanged displays = { s with info := ⟨displays, s.info.isSynced⟩ } := by
  unfold checkChanged
  rw [SyncDisplaysInfo.checkChanged_other hne, if_pos hi, if_neg (by simp [hi])]

theorem checkChanged_noticed {displays : List α} (hne : displays ≠ s.info.displays)
    (hi : s.ignore = false) :
    s.checkChanged displays = { s with
      info := ⟨displays, false⟩
      causes := .change s.guarded :: s.causes } := by
  unfold checkChanged
  rw [SyncDisplaysInfo.checkChanged_other hne, if_neg (by simp [hi]), if_pos ⟨hne, hi⟩]

/-- A change that is ignored is one under a guard. -/
theorem checkChanged_inv (hs : s.Inv) (displays : List α) : (s.checkChanged displays).Inv := by
  by_cases hne : displays = s.info.displays
  · rw [hne, checkChanged_same]
    exact hs
  · cases hi : s.ignore with
    | true =>
      have hheld : 0 < s.held := hs.ignore hi
      rw [checkChanged_ignored hne hi]
      exact ⟨hs.ignore, hs.causes, fun _ => .inl (guarded_eq_true.mpr (Nat.add_pos_left hheld _))⟩
    | false =>
      rw [checkChanged_noticed hne hi]
      exact inv_of_unsynced hs.ignore rfl

theorem clearFlag_inv (hs : s.Inv) : (step s .clearFlag).Inv := by
  rw [step]
  split
  · exact hs
  · exact ⟨by rintro ⟨⟩, hs.causes, fun _ => .inl (guarded_eq_true.mpr (by simp))⟩

theorem step_inv (hs : s.Inv) (a : DisplayStep α) : (step s a).Inv := by
  cases a with
  | checkChanged displays => exact checkChanged_inv hs displays
  | poll => exact poll_inv hs
  | seeSubscribers =>
    rw [step]
    split
    · exact hs
    · exact ⟨hs.ignore, hs.causes, hs.synced⟩
  | newSubscriber =>
    rw [step]
    split
    · exact inv_of_unsynced hs.ignore rfl
    · exact hs
  | guard =>
    have hguarded : (step s .guard).guarded = true :=
      guarded_eq_true.mpr (Nat.add_pos_left (Nat.succ_pos _) _)
    exact ⟨fun _ => Nat.succ_pos _, hs.causes, fun _ => .inl hguarded⟩
  | clearFlag => exact clearFlag_inv hs
  | clearSynced =>
    rw [step]
    split
    · exact hs
    · exact inv_of_unsynced hs.ignore rfl

theorem clean_checkChanged (hs : s.Clean) (displays : List α) :
    (s.checkChanged displays).Clean ↔ s.Ignores (.checkChanged displays) := by
  by_cases hne : displays = s.info.displays
  · rw [hne, checkChanged_same]
    exact iff_of_true hs fun h => absurd rfl h
  · cases hi : s.ignore with
    | true =>
      rw [checkChanged_ignored hne hi]
      exact iff_of_true hs fun _ _ => hi
    | false =>
      rw [checkChanged_noticed hne hi]
      cases hg : s.guarded with
      | true =>
        refine iff_of_false (fun h => h.1 List.mem_cons_self) fun h => ?_
        rw [h hne hg] at hi
        cases hi
      | false =>
        refine iff_of_true ⟨?_, hs.2⟩ fun _ hgt => ?_
        · exact List.not_mem_cons_of_ne_of_not_mem (by simp) hs.1
        · rw [hg] at hgt
          cases hgt

theorem clean_step (hs : s.Inv) (hclean : s.Clean) (a : DisplayStep α) :
    (step s a).Clean ↔ s.Ignores a := by
  cases a with
  | checkChanged displays => exact clean_checkChanged hclean displays
  | poll => exact iff_of_true (clean_poll hs hclean) trivial
  | seeSubscribers =>
    refine iff_of_true ?_ trivial
    rw [step]
    split <;> exact hclean
  | newSubscriber =>
    refine iff_of_true ?_ trivial
    rw [step]
    split
    · exact clean_unsync (by simp) hclean
    · exact hclean
  | guard => exact iff_of_true hclean trivial
  | clearFlag =>
    refine iff_of_true ?_ trivial
    rw [step]
    split <;> exact hclean
  | clearSynced =>
    refine iff_of_true ?_ trivial
    rw [step]
    split
    · exact hclean
    · exact clean_unsync (by simp) hclean

end Steps

/-! ## Every order of steps -/

/-- The announcements are right in all states precisely if no change under a guard finds the flag
    cleared by another one. -/
theorem announcements_iff (steps : List (DisplayStep α)) :
    Always step Announces (start : DisplayService α) steps ↔ Along step Ignores start steps := by
  refine always_iff_along (I := Inv) (fun _ a hs => step_inv hs a) (fun s a hs hgood => ?_)
    start_inv ((announces_iff start_inv).mpr start_clean)
  rw [announces_iff (step_inv hs a)]
  exact clean_step hs ((announces_iff hs).mp hgood) a

/-- The first of two guards goes, and under the second one a display is plugged in. -/
def twoGuards : List (DisplayStep String) :=
  [.checkChanged ["DP-1"], .poll, .guard, .guard, .clearFlag, .clearSynced, .poll,
    .checkChanged ["DP-1", "DP-2"], .poll]

theorem announced_under_guard :
    ¬ ∀ steps, Always step Announces (start : DisplayService String) steps := by
  intro hall
  have hbad : (["DP-1", "DP-2"], [Cause.change true]) ∈
      (run step start twoGuards).poll.announcements := by decide
  exact (hall twoGuards).last.unguarded _ hbad (by decide)

end DisplayService

end LuodaRemote
