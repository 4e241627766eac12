/-
  What the video services are told of fetched frames (`FRAME_FETCHED_NOTIFIERS`,
  `DISPLAY_CONN_IDS`, `VideoFrameController` and `Raii` of `src/server/video_service.rs`).

  Each display has a channel for the connections that have fetched a frame. It is made with the
  service and removed when a run of the service ends, so that the next run has none; monitors and
  cameras of one index share it, so that one of them takes it away from the other; and since no
  loop waits for it any more, nothing is ever taken out. `notifiers_iff` says when none of this
  is seen.

  A service that is told to switch ends its run and starts another one. `try_wait_next`, which read
  from the channel, is not called and not modelled.
-/
import LuodaRemote.Server
import LuodaRemote.Lib.Run

namespace LuodaRemote
open Lib

/-- A service for the frames of a display or a camera. -/
structure VideoService where
  source : VideoSource
  idx : ℕ
deriving DecidableEq

inductive RunPhase where
  | absent
  /-- Between runs. -/
  | idle
  | running
deriving DecidableEq

/-- `(conn_id, frame_tm)`. -/
abbrev Fetched := ℤ × Option ℕ

structure Notifiers where
  /-- `FRAME_FETCHED_NOTIFIERS`, with what the channels hold. -/
  queues : ℕ → Option (List Fetched)
  /-- `DISPLAY_CONN_IDS`. -/
  displayConnIds : List (ℕ × Finset ℤ)
  phase : VideoService → RunPhase
  /-- `send_conn_ids` of the controllers. -/
  sendConnIds : VideoService → Finset ℤ
  /-- Calls by connection id that have looked up the displays. -/
  found : List (Fetched × List ℕ)
  /-- The indices of all notifications that were sent. -/
  sent : List ℕ
  /-- How many had been sent when the channel was made. -/
  born : ℕ → ℕ
  /-- How many had been sent at the end of the previous iteration. -/
  last : VideoService → ℕ
  /-- A run has ended since a service of the index was made. -/
  ended : ℕ → Bool

inductive NotifierStep where
  | new (vs : VideoService)
  | runStart (vs : VideoService)
  | reset (vs : VideoService)
  | setSend (vs : VideoService) (connIds : Finset ℤ)
  | loopEnd (vs : VideoService)
  | runEnd (vs : VideoService)
  | remove (vs : VideoService)
  | notify (displayIdx : ℕ) (fetched : Fetched)
  | lookUp (fetched : Fetched)
  | notifyFound (fetched : Fetched) (displays : List ℕ)
deriving DecidableEq

namespace Notifiers

def start : Notifiers where
  queues := fun _ => none
  displayConnIds := []
  phase := fun _ => .absent
  sendConnIds := fun _ => ∅
  found := []
  sent := []
  born := fun _ => 0
  last := fun _ => 0
  ended := fun _ => false

/-- `new`. -/
def new (vs : VideoService) (s : Notifiers) : Notifiers :=
  let s := { s with
    phase := Function.update s.phase vs .idle
    last := Function.update s.last vs 0
    ended := Function.update s.ended vs.idx false }
  match s.queues vs.idx with
  | some _ => s
  | none =>
    { s with
      queues := Function.update s.queues vs.idx (some [])
      born := Function.update s.born vs.idx s.sent.length }

def setSend (vs : VideoService) (connIds : Finset ℤ) (s : Notifiers) : Notifiers :=
  if connIds = ∅ then s
  else
    let changed := connIds ≠ s.sendConnIds vs
    { s with
      sendConnIds := Function.update s.sendConnIds vs connIds
      displayConnIds :=
        if changed then (vs.idx, connIds) :: s.displayConnIds.filter (·.1 ≠ vs.idx)
        else s.displayConnIds }

/-- The end of the loop. -/
def loopEnd (vs : VideoService) (s : Notifiers) : Notifiers :=
  { s with
    displayConnIds := s.displayConnIds.filter (·.1 ≠ vs.idx)
    last := Function.update s.last vs s.sent.length }

/-- `Raii::drop`. -/
def runEnd (vs : VideoService) (s : Notifiers) : Notifiers :=
  { s with
    phase := Function.update s.phase vs .idle
    displayConnIds := s.displayConnIds.filter (·.1 ≠ vs.idx)
    queues := Function.update s.queues vs.idx none
    ended := Function.update s.ended vs.idx true }

/-- `notify_video_frame_fetched`. -/
def notify (fetched : Fetched) (s : Notifiers) (displayIdx : ℕ) : Notifiers :=
  match s.queues displayIdx with
  | some queue =>
    { s with
      queues := Function.update s.queues displayIdx (some (queue ++ [fetched]))
      sent := s.sent ++ [displayIdx] }
  | none => s

/-- The first half of `notify_video_frame_fetched_by_conn_id`. -/
def lookUp (fetched : Fetched) (s : Notifiers) : Notifiers :=
  let displays := (s.displayConnIds.filter (fetched.1 ∈ ·.2)).map Prod.fst
  { s with found := (fetched, displays) :: s.found }

def step (s : Notifiers) : NotifierStep → Notifiers
  | .new vs => if s.phase vs = .absent then s.new vs else s
  | .runStart vs =>
    if s.phase vs = .idle then { s with phase := Function.update s.phase vs .running } else s
  | .reset vs => { s with sendConnIds := Function.update s.sendConnIds vs ∅ }
  | .setSend vs connIds => if s.phase vs = .running then s.setSend vs connIds else s
  | .loopEnd vs => if s.phase vs = .running then s.loopEnd vs else s
  | .runEnd vs => if s.phase vs = .running then s.runEnd vs else s
  | .remove vs =>
    if s.phase vs = .idle then { s with phase := Function.update s.phase vs .absent } else s
  | .notify displayIdx fetched => s.notify fetched displayIdx
  | .lookUp fetched => s.lookUp fetched
  | .notifyFound fetched displays =>
    if (fetched, displays) ∈ s.found then
      displays.foldl (notify fetched) { s with found := s.found.erase (fetched, displays) }
    else s

/-! ## What is promised -/

/-- Notifications for the index since the service was last at the end of its loop. -/
def since (s : Notifiers) (vs : VideoService) : ℕ := (s.sent.drop (s.last vs)).count vs.idx

/-- A service that runs has a channel, a loop leaves nothing from the time before the previous
    one, and the end of a run does not touch the channels of other services. -/
structure Notifies (s : Notifiers) (a : NotifierStep) : Prop where
  runs : ∀ vs, (step s a).phase vs = .running → (step s a).queues vs.idx ≠ none
  drained : ∀ vs, a = .loopEnd vs → s.phase vs = .running →
    ∀ queue ∈ s.queues vs.idx, queue.length ≤ s.since vs
  others : ∀ vs, a = .runEnd vs → ∀ other ≠ vs, s.phase other ≠ .absent →
    (step s a).queues other.idx = s.queues other.idx

/-- A run is the first one since a service of the index was made, nothing had been sent to the
    channel before the previous iteration, and no other service has the index of one whose run
    ends. -/
def Allowed (s : Notifiers) : NotifierStep → Prop
  | .runStart vs => s.phase vs = .idle → s.ended vs.idx = false
  | .loopEnd vs => s.phase vs = .running →
    vs.idx ∉ (s.sent.take (s.last vs)).drop (s.born vs.idx)
  | .runEnd vs => s.phase vs = .running →
    ∀ other ≠ vs, s.phase other ≠ .absent → other.idx ≠ vs.idx
  | _ => True

/-! ## One step -/

structure Inv (s : Notifiers) : Prop where
  length : ∀ idx, ∀ queue ∈ s.queues idx, queue.length = (s.sent.drop (s.born idx)).count idx
  born : ∀ idx, s.born idx ≤ s.sent.length
  last : ∀ vs, s.last vs ≤ s.sent.length
  /-- A service is made with its channel. -/
  made : ∀ vs, s.phase vs ≠ .absent → s.ended vs.idx = false → s.queues vs.idx ≠ none
  ended : ∀ idx, s.ended idx = true → s.queues idx = none
  runs : ∀ vs, s.phase vs = .running → s.queues vs.idx ≠ none

variable {s : Notifiers} {vs : VideoService}

theorem inv_start : Inv start where
  length := by rintro idx queue ⟨⟩
  born _ := le_rfl
  last _ := le_rfl
  made _ h := absurd rfl h
  ended _ _ := rfl
  runs := by rintro vs ⟨⟩

/-- Nothing looks at the phase of a service but whether it is there and whether it runs. -/
theorem Inv.phase_update (hi : Inv s) (p : RunPhase)
    (hmade : p ≠ .absent → s.ended vs.idx = false → s.queues vs.idx ≠ none)
    (hruns : p = .running → s.queues vs.idx ≠ none) :
    Inv { s with phase := Function.update s.phase vs p } := by
  refine ⟨hi.length, hi.born, hi.last, fun other => ?_, hi.ended, fun other => ?_⟩
  · by_cases hvs : other = vs
    · subst hvs
      simpa using hmade
    · simpa [hvs] using hi.made other
  · by_cases hvs : other = vs
    · subst hvs
      simpa using hruns
    · simpa [hvs] using hi.runs other

theorem inv_new (hi : Inv s) : Inv (s.new vs) := by
  unfold new
  dsimp only
  have hlast : ∀ other, Function.update s.last vs 0 other ≤ s.sent.length := by
    intro other
    by_cases hvs : other = vs
    · simp [hvs]
    · simpa [hvs] using hi.last other
  cases hq : s.queues vs.idx with
  | some queue =>
    refine ⟨hi.length, hi.born, hlast, fun other hp he => ?_, fun idx he => ?_, fun other hp => ?_⟩
    · by_cases hidx : other.idx = vs.idx
      · simp [hidx, hq]
      · have hvs : other ≠ vs := ne_of_apply_ne VideoService.idx hidx
        exact hi.made other (by simpa [hvs] using hp) (by simpa [hidx] using he)
    · by_cases hidx : idx = vs.idx
      · simp [hidx] at he
      · exact hi.ended idx (by simpa [hidx] using he)
    · by_cases hvs : other = vs
      · simp [hvs] at hp
      · exact hi.runs other (by simpa [hvs] using hp)
  | none =>
    refine ⟨fun idx queue hqueue => ?_, fun idx => ?_, hlast, fun other hp he => ?_,
      fun idx he => ?_, fun other hp => ?_⟩
    · by_cases hidx : idx = vs.idx
      · subst hidx
        obtain rfl : [] = queue := by simpa using hqueue
        simp
      · simpa [hidx] using hi.length idx queue (by simpa [hidx] using hqueue)
    · by_cases hidx : idx = vs.idx
      · simp [hidx]
      · simpa [hidx] using hi.born idx
    · by_cases hidx : other.idx = vs.idx
      · simp [hidx]
      · have hvs : other ≠ vs := ne_of_apply_ne VideoService.idx hidx
        simpa [hidx] using hi.made other (by simpa [hvs] using hp) (by simpa [hidx] using he)
    · by_cases hidx : idx = vs.idx
      · simp [hidx] at he
      · simpa [hidx] using hi.ended idx (by simpa [hidx] using he)
    · by_cases hidx : other.idx = vs.idx
      · simp [hidx]
      · have hvs : other ≠ vs := ne_of_apply_ne VideoService.idx hidx
        simpa [hidx] using hi.runs other (by simpa [hvs] using hp)

theorem inv_loopEnd (hi : Inv s) : Inv (s.loopEnd vs) := by
  refine ⟨hi.length, hi.born, fun other => ?_, hi.made, hi.ended, hi.runs⟩
  by_cases hvs : other = vs
  · simp [loopEnd, hvs]
  · simpa [loopEnd, hvs] using hi.last other

/-- The channel goes, for every service of the index. -/
theorem inv_runEnd (hi : Inv s)
    (hall : ∀ other ≠ vs, s.phase other ≠ .absent → other.idx ≠ vs.idx) : Inv (s.runEnd vs) := by
  refine ⟨fun idx queue hqueue => ?_, hi.born, hi.last, fun other hp he => ?_, fun idx he => ?_,
    fun other hp => ?_⟩
  · by_cases hidx : idx = vs.idx
    · simp [runEnd, hidx] at hqueue
    · exact hi.length idx queue (by simpa [runEnd, hidx] using hqueue)
  · by_cases hidx : other.idx = vs.idx
    · simp [runEnd, hidx] at he
    · have hvs : other ≠ vs := ne_of_apply_ne VideoService.idx hidx
      simpa [runEnd, hidx] using
        hi.made other (by simpa [runEnd, hvs] using hp) (by simpa [runEnd, hidx] using he)
  · by_cases hidx : idx = vs.idx
    · simp [runEnd, hidx]
    · simpa [runEnd, hidx] using hi.ended idx (by simpa [runEnd, hidx] using he)
  · by_cases hvs : other = vs
    · simp [runEnd, hvs] at hp
    · have hrun : s.phase other = .running := by simpa [runEnd, hvs] using hp
      have hidx : other.idx ≠ vs.idx := hall other hvs (by simp [hrun])
      simpa [runEnd, hidx] using hi.runs other hrun

theorem inv_notify (hi : Inv s) (fetched : Fetched) (displayIdx : ℕ) :
    Inv (s.notify fetched displayIdx) := by
  unfold notify
  cases hq : s.queues displayIdx with
  | none => exact hi
  | some queue =>
    have hnone : ∀ idx, Function.update s.queues displayIdx (some (queue ++ [fetched])) idx = none ↔
        s.queues idx = none := by
      intro idx
      by_cases hidx : idx = displayIdx
      · simp [hidx, hq]
      · simp [hidx]
    have hle : s.sent.length ≤ (s.sent ++ [displayIdx]).length := by simp
    refine ⟨fun idx q hqueue => ?_, fun idx => ?_, fun vs => ?_, fun vs hp he => ?_,
      fun idx he => (hnone idx).mpr (hi.ended idx he), fun vs hp => ?_⟩
    · dsimp only
      rw [List.drop_append_of_le_length (hi.born idx), List.count_append]
      by_cases hidx : idx = displayIdx
      · subst hidx
        obtain rfl : queue ++ [fetched] = q := by simpa using hqueue
        simp [hi.length idx queue hq]
      · have hold : q ∈ s.queues idx := by simpa [hidx] using hqueue
        simp [hi.length idx q hold, Ne.symm hidx]
    · exact (hi.born idx).trans hle
    · exact (hi.last vs).trans hle
    · exact mt (hnone vs.idx).mp (hi.made vs hp he)
    · exact mt (hnone vs.idx).mp (hi.runs vs hp)

theorem inv_notifyFound (fetched : Fetched) (displays : List ℕ) :
    ∀ {s : Notifiers}, Inv s → Inv (displays.foldl (notify fetched) s) := by
  induction displays with
  | nil => exact id
  | cons idx displays ih => exact fun hi => ih (inv_notify hi fetched idx)

theorem inv_step {a : NotifierStep} (hi : Inv s) (ha : Allowed s a) : Inv (step s a) := by
  cases a with
  | new vs =>
    rw [step]
    split
    · exact inv_new hi
    · exact hi
  | runStart vs =>
    rw [step]
    split
    · rename_i hidle
      have hqueue : s.queues vs.idx ≠ none := hi.made vs (by simp [hidle]) (ha hidle)
      exact hi.phase_update .running (fun _ _ => hqueue) fun _ => hqueue
    · exact hi
  | reset vs => exact ⟨hi.length, hi.born, hi.last, hi.made, hi.ended, hi.runs⟩
  | setSend vs connIds =>
    rw [step, setSend]
    split_ifs
    · exact hi
    · exact ⟨hi.length, hi.born, hi.last, hi.made, hi.ended, hi.runs⟩
    · exact hi
  | loopEnd vs =>
    rw [step]
    split
    · exact inv_loopEnd hi
    · exact hi
  | runEnd vs =>
    rw [step]
    split
    · rename_i hrun
      exact inv_runEnd hi (ha hrun)
    · exact hi
  | remove vs =>
    rw [step]
    split
    · exact hi.phase_update .absent (fun h => absurd rfl h) (by rintro ⟨⟩)
    · exact hi
  | notify displayIdx fetched => exact inv_notify hi fetched displayIdx
  | lookUp fetched => exact ⟨hi.length, hi.born, hi.last, hi.made, hi.ended, hi.runs⟩
  | notifyFound fetched displays =>
    rw [step]
    split
    · exact inv_notifyFound fetched displays
        ⟨hi.length, hi.born, hi.last, hi.made, hi.ended, hi.runs⟩
    · exact hi

/-! ## Runs -/

/-- The channel holds what was sent since it was made, which is too much by what was sent before the
    previous iteration. -/
theorem length_le_since {queue : List Fetched} (hi : Inv s) (hq : queue ∈ s.queues vs.idx) :
    queue.length ≤ s.since vs ↔ vs.idx ∉ (s.sent.take (s.last vs)).drop (s.born vs.idx) := by
  have hlast : s.last vs ≤ s.sent.length := hi.last vs
  have hborn : s.born vs.idx ≤ s.sent.length := hi.born vs.idx
  rw [hi.length vs.idx queue hq, since, ← List.count_eq_zero]
  rcases le_total (s.born vs.idx) (s.last vs) with hle | hle
  · have hdrop : s.sent.drop (s.born vs.idx) =
        (s.sent.take (s.last vs)).drop (s.born vs.idx) ++ s.sent.drop (s.last vs) := by
      conv_lhs => rw [← List.take_append_drop (s.last vs) s.sent]
      rw [List.drop_append_of_le_length (by simp [hle, hborn])]
    rw [hdrop, List.count_append]
    omega
  · have hnil : (s.sent.take (s.last vs)).drop (s.born vs.idx) = [] := by
      simp [hle]
    have hsub : List.Sublist (s.sent.drop (s.born vs.idx)) (s.sent.drop (s.last vs)) :=
      List.drop_sublist_drop_left s.sent hle
    simp [hnil, hsub.count_le]

theorem notifies_of_allowed {a : NotifierStep} (hi : Inv s) (ha : Allowed s a) :
    Notifies s a where
  runs := (inv_step hi ha).runs
  drained := by
    rintro vs rfl hrun queue hqueue
    exact (length_le_since hi hqueue).mpr (ha hrun)
  others := by
    rintro vs rfl other hne hp
    rw [step]
    split
    · rename_i hrun
      exact Function.update_of_ne (ha hrun other hne hp) _ _
    · rfl

theorem allowed_of_notifies {a : NotifierStep} (hi : Inv s) (h : Notifies s a) :
    Allowed s a := by
  cases a with
  | runStart vs =>
    intro hidle
    by_contra hended
    rw [Bool.not_eq_false] at hended
    refine h.runs vs ?_ ?_
    · simp [step, hidle]
    · simpa [step, hidle] using hi.ended vs.idx hended
  | loopEnd vs =>
    intro hrun
    obtain ⟨queue, hqueue⟩ := Option.ne_none_iff_exists'.mp (hi.runs vs hrun)
    exact (length_le_since hi hqueue).mp (h.drained vs rfl hrun queue hqueue)
  | runEnd vs =>
    intro hrun other hne hp hidx
    refine hi.runs vs hrun ?_
    have hsame := h.others vs rfl other hne hp
    simpa [step, hrun, runEnd, hidx] using hsame.symm
  | _ => trivial

theorem notifiers_iff (steps : List NotifierStep) :
    Along step Notifies start steps ↔ Along step Allowed start steps :=
  along_iff_along (I := Inv) (fun _ _ hi => ⟨allowed_of_notifies hi, notifies_of_allowed hi⟩)
    (fun _ _ => inv_step) inv_start

/-- A frame fetched in the first iteration is still in the channel at the end of the second. -/
theorem fetched_never_drained :
    ¬ Along step Notifies start [.new ⟨.monitor, 0⟩, .runStart ⟨.monitor, 0⟩,
      .notify 0 (1, none), .loopEnd ⟨.monitor, 0⟩, .loopEnd ⟨.monitor, 0⟩] := by
  intro h
  have hdrained := h.2.2.2.2.1.drained ⟨.monitor, 0⟩ rfl (by decide) [(1, none)] (by decide)
  exact absurd hdrained (by decide)

end Notifiers

end LuodaRemote
