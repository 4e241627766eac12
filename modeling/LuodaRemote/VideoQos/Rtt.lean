/-
  The round trip of a user (`RttCalculator` of `src/server/video_qos.rs`).

  The least delay of the last sixty is kept up to date, and looked for again only when it falls
  out. `scan` is what looking at all the delays gives; `run_eq_scan`: it is the same after every
  delay.
-/
import LuodaRemote.Lib.Window
import LuodaRemote.VideoQos.State

namespace LuodaRemote.VideoQos
open Lib

attribute [ext] RttCalculator

namespace RttCalculator

/-- `RttCalculator::default()`. -/
def init : RttCalculator := ⟨none, none, none, []⟩

/-- After some delays. -/
def run (delays : List Nat) : RttCalculator := delays.foldl update init

/-- The weighted average of the two. -/
def weighted : Option Nat → Option Nat → Option Nat
  | some min, some windowMin => some (U32.ofRat ((1 - alpha) * min + alpha * windowMin))
  | _, _ => none

def scan (delays : List Nat) : RttCalculator where
  minRtt := delays.min?
  windowMinRtt := (window windowSamples delays).min?
  smoothedRtt :=
    if windowSamples ≤ delays.length then
      weighted delays.min? (window windowSamples delays).min?
    else none
  samples := window windowSamples delays

theorem lower_min? (xs : List Nat) (delay : Nat) : lower xs.min? delay = (xs ++ [delay]).min? := by
  rw [min?_concat]
  cases xs.min? with
  | none => rfl
  | some least =>
    show some (if delay < least then delay else least) = some (min least delay)
    rw [min_comm, min_def_lt]

/-- What is left of the samples before the next one. -/
def kept (samples : List Nat) : List Nat :=
  if windowSamples ≤ samples.length then samples.tail else samples

/-- The least of what is left is found again if it was the oldest, and is still the same if not. -/
theorem min?_kept (samples : List Nat) :
    (if decide (windowSamples ≤ samples.length) && samples.head?.isSome &&
        samples.head? == samples.min? then (kept samples).min? else samples.min?) =
      (kept samples).min? := by
  split
  · rfl
  · next h =>
    unfold kept
    split
    · next hfull =>
      cases samples with
      | nil => rfl
      | cons oldest samples =>
        refine (min?_tail_of_ne fun hleast => h ?_).symm
        rw [hleast, decide_eq_true hfull]
        simp
    · rfl

theorem window_kept (delays : List Nat) (delay : Nat) :
    kept (window windowSamples delays) ++ [delay] = window windowSamples (delays ++ [delay]) :=
  (window_concat (by decide) delays delay).symm

section

variable (c : RttCalculator) (delay : Nat)

theorem samples_update : (c.update delay).samples = kept c.samples ++ [delay] := by
  unfold update kept
  simp only [decide_eq_true_eq]

theorem minRtt_update : (c.update delay).minRtt = lower c.minRtt delay := rfl

theorem windowMinRtt_update (h : c.windowMinRtt = c.samples.min?) :
    (c.update delay).windowMinRtt = (c.update delay).samples.min? := by
  have hkept := min?_kept c.samples
  rw [samples_update, ← lower_min?, ← hkept, ← h]
  unfold update kept
  simp only [decide_eq_true_eq]

theorem smoothedRtt_update :
    (c.update delay).smoothedRtt =
      if windowSamples ≤ (c.update delay).samples.length then
        match (c.update delay).minRtt, (c.update delay).windowMinRtt with
        | some min, some windowMin => some (U32.ofRat ((1 - alpha) * min + alpha * windowMin))
        | _, _ => c.smoothedRtt
      else c.smoothedRtt := rfl

end

theorem update_scan (delays : List Nat) (delay : Nat) :
    (scan delays).update delay = scan (delays ++ [delay]) := by
  have hsamples : ((scan delays).update delay).samples = (scan (delays ++ [delay])).samples :=
    (samples_update _ _).trans (window_kept delays delay)
  have hmin : ((scan delays).update delay).minRtt = (scan (delays ++ [delay])).minRtt :=
    (minRtt_update _ _).trans (lower_min? delays delay)
  have hwindow : ((scan delays).update delay).windowMinRtt =
      (scan (delays ++ [delay])).windowMinRtt := by
    rw [windowMinRtt_update _ _ rfl, hsamples]
    rfl
  refine RttCalculator.ext hmin hwindow ?_ hsamples
  obtain ⟨least, hleast⟩ : ∃ least, (delays ++ [delay]).min? = some least :=
    ⟨_, min?_concat delays delay⟩
  obtain ⟨windowLeast, hwindowLeast⟩ :
      ∃ least, (window windowSamples (delays ++ [delay])).min? = some least := by
    rw [← window_kept]
    exact ⟨_, min?_concat _ delay⟩
  rw [smoothedRtt_update, hsamples, hmin, hwindow]
  simp only [scan, hleast, hwindowLeast, le_length_window]
  split
  · rfl
  · next hfew =>
    have hfewer : ¬ windowSamples ≤ delays.length := by
      rw [List.length_append, List.length_singleton] at hfew
      omega
    exact if_neg hfewer

theorem run_eq_scan (delays : List Nat) : run delays = scan delays := by
  induction delays using List.reverseRecOn with
  | nil => rfl
  | append_singleton delays delay ih =>
    rw [run, List.foldl_append, List.foldl_cons, List.foldl_nil, ← update_scan, ← ih, run]

/-- The update agrees with a full scan. -/
theorem update_agrees (delays : List Nat) :
    (run delays).samples = window windowSamples delays ∧
      (run delays).windowMinRtt = (run delays).samples.min? ∧
      (run delays).minRtt = delays.min? := by
  rw [run_eq_scan]
  exact ⟨rfl, rfl, rfl⟩

end RttCalculator

end LuodaRemote.VideoQos
