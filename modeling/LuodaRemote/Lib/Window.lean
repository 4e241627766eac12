/-
  The last elements of a list that grows at its end, and the least of them.

  `window w xs` is the last `w` elements of `xs`, or all. One more element moves it along
  (`window_concat`): what falls out changes the least element only if it was that
  (`min?_tail_of_ne`).
-/
import Mathlib.Tactic

namespace LuodaRemote.Lib

section Window

variable {α : Type*} {w : Nat} {xs : List α}

def window (w : Nat) (xs : List α) : List α := xs.drop (xs.length - w)

theorem window_of_le (h : xs.length ≤ w) : window w xs = xs := by
  unfold window
  rw [Nat.sub_eq_zero_of_le h, List.drop_zero]

@[simp] theorem length_window (w : Nat) (xs : List α) :
    (window w xs).length = min xs.length w := by
  unfold window
  rw [List.length_drop]
  omega

theorem le_length_window : w ≤ (window w xs).length ↔ w ≤ xs.length := by
  rw [length_window]
  omega

theorem window_concat_of_lt (h : xs.length < w) (a : α) :
    window w (xs ++ [a]) = window w xs ++ [a] := by
  have hlength : (xs ++ [a]).length ≤ w := by
    rw [List.length_append, List.length_singleton]
    omega
  rw [window_of_le hlength, window_of_le h.le]

theorem window_concat_of_le (hw : 0 < w) (h : w ≤ xs.length) (a : α) :
    window w (xs ++ [a]) = (window w xs).tail ++ [a] := by
  have hlength : (xs ++ [a]).length - w = xs.length - w + 1 := by
    rw [List.length_append, List.length_singleton]
    omega
  unfold window
  rw [hlength, List.drop_append_of_le_length (by omega), List.tail_drop]

theorem window_concat (hw : 0 < w) (xs : List α) (a : α) :
    window w (xs ++ [a]) =
      (if w ≤ (window w xs).length then (window w xs).tail else window w xs) ++ [a] := by
  split
  · next h => exact window_concat_of_le hw (le_length_window.mp h) a
  · next h => exact window_concat_of_lt (Nat.lt_of_not_le (h ∘ le_length_window.mpr)) a

end Window

section Least

variable {α : Type*} [LinearOrder α] {x : α} {xs : List α}

theorem min?_concat (xs : List α) (a : α) :
    (xs ++ [a]).min? = some (xs.min?.elim a (min · a)) := by
  cases xs with
  | nil => rfl
  | cons x xs =>
    rw [List.cons_append, List.min?_cons', List.min?_cons', List.foldl_append]
    rfl

theorem min?_tail_of_ne (h : (x :: xs).min? ≠ some x) : xs.min? = (x :: xs).min? := by
  rw [List.min?_cons] at h ⊢
  cases hxs : xs.min? with
  | none =>
    rw [hxs] at h
    exact absurd rfl h
  | some m =>
    rw [hxs] at h
    have hlt : m < x := by
      by_contra hle
      exact h (congrArg some (min_eq_left (not_lt.mp hle)))
    exact congrArg some (min_eq_right hlt.le).symm

end Least

end LuodaRemote.Lib
