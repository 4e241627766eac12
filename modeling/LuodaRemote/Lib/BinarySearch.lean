/-
  The binary search of a list, as the standard library of Rust does it.

  The part of the list that may hold the element is halved until one place is left. What is found
  is the element in any list (`getElem?_of_binarySearch`); in a sorted list it is found if it is
  there (`binarySearch_isSome_iff`).
-/
import Mathlib.Tactic

namespace LuodaRemote.Lib

variable {α : Type*} [LinearOrder α]

/-- Whether the element at a place is greater than `x`. -/
def greaterAt (xs : List α) (x : α) (i : Nat) : Bool :=
  match xs[i]? with
  | some y => decide (x < y)
  | none => false

/-- The place that is left of the `size` places from `base` on. -/
def narrow (xs : List α) (x : α) : Nat → Nat → Nat → Nat
  | 0, base, _ => base
  | fuel + 1, base, size =>
    if size ≤ 1 then base
    else
      let half := size / 2
      let mid := base + half
      narrow xs x fuel (if greaterAt xs x mid then base else mid) (size - half)

/-- The index of the element, if it is found. -/
def binarySearch (xs : List α) (x : α) : Option Nat :=
  let place := narrow xs x xs.length 0 xs.length
  if xs[place]? = some x then some place else none

theorem greaterAt_iff {xs : List α} {x y : α} {i : Nat} (h : xs[i]? = some y) :
    greaterAt xs x i = true ↔ x < y := by
  unfold greaterAt
  rw [h]
  exact decide_eq_true_iff

theorem getElem?_of_binarySearch {xs : List α} {x : α} {i : Nat}
    (h : binarySearch xs x = some i) : xs[i]? = some x := by
  unfold binarySearch at h
  dsimp only at h
  split at h
  · next hfound =>
    rw [← Option.some.inj h]
    exact hfound
  · cases h

section Sorted

variable {xs : List α} {x : α} (hsorted : xs.Pairwise (· ≤ ·))
include hsorted

theorem le_of_getElem? {i j : Nat} {y z : α} (hi : xs[i]? = some y) (hj : xs[j]? = some z)
    (hij : i ≤ j) : y ≤ z := by
  obtain ⟨hilt, rfl⟩ := List.getElem?_eq_some_iff.mp hi
  obtain ⟨hjlt, rfl⟩ := List.getElem?_eq_some_iff.mp hj
  rcases Nat.lt_or_eq_of_le hij with hlt | rfl
  · exact List.pairwise_iff_getElem.mp hsorted i j hilt hjlt hlt
  · exact le_rfl

/-- If the element is in the part that is searched, it is where the search ends. -/
theorem getElem?_narrow {fuel base size : Nat} (hfuel : size ≤ fuel + 1)
    (hsize : base + size ≤ xs.length)
    (hin : ∃ i, base ≤ i ∧ i < base + size ∧ xs[i]? = some x) :
    xs[narrow xs x fuel base size]? = some x := by
  induction fuel generalizing base size with
  | zero =>
    obtain ⟨i, hlow, hhigh, hi⟩ := hin
    obtain rfl : i = base := by omega
    exact hi
  | succ fuel ih =>
    obtain ⟨i, hlow, hhigh, hi⟩ := hin
    rw [narrow]
    split
    · obtain rfl : i = base := by omega
      exact hi
    · next hmany =>
      have hmid : base + size / 2 < xs.length := by omega
      have hget : xs[base + size / 2]? = some xs[base + size / 2] := List.getElem?_eq_getElem hmid
      dsimp only
      by_cases hgreater : x < xs[base + size / 2]
      · -- The element is before the middle.
        have hbefore : i < base + size / 2 := by
          by_contra hafter
          exact absurd (le_of_getElem? hsorted hget hi (Nat.not_lt.mp hafter))
            (not_le.mpr hgreater)
        rw [if_pos ((greaterAt_iff hget).mpr hgreater)]
        exact ih (by omega) (by omega) ⟨i, hlow, by omega, hi⟩
      · rw [if_neg (hgreater ∘ (greaterAt_iff hget).mp)]
        apply ih (by omega) (by omega)
        rcases Nat.lt_or_ge i (base + size / 2) with hbefore | hafter
        · -- Then the middle is the element too.
          have hle := le_of_getElem? hsorted hi hget hbefore.le
          have heq : xs[base + size / 2] = x := le_antisymm (not_lt.mp hgreater) hle
          exact ⟨base + size / 2, le_rfl, by omega, heq ▸ hget⟩
        · exact ⟨i, hafter, by omega, hi⟩

theorem binarySearch_isSome_iff : (binarySearch xs x).isSome ↔ x ∈ xs := by
  constructor
  · intro h
    obtain ⟨i, hi⟩ := Option.isSome_iff_exists.mp h
    exact List.mem_of_getElem? (getElem?_of_binarySearch hi)
  · intro h
    obtain ⟨i, hi⟩ := List.mem_iff_getElem?.mp h
    obtain ⟨hlt, -⟩ := List.getElem?_eq_some_iff.mp hi
    have hfound := getElem?_narrow hsorted (Nat.le_succ xs.length) (Nat.zero_add _).le
      ⟨i, Nat.zero_le i, by omega, hi⟩
    unfold binarySearch
    dsimp only
    rw [if_pos hfound]
    rfl

end Sorted

end LuodaRemote.Lib
