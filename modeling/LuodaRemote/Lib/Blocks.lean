/-
  Lists that are made of blocks of one length, and the points of a grid row by row.
-/
import Mathlib.Tactic

namespace LuodaRemote.Lib

variable {α β : Type*}

/-! ## Blocks -/

/-- The `i`-th block of `k` elements. -/
def block (k i : ℕ) (xs : List α) : List α := (xs.drop (k * i)).take k

theorem block_zero (k : ℕ) (xs : List α) : block k 0 xs = xs.take k := by simp [block]

theorem block_succ (k i : ℕ) (xs : List α) : block k (i + 1) xs = block k i (xs.drop k) := by
  rw [block, block, List.drop_drop]
  congr 2
  ring

theorem getElem?_block {k i j : ℕ} {xs : List α} (hj : j < k) :
    (block k i xs)[j]? = xs[k * i + j]? := by
  rw [block, List.getElem?_take_of_lt hj, List.getElem?_drop]

/-- A list is put together from blocks if it has their length and each of them in its place. -/
theorem eq_flatMap_iff {k : ℕ} {f : β → List α} {l : List β} (hf : ∀ b ∈ l, (f b).length = k)
    {xs : List α} : xs = l.flatMap f ↔
      xs.length = k * l.length ∧ ∀ i b, l[i]? = some b → block k i xs = f b := by
  induction l generalizing xs with
  | nil => simp
  | cons b l ih =>
    obtain ⟨hb, hl⟩ := List.forall_mem_cons.mp hf
    constructor
    · rintro rfl
      obtain ⟨hlen, hblocks⟩ := (ih hl).mp (Eq.refl (l.flatMap f))
      have hdrop : (f b ++ l.flatMap f).drop k = l.flatMap f := by
        rw [← hb, List.drop_left]
      refine ⟨?_, fun i c hc => ?_⟩
      · rw [List.flatMap_cons, List.length_append, hb, hlen, List.length_cons]
        ring
      · rw [List.flatMap_cons]
        cases i with
        | zero =>
          cases hc
          rw [block_zero, ← hb, List.take_left]
        | succ i =>
          rw [block_succ, hdrop]
          exact hblocks i c hc
    · rintro ⟨hlen, hblocks⟩
      rw [List.length_cons] at hlen
      have hhead : xs.take k = f b := (block_zero k xs).symm.trans (hblocks 0 b rfl)
      have htail : xs.drop k = l.flatMap f := by
        refine (ih hl).mpr ⟨?_, fun i c hc => ?_⟩
        · rw [List.length_drop, hlen, Nat.mul_succ, Nat.add_sub_cancel]
        · rw [← block_succ]
          exact hblocks (i + 1) c hc
      rw [List.flatMap_cons, ← hhead, ← htail, List.take_append_drop]

/-! ## Grids -/

/-- The points of a grid, row by row. -/
def grid (w h : ℕ) : List (ℕ × ℕ) :=
  (List.range h).flatMap fun y => (List.range w).map fun x => (x, y)

theorem mem_grid {w h : ℕ} {p : ℕ × ℕ} : p ∈ grid w h ↔ p.1 < w ∧ p.2 < h := by
  obtain ⟨x, y⟩ := p
  simp [grid]
  tauto

theorem length_grid (w h : ℕ) : (grid w h).length = w * h := by
  simpa using ((eq_flatMap_iff (k := w) (by simp)).mp (rfl : grid w h = _)).1

theorem getElem?_grid {w h x y : ℕ} (hx : x < w) (hy : y < h) :
    (grid w h)[w * y + x]? = some (x, y) := by
  have hrow := ((eq_flatMap_iff (k := w) (by simp)).mp (rfl : grid w h = _)).2 y y (by simp [hy])
  rw [← getElem?_block hx, hrow]
  simp [hx]

/-- What is put together along a grid has a block for each of its points. -/
theorem eq_flatMap_grid_iff {k w h : ℕ} {f : ℕ × ℕ → List α}
    (hf : ∀ p ∈ grid w h, (f p).length = k) {xs : List α} : xs = (grid w h).flatMap f ↔
      xs.length = k * (w * h) ∧ ∀ y < h, ∀ x < w, block k (w * y + x) xs = f (x, y) := by
  rw [eq_flatMap_iff hf, length_grid]
  refine and_congr Iff.rfl ⟨fun hall y hy x hx => hall _ _ (getElem?_grid hx hy),
    fun hall i p hp => ?_⟩
  obtain ⟨hi, _⟩ := List.getElem?_eq_some_iff.mp hp
  rw [length_grid] at hi
  have hw : 0 < w := Nat.pos_of_ne_zero (by rintro rfl; simp at hi)
  have hx : i % w < w := Nat.mod_lt i hw
  have hy : i / w < h := Nat.div_lt_of_lt_mul hi
  have hdiv : w * (i / w) + i % w = i := Nat.div_add_mod i w
  have hpoint := getElem?_grid hx hy
  rw [hdiv, hp] at hpoint
  cases hpoint
  have hblock := hall (i / w) hy (i % w) hx
  rwa [hdiv] at hblock

end LuodaRemote.Lib
