/-
  Checked arithmetic, and what a computation can fail with.

  `Returns A x Q` says that `x` returns a value with `Q`, unless it fails in a way that `A` allows.
  The rules follow the computation: `Returns.bind` for one step after another, `Returns.mapM` and
  `Returns.foldlM` for loops.

  The operations on words of 32 and of 64 bits, and on signed ones of 64 bits, fail where a machine
  would stop. A fraction is a floating point number that is never rounded.
-/
import Mathlib.Tactic

namespace LuodaRemote.Lib

/-! ## Results -/

section Returns

universe u

variable {ε : Type*} {α β σ : Type u} {A : ε → Prop} {Q : α → Prop} {R : β → Prop}
  {x : Except ε α}

def Returns (A : ε → Prop) (x : Except ε α) (Q : α → Prop) : Prop :=
  match x with
  | .ok a => Q a
  | .error e => A e

theorem returns_ok {a : α} (ha : Q a) : Returns A (.ok a) Q := ha

theorem Returns.mono {Q' : α → Prop} (hx : Returns A x Q) (hQ : ∀ a, Q a → Q' a) :
    Returns A x Q' := by
  cases x with
  | ok a => exact hQ a hx
  | error e => exact hx

theorem Returns.bind {f : α → Except ε β} (hx : Returns A x Q) (hf : ∀ a, Q a → Returns A (f a) R) :
    Returns A (x >>= f) R := by
  cases x with
  | ok a => exact hf a hx
  | error e => exact hx

/-- A step that keeps an invariant, at the elements of a list, keeps it over all the steps. -/
theorem Returns.foldlM_of_mem {step : σ → α → Except ε σ} {I : σ → Prop} {as : List α}
    (hstep : ∀ s, ∀ a ∈ as, I s → Returns A (step s a) I) {s : σ} (hs : I s) :
    Returns A (as.foldlM step s) I := by
  induction as generalizing s with
  | nil => exact hs
  | cons a as ih =>
    rw [List.foldlM_cons]
    exact (hstep s a List.mem_cons_self hs).bind fun _ ht =>
      ih (fun s b hb => hstep s b (List.mem_cons_of_mem a hb)) ht

theorem Returns.foldlM {step : σ → α → Except ε σ} {I : σ → Prop}
    (hstep : ∀ s a, I s → Returns A (step s a) I) {s : σ} (hs : I s) (as : List α) :
    Returns A (as.foldlM step s) I :=
  Returns.foldlM_of_mem (fun s a _ => hstep s a) hs

/-- A loop that collects what it finds. -/
theorem Returns.mapM {f : α → Except ε β} {as : List α} (hf : ∀ a ∈ as, Returns A (f a) R) :
    Returns A (as.mapM f) fun bs => ∀ b ∈ bs, R b := by
  induction as with
  | nil =>
    rw [List.mapM_nil]
    exact returns_ok fun b hb => absurd hb List.not_mem_nil
  | cons a as ih =>
    obtain ⟨ha, has⟩ := List.forall_mem_cons.mp hf
    rw [List.mapM_cons]
    refine ha.bind fun b hb => (ih has).bind fun bs hbs => ?_
    exact returns_ok (List.forall_mem_cons.mpr ⟨hb, hbs⟩)

theorem mapM_ok {f : α → Except ε β} {g : α → β} {l : List α}
    (hf : ∀ a ∈ l, f a = .ok (g a)) : l.mapM f = .ok (l.map g) := by
  induction l with
  | nil => rfl
  | cons a l ih =>
    obtain ⟨ha, hl⟩ := List.forall_mem_cons.mp hf
    rw [List.mapM_cons, ha, ih hl]
    rfl

/-- A loop that fails at one of its elements fails. -/
theorem mapM_error {f : α → Except ε β} {e : ε} {l : List α}
    (hf : ∀ a ∈ l, f a = .error e ∨ ∃ b, f a = .ok b) (hex : ∃ a ∈ l, f a = .error e) :
    l.mapM f = .error e := by
  induction l with
  | nil =>
    obtain ⟨a, ha, _⟩ := hex
    cases ha
  | cons a l ih =>
    obtain ⟨ha, hl⟩ := List.forall_mem_cons.mp hf
    rw [List.mapM_cons]
    rcases ha with he | ⟨b, hb⟩
    · rw [he]
      rfl
    · obtain ⟨c, hc, hce⟩ := hex
      have hrest : ∃ a ∈ l, f a = .error e := by
        rcases List.mem_cons.mp hc with rfl | hmem
        · rw [hb] at hce
          cases hce
        · exact ⟨c, hmem, hce⟩
      rw [hb, ih hl hrest]
      rfl

/-- A computation that may fail in one way only. -/
theorem returns_iff_of_eq {e : ε} :
    Returns (· = e) x Q ↔ x = .error e ∨ ∃ a, x = .ok a ∧ Q a := by
  cases x with
  | ok a => simp [Returns]
  | error e' => simp [Returns]

end Returns

/-! ## Arithmetic -/

inductive Fault where
  | overflow
  /-- In a sum over a collection. -/
  | sumOverflow
  | underflow
  | divideByZero
  /-- The bounds of a `clamp` are the wrong way round. -/
  | clampBounds
  deriving DecidableEq

namespace U32

def add (a b : Nat) : Except Fault Nat :=
  if a + b < 2 ^ 32 then .ok (a + b) else .error .overflow

def sub (a b : Nat) : Except Fault Nat := if b ≤ a then .ok (a - b) else .error .underflow

def mul (a b : Nat) : Except Fault Nat :=
  if a * b < 2 ^ 32 then .ok (a * b) else .error .overflow

def div (a b : Nat) : Except Fault Nat := if b = 0 then .error .divideByZero else .ok (a / b)

def sum (as : List Nat) : Except Fault Nat :=
  if as.sum < 2 ^ 32 then .ok as.sum else .error .sumOverflow

/-- A fraction `as u32`: cut off at the point, and at the ends. -/
def ofRat (x : ℚ) : Nat := min ⌊x⌋₊ (2 ^ 32 - 1)

end U32

namespace U64

def add (a b : Nat) : Except Fault Nat :=
  if a + b < 2 ^ 64 then .ok (a + b) else .error .overflow

def sub (a b : Nat) : Except Fault Nat := if b ≤ a then .ok (a - b) else .error .underflow

def mul (a b : Nat) : Except Fault Nat :=
  if a * b < 2 ^ 64 then .ok (a * b) else .error .overflow

def div (a b : Nat) : Except Fault Nat := if b = 0 then .error .divideByZero else .ok (a / b)

theorem add_ok {a b : Nat} (h : a + b < 2 ^ 64) : add a b = .ok (a + b) := if_pos h

theorem sub_ok {a b : Nat} (h : b ≤ a) : sub a b = .ok (a - b) := if_pos h

theorem sub_underflow {a b : Nat} (h : a < b) : sub a b = .error .underflow :=
  if_neg (Nat.not_le.mpr h)

theorem mul_ok {a b : Nat} (h : a * b < 2 ^ 64) : mul a b = .ok (a * b) := if_pos h

theorem mul_overflow {a b : Nat} (h : 2 ^ 64 ≤ a * b) : mul a b = .error .overflow :=
  if_neg (Nat.not_lt.mpr h)

end U64

namespace I64

def fit (n : Int) : Except Fault Int :=
  if -2 ^ 63 ≤ n ∧ n < 2 ^ 63 then .ok n else .error .overflow

def add (a b : Int) : Except Fault Int := fit (a + b)

def sub (a b : Int) : Except Fault Int := fit (a - b)

def mul (a b : Int) : Except Fault Int := fit (a * b)

theorem fit_nonneg {n : Int} (hn : 0 ≤ n) :
    fit n = if n < 2 ^ 63 then .ok n else .error .overflow := by
  unfold fit
  split
  · next h => rw [if_pos h.2]
  · next h => rw [if_neg fun hlt => h ⟨by omega, hlt⟩]

end I64

/-- `x.clamp(lo, hi)`. -/
def clamp {α : Type*} [LinearOrder α] (lo hi x : α) : Except Fault α :=
  if lo ≤ hi then .ok (max lo (min x hi)) else .error .clampBounds

def divRat (a b : ℚ) : Except Fault ℚ := if b = 0 then .error .divideByZero else .ok (a / b)

section Arithmetic

variable {A : Fault → Prop} {a b : Nat}

theorem U32.returns_add (h : a + b < 2 ^ 32) : Returns A (U32.add a b) (· = a + b) := by
  rw [U32.add, if_pos h]
  exact returns_ok rfl

theorem U32.returns_sub (h : b ≤ a) : Returns A (U32.sub a b) (· = a - b) := by
  rw [U32.sub, if_pos h]
  exact returns_ok rfl

theorem U32.returns_mul (h : a * b < 2 ^ 32) : Returns A (U32.mul a b) (· = a * b) := by
  rw [U32.mul, if_pos h]
  exact returns_ok rfl

theorem U32.returns_div (h : b ≠ 0) : Returns A (U32.div a b) (· = a / b) := by
  rw [U32.div, if_neg h]
  exact returns_ok rfl

theorem U32.returns_sum (hA : A .sumOverflow) (as : List Nat) :
    Returns A (U32.sum as) (· = as.sum) := by
  unfold U32.sum
  split
  · exact returns_ok rfl
  · exact hA

theorem U32.ofRat_le {x : ℚ} {n : Nat} (h : x ≤ n) : U32.ofRat x ≤ n :=
  (min_le_left _ _).trans (Nat.floor_le_of_le h)

theorem U64.returns_mul (h : a * b < 2 ^ 64) : Returns A (U64.mul a b) (· = a * b) := by
  rw [U64.mul_ok h]
  exact returns_ok rfl

theorem U64.returns_div (h : b ≠ 0) : Returns A (U64.div a b) (· = a / b) := by
  rw [U64.div, if_neg h]
  exact returns_ok rfl

theorem returns_clamp {α : Type*} [LinearOrder α] {lo hi : α} (h : lo ≤ hi) (x : α) :
    Returns A (clamp lo hi x) (· = max lo (min x hi)) := by
  rw [clamp, if_pos h]
  exact returns_ok rfl

theorem returns_divRat {x y : ℚ} (h : y ≠ 0) : Returns A (divRat x y) (· = x / y) := by
  rw [divRat, if_neg h]
  exact returns_ok rfl

end Arithmetic

end LuodaRemote.Lib
