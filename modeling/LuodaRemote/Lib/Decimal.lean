/-
  Integers as decimal text: `parseSigned bits` and `parseUnsigned bits` read a sign and digits and
  check that the number fits in `bits` bits. `parseSigned_toString` and `parseUnsigned_toDigits`: a
  number that fits is read back as it was written.
-/
import Mathlib.Tactic

namespace LuodaRemote.Lib

def parseDigits (x : List Char) : Option Nat :=
  if x = [] ∨ x.all Char.isDigit = false then none else some (Nat.ofDigitChars 10 x 0)

/-- The number, if it fits. -/
def fitSigned (bits : Nat) (n : Int) : Option Int :=
  if -2 ^ (bits - 1) ≤ n ∧ n < 2 ^ (bits - 1) then some n else none

def parseSigned (bits : Nat) : List Char → Option Int
  | '-' :: x => (parseDigits x).bind fun n => fitSigned bits (-n)
  | '+' :: x => (parseDigits x).bind fun n => fitSigned bits n
  | x => (parseDigits x).bind fun n => fitSigned bits n

def parseUnsigned (bits : Nat) : List Char → Option Nat
  | '+' :: x => (parseDigits x).bind fun n => if n < 2 ^ bits then some n else none
  | x => (parseDigits x).bind fun n => if n < 2 ^ bits then some n else none

/-- A number in decimal is digits. -/
theorem not_mem_toDigits {c : Char} (hc : c.isDigit = false) (n : Nat) :
    c ∉ Nat.toDigits 10 n := by
  intro hmem
  rw [Nat.isDigit_of_mem_toDigits (by decide) (le_refl _) hmem] at hc
  cases hc

theorem parseDigits_toDigits (n : Nat) : parseDigits (Nat.toDigits 10 n) = some n := by
  have hdigits : (Nat.toDigits 10 n).all Char.isDigit = true :=
    List.all_eq_true.mpr fun c hc => Nat.isDigit_of_mem_toDigits (by decide) (le_refl _) hc
  unfold parseDigits
  rw [if_neg (by simp [Nat.toDigits_ne_nil, hdigits]), Nat.ofDigitChars_ten_toDigits]

/-- Text that starts with a digit has no sign. -/
theorem parseUnsigned_toDigits {bits n : Nat} (h : n < 2 ^ bits) :
    parseUnsigned bits (Nat.toDigits 10 n) = some n := by
  have hplus : ∀ x, Nat.toDigits 10 n ≠ '+' :: x := fun x hx =>
    not_mem_toDigits (c := '+') (by decide) n (hx ▸ List.mem_cons_self)
  unfold parseUnsigned
  split
  · next x hx => exact absurd hx (hplus x)
  · rw [parseDigits_toDigits, Option.bind_some, if_pos h]

theorem parseSigned_toDigits (bits n : Nat) :
    parseSigned bits (Nat.toDigits 10 n) = fitSigned bits n := by
  have hsign : ∀ c x, Nat.toDigits 10 n = c :: x → c ≠ '-' ∧ c ≠ '+' := by
    intro c x hx
    have hdigit : c.isDigit = true :=
      Nat.isDigit_of_mem_toDigits (by decide) (le_refl _) (by rw [hx]; exact List.mem_cons_self)
    constructor
    · rintro rfl
      exact absurd hdigit (by decide)
    · rintro rfl
      exact absurd hdigit (by decide)
  have hparse := parseDigits_toDigits n
  unfold parseSigned
  split
  · next x hx => exact absurd rfl (hsign '-' x hx).1
  · next x hx => exact absurd rfl (hsign '+' x hx).2
  · rw [hparse]
    rfl

theorem parseSigned_toString {bits : Nat} {n : Int} (hlo : -2 ^ (bits - 1) ≤ n)
    (hhi : n < 2 ^ (bits - 1)) : parseSigned bits (toString n).toList = some n := by
  rw [Int.toString_eq_repr, Int.repr_eq_if]
  split
  · next hpos =>
      rw [Nat.toList_repr, parseSigned_toDigits, Int.toNat_of_nonneg hpos]
      exact if_pos ⟨hlo, hhi⟩
  · next hneg =>
      have hminus : "-".toList = ['-'] := by decide
      rw [String.toList_append, Nat.toList_repr, hminus]
      show (parseDigits (Nat.toDigits 10 (-n).toNat)).bind _ = _
      rw [parseDigits_toDigits, Option.bind_some, Int.toNat_of_nonneg (by omega), neg_neg]
      exact if_pos ⟨hlo, hhi⟩

end LuodaRemote.Lib
