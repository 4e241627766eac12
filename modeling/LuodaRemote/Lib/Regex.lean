/-
  Classes and counted repetitions of regular expressions, and the texts that they match.
-/
import Mathlib.Computability.RegularExpressions
import Mathlib.Tactic

namespace LuodaRemote.Lib

namespace Regex

variable {α : Type*}

/-- `[...]`. -/
def oneOf (cs : List α) : RegularExpression α :=
  cs.foldr (fun c r => RegularExpression.char c + r) 0

/-- `r+`. -/
def repeated (r : RegularExpression α) : RegularExpression α := r * r.star

/-- `r{0,n}`. -/
def atMost (r : RegularExpression α) : Nat → RegularExpression α
  | 0 => 1
  | n + 1 => 1 + r * atMost r n

/-- `r{m,n}`. -/
def between (m n : Nat) (r : RegularExpression α) : RegularExpression α := r ^ m * atMost r (n - m)

variable {cs w : List α}

theorem mem_oneOf : w ∈ (oneOf cs).matches' ↔ ∃ c ∈ cs, w = [c] := by
  induction cs with
  | nil => exact ⟨nofun, nofun⟩
  | cons c cs ih =>
    have hcons : oneOf (c :: cs) = RegularExpression.char c + oneOf cs := rfl
    have hc : w ∈ (RegularExpression.char c).matches' ↔ w = [c] := Iff.rfl
    rw [hcons, RegularExpression.matches'_add, Language.mem_add, ih, hc]
    simp only [List.mem_cons, or_and_right, exists_or, exists_eq_left]

/-- Exactly `m` of the class. -/
theorem mem_oneOf_pow {m : Nat} :
    w ∈ (oneOf cs ^ m).matches' ↔ w.length = m ∧ ∀ c ∈ w, c ∈ cs := by
  rw [RegularExpression.matches'_pow]
  induction m generalizing w with
  | zero =>
    rw [pow_zero, Language.mem_one, List.length_eq_zero_iff]
    exact ⟨fun h => ⟨h, by rw [h]; exact nofun⟩, fun h => h.1⟩
  | succ m ih =>
    rw [pow_succ', Language.mem_mul]
    constructor
    · rintro ⟨a, ha, b, hb, rfl⟩
      obtain ⟨c, hc, rfl⟩ := mem_oneOf.mp ha
      obtain ⟨hlen, hall⟩ := ih.mp hb
      refine ⟨by rw [List.singleton_append, List.length_cons, hlen], ?_⟩
      exact List.forall_mem_cons.mpr ⟨hc, hall⟩
    · rintro ⟨hlen, hall⟩
      cases w with
      | nil => cases hlen
      | cons c w =>
        obtain ⟨hc, hall⟩ := List.forall_mem_cons.mp hall
        exact ⟨[c], mem_oneOf.mpr ⟨c, hc, rfl⟩, w, ih.mpr ⟨Nat.succ.inj hlen, hall⟩, rfl⟩

theorem mem_atMost_oneOf {n : Nat} :
    w ∈ (atMost (oneOf cs) n).matches' ↔ w.length ≤ n ∧ ∀ c ∈ w, c ∈ cs := by
  induction n generalizing w with
  | zero =>
    rw [Nat.le_zero, List.length_eq_zero_iff]
    exact ⟨fun h => ⟨h, by rw [Set.mem_singleton_iff.mp h]; exact nofun⟩, fun h => h.1⟩
  | succ n ih =>
    rw [atMost, RegularExpression.matches'_add, Language.mem_add, RegularExpression.matches'_mul,
      Language.mem_mul, RegularExpression.matches'_epsilon, Language.mem_one]
    constructor
    · rintro (rfl | ⟨a, ha, b, hb, rfl⟩)
      · exact ⟨Nat.zero_le _, nofun⟩
      · obtain ⟨c, hc, rfl⟩ := mem_oneOf.mp ha
        obtain ⟨hlen, hall⟩ := ih.mp hb
        exact ⟨Nat.succ_le_succ hlen, List.forall_mem_cons.mpr ⟨hc, hall⟩⟩
    · rintro ⟨hlen, hall⟩
      cases w with
      | nil => exact .inl rfl
      | cons c w =>
        obtain ⟨hc, hall⟩ := List.forall_mem_cons.mp hall
        exact .inr ⟨[c], mem_oneOf.mpr ⟨c, hc, rfl⟩, w,
          ih.mpr ⟨Nat.le_of_succ_le_succ hlen, hall⟩, rfl⟩

/-- From `m` to `n` of the class. -/
theorem mem_between_oneOf {m n : Nat} (hmn : m ≤ n) :
    w ∈ (between m n (oneOf cs)).matches' ↔
      (m ≤ w.length ∧ w.length ≤ n) ∧ ∀ c ∈ w, c ∈ cs := by
  rw [between, RegularExpression.matches'_mul, Language.mem_mul]
  constructor
  · rintro ⟨a, ha, b, hb, rfl⟩
    obtain ⟨hla, hall⟩ := mem_oneOf_pow.mp ha
    obtain ⟨hlb, hbll⟩ := mem_atMost_oneOf.mp hb
    refine ⟨?_, List.forall_mem_append.mpr ⟨hall, hbll⟩⟩
    rw [List.length_append]
    omega
  · rintro ⟨⟨hm, hn⟩, hall⟩
    refine ⟨w.take m, mem_oneOf_pow.mpr ⟨?_, fun c hc => hall c (List.mem_of_mem_take hc)⟩,
      w.drop m, mem_atMost_oneOf.mpr ⟨?_, fun c hc => hall c (List.mem_of_mem_drop hc)⟩,
      List.take_append_drop m w⟩
    · rw [List.length_take]
      omega
    · rw [List.length_drop]
      omega

/-- One or more of the class. -/
theorem mem_repeated_oneOf (hne : w ≠ []) (hall : ∀ c ∈ w, c ∈ cs) :
    w ∈ (repeated (oneOf cs)).matches' := by
  obtain ⟨c, w, rfl⟩ := List.exists_cons_of_ne_nil hne
  obtain ⟨hc, hall⟩ := List.forall_mem_cons.mp hall
  rw [repeated, RegularExpression.matches'_mul, Language.mem_mul, RegularExpression.matches'_star]
  refine ⟨[c], mem_oneOf.mpr ⟨c, hc, rfl⟩, w, Language.mem_kstar.mpr ?_, rfl⟩
  refine ⟨w.map fun d => [d], (List.flatMap_singleton' w).symm, fun d hd => ?_⟩
  obtain ⟨e, he, rfl⟩ := List.mem_map.mp hd
  exact mem_oneOf.mpr ⟨e, hall e he, rfl⟩

end Regex

end LuodaRemote.Lib
