/-
  Byte positions in a text: slices that begin or end at one, and where a sequence is found first.

  A slice at a position inside a character, or behind the end, is no text.
-/
import Mathlib.Tactic

namespace LuodaRemote.Lib

/-- The bytes of a text in UTF-8. -/
def byteLen : List Char → Nat
  | [] => 0
  | c :: cs => c.utf8Size + byteLen cs

@[simp] theorem byteLen_nil : byteLen [] = 0 := rfl

@[simp] theorem byteLen_cons (c : Char) (cs : List Char) :
    byteLen (c :: cs) = c.utf8Size + byteLen cs := rfl

@[simp] theorem byteLen_append (a b : List Char) :
    byteLen (a ++ b) = byteLen a + byteLen b := by
  induction a with
  | nil => rw [List.nil_append, byteLen_nil, Nat.zero_add]
  | cons c a ih => rw [List.cons_append, byteLen_cons, byteLen_cons, ih, Nat.add_assoc]

theorem utf8Size_of_ascii {c : Char} (hc : c.toNat < 128) : c.utf8Size = 1 :=
  Char.utf8Size_eq_one_iff.mpr (UInt32.le_iff_toNat_le.mpr (Nat.le_of_lt_succ hc))

theorem byteLen_of_ascii {cs : List Char} (hcs : ∀ c ∈ cs, c.toNat < 128) :
    byteLen cs = cs.length := by
  induction cs with
  | nil => rfl
  | cons c cs ih =>
    obtain ⟨hc, hcs⟩ := List.forall_mem_cons.mp hcs
    rw [byteLen_cons, utf8Size_of_ascii hc, ih hcs, List.length_cons, Nat.add_comm]

theorem length_le_utf8ByteSize (s : String) : s.toList.length ≤ s.utf8ByteSize := by
  induction s using String.push_induction with
  | empty => exact Nat.zero_le _
  | push s c ih =>
    have hpos := c.utf8Size_pos
    rw [String.toList_push, List.length_append, List.length_singleton, String.utf8ByteSize_push]
    omega

/-! ## Slices -/

/-- The text before and behind a position, if it is at a character or at the end. -/
def splitAt? : Nat → List Char → Option (List Char × List Char)
  | 0, cs => some ([], cs)
  | _ + 1, [] => none
  | n + 1, c :: cs =>
    if c.utf8Size ≤ n + 1 then
      (splitAt? (n + 1 - c.utf8Size) cs).map fun (a, b) => (c :: a, b)
    else none

/-- `&s[n..]`. -/
def sliceFrom (n : Nat) (cs : List Char) : Option (List Char) := (splitAt? n cs).map Prod.snd

/-- `&s[..n]`. -/
def sliceTo (n : Nat) (cs : List Char) : Option (List Char) := (splitAt? n cs).map Prod.fst

theorem splitAt?_append (a b : List Char) : splitAt? (byteLen a) (a ++ b) = some (a, b) := by
  induction a with
  | nil => cases b <;> rfl
  | cons c a ih =>
    have hsize := c.utf8Size_pos
    obtain ⟨n, hn⟩ : ∃ n, byteLen (c :: a) = n + 1 :=
      ⟨byteLen (c :: a) - 1, by rw [byteLen_cons]; omega⟩
    have hrest : n + 1 - c.utf8Size = byteLen a := by
      rw [byteLen_cons] at hn
      omega
    have hle : c.utf8Size ≤ n + 1 := by
      rw [byteLen_cons] at hn
      omega
    rw [hn, List.cons_append, splitAt?, if_pos hle, hrest, ih]
    rfl

theorem splitAt?_some {n : Nat} {cs a b : List Char} (h : splitAt? n cs = some (a, b)) :
    cs = a ++ b ∧ byteLen a = n := by
  induction cs generalizing n a with
  | nil =>
    cases n with
    | zero =>
      cases h
      exact ⟨rfl, rfl⟩
    | succ n => cases h
  | cons c cs ih =>
    cases n with
    | zero =>
      cases h
      exact ⟨rfl, rfl⟩
    | succ n =>
      rw [splitAt?] at h
      split at h
      · next hle =>
          obtain ⟨⟨a', b'⟩, hrest, heq⟩ := Option.map_eq_some_iff.mp h
          cases heq
          obtain ⟨rfl, hlen⟩ := ih hrest
          refine ⟨rfl, ?_⟩
          rw [byteLen_cons, hlen]
          omega
      · cases h

theorem sliceFrom_eq_some {n : Nat} {cs b : List Char} :
    sliceFrom n cs = some b ↔ ∃ a, cs = a ++ b ∧ byteLen a = n := by
  constructor
  · intro h
    obtain ⟨⟨a, _⟩, hsplit, rfl⟩ := Option.map_eq_some_iff.mp h
    exact ⟨a, splitAt?_some hsplit⟩
  · rintro ⟨a, rfl, rfl⟩
    unfold sliceFrom
    rw [splitAt?_append]
    rfl

theorem sliceTo_append (a b : List Char) : sliceTo (byteLen a) (a ++ b) = some a := by
  unfold sliceTo
  rw [splitAt?_append]
  rfl

/-! ## Finding -/

/-- The text before the first place where the rest of it is of a kind. -/
def beforeFirst (p : List Char → Bool) : List Char → Option (List Char)
  | [] => if p [] then some [] else none
  | c :: cs => if p (c :: cs) then some [] else (beforeFirst p cs).map (c :: ·)

/-- The text before a sequence. -/
def before (pat : List Char) : List Char → Option (List Char) :=
  beforeFirst fun rest => pat <+: rest

/-- `str::find`. -/
def find (pat cs : List Char) : Option Nat := (before pat cs).map byteLen

section Finding

variable {p : List Char → Bool} {cs a b : List Char}

theorem beforeFirst_of_pos (h : p cs = true) : beforeFirst p cs = some [] := by
  cases cs with
  | nil => exact if_pos h
  | cons c cs => exact if_pos h

theorem beforeFirst_eq_none : beforeFirst p cs = none ↔ ∀ a b, cs = a ++ b → p b = false := by
  induction cs with
  | nil =>
    rw [beforeFirst]
    constructor
    · intro h a b heq
      obtain ⟨rfl, rfl⟩ := List.append_eq_nil_iff.mp heq.symm
      exact Bool.eq_false_iff.mpr fun hp => by rw [if_pos hp] at h; cases h
    · intro hall
      exact if_neg (Bool.eq_false_iff.mp (hall [] [] rfl))
  | cons c cs ih =>
    rw [beforeFirst]
    constructor
    · intro h a b heq
      split at h
      · cases h
      · next hp =>
          cases a with
          | nil =>
            rw [List.nil_append] at heq
            exact heq ▸ Bool.eq_false_iff.mpr hp
          | cons d a =>
            obtain ⟨-, rfl⟩ := List.cons.inj heq
            exact ih.mp (Option.map_eq_none_iff.mp h) a b rfl
    · intro hall
      rw [if_neg (Bool.eq_false_iff.mp (hall [] _ rfl)), Option.map_eq_none_iff]
      refine ih.mpr fun a b heq => hall (c :: a) b ?_
      rw [heq, List.cons_append]

/-- What is found before the end of a part is found in the part. -/
theorem beforeFirst_append (h : ∀ a' b', a = a' ++ b' → b' ≠ [] → p (b' ++ b) = false) :
    beforeFirst p (a ++ b) = (beforeFirst p b).map (a ++ ·) := by
  induction a with
  | nil =>
    cases hb : beforeFirst p b <;> simp [hb]
  | cons c a ih =>
    have hhere : p (c :: (a ++ b)) = false := h [] (c :: a) rfl (List.cons_ne_nil _ _)
    have hlater := ih fun a' b' heq hne => h (c :: a') b' (by rw [heq, List.cons_append]) hne
    rw [List.cons_append, beforeFirst, hhere, hlater, if_neg Bool.false_ne_true, Option.map_map]
    rfl

end Finding

end LuodaRemote.Lib
