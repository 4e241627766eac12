/-
  Percent-encoding: a character that is not kept is a `%` and two hex digits for each of its bytes.
  `percentEncode_eq_self_iff`: only a text of characters that are kept is its own encoding.
-/
import Mathlib.Tactic

namespace LuodaRemote.Lib

def upperHexDigit (n : Nat) : Char :=
  if n < 10 then Char.ofNat (48 + n) else Char.ofNat (55 + n)

def percentByte (b : UInt8) : List Char :=
  ['%', upperHexDigit (b.toNat / 16), upperHexDigit (b.toNat % 16)]

def percentChar (keep : Char → Bool) (c : Char) : List Char :=
  if keep c then [c] else (String.utf8EncodeChar c).flatMap percentByte

def percentEncode (keep : Char → Bool) (cs : List Char) : List Char :=
  cs.flatMap (percentChar keep)

section

variable {keep : Char → Bool} {c : Char} {cs ds : List Char}

theorem percentChar_of_keep (h : keep c = true) : percentChar keep c = [c] := if_pos h

/-- A character has a byte, so something is written for it. -/
theorem percentChar_of_not_keep (h : keep c = false) :
    ∃ x y rest, percentChar keep c = '%' :: x :: y :: rest := by
  have hne : String.utf8EncodeChar c ≠ [] := String.utf8EncodeChar_ne_nil
  obtain ⟨b, bs, hb⟩ := List.exists_cons_of_ne_nil hne
  unfold percentChar
  rw [h, if_neg Bool.false_ne_true, hb, List.flatMap_cons]
  exact ⟨_, _, _, rfl⟩

theorem percentEncode_cons :
    percentEncode keep (c :: cs) = percentChar keep c ++ percentEncode keep cs := List.flatMap_cons

theorem percentEncode_of_keep (h : ∀ c ∈ cs, keep c = true) : percentEncode keep cs = cs := by
  induction cs with
  | nil => rfl
  | cons c cs ih =>
    obtain ⟨hc, hcs⟩ := List.forall_mem_cons.mp h
    rw [percentEncode_cons, percentChar_of_keep hc, ih hcs]
    rfl

theorem length_percentChar : 1 ≤ (percentChar keep c).length := by
  cases hc : keep c with
  | true =>
    rw [percentChar_of_keep hc]
    exact le_refl _
  | false =>
    obtain ⟨x, y, rest, heq⟩ := percentChar_of_not_keep hc
    rw [heq]
    exact Nat.succ_le_succ (Nat.zero_le _)

/-- No encoding is shorter than the text. -/
theorem length_le_percentEncode : cs.length ≤ (percentEncode keep cs).length := by
  induction cs with
  | nil => exact Nat.zero_le _
  | cons c cs ih =>
    have hc : 1 ≤ (percentChar keep c).length := length_percentChar
    rw [percentEncode_cons, List.length_append, List.length_cons]
    omega

/-- One that is as short has encoded nothing. -/
theorem keep_of_length_le (h : (percentEncode keep cs).length ≤ cs.length) :
    ∀ c ∈ cs, keep c = true := by
  induction cs with
  | nil => exact nofun
  | cons c cs ih =>
    have hcs : cs.length ≤ (percentEncode keep cs).length := length_le_percentEncode
    rw [percentEncode_cons, List.length_append, List.length_cons] at h
    cases hc : keep c with
    | true =>
      rw [percentChar_of_keep hc, List.length_singleton] at h
      exact List.forall_mem_cons.mpr ⟨hc, ih (by omega)⟩
    | false =>
      obtain ⟨x, y, rest, heq⟩ := percentChar_of_not_keep hc
      rw [heq, List.length_cons, List.length_cons, List.length_cons] at h
      omega

theorem percentEncode_eq_self_iff : percentEncode keep cs = cs ↔ ∀ c ∈ cs, keep c = true :=
  ⟨fun h => keep_of_length_le (le_of_eq (congrArg List.length h)), percentEncode_of_keep⟩

/-- Of two texts with one separator both are kept, or else the whole is longer. -/
theorem percentEncode_append_eq_iff (sep : List Char) :
    percentEncode keep cs ++ (sep ++ percentEncode keep ds) = cs ++ (sep ++ ds) ↔
      (∀ c ∈ cs, keep c = true) ∧ ∀ d ∈ ds, keep d = true := by
  constructor
  · intro h
    have hlen := congrArg List.length h
    have hcs : cs.length ≤ (percentEncode keep cs).length := length_le_percentEncode
    have hds : ds.length ≤ (percentEncode keep ds).length := length_le_percentEncode
    simp only [List.length_append] at hlen
    exact ⟨keep_of_length_le (by omega), keep_of_length_le (by omega)⟩
  · rintro ⟨hcs, hds⟩
    rw [percentEncode_of_keep hcs, percentEncode_of_keep hds]

theorem percent_mem_percentEncode (hc : c ∈ cs) (h : keep c = false) :
    '%' ∈ percentEncode keep cs := by
  obtain ⟨x, y, rest, heq⟩ := percentChar_of_not_keep h
  exact List.mem_flatMap.mpr ⟨c, hc, by rw [heq]; exact List.mem_cons_self⟩

end

example : percentEncode Char.isAlphanum "a@ü".toList = "a%40%C3%BC".toList := by decide +kernel

end LuodaRemote.Lib
