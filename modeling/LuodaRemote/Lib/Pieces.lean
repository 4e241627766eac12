/-
  A file that arrives in pieces, each of which says where it belongs.

  Pieces are `Consecutive` if each begins where the one before it ends. Then it does not matter
  whether one writes them at their offsets or one after another (`writeAt_end`), and what one has
  is as long as the last piece reaches (`ending_of_consecutive`).
-/
import Mathlib.Tactic

namespace LuodaRemote.Lib

variable {β : Type*}

structure Piece (β : Type*) where
  offset : Nat
  bytes : List β

/-- Where the piece ends. -/
def Piece.ending (p : Piece β) : Nat := p.offset + p.bytes.length

/-- Each piece begins where the one before ends, and the first at `n`. -/
def Consecutive : Nat → List (Piece β) → Prop
  | _, [] => True
  | n, p :: ps => p.offset = n ∧ Consecutive p.ending ps

def joined (ps : List (Piece β)) : List β := ps.flatMap Piece.bytes

/-- Where the last piece ends. -/
def ending (ps : List (Piece β)) : Nat := (ps.getLast?).elim 0 Piece.ending

@[simp] theorem joined_nil : joined ([] : List (Piece β)) = [] := rfl

theorem joined_concat (ps : List (Piece β)) (p : Piece β) :
    joined (ps ++ [p]) = joined ps ++ p.bytes := by
  simp [joined]

theorem ending_concat (ps : List (Piece β)) (p : Piece β) : ending (ps ++ [p]) = p.ending := by
  simp [ending]

theorem consecutive_concat {n : Nat} {ps : List (Piece β)} {p : Piece β} :
    Consecutive n (ps ++ [p]) ↔ Consecutive n ps ∧ p.offset = n + (joined ps).length := by
  induction ps generalizing n with
  | nil => simp [Consecutive]
  | cons q ps ih =>
    rw [List.cons_append, Consecutive, Consecutive, ih, and_assoc]
    refine and_congr_right fun hq => and_congr_right fun _ => ?_
    have hlen : (joined (q :: ps)).length = q.bytes.length + (joined ps).length := by
      simp [joined]
    rw [hlen, Piece.ending, hq, Nat.add_assoc]

/-- The pieces reach as far as there are bytes. -/
theorem ending_of_consecutive {ps : List (Piece β)} (h : Consecutive 0 ps) :
    ending ps = (joined ps).length := by
  induction ps using List.reverseRecOn with
  | nil => rfl
  | append_singleton ps p _ =>
    obtain ⟨-, hp⟩ := consecutive_concat.mp h
    rw [ending_concat, Piece.ending, hp, joined_concat, List.length_append, Nat.zero_add]

/-- What has the file's bytes from `n` on, and then the rest of the file, has all of it from there
    on. -/
theorem drop_append_rest {copy file : List β} {n : Nat}
    (h : copy.drop n <+: file.drop n) :
    (copy ++ file.drop copy.length).drop n = file.drop n := by
  rw [List.drop_append, List.drop_drop]
  rcases Nat.le_total n copy.length with hn | hn
  · have htake := List.prefix_iff_eq_take.mp h
    rw [List.length_drop] at htake
    have hrest : file.drop (copy.length + (n - copy.length)) =
        (file.drop n).drop (copy.length - n) := by
      rw [List.drop_drop]
      congr 1
      omega
    rw [hrest, htake, List.take_append_drop]
  · rw [List.drop_eq_nil_of_le hn, List.nil_append]
    congr 1
    omega

/-! ## Writing at an offset -/

/-- What is between the end of the file and the offset is filled. -/
def writeAt (fill : β) (file : List β) (offset : Nat) (bytes : List β) : List β :=
  file.take offset ++ List.replicate (offset - file.length) fill ++ bytes ++
    file.drop (offset + bytes.length)

theorem writeAt_end (fill : β) (file bytes : List β) :
    writeAt fill file file.length bytes = file ++ bytes := by
  unfold writeAt
  rw [List.take_length, Nat.sub_self, List.drop_eq_nil_of_le (Nat.le_add_right _ _)]
  simp

theorem writeAt_start (fill : β) (file bytes : List β) :
    writeAt fill file 0 bytes = bytes ++ file.drop bytes.length := by
  unfold writeAt
  rw [List.take_zero, Nat.zero_sub, Nat.zero_add]
  rfl

section Start

variable {file bytes : List β}

theorem length_writeAt_start (fill : β) (h : bytes.length ≤ file.length) :
    (writeAt fill file 0 bytes).length = file.length := by
  rw [writeAt_start, List.length_append, List.length_drop]
  omega

/-- What is behind the bytes written stays. -/
theorem drop_writeAt_start (fill : β) {n : Nat} (h : bytes.length ≤ n) :
    (writeAt fill file 0 bytes).drop n = file.drop n := by
  rw [writeAt_start, List.drop_append, List.drop_eq_nil_of_le h, List.nil_append, List.drop_drop]
  congr 1
  omega

/-- A copy with a beginning of its own becomes the file with the file's beginning. -/
theorem writeAt_take (fill : β) {copy : List β} {n : Nat} (hlen : copy.length = file.length)
    (hdrop : copy.drop n = file.drop n) : writeAt fill copy 0 (file.take n) = file := by
  rw [writeAt_start, List.length_take]
  rcases Nat.le_total n file.length with hn | hn
  · rw [Nat.min_eq_left hn, hdrop, List.take_append_drop]
  · rw [Nat.min_eq_right hn, List.take_of_length_le hn, List.drop_eq_nil_of_le (by omega),
      List.append_nil]

end Start

end LuodaRemote.Lib
