/-
  Hash functions, idealised: no two inputs have the same digest, and no digest is empty.

  `ofTable` completes a finite table of digests to such a function, so that a theorem that
  assumes one can be used where the inputs that are hashed are known: on the table it is the
  function the table was made with, and elsewhere its digests are longer than those.

  `lowerHex` is how a digest is written as text, which loses nothing of it.
-/
import Mathlib.Tactic

namespace LuodaRemote.Lib

structure CollisionFree (digest : List UInt8 → List UInt8) : Prop where
  injective : Function.Injective digest
  nonempty : ∀ input, digest input ≠ []

namespace Digest

variable {table : List (List UInt8 × List UInt8)}

def ofTable (table : List (List UInt8 × List UInt8)) (input : List UInt8) : List UInt8 :=
  (table.lookup input).getD (List.replicate 33 0 ++ input)

theorem mem_of_lookup {input digest : List UInt8} (h : table.lookup input = some digest) :
    (input, digest) ∈ table := by
  induction table with
  | nil => simp at h
  | cons entry table ih =>
    rw [List.lookup_cons] at h
    cases hin : input == entry.1 with
    | true =>
      rw [hin] at h
      have hd : entry.2 = digest := by simpa using h
      exact List.mem_cons.mpr (.inl (Prod.ext (eq_of_beq hin) hd.symm))
    | false =>
      rw [hin] at h
      exact List.mem_cons_of_mem _ (ih h)

/-- What `ofTable` gives is an entry of the table or longer than 32 bytes. -/
theorem ofTable_cases (table : List (List UInt8 × List UInt8)) (input : List UInt8) :
    (input, ofTable table input) ∈ table ∨
      ofTable table input = List.replicate 33 0 ++ input := by
  unfold ofTable
  cases h : table.lookup input with
  | some digest => exact .inl (mem_of_lookup h)
  | none => exact .inr rfl

theorem collisionFree_ofTable (hnodup : (table.map Prod.snd).Nodup)
    (hlen : ∀ entry ∈ table, entry.2 ≠ [] ∧ entry.2.length ≤ 32) :
    CollisionFree (ofTable table) where
  injective := by
    intro a b hab
    rcases ofTable_cases table a with ha | ha
    · rcases ofTable_cases table b with hb | hb
      · exact congrArg Prod.fst (List.inj_on_of_nodup_map hnodup ha hb hab)
      · have hle := (hlen _ ha).2
        rw [hab, hb, List.length_append, List.length_replicate] at hle
        omega
    · rcases ofTable_cases table b with hb | hb
      · have hle := (hlen _ hb).2
        rw [← hab, ha, List.length_append, List.length_replicate] at hle
        omega
      · rw [ha, hb] at hab
        exact List.append_cancel_left hab
  nonempty := by
    intro input h
    rcases ofTable_cases table input with hin | hin
    · exact (hlen _ hin).1 h
    · rw [hin] at h
      simp at h

end Digest

/-! ## Digests as text -/

/-- `format!("{:x}")` of bytes. -/
def lowerHex (bytes : List UInt8) : String :=
  String.ofList (bytes.flatMap fun b => [(b.toNat / 16).digitChar, (b.toNat % 16).digitChar])

theorem digitChar_injective {m n : Nat} (hm : m < 16) (hn : n < 16)
    (heq : m.digitChar = n.digitChar) : m = n := by
  have hall : ∀ i j : Fin 16, i.val.digitChar = j.val.digitChar → i = j := by decide
  exact congrArg Fin.val (hall ⟨m, hm⟩ ⟨n, hn⟩ heq)

theorem lowerHex_injective : Function.Injective lowerHex := by
  intro as bs heq
  replace heq := String.ofList_injective heq
  induction as generalizing bs with
  | nil =>
    cases bs with
    | nil => rfl
    | cons b bs => cases heq
  | cons a as ih =>
    cases bs with
    | nil => cases heq
    | cons b bs =>
      simp only [List.flatMap_cons, List.cons_append, List.nil_append, List.cons.injEq] at heq
      obtain ⟨hhigh, hlow, hrest⟩ := heq
      have ha := UInt8.toNat_lt a
      have hb := UInt8.toNat_lt b
      have hhigh := digitChar_injective (by omega) (by omega) hhigh
      have hlow := digitChar_injective (by omega) (by omega) hlow
      rw [ih hrest, UInt8.toNat_inj.mp (show a.toNat = b.toNat by omega)]

theorem mem_lowerHex {bytes : List UInt8} {c : Char} (hc : c ∈ (lowerHex bytes).toList) :
    ∃ n < 16, c = n.digitChar := by
  unfold lowerHex at hc
  rw [String.toList_ofList] at hc
  obtain ⟨b, _, hc⟩ := List.mem_flatMap.mp hc
  have hb := UInt8.toNat_lt b
  simp only [List.mem_cons, List.not_mem_nil, or_false] at hc
  rcases hc with rfl | rfl
  · exact ⟨_, by omega, rfl⟩
  · exact ⟨_, by omega, rfl⟩

end LuodaRemote.Lib
