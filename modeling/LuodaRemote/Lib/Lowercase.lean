/-
  Lower case, as Unicode has it (version 15), and white space.

  Most letters have one lower case, and `lowerRanges` has them; `İ` has two characters for its own.
  A `Σ` at the end of a word is another letter than elsewhere; where words end is left open. Of the
  other letters only `K` (the unit) and `İ` become one of ASCII: `lowerChar_ascii`. So a sequence
  without `k` and `i` stands in a lower-cased text where it stands in the text, in any case, but
  the bytes before it may be more or fewer: `find_lower`.
-/
import LuodaRemote.Lib.Slice
import Mathlib.Data.List.DropRight
import Mathlib.Tactic

namespace LuodaRemote.Lib

/-- The letters from the first to the last, so many apart, and how far their lower case is. -/
def lowerRanges : List (Nat × Nat × Nat × Int) :=
  [(0xc0, 0xd6, 1, 32), (0xd8, 0xde, 1, 32), (0x100, 0x12e, 2, 1), (0x132, 0x136, 2, 1),
  (0x139, 0x147, 2, 1), (0x14a, 0x176, 2, 1), (0x178, 0x178, 1, -121), (0x179, 0x17d, 2, 1),
  (0x181, 0x181, 1, 210), (0x182, 0x184, 2, 1), (0x186, 0x186, 1, 206), (0x187, 0x187, 1, 1),
  (0x189, 0x18a, 1, 205), (0x18b, 0x18b, 1, 1), (0x18e, 0x18e, 1, 79), (0x18f, 0x18f, 1, 202),
  (0x190, 0x190, 1, 203), (0x191, 0x191, 1, 1), (0x193, 0x193, 1, 205), (0x194, 0x194, 1, 207),
  (0x196, 0x196, 1, 211), (0x197, 0x197, 1, 209), (0x198, 0x198, 1, 1), (0x19c, 0x19c, 1, 211),
  (0x19d, 0x19d, 1, 213), (0x19f, 0x19f, 1, 214), (0x1a0, 0x1a4, 2, 1), (0x1a6, 0x1a6, 1, 218),
  (0x1a7, 0x1a7, 1, 1), (0x1a9, 0x1a9, 1, 218), (0x1ac, 0x1ac, 1, 1), (0x1ae, 0x1ae, 1, 218),
  (0x1af, 0x1af, 1, 1), (0x1b1, 0x1b2, 1, 217), (0x1b3, 0x1b5, 2, 1), (0x1b7, 0x1b7, 1, 219),
  (0x1b8, 0x1b8, 1, 1), (0x1bc, 0x1bc, 1, 1), (0x1c4, 0x1c4, 1, 2), (0x1c5, 0x1c5, 1, 1),
  (0x1c7, 0x1c7, 1, 2), (0x1c8, 0x1c8, 1, 1), (0x1ca, 0x1ca, 1, 2), (0x1cb, 0x1db, 2, 1),
  (0x1de, 0x1ee, 2, 1), (0x1f1, 0x1f1, 1, 2), (0x1f2, 0x1f4, 2, 1), (0x1f6, 0x1f6, 1, -97),
  (0x1f7, 0x1f7, 1, -56), (0x1f8, 0x21e, 2, 1), (0x220, 0x220, 1, -130), (0x222, 0x232, 2, 1),
  (0x23a, 0x23a, 1, 10795), (0x23b, 0x23b, 1, 1), (0x23d, 0x23d, 1, -163),
  (0x23e, 0x23e, 1, 10792), (0x241, 0x241, 1, 1), (0x243, 0x243, 1, -195), (0x244, 0x244, 1, 69),
  (0x245, 0x245, 1, 71), (0x246, 0x24e, 2, 1), (0x370, 0x372, 2, 1), (0x376, 0x376, 1, 1),
  (0x37f, 0x37f, 1, 116), (0x386, 0x386, 1, 38), (0x388, 0x38a, 1, 37), (0x38c, 0x38c, 1, 64),
  (0x38e, 0x38f, 1, 63), (0x391, 0x3a1, 1, 32), (0x3a3, 0x3ab, 1, 32), (0x3cf, 0x3cf, 1, 8),
  (0x3d8, 0x3ee, 2, 1), (0x3f4, 0x3f4, 1, -60), (0x3f7, 0x3f7, 1, 1), (0x3f9, 0x3f9, 1, -7),
  (0x3fa, 0x3fa, 1, 1), (0x3fd, 0x3ff, 1, -130), (0x400, 0x40f, 1, 80), (0x410, 0x42f, 1, 32),
  (0x460, 0x480, 2, 1), (0x48a, 0x4be, 2, 1), (0x4c0, 0x4c0, 1, 15), (0x4c1, 0x4cd, 2, 1),
  (0x4d0, 0x52e, 2, 1), (0x531, 0x556, 1, 48), (0x10a0, 0x10c5, 1, 7264),
  (0x10c7, 0x10c7, 1, 7264), (0x10cd, 0x10cd, 1, 7264), (0x13a0, 0x13ef, 1, 38864),
  (0x13f0, 0x13f5, 1, 8), (0x1c90, 0x1cba, 1, -3008), (0x1cbd, 0x1cbf, 1, -3008),
  (0x1e00, 0x1e94, 2, 1), (0x1e9e, 0x1e9e, 1, -7615), (0x1ea0, 0x1efe, 2, 1),
  (0x1f08, 0x1f0f, 1, -8), (0x1f18, 0x1f1d, 1, -8), (0x1f28, 0x1f2f, 1, -8),
  (0x1f38, 0x1f3f, 1, -8), (0x1f48, 0x1f4d, 1, -8), (0x1f59, 0x1f5f, 2, -8),
  (0x1f68, 0x1f6f, 1, -8), (0x1f88, 0x1f8f, 1, -8), (0x1f98, 0x1f9f, 1, -8),
  (0x1fa8, 0x1faf, 1, -8), (0x1fb8, 0x1fb9, 1, -8), (0x1fba, 0x1fbb, 1, -74),
  (0x1fbc, 0x1fbc, 1, -9), (0x1fc8, 0x1fcb, 1, -86), (0x1fcc, 0x1fcc, 1, -9),
  (0x1fd8, 0x1fd9, 1, -8), (0x1fda, 0x1fdb, 1, -100), (0x1fe8, 0x1fe9, 1, -8),
  (0x1fea, 0x1feb, 1, -112), (0x1fec, 0x1fec, 1, -7), (0x1ff8, 0x1ff9, 1, -128),
  (0x1ffa, 0x1ffb, 1, -126), (0x1ffc, 0x1ffc, 1, -9), (0x2126, 0x2126, 1, -7517),
  (0x212a, 0x212a, 1, -8383), (0x212b, 0x212b, 1, -8262), (0x2132, 0x2132, 1, 28),
  (0x2160, 0x216f, 1, 16), (0x2183, 0x2183, 1, 1), (0x24b6, 0x24cf, 1, 26),
  (0x2c00, 0x2c2f, 1, 48), (0x2c60, 0x2c60, 1, 1), (0x2c62, 0x2c62, 1, -10743),
  (0x2c63, 0x2c63, 1, -3814), (0x2c64, 0x2c64, 1, -10727), (0x2c67, 0x2c6b, 2, 1),
  (0x2c6d, 0x2c6d, 1, -10780), (0x2c6e, 0x2c6e, 1, -10749), (0x2c6f, 0x2c6f, 1, -10783),
  (0x2c70, 0x2c70, 1, -10782), (0x2c72, 0x2c72, 1, 1), (0x2c75, 0x2c75, 1, 1),
  (0x2c7e, 0x2c7f, 1, -10815), (0x2c80, 0x2ce2, 2, 1), (0x2ceb, 0x2ced, 2, 1),
  (0x2cf2, 0x2cf2, 1, 1), (0xa640, 0xa66c, 2, 1), (0xa680, 0xa69a, 2, 1), (0xa722, 0xa72e, 2, 1),
  (0xa732, 0xa76e, 2, 1), (0xa779, 0xa77b, 2, 1), (0xa77d, 0xa77d, 1, -35332),
  (0xa77e, 0xa786, 2, 1), (0xa78b, 0xa78b, 1, 1), (0xa78d, 0xa78d, 1, -42280),
  (0xa790, 0xa792, 2, 1), (0xa796, 0xa7a8, 2, 1), (0xa7aa, 0xa7aa, 1, -42308),
  (0xa7ab, 0xa7ab, 1, -42319), (0xa7ac, 0xa7ac, 1, -42315), (0xa7ad, 0xa7ad, 1, -42305),
  (0xa7ae, 0xa7ae, 1, -42308), (0xa7b0, 0xa7b0, 1, -42258), (0xa7b1, 0xa7b1, 1, -42282),
  (0xa7b2, 0xa7b2, 1, -42261), (0xa7b3, 0xa7b3, 1, 928), (0xa7b4, 0xa7c2, 2, 1),
  (0xa7c4, 0xa7c4, 1, -48), (0xa7c5, 0xa7c5, 1, -42307), (0xa7c6, 0xa7c6, 1, -35384),
  (0xa7c7, 0xa7c9, 2, 1), (0xa7d0, 0xa7d0, 1, 1), (0xa7d6, 0xa7d8, 2, 1), (0xa7f5, 0xa7f5, 1, 1),
  (0xff21, 0xff3a, 1, 32), (0x10400, 0x10427, 1, 40), (0x104b0, 0x104d3, 1, 40),
  (0x10570, 0x1057a, 1, 39), (0x1057c, 0x1058a, 1, 39), (0x1058c, 0x10592, 1, 39),
  (0x10594, 0x10595, 1, 39), (0x10c80, 0x10cb2, 1, 64), (0x118a0, 0x118bf, 1, 32),
  (0x16e40, 0x16e5f, 1, 32), (0x1e900, 0x1e921, 1, 34)]

def lowerRange (n : Nat) : Option (Nat × Nat × Nat × Int) :=
  lowerRanges.find? fun (first, last, step, _) => first ≤ n && n ≤ last && (n - first) % step == 0

def lowerChar (c : Char) : List Char :=
  if c.toNat < 128 then [c.toLower]
  else if c.toNat = 0x130 then ['i', Char.ofNat 0x307]
  else
    match lowerRange c.toNat with
    | some (_, _, _, distance) => [Char.ofNat (c.toNat + distance).toNat]
    | none => [c]

/-- The lower case of a character where it stands; `final` says which `Σ` ends a word. -/
def lowerAt (final : List Char → List Char → Bool) (before : List Char) (c : Char)
    (after : List Char) : List Char :=
  if c = 'Σ' ∧ final before after = true then ['ς'] else lowerChar c

/-- The lower case of a text behind another one (backwards). -/
def lowerFrom (final : List Char → List Char → Bool) : List Char → List Char → List Char
  | _, [] => []
  | before, c :: cs => lowerAt final before c cs ++ lowerFrom final (c :: before) cs

def toLowercase (final : List Char → List Char → Bool) (cs : List Char) : List Char :=
  lowerFrom final [] cs

/-- White space, as Unicode has it. -/
def isWhite (c : Char) : Bool :=
  let n := c.toNat
  9 ≤ n && n ≤ 13 || n == 32 || n == 0x85 || n == 0xa0 || n == 0x1680 ||
    0x2000 ≤ n && n ≤ 0x200a || n == 0x2028 || n == 0x2029 || n == 0x202f || n == 0x205f ||
    n == 0x3000

/-- `str::trim`. -/
def trim (cs : List Char) : List Char := (cs.dropWhile isWhite).rdropWhile isWhite

/-! ## One letter of ASCII -/

theorem toNat_toLower (c : Char) :
    c.toLower.toNat = if 65 ≤ c.toNat ∧ c.toNat ≤ 90 then c.toNat + 32 else c.toNat := by
  have hval : c.val.toNat = c.toNat := rfl
  have hupper : (c.val ≥ 'A'.val ∧ c.val ≤ 'Z'.val) ↔ 65 ≤ c.toNat ∧ c.toNat ≤ 90 := by
    rw [ge_iff_le, UInt32.le_iff_toNat_le, UInt32.le_iff_toNat_le, hval]
    exact Iff.rfl
  unfold Char.toLower
  by_cases h : c.val ≥ 'A'.val ∧ c.val ≤ 'Z'.val
  · rw [dif_pos h, if_pos (hupper.mp h)]
    have hrange := hupper.mp h
    show (c.val + ('a'.val - 'A'.val)).toNat = c.toNat + 32
    rw [UInt32.toNat_add, hval]
    show (c.toNat + 32) % 2 ^ 32 = c.toNat + 32
    omega
  · rw [dif_neg h, if_neg (fun hr => h (hupper.mpr hr))]

/-- What is no letter is the lower case of itself only. -/
theorem toLower_eq_iff {c x : Char} (hupper : x.toNat < 65 ∨ 90 < x.toNat)
    (hlower : x.toNat < 97 ∨ 122 < x.toNat) : c.toLower = x ↔ c = x := by
  rw [← Char.toNat_inj, ← Char.toNat_inj, toNat_toLower]
  split <;> omega

theorem isDigit_toLower (c : Char) : c.toLower.isDigit = c.isDigit := by
  have h0 : '0'.toNat = 48 := rfl
  have h9 : '9'.toNat = 57 := rfl
  rw [Bool.eq_iff_iff, Char.isDigit_iff_toNat, Char.isDigit_iff_toNat, toNat_toLower]
  split <;> omega

theorem toLower_of_isDigit {c : Char} (hc : c.isDigit = true) : c.toLower = c := by
  have h9 : '9'.toNat = 57 := rfl
  have hhi := (Char.isDigit_iff_toNat.mp hc).2
  rw [← Char.toNat_inj, toNat_toLower, if_neg (by omega)]

theorem toLower_toLower (c : Char) : c.toLower.toLower = c.toLower := by
  rw [← Char.toNat_inj, toNat_toLower c.toLower, if_neg]
  rw [toNat_toLower]
  split <;> omega

theorem all_isDigit_map {x : List Char} :
    (x.map Char.toLower).all Char.isDigit = x.all Char.isDigit := by
  rw [List.all_map]
  exact List.all_congr rfl isDigit_toLower

theorem map_toLower_of_digits {x : List Char} (hx : x.all Char.isDigit = true) :
    x.map Char.toLower = x := by
  rw [List.map_congr_left fun c hc => toLower_of_isDigit (List.all_eq_true.mp hx c hc),
    List.map_id']

/-! ## ASCII -/

theorem lowerChar_of_ascii {c : Char} (hc : c.toNat < 128) : lowerChar c = [c.toLower] := if_pos hc

/-- The unit of temperature is the only letter of a range with a lower case in ASCII. -/
theorem lowerRanges_above : ∀ r ∈ lowerRanges, r = (0x212a, 0x212a, 1, -8383) ∨
    128 ≤ r.1 + r.2.2.2 ∧ (r.2.1 + r.2.2.2 < 0xd800 ∨
      0xe000 ≤ r.1 + r.2.2.2 ∧ r.2.1 + r.2.2.2 < 0x110000) := by decide +kernel

theorem toNat_ofNat {n : Nat} (h : n.isValidChar) : (Char.ofNat n).toNat = n := by
  rw [Char.ofNat, dif_pos h]
  rfl

theorem lowerRange_some {n : Nat} {r : Nat × Nat × Nat × Int} (h : lowerRange n = some r) :
    r ∈ lowerRanges ∧ r.1 ≤ n ∧ n ≤ r.2.1 := by
  refine ⟨List.mem_of_find?_eq_some h, ?_⟩
  have hcovers := List.find?_some h
  simp only [Bool.and_eq_true, decide_eq_true_eq] at hcovers
  exact hcovers.1

theorem lowerChar_ascii {c d : Char} (hd : d ∈ lowerChar c) (hascii : d.toNat < 128) :
    c.toNat < 128 ∨ d = 'k' ∨ d = 'i' := by
  unfold lowerChar at hd
  split at hd
  · next hc => exact .inl hc
  · split at hd
    · rcases List.mem_cons.mp hd with rfl | hd
      · exact .inr (.inr rfl)
      · rw [List.mem_singleton.mp hd] at hascii
        exact absurd hascii (by decide)
    · split at hd
      · next first last step distance hrange =>
          obtain ⟨hmem, hfirst, hlast⟩ := lowerRange_some hrange
          rw [List.mem_singleton.mp hd] at hascii ⊢
          rcases lowerRanges_above _ hmem with heq | ⟨hlow, hvalid⟩
          · cases heq
            have hc : c.toNat = 0x212a := Nat.le_antisymm hlast hfirst
            rw [hc]
            exact .inr (.inl (by decide))
          · dsimp only at hfirst hlast hlow hvalid
            have hchar : ((c.toNat + distance).toNat).isValidChar := by
              unfold Nat.isValidChar
              omega
            rw [toNat_ofNat hchar] at hascii
            omega
      · next hc _ _ _ =>
          rw [List.mem_singleton.mp hd] at hascii
          exact absurd hascii hc

theorem lowerAt_of_ascii {final : List Char → List Char → Bool} {before after : List Char}
    {c : Char} (hc : c.toNat < 128) : lowerAt final before c after = [c.toLower] := by
  have hsigma : c ≠ 'Σ' := by
    rintro rfl
    exact absurd hc (by decide)
  unfold lowerAt
  rw [if_neg (fun h => hsigma h.1), lowerChar_of_ascii hc]

theorem lowerFrom_of_ascii {final : List Char → List Char → Bool} {before cs : List Char}
    (hcs : ∀ c ∈ cs, c.toNat < 128) : lowerFrom final before cs = cs.map Char.toLower := by
  induction cs generalizing before with
  | nil => rfl
  | cons c cs ih =>
    obtain ⟨hc, hcs⟩ := List.forall_mem_cons.mp hcs
    rw [lowerFrom, lowerAt_of_ascii hc, ih hcs]
    rfl

theorem lowerFrom_append_of_ascii {final : List Char → List Char → Bool}
    {before cs rest : List Char} (hcs : ∀ c ∈ cs, c.toNat < 128) :
    lowerFrom final before (cs ++ rest) =
      cs.map Char.toLower ++ lowerFrom final (cs.reverse ++ before) rest := by
  induction cs generalizing before with
  | nil => rfl
  | cons c cs ih =>
    obtain ⟨hc, hcs⟩ := List.forall_mem_cons.mp hcs
    rw [List.cons_append, lowerFrom, lowerAt_of_ascii hc, ih hcs, List.reverse_cons,
      List.append_assoc]
    rfl

theorem toLowercase_of_ascii {final : List Char → List Char → Bool} {cs : List Char}
    (hcs : ∀ c ∈ cs, c.toNat < 128) : toLowercase final cs = cs.map Char.toLower :=
  lowerFrom_of_ascii hcs

theorem ascii_of_toLower {c : Char} (h : c.toLower.toNat < 128) : c.toNat < 128 := by
  rw [toNat_toLower] at h
  split at h <;> omega

/-! ## Where a sequence stands -/

/-- Nothing but a letter of ASCII becomes this one. -/
def Plain (x : Char) : Prop := x.toNat < 128 ∧ x ≠ 'k' ∧ x ≠ 'i'

instance (x : Char) : Decidable (Plain x) := inferInstanceAs (Decidable (_ ∧ _ ∧ _))

/-- The bytes of the lower case of a text. -/
def lowerLen : List Char → Nat
  | [] => 0
  | c :: cs => byteLen (lowerChar c) + lowerLen cs

/-- The text before a sequence, in any case. -/
def beforeAnyCase (pat : List Char) : List Char → Option (List Char) :=
  beforeFirst fun rest => pat <+: rest.map Char.toLower

section Plain

variable {final : List Char → List Char → Bool} {before after cs pat : List Char} {c x : Char}

theorem lowerChar_ne_nil : lowerChar c ≠ [] := by
  unfold lowerChar
  split
  · exact List.cons_ne_nil _ _
  · split
    · exact List.cons_ne_nil _ _
    · split <;> exact List.cons_ne_nil _ _

theorem lowerAt_ne_nil : lowerAt final before c after ≠ [] := by
  unfold lowerAt
  split
  · exact List.cons_ne_nil _ _
  · exact lowerChar_ne_nil

/-- Both small sigmas have as many bytes. -/
theorem byteLen_lowerAt : byteLen (lowerAt final before c after) = byteLen (lowerChar c) := by
  unfold lowerAt
  split
  · next h =>
      rw [h.1]
      decide +kernel
  · rfl

theorem ascii_of_mem_lowerAt (hx : Plain x) (h : x ∈ lowerAt final before c after) :
    c.toNat < 128 := by
  unfold lowerAt at h
  split at h
  · rw [List.mem_singleton.mp h] at hx
    exact absurd hx (by decide)
  · rcases lowerChar_ascii h hx.1 with hc | hk | hi
    · exact hc
    · exact absurd hk hx.2.1
    · exact absurd hi hx.2.2

theorem prefix_lower (hpat : ∀ x ∈ pat, Plain x) :
    pat <+: lowerFrom final before cs ↔ pat <+: cs.map Char.toLower := by
  induction pat generalizing before cs with
  | nil => simp
  | cons x pat ih =>
    obtain ⟨hx, hpat⟩ := List.forall_mem_cons.mp hpat
    cases cs with
    | nil => exact Iff.rfl
    | cons c cs =>
      rw [lowerFrom, List.map_cons, List.cons_prefix_cons]
      by_cases hc : c.toNat < 128
      · rw [lowerAt_of_ascii hc, List.singleton_append, List.cons_prefix_cons, ih hpat]
      · refine iff_of_false (fun hpre => hc ?_) fun h => hc (ascii_of_toLower (h.1 ▸ hx.1))
        have hne : lowerAt final before c cs ≠ [] := lowerAt_ne_nil
        obtain ⟨d, ds, heq⟩ := List.exists_cons_of_ne_nil hne
        rw [heq, List.cons_append, List.cons_prefix_cons] at hpre
        have hmem : x ∈ lowerAt final before c cs := by
          rw [heq, hpre.1]
          exact List.mem_cons_self
        exact ascii_of_mem_lowerAt hx hmem

/-- It is found behind the lower case of what is before it. -/
theorem find_lower (hpat : ∀ x ∈ pat, Plain x) :
    find pat (lowerFrom final before cs) = (beforeAnyCase pat cs).map lowerLen := by
  unfold find Lib.before beforeAnyCase
  induction cs generalizing before with
  | nil =>
    rw [lowerFrom, beforeFirst, beforeFirst, List.map_nil]
    split <;> rfl
  | cons c cs ih =>
    have hhere : pat <+: lowerFrom final before (c :: cs) ↔
        pat <+: (c :: cs).map Char.toLower := prefix_lower hpat
    by_cases hpre : pat <+: (c :: cs).map Char.toLower
    · rw [beforeFirst_of_pos (decide_eq_true (hhere.mpr hpre)),
        beforeFirst_of_pos (decide_eq_true hpre)]
      rfl
    · have hskip : ∀ a b, lowerAt final before c cs = a ++ b → b ≠ [] →
          decide (pat <+: b ++ lowerFrom final (c :: before) cs) = false := by
        intro a b heq hne
        refine decide_eq_false fun hstart => hpre (hhere.mp ?_)
        cases pat with
        | nil => exact List.nil_prefix
        | cons x pat =>
          obtain ⟨d, b, rfl⟩ := List.exists_cons_of_ne_nil hne
          rw [List.cons_append, List.cons_prefix_cons] at hstart
          have hmem : x ∈ lowerAt final before c cs := by
            rw [heq, hstart.1]
            exact List.mem_append_right _ List.mem_cons_self
          -- So all of it stands there.
          have hone : lowerAt final before c cs = [c.toLower] :=
            lowerAt_of_ascii (ascii_of_mem_lowerAt (hpat x List.mem_cons_self) hmem)
          have hall : d :: b = lowerAt final before c cs := by
            refine (heq ▸ List.suffix_append a (d :: b)).eq_of_length_le ?_
            rw [hone, List.length_cons]
            exact Nat.le_add_left _ _
          rw [lowerFrom, ← hall, List.cons_append, List.cons_prefix_cons]
          exact hstart
      rw [lowerFrom, beforeFirst_append hskip, beforeFirst, if_neg (by simpa using hpre),
        Option.map_map, Option.map_map]
      have hleft : byteLen ∘ (lowerAt final before c cs ++ ·) =
          (byteLen (lowerChar c) + ·) ∘ byteLen := by
        funext b
        rw [Function.comp_apply, byteLen_append, byteLen_lowerAt]
        rfl
      have hright : lowerLen ∘ (c :: ·) = (byteLen (lowerChar c) + ·) ∘ lowerLen := rfl
      rw [hleft, hright, ← Option.map_map, ← Option.map_map, ih]

theorem lowerFrom_of_plain (h : ∀ x ∈ lowerFrom final before cs, Plain x) :
    lowerFrom final before cs = cs.map Char.toLower := by
  refine lowerFrom_of_ascii ?_
  induction cs generalizing before with
  | nil => exact nofun
  | cons c cs ih =>
    rw [lowerFrom, List.forall_mem_append] at h
    have hne : lowerAt final before c cs ≠ [] := lowerAt_ne_nil
    obtain ⟨d, hd⟩ := List.exists_mem_of_ne_nil _ hne
    exact List.forall_mem_cons.mpr ⟨ascii_of_mem_lowerAt (h.1 d hd) hd, ih h.2⟩

theorem suffix_lower (hpat : ∀ x ∈ pat, Plain x) :
    pat <:+ lowerFrom final before cs ↔ pat <:+ cs.map Char.toLower := by
  induction cs generalizing before with
  | nil => exact Iff.rfl
  | cons c cs ih =>
    constructor
    · intro hsuf
      have hlater : pat <:+ lowerFrom final (c :: before) cs ↔ pat <:+ cs.map Char.toLower := ih
      rw [List.map_cons, List.suffix_cons_iff, ← hlater]
      rcases List.suffix_or_suffix_of_suffix hsuf
        (List.suffix_append (lowerAt final before c cs) _) with hrest | ⟨l, heq⟩
      · exact .inr hrest
      · cases l with
        | nil => exact .inr (heq ▸ List.suffix_refl _)
        | cons d l =>
          -- It begins with the lower case of `c`.
          rw [lowerFrom, ← heq, List.suffix_append_self_iff] at hsuf
          have hd : d ∈ lowerAt final before c cs := hsuf.subset List.mem_cons_self
          have hplain : Plain d := hpat d (heq ▸ List.mem_append_left _ List.mem_cons_self)
          have hone : lowerAt final before c cs = [c.toLower] :=
            lowerAt_of_ascii (ascii_of_mem_lowerAt hplain hd)
          have hall : d :: l = lowerAt final before c cs := by
            refine hsuf.eq_of_length_le ?_
            rw [hone, List.length_cons]
            exact Nat.le_add_left _ _
          have hpat' : pat = lowerFrom final before (c :: cs) := by
            rw [lowerFrom, ← hall, heq]
          exact .inl (hpat'.trans (lowerFrom_of_plain (hpat' ▸ hpat)))
    · intro hsuf
      rw [List.map_cons, List.suffix_cons_iff] at hsuf
      rcases hsuf with heq | hrest
      · have hascii : ∀ d ∈ c :: cs, d.toNat < 128 := by
          intro d hd
          have hmem : d.toLower ∈ pat := heq ▸ List.mem_map_of_mem (f := Char.toLower) hd
          exact ascii_of_toLower (hpat _ hmem).1
        rw [lowerFrom_of_ascii hascii, heq]
        exact List.suffix_refl _
      · rw [lowerFrom]
        exact (ih.mpr hrest).trans (List.suffix_append _ _)

end Plain

/-! ## Trimmed text -/

theorem rdropWhile_white {cs : List Char} (hlast : ∀ c ∈ cs.getLast?, isWhite c = false) :
    cs.rdropWhile isWhite = cs := by
  rw [List.rdropWhile_eq_self_iff]
  intro hne
  rw [hlast _ (List.getLast?_eq_some_getLast hne)]
  exact Bool.false_ne_true

theorem dropWhile_white {cs : List Char} (hhead : ∀ c ∈ cs.head?, isWhite c = false) :
    cs.dropWhile isWhite = cs := by
  cases cs with
  | nil => rfl
  | cons c cs => rw [List.dropWhile_cons_of_neg (by rw [hhead c rfl]; exact Bool.false_ne_true)]

/-- A text without white space at its ends. -/
theorem trim_eq {cs : List Char} (hhead : ∀ c ∈ cs.head?, isWhite c = false)
    (hlast : ∀ c ∈ cs.getLast?, isWhite c = false) : trim cs = cs := by
  unfold trim
  rw [dropWhile_white hhead, rdropWhile_white hlast]

/-- Nothing is taken off behind a character that is no white space. -/
theorem trim_append {a b : List Char} {x : Char} (hx : isWhite x = false)
    (hlast : ∀ c ∈ (x :: b).getLast?, isWhite c = false) :
    trim (a ++ x :: b) = a.dropWhile isWhite ++ x :: b := by
  have hdrop : (a ++ x :: b).dropWhile isWhite = a.dropWhile isWhite ++ x :: b := by
    induction a with
    | nil =>
      rw [List.dropWhile_nil, List.nil_append,
        List.dropWhile_cons_of_neg (by rw [hx]; exact Bool.false_ne_true)]
    | cons c a ih =>
      rw [List.cons_append, List.dropWhile_cons, List.dropWhile_cons, ih]
      split <;> rfl
  unfold trim
  rw [hdrop, rdropWhile_white]
  rw [List.getLast?_append_of_ne_nil _ (List.cons_ne_nil _ _)]
  exact hlast

theorem trim_within (cs : List Char) : trim cs <:+: cs :=
  (List.rdropWhile_prefix _ _).isInfix.trans (List.dropWhile_suffix _).isInfix

theorem mem_trim {cs : List Char} {c : Char} (h : c ∈ cs) (hc : isWhite c = false) :
    c ∈ trim cs := by
  obtain ⟨a, b, rfl⟩ := List.append_of_mem h
  have hdrop : c ∈ (a ++ c :: b).dropWhile isWhite := by
    rw [List.dropWhile_append]
    split
    · rw [List.dropWhile_cons_of_neg (by rw [hc]; exact Bool.false_ne_true)]
      exact List.mem_cons_self
    · exact List.mem_append_right _ List.mem_cons_self
  obtain ⟨a, b, heq⟩ := List.append_of_mem hdrop
  unfold trim
  rw [heq, List.rdropWhile, List.mem_reverse, List.reverse_append, List.reverse_cons,
    List.append_assoc, List.dropWhile_append]
  split
  · rw [List.singleton_append, List.dropWhile_cons_of_neg (by rw [hc]; exact Bool.false_ne_true)]
    exact List.mem_cons_self
  · exact List.mem_append_right _ List.mem_cons_self

end LuodaRemote.Lib
