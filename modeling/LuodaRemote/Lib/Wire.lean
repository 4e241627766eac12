/-
  Numbers and text in fixed places of a message.

  `putLe w n` is the number `n` in `w` bytes, lowest first, and `getLe` reads such bytes back;
  what does not fit is cut off. `encodeUtf16` and `decodeUtf16` are UTF-16, as lists of units: a
  character beyond the first plane is a pair of surrogates, and a surrogate that is not part of a
  pair is an error. `decode_utf16Bytes` is the round trip through bytes.

  A `Format` is a type of messages with their bytes. `putField` and `getField` are fields of
  protocol buffers that hold bytes: a tag, the length as a varint, and the bytes.
-/
import Mathlib.Tactic

namespace LuodaRemote.Lib

/-! ## Little-endian numbers -/

def putLe : Nat → Nat → List UInt8
  | 0, _ => []
  | w + 1, n => UInt8.ofNat n :: putLe w (n / 256)

def getLe : List UInt8 → Nat
  | [] => 0
  | b :: rest => b.toNat + 256 * getLe rest

@[simp] theorem length_putLe (w n : Nat) : (putLe w n).length = w := by
  induction w generalizing n with
  | zero => rfl
  | succ w ih => rw [putLe, List.length_cons, ih]

theorem getLe_putLe (w n : Nat) : getLe (putLe w n) = n % 256 ^ w := by
  induction w generalizing n with
  | zero => simp [putLe, getLe, Nat.mod_one]
  | succ w ih =>
    rw [putLe, getLe, ih, Nat.pow_succ, Nat.mul_comm (256 ^ w), Nat.mod_mul]
    simp

theorem getLe_lt (bs : List UInt8) : getLe bs < 256 ^ bs.length := by
  induction bs with
  | nil => decide
  | cons b bs ih =>
    have hb := b.toNat_lt
    rw [getLe, List.length_cons, Nat.pow_succ]
    omega

theorem putLe_getLe (bs : List UInt8) : putLe bs.length (getLe bs) = bs := by
  induction bs with
  | nil => rfl
  | cons b bs ih =>
    have hb := b.toNat_lt
    have hhead : UInt8.ofNat (b.toNat + 256 * getLe bs) = b := by
      apply UInt8.toNat_inj.mp
      rw [UInt8.toNat_ofNat']
      omega
    have htail : (b.toNat + 256 * getLe bs) / 256 = getLe bs := by omega
    rw [List.length_cons, getLe, putLe, hhead, htail, ih]

@[simp] theorem take_putLe (w n : Nat) (rest : List UInt8) :
    (putLe w n ++ rest).take w = putLe w n := by
  rw [List.take_append_of_le_length (by rw [length_putLe]), List.take_of_length_le]
  rw [length_putLe]

@[simp] theorem drop_putLe (w n : Nat) (rest : List UInt8) :
    (putLe w n ++ rest).drop w = rest := by
  rw [List.drop_append_of_le_length (by rw [length_putLe]), List.drop_of_length_le]
  · rfl
  · rw [length_putLe]

theorem drop_replicate_append {α : Type*} (k : Nat) (a : α) (rest : List α) :
    (List.replicate k a ++ rest).drop k = rest := by
  rw [List.drop_append_of_le_length (by rw [List.length_replicate]), List.drop_of_length_le]
  · rfl
  · rw [List.length_replicate]

/-! ## UTF-16 -/

/-- The units of a character. -/
def encodeChar (c : Char) : List Nat :=
  if c.toNat < 0x10000 then [c.toNat]
  else [0xD800 + (c.toNat - 0x10000) / 0x400, 0xDC00 + (c.toNat - 0x10000) % 0x400]

def encodeUtf16 (s : List Char) : List Nat := s.flatMap encodeChar

/-- Puts a decoded character before the rest, if that could be decoded. -/
def prepend (n : Nat) (rest : Option (List Char)) : Option (List Char) :=
  rest.map (Char.ofNat n :: ·)

def decodeUtf16 : List Nat → Option (List Char)
  | [] => some []
  | [u] => if u < 0xD800 ∨ 0xDFFF < u then prepend u (some []) else none
  | u :: v :: rest =>
    if u < 0xD800 ∨ 0xDFFF < u then prepend u (decodeUtf16 (v :: rest))
    else if u ≤ 0xDBFF ∧ 0xDC00 ≤ v ∧ v ≤ 0xDFFF then
      prepend (0x10000 + (u - 0xD800) * 0x400 + (v - 0xDC00)) (decodeUtf16 rest)
    else none

/-- The units in a piece of text, two bytes each. -/
def units : List UInt8 → List Nat
  | low :: high :: rest => (low.toNat + 256 * high.toNat) :: units rest
  | _ => []

/-- `WString::as_bytes`. -/
def utf16Bytes (s : List Char) : List UInt8 := (encodeUtf16 s).flatMap (putLe 2)

theorem encodeUtf16_append (s t : List Char) :
    encodeUtf16 (s ++ t) = encodeUtf16 s ++ encodeUtf16 t := List.flatMap_append

theorem char_not_surrogate (c : Char) : c.toNat < 0xD800 ∨ 0xDFFF < c.toNat := by
  rcases c.valid with h | ⟨h, -⟩
  · exact .inl h
  · exact .inr h

theorem toNat_char_lt (c : Char) : c.toNat < 0x110000 := by
  rcases c.valid with h | ⟨-, h⟩
  · have : c.toNat < 0xD800 := h
    omega
  · exact h

theorem decodeUtf16_one {u : Nat} (h : u < 0xD800 ∨ 0xDFFF < u) (rest : List Nat) :
    decodeUtf16 (u :: rest) = prepend u (decodeUtf16 rest) := by
  cases rest with
  | nil =>
    show (if u < 0xD800 ∨ 0xDFFF < u then prepend u (some []) else none) = prepend u (some [])
    rw [if_pos h]
  | cons v rest => rw [decodeUtf16, if_pos h]

theorem decodeUtf16_pair {u v : Nat} (hlow : 0xD800 ≤ u) (hhigh : u ≤ 0xDBFF) (hv : 0xDC00 ≤ v)
    (hv' : v ≤ 0xDFFF) (rest : List Nat) :
    decodeUtf16 (u :: v :: rest) =
      prepend (0x10000 + (u - 0xD800) * 0x400 + (v - 0xDC00)) (decodeUtf16 rest) := by
  rw [decodeUtf16, if_neg (by omega), if_pos ⟨hhigh, hv, hv'⟩]

theorem decodeUtf16_encodeChar (c : Char) (rest : List Nat) :
    decodeUtf16 (encodeChar c ++ rest) = (decodeUtf16 rest).map (c :: ·) := by
  have hchar : Char.ofNat c.toNat = c := Char.ofNat_toNat c
  unfold encodeChar
  split
  · rw [List.singleton_append, decodeUtf16_one (char_not_surrogate c), prepend, hchar]
  · next hlarge =>
      have hlt := toNat_char_lt c
      set d := c.toNat - 0x10000 with hd
      have hdlt : d < 0x100000 := by omega
      have hdiv : d / 0x400 < 0x400 := by omega
      have hmod : d % 0x400 < 0x400 := Nat.mod_lt _ (by decide)
      rw [List.cons_append, List.singleton_append,
        decodeUtf16_pair (by omega) (by omega) (by omega) (by omega), prepend]
      have hback : 0x10000 + (0xD800 + d / 0x400 - 0xD800) * 0x400 +
          (0xDC00 + d % 0x400 - 0xDC00) = c.toNat := by omega
      rw [hback, hchar]

theorem decode_encodeUtf16 (s : List Char) : decodeUtf16 (encodeUtf16 s) = some s := by
  induction s with
  | nil => rfl
  | cons c s ih =>
    rw [encodeUtf16, List.flatMap_cons, decodeUtf16_encodeChar]
    rw [encodeUtf16] at ih
    rw [ih]
    rfl

theorem encodeUtf16_lt (s : List Char) : ∀ u ∈ encodeUtf16 s, u < 0x10000 := by
  intro u hu
  obtain ⟨c, -, hc⟩ := List.mem_flatMap.mp hu
  have hlt := toNat_char_lt c
  unfold encodeChar at hc
  split at hc
  · rw [List.mem_singleton.mp hc]
    assumption
  · have hmod : (c.toNat - 0x10000) % 0x400 < 0x400 := Nat.mod_lt _ (by decide)
    simp only [List.mem_cons, List.not_mem_nil, or_false] at hc
    omega

theorem units_putLe {u : Nat} (hu : u < 0x10000) (rest : List UInt8) :
    units (putLe 2 u ++ rest) = u :: units rest := by
  have hlow : (UInt8.ofNat u).toNat = u % 256 := UInt8.toNat_ofNat'
  have hhigh : (UInt8.ofNat (u / 256)).toNat = u / 256 % 256 := UInt8.toNat_ofNat'
  rw [putLe, putLe, putLe, List.cons_append, List.cons_append, List.nil_append, units, hlow, hhigh]
  congr 1
  omega

theorem units_flatMap {us : List Nat} (hus : ∀ u ∈ us, u < 0x10000) :
    units (us.flatMap (putLe 2)) = us := by
  induction us with
  | nil => rfl
  | cons u us ih =>
    rw [List.flatMap_cons, units_putLe (hus u List.mem_cons_self),
      ih fun v hv => hus v (List.mem_cons_of_mem u hv)]

theorem decode_utf16Bytes (s : List Char) : decodeUtf16 (units (utf16Bytes s)) = some s := by
  rw [utf16Bytes, units_flatMap (encodeUtf16_lt s), decode_encodeUtf16]

theorem utf16Bytes_append (s t : List Char) :
    utf16Bytes (s ++ t) = utf16Bytes s ++ utf16Bytes t := by
  rw [utf16Bytes, encodeUtf16_append, List.flatMap_append]
  rfl

theorem utf16Bytes_nuls (k : Nat) :
    utf16Bytes (List.replicate k '\x00') = List.replicate (2 * k) 0 := by
  induction k with
  | zero => rfl
  | succ k ih =>
    have hcons : List.replicate (k + 1) '\x00' = ['\x00'] ++ List.replicate k '\x00' := rfl
    rw [hcons, utf16Bytes_append, ih]
    rfl

theorem length_utf16Bytes (s : List Char) :
    (utf16Bytes s).length = 2 * (encodeUtf16 s).length := by
  unfold utf16Bytes
  induction encodeUtf16 s with
  | nil => rfl
  | cons u us ih =>
    rw [List.flatMap_cons, List.length_append, length_putLe, ih, List.length_cons]
    omega

/-! ## Formats -/

/-- How messages are written and read. What is written can be read back. -/
structure Format (α : Type*) where
  write : α → List UInt8
  parse : List UInt8 → Option α
  parse_write : ∀ a, parse (write a) = some a

/-! ## Fields of bytes -/

/-- Seven bits at a time, lowest first; the high bit says that more follow. -/
def putVarint (n : Nat) : List UInt8 :=
  if n < 128 then [UInt8.ofNat n] else UInt8.ofNat (n % 128 + 128) :: putVarint (n / 128)

def getVarint : List UInt8 → Option (Nat × List UInt8)
  | [] => none
  | b :: rest =>
    if b.toNat < 128 then some (b.toNat, rest)
    else (getVarint rest).map fun p => (b.toNat - 128 + 128 * p.1, p.2)

theorem getVarint_putVarint (n : Nat) (rest : List UInt8) :
    getVarint (putVarint n ++ rest) = some (n, rest) := by
  induction n using Nat.strong_induction_on with
  | _ n ih =>
    rw [putVarint]
    split
    · rename_i hlt
      have hn : (UInt8.ofNat n).toNat = n := by rw [UInt8.toNat_ofNat']; omega
      rw [List.singleton_append, getVarint, hn, if_pos hlt]
    · rename_i hge
      have hn : (UInt8.ofNat (n % 128 + 128)).toNat = n % 128 + 128 := by
        rw [UInt8.toNat_ofNat']
        omega
      rw [List.cons_append, getVarint, hn, if_neg (by omega), ih (n / 128) (by omega)]
      simp only [Option.map_some, Option.some.injEq, Prod.mk.injEq, and_true]
      omega

/-- A field with its tag. -/
def putBytes (tag : UInt8) (bytes : List UInt8) : List UInt8 :=
  tag :: putVarint bytes.length ++ bytes

/-- A field, left out where it is empty. -/
def putField (tag : UInt8) (bytes : List UInt8) : List UInt8 :=
  if bytes = [] then [] else putBytes tag bytes

/-- The field with this tag, if it comes next, and what follows. -/
def getField (tag : UInt8) : List UInt8 → Option (List UInt8 × List UInt8)
  | [] => some ([], [])
  | t :: src =>
    if t = tag then
      (getVarint src).bind fun p =>
        if p.1 ≤ p.2.length then some (p.2.splitAt p.1) else none
    else some ([], t :: src)

theorem getField_putBytes (tag : UInt8) (bytes rest : List UInt8) :
    getField tag (putBytes tag bytes ++ rest) = some (bytes, rest) := by
  rw [putBytes, List.cons_append, List.cons_append, getField, if_pos rfl, List.append_assoc,
    getVarint_putVarint]
  simp

theorem getField_putBytes_nil (tag : UInt8) (bytes : List UInt8) :
    getField tag (putBytes tag bytes) = some (bytes, []) := by
  have hfield := getField_putBytes tag bytes []
  rwa [List.append_nil] at hfield

theorem head_putBytes (tag : UInt8) (bytes : List UInt8) :
    (putBytes tag bytes).head? = some tag := rfl

theorem getField_putField {tag : UInt8} (bytes : List UInt8) {rest : List UInt8}
    (hrest : rest.head? ≠ some tag) :
    getField tag (putField tag bytes ++ rest) = some (bytes, rest) := by
  rw [putField]
  split
  · rename_i hnil
    subst hnil
    cases rest with
    | nil => rfl
    | cons t rest =>
      have ht : t ≠ tag := fun ht => hrest (congrArg some ht)
      rw [List.nil_append, getField, if_neg ht]
  · exact getField_putBytes tag bytes rest

/-- A message of two fields, the first and the second. -/
def putPair (a b : List UInt8) : List UInt8 := putField 0x0A a ++ putField 0x12 b

def getPair (src : List UInt8) : Option (List UInt8 × List UInt8) :=
  (getField 0x0A src).bind fun p =>
    (getField 0x12 p.2).bind fun q => if q.2 = [] then some (p.1, q.1) else none

theorem getPair_putPair (a b : List UInt8) : getPair (putPair a b) = some (a, b) := by
  have hhead : (putField 0x12 b).head? ≠ some 0x0A := by
    rw [putField]
    split
    · decide
    · rw [head_putBytes]
      decide
  have hlast : getField 0x12 (putField 0x12 b) = some (b, []) := by
    have hfield := @getField_putField 0x12 b [] (by decide)
    rwa [List.append_nil] at hfield
  rw [getPair, putPair, getField_putField a hhead, Option.bind_some, hlast]
  rfl

end LuodaRemote.Lib
