/-
  Text and its bytes in UTF-8: what is appended, which bytes occur, and reading bytes back, also
  bytes that may be no text at all.
-/
import Mathlib.Tactic

namespace LuodaRemote.Lib

theorem get_byteArray (b : ByteArray) {i : Nat} (hi : i < b.data.toList.length) :
    b.get! i = b.data.toList.get ⟨i, hi⟩ := by
  obtain ⟨⟨bytes⟩⟩ := b
  show (Array.mk bytes)[i]! = bytes[i]
  exact getElem!_pos (Array.mk bytes) i hi

/-- `ByteArray.toList` collects from the front. -/
theorem toList_loop (b : ByteArray) (i : Nat) (r : List UInt8) :
    ByteArray.toList.loop b i r = r.reverse ++ b.data.toList.drop i := by
  fun_induction ByteArray.toList.loop b i r with
  | case1 i r hlt ih =>
    calc ByteArray.toList.loop b (i + 1) (b.get! i :: r)
      _ = r.reverse ++ ([b.get! i] ++ b.data.toList.drop (i + 1)) := by
          rw [ih, List.reverse_cons, List.append_assoc]
      _ = r.reverse ++ b.data.toList.drop i := by
          rw [get_byteArray b hlt]
          exact congrArg (r.reverse ++ ·) (List.drop_eq_getElem_cons hlt).symm
  | case2 i r hge =>
    have hover : b.data.toList.length ≤ i := Nat.le_of_not_lt hge
    rw [List.drop_of_length_le hover, List.append_nil]

theorem toList_byteArray (b : ByteArray) : b.toList = b.data.toList := by
  unfold ByteArray.toList
  rw [toList_loop]
  rfl

theorem utf8_append (s t : String) :
    (s ++ t).toUTF8.toList = s.toUTF8.toList ++ t.toUTF8.toList := by
  simp only [toList_byteArray, String.toUTF8_eq_toByteArray, String.toByteArray_append,
    ByteArray.toList_data_append]

/-- The bytes of a text are those of its characters. -/
theorem utf8_eq_flatMap (s : String) :
    s.toUTF8.toList = s.toList.flatMap String.utf8EncodeChar := by
  rw [toList_byteArray, String.toUTF8_eq_toByteArray, ← String.utf8Encode_toList]
  unfold List.utf8Encode
  rw [List.toList_data_toByteArray]

/-- A character of one byte shows among the bytes. -/
theorem mem_utf8 {c : Char} {b : UInt8} (hc : String.utf8EncodeChar c = [b]) {s : String}
    (hmem : c ∈ s.toList) : b ∈ s.toUTF8.toList := by
  rw [utf8_eq_flatMap]
  exact List.mem_flatMap.mpr ⟨c, hmem, by rw [hc]; exact List.mem_singleton_self b⟩

theorem lt_of_mem_utf8EncodeChar {c : Char} {b : UInt8} (hb : b ∈ String.utf8EncodeChar c) :
    b.toNat < 255 := by
  unfold String.utf8EncodeChar at hb
  dsimp only at hb
  split_ifs at hb
  all_goals
    simp only [List.mem_cons, List.not_mem_nil, or_false] at hb
  · rw [hb, UInt8.toNat_ofNat']
    omega
  · rcases hb with rfl | rfl <;> rw [UInt8.toNat_ofNat'] <;> omega
  · rcases hb with rfl | rfl | rfl <;> rw [UInt8.toNat_ofNat'] <;> omega
  · rcases hb with rfl | rfl | rfl | rfl <;> rw [UInt8.toNat_ofNat'] <;> omega

/-- Two bytes never occur in a text. -/
theorem lt_of_mem_utf8 {s : String} {b : UInt8} (hb : b ∈ s.toUTF8.toList) : b.toNat < 255 := by
  rw [utf8_eq_flatMap] at hb
  obtain ⟨c, -, hc⟩ := List.mem_flatMap.mp hb
  exact lt_of_mem_utf8EncodeChar hc

/-- Bytes that are read as text are the bytes of that text. -/
theorem utf8_of_fromUTF8 {bytes : List UInt8} {s : String}
    (hs : String.fromUTF8? ⟨bytes.toArray⟩ = some s) : s.toUTF8.toList = bytes := by
  unfold String.fromUTF8? at hs
  split at hs
  · cases hs
    rw [toList_byteArray]
    rfl
  · cases hs

theorem fromUTF8_utf8 (s : String) : String.fromUTF8? ⟨s.toUTF8.toList.toArray⟩ = some s := by
  have hb : (⟨s.toUTF8.toList.toArray⟩ : ByteArray) = s.toByteArray := by
    rw [toList_byteArray]
    rfl
  unfold String.fromUTF8?
  rw [hb, dif_pos s.isValidUTF8]
  rfl

/-- Different texts have different bytes. -/
theorem utf8_injective : Function.Injective fun s : String => s.toUTF8.toList := by
  intro s t h
  have hs := fromUTF8_utf8 s
  dsimp only at h
  rw [h] at hs
  exact Option.some.inj (hs.symm.trans (fromUTF8_utf8 t))

/-! ## Reading any bytes as text -/

/-- The character that the bytes begin with, if they do. -/
def decodeFirst (bytes : List UInt8) : Option Char := bytes.toByteArray.utf8DecodeChar? 0

def isContinuation (b : UInt8) : Bool := 0x80 ≤ b.toNat && b.toNat ≤ 0xBF

/-- The two bytes begin the encoding of a character that has more than two. -/
def beginsLong (b₁ b₂ : UInt8) : Bool :=
  isContinuation b₂ &&
    (b₁.toNat = 0xE0 && 0xA0 ≤ b₂.toNat || 0xE1 ≤ b₁.toNat && b₁.toNat ≤ 0xEC ||
      b₁.toNat = 0xED && b₂.toNat ≤ 0x9F || 0xEE ≤ b₁.toNat && b₁.toNat ≤ 0xEF ||
      b₁.toNat = 0xF0 && 0x90 ≤ b₂.toNat || 0xF1 ≤ b₁.toNat && b₁.toNat ≤ 0xF3 ||
      b₁.toNat = 0xF4 && b₂.toNat ≤ 0x8F)

/-- How many bytes, of some that begin with no character, are replaced together: as many as could
    begin one. -/
def badRun : List UInt8 → Nat
  | b₁ :: b₂ :: rest =>
    if beginsLong b₁ b₂ then
      match rest with
      | b₃ :: _ => if 0xF0 ≤ b₁.toNat && isContinuation b₃ then 3 else 2
      | [] => 2
    else 1
  | _ => 1

def lossyChars : Nat → List UInt8 → List Char
  | 0, _ => []
  | _, [] => []
  | n + 1, bytes =>
    match decodeFirst bytes with
    | some c => c :: lossyChars n (bytes.drop c.utf8Size)
    | none => Char.ofNat 0xFFFD :: lossyChars n (bytes.drop (badRun bytes))

/-- `String::from_utf8_lossy`. -/
def fromUtf8Lossy (bytes : List UInt8) : String := String.ofList (lossyChars bytes.length bytes)

theorem decodeFirst_append (c : Char) (rest : List UInt8) :
    decodeFirst (String.utf8EncodeChar c ++ rest) = some c := by
  unfold decodeFirst
  rw [List.toByteArray_append]
  exact ByteArray.utf8DecodeChar?_utf8EncodeChar_append

theorem lossyChars_flatMap (s : List Char) {n : Nat}
    (hn : (s.flatMap String.utf8EncodeChar).length ≤ n) :
    lossyChars n (s.flatMap String.utf8EncodeChar) = s := by
  induction s generalizing n with
  | nil =>
    cases n with
    | zero => rfl
    | succ n => rfl
  | cons c s ih =>
    rw [List.flatMap_cons] at hn ⊢
    rw [List.length_append, String.length_utf8EncodeChar] at hn
    have hsize := c.utf8Size_pos
    obtain ⟨n, rfl⟩ : ∃ m, n = m + 1 := ⟨n - 1, by omega⟩
    obtain ⟨b, bs, hbytes⟩ : ∃ b bs, String.utf8EncodeChar c = b :: bs := by
      refine List.exists_cons_of_length_pos ?_
      rw [String.length_utf8EncodeChar]
      exact hsize
    have hdrop : (String.utf8EncodeChar c ++ s.flatMap String.utf8EncodeChar).drop c.utf8Size =
        s.flatMap String.utf8EncodeChar := by
      rw [← String.length_utf8EncodeChar c, List.drop_left]
    have hfirst := decodeFirst_append c (s.flatMap String.utf8EncodeChar)
    rw [hbytes, List.cons_append] at hfirst hdrop ⊢
    unfold lossyChars
    rw [hfirst]
    dsimp only
    rw [hdrop, ih (by omega)]

theorem length_lossyChars (n : Nat) (bytes : List UInt8) : (lossyChars n bytes).length ≤ n := by
  induction n generalizing bytes with
  | zero => exact Nat.zero_le _
  | succ n ih =>
    match bytes with
    | [] => exact Nat.zero_le _
    | b :: bytes =>
      rw [lossyChars]
      · split
        · exact Nat.succ_le_succ (ih _)
        · exact Nat.succ_le_succ (ih _)
      · exact List.cons_ne_nil b bytes

/-- Nothing is lost of what is UTF-8. -/
theorem fromUtf8Lossy_utf8 (s : String) : fromUtf8Lossy s.toUTF8.toList = s := by
  unfold fromUtf8Lossy
  rw [utf8_eq_flatMap, lossyChars_flatMap _ (Nat.le_refl _), String.ofList_toList]

/-- What does not begin with the first byte of an ASCII text is not read as it. -/
theorem head_fromUtf8Lossy {c : Char} {b : UInt8} (hc : String.utf8EncodeChar c = [b])
    (rest : List UInt8) : (fromUtf8Lossy (b :: rest)).toList.head? = some c := by
  have hfirst : decodeFirst (b :: rest) = some c := by
    rw [← List.singleton_append, ← hc]
    exact decodeFirst_append c rest
  unfold fromUtf8Lossy
  rw [String.toList_ofList, List.length_cons]
  unfold lossyChars
  rw [hfirst]
  rfl

end LuodaRemote.Lib
