/-
  Authenticated encryption with a secret key: what a program may rely on (`SecretBox`), and
  XSalsa20-Poly1305, which has it (`xsalsa20Poly1305`).

  A sealed message is a tag of sixteen bytes and the message, added to a key stream that
  depends on the key and the nonce. The first 32 bytes of the stream are the key of the tag.
-/
import Mathlib.Tactic

namespace LuodaRemote.Lib

structure SecretBox where
  sealBox : (message nonce key : List UInt8) → List UInt8
  /-- The message, if the tag is right. -/
  openBox : (boxed nonce key : List UInt8) → Option (List UInt8)
  openBox_sealBox : ∀ message nonce key,
    openBox (sealBox message nonce key) nonce key = some message
  length_sealBox : ∀ message nonce key, (sealBox message nonce key).length = message.length + 16

namespace SecretBox

/-! ## Salsa20 -/

/-- The `i`-th little-endian word. -/
def word (bs : List UInt8) (i : Nat) : UInt32 :=
  (bs.getD (4 * i) 0).toUInt32 ||| (bs.getD (4 * i + 1) 0).toUInt32 <<< 8 |||
    (bs.getD (4 * i + 2) 0).toUInt32 <<< 16 ||| (bs.getD (4 * i + 3) 0).toUInt32 <<< 24

def wordBytes (w : UInt32) : List UInt8 :=
  [w.toUInt8, (w >>> 8).toUInt8, (w >>> 16).toUInt8, (w >>> 24).toUInt8]

def rotl (w : UInt32) (n : UInt32) : UInt32 := w <<< n ||| w >>> (32 - n)

/-- `x[dst] ^= (x[a] + x[b]) <<< n`. -/
def mix (x : List UInt32) (dst a b : Nat) (n : UInt32) : List UInt32 :=
  x.set dst (x.getD dst 0 ^^^ rotl (x.getD a 0 + x.getD b 0) n)

def quarterRound (x : List UInt32) (p : Nat × Nat × Nat × Nat) : List UInt32 :=
  let (a, b, c, d) := p
  let x := mix x b a d 7
  let x := mix x c b a 9
  let x := mix x d c b 13
  mix x a d c 18

/-- The columns, then the rows. -/
def doubleRound (x : List UInt32) : List UInt32 :=
  [(0, 4, 8, 12), (5, 9, 13, 1), (10, 14, 2, 6), (15, 3, 7, 11),
    (0, 1, 2, 3), (5, 6, 7, 4), (10, 11, 8, 9), (15, 12, 13, 14)].foldl quarterRound x

def rounds (x : List UInt32) : List UInt32 := Nat.iterate doubleRound 10 x

/-- The constants, the key and sixteen bytes of input. -/
def initial (key input : List UInt8) : List UInt32 :=
  [0x61707865, word key 0, word key 1, word key 2, word key 3, 0x3320646e,
    word input 0, word input 1, word input 2, word input 3, 0x79622d32,
    word key 4, word key 5, word key 6, word key 7, 0x6b206574]

def salsa20 (key input : List UInt8) : List UInt8 :=
  let x := initial key input
  (List.zipWith (· + ·) (rounds x) x).flatMap wordBytes

def hsalsa20 (key input : List UInt8) : List UInt8 :=
  let x := rounds (initial key input)
  [0, 5, 10, 15, 6, 7, 8, 9].flatMap fun i => wordBytes (x.getD i 0)

/-- The `i`-th byte of the XSalsa20 stream. -/
def streamByte (nonce key : List UInt8) (i : Nat) : UInt8 :=
  let counter := UInt32.ofNat (i / 64)
  let input := (nonce.drop 16).take 8 ++ wordBytes counter ++ wordBytes 0
  (salsa20 (hsalsa20 key nonce) input).getD (i % 64) 0

/-- The first 64 bytes of the stream. -/
def firstBlock (nonce key : List UInt8) : List UInt8 :=
  salsa20 (hsalsa20 key nonce) ((nonce.drop 16).take 8 ++ wordBytes 0 ++ wordBytes 0)

theorem streamByte_first (nonce key : List UInt8) {i : Nat} (hi : i < 64) :
    streamByte nonce key i = (firstBlock nonce key).getD i 0 := by
  rw [streamByte, Nat.div_eq_of_lt hi, Nat.mod_eq_of_lt hi]
  rfl

/-! ## Poly1305 -/

def littleEndian (bs : List UInt8) : Nat := Nat.ofDigits 256 (bs.map UInt8.toNat)

/-- The polynomial of a message at `r`, in blocks of sixteen bytes with a one behind each. -/
def polynomial (r : Nat) (blocks : List (List UInt8)) : Nat :=
  blocks.foldl (fun acc block => (acc + littleEndian (block ++ [1])) * r % (2 ^ 130 - 5)) 0

def poly1305 (key message : List UInt8) : List UInt8 :=
  let r := littleEndian (key.take 16) &&& 0x0ffffffc0ffffffc0ffffffc0fffffff
  let tag := polynomial r (message.toChunks 16) + littleEndian ((key.drop 16).take 16)
  (List.range 16).map fun i => UInt8.ofNat (tag / 256 ^ i)

/-! ## The box -/

/-- The message and the stream, from its 32nd byte on. -/
def cipher (message nonce key : List UInt8) : List UInt8 :=
  message.mapIdx fun i b => b ^^^ streamByte nonce key (i + 32)

def tag (body nonce key : List UInt8) : List UInt8 :=
  poly1305 ((List.range 32).map (streamByte nonce key)) body

theorem length_tag (body nonce key : List UInt8) : (tag body nonce key).length = 16 := by
  simp [tag, poly1305]

theorem tag_first (body nonce key : List UInt8) : tag body nonce key =
    poly1305 ((List.range 32).map fun i => (firstBlock nonce key).getD i 0) body := by
  rw [tag, List.map_congr_left fun i hi => streamByte_first nonce key ?_]
  have := List.mem_range.mp hi
  omega

theorem cipher_singleton (b : UInt8) (nonce key : List UInt8) :
    cipher [b] nonce key = [b ^^^ (firstBlock nonce key).getD 32 0] := by
  rw [← streamByte_first nonce key (by decide)]
  rfl

theorem cipher_cipher (message nonce key : List UInt8) :
    cipher (cipher message nonce key) nonce key = message := by
  unfold cipher
  rw [List.mapIdx_mapIdx]
  refine List.ext_getElem (by simp) fun i h₁ h₂ => ?_
  simp only [List.getElem_mapIdx, Function.comp_apply]
  rw [UInt8.xor_assoc, UInt8.xor_self, UInt8.xor_zero]

/-- `crypto_secretbox_xsalsa20poly1305`. -/
def xsalsa20Poly1305 : SecretBox where
  sealBox message nonce key :=
    let body := cipher message nonce key
    tag body nonce key ++ body
  openBox boxed nonce key :=
    let body := boxed.drop 16
    if 16 ≤ boxed.length ∧ boxed.take 16 = tag body nonce key then some (cipher body nonce key)
    else none
  openBox_sealBox message nonce key := by
    have hlen := length_tag (cipher message nonce key) nonce key
    simp only
    rw [← hlen, List.drop_left, List.take_left, if_pos ⟨by simp, rfl⟩, cipher_cipher]
  length_sealBox message nonce key := by
    simp only [List.length_append, length_tag, cipher, List.length_mapIdx]
    omega

/-- A box of another tag does not open. -/
theorem openBox_of_tag_ne {t body nonce key : List UInt8} (hlen : t.length = 16)
    (hne : t ≠ tag body nonce key) : xsalsa20Poly1305.openBox (t ++ body) nonce key = none := by
  refine if_neg fun hok => hne ?_
  rw [← hlen, List.take_left, List.drop_left] at hok
  exact hok.2

end SecretBox

end LuodaRemote.Lib
