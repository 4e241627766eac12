/-
  Signatures and boxes with public keys: what a program may rely on.

  A signed message carries the message, so what is read out of one is what was signed, whatever
  key it is checked with (`read_sign`); whether it may be read is up to the key. A box is closed
  by one secret key for the holder of another, and both of them can open it.
-/
import Mathlib.Tactic

namespace LuodaRemote.Lib

/-- Keys of 32 bytes. -/
abbrev Key32 : Type := { k : List UInt8 // k.length = 32 }

/-- The key that some bytes are. -/
def Key32.ofBytes (bytes : List UInt8) : Option Key32 :=
  if h : bytes.length = 32 then some ⟨bytes, h⟩ else none

@[simp] theorem Key32.ofBytes_val (k : Key32) : Key32.ofBytes k.val = some k := by
  rw [Key32.ofBytes, dif_pos k.property]

theorem Key32.val_of_ofBytes {bytes : List UInt8} {k : Key32} (hk : Key32.ofBytes bytes = some k) :
    k.val = bytes := by
  rw [Key32.ofBytes] at hk
  split at hk
  · cases hk
    rfl
  · cases hk

structure Signature where
  publicKey : (sk : List UInt8) → Key32
  sign : (message sk : List UInt8) → List UInt8
  /-- The message, if the signature is right. -/
  verify : (signed : List UInt8) → (pk : Key32) → Option (List UInt8)
  verify_sign : ∀ message sk, verify (sign message sk) (publicKey sk) = some message
  read_sign : ∀ message sk pk res, verify (sign message sk) pk = some res → res = message

structure PublicBox where
  publicKey : (sk : List UInt8) → Key32
  sealBox : (message nonce : List UInt8) → (pk : Key32) → (sk : List UInt8) → List UInt8
  openBox : (boxed nonce : List UInt8) → (pk : Key32) → (sk : List UInt8) → Option (List UInt8)
  openBox_sealBox : ∀ message nonce sk sk',
    openBox (sealBox message nonce (publicKey sk') sk) nonce (publicKey sk) sk' = some message

end LuodaRemote.Lib
