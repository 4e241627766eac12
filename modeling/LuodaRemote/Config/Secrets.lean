/-
  Secrets in the configuration (`libs/hbb_common/src/password_security.rs`).

  A secret is stored as `00` and its box in base64, sealed with a key that the machine has. What is
  stored already and what is still plain are told apart by their looks: the prefix, base64 behind
  it, and enough bytes for a tag. What looks sealed is not sealed again.

  A box that does not open with the key of the machine is tried with the public key of the key pair
  as well, except on a phone. `secrets_survive` says what comes back: everything but a secret that
  is itself such a box.
-/
import LuodaRemote.Message
import LuodaRemote.Lib.Base64
import LuodaRemote.Lib.SecretBox
import LuodaRemote.Lib.Utf8

namespace LuodaRemote
open Lib

/-! ## The functions -/

/-- The machine, with `base64` and `secretbox` of `sodiumoxide`. -/
structure CryptHost where
  box : SecretBox
  /-- `Variant::Original`. -/
  base64Encode : Bytes → String
  base64Decode : Bytes → Option Bytes
  base64Decode_encode : ∀ data, base64Decode (asBytes (base64Encode data)) = some data
  base64Encode_ne : ∀ data, data ≠ [] → base64Encode data ≠ ""
  /-- `get_uuid`. -/
  uuid : Bytes
  /-- The public key of `Config::get_existing_key_pair`. -/
  existingKeyPair : Option Bytes
  /-- Android or iOS. -/
  mobile : Bool

namespace CryptHost

def versionLen : Nat := 2

/-- `MACBYTES` of `secretbox`. -/
def macBytes : Nat := 16

/-- A nonce of 24 zeros. -/
def zeroNonce : Bytes := List.replicate 24 0

/-- `keybuf.resize(KEYBYTES, 0)`. -/
def keyOf (keybuf : Bytes) : Bytes := (keybuf ++ List.replicate 32 0).take 32

/-- `v.starts_with("00")`, of a text or of bytes. -/
def startsWith00 (v : Bytes) : Bool := v.take 2 == [48, 48]

variable (h : CryptHost)

def symmetricCrypt (data : Bytes) (encrypt : Bool) : Option Bytes :=
  if encrypt then some (h.box.sealBox data zeroNonce (keyOf h.uuid))
  else match h.box.openBox data zeroNonce (keyOf h.uuid) with
    | some v => some v
    | none =>
      if h.mobile then none
      else match h.existingKeyPair with
        | some pk => if pk ≠ h.uuid then h.box.openBox data zeroNonce (keyOf pk) else none
        | none => none

def isEncrypted (v : Bytes) : Bool :=
  if v.length ≤ versionLen || !startsWith00 v then false
  else match h.base64Decode (v.drop versionLen) with
    | some decoded => decide (macBytes ≤ decoded.length)
    | none => false

def encrypt (v : Bytes) : Option String :=
  if v.isEmpty then none else (h.symmetricCrypt v true).map h.base64Encode

def decrypt (v : Bytes) : Option Bytes :=
  if v.isEmpty then none else (h.base64Decode v).bind fun v => h.symmetricCrypt v false

def encryptStrOrOriginal (s version : String) (maxLen : Nat) : String :=
  if h.isEncrypted (asBytes s) then s
  else if maxLen < s.length then ""
  else if version = "00" then
    match h.encrypt (asBytes s) with
    | some e => version ++ e
    | none => s
  else s

/-- The secret, whether it was decrypted, and whether it should be stored again. -/
def decryptStrOrOriginal (s currentVersion : String) : String × Bool × Bool :=
  let original := (s, false, !s.isEmpty && !h.isEncrypted (asBytes s))
  if versionLen < (asBytes s).length && startsWith00 (asBytes s) then
    match h.decrypt ((asBytes s).drop versionLen) with
    | some v => (fromUtf8Lossy v, true, "00" != currentVersion)
    | none => original
  else original

def encryptVecOrOriginal (v : Bytes) (version : String) (maxLen : Nat) : Bytes :=
  if h.isEncrypted v then v
  else if maxLen < v.length then []
  else if version = "00" then
    match h.encrypt v with
    | some e => asBytes version ++ asBytes e
    | none => v
  else v

def decryptVecOrOriginal (v : Bytes) (currentVersion : String) : Bytes × Bool × Bool :=
  let original := (v, false, !v.isEmpty && !h.isEncrypted v)
  if versionLen < v.length then
    let version := fromUtf8Lossy (v.take versionLen)
    if version = "00" then
      match h.decrypt (v.drop versionLen) with
      | some v => (v, true, version != currentVersion)
      | none => original
    else original
  else original

/-! ## Boxes -/

/-- The keys that a box is tried with. -/
def keys : List Bytes := h.uuid :: if h.mobile then [] else h.existingKeyPair.toList

/-- `00` and the base64 of a box that opens with the key. -/
def Opens (v key : Bytes) : Prop :=
  startsWith00 v = true ∧ ∃ boxed, h.base64Decode (v.drop versionLen) = some boxed ∧
    (h.box.openBox boxed zeroNonce (keyOf key)).isSome

variable {h} {v : Bytes}

theorem symmetricCrypt_none {boxed : Bytes}
    (hno : ∀ key ∈ h.keys, h.box.openBox boxed zeroNonce (keyOf key) = none) :
    h.symmetricCrypt boxed false = none := by
  unfold symmetricCrypt
  rw [if_neg (by simp), hno h.uuid (List.mem_cons_self ..)]
  dsimp only
  by_cases hmobile : h.mobile = true
  · rw [if_pos hmobile]
  · rw [if_neg hmobile]
    cases hpk : h.existingKeyPair with
    | none => rfl
    | some pk =>
      dsimp only
      split
      · exact hno pk (by simp [keys, hmobile, hpk])
      · rfl

/-- What opens with no key is not decrypted. -/
theorem decrypt_none (hno : ∀ key ∈ h.keys, ¬ h.Opens v key) (h00 : startsWith00 v = true) :
    h.decrypt (v.drop versionLen) = none := by
  unfold decrypt
  split
  · rfl
  · cases hbox : h.base64Decode (v.drop versionLen) with
    | none => rfl
    | some boxed =>
      refine symmetricCrypt_none fun key hkey => ?_
      by_contra hopen
      exact hno key hkey ⟨h00, boxed, hbox, Option.isSome_iff_ne_none.mpr hopen⟩

/-- The text that stands for a box. -/
def stored (h : CryptHost) (boxed : Bytes) : String := "00" ++ h.base64Encode boxed

/-- The text that is stored for a secret. -/
def sealed (h : CryptHost) (v : Bytes) : String :=
  h.stored (h.box.sealBox v zeroNonce (keyOf h.uuid))

theorem encrypt_eq (hne : v ≠ []) :
    h.encrypt v = some (h.base64Encode (h.box.sealBox v zeroNonce (keyOf h.uuid))) := by
  rw [encrypt, if_neg (by simpa using hne), symmetricCrypt, if_pos rfl]
  rfl

theorem asBytes_version : asBytes "00" = [48, 48] := by
  rw [asBytes, utf8_eq_flatMap]
  decide

theorem asBytes_empty : asBytes "" = [] := by
  rw [asBytes, utf8_eq_flatMap]
  decide

theorem asBytes_ne {s : String} (hne : s ≠ "") : asBytes s ≠ [] := by
  intro hnil
  exact hne (by rw [← fromUtf8Lossy_utf8 s, show s.toUTF8.toList = [] from hnil]; rfl)

section Stored

variable {boxed : Bytes}

theorem asBytes_stored (h : CryptHost) (boxed : Bytes) :
    asBytes (h.stored boxed) = [48, 48] ++ asBytes (h.base64Encode boxed) := by
  rw [stored, asBytes, utf8_append, ← asBytes_version]
  rfl

theorem drop_stored (h : CryptHost) (boxed : Bytes) :
    (asBytes (h.stored boxed)).drop versionLen = asBytes (h.base64Encode boxed) := by
  rw [asBytes_stored]
  rfl

theorem startsWith00_stored (h : CryptHost) (boxed : Bytes) :
    startsWith00 (asBytes (h.stored boxed)) = true := by
  rw [asBytes_stored]
  rfl

theorem length_stored (hne : boxed ≠ []) : versionLen < (asBytes (h.stored boxed)).length := by
  have hpos := List.length_pos_iff.mpr (asBytes_ne (h.base64Encode_ne boxed hne))
  rw [asBytes_stored, List.length_append]
  exact Nat.lt_add_of_pos_right hpos

theorem ne_nil_of_mac (hlen : macBytes ≤ boxed.length) : boxed ≠ [] := by
  rintro rfl
  exact absurd hlen (by decide)

/-- What is stored looks sealed. -/
theorem isEncrypted_stored (hlen : macBytes ≤ boxed.length) :
    h.isEncrypted (asBytes (h.stored boxed)) = true := by
  have hlong := length_stored (h := h) (ne_nil_of_mac hlen)
  rw [isEncrypted, if_neg (by simp [startsWith00_stored, hlong]), drop_stored,
    h.base64Decode_encode]
  exact decide_eq_true hlen

theorem decrypt_stored (hlen : macBytes ≤ boxed.length) :
    h.decrypt ((asBytes (h.stored boxed)).drop versionLen) = h.symmetricCrypt boxed false := by
  have hne := asBytes_ne (h.base64Encode_ne boxed (ne_nil_of_mac hlen))
  rw [drop_stored, decrypt, if_neg (by simpa using hne), h.base64Decode_encode]
  rfl

/-- Text that stands for a box is read as what the box opens to. -/
theorem decryptStr_stored (hlen : macBytes ≤ boxed.length) {s : String}
    (hopen : h.symmetricCrypt boxed false = some (asBytes s)) :
    h.decryptStrOrOriginal (h.stored boxed) "00" = (s, true, false) := by
  have hlong := length_stored (h := h) (ne_nil_of_mac hlen)
  unfold decryptStrOrOriginal
  rw [if_pos (by simp [hlong, startsWith00_stored]), decrypt_stored hlen, hopen]
  dsimp only
  rw [asBytes, fromUtf8Lossy_utf8]
  rfl

end Stored

theorem macBytes_le (h : CryptHost) (v : Bytes) :
    macBytes ≤ (h.box.sealBox v zeroNonce (keyOf h.uuid)).length := by
  rw [h.box.length_sealBox]
  exact Nat.le_add_left _ _

theorem isEncrypted_sealed (h : CryptHost) (v : Bytes) :
    h.isEncrypted (asBytes (h.sealed v)) = true := isEncrypted_stored (macBytes_le h v)

theorem symmetricCrypt_sealBox (h : CryptHost) (v : Bytes) :
    h.symmetricCrypt (h.box.sealBox v zeroNonce (keyOf h.uuid)) false = some v := by
  rw [symmetricCrypt, if_neg (by simp), h.box.openBox_sealBox]

/-! ## What comes back -/

/-- What is stored for a text: the text itself if it looks sealed, nothing, or its box. -/
theorem encryptStr_cases (h : CryptHost) (s : String) (maxLen : Nat) :
    (h.isEncrypted (asBytes s) = true ∧ h.encryptStrOrOriginal s "00" maxLen = s) ∨
      ((maxLen < s.length ∨ s = "") ∧ h.encryptStrOrOriginal s "00" maxLen = "") ∨
      h.encryptStrOrOriginal s "00" maxLen = h.sealed (asBytes s) := by
  unfold encryptStrOrOriginal
  split
  · rename_i henc
    exact .inl ⟨henc, rfl⟩
  · split
    · rename_i hlong
      exact .inr (.inl ⟨.inl hlong, rfl⟩)
    · rw [if_pos rfl]
      by_cases hempty : s = ""
      · subst hempty
        refine .inr (.inl ⟨.inr rfl, ?_⟩)
        rw [asBytes_empty]
        rfl
      · rw [encrypt_eq (asBytes_ne hempty)]
        exact .inr (.inr rfl)

theorem encryptVec_cases (h : CryptHost) (v : Bytes) (maxLen : Nat) :
    (h.isEncrypted v = true ∧ h.encryptVecOrOriginal v "00" maxLen = v) ∨
      ((maxLen < v.length ∨ v = []) ∧ h.encryptVecOrOriginal v "00" maxLen = []) ∨
      h.encryptVecOrOriginal v "00" maxLen = asBytes (h.sealed v) := by
  unfold encryptVecOrOriginal
  split
  · rename_i henc
    exact .inl ⟨henc, rfl⟩
  · split
    · rename_i hlong
      exact .inr (.inl ⟨.inl hlong, rfl⟩)
    · rw [if_pos rfl]
      by_cases hempty : v = []
      · subst hempty
        exact .inr (.inl ⟨.inr rfl, rfl⟩)
      · rw [encrypt_eq hempty]
        exact .inr (.inr (utf8_append "00" _).symm)

/-- What is stored looks sealed, or is nothing. -/
theorem encryptStr_stored (h : CryptHost) (s : String) (maxLen : Nat) :
    h.isEncrypted (asBytes (h.encryptStrOrOriginal s "00" maxLen)) = true ∨
      h.encryptStrOrOriginal s "00" maxLen = "" := by
  rcases encryptStr_cases h s maxLen with ⟨henc, heq⟩ | ⟨_, heq⟩ | heq
  · rw [heq]
    exact .inl henc
  · exact .inr heq
  · rw [heq]
    exact .inl (isEncrypted_sealed h _)

theorem encryptVec_stored (h : CryptHost) (v : Bytes) (maxLen : Nat) :
    h.isEncrypted (h.encryptVecOrOriginal v "00" maxLen) = true ∨
      h.encryptVecOrOriginal v "00" maxLen = [] := by
  rcases encryptVec_cases h v maxLen with ⟨henc, heq⟩ | ⟨_, heq⟩ | heq
  · rw [heq]
    exact .inl henc
  · exact .inr heq
  · rw [heq]
    exact .inl (isEncrypted_sealed h _)

theorem isEncrypted_prefix (henc : h.isEncrypted v = true) :
    versionLen < v.length ∧ startsWith00 v = true := by
  unfold isEncrypted at henc
  split at henc
  · cases henc
  · rename_i hlook
    simpa using hlook

theorem decryptStr_sealed (h : CryptHost) (s : String) :
    h.decryptStrOrOriginal (h.sealed (asBytes s)) "00" = (s, true, false) :=
  decryptStr_stored (macBytes_le h _) (symmetricCrypt_sealBox h _)

theorem decryptVec_sealed (h : CryptHost) (v : Bytes) :
    h.decryptVecOrOriginal (asBytes (h.sealed v)) "00" = (v, true, false) := by
  have hlen := macBytes_le h v
  have htake : (asBytes (h.sealed v)).take versionLen = asBytes "00" := by
    rw [sealed, asBytes_stored, asBytes_version]
    rfl
  have hversion : fromUtf8Lossy ((asBytes (h.sealed v)).take versionLen) = "00" := by
    rw [htake]
    exact fromUtf8Lossy_utf8 "00"
  have hdecrypt : h.decrypt ((asBytes (h.sealed v)).drop versionLen) = some v := by
    rw [sealed, decrypt_stored hlen, symmetricCrypt_sealBox]
  have hlong : versionLen < (asBytes (h.sealed v)).length := length_stored (ne_nil_of_mac hlen)
  unfold decryptVecOrOriginal
  rw [if_pos hlong]
  dsimp only
  rw [if_pos hversion, hdecrypt, hversion]
  rfl

theorem decryptStr_empty (h : CryptHost) (version : String) :
    (h.decryptStrOrOriginal "" version).1 = "" := by
  rw [decryptStrOrOriginal, asBytes_empty]
  rfl

theorem encryptStr_empty (h : CryptHost) (maxLen : Nat) :
    h.encryptStrOrOriginal "" "00" maxLen = "" := by
  rw [encryptStrOrOriginal, asBytes_empty]
  rfl

/-- What looks sealed and does not open is given back, and not stored again. -/
theorem decryptStr_closed {s : String} (henc : h.isEncrypted (asBytes s) = true)
    (hno : ∀ key ∈ h.keys, ¬ h.Opens (asBytes s) key) :
    h.decryptStrOrOriginal s "00" = (s, false, false) := by
  obtain ⟨hlen, h00⟩ := isEncrypted_prefix henc
  unfold decryptStrOrOriginal
  rw [if_pos (by simp [hlen, h00]), decrypt_none hno h00, henc]
  simp

theorem decryptVec_closed (henc : h.isEncrypted v = true)
    (hno : ∀ key ∈ h.keys, ¬ h.Opens v key) :
    h.decryptVecOrOriginal v "00" = (v, false, false) := by
  obtain ⟨hlen, h00⟩ := isEncrypted_prefix henc
  unfold decryptVecOrOriginal
  rw [if_pos hlen]
  dsimp only
  rw [decrypt_none hno h00, henc]
  simp

/-- Whatever looks sealed is not stored again. -/
theorem decryptStr_store {s : String} (henc : h.isEncrypted (asBytes s) = true) :
    (h.decryptStrOrOriginal s "00").2.2 = false := by
  unfold decryptStrOrOriginal
  dsimp only
  rw [henc]
  split
  · split
    · rfl
    · simp
  · simp

theorem decryptVec_store (henc : h.isEncrypted v = true) :
    (h.decryptVecOrOriginal v "00").2.2 = false := by
  unfold decryptVecOrOriginal
  dsimp only
  rw [henc]
  split
  · split
    · rename_i hversion
      split
      · rw [hversion]
        rfl
      · simp
    · simp
  · simp

/-- A secret that is short enough and no box that one of the keys opens comes back as it was. What
    is stored is not changed by storing it again, and what is read needs not be stored again. -/
theorem secrets_survive (h : CryptHost) :
    ((∀ s maxLen, s.length ≤ maxLen → (∀ key ∈ h.keys, ¬ h.Opens (asBytes s) key) →
        (h.decryptStrOrOriginal (h.encryptStrOrOriginal s "00" maxLen) "00").1 = s) ∧
      (∀ s maxLen maxLen',
        h.encryptStrOrOriginal (h.encryptStrOrOriginal s "00" maxLen) "00" maxLen' =
          h.encryptStrOrOriginal s "00" maxLen) ∧
      ∀ s maxLen, h.encryptStrOrOriginal s "00" maxLen ≠ "" →
        (h.decryptStrOrOriginal (h.encryptStrOrOriginal s "00" maxLen) "00").2.2 = false) ∧
    (∀ v maxLen, v.length ≤ maxLen → (∀ key ∈ h.keys, ¬ h.Opens v key) →
        (h.decryptVecOrOriginal (h.encryptVecOrOriginal v "00" maxLen) "00").1 = v) ∧
      (∀ v maxLen maxLen',
        h.encryptVecOrOriginal (h.encryptVecOrOriginal v "00" maxLen) "00" maxLen' =
          h.encryptVecOrOriginal v "00" maxLen) ∧
      ∀ v maxLen, h.encryptVecOrOriginal v "00" maxLen ≠ [] →
        (h.decryptVecOrOriginal (h.encryptVecOrOriginal v "00" maxLen) "00").2.2 = false := by
  refine ⟨⟨?_, ?_, ?_⟩, ?_, ?_, ?_⟩
  · intro s maxLen hlen hno
    rcases encryptStr_cases h s maxLen with ⟨henc, heq⟩ | ⟨hempty, heq⟩ | heq
    · rw [heq, decryptStr_closed henc hno]
    · obtain rfl := hempty.resolve_left (Nat.not_lt.mpr hlen)
      rw [heq, decryptStr_empty]
    · rw [heq, decryptStr_sealed]
  · intro s maxLen maxLen'
    rcases encryptStr_stored h s maxLen with henc | hempty
    · rw [encryptStrOrOriginal, if_pos henc]
    · rw [hempty, encryptStr_empty]
  · intro s maxLen hne
    exact decryptStr_store ((encryptStr_stored h s maxLen).resolve_right hne)
  · intro v maxLen hlen hno
    rcases encryptVec_cases h v maxLen with ⟨henc, heq⟩ | ⟨hempty, heq⟩ | heq
    · rw [heq, decryptVec_closed henc hno]
    · obtain rfl := hempty.resolve_left (Nat.not_lt.mpr hlen)
      rw [heq]
      rfl
    · rw [heq, decryptVec_sealed]
  · intro v maxLen maxLen'
    rcases encryptVec_stored h v maxLen with henc | hempty
    · rw [encryptVecOrOriginal, if_pos henc]
    · rw [hempty]
      rfl
  · intro v maxLen hne
    exact decryptVec_store ((encryptVec_stored h v maxLen).resolve_right hne)

/-! ## A machine -/

def ownUuid : Bytes := List.replicate 32 1

def ownPk : Bytes := List.replicate 32 2

/-- A machine with an id and a key pair. -/
def computer : CryptHost where
  box := .xsalsa20Poly1305
  base64Encode data := String.ofList (Base64.encode data)
  base64Decode bytes := (String.fromUTF8? ⟨bytes.toArray⟩).bind fun s => Base64.decode s.toList
  base64Decode_encode data := by
    rw [asBytes, fromUTF8_utf8, Option.bind_some, String.toList_ofList, Base64.decode_encode]
  base64Encode_ne data hne := by
    intro hempty
    refine Base64.encode_ne_nil hne ?_
    rw [← String.toList_ofList (l := Base64.encode data), hempty]
    rfl
  uuid := ownUuid
  existingKeyPair := some ownPk
  mobile := false

theorem secrets_survive_computer :
    (computer.decryptStrOrOriginal (computer.encryptStrOrOriginal "secret" "00" 128) "00").1 =
        "secret" ∧
      (computer.decryptVecOrOriginal (computer.encryptVecOrOriginal [1, 2, 3] "00" 128) "00").1 =
        [1, 2, 3] := by
  have hplain : startsWith00 (asBytes "secret") = false := by
    rw [asBytes, utf8_eq_flatMap]
    decide
  obtain ⟨⟨hstr, _⟩, hvec, _⟩ := secrets_survive computer
  refine ⟨hstr "secret" 128 (by decide) ?_, hvec [1, 2, 3] 128 (by decide) ?_⟩
  · rintro key _ ⟨h00, _⟩
    rw [hplain] at h00
    cases h00
  · rintro key _ ⟨h00, _⟩
    cases h00

theorem firstBlock_uuid : SecretBox.firstBlock zeroNonce ownUuid =
      [54, 84, 49, 121, 243, 125, 82, 39, 77, 2, 135, 162, 27, 78, 165, 140, 189, 18, 5,
        125, 226, 239, 248, 142, 172, 172, 241, 110, 31, 115, 45, 72, 222, 27, 74, 219, 160,
        59, 155, 241, 207, 241, 114, 99, 76, 102, 219, 9, 228, 143, 17, 68, 109, 128, 36,
        61, 205, 246, 13, 57, 227, 147, 120, 243] := by
  decide +kernel

theorem firstBlock_pk : SecretBox.firstBlock zeroNonce ownPk =
      [64, 218, 90, 68, 231, 81, 23, 213, 96, 142, 212, 245, 113, 28, 12, 221, 124, 143,
        116, 96, 86, 155, 33, 17, 156, 51, 216, 207, 59, 14, 215, 122, 101, 129, 234, 100,
        251, 223, 62, 45, 22, 178, 89, 97, 77, 46, 128, 85, 101, 10, 58, 54, 179, 63, 183,
        102, 45, 205, 134, 175, 84, 51, 84, 17] := by
  decide +kernel

/-- A letter, sealed with the public key of the machine. -/
def pkBox : Bytes := computer.box.sealBox [120] zeroNonce (keyOf ownPk)

theorem pkBox_eq : pkBox = SecretBox.tag [29] zeroNonce ownPk ++ [29] := by
  have hbody : SecretBox.cipher [120] zeroNonce ownPk = [29] := by
    rw [SecretBox.cipher_singleton, firstBlock_pk]
    decide
  rw [← hbody]
  rfl

theorem tags_differ :
    SecretBox.tag [29] zeroNonce ownPk ≠ SecretBox.tag [29] zeroNonce ownUuid := by
  rw [SecretBox.tag_first, SecretBox.tag_first, firstBlock_pk, firstBlock_uuid]
  decide +kernel

/-- The tag is another one for the key of the machine. -/
theorem pkBox_closed : computer.box.openBox pkBox zeroNonce (keyOf ownUuid) = none := by
  have hkey : keyOf ownUuid = ownUuid := by decide
  rw [pkBox_eq, hkey]
  exact SecretBox.openBox_of_tag_ne (SecretBox.length_tag _ _ _) tags_differ

theorem pkBox_opens : computer.symmetricCrypt pkBox false = some [120] := by
  have hother : ownPk ≠ computer.uuid := by decide
  have hclosed : computer.box.openBox pkBox zeroNonce (keyOf computer.uuid) = none := pkBox_closed
  have hmobile : ¬ computer.mobile = true := Bool.false_ne_true
  have hpk : computer.existingKeyPair = some ownPk := rfl
  rw [symmetricCrypt, if_neg (by simp), hclosed]
  dsimp only
  rw [if_neg hmobile, hpk]
  dsimp only
  rw [if_pos hother, pkBox, computer.box.openBox_sealBox]

/-- A secret that looks like a box under the public key is taken for one, though it does not open
    with the key of the machine. -/
theorem box_under_pk_opened :
    (∀ boxed, computer.base64Decode ((asBytes (computer.stored pkBox)).drop versionLen) =
        some boxed → computer.box.openBox boxed zeroNonce (keyOf computer.uuid) = none) ∧
      (computer.decryptStrOrOriginal (computer.encryptStrOrOriginal (computer.stored pkBox) "00"
        (computer.stored pkBox).length) "00").1 = "x" ∧
      computer.stored pkBox ≠ "x" := by
  have hmac : macBytes ≤ pkBox.length := by
    rw [pkBox, computer.box.length_sealBox]
    decide
  have hx : asBytes "x" = [120] := by
    rw [asBytes, utf8_eq_flatMap]
    decide
  refine ⟨?_, ?_, ?_⟩
  · intro boxed hboxed
    rw [drop_stored, computer.base64Decode_encode] at hboxed
    rw [← Option.some.inj hboxed]
    exact pkBox_closed
  · rw [encryptStrOrOriginal, if_pos (isEncrypted_stored hmac),
      decryptStr_stored hmac (pkBox_opens.trans (congrArg some hx.symm))]
  · intro heq
    have hlong := length_stored (h := computer) (ne_nil_of_mac hmac)
    rw [heq, hx] at hlong
    exact absurd hlong (by decide)

end CryptHost

end LuodaRemote
