/-
  The server that the name of the executable carries (`src/custom_server.rs`).

  A name says it with `host=` and other fields, or has the server as a text of its own between
  dashes. Positions are found in the lower-cased name and used in the name itself; Base64, JSON and
  signatures are other libraries'.
-/
import LuodaRemote.Lib.Lowercase
import LuodaRemote.Lib.Text

namespace LuodaRemote
open Lib

structure CustomServer where
  key : List Char := []
  host : List Char := []
  api : List Char := []
  relay : List Char := []
  deriving DecidableEq

namespace CustomServer

/-- What the file takes from libraries. -/
structure Libraries where
  /-- `URL_SAFE_NO_PAD.decode`. -/
  decode64 : List Char → Option (List UInt8)
  /-- `serde_json::from_slice`. -/
  fromSlice : List UInt8 → Option CustomServer
  /-- `sign::verify`: what was signed with a key. -/
  verify : List UInt8 → List UInt8 → Option (List UInt8)

def pk : List UInt8 :=
  [88, 168, 68, 104, 60, 5, 163, 198, 165, 38, 12, 85, 114, 203, 96, 163, 70, 48, 0, 131, 57,
    12, 46, 129, 83, 17, 84, 193, 119, 197, 130, 103]

section Functions

variable (final : List Char → List Char → Bool) (lib : Libraries)

def getCustomServerFromConfigString (s : List Char) : Option CustomServer :=
  match lib.decode64 s.reverse with
  | none => none
  | some data =>
    match lib.fromSlice data with
    | some lic => some lic
    | none => (lib.verify data pk).bind lib.fromSlice

/-- `&s[0..s.len() - n]`. -/
def sliceOff (n : Nat) (s : List Char) : Option (List Char) :=
  if n ≤ byteLen s then sliceTo (byteLen s - n) s else none

/-- The name without `.exe`. -/
def withoutExe (s : List Char) : Option (List Char) :=
  if ".exe.exe".toList <:+ toLowercase final s then sliceOff 8 s
  else if ".exe".toList <:+ toLowercase final s then sliceOff 4 s
  else some s

/-- One turn of the loop over the parts between commas. -/
def readField (c : CustomServer) (el : List Char) : CustomServer :=
  let elLower := toLowercase final el
  { host := if "host=".toList <+: elLower then el.drop 5 else c.host
    key := if "key=".toList <+: elLower then el.drop 4 else c.key
    api := if "api=".toList <+: elLower then el.drop 4 else c.api
    relay := if "relay=".toList <+: elLower then el.drop 6 else c.relay }

def readFields (stripped : List Char) : CustomServer :=
  (stripped.splitOn ',').foldl (readField final) {}

/-- `str::replace`. -/
def replace (old new s : List Char) : List Char := new.intercalate (splitSeq old s)

def replaceLicensed (s : List Char) : List Char :=
  let s := replace "-licensed---".toList "--".toList s
  let s := replace "-licensed--".toList "--".toList s
  replace "-licensed-".toList "--".toList s

/-- A part between dashes, or else its own parts: a copy has a number in parentheses. -/
def readPiece (s : List Char) : Option CustomServer :=
  match getCustomServerFromConfigString lib (trim s) with
  | some lic => some lic
  | none =>
    if '(' ∈ s then
      (s.splitOn '(').findSome? fun s => getCustomServerFromConfigString lib (trim s)
    else none

def readPieces (s : List Char) : Option CustomServer :=
  (splitSeq "--".toList (replaceLicensed s)).findSome? (readPiece lib)

/-- How a call ends: a slice may not be a text. -/
inductive Outcome where
  | panic
  | err
  | ok (c : CustomServer)
  deriving DecidableEq

def getCustomServerFromString (s : List Char) : Outcome :=
  match withoutExe final s with
  | none => .panic
  | some s =>
    -- `contains` and `find` look for the same.
    match find "host=".toList (toLowercase final s) with
    | some n =>
      match sliceFrom n s with
      | none => .panic
      | some stripped => .ok (readFields final stripped)
    | none =>
      match readPieces lib s with
      | some lic => .ok lic
      | none => .err

end Functions

/-! ## The name without its ending -/

/-- What is left without `.exe`, in any case. -/
def stem (s : List Char) : List Char :=
  if ".exe.exe".toList <:+ s.map Char.toLower then s.take (s.length - 8)
  else if ".exe".toList <:+ s.map Char.toLower then s.take (s.length - 4)
  else s

/-- The text before `host=`, in any case. -/
def beforeHost (s : List Char) : Option (List Char) := beforeAnyCase "host=".toList s

section Stem

variable {final : List Char → List Char → Bool} {s a m pat : List Char}

theorem ascii_of_map (hpat : ∀ x ∈ pat, Plain x) (h : m.map Char.toLower = pat) :
    ∀ c ∈ m, c.toNat < 128 := by
  intro c hc
  have hmem : c.toLower ∈ pat := h ▸ List.mem_map_of_mem hc
  exact ascii_of_toLower (hpat _ hmem).1

theorem sliceOff_append (hm : ∀ c ∈ m, c.toNat < 128) :
    sliceOff m.length (a ++ m) = some a := by
  have hlen : byteLen (a ++ m) = byteLen a + m.length := by
    rw [byteLen_append, byteLen_of_ascii hm]
  unfold sliceOff
  rw [hlen, if_pos (Nat.le_add_left _ _), Nat.add_sub_cancel]
  exact sliceTo_append a m

/-- An ending, in any case, that is taken off by its bytes. -/
theorem sliceOff_of_suffix (hpat : ∀ x ∈ pat, Plain x) (h : pat <:+ s.map Char.toLower) :
    sliceOff pat.length s = some (s.take (s.length - pat.length)) := by
  obtain ⟨u, hu⟩ := h
  obtain ⟨a, m, rfl, -, hm⟩ := List.map_eq_append_iff.mp hu.symm
  have hlen : pat.length = m.length := by rw [← hm, List.length_map]
  rw [hlen, sliceOff_append (ascii_of_map hpat hm), List.length_append, Nat.add_sub_cancel,
    List.take_left]

/-- The ending is always taken off safely. -/
theorem withoutExe_eq : withoutExe final s = some (stem s) := by
  have h2 : ∀ x ∈ ".exe.exe".toList, Plain x := forall_mem_of_all (by decide)
  have h1 : ∀ x ∈ ".exe".toList, Plain x := forall_mem_of_all (by decide)
  unfold withoutExe stem toLowercase
  rw [if_congr (suffix_lower h2) rfl rfl]
  split
  · next h => exact sliceOff_of_suffix h2 h
  · rw [if_congr (suffix_lower h1) rfl rfl]
    split
    · next h => exact sliceOff_of_suffix h1 h
    · rfl

theorem double_append {x : List Char} (hx : x.map Char.toLower = ".exe".toList) :
    ".exe.exe".toList <:+ (s ++ x).map Char.toLower ↔ ".exe".toList <:+ s.map Char.toLower := by
  have hdouble : ".exe.exe".toList = ".exe".toList ++ ".exe".toList := rfl
  rw [List.map_append, hx, hdouble, List.suffix_append_self_iff]

theorem stem_whole {x : List Char} (hx : x.map Char.toLower = ".exe".toList)
    (h : ¬ ".exe".toList <:+ s.map Char.toLower) : stem (s ++ x) = s := by
  have hone : ".exe".toList <:+ (s ++ x).map Char.toLower := by
    rw [List.map_append, hx]
    exact List.suffix_append _ _
  have hlen : x.length = 4 := by rw [← List.length_map Char.toLower, hx]; rfl
  unfold stem
  rw [if_neg ((double_append hx).not.mpr h), if_pos hone, List.length_append, hlen,
    Nat.add_sub_cancel, List.take_left]

theorem stem_double : stem (s ++ ".exe.exe".toList) = s := by
  have hlower : ".exe.exe".toList.map Char.toLower = ".exe.exe".toList := by decide
  have hlen : ".exe.exe".toList.length = 8 := rfl
  unfold stem
  rw [List.map_append, hlower, if_pos (List.suffix_append _ _), List.length_append, hlen,
    Nat.add_sub_cancel, List.take_left]

theorem stem_none (h : ¬ ".exe".toList <:+ s.map Char.toLower) : stem s = s := by
  have hdouble : ¬ ".exe.exe".toList <:+ s.map Char.toLower := fun hsuf =>
    h (List.IsSuffix.trans ⟨".exe".toList, rfl⟩ hsuf)
  unfold stem
  rw [if_neg hdouble, if_neg h]

/-- Where the text ends with `.exe` already, more is taken off than the ending. -/
theorem stem_short (h : ".exe".toList <:+ s.map Char.toLower) :
    (stem s = s.take (s.length - 8) ∧ ".exe.exe".toList <:+ s.map Char.toLower) ∨
      stem s = s.take (s.length - 4) := by
  unfold stem
  split
  · next hdouble => exact .inl ⟨rfl, hdouble⟩
  · exact .inr rfl

theorem stem_shorter {x : List Char} (hx : x.map Char.toLower = ".exe".toList)
    (h : ".exe".toList <:+ s.map Char.toLower) : stem (s ++ x) = s.take (s.length - 4) := by
  have hlen : x.length = 4 := by rw [← List.length_map Char.toLower, hx]; rfl
  unfold stem
  rw [if_pos ((double_append hx).mpr h), List.length_append, hlen]
  show (s ++ x).take (s.length + 4 - 8) = s.take (s.length - 4)
  rw [Nat.add_sub_add_right s.length 4 4, List.take_append_of_le_length (Nat.sub_le _ _)]

theorem find_host : find "host=".toList (toLowercase final s) = (beforeHost s).map lowerLen :=
  find_lower (forall_mem_of_all (by decide))

variable {lib : Libraries}

/-- The slice begins at as many bytes as the lower case has before `host=`. -/
theorem outcome_host (h : beforeHost (stem s) = some a) :
    getCustomServerFromString final lib s =
      match sliceFrom (lowerLen a) (stem s) with
      | none => .panic
      | some stripped => .ok (readFields final stripped) := by
  unfold getCustomServerFromString
  rw [withoutExe_eq]
  dsimp only
  rw [find_host, h]
  rfl

theorem outcome_pieces (h : beforeHost (stem s) = none) :
    getCustomServerFromString final lib s =
      match readPieces lib (stem s) with
      | some lic => .ok lic
      | none => .err := by
  unfold getCustomServerFromString
  rw [withoutExe_eq]
  dsimp only
  rw [find_host, h]
  rfl

end Stem

end CustomServer

end LuodaRemote
