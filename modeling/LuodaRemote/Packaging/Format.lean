/-
  The portable package: the table of files that the packer writes into one binary file, and the
  reader that finds the files in it again.

  A file is its path, what `brotli` made of its content, and a checksum of 32 bytes; the lengths
  of the first two go before them in four bytes. The files stand between two identifiers, and the
  name of the executable after them. Only the first byte tells the second identifier from the
  length of a path: it is no length below 2^24.

  Source: `write_package_metadata` of `libs/portable/generate.py`; `BinaryReader::read` of
  `libs/portable/src/bin_reader.rs`.
-/
import LuodaRemote.Lib.Utf8

namespace LuodaRemote

open Lib

structure BinaryData where
  md5Code : List UInt8
  raw : List UInt8
  path : String
  deriving DecidableEq

structure BinaryReader where
  files : List BinaryData
  exe : String
  deriving DecidableEq

namespace Package

def identifier : String := "LDESK"

def identifierLength : Nat := 5

def md5Length : Nat := 32

/-! ## Writing -/

/-- `to_bytes` of four bytes, which fails on a number that needs more. -/
def toBytes (n : Nat) : Option (List UInt8) :=
  if n < 2 ^ 32 then
    some [UInt8.ofNat (n / 2 ^ 24), UInt8.ofNat (n / 2 ^ 16), UInt8.ofNat (n / 2 ^ 8),
      UInt8.ofNat n]
  else none

def writeFile (file : BinaryData) : Option (List UInt8) := do
  let path := file.path.toUTF8.toList
  let pathLength ← toBytes path.length
  let dataLength ← toBytes file.raw.length
  return pathLength ++ (path ++ (dataLength ++ (file.raw ++ file.md5Code)))

def writePackageMetadata (table : List BinaryData) (exe : String) : Option (List UInt8) := do
  let files ← table.mapM writeFile
  return identifier.toUTF8.toList ++ (files.flatten ++
    (identifier.toUTF8.toList ++ exe.toUTF8.toList))

/-! ## Reading -/

/-- So many bytes, and those after them. A slice that is out of bounds is a panic. -/
def takeExact (n : Nat) (bytes : List UInt8) : Option (List UInt8 × List UInt8) :=
  if n ≤ bytes.length then some (bytes.take n, bytes.drop n) else none

/-- `u32::from_be_bytes`. -/
def fromBeBytes (bytes : List UInt8) : Nat := bytes.foldl (fun n b => n * 256 + b.toNat) 0

def readFile (bytes : List UInt8) : Option (BinaryData × List UInt8) := do
  let (pathLength, bytes) ← takeExact 4 bytes
  let (path, bytes) ← takeExact (fromBeBytes pathLength) bytes
  let (fileLength, bytes) ← takeExact 4 bytes
  let (raw, bytes) ← takeExact (fromBeBytes fileLength) bytes
  let (md5, bytes) ← takeExact md5Length bytes
  return ({ md5Code := md5, raw := raw, path := fromUtf8Lossy path }, bytes)

theorem takeExact_eq_some {n : Nat} {bytes bs rest : List UInt8} :
    takeExact n bytes = some (bs, rest) → rest.length ≤ bytes.length := by
  unfold takeExact
  intro h
  split at h
  · cases h
    rw [List.length_drop]
    omega
  · cases h

/-- A file takes at least four bytes. -/
theorem length_of_readFile {bytes rest : List UInt8} {file : BinaryData}
    (h : readFile bytes = some (file, rest)) : rest.length < bytes.length := by
  unfold readFile at h
  simp only [Option.bind_eq_bind, Option.bind_eq_some_iff, Prod.exists] at h
  obtain ⟨bs, rest₁, h₁, _, rest₂, h₂, _, rest₃, h₃, _, rest₄, h₄, _, rest₅, h₅, hfile⟩ := h
  cases hfile
  have hlen₂ := takeExact_eq_some h₂
  have hlen₃ := takeExact_eq_some h₃
  have hlen₄ := takeExact_eq_some h₄
  have hlen₅ := takeExact_eq_some h₅
  unfold takeExact at h₁
  split at h₁
  · cases h₁
    rw [List.length_drop] at hlen₂
    omega
  · cases h₁

/-- The loop, with the rest of the data after the second identifier. -/
def readFiles (bytes : List UInt8) : Option (List BinaryData × List UInt8) :=
  match takeExact identifierLength bytes with
  | none => none
  | some (iden, rest) =>
    if fromUtf8Lossy iden = identifier then some ([], rest)
    else
      match _hread : readFile bytes with
      | none => none
      | some (file, rest) => (readFiles rest).map fun r => (file :: r.1, r.2)
termination_by bytes.length
decreasing_by exact length_of_readFile _hread

/-- `BinaryReader::read`; no reader is a panic. -/
def read (binData : List UInt8) : Option BinaryReader :=
  if binData.length ≤ identifierLength then none
  else
    match takeExact identifierLength binData with
    | none => none
    | some (iden, rest) =>
      if fromUtf8Lossy iden = identifier then
        (readFiles rest).map fun r => { files := r.1, exe := fromUtf8Lossy r.2 }
      else none

/-! ## What is written is read -/

/-- What the packer can write and the reader can tell from the end. -/
structure Packable (file : BinaryData) : Prop where
  path : file.path.toUTF8.toList.length < 2 ^ 24
  raw : file.raw.length < 2 ^ 32
  md5Code : file.md5Code.length = md5Length

theorem takeExact_append {n : Nat} {bs : List UInt8} (hn : bs.length = n) (rest : List UInt8) :
    takeExact n (bs ++ rest) = some (bs, rest) := by
  unfold takeExact
  rw [← hn, if_pos (by rw [List.length_append]; omega), List.take_left, List.drop_left]

theorem fromBeBytes_toBytes {n : Nat} (hn : n < 2 ^ 32) :
    ∃ bs, toBytes n = some bs ∧ bs.length = 4 ∧ fromBeBytes bs = n ∧
      bs.head? = some (UInt8.ofNat (n / 2 ^ 24)) := by
  refine ⟨_, if_pos hn, rfl, ?_, rfl⟩
  unfold fromBeBytes
  simp only [List.foldl_cons, List.foldl_nil, UInt8.toNat_ofNat']
  omega

theorem readFile_writeFile {file : BinaryData} (hfile : Packable file) :
    ∃ bs, writeFile file = some bs ∧ bs.head? = some 0 ∧ 5 ≤ bs.length ∧
      ∀ rest, readFile (bs ++ rest) = some (file, rest) := by
  obtain ⟨hpath, hraw, hmd5⟩ := hfile
  obtain ⟨pl, hpl, hpl4, hplen, hhead⟩ :=
    fromBeBytes_toBytes (Nat.lt_trans hpath (by decide : 2 ^ 24 < 2 ^ 32))
  obtain ⟨dl, hdl, hdl4, hdlen, _⟩ := fromBeBytes_toBytes hraw
  refine ⟨pl ++ (file.path.toUTF8.toList ++ (dl ++ (file.raw ++ file.md5Code))), ?_, ?_, ?_,
    fun rest => ?_⟩
  · unfold writeFile
    dsimp only
    rw [hpl, hdl]
    rfl
  · rw [List.head?_append, hhead, Nat.div_eq_of_lt hpath]
    rfl
  · simp only [List.length_append]
    omega
  · unfold readFile
    simp only [List.append_assoc, takeExact_append hpl4, hplen, takeExact_append hdl4, hdlen,
      takeExact_append (rfl : file.path.toUTF8.toList.length = _),
      takeExact_append (rfl : file.raw.length = _), takeExact_append hmd5, fromUtf8Lossy_utf8,
      Option.bind_eq_bind, Option.bind_some]
    rfl

/-- The second identifier ends the files. -/
theorem readFiles_identifier (rest : List UInt8) :
    readFiles (identifier.toUTF8.toList ++ rest) = some ([], rest) := by
  rw [readFiles, takeExact_append (by decide +kernel)]
  dsimp only
  rw [if_pos (fromUtf8Lossy_utf8 identifier)]

/-- A file does not look like it. -/
theorem readFiles_file {file : BinaryData} {bs : List UInt8} (hhead : bs.head? = some 0)
    (hlen : 5 ≤ bs.length) (rest : List UInt8) (hread : readFile (bs ++ rest) = some (file, rest)) :
    readFiles (bs ++ rest) = (readFiles rest).map fun r => (file :: r.1, r.2) := by
  obtain ⟨b, bs', rfl⟩ : ∃ b bs', bs = b :: bs' := List.exists_cons_of_length_pos (by omega)
  cases hhead
  have hexact : takeExact identifierLength (0 :: bs' ++ rest) =
      some (0 :: (bs' ++ rest).take 4, (bs' ++ rest).drop 4) := by
    unfold takeExact identifierLength
    rw [List.length_cons] at hlen
    rw [if_pos (by rw [List.length_append, List.length_cons]; omega)]
    rfl
  have hno : fromUtf8Lossy (0 :: (bs' ++ rest).take 4) ≠ identifier := by
    intro heq
    have hchar := head_fromUtf8Lossy (by decide : String.utf8EncodeChar (Char.ofNat 0) = [0])
      ((bs' ++ rest).take 4)
    rw [heq] at hchar
    revert hchar
    decide +kernel
  rw [readFiles, hexact]
  dsimp only
  rw [if_neg hno]
  split
  · rename_i hnone
    rw [hread] at hnone
    cases hnone
  · rename_i file' rest' hsome
    rw [hread] at hsome
    cases hsome
    rfl

theorem readFiles_writeFiles {table : List BinaryData} (htable : ∀ file ∈ table, Packable file) :
    ∃ files, table.mapM writeFile = some files ∧ ∀ rest,
      readFiles (files.flatten ++ (identifier.toUTF8.toList ++ rest)) = some (table, rest) := by
  induction table with
  | nil => exact ⟨[], rfl, readFiles_identifier⟩
  | cons file table ih =>
    obtain ⟨files, hfiles, hread⟩ := ih fun file hmem => htable file (List.mem_cons_of_mem _ hmem)
    obtain ⟨bs, hbs, hhead, hlen, hone⟩ := readFile_writeFile (htable file List.mem_cons_self)
    refine ⟨bs :: files, ?_, fun rest => ?_⟩
    · rw [List.mapM_cons, hbs, hfiles]
      rfl
    · rw [List.flatten_cons, List.append_assoc, readFiles_file hhead hlen _ (hone _), hread rest]
      rfl

/-- The reader finds the files and the executable that were packed, in order. -/
theorem read_writePackageMetadata {table : List BinaryData}
    (htable : ∀ file ∈ table, Packable file) (exe : String) :
    ∃ data, writePackageMetadata table exe = some data ∧ read data = some ⟨table, exe⟩ := by
  obtain ⟨files, hfiles, hread⟩ := readFiles_writeFiles htable
  refine ⟨identifier.toUTF8.toList ++ (files.flatten ++
    (identifier.toUTF8.toList ++ exe.toUTF8.toList)), ?_, ?_⟩
  · unfold writePackageMetadata
    rw [hfiles]
    rfl
  · have hlen : identifier.toUTF8.toList.length = identifierLength := by decide +kernel
    have hlong : ¬ (identifier.toUTF8.toList ++ (files.flatten ++
        (identifier.toUTF8.toList ++ exe.toUTF8.toList))).length ≤ identifierLength := by
      rw [List.length_append, List.length_append, List.length_append, hlen]
      unfold identifierLength
      omega
    unfold read
    rw [if_neg hlong, takeExact_append hlen]
    dsimp only
    rw [if_pos (fromUtf8Lossy_utf8 identifier), hread, Option.map_some, fromUtf8Lossy_utf8]

end Package

end LuodaRemote
