/-
  The list of files on the clipboard as it is sent: `LocalFile::as_bin` and
  `ClipFiles::build_file_list_pdu` write it, `FileDescription::parse_file_descriptors` reads it
  (libs/clipboard/src/platform/unix: local_file.rs, serv_files.rs, filetype.rs).

  A descriptor has 592 bytes with everything in a fixed place. `parse_asBin` says what comes out
  of it: a backslash of the name has become a slash, whoever sent it. `descriptors_round_trip_iff`:
  a list comes back as it was precisely when no relative path has a backslash, and the list is not
  too long for its own counter.

  A path of the host is a text without NUL. Times are nanoseconds since 1970.
-/
import Mathlib.Data.List.DropRight
import LuodaRemote.Message
import LuodaRemote.Lib.Wire

namespace LuodaRemote
open Lib

namespace Clip

/-! ## Writing -/

def flagsFdAttributes : Nat := 0x04

def flagsFdSize : Nat := 0x40

def flagsFdLastWrite : Nat := 0x20

def flagsFdProgressui : Nat := 0x4000

def flagsFdUnixMode : Nat := 0x08

def ldapEpochDelta : Nat := 116444772610000000

/-- What `as_bin` reads of a `LocalFile`. `relativePath` is
    `path.strip_prefix(relative_root).unwrap_or(path)`. -/
structure LocalFileEntry where
  relativePath : String
  size : UInt64
  lastWriteTime : Int
  isDir : Bool
  perm : UInt32
  readOnly : Bool
  hidden : Bool
  system : Bool
  archive : Bool
  normal : Bool
  noNul : '\x00' ∉ relativePath.toList

def fileAttributes (readOnly hidden system directory archive normal : Bool) : Nat :=
  (if readOnly then 0x1 else 0) ||| (if hidden then 0x2 else 0) ||| (if system then 0x4 else 0) |||
    (if directory then 0x10 else 0) ||| (if archive then 0x20 else 0) |||
    (if normal then 0x80 else 0)

namespace LocalFileEntry

def attributes (f : LocalFileEntry) : Nat :=
  fileAttributes f.readOnly f.hidden f.system f.isDir f.archive f.normal

/-- A time before 1970 counts as 1970, and `as_nanos() as u64` is cut off. -/
def win32Time (f : LocalFileEntry) : Nat :=
  f.lastWriteTime.toNat % 2 ^ 64 / 100 + ldapEpochDelta

def flags : Nat :=
  flagsFdSize ||| flagsFdLastWrite ||| flagsFdAttributes ||| flagsFdProgressui ||| flagsFdUnixMode

def nameBytes (f : LocalFileEntry) : Bytes := utf16Bytes f.relativePath.toList

/-- `none` is the panic of `520 - name_len`. -/
def asBin (f : LocalFileEntry) : Option Bytes :=
  if 520 < f.nameBytes.length then none
  else some <|
    putLe 4 flags ++ (List.replicate 32 0 ++ (putLe 4 f.attributes ++ (List.replicate 12 0 ++
      (putLe 4 f.perm.toNat ++ (putLe 8 f.win32Time ++ (putLe 4 (f.size.toNat / 2 ^ 32) ++
        (putLe 4 (f.size.toNat % 2 ^ 32) ++
          (f.nameBytes ++ List.replicate (520 - f.nameBytes.length) 0))))))))

end LocalFileEntry

def buildFileListPdu (fileList : List LocalFileEntry) : Option Bytes :=
  (fileList.mapM LocalFileEntry.asBin).map fun bins => putLe 4 fileList.length ++ bins.flatten

/-! ## Reading -/

inductive FileType where
  | file | directory | symlink
deriving DecidableEq

structure FileDescription where
  connId : Int32
  name : String
  kind : FileType
  atime : Nat
  lastModified : Nat
  lastMetadataChanged : Nat
  creationTime : Nat
  size : Nat
  perm : Nat
deriving DecidableEq

/-- An entry of a list to which one was added. -/
theorem getElem?_concat_cases {α : Type} {xs : List α} {x y : α} {j : Nat}
    (h : (xs ++ [x])[j]? = some y) : xs[j]? = some y ∨ j = xs.length ∧ y = x := by
  rw [List.getElem?_append] at h
  split_ifs at h with hj
  · exact .inl h
  · obtain ⟨hlt, hy⟩ := List.getElem?_eq_some_iff.mp h
    have hj0 : j - xs.length = 0 := by simpa using hlt
    refine .inr ⟨by omega, ?_⟩
    simp only [hj0, List.getElem_cons_zero] at hy
    exact hy.symm

inductive DescriptorError where
  | conversionFailure
  | invalidRequest (description : String)
deriving DecidableEq

def permRead : Nat := 0o444

def permRw : Nat := 0o644

def permSelfRo : Nat := 0o400

def permRwx : Nat := 0o755

/-- `perm` as the descriptor has it if it comes from Unix, else by the attributes. -/
def parsePerm (fromUnix : Bool) (attributes perm : Nat) : Nat :=
  if fromUnix then perm
  else if attributes = 0x80 then permRwx
  else if attributes &&& 0x01 ≠ 0 then permRead
  else if attributes &&& 0x02 ≠ 0 then permSelfRo
  else if attributes &&& 0x10 ≠ 0 then permRwx
  else permRw

/-- The product wraps, as it does in a release build. -/
def parseTime (validWriteTime : Bool) (lastWriteTime : Nat) : Nat :=
  if validWriteTime ∧ ldapEpochDelta ≤ lastWriteTime then
    (lastWriteTime - ldapEpochDelta) * 100 % 2 ^ 64
  else 0

/-- `replace('\\', "/")` and `trim_end_matches('\0')`. -/
def parseName (wstr : List Char) : String :=
  String.ofList ((wstr.map fun c => if c = '\\' then '/' else c).rdropWhile (· == '\x00'))

/-- One descriptor, and the bytes after it. -/
def parseFileDescriptor (bytes : Bytes) (connId : Int32) :
    Except DescriptorError (FileDescription × Bytes) :=
  let flags := getLe (bytes.take 4)
  let bytes := (bytes.drop 4).drop 32
  let attributes := getLe (bytes.take 4)
  let bytes := (bytes.drop 4).drop 12
  let perm := getLe (bytes.take 4) % 2 ^ 16
  let bytes := bytes.drop 4
  let lastWriteTime := getLe (bytes.take 8)
  let bytes := bytes.drop 8
  let fileSizeHigh := getLe (bytes.take 4)
  let bytes := bytes.drop 4
  let fileSizeLow := getLe (bytes.take 4)
  let bytes := bytes.drop 4
  let block := bytes.take 520
  let bytes := bytes.drop 520
  match decodeUtf16 (units block) with
  | none => .error .conversionFailure
  | some wstr =>
    if flags &&& flagsFdAttributes = 0 then
      .error (.invalidRequest "file description must have valid attributes")
    else
      let lastModified := parseTime (flags &&& flagsFdLastWrite != 0) lastWriteTime
      .ok ({ connId := connId
             name := parseName wstr
             kind := if attributes &&& 0x10 ≠ 0 then .directory else .file
             atime := lastModified
             lastModified := lastModified
             lastMetadataChanged := lastModified
             creationTime := lastModified
             size := fileSizeHigh * 2 ^ 32 + fileSizeLow
             perm := parsePerm (flags &&& flagsFdUnixMode != 0) attributes perm }, bytes)

/-- The loop over the descriptors. -/
def parseLoop (connId : Int32) : Nat → Bytes → Except DescriptorError (List FileDescription)
  | 0, _ => .ok []
  | count + 1, bytes =>
    match parseFileDescriptor bytes connId with
    | .error e => .error e
    | .ok (desc, rest) =>
      match parseLoop connId count rest with
      | .error e => .error e
      | .ok descs => .ok (desc :: descs)

def parseFileDescriptors (pdu : Bytes) (connId : Int32) :
    Except DescriptorError (List FileDescription) :=
  if pdu.length < 4 then
    .error (.invalidRequest "file descriptor request with infficient length")
  else
    let count := getLe (pdu.take 4)
    let data := pdu.drop 4
    if data.length = 0 ∧ count = 0 then .ok []
    else if data.length ≠ 592 * count then
      .error (.invalidRequest "file descriptor request with invalid length")
    else parseLoop connId count data

/-! ## One descriptor -/

/-- What comes back for a file. -/
def described (connId : Int32) (f : LocalFileEntry) : FileDescription where
  connId := connId
  name := String.ofList (f.relativePath.toList.map fun c => if c = '\\' then '/' else c)
  kind := if f.isDir then .directory else .file
  atime := f.lastWriteTime.toNat % 2 ^ 64 / 100 * 100
  lastModified := f.lastWriteTime.toNat % 2 ^ 64 / 100 * 100
  lastMetadataChanged := f.lastWriteTime.toNat % 2 ^ 64 / 100 * 100
  creationTime := f.lastWriteTime.toNat % 2 ^ 64 / 100 * 100
  size := f.size.toNat
  perm := f.perm.toNat % 2 ^ 16

variable {f : LocalFileEntry} {connId : Int32}

/-- The path fits into its 520 bytes. -/
def LocalFileEntry.Fits (f : LocalFileEntry) : Prop :=
  (encodeUtf16 f.relativePath.toList).length ≤ 260

theorem length_nameBytes (hf : f.Fits) : f.nameBytes.length ≤ 520 := by
  unfold LocalFileEntry.Fits at hf
  unfold LocalFileEntry.nameBytes
  rw [length_utf16Bytes]
  omega

theorem directory_fileAttributes (readOnly hidden system directory archive normal : Bool) :
    (fileAttributes readOnly hidden system directory archive normal &&& 0x10 ≠ 0 ↔
      directory = true) ∧
    fileAttributes readOnly hidden system directory archive normal < 2 ^ 32 := by
  cases readOnly <;> cases hidden <;> cases system <;> cases directory <;> cases archive <;>
    cases normal <;> decide

/-- The padding is decoded to NULs. -/
theorem decode_nameBytes (f : LocalFileEntry) :
    ∃ k, decodeUtf16 (units (f.nameBytes ++ List.replicate (520 - f.nameBytes.length) 0)) =
      some (f.relativePath.toList ++ List.replicate k '\x00') := by
  have heven : f.nameBytes.length = 2 * (encodeUtf16 f.relativePath.toList).length := by
    rw [LocalFileEntry.nameBytes, length_utf16Bytes]
  refine ⟨260 - (encodeUtf16 f.relativePath.toList).length, ?_⟩
  have hpad : 520 - f.nameBytes.length =
      2 * (260 - (encodeUtf16 f.relativePath.toList).length) := by omega
  rw [hpad, ← utf16Bytes_nuls, LocalFileEntry.nameBytes, ← utf16Bytes_append, decode_utf16Bytes]

theorem rdropWhile_append_replicate {p : Char → Bool} {s : List Char} {c : Char}
    (hs : ∀ d ∈ s, p d = false) (hc : p c = true) (k : Nat) :
    (s ++ List.replicate k c).rdropWhile p = s := by
  induction k with
  | zero =>
    rw [List.replicate_zero, List.append_nil]
    rcases List.eq_nil_or_concat s with rfl | ⟨init, last, rfl⟩
    · rfl
    · rw [List.concat_eq_append] at hs ⊢
      exact List.rdropWhile_concat_neg p _ _ (by simp [hs last (by simp)])
  | succ k ih =>
    rw [List.replicate_succ', ← List.append_assoc, List.rdropWhile_concat_pos p _ _ hc, ih]

/-- Trimming takes the NULs of the padding and nothing of the path. -/
theorem parseName_padded (f : LocalFileEntry) (k : Nat) :
    parseName (f.relativePath.toList ++ List.replicate k '\x00') =
      String.ofList (f.relativePath.toList.map fun c => if c = '\\' then '/' else c) := by
  have hnul : ∀ c ∈ f.relativePath.toList.map fun c => if c = '\\' then '/' else c,
      (c == '\x00') = false := by
    intro c hc
    obtain ⟨d, hd, rfl⟩ := List.mem_map.mp hc
    split
    · rfl
    · exact beq_false_of_ne fun heq => f.noNul (heq ▸ hd)
  have hpad : (List.replicate k '\x00').map (fun c => if c = '\\' then '/' else c) =
      List.replicate k '\x00' := by
    rw [List.map_replicate]
    rfl
  rw [parseName, List.map_append, hpad, rdropWhile_append_replicate hnul (beq_self_eq_true _)]

theorem length_asBin {bin : Bytes} (h : f.asBin = some bin) : bin.length = 592 := by
  unfold LocalFileEntry.asBin at h
  split at h
  · cases h
  · next hlen =>
      cases h
      simp only [List.length_append, length_putLe, List.length_replicate]
      omega

/-! ## The fields of a descriptor -/

theorem getLe_flags : getLe (putLe 4 LocalFileEntry.flags) = LocalFileEntry.flags := by decide

theorem getLe_attributes (f : LocalFileEntry) : getLe (putLe 4 f.attributes) = f.attributes := by
  rw [getLe_putLe]
  exact Nat.mod_eq_of_lt (directory_fileAttributes _ _ _ _ _ _).2

theorem parseTime_win32Time (f : LocalFileEntry) :
    parseTime true (getLe (putLe 8 f.win32Time)) = f.lastWriteTime.toNat % 2 ^ 64 / 100 * 100 := by
  have hlt : f.lastWriteTime.toNat % 2 ^ 64 < 2 ^ 64 := Nat.mod_lt _ (by decide)
  have hread : getLe (putLe 8 f.win32Time) = f.win32Time := by
    rw [getLe_putLe]
    refine Nat.mod_eq_of_lt ?_
    unfold LocalFileEntry.win32Time ldapEpochDelta
    omega
  rw [hread, parseTime, if_pos ⟨rfl, Nat.le_add_left _ _⟩]
  unfold LocalFileEntry.win32Time
  rw [Nat.add_sub_cancel]
  refine Nat.mod_eq_of_lt ?_
  omega

theorem size_halves (size : UInt64) :
    getLe (putLe 4 (size.toNat / 2 ^ 32)) * 2 ^ 32 + getLe (putLe 4 (size.toNat % 2 ^ 32)) =
      size.toNat := by
  have hlt := size.toNat_lt
  rw [getLe_putLe, getLe_putLe]
  omega

theorem parsePerm_unix (attributes : Nat) (perm : UInt32) :
    parsePerm true attributes (getLe (putLe 4 perm.toNat) % 2 ^ 16) = perm.toNat % 2 ^ 16 := by
  have hlt := perm.toNat_lt
  rw [parsePerm, if_pos rfl, getLe_putLe]
  omega

theorem parse_asBin (hf : f.Fits) {bin : Bytes} (h : f.asBin = some bin) (rest : Bytes) :
    parseFileDescriptor (bin ++ rest) connId = .ok (described connId f, rest) := by
  have hlen := length_nameBytes hf
  rw [LocalFileEntry.asBin, if_neg (by omega)] at h
  cases h
  obtain ⟨k, hname⟩ := decode_nameBytes f
  have hblock : (f.nameBytes ++ List.replicate (520 - f.nameBytes.length) 0).length = 520 := by
    rw [List.length_append, List.length_replicate]
    omega
  have htake : (f.nameBytes ++ (List.replicate (520 - f.nameBytes.length) 0 ++ rest)).take 520 =
      f.nameBytes ++ List.replicate (520 - f.nameBytes.length) 0 := by
    rw [← List.append_assoc]
    exact List.take_left' hblock
  have hdrop : (f.nameBytes ++ (List.replicate (520 - f.nameBytes.length) 0 ++ rest)).drop 520 =
      rest := by
    rw [← List.append_assoc]
    exact List.drop_left' hblock
  have hkind : (if f.attributes &&& 0x10 ≠ 0 then FileType.directory else .file) =
      if f.isDir = true then .directory else .file :=
    if_congr (directory_fileAttributes _ _ _ _ _ _).1 rfl rfl
  unfold parseFileDescriptor
  simp only [List.append_assoc, take_putLe, drop_putLe, drop_replicate_append, htake, hdrop, hname,
    getLe_flags, getLe_attributes, hkind, size_halves, parseName_padded]
  have hattributes : LocalFileEntry.flags &&& flagsFdAttributes ≠ 0 := by decide
  have hwrite : (LocalFileEntry.flags &&& flagsFdLastWrite != 0) = true := by decide
  have hunix : (LocalFileEntry.flags &&& flagsFdUnixMode != 0) = true := by decide
  rw [if_neg hattributes, hwrite, hunix, parseTime_win32Time, parsePerm_unix]
  rfl

/-! ## The list -/

theorem asBin_of_fits (hf : f.Fits) : ∃ bin, f.asBin = some bin := by
  have hlen := length_nameBytes hf
  exact ⟨_, by rw [LocalFileEntry.asBin, if_neg (by omega)]⟩

theorem mapM_asBin (connId : Int32) {files : List LocalFileEntry} (hfits : ∀ f ∈ files, f.Fits) :
    ∃ bins, files.mapM LocalFileEntry.asBin = some bins ∧
      bins.flatten.length = 592 * files.length ∧
      parseLoop connId files.length bins.flatten = .ok (files.map (described connId)) := by
  induction files with
  | nil => exact ⟨[], rfl, rfl, rfl⟩
  | cons f files ih =>
    obtain ⟨bin, hbin⟩ := asBin_of_fits (hfits f List.mem_cons_self)
    obtain ⟨bins, hbins, hlen, hparse⟩ := ih fun g hg => hfits g (List.mem_cons_of_mem f hg)
    refine ⟨bin :: bins, ?_, ?_, ?_⟩
    · rw [List.mapM_cons, hbin, hbins]
      rfl
    · rw [List.flatten_cons, List.length_append, length_asBin hbin, hlen, List.length_cons]
      omega
    · rw [List.length_cons, parseLoop, List.flatten_cons,
        parse_asBin (hfits f List.mem_cons_self) hbin]
      dsimp only
      rw [hparse]
      rfl

/-- What the reader makes of the list that the writer sends. -/
theorem parse_buildFileListPdu {files : List LocalFileEntry} (hfits : ∀ f ∈ files, f.Fits)
    (connId : Int32) :
    ∃ pdu, buildFileListPdu files = some pdu ∧ parseFileDescriptors pdu connId =
      if files.length < 2 ^ 32 then .ok (files.map (described connId))
      else .error (.invalidRequest "file descriptor request with invalid length") := by
  obtain ⟨bins, hbins, hlen, hparse⟩ := mapM_asBin connId hfits
  refine ⟨putLe 4 files.length ++ bins.flatten, by rw [buildFileListPdu, hbins]; rfl, ?_⟩
  have hcount : getLe (putLe 4 files.length) = files.length % 2 ^ 32 := getLe_putLe 4 _
  unfold parseFileDescriptors
  rw [if_neg (by rw [List.length_append, length_putLe]; omega)]
  simp only [take_putLe, drop_putLe, hcount, hlen]
  by_cases hsmall : files.length < 2 ^ 32
  · rw [if_pos hsmall, Nat.mod_eq_of_lt hsmall]
    by_cases hnil : files.length = 0
    · have hfiles := List.eq_nil_of_length_eq_zero hnil
      rw [if_pos ⟨by omega, hnil⟩, hfiles]
      rfl
    · rw [if_neg (by omega), if_neg (by omega), hparse]
  · have hmod : files.length % 2 ^ 32 < 2 ^ 32 := Nat.mod_lt _ (by decide)
    rw [if_neg hsmall, if_neg (by omega), if_pos (by omega)]

/-- The time lies between 1970 and 2500. -/
def LocalFileEntry.Dated (f : LocalFileEntry) : Prop :=
  0 ≤ f.lastWriteTime ∧ f.lastWriteTime < 16725225600 * 10 ^ 9

/-- The description is the one of the file: path, kind, size, the low 16 bits of the permissions,
    and the time rounded down to 100 ns. -/
structure Describes (f : LocalFileEntry) (d : FileDescription) : Prop where
  name : d.name = f.relativePath
  kind : d.kind = if f.isDir then .directory else .file
  size : d.size = f.size.toNat
  perm : d.perm = f.perm.toNat % 2 ^ 16
  time : (d.lastModified : Int) = f.lastWriteTime / 100 * 100

/-- The list comes back, file by file, with distinct paths. -/
def RoundTrips (files : List LocalFileEntry) (connId : Int32) : Prop :=
  ∃ pdu descs, buildFileListPdu files = some pdu ∧ parseFileDescriptors pdu connId = .ok descs ∧
    List.Forall₂ Describes files descs ∧ (descs.map (·.name)).Nodup

theorem map_backslash_eq_iff (s : List Char) :
    s.map (fun c => if c = '\\' then '/' else c) = s ↔ '\\' ∉ s := by
  constructor
  · intro heq hmem
    rw [← heq] at hmem
    obtain ⟨c, -, hc⟩ := List.mem_map.mp hmem
    split at hc
    · exact absurd hc (by decide)
    · contradiction
  · intro hno
    have hid : s.map (fun c => if c = '\\' then '/' else c) = s.map fun c => c := by
      refine List.map_congr_left fun c hc => if_neg ?_
      rintro rfl
      exact hno hc
    rw [hid, List.map_id']

theorem describes_iff (hdated : f.Dated) :
    Describes f (described connId f) ↔ '\\' ∉ f.relativePath.toList := by
  have hname : (described connId f).name = f.relativePath ↔ '\\' ∉ f.relativePath.toList := by
    rw [← map_backslash_eq_iff]
    constructor
    · intro heq
      have htext := congrArg String.toList heq
      rwa [described, String.toList_ofList] at htext
    · intro heq
      show String.ofList _ = _
      rw [heq, String.ofList_toList]
  constructor
  · exact fun h => hname.mp h.name
  · intro hno
    refine ⟨hname.mpr hno, rfl, rfl, rfl, ?_⟩
    obtain ⟨hlow, hhigh⟩ := hdated
    show ((f.lastWriteTime.toNat % 2 ^ 64 / 100 * 100 : Nat) : Int) = _
    omega

theorem forall₂_map_described {files : List LocalFileEntry} (hdated : ∀ f ∈ files, f.Dated) :
    List.Forall₂ Describes files (files.map (described connId)) ↔
      ∀ f ∈ files, '\\' ∉ f.relativePath.toList := by
  induction files with
  | nil => simp
  | cons f files ih =>
    rw [List.map_cons, List.forall₂_cons, describes_iff (hdated f List.mem_cons_self),
      ih fun g hg => hdated g (List.mem_cons_of_mem f hg), List.forall_mem_cons]

/-- A list of files with distinct paths comes back as it was precisely when no path has a
    backslash and the number of files fits into the counter. -/
theorem descriptors_round_trip_iff (files : List LocalFileEntry) (connId : Int32)
    (hdistinct : (files.map (·.relativePath)).Nodup) (hfits : ∀ f ∈ files, f.Fits)
    (hdated : ∀ f ∈ files, f.Dated) :
    RoundTrips files connId ↔
      files.length < 2 ^ 32 ∧ ∀ f ∈ files, '\\' ∉ f.relativePath.toList := by
  obtain ⟨pdu, hpdu, hparse⟩ := parse_buildFileListPdu hfits connId
  constructor
  · rintro ⟨pdu', descs, hpdu', hdescs, hall, -⟩
    obtain rfl : pdu = pdu' := Option.some.inj (hpdu.symm.trans hpdu')
    rw [hdescs] at hparse
    split at hparse
    · next hsmall =>
        cases hparse
        exact ⟨hsmall, (forall₂_map_described hdated).mp hall⟩
    · cases hparse
  · rintro ⟨hsmall, hno⟩
    rw [if_pos hsmall] at hparse
    refine ⟨pdu, _, hpdu, hparse, (forall₂_map_described hdated).mpr hno, ?_⟩
    have hnames : (files.map (described connId)).map (·.name) = files.map (·.relativePath) := by
      rw [List.map_map]
      refine List.map_congr_left fun f hf => ?_
      exact (describes_iff (hdated f hf)).mpr (hno f hf) |>.name
    rw [hnames]
    exact hdistinct

/-- An empty file of 2023 under a path. -/
def sampleEntry (relativePath : String) (noNul : '\x00' ∉ relativePath.toList) :
    LocalFileEntry where
  relativePath := relativePath
  size := 0
  lastWriteTime := 1700000000123456789
  isDir := false
  perm := 0o100644
  readOnly := false
  hidden := false
  system := false
  archive := false
  normal := true
  noNul := noNul

theorem sampleEntry_dated (p : String) (hp : '\x00' ∉ p.toList) : (sampleEntry p hp).Dated := by
  constructor
  · show (0 : Int) ≤ 1700000000123456789
    decide
  · show (1700000000123456789 : Int) < 16725225600 * 10 ^ 9
    decide

/-- A directory and a file in it. -/
def folder : List LocalFileEntry :=
  [{ sampleEntry "a" (by decide) with isDir := true, perm := 0o40755 },
    { sampleEntry "a/b" (by decide) with size := 5 }]

theorem descriptors_round_trip_folder : RoundTrips folder 1 := by
  refine (descriptors_round_trip_iff folder 1 (by decide) ?_ ?_).mpr ⟨by decide, ?_⟩
  · intro f hf
    unfold LocalFileEntry.Fits
    rcases List.mem_pair.mp hf with rfl | rfl
    · decide
    · decide
  · intro f hf
    rcases List.mem_pair.mp hf with rfl | rfl
    · exact sampleEntry_dated "a" (by decide)
    · exact sampleEntry_dated "a/b" (by decide)
  · intro f hf
    rcases List.mem_pair.mp hf with rfl | rfl
    · decide
    · decide

/-- A file `a\b` and a file `b` in the directory `a`: the reader sees `a/b` twice. -/
def backslashed : List LocalFileEntry :=
  [sampleEntry "a\\b" (by decide), sampleEntry "a/b" (by decide)]

theorem backslash_becomes_slash :
    ¬ ((backslashed.map (·.relativePath)).Nodup → (∀ f ∈ backslashed, f.Fits) →
        (∀ f ∈ backslashed, f.Dated) → RoundTrips backslashed 1) := by
  intro h
  have hfits : ∀ f ∈ backslashed, f.Fits := by
    intro f hf
    unfold LocalFileEntry.Fits
    rcases List.mem_pair.mp hf with rfl | rfl
    · decide
    · decide
  have hdated : ∀ f ∈ backslashed, f.Dated := by
    intro f hf
    rcases List.mem_pair.mp hf with rfl | rfl
    · exact sampleEntry_dated _ _
    · exact sampleEntry_dated _ _
  obtain ⟨pdu, descs, hpdu, hdescs, -, hnodup⟩ := h (by decide) hfits hdated
  obtain ⟨pdu', hpdu', hparse⟩ := parse_buildFileListPdu hfits 1
  obtain rfl : pdu = pdu' := Option.some.inj (hpdu.symm.trans hpdu')
  rw [hdescs, if_pos (by decide)] at hparse
  cases hparse
  exact absurd hnodup (by decide)

end Clip
end LuodaRemote
