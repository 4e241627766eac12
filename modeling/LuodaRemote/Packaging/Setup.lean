/-
  Setting up the portable package: its files are unpacked into a directory named by the package,
  checked there, and a marker is written by which the next start knows that they are.

  The marker is a file of the same directory, `meta.toml`. It is written after the files were
  checked, so a packaged file that is this file is overwritten and not looked at again: it is then
  not what was packaged, and the next start unpacks anew. `setup_installs_iff` says that nothing
  else stands between the package and the disk, whatever was there before.

  A disk is what the files hold; which paths name the same file is up to the host, and so is
  whether directories can be made and files be written. What is on disk can be read. That stale
  processes of the package are ended first is left out.

  Source: `setup` of `libs/portable/src/main.rs`; `BinaryData::write_to_file`,
  `BinaryReader::package_id` and `files_match` of `libs/portable/src/bin_reader.rs`;
  `libs/portable/src/runtime_layout.rs`.
-/
import LuodaRemote.Packaging.Format
import LuodaRemote.Lib.Digest

namespace LuodaRemote

open Lib

namespace Package

/-- What the files hold. -/
abbrev Files (κ : Type) := κ → Option (List UInt8)

structure PackageHost (κ : Type) where
  /-- Which file a path names, links followed. -/
  file : String → κ
  dataLocalDir : Option String
  /-- Why the directory of a path cannot be made. -/
  createDirError : String → Files κ → Option String
  /-- Why a file cannot be written, and the disk after that. -/
  writeError : String → List UInt8 → Files κ → Option (String × Files κ)
  /-- `brotli::Decompressor`. -/
  decompress : List UInt8 → Except String (List UInt8)
  md5 : List UInt8 → List UInt8

def appMetadataConfig : String := "meta.toml"

def appPrefix : String := "LDesk"

/-! ## The layout -/

/-- `Path::join`. -/
def join (dir path : String) : String :=
  if path.toList.head? = some '/' then path else dir ++ "/" ++ path

def runtimeDir (root packageId : String) : String := join (join root "runtime") packageId

def readyPrefix : String := "package_id = "

def readyMarker (packageId : String) : String := readyPrefix ++ packageId ++ "\n"

/-- `char::is_whitespace`. -/
def isWhitespace (c : Char) : Bool :=
  9 ≤ c.toNat && c.toNat ≤ 13 || c.toNat = 0x20 || c.toNat = 0x85 || c.toNat = 0xA0 ||
    c.toNat = 0x1680 || 0x2000 ≤ c.toNat && c.toNat ≤ 0x200A || c.toNat = 0x2028 ||
    c.toNat = 0x2029 || c.toNat = 0x202F || c.toNat = 0x205F || c.toNat = 0x3000

/-- `str::trim`. -/
def trim (s : String) : String :=
  String.ofList ((s.toList.dropWhile isWhitespace).reverse.dropWhile isWhitespace).reverse

def readyMarkerMatches (marker packageId : String) : Bool := trim marker = readyPrefix ++ packageId

/-! ## Setting up -/

section

variable {κ : Type} [DecidableEq κ] (h : PackageHost κ)

/-- `format!("{:x}", md5::compute(..))`. -/
def checksum (content : List UInt8) : String := lowerHex (h.md5 content)

def packageId (reader : BinaryReader) : String :=
  checksum h (reader.files.flatMap (fun file => file.path.toUTF8.toList ++ file.md5Code) ++
    reader.exe.toUTF8.toList)

/-- `fs::write`. -/
def write (path : String) (content : List UInt8) (d : Files κ) : Except String Unit × Files κ :=
  match h.writeError path content d with
  | some (error, d) => (.error error, d)
  | none => (.ok (), Function.update d (h.file path) (some content))

/-- `fs::read_to_string(..).unwrap_or_default()`. -/
def readToString (path : String) (d : Files κ) : String :=
  match d (h.file path) with
  | some content => (String.fromUTF8? ⟨content.toArray⟩).getD ""
  | none => ""

def matchesFile (dir : String) (d : Files κ) (file : BinaryData) : Bool :=
  match d (h.file (join dir file.path)) with
  | some content => checksum h content = fromUtf8Lossy file.md5Code
  | none => false

def filesMatch (reader : BinaryReader) (dir : String) (d : Files κ) : Bool :=
  reader.files.all (matchesFile h dir d)

def writeToFile (dir : String) (file : BinaryData) (d : Files κ) :
    Except String Unit × Files κ :=
  match h.createDirError (join dir file.path) d with
  | some error => (.error error, d)
  | none =>
    if matchesFile h dir d file then (.ok (), d)
    else
      match h.decompress file.raw with
      | .error error => (.error error, d)
      | .ok content =>
        if checksum h content ≠ fromUtf8Lossy file.md5Code then
          (.error ("embedded file checksum mismatch: " ++ file.path), d)
        else write h (join dir file.path) content d

/-- The loop over the files. -/
def extract (dir : String) : List BinaryData → Files κ → Except String Unit × Files κ
  | [], d => (.ok (), d)
  | file :: files, d =>
    match writeToFile h dir file d with
    | (.error error, d) => (.error ("failed to extract " ++ file.path ++ ": " ++ error), d)
    | (.ok _, d) => extract dir files d

def rootDir (dir : Option String) : Option String :=
  match dir with
  | some dir => some dir
  | none => h.dataLocalDir.map fun dir => join dir appPrefix

/-- The files are there, and the marker says so. -/
def isReady (reader : BinaryReader) (dir : String) (d : Files κ) : Bool :=
  readyMarkerMatches (readToString h (join dir appMetadataConfig) d) (packageId h reader) &&
    filesMatch h reader dir d

/-- The path of the executable, or the message with which there is none. -/
def setup (reader : BinaryReader) (dir : Option String) (d : Files κ) :
    Except String String × Files κ :=
  match rootDir h dir with
  | none => (.error "not found data local dir", d)
  | some root =>
    let dir := runtimeDir root (packageId h reader)
    if isReady h reader dir d then (.ok (join dir reader.exe), d)
    else
      match extract h dir reader.files d with
      | (.error error, d) => (.error error, d)
      | (.ok _, d) =>
        if !filesMatch h reader dir d then (.error ("runtime verification failed: " ++ dir), d)
        else
          match write h (join dir appMetadataConfig)
              (readyMarker (packageId h reader)).toUTF8.toList d with
          | (.error error, d) => (.error ("failed to mark runtime ready: " ++ error), d)
          | (.ok _, d) => (.ok (join dir reader.exe), d)

end

/-! ## The marker -/

theorem not_isWhitespace_digitChar {n : Nat} (hn : n < 16) : isWhitespace n.digitChar = false := by
  have hall : ∀ i : Fin 16, isWhitespace i.val.digitChar = false := by decide
  exact hall ⟨n, hn⟩

/-- Of a text between two characters that are no spaces, only what follows it is cut off. -/
theorem trim_newline {c : Char} {cs : List Char} (hc : isWhitespace c = false)
    (hlast : ∀ l ∈ (c :: cs).getLast?, isWhitespace l = false) :
    trim (String.ofList (c :: cs ++ ['\n'])) = String.ofList (c :: cs) := by
  have hfront : (c :: cs ++ ['\n']).dropWhile isWhitespace = c :: cs ++ ['\n'] := by
    rw [List.cons_append, List.dropWhile_cons, hc]
    rfl
  have hback : ((c :: cs ++ ['\n']).reverse).dropWhile isWhitespace = (c :: cs).reverse := by
    rw [List.reverse_append, List.reverse_singleton, List.singleton_append, List.dropWhile_cons,
      show isWhitespace '\n' = true from rfl, if_pos rfl]
    cases hrev : (c :: cs).reverse with
    | nil => rfl
    | cons l ls =>
      have hl : isWhitespace l = false := by
        refine hlast l ?_
        rw [← List.head?_reverse, hrev]
        rfl
      rw [List.dropWhile_cons, hl]
      rfl
  unfold trim
  rw [String.toList_ofList, hfront, hback, List.reverse_reverse]

variable {κ : Type} {h : PackageHost κ}

theorem readyMarker_matches (hmd5 : CollisionFree h.md5) (reader : BinaryReader) :
    readyMarkerMatches (readyMarker (packageId h reader)) (packageId h reader) = true := by
  have hid : (packageId h reader).toList ≠ [] := by
    unfold packageId checksum
    generalize reader.files.flatMap _ ++ _ = input
    intro hnil
    cases hdigest : h.md5 input with
    | nil => exact hmd5.nonempty input hdigest
    | cons b bs =>
      rw [hdigest] at hnil
      unfold lowerHex at hnil
      rw [String.toList_ofList] at hnil
      cases hnil
  have hlast : ∀ l ∈ (readyPrefix.toList ++ (packageId h reader).toList).getLast?,
      isWhitespace l = false := by
    intro l hl
    rw [List.getLast?_append_of_ne_nil _ hid] at hl
    obtain ⟨n, hn, rfl⟩ := mem_lowerHex (List.mem_of_getLast? hl)
    exact not_isWhitespace_digitChar hn
  unfold readyMarkerMatches
  refine decide_eq_true ?_
  have hmarker : readyMarker (packageId h reader) =
      String.ofList (readyPrefix.toList ++ (packageId h reader).toList ++ ['\n']) := by
    unfold readyMarker
    rw [String.ofList_append, String.ofList_append, String.ofList_toList, String.ofList_toList]
  rw [hmarker]
  refine (trim_newline rfl hlast).trans ?_
  show String.ofList (readyPrefix.toList ++ (packageId h reader).toList) = _
  rw [String.ofList_append, String.ofList_toList, String.ofList_toList]

/-! ## What setup leaves on disk -/

/-- The file holds the one content that has the packaged checksum. -/
def OnDisk (h : PackageHost κ) (dir : String) (d : Files κ) (file : BinaryData) : Prop :=
  ∃ content, d (h.file (join dir file.path)) = some content ∧
    ∀ c, checksum h c = fromUtf8Lossy file.md5Code ↔ c = content

theorem checksum_injective (hmd5 : CollisionFree h.md5) {c c' : List UInt8}
    (heq : checksum h c = checksum h c') : c = c' := hmd5.injective (lowerHex_injective heq)

theorem onDisk_iff (hmd5 : CollisionFree h.md5) (dir : String) (d : Files κ) (file : BinaryData) :
    OnDisk h dir d file ↔ matchesFile h dir d file = true := by
  unfold matchesFile
  constructor
  · rintro ⟨content, hd, honly⟩
    rw [hd]
    exact decide_eq_true ((honly content).mpr rfl)
  · intro hmatch
    cases hd : d (h.file (join dir file.path)) with
    | none =>
      rw [hd] at hmatch
      cases hmatch
    | some content =>
      rw [hd] at hmatch
      have hsum := of_decide_eq_true hmatch
      refine ⟨content, hd, fun c => ⟨fun hc => ?_, fun hc => hc ▸ hsum⟩⟩
      exact checksum_injective hmd5 (hc.trans hsum.symm)

theorem filesMatch_iff (hmd5 : CollisionFree h.md5) (reader : BinaryReader) (dir : String)
    (d : Files κ) :
    filesMatch h reader dir d = true ↔ ∀ file ∈ reader.files, OnDisk h dir d file := by
  unfold filesMatch
  rw [List.all_eq_true]
  exact forall₂_congr fun file _ => (onDisk_iff hmd5 dir d file).symm

/-- What was checked with the marker written beside it is ready. -/
theorem isReady_marked (hmd5 : CollisionFree h.md5) {reader : BinaryReader} {dir : String}
    {d : Files κ}
    (hmarker : d (h.file (join dir appMetadataConfig)) =
      some (readyMarker (packageId h reader)).toUTF8.toList)
    (hfiles : ∀ file ∈ reader.files, OnDisk h dir d file) : isReady h reader dir d = true := by
  have hread : readToString h (join dir appMetadataConfig) d =
      readyMarker (packageId h reader) := by
    unfold readToString
    rw [hmarker]
    dsimp only
    rw [fromUTF8_utf8]
    rfl
  unfold isReady
  rw [hread, readyMarker_matches hmd5, (filesMatch_iff hmd5 reader dir d).mpr hfiles]
  rfl

variable [DecidableEq κ]

/-- A run that returns a path found the files there, or checked them and then wrote the marker. -/
theorem setup_cases {reader : BinaryReader} {dir : Option String} {d d' : Files κ} {path : String}
    (hsetup : setup h reader dir d = (.ok path, d')) :
    ∃ root, rootDir h dir = some root ∧
      path = join (runtimeDir root (packageId h reader)) reader.exe ∧
      (isReady h reader (runtimeDir root (packageId h reader)) d = true ∧ d' = d ∨
        ∃ d₁, filesMatch h reader (runtimeDir root (packageId h reader)) d₁ = true ∧
          d' = Function.update d₁
            (h.file (join (runtimeDir root (packageId h reader)) appMetadataConfig))
            (some (readyMarker (packageId h reader)).toUTF8.toList)) := by
  unfold setup at hsetup
  cases hroot : rootDir h dir with
  | none =>
    rw [hroot] at hsetup
    cases hsetup
  | some root =>
    rw [hroot] at hsetup
    dsimp only at hsetup
    refine ⟨root, rfl, ?_⟩
    split at hsetup
    · rename_i hready
      cases hsetup
      exact ⟨rfl, Or.inl ⟨hready, rfl⟩⟩
    · split at hsetup
      · cases hsetup
      · rename_i d₁ _
        split at hsetup
        · cases hsetup
        · rename_i hmatch
          unfold write at hsetup
          split at hsetup
          · rename_i hwrite
            split at hwrite
            · cases hsetup
            · cases hwrite
          · rename_i hwrite
            split at hwrite
            · cases hwrite
            · cases hwrite
              cases hsetup
              refine ⟨rfl, Or.inr ⟨d₁, ?_, rfl⟩⟩
              rw [Bool.not_eq_true, Bool.not_eq_false'] at hmatch
              exact hmatch

/-- Where the files are there and the marker says so, nothing is done. -/
theorem setup_of_isReady {reader : BinaryReader} {dir : Option String} {d : Files κ} {root : String}
    (hroot : rootDir h dir = some root)
    (hready : isReady h reader (runtimeDir root (packageId h reader)) d = true) :
    setup h reader dir d = (.ok (join (runtimeDir root (packageId h reader)) reader.exe), d) := by
  unfold setup
  rw [hroot]
  exact if_pos hready

/-- Every packaged file is on disk, and another run finds that so and changes nothing. -/
structure Installed (h : PackageHost κ) (reader : BinaryReader) (dir : Option String)
    (path : String) (d : Files κ) : Prop where
  onDisk : ∀ root, rootDir h dir = some root → ∀ file ∈ reader.files,
    OnDisk h (runtimeDir root (packageId h reader)) d file
  again : setup h reader dir d = (.ok path, d)

/-- The files are there already, or none of them is the marker, but for one that has its
    checksum. -/
def MarkerApart (h : PackageHost κ) (reader : BinaryReader) (dir : Option String) (d : Files κ) :
    Prop :=
  ∀ root, rootDir h dir = some root →
    isReady h reader (runtimeDir root (packageId h reader)) d = true ∨
    ∀ file ∈ reader.files,
      h.file (join (runtimeDir root (packageId h reader)) file.path) =
        h.file (join (runtimeDir root (packageId h reader)) appMetadataConfig) →
      checksum h (readyMarker (packageId h reader)).toUTF8.toList = fromUtf8Lossy file.md5Code

theorem installed_iff (hmd5 : CollisionFree h.md5) {reader : BinaryReader} {dir : Option String}
    {d d' : Files κ} {path : String} (hsetup : setup h reader dir d = (.ok path, d')) :
    Installed h reader dir path d' ↔ MarkerApart h reader dir d := by
  obtain ⟨root, hroot, rfl, hcase⟩ := setup_cases hsetup
  have hof : ∀ root', rootDir h dir = some root' → root' = root := by
    intro root' hroot'
    exact Option.some.inj (hroot'.symm.trans hroot)
  constructor
  · intro hinst root' hroot'
    rw [hof root' hroot']
    rcases hcase with ⟨hready, _⟩ | ⟨d₁, _, rfl⟩
    · exact Or.inl hready
    · refine Or.inr fun file hfile hsame => ?_
      obtain ⟨content, hcontent, honly⟩ := hinst.onDisk root hroot file hfile
      rw [hsame, Function.update_self] at hcontent
      rw [Option.some.inj hcontent]
      exact (honly content).mpr rfl
  · intro happart
    have hready : isReady h reader (runtimeDir root (packageId h reader)) d' = true := by
      rcases hcase with ⟨hready, rfl⟩ | ⟨d₁, hmatch, hd'⟩
      · exact hready
      · rcases happart root hroot with hready | happart
        · -- the run wrote nothing
          cases (setup_of_isReady hroot hready).symm.trans hsetup
          exact hready
        · have hfiles := (filesMatch_iff hmd5 reader _ d₁).mp hmatch
          rw [hd']
          refine isReady_marked hmd5 (Function.update_self _ _ _) fun file hfile => ?_
          by_cases hsame : h.file (join (runtimeDir root (packageId h reader)) file.path) =
              h.file (join (runtimeDir root (packageId h reader)) appMetadataConfig)
          · have hsum := happart file hfile hsame
            refine ⟨_, by rw [hsame]; exact Function.update_self _ _ _, fun c => ⟨fun hc => ?_,
              fun hc => ?_⟩⟩
            · exact checksum_injective hmd5 (hc.trans hsum.symm)
            · rw [hc]
              exact hsum
          · obtain ⟨content, hcontent, honly⟩ := hfiles file hfile
            exact ⟨content, (Function.update_of_ne hsame _ _).trans hcontent, honly⟩
    refine ⟨fun root' hroot' => ?_, setup_of_isReady hroot hready⟩
    rw [hof root' hroot']
    exact (filesMatch_iff hmd5 reader _ d').mp (Bool.and_eq_true_iff.mp hready).2

/-- From the table that is packed to the files on disk: the reader finds the table, and what
    `setup` says is set up is so, now and at the next start, precisely if the marker is written
    beside the files. -/
theorem setup_installs_iff (hmd5 : CollisionFree h.md5) {table : List BinaryData}
    (htable : ∀ file ∈ table, Packable file) (exe : String) :
    ∃ data reader, writePackageMetadata table exe = some data ∧ read data = some reader ∧
      reader.files = table ∧ reader.exe = exe ∧
      ∀ dir d path d', setup h reader dir d = (.ok path, d') →
        (Installed h reader dir path d' ↔ MarkerApart h reader dir d) := by
  obtain ⟨data, hwrite, hread⟩ := read_writePackageMetadata htable exe
  refine ⟨data, ⟨table, exe⟩, hwrite, hread, rfl, rfl, fun dir d path d' hsetup => ?_⟩
  exact installed_iff hmd5 hsetup

/-! ## Packages of small files -/

/-- The files of a disk without links, by the components of their paths. -/
def components (path : String) : List (List Char) :=
  (path.toList.splitOn '/').filter (· ≠ ['.'])

/-- Streams of Brotli and what is in them: nothing, `hi` and `x`. -/
def streams : List (List UInt8 × List UInt8) :=
  [([0x06], []), ([0x10, 0, 0x10, 104, 105, 0x03], [104, 105]), ([0, 0, 0x10, 120, 0x03], [120])]

/-- A host on which everything works, with the digests of the texts that come up. -/
def plainHost (digests : List (List UInt8 × List UInt8)) : PackageHost (List (List Char)) where
  file := components
  dataLocalDir := none
  createDirError := fun _ _ => none
  writeError := fun _ _ _ => none
  decompress := fun raw => (streams.lookup raw).elim (.error "Invalid Data") .ok
  md5 := Digest.ofTable digests

/-- The table entry of an empty file. -/
def emptyFile (path : String) : BinaryData :=
  ⟨"d41d8cd98f00b204e9800998ecf8427e".toUTF8.toList, [0x06], path⟩

/-- MD5 of nothing, of the table with the one file `./meta.toml`, and of the marker of that
    package. -/
def digestsOfMeta : List (List UInt8 × List UInt8) :=
  [([], [212, 29, 140, 217, 143, 0, 178, 4, 233, 128, 9, 152, 236, 248, 66, 126]),
    ("./meta.tomld41d8cd98f00b204e9800998ecf8427e./a".toUTF8.toList,
      [31, 136, 203, 247, 13, 230, 218, 66, 124, 108, 33, 103, 49, 131, 55, 34]),
    ("package_id = 1f88cbf70de6da427c6c216731833722\n".toUTF8.toList,
      [225, 62, 234, 31, 193, 117, 212, 204, 116, 118, 160, 52, 120, 73, 151, 249])]

/-- `./a` with `hi` in it, and `./lib/b` with `x`. -/
def twoFiles : List BinaryData :=
  [⟨"49f68a5c8493ec2c0bf489821c21fc3b".toUTF8.toList, [0x10, 0, 0x10, 104, 105, 0x03], "./a"⟩,
    ⟨"9dd4e461268c8034f5c8564e155c67a6".toUTF8.toList, [0, 0, 0x10, 120, 0x03], "./lib/b"⟩]

/-- MD5 of the two files, of their table, and of the marker. -/
def digestsOfTwo : List (List UInt8 × List UInt8) :=
  [([104, 105], [73, 246, 138, 92, 132, 147, 236, 44, 11, 244, 137, 130, 28, 33, 252, 59]),
    ([120], [157, 212, 228, 97, 38, 140, 128, 52, 245, 200, 86, 78, 21, 92, 103, 166]),
    ("./a49f68a5c8493ec2c0bf489821c21fc3b./lib/b9dd4e461268c8034f5c8564e155c67a6./a".toUTF8.toList,
      [4, 157, 120, 134, 175, 61, 40, 224, 4, 116, 192, 38, 213, 221, 136, 134]),
    ("package_id = 049d7886af3d28e00474c026d5dd8886\n".toUTF8.toList,
      [197, 134, 48, 131, 194, 177, 237, 99, 161, 88, 49, 163, 255, 132, 237, 237])]

theorem setup_installs_two_files :
    Installed (plainHost digestsOfTwo) ⟨twoFiles, "./a"⟩ (some "r")
      "r/runtime/049d7886af3d28e00474c026d5dd8886/./a"
      (setup (plainHost digestsOfTwo) ⟨twoFiles, "./a"⟩ (some "r") fun _ => none).2 := by
  have hmd5 : CollisionFree (plainHost digestsOfTwo).md5 :=
    Digest.collisionFree_ofTable (by decide +kernel) (by decide +kernel)
  have htable : ∀ file ∈ twoFiles, Packable file := by
    intro file hfile
    rcases List.mem_pair.mp hfile with rfl | rfl
    · exact ⟨by decide +kernel, by decide +kernel, by decide +kernel⟩
    · exact ⟨by decide +kernel, by decide +kernel, by decide +kernel⟩
  obtain ⟨_, ⟨files, exe⟩, _, _, rfl, rfl, hall⟩ := setup_installs_iff hmd5 htable "./a"
  have hsetup : (setup (plainHost digestsOfTwo) ⟨twoFiles, "./a"⟩ (some "r")
      fun _ => none).1 = .ok "r/runtime/049d7886af3d28e00474c026d5dd8886/./a" := by
    decide +kernel
  refine (hall (some "r") (fun _ => none) _ _ (Prod.ext hsetup rfl)).mpr fun root hroot => ?_
  cases hroot
  refine Or.inr fun file hfile hsame => absurd hsame ?_
  rcases List.mem_pair.mp hfile with rfl | rfl
  · decide +kernel
  · decide +kernel

/-- A package whose file is called like the marker is set up, and holds the marker then. -/
theorem marker_overwrites_file :
    let h := plainHost digestsOfMeta
    let reader : BinaryReader := ⟨[emptyFile "./meta.toml"], "./a"⟩
    CollisionFree h.md5 ∧ (∀ file ∈ reader.files, Packable file) ∧
      ∃ path d', setup h reader (some "r") (fun _ => none) = (.ok path, d') ∧
        ¬ Installed h reader (some "r") path d' := by
  have hmd5 : CollisionFree (plainHost digestsOfMeta).md5 :=
    Digest.collisionFree_ofTable (by decide +kernel) (by decide +kernel)
  refine ⟨hmd5, ?_, ?_⟩
  · intro file hfile
    rw [List.mem_singleton.mp hfile]
    exact ⟨by decide +kernel, by decide +kernel, by decide +kernel⟩
  · have hsetup : (setup (plainHost digestsOfMeta) ⟨[emptyFile "./meta.toml"], "./a"⟩ (some "r")
        fun _ => none).1 = .ok "r/runtime/1f88cbf70de6da427c6c216731833722/./a" := by
      decide +kernel
    refine ⟨_, _, Prod.ext hsetup rfl, fun hinst => ?_⟩
    rcases (installed_iff hmd5 (Prod.ext hsetup rfl)).mp hinst "r" rfl with hready | happart
    · cases hready
    · have hsum := happart _ (List.mem_singleton_self _) (by decide +kernel)
      revert hsum
      decide +kernel

end Package

end LuodaRemote
