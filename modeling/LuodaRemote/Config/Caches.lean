/-
  The caches of the address book and of the groups (`Ab` and `Group` of
  `libs/hbb_common/src/config.rs`, with `libs/hbb_common/src/compress.rs`).

  A cache is a file with compressed and sealed JSON. `store` makes the file empty before it knows
  whether there is anything to put in it; `load` removes a file that it cannot read.
  `all_or_nothing_iff` says which stores a cache survives.

  `parse` is `serde_json::from_str`.
-/
import LuodaRemote.Config.Secrets

namespace LuodaRemote
open Lib

namespace Caches

/-- The machine, with `zstd`. -/
structure CacheHost extends CryptHost where
  zstdCompress : Bytes → Bytes
  /-- `zstd::decode_all`. -/
  decodeAll : Bytes → Option Bytes
  decodeAll_zstdCompress : ∀ data, decodeAll (zstdCompress data) = some data
  /-- Of nothing, nothing comes. -/
  decodeAll_nil : ∀ data ∈ decodeAll [], data = []
  /-- What has no tag does not open. -/
  openBox_short : ∀ boxed nonce key, boxed.length < CryptHost.macBytes →
    box.openBox boxed nonce key = none
  configPath : String → String
  appName : String

/-- The type of a cache, with its place and its JSON. -/
structure Cache (α : Type*) where
  suffix : String
  parse : String → Option α
  parse_empty : parse "" = none
  default : α

/-- The files with their contents. -/
abbrev Files := String → Option Bytes

/-- What fails in a `store`. -/
structure StoreFaults where
  create : Bool := false
  compress : Bool := false
  crypt : Bool := false
  /-- `write_all` stops after so many bytes. -/
  write : Option Nat := none
deriving DecidableEq

/-- What fails in a `load`. -/
structure LoadFaults where
  openFile : Bool := false
  read : Bool := false
  crypt : Bool := false
  remove : Bool := false
deriving DecidableEq

variable {α : Type*}

/-- `compress`; a compressor that fails gives nothing. -/
def compress (h : CacheHost) (fails : Bool) (data : Bytes) : Bytes :=
  if fails then [] else h.zstdCompress data

def decompress (h : CacheHost) (data : Bytes) : Bytes := (h.decodeAll data).getD []

/-- The most that `decompress` is good for. -/
def maxLen : Nat := 64 * 1024 * 1024

namespace Cache

variable (c : Cache α) (h : CacheHost)

def path : String := h.configPath (h.appName ++ c.suffix)

/-- What `store` puts in the file that it made. -/
def written (faults : StoreFaults) (json : String) : Bytes :=
  let data := compress h faults.compress (asBytes json)
  if maxLen < data.length then []
  else
    match (if faults.crypt then none else h.symmetricCrypt data true) with
    | none => []
    | some sealed => match faults.write with
      | none => sealed
      | some n => sealed.take n

def store (faults : StoreFaults) (json : String) (files : Files) : Files :=
  if faults.create then files
  else Function.update files (c.path h) (some (written h faults json))

/-- What a file says, if it can be read. -/
def value (content : Bytes) : Option α :=
  (h.symmetricCrypt content false).bind fun data =>
    c.parse (fromUtf8Lossy (decompress h data))

/-- What `load` gives, whether it removes the file, and the files after it. -/
structure Loaded (α : Type*) where
  value : α
  removes : Bool
  files : Files

def load (faults : LoadFaults) (files : Files) : Loaded α :=
  let content := if faults.openFile || faults.read then none else files (c.path h)
  match content.bind fun content => if faults.crypt then none else c.value h content with
  | some a => ⟨a, false, files⟩
  | none => ⟨c.default, true,
      if faults.remove then files else Function.update files (c.path h) none⟩

end Cache

section Types

variable (parse : String → Option α) (parse_empty : parse "" = none) (default : α)

/-- `Ab`. -/
def ab : Cache α := ⟨"_ab", parse, parse_empty, default⟩

/-- `Group`. -/
def group : Cache α := ⟨"_group", parse, parse_empty, default⟩

end Types

/-- Nothing fails that has to do with reading. -/
def LoadFaults.Reads (faults : LoadFaults) : Prop :=
  faults.openFile = false ∧ faults.read = false ∧ faults.crypt = false

instance (faults : LoadFaults) : Decidable faults.Reads :=
  inferInstanceAs (Decidable (_ ∧ _))

namespace Cache

/-- What the files say of the cache. -/
def kept (c : Cache α) (h : CacheHost) (files : Files) : Option α :=
  (files (c.path h)).bind (c.value h)

/-- The whole of the JSON is stored. -/
structure Stores (h : CacheHost) (faults : StoreFaults) (json : String) : Prop where
  compress : faults.compress = false
  size : (h.zstdCompress (asBytes json)).length ≤ maxLen
  crypt : faults.crypt = false
  write : faults.write = none

/-- The JSON as it is sealed. -/
def box (h : CacheHost) (faults : StoreFaults) (json : String) : Bytes :=
  h.box.sealBox (compress h faults.compress (asBytes json)) CryptHost.zeroNonce
    (CryptHost.keyOf h.uuid)

/-- What a load gives after a store: the new value or the old one, and the default only where there
    was no value. -/
def AllOrNothing (c : Cache α) (h : CacheHost) (json : String) (files : Files)
    (loaded : Loaded α) : Prop :=
  loaded.removes = false ∧
      (c.parse json = some loaded.value ∨ c.kept h files = some loaded.value) ∨
    c.kept h files = none ∧ loaded.value = c.default

variable {c : Cache α} {h : CacheHost} {faults : StoreFaults} {json : String} {files : Files}

/-! ## What a file says -/

theorem decompress_nil : decompress h [] = [] := by
  unfold decompress
  cases hnil : h.decodeAll [] with
  | none => rfl
  | some data => exact h.decodeAll_nil data hnil

/-- What is not decrypted says nothing. -/
theorem value_none {content : Bytes} (hno : ∀ key ∈ h.keys,
    h.box.openBox content CryptHost.zeroNonce (CryptHost.keyOf key) = none) :
    c.value h content = none := by
  unfold value
  rw [CryptHost.symmetricCrypt_none hno]
  rfl

/-- A file that was made empty says nothing. -/
theorem value_nil : c.value h [] = none :=
  value_none fun _ _ => h.openBox_short [] _ _ (by decide)

theorem value_sealed (data : Bytes) :
    c.value h (h.box.sealBox data CryptHost.zeroNonce (CryptHost.keyOf h.uuid)) =
      c.parse (fromUtf8Lossy (decompress h data)) := by
  unfold value CryptHost.symmetricCrypt
  rw [if_neg (by decide), h.box.openBox_sealBox]
  rfl

/-- What comes of a compressor that failed is not JSON. -/
theorem value_uncompressed :
    c.value h (h.box.sealBox [] CryptHost.zeroNonce (CryptHost.keyOf h.uuid)) = none := by
  have hempty : fromUtf8Lossy [] = "" := rfl
  rw [value_sealed, decompress_nil, hempty, c.parse_empty]

theorem value_compressed :
    c.value h (h.box.sealBox (h.zstdCompress (asBytes json)) CryptHost.zeroNonce
      (CryptHost.keyOf h.uuid)) = c.parse json := by
  rw [value_sealed]
  unfold decompress
  rw [h.decodeAll_zstdCompress, Option.getD_some]
  exact congrArg c.parse (fromUtf8Lossy_utf8 json)

/-! ## What a store leaves -/

theorem kept_store_failed (hcreate : faults.create = true) :
    c.kept h (c.store h faults json files) = c.kept h files := by
  unfold store
  rw [if_pos hcreate]

theorem kept_store (hcreate : faults.create = false) :
    c.kept h (c.store h faults json files) = c.value h (written h faults json) := by
  unfold kept store
  rw [hcreate, if_neg (by decide), Function.update_self]
  rfl

theorem value_written (hstores : Stores h faults json) :
    c.value h (written h faults json) = c.parse json := by
  have hdata : compress h faults.compress (asBytes json) = h.zstdCompress (asBytes json) :=
    if_neg (by rw [hstores.compress]; decide)
  unfold written
  dsimp only
  rw [hdata, if_neg (Nat.not_lt.mpr hstores.size), hstores.crypt, hstores.write, if_neg (by decide)]
  exact value_compressed

/-- What is stored in part only says nothing. -/
theorem value_written_part (hstores : ¬ Stores h faults json)
    (hpart : ∀ n ∈ faults.write, ∀ key ∈ h.keys,
      h.box.openBox ((box h faults json).take n) CryptHost.zeroNonce (CryptHost.keyOf key) = none) :
    c.value h (written h faults json) = none := by
  unfold written
  dsimp only
  split
  · exact value_nil
  · next hsize =>
      cases hcrypt : faults.crypt with
      | true => exact value_nil
      | false =>
        cases hwrite : faults.write with
        | some n => exact value_none (hpart n hwrite)
        | none =>
          cases hcompress : faults.compress with
          | true => exact value_uncompressed
          | false =>
            rw [hcompress] at hsize
            exact absurd ⟨hcompress, Nat.not_lt.mp hsize, hcrypt, hwrite⟩ hstores

/-! ## What a load gives -/

section Load

variable {lf : LoadFaults}

theorem load_some (hreads : lf.Reads) {a : α} (ha : c.kept h files = some a) :
    c.load h lf files = ⟨a, false, files⟩ := by
  obtain ⟨hopen, hread, hcrypt⟩ := hreads
  unfold kept at ha
  unfold load
  rw [hopen, hread, hcrypt]
  simp only [Bool.or_self, Bool.false_eq_true, if_false]
  rw [ha]

theorem load_none (hno : lf.Reads → c.kept h files = none) :
    (c.load h lf files).removes = true ∧ (c.load h lf files).value = c.default := by
  have hcontent : ((if lf.openFile || lf.read then none else files (c.path h)).bind fun content =>
      if lf.crypt then none else c.value h content) = none := by
    split
    · rfl
    · next hopen =>
        rw [Bool.not_eq_true, Bool.or_eq_false_iff] at hopen
        cases hcrypt : lf.crypt with
        | true => cases files (c.path h) <;> rfl
        | false => exact hno ⟨hopen.1, hopen.2, hcrypt⟩
  unfold load
  dsimp only
  rw [hcontent]
  exact ⟨rfl, rfl⟩

/-- A load reads a value, or gives the default and removes the file. -/
theorem load_cases (c : Cache α) (h : CacheHost) (lf : LoadFaults) (files : Files) :
    (lf.Reads ∧ ∃ a, c.kept h files = some a ∧ c.load h lf files = ⟨a, false, files⟩) ∨
      (lf.Reads → c.kept h files = none) ∧ (c.load h lf files).removes = true ∧
        (c.load h lf files).value = c.default := by
  by_cases hreads : lf.Reads
  · cases hkept : c.kept h files with
    | some a => exact .inl ⟨hreads, a, rfl, load_some hreads hkept⟩
    | none => exact .inr ⟨fun _ => rfl, load_none fun _ => hkept⟩
  · exact .inr ⟨fun h => absurd h hreads, load_none fun h => absurd h hreads⟩

end Load

variable (c files) in
/-- What a store leaves: the old content, the JSON or nothing that says anything. -/
theorem kept_store_cases (hpart : ∀ n ∈ faults.write, ∀ key ∈ h.keys,
      h.box.openBox ((box h faults json).take n) CryptHost.zeroNonce (CryptHost.keyOf key) = none) :
    faults.create = true ∧ c.kept h (c.store h faults json files) = c.kept h files ∨
      Stores h faults json ∧ c.kept h (c.store h faults json files) = c.parse json ∨
      c.kept h (c.store h faults json files) = none := by
  cases hcreate : faults.create with
  | true => exact .inl ⟨rfl, kept_store_failed hcreate⟩
  | false =>
    rw [kept_store hcreate]
    by_cases hstores : Stores h faults json
    · exact .inr (.inl ⟨hstores, value_written hstores⟩)
    · exact .inr (.inr (value_written_part hstores hpart))

/-- A cache is stored all or nothing precisely if it was worth nothing before, or can be read
    and either was not touched or has all of a JSON that says something. (`hpart`: a part of a box
    does not open.) -/
theorem all_or_nothing_iff (c : Cache α) (h : CacheHost) (faults : StoreFaults) (lf : LoadFaults)
    (json : String) (files : Files)
    (hpart : ∀ n ∈ faults.write, ∀ key ∈ h.keys,
      h.box.openBox ((box h faults json).take n) CryptHost.zeroNonce (CryptHost.keyOf key) = none) :
    AllOrNothing c h json files (c.load h lf (c.store h faults json files)) ↔
      c.kept h files = none ∨
        lf.Reads ∧ (faults.create = true ∨ Stores h faults json ∧ (c.parse json).isSome) := by
  have hafter := kept_store_cases c files hpart
  have hload := load_cases c h lf (c.store h faults json files)
  constructor
  · intro hall
    rw [or_iff_not_imp_left]
    intro hold
    rcases hload with ⟨hreads, a, ha, -⟩ | ⟨-, hremoves, -⟩
    · refine ⟨hreads, ?_⟩
      rcases hafter with ⟨hcreate, -⟩ | ⟨hstores, hkept⟩ | hkept
      · exact .inl hcreate
      · exact .inr ⟨hstores, Option.isSome_iff_exists.mpr ⟨a, hkept.symm.trans ha⟩⟩
      · exact absurd (hkept.symm.trans ha) nofun
    · rcases hall with ⟨hkeeps, -⟩ | ⟨hnone, -⟩
      · exact absurd (hremoves.symm.trans hkeeps) nofun
      · exact absurd hnone hold
  · intro hcond
    rcases hload with ⟨-, a, ha, hload⟩ | ⟨hno, -, hdefault⟩
    · -- The file was read, so it has the JSON or what it had before.
      rw [hload]
      rcases hafter with ⟨-, hkept⟩ | ⟨-, hkept⟩ | hkept
      · exact .inl ⟨rfl, .inr (hkept.symm.trans ha)⟩
      · exact .inl ⟨rfl, .inl (hkept.symm.trans ha)⟩
      · exact absurd (hkept.symm.trans ha) nofun
    · refine .inr ⟨?_, hdefault⟩
      rcases hcond with hold | ⟨hreads, hcreate | ⟨hstores, hparse⟩⟩
      · exact hold
      · rw [← kept_store_failed hcreate]
        exact hno hreads
      · have hkept := hno hreads
        cases hcreate : faults.create with
        | true => rwa [kept_store_failed hcreate] at hkept
        | false =>
          rw [kept_store hcreate, value_written hstores] at hkept
          rw [hkept] at hparse
          cases hparse

/-! ## A machine -/

/-- What begins a frame of `zstd`. -/
def zstdMagic : Bytes := [0x28, 0xb5, 0x2f, 0xfd]

/-- A frame with the data as they are, which `zstd` makes of a few bytes. -/
def rawFrame (data : Bytes) : Bytes :=
  let n := data.length
  zstdMagic ++ [0x20, UInt8.ofNat n, UInt8.ofNat (n * 8 + 1), UInt8.ofNat (n / 32), 0] ++ data

def rawData (frame : Bytes) : Option Bytes :=
  if frame = [] then some []
  else if frame.take 4 = zstdMagic then some (frame.drop 9) else none

def cacheComputer : CacheHost where
  toCryptHost := .computer
  zstdCompress := rawFrame
  decodeAll := rawData
  decodeAll_zstdCompress _ := rfl
  decodeAll_nil _ hdata := (Option.some.inj hdata).symm
  openBox_short _ _ _ hshort := if_neg fun hopen => absurd hopen.1 (Nat.not_le.mpr hshort)
  configPath name := "/config/" ++ name
  appName := "App"

def oldJson : String := "\x7b\"access_token\":\"old\"\x7d"

def newJson : String := "\x7b\"access_token\":\"new\"\x7d"

/-- Address books of which only the token is of interest. -/
def tokens : Cache String := ab (fun s => [(oldJson, "old"), (newJson, "new")].lookup s) rfl ""

def oldFiles : Files := tokens.store cacheComputer {} oldJson fun _ => none

theorem kept_oldFiles : tokens.kept cacheComputer oldFiles = some "old" := by
  have hsize : (cacheComputer.zstdCompress (asBytes oldJson)).length ≤ maxLen := by
    have hold : (asBytes oldJson).length = 22 := by
      rw [asBytes, utf8_eq_flatMap]
      decide
    change (rawFrame (asBytes oldJson)).length ≤ maxLen
    unfold rawFrame
    rw [List.length_append, List.length_append, hold]
    decide
  unfold oldFiles
  rw [kept_store rfl, value_written ⟨rfl, hsize, rfl, rfl⟩]
  rfl

/-- The disk is full after three bytes. -/
theorem all_or_nothing_iff_full :
    AllOrNothing tokens cacheComputer newJson oldFiles (tokens.load cacheComputer {}
        (tokens.store cacheComputer { write := some 3 } newJson oldFiles)) ↔
      tokens.kept cacheComputer oldFiles = none ∨
        LoadFaults.Reads {} ∧ (false = true ∨
          Stores cacheComputer { write := some 3 } newJson ∧ (tokens.parse newJson).isSome) := by
  refine all_or_nothing_iff tokens cacheComputer { write := some 3 } {} newJson oldFiles ?_
  intro n hn key _
  cases hn
  refine cacheComputer.openBox_short _ _ _ ?_
  rw [List.length_take]
  exact Nat.lt_of_le_of_lt (Nat.min_le_left _ _) (by decide)

/-- A compressor that fails costs the address book that was there. -/
theorem failed_store_loses :
    tokens.kept cacheComputer oldFiles = some "old" ∧
      ¬ AllOrNothing tokens cacheComputer newJson oldFiles (tokens.load cacheComputer {}
        (tokens.store cacheComputer { compress := true } newJson oldFiles)) := by
  refine ⟨kept_oldFiles, fun hall => ?_⟩
  have hnone : tokens.kept cacheComputer
      (tokens.store cacheComputer { compress := true } newJson oldFiles) = none := by
    rw [kept_store rfl]
    exact value_written_part (fun hstores => absurd hstores.compress nofun) nofun
  have hload : _ ∧ (tokens.load cacheComputer {} (tokens.store cacheComputer
      { compress := true } newJson oldFiles)).value = tokens.default := load_none fun _ => hnone
  rcases hall with ⟨hkeeps, -⟩ | ⟨hkept, -⟩
  · exact absurd (hload.1.symm.trans hkeeps) nofun
  · exact absurd (kept_oldFiles.symm.trans hkept) nofun

end Cache

end Caches

end LuodaRemote
