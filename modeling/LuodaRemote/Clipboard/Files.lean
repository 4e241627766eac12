/-
  Files on the clipboard: the requests for a range of a file that `FuseServer::read_node`
  and `PasteTaskHandle::send_file_contents_request` build
  (`libs/clipboard/src/platform/unix/fuse/cs.rs`, `macos/paste_task.rs`) and how
  `read_file_contents` serves them (`serv_files.rs`, `local_file.rs`).

  A request carries the offset in two signed 32-bit fields. `rebuilt_offset` says what the
  serving side makes of them, and `serve_range_iff` when a request for a range gets its bytes.
  The files do not change and are readable or not throughout (`ClipFs`). The walk through the
  directories of the clipboard is left out: a list is made from the paths in the order of the
  walk. So are the attributes of a file that only its description holds.
-/
import LuodaRemote.Host
import LuodaRemote.Lib.Run

namespace LuodaRemote
open Lib

/-- The files a list is served from. -/
structure ClipFs where
  isDir : String → Bool
  isFile : String → Bool
  content : String → Bytes
  /-- What `metadata` says of the size of something that is not a file. -/
  otherLen : String → Nat
  /-- Why `File::open` fails, if it does. -/
  openError : String → Option String
  /-- Why reading the open file fails, if it does. -/
  readError : String → Option String
  /-- A size is an `off_t`. -/
  length_lt : ∀ p, (content p).length < 2 ^ 63

namespace ClipFs

def len (fs : ClipFs) (path : String) : Nat :=
  if fs.isDir path then fs.otherLen path else (fs.content path).length

def Readable (fs : ClipFs) (path : String) : Prop :=
  fs.openError path = none ∧ fs.readError path = none

end ClipFs

inductive CliprdrError where
  | fileError (path err : String)
  | invalidRequest (description : String)
  deriving DecidableEq

/-- The messages of `ClipboardFile` that are about the contents of files. -/
inductive ClipboardFile where
  | fileContentsRequest (streamId listIndex dwFlags nPositionLow nPositionHigh cbRequested : Int32)
  | fileContentsResponse (msgFlags streamId : Int32) (requestedData : Bytes)
  | files (files : List (String × Nat))
  deriving DecidableEq

/-- `LocalFile`: `handle` is the position of the open file. -/
structure LocalFile where
  path : String
  handle : Option Nat := none
  offset : Nat := 0
  size : Nat
  isDir : Bool
  deriving DecidableEq

namespace LocalFile

/-- `try_open`, of a path that is there. -/
def tryOpen (fs : ClipFs) (path : String) : LocalFile :=
  { path, size := fs.len path, isDir := fs.isDir path }

def loadHandle (fs : ClipFs) (f : LocalFile) : Except CliprdrError LocalFile :=
  if !f.isDir && f.handle.isNone then
    match fs.openError f.path, fs.readError f.path with
    | some err, _ => .error (.fileError f.path err)
    | none, some err => .error (.fileError f.path err)
    | none, none => .ok { f with handle := some 0 }
  else .ok f

/-- `BufReader::read_exact` at a position of the file. -/
def readExact (fs : ClipFs) (path : String) (pos len : Nat) : Except CliprdrError Bytes :=
  if len = 0 then .ok []
  else match fs.readError path with
    | some err => .error (.fileError path err)
    | none =>
      if pos + len ≤ (fs.content path).length then .ok (((fs.content path).drop pos).take len)
      else .error (.fileError path "failed to fill whole buffer")

/-- `read_exact_at`. After an error the file is left where the read stopped. -/
def readExactAt (fs : ClipFs) (len offset : Nat) (f : LocalFile) :
    Except CliprdrError Bytes × LocalFile :=
  match f.loadHandle fs with
  | .error e => (.error e, f)
  | .ok f =>
    match f.handle with
    | none => (.error (.fileError f.path "file handle not found"), f)
    | some pos =>
      let pos := if offset ≠ f.offset then offset else pos
      match readExact fs f.path pos len with
      | .error e => (.error e, { f with handle := some (max pos (fs.content f.path).length) })
      | .ok bytes =>
        let newOffset := offset + len
        -- The handle is given up at the end of the file.
        if f.size ≤ newOffset then (.ok bytes, { f with offset := 0, handle := none })
        else (.ok bytes, { f with offset := newOffset, handle := some (pos + len) })

end LocalFile

/-- `FileContentsRequest` of the serving side. -/
inductive ContentsRequest where
  | size (streamId : Int32) (fileIdx : Nat)
  | range (streamId : Int32) (fileIdx offset length : Nat)
  deriving DecidableEq

structure ClipFiles where
  fileList : List LocalFile
  firstFileIndex : Nat

namespace ClipFiles

/-- `usize::MAX`. -/
def usizeMax : Nat := 2 ^ 64 - 1

/-- `sync_files`, for the paths the walk comes to. -/
def syncFiles (fs : ClipFs) (paths : List String) : ClipFiles where
  fileList := paths.map (LocalFile.tryOpen fs)
  firstFileIndex := (paths.findIdx? fun p => !fs.isDir p).getD usizeMax

def getFilesForAudit (fs : ClipFs) (request : ContentsRequest) (c : ClipFiles) :
    Option ClipboardFile :=
  match request with
  | .range _ fileIdx offset _ =>
    if fileIdx = c.firstFileIndex ∧ offset = 0 then
      let files := (c.fileList.filter fun f => fs.isFile f.path).map fun f => (f.path, f.size)
      if files.isEmpty then none else some (.files files)
    else none
  | .size _ _ => none

def invalidIndex (fileIdx : Nat) (connId : Int32) : CliprdrError :=
  .invalidRequest ("invalid file index " ++ toString fileIdx ++ " requested from conn: " ++
    toString connId.toInt)

def invalidOffset (connId : Int32) : CliprdrError :=
  .invalidRequest ("invalid reading offset requested from conn: " ++ toString connId.toInt)

/-- The loop that loads the next file ahead of its request. -/
def hotReload (fs : ClipFs) : List LocalFile → Except CliprdrError Unit × List LocalFile
  | [] => (.ok (), [])
  | f :: rest =>
    if f.isDir then ((hotReload fs rest).1, f :: (hotReload fs rest).2)
    else match f.loadHandle fs with
      | .error e => (.error e, f :: rest)
      | .ok f => (.ok (), f :: rest)

/-- The end of `serve_file_contents`: the response goes out if the next file can be loaded. -/
def respond (fs : ClipFs) (fileIdx : Nat) (resp : ClipboardFile) (c : ClipFiles) :
    Except CliprdrError ClipboardFile × ClipFiles :=
  let tail := hotReload fs (c.fileList.drop (fileIdx + 1))
  (tail.1.map fun _ => resp, { c with fileList := c.fileList.take (fileIdx + 1) ++ tail.2 })

/-- `size.to_le_bytes()`. -/
def sizeBytes (size : Nat) : Bytes := (List.range 8).map fun i => UInt8.ofNat (size / 256 ^ i)

/-- How much of the range there is. The sum is one of `u64`. -/
def readSize (offset length size : Nat) : Nat :=
  if size < (offset + length) % 2 ^ 64 then size - offset else length

/-- `serve_file_contents`; `none` is the panic of a buffer that is too large. -/
def serveFileContents (fs : ClipFs) (connId : Int32) (request : ContentsRequest) (c : ClipFiles) :
    Option (Except CliprdrError ClipboardFile) × ClipFiles :=
  match request with
  | .size streamId fileIdx =>
    match c.fileList[fileIdx]? with
    | none => (some (.error (invalidIndex fileIdx connId)), c)
    | some file =>
      let r := c.respond fs fileIdx (.fileContentsResponse 1 streamId (sizeBytes file.size))
      (some r.1, r.2)
  | .range streamId fileIdx offset length =>
    match c.fileList[fileIdx]? with
    | none => (some (.error (invalidIndex fileIdx connId)), c)
    | some file =>
      if file.size < offset then (some (.error (invalidOffset connId)), c)
      else
        let size := readSize offset length file.size
        if 2 ^ 63 ≤ size then (none, c)
        else
          let r := file.readExactAt fs size offset
          let c := { c with fileList := c.fileList.set fileIdx r.2 }
          match r.1 with
          | .error e => (some (.error e), c)
          | .ok buf =>
            let r := c.respond fs fileIdx (.fileContentsResponse 1 streamId buf)
            (some r.1, r.2)

/-- `n as u64`, for a signed field. -/
def asU64 (n : Int32) : Nat := asUsize n.toInt

/-- What `read_file_contents` makes of the fields of a request. -/
def parseRequest (streamId listIndex dwFlags nPositionLow nPositionHigh cbRequested : Int32) :
    Option ContentsRequest :=
  if dwFlags = 0x1 then some (.size streamId (asUsize listIndex.toInt))
  else if dwFlags = 0x2 then
    some (.range streamId (asUsize listIndex.toInt)
      ((asU64 nPositionHigh <<< 32) % 2 ^ 64 ||| asU64 nPositionLow) (asU64 cbRequested))
  else none

/-- `read_file_contents`; a panic gives no results. -/
def readFileContents (fs : ClipFs) (connId : Int32)
    (streamId listIndex dwFlags nPositionLow nPositionHigh cbRequested : Int32) (c : ClipFiles) :
    List (Except CliprdrError ClipboardFile) × ClipFiles :=
  match parseRequest streamId listIndex dwFlags nPositionLow nPositionHigh cbRequested with
  | none =>
    ([.error (.invalidRequest ("got invalid FileContentsRequest, dw_flats: " ++
      toString dwFlags.toInt))], c)
  | some fcr =>
    match c.serveFileContents fs connId fcr with
    | (none, c) => ([], c)
    | (some res, c') => (((c.getFilesForAudit fs fcr).map .ok).toList ++ [res], c')

end ClipFiles

/-! ## Building a request -/

/-- The request for `size` bytes of the `index`-th file from `offset` on. -/
def rangeRequest (streamId : Int32) (index : Int32) (offset : Int) (size : Nat) : ClipboardFile :=
  .fileContentsRequest streamId index 2 (Int32.ofInt (offset % 2 ^ 32))
    (Int32.ofInt (offset / 2 ^ 32)) (Int32.ofInt size)

/-- What `FuseServer::read_node` sends. -/
def readNodeRequest (streamId : Int32) (index : Nat) (offset : Int64) (size : UInt32) :
    ClipboardFile :=
  rangeRequest streamId (Int32.ofInt index) offset.toInt size.toNat

/-- `BLOCK_SIZE`. -/
def clipBlockSize : Nat := 4 * 1024 * 1024

/-- What `PasteTaskHandle::send_file_contents_request` sends for a file of length `size`. -/
def pasteRequest (listIndex : Int32) (offset : UInt64) (size : Nat) : ClipboardFile :=
  rangeRequest listIndex listIndex offset.toNat (min clipBlockSize (size - offset.toNat))

/-- Give a request to `read_file_contents`. -/
def ClipFiles.handle (fs : ClipFs) (connId : Int32) (request : ClipboardFile) (c : ClipFiles) :
    List (Except CliprdrError ClipboardFile) × ClipFiles :=
  match request with
  | .fileContentsRequest streamId listIndex dwFlags low high cb =>
    c.readFileContents fs connId streamId listIndex dwFlags low high cb
  | _ => ([], c)

/-! ## The state of a served file -/

/-- What holds of a file of the list between two requests: an open handle is that of a
    readable file and stands at the offset. -/
structure LocalFile.Good (fs : ClipFs) (f : LocalFile) : Prop where
  isDir_eq : f.isDir = fs.isDir f.path
  size_eq : f.size = fs.len f.path
  closed : f.handle = none → f.offset = 0
  opened : ∀ pos, f.handle = some pos → f.isDir = false ∧ fs.Readable f.path ∧ pos = f.offset

namespace LocalFile

variable {fs : ClipFs} {f : LocalFile}

theorem good_tryOpen (fs : ClipFs) (path : String) : (tryOpen fs path).Good fs := by
  refine ⟨rfl, rfl, fun _ => rfl, ?_⟩
  intro pos hpos
  cases hpos

theorem Good.size_of_file (hf : f.Good fs) (hdir : f.isDir = false) :
    f.size = (fs.content f.path).length := by
  rw [hf.size_eq]
  unfold ClipFs.len
  rw [← hf.isDir_eq, hdir]
  rfl

/-- A file is loaded if it is readable. -/
theorem loadHandle_ok (hf : f.Good fs) (hdir : f.isDir = false) (hr : fs.Readable f.path) :
    f.loadHandle fs = .ok { f with handle := some f.offset } := by
  unfold loadHandle
  cases hh : f.handle with
  | none =>
    rw [hdir, hr.1, hr.2, hf.closed hh]
    rfl
  | some pos =>
    obtain ⟨_, _, rfl⟩ := hf.opened pos hh
    rw [if_neg (by simp), ← hh]

theorem loadHandle_error (hf : f.Good fs) (hdir : f.isDir = false) (hr : ¬ fs.Readable f.path) :
    ∃ e, f.loadHandle fs = .error e := by
  have hclosed : f.handle = none := by
    cases hh : f.handle with
    | none => rfl
    | some pos => exact absurd (hf.opened pos hh).2.1 hr
  unfold loadHandle
  rw [hdir, hclosed]
  cases ho : fs.openError f.path with
  | some err => exact ⟨_, rfl⟩
  | none =>
    cases hrd : fs.readError f.path with
    | some err => exact ⟨_, rfl⟩
    | none => exact absurd ⟨ho, hrd⟩ hr

theorem good_loaded (hf : f.Good fs) (hdir : f.isDir = false) (hr : fs.Readable f.path) :
    Good fs { f with handle := some f.offset } := by
  refine ⟨hf.isDir_eq, hf.size_eq, ?_, ?_⟩
  · intro hnone
    cases hnone
  · intro pos hpos
    cases hpos
    exact ⟨hdir, hr, rfl⟩

/-- A read inside a readable file gives its bytes and leaves the handle where it should be. -/
theorem readExactAt_ok (len offset : Nat) (hf : f.Good fs) (hdir : f.isDir = false)
    (hr : fs.Readable f.path) (hlen : offset + len ≤ f.size) :
    ∃ f', f.readExactAt fs len offset =
        (.ok (((fs.content f.path).drop offset).take len), f') ∧
      f'.Good fs ∧ f'.path = f.path := by
  have hsize := hf.size_of_file hdir
  have hpos : (if offset ≠ f.offset then offset else f.offset) = offset := by
    split
    · rfl
    · rename_i heq
      exact (not_not.mp heq).symm
  have hread : readExact fs f.path offset len =
      .ok (((fs.content f.path).drop offset).take len) := by
    unfold readExact
    split
    · rename_i hzero
      rw [hzero, List.take_zero]
    · rw [hr.2, if_pos (by omega)]
  unfold readExactAt
  rw [loadHandle_ok hf hdir hr]
  dsimp only
  rw [hpos, hread]
  dsimp only
  split
  · refine ⟨_, rfl, ⟨hf.isDir_eq, hf.size_eq, fun _ => rfl, ?_⟩, rfl⟩
    intro pos hnone
    cases hnone
  · refine ⟨_, rfl, ⟨hf.isDir_eq, hf.size_eq, ?_, ?_⟩, rfl⟩
    · intro hnone
      cases hnone
    · intro pos hsome
      cases hsome
      exact ⟨hdir, hr, rfl⟩

/-- A read of anything else fails and changes nothing. -/
theorem readExactAt_fails (len offset : Nat) (hf : f.Good fs)
    (hno : f.isDir = true ∨ ¬ fs.Readable f.path) :
    ∃ e, f.readExactAt fs len offset = (.error e, f) := by
  unfold readExactAt
  cases hdir : f.isDir with
  | true =>
    have hclosed : f.handle = none := by
      cases hh : f.handle with
      | none => rfl
      | some pos => exact absurd ((hf.opened pos hh).1.symm.trans hdir) (by simp)
    have hload : f.loadHandle fs = .ok f := by
      unfold loadHandle
      rw [hdir]
      rfl
    rw [hload]
    dsimp only
    rw [hclosed]
    exact ⟨_, rfl⟩
  | false =>
    have hr : ¬ fs.Readable f.path := by
      rcases hno with htrue | hr
      · rw [hdir] at htrue
        cases htrue
      · exact hr
    obtain ⟨e, he⟩ := loadHandle_error hf hdir hr
    rw [he]
    exact ⟨e, rfl⟩

end LocalFile

namespace ClipFiles

variable {fs : ClipFs} {c : ClipFiles}

/-- The paths of the list, in order. -/
def paths (c : ClipFiles) : List String := c.fileList.map (·.path)

/-- The list is one of these paths, with every file in a good state. -/
def Serves (fs : ClipFs) (ps : List String) (c : ClipFiles) : Prop :=
  c.paths = ps ∧ ∀ f ∈ c.fileList, f.Good fs

theorem serves_syncFiles (fs : ClipFs) (ps : List String) : Serves fs ps (syncFiles fs ps) := by
  refine ⟨?_, fun f hf => ?_⟩
  · unfold paths syncFiles
    rw [List.map_map]
    exact List.map_id ps
  · obtain ⟨p, _, rfl⟩ := List.mem_map.mp hf
    exact LocalFile.good_tryOpen fs p

/-- The next file that is not a directory, if there is one, is readable. -/
def NextReadable (fs : ClipFs) (ps : List String) (k : Nat) : Prop :=
  ∀ p, (ps.drop (k + 1)).find? (fun p => !fs.isDir p) = some p → fs.Readable p

/-- Loading ahead keeps the list, and works if the next file is readable. -/
theorem hotReload_spec {l : List LocalFile} (hl : ∀ f ∈ l, f.Good fs) :
    (∀ f ∈ (hotReload fs l).2, f.Good fs) ∧
      (hotReload fs l).2.map (·.path) = l.map (·.path) ∧
      ((hotReload fs l).1 = .ok () ↔
        ∀ p, (l.map (·.path)).find? (fun p => !fs.isDir p) = some p → fs.Readable p) := by
  induction l with
  | nil => simp [hotReload]
  | cons f rest ih =>
    have hf := hl f List.mem_cons_self
    have hrest : ∀ g ∈ rest, g.Good fs := fun g hg => hl g (List.mem_cons_of_mem f hg)
    obtain ⟨hgood, hpaths, hiff⟩ := ih hrest
    unfold hotReload
    cases hdir : f.isDir with
    | true =>
      have hskip : fs.isDir f.path = true := hf.isDir_eq.symm.trans hdir
      refine ⟨?_, ?_, ?_⟩
      · intro g hg
        rcases List.mem_cons.mp hg with rfl | hg
        · exact hf
        · exact hgood g hg
      · exact congrArg (f.path :: ·) hpaths
      · rw [List.map_cons, List.find?_cons_of_neg (by simp [hskip])]
        exact hiff
    | false =>
      have hstop : fs.isDir f.path = false := hf.isDir_eq.symm.trans hdir
      rw [List.map_cons, List.find?_cons_of_pos (by simp [hstop])]
      rw [if_neg (by simp)]
      by_cases hr : fs.Readable f.path
      · rw [LocalFile.loadHandle_ok hf hdir hr]
        refine ⟨?_, rfl, ?_⟩
        · intro g hg
          rcases List.mem_cons.mp hg with rfl | hg
          · exact LocalFile.good_loaded hf hdir hr
          · exact hrest g hg
        · refine iff_of_true rfl ?_
          rintro p hp
          cases hp
          exact hr
      · obtain ⟨e, he⟩ := LocalFile.loadHandle_error hf hdir hr
        rw [he]
        refine ⟨hl, rfl, ?_⟩
        refine iff_of_false (by simp) ?_
        intro hall
        exact hr (hall f.path rfl)

theorem respond_serves {ps : List String} (fileIdx : Nat) (resp : ClipboardFile)
    (hc : Serves fs ps c) : Serves fs ps (c.respond fs fileIdx resp).2 := by
  obtain ⟨hps, hgood⟩ := hc
  obtain ⟨hg, hp, _⟩ := hotReload_spec (l := c.fileList.drop (fileIdx + 1))
    fun f hf => hgood f (List.mem_of_mem_drop hf)
  refine ⟨?_, ?_⟩
  · unfold paths respond
    dsimp only
    rw [List.map_append, hp, ← List.map_append, List.take_append_drop]
    exact hps
  · intro f hf
    rcases List.mem_append.mp hf with hf | hf
    · exact hgood f (List.mem_of_mem_take hf)
    · exact hg f hf

theorem respond_ok_iff {ps : List String} (fileIdx : Nat) (resp : ClipboardFile)
    (hc : Serves fs ps c) :
    (c.respond fs fileIdx resp).1 = .ok resp ↔ NextReadable fs ps fileIdx := by
  obtain ⟨hps, hgood⟩ := hc
  obtain ⟨_, _, hiff⟩ := hotReload_spec (l := c.fileList.drop (fileIdx + 1))
    fun f hf => hgood f (List.mem_of_mem_drop hf)
  unfold NextReadable
  rw [← hps, paths, ← List.map_drop, ← hiff]
  unfold respond
  dsimp only
  cases (hotReload fs (c.fileList.drop (fileIdx + 1))).1 with
  | ok u => simp [Except.map]
  | error e => simp [Except.map]

/-- A range that is read and does not overflow the buffer ends inside the file. -/
theorem add_readSize_le (offset length size : Nat) (hoff : offset ≤ size) (hsize : size < 2 ^ 63)
    (hbuf : readSize offset length size < 2 ^ 63) :
    offset + readSize offset length size ≤ size := by
  unfold readSize at hbuf ⊢
  split
  · omega
  · rename_i hle
    rw [if_neg hle] at hbuf
    rw [Nat.mod_eq_of_lt (by omega)] at hle
    omega

theorem serves_set {ps : List String} {k : Nat} {file file' : LocalFile}
    (hc : Serves fs ps c) (hk : c.fileList[k]? = some file) (hg : file'.Good fs)
    (hpath : file'.path = file.path) :
    Serves fs ps { c with fileList := c.fileList.set k file' } := by
  obtain ⟨hps, hgood⟩ := hc
  obtain ⟨hlt, hget⟩ := List.getElem?_eq_some_iff.mp hk
  refine ⟨?_, fun f hf => ?_⟩
  · unfold paths at hps ⊢
    rw [← hps, List.map_set, hpath]
    refine List.ext_getElem? fun j => ?_
    by_cases hj : k = j
    · subst hj
      rw [List.getElem?_set_self (by rw [List.length_map]; exact hlt), List.getElem?_map, hk]
      rfl
    · rw [List.getElem?_set_ne hj]
  · rcases List.mem_or_eq_of_mem_set hf with hf | rfl
    · exact hgood f hf
    · exact hg

/-- No request spoils the state of a file. -/
theorem serveFileContents_serves {ps : List String} (connId : Int32) (request : ContentsRequest)
    (hc : Serves fs ps c) : Serves fs ps (c.serveFileContents fs connId request).2 := by
  unfold serveFileContents
  cases request with
  | size streamId fileIdx =>
    dsimp only
    split
    · exact hc
    · rename_i file _
      exact respond_serves fileIdx (.fileContentsResponse 1 streamId (sizeBytes file.size)) hc
  | range streamId fileIdx offset length =>
    dsimp only
    split
    · exact hc
    · rename_i file hfile
      have hf := hc.2 file (List.mem_of_getElem? hfile)
      split
      · exact hc
      · rename_i hoff
        split
        · exact hc
        · rename_i hbuf
          by_cases hok : file.isDir = false ∧ fs.Readable file.path
          · have hsize := hf.size_of_file hok.1
            have hlt := fs.length_lt file.path
            obtain ⟨file', hread, hg, hpath⟩ := LocalFile.readExactAt_ok _ offset hf hok.1 hok.2
              (add_readSize_le offset length file.size (by omega) (by omega) (by omega))
            rw [hread]
            dsimp only
            exact respond_serves fileIdx _ (serves_set hc hfile hg hpath)
          · have hno : file.isDir = true ∨ ¬ fs.Readable file.path := by
              rw [← Bool.not_eq_false]
              exact not_and_or.mp hok
            obtain ⟨e, he⟩ := LocalFile.readExactAt_fails
              (readSize offset length file.size) offset hf hno
            rw [he]
            exact serves_set hc hfile hf rfl

theorem handle_serves {ps : List String} (connId : Int32) (request : ClipboardFile)
    (hc : Serves fs ps c) : Serves fs ps (c.handle fs connId request).2 := by
  unfold handle
  split
  · unfold readFileContents
    split
    · exact hc
    · rename_i fcr _
      have hnext := serveFileContents_serves connId fcr hc
      split
      · rename_i heq
        rw [heq] at hnext
        exact hnext
      · rename_i heq
        rw [heq] at hnext
        exact hnext
  · exact hc

/-- The file that the list has at an index. -/
theorem Serves.getElem? {ps : List String} {k : Nat} {p : String} (hc : Serves fs ps c)
    (hk : ps[k]? = some p) : ∃ file, c.fileList[k]? = some file ∧ file.path = p := by
  rw [← hc.1, paths, List.getElem?_map] at hk
  exact Option.map_eq_some_iff.mp hk

/-- A range of a file that can be read. -/
theorem serve_range_readable {ps : List String} (hc : Serves fs ps c) (connId streamId : Int32)
    {k o n : Nat} {p : String} (hk : ps[k]? = some p) (hdir : fs.isDir p = false)
    (hr : fs.Readable p) (ho : o ≤ (fs.content p).length)
    (hbuf : readSize o n (fs.content p).length < 2 ^ 63) (data : Bytes) :
    (c.serveFileContents fs connId (.range streamId k o n)).1 =
        some (.ok (.fileContentsResponse 1 streamId data)) ↔
      data = ((fs.content p).drop o).take (readSize o n (fs.content p).length) ∧
        NextReadable fs ps k := by
  obtain ⟨file, hfile, rfl⟩ := hc.getElem? hk
  have hf := hc.2 file (List.mem_of_getElem? hfile)
  have hfdir : file.isDir = false := hf.isDir_eq.trans hdir
  have hsize := hf.size_of_file hfdir
  have hlt := fs.length_lt file.path
  rw [← hsize] at ho hbuf hlt ⊢
  obtain ⟨file', hread, hg, hpath'⟩ := LocalFile.readExactAt_ok _ o hf hfdir hr
    (add_readSize_le o n file.size ho hlt hbuf)
  unfold serveFileContents
  dsimp only
  rw [hfile]
  dsimp only
  rw [if_neg (by omega), if_neg (by omega), hread]
  dsimp only
  rw [Option.some_inj]
  set bytes := ((fs.content file.path).drop o).take (readSize o n file.size)
  have hiff := respond_ok_iff k (.fileContentsResponse 1 streamId bytes)
    (serves_set hc hfile hg hpath')
  constructor
  · intro hresp
    -- the response is sent as it is or not at all
    have hdata : data = bytes := by
      unfold respond at hresp
      dsimp only at hresp
      revert hresp
      cases (hotReload fs _).1 with
      | ok u =>
        intro hresp
        simp only [Except.map, Except.ok.injEq, ClipboardFile.fileContentsResponse.injEq] at hresp
        exact hresp.2.2.symm
      | error e => exact nofun
    subst hdata
    exact ⟨rfl, hiff.mp hresp⟩
  · rintro ⟨rfl, hnext⟩
    exact hiff.mpr hnext

/-- A range of a readable file, asked for with the right numbers, is served if the next file
    can be loaded too. -/
theorem serve_range_iff_nextReadable {ps : List String} {k o n : Nat} {p : String}
    (connId streamId : Int32)
    (hc : Serves fs ps c) (hk : ps[k]? = some p) (hdir : fs.isDir p = false)
    (hr : fs.Readable p) (ho : o ≤ (fs.content p).length) (hn : n < 2 ^ 31) :
    (c.serveFileContents fs connId (.range streamId k o n)).1 =
        some (.ok (.fileContentsResponse 1 streamId (((fs.content p).drop o).take n))) ↔
      NextReadable fs ps k := by
  have hlt := fs.length_lt p
  have hmin : readSize o n (fs.content p).length = min n ((fs.content p).length - o) := by
    unfold readSize
    rw [Nat.mod_eq_of_lt (by omega)]
    split <;> omega
  have hdata : ((fs.content p).drop o).take (readSize o n (fs.content p).length) =
      ((fs.content p).drop o).take n := by
    rw [hmin, ← List.length_drop, ← List.take_take, List.take_length]
  rw [serve_range_readable hc connId streamId hk hdir hr ho (by omega), hdata]
  exact and_iff_right rfl

/-! ## The two fields of an offset -/

theorem ofInt_toInt {x : Int} (hlo : -2 ^ 31 ≤ x) (hhi : x < 2 ^ 31) :
    (Int32.ofInt x).toInt = x := by
  rw [Int32.toInt_ofInt, show Int32.size = 2 ^ 32 from rfl]
  exact Int.bmod_eq_of_le (by omega) (by omega)

theorem asUsize_ofInt {k : Nat} (hk : k < 2 ^ 31) : asUsize (Int32.ofInt k).toInt = k := by
  rw [ofInt_toInt (by omega) (by omega)]
  unfold asUsize
  omega

/-- An index that does not fit in the field is not one of a list. -/
theorem asUsize_ofInt_large {k : Nat} (hk : 2 ^ 31 ≤ k) (hk32 : k < 2 ^ 32) :
    2 ^ 63 ≤ asUsize (Int32.ofInt k).toInt := by
  have hneg : (Int32.ofInt k).toInt = (k : Int) - 2 ^ 32 := by
    rw [Int32.toInt_ofInt, show Int32.size = 2 ^ 32 from rfl, Int.bmod_def]
    omega
  unfold asUsize
  rw [hneg]
  omega

/-- The high field is right for every offset. -/
theorem high_field {o : Nat} (ho : o < 2 ^ 63) :
    (asU64 (Int32.ofInt ((o : Int) / 2 ^ 32)) <<< 32) % 2 ^ 64 = o / 2 ^ 32 * 2 ^ 32 := by
  have hdiv : (o : Int) / 2 ^ 32 = ((o / 2 ^ 32 : Nat) : Int) := by norm_num
  unfold asU64
  rw [hdiv, asUsize_ofInt (by omega), Nat.shiftLeft_eq, Nat.mod_eq_of_lt (by omega)]

/-- The offset that the serving side puts together is the one that was asked for, unless the
    low field is negative; it is beyond the end of every file then. -/
theorem rebuilt_offset {o : Nat} (ho : o < 2 ^ 63) :
    if o % 2 ^ 32 < 2 ^ 31 then
      (asU64 (Int32.ofInt ((o : Int) / 2 ^ 32)) <<< 32) % 2 ^ 64 |||
        asU64 (Int32.ofInt ((o : Int) % 2 ^ 32)) = o
    else
      2 ^ 63 ≤ (asU64 (Int32.ofInt ((o : Int) / 2 ^ 32)) <<< 32) % 2 ^ 64 |||
        asU64 (Int32.ofInt ((o : Int) % 2 ^ 32)) := by
  have hmod : (o : Int) % 2 ^ 32 = ((o % 2 ^ 32 : Nat) : Int) := by norm_num
  rw [high_field ho, hmod]
  split
  · rename_i hlow
    unfold asU64
    rw [asUsize_ofInt hlow, ← Nat.shiftLeft_eq, ← Nat.shiftLeft_add_eq_or_of_lt (by omega),
      Nat.shiftLeft_eq]
    omega
  · rename_i hlow
    -- Sign extension fills the upper half with ones.
    have hbig : 2 ^ 63 ≤ asU64 (Int32.ofInt ((o % 2 ^ 32 : Nat) : Int)) :=
      asUsize_ofInt_large (by omega) (by omega)
    exact hbig.trans Nat.right_le_or

/-! ## Requests for a range -/

/-- The request that one of the two readers builds for `n` bytes from `o` on of the `k`-th
    file. The one for the clipboard of macOS takes as many as fit in a block. -/
inductive Builds (size k o n : Nat) : Int32 → ClipboardFile → Prop where
  | readNode (streamId : Int32) :
      Builds size k o n streamId (readNodeRequest streamId k (Int64.ofNat o) (UInt32.ofNat n))
  | paste (hn : n = min clipBlockSize (size - o)) :
      Builds size k o n (Int32.ofInt k) (pasteRequest (Int32.ofInt k) (UInt64.ofNat o) size)

theorem Builds.eq_rangeRequest {size k o n : Nat} {streamId : Int32} {request : ClipboardFile}
    (hb : Builds size k o n streamId request) (ho : o < 2 ^ 63) (hn : n < 2 ^ 31) :
    request = rangeRequest streamId (Int32.ofInt k) o n := by
  cases hb with
  | readNode =>
    have hoff : (Int64.ofNat o).toInt = o := by
      rw [Int64.toInt_ofNat', show Int64.size = 2 ^ 64 from rfl]
      exact Int.bmod_eq_of_le (by omega) (by omega)
    have hsize : (UInt32.ofNat n).toNat = n := by
      rw [UInt32.toNat_ofNat', Nat.mod_eq_of_lt (by omega)]
    unfold readNodeRequest
    rw [hoff, hsize]
  | paste hmin =>
    have hoff : (UInt64.ofNat o).toNat = o := by
      rw [UInt64.toNat_ofNat', Nat.mod_eq_of_lt (by omega)]
    unfold pasteRequest
    rw [hoff, hmin]

/-- The results of the request hold a response with the data. -/
def Yields (fs : ClipFs) (connId streamId : Int32) (request : ClipboardFile) (data : Bytes)
    (c : ClipFiles) : Prop :=
  .ok (.fileContentsResponse 1 streamId data) ∈ (c.handle fs connId request).1

/-- Whether a request gets its data is up to `serve_file_contents`. -/
theorem yields_rangeRequest {n : Nat} {o : Nat} (connId streamId index : Int32) (data : Bytes)
    (hn : n < 2 ^ 31) :
    c.Yields fs connId streamId (rangeRequest streamId index o n) data ↔
      (c.serveFileContents fs connId (.range streamId (asUsize index.toInt)
        ((asU64 (Int32.ofInt ((o : Int) / 2 ^ 32)) <<< 32) % 2 ^ 64 |||
          asU64 (Int32.ofInt ((o : Int) % 2 ^ 32))) n)).1 =
        some (.ok (.fileContentsResponse 1 streamId data)) := by
  have hparse : parseRequest streamId index 2 (Int32.ofInt ((o : Int) % 2 ^ 32))
      (Int32.ofInt ((o : Int) / 2 ^ 32)) (Int32.ofInt n) =
      some (.range streamId (asUsize index.toInt)
        ((asU64 (Int32.ofInt ((o : Int) / 2 ^ 32)) <<< 32) % 2 ^ 64 |||
          asU64 (Int32.ofInt ((o : Int) % 2 ^ 32))) n) := by
    have hlen : asU64 (Int32.ofInt n) = n := asUsize_ofInt hn
    unfold parseRequest
    rw [if_neg (by decide), if_pos rfl, hlen]
  unfold Yields handle rangeRequest readFileContents
  dsimp only
  rw [hparse]
  dsimp only
  rcases hs : c.serveFileContents fs connId _ with ⟨_ | res, c'⟩
  · simp
  · dsimp only
    -- The message for the audit is not a response.
    have haudit : ∀ a, getFilesForAudit fs (.range streamId (asUsize index.toInt)
        ((asU64 (Int32.ofInt ((o : Int) / 2 ^ 32)) <<< 32) % 2 ^ 64 |||
          asU64 (Int32.ofInt ((o : Int) % 2 ^ 32))) n) c = some a →
        a ≠ .fileContentsResponse 1 streamId data := by
      intro a ha
      unfold getFilesForAudit at ha
      split at ha
      · split at ha
        · dsimp only at ha
          split at ha
          · cases ha
          · cases ha
            simp
        · cases ha
      · cases ha
    rw [List.mem_append, List.mem_singleton, Option.some_inj, eq_comm (a := res)]
    constructor
    · rintro (hmem | heq)
      · rw [Option.mem_toList, Option.map_eq_some_iff] at hmem
        obtain ⟨a, ha, heq⟩ := hmem
        exact absurd (Except.ok.inj heq) (haudit a ha)
      · exact heq
    · exact .inr

theorem serve_invalidIndex {ps : List String} {k : Nat} (connId streamId : Int32) (o n : Nat)
    (hc : Serves fs ps c) (hk : ps.length ≤ k) :
    (c.serveFileContents fs connId (.range streamId k o n)).1 =
      some (.error (invalidIndex k connId)) := by
  have hnone : c.fileList[k]? = none := by
    rw [List.getElem?_eq_none_iff]
    rw [← hc.1, paths, List.length_map] at hk
    exact hk
  unfold serveFileContents
  dsimp only
  rw [hnone]

theorem serve_invalidOffset {ps : List String} {k o : Nat} {p : String} (connId streamId : Int32)
    (n : Nat) (hc : Serves fs ps c) (hk : ps[k]? = some p) (hdir : fs.isDir p = false)
    (ho : 2 ^ 63 ≤ o) :
    (c.serveFileContents fs connId (.range streamId k o n)).1 =
      some (.error (invalidOffset connId)) := by
  obtain ⟨file, hfile, rfl⟩ := hc.getElem? hk
  have hf := hc.2 file (List.mem_of_getElem? hfile)
  have hsize := hf.size_of_file (hf.isDir_eq.trans hdir)
  have hlt := fs.length_lt file.path
  unfold serveFileContents
  dsimp only
  rw [hfile]
  dsimp only
  rw [if_pos (by omega)]

/-- A request for a range in any good state. The number of files is one of `u32`. -/
theorem yields_iff {ps : List String} {k o n : Nat} {p : String} (hc : Serves fs ps c)
    (hps : ps.length ≤ 2 ^ 32) (hk : ps[k]? = some p) (hdir : fs.isDir p = false)
    (hr : fs.Readable p) (ho : o ≤ (fs.content p).length) (hn : n < 2 ^ 31) (connId : Int32)
    {streamId : Int32} {request : ClipboardFile}
    (hreq : Builds (fs.content p).length k o n streamId request) :
    c.Yields fs connId streamId request (((fs.content p).drop o).take n) ↔
      k < 2 ^ 31 ∧ o % 2 ^ 32 < 2 ^ 31 ∧ NextReadable fs ps k := by
  have hlt := fs.length_lt p
  have hklt := (List.getElem?_eq_some_iff.mp hk).1
  have hoff := rebuilt_offset (o := o) (by omega)
  rw [hreq.eq_rangeRequest (by omega) hn, yields_rangeRequest connId streamId _ _ hn]
  by_cases hk31 : k < 2 ^ 31
  · rw [asUsize_ofInt hk31]
    by_cases hlow : o % 2 ^ 32 < 2 ^ 31
    · rw [if_pos hlow] at hoff
      rw [hoff, serve_range_iff_nextReadable connId streamId hc hk hdir hr ho hn]
      exact ⟨fun hnext => ⟨hk31, hlow, hnext⟩, fun hall => hall.2.2⟩
    · rw [if_neg hlow] at hoff
      rw [serve_invalidOffset connId streamId n hc hk hdir hoff]
      exact iff_of_false (by simp) fun hall => hlow hall.2.1
  · have hlarge := asUsize_ofInt_large (k := k) (by omega) (by omega)
    rw [serve_invalidIndex connId streamId _ n hc (by omega)]
    exact iff_of_false (by simp) fun hall => hk31 hall.1

/-- One request, of whatever kind, from a connection. -/
def serveStep (fs : ClipFs) (c : ClipFiles) (m : Int32 × ClipboardFile) : ClipFiles :=
  (c.handle fs m.1 m.2).2

theorem run_serves (fs : ClipFs) (ps : List String) (before : List (Int32 × ClipboardFile)) :
    Serves fs ps (run (serveStep fs) (syncFiles fs ps) before) := by
  have hall : Always (serveStep fs) (Serves fs ps) (syncFiles fs ps) before :=
    always_of_step (P := Serves fs ps) (fun c m hc => handle_serves m.1 m.2 hc)
      (serves_syncFiles fs ps) before
  exact hall.last

/-- In every state that requests of any kind lead to: a request for a range of a readable
    file gets exactly the bytes of the range, precisely if the index and the lower half of the
    offset are less than 2^31 and the next file of the list can be read. -/
theorem range_served_iff (fs : ClipFs) (ps : List String) (hps : ps.length ≤ 2 ^ 32)
    (before : List (Int32 × ClipboardFile)) {k o n : Nat} {p : String} (hk : ps[k]? = some p)
    (hdir : fs.isDir p = false) (hr : fs.Readable p) (ho : o ≤ (fs.content p).length)
    (hn : 0 < n ∧ n < 2 ^ 31) (connId : Int32) {streamId : Int32} {request : ClipboardFile}
    (hreq : Builds (fs.content p).length k o n streamId request) :
    (run (serveStep fs) (syncFiles fs ps) before).Yields fs connId streamId request
        (((fs.content p).drop o).take n) ↔
      k < 2 ^ 31 ∧ o % 2 ^ 32 < 2 ^ 31 ∧ NextReadable fs ps k :=
  yields_iff (run_serves fs ps before) hps hk hdir hr ho hn.2 connId hreq

/-- A file `a` of three bytes, a file `large` of 2^31 + 1 and a file `locked` that nobody may
    read. -/
def sampleClipFs : ClipFs where
  isDir _ := false
  isFile _ := true
  content p := if p = "large" then List.replicate (2 ^ 31 + 1) 0 else [1, 2, 3]
  otherLen _ := 0
  openError p := if p = "locked" then some "Permission denied" else none
  readError _ := none
  length_lt p := by
    split
    · rw [List.length_replicate]
      omega
    · decide

/-- Two bytes of a file that is the only one. -/
theorem range_served_iff_one_file :
    (run (serveStep sampleClipFs) (syncFiles sampleClipFs ["a"]) []).Yields sampleClipFs 1 7
      (readNodeRequest 7 0 (Int64.ofNat 1) (UInt32.ofNat 2)) [2, 3] :=
  (range_served_iff sampleClipFs ["a"] (by decide) [] (k := 0) (o := 1) (n := 2) (p := "a") rfl
    rfl ⟨by decide, rfl⟩ (by decide) (by decide) 1 (.readNode 7)).mpr ⟨by decide, by decide, by
      intro p hp
      cases hp⟩

/-- The first bytes of a file are not served when the next file is locked, and the last byte
    of a file of 2^31 + 1 bytes is not served at all. -/
theorem range_not_served :
    ¬ (syncFiles sampleClipFs ["a", "locked"]).Yields sampleClipFs 1 7
        (readNodeRequest 7 0 (Int64.ofNat 0) (UInt32.ofNat 2)) [1, 2] ∧
      ¬ (syncFiles sampleClipFs ["large"]).Yields sampleClipFs 1 7
        (readNodeRequest 7 0 (Int64.ofNat (2 ^ 31)) (UInt32.ofNat 1)) [0] := by
  constructor
  · intro hy
    have hiff := yields_iff (serves_syncFiles sampleClipFs ["a", "locked"]) (k := 0) (o := 0)
      (n := 2) (p := "a") (by decide) rfl rfl ⟨by decide, rfl⟩ (by decide) (by decide) 1
      (.readNode 7)
    have hlocked := ((hiff.mp hy).2.2 "locked" rfl).1
    exact absurd hlocked (by decide)
  · intro hy
    have hlarge : sampleClipFs.content "large" = List.replicate (2 ^ 31 + 1) 0 := by
      unfold sampleClipFs
      dsimp only
      rw [if_pos rfl]
    have hiff := yields_iff (serves_syncFiles sampleClipFs ["large"]) (k := 0) (o := 2 ^ 31)
      (n := 1) (p := "large") (by decide) rfl rfl ⟨by decide, rfl⟩
      (by rw [hlarge, List.length_replicate]; omega) (by decide) 1 (.readNode 7)
    have hdata : ((sampleClipFs.content "large").drop (2 ^ 31)).take 1 = [0] := by
      rw [hlarge, List.drop_replicate, List.take_replicate]
      norm_num
    rw [hdata] at hiff
    exact absurd (hiff.mp hy).2.1 (by decide)

end ClipFiles

end LuodaRemote
