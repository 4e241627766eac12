/-
  Transfer jobs: `TransferJob` of `libs/hbb_common/src/fs.rs`, which writes the blocks of a
  file transfer on the receiving side and reads them on the sending side.

  The file system is a parameter (`Lib.FileSystem`), so its calls may fail at any point; a
  method that returns an error has kept what it did before. `zstd` and the JSON form of a
  digest are parameters too.

  A stream carries the number of the entry it was opened for, which the source does not
  keep. Everything else of the job is as it is there, less the fields that no method here
  reads (`remote`, `show_hidden`, `is_remote`, the overwrite strategy).
-/
import LuodaRemote.Host
import LuodaRemote.Lib.Disk

namespace LuodaRemote
open Lib

/-! ## Names and paths -/

/-- The characters that separate the components of a path. -/
def isSeparator (windows : Bool) (c : Char) : Bool := c == '/' || windows && c == '\\'

/-- The pieces between the separators that are not empty. -/
def pieces (isSep : Char → Bool) (name : String) : List (List Char) :=
  (name.toList.splitOnP isSep).filter fun s => !s.isEmpty

def hasDriveLetter (name : String) : Bool :=
  match asBytes name with
  | b0 :: b1 :: _ => (65 ≤ b0 && b0 ≤ 90 || 97 ≤ b0 && b0 ≤ 122) && b1 == 58
  | _ => false

/-- `validate_file_name_no_traversal`; the copy in `src/ui_cm_interface.rs` takes the
    backslash for a separator on every system. -/
def validateFileNameNoTraversal (windows backslash : Bool) (name : String) : Except String Unit :=
  if (asBytes name).contains 0 then .error "file name contains null bytes"
  else if (pieces (isSeparator backslash) name).any (· == ['.', '.']) then
    .error "path traversal detected in file name"
  else if windows && hasDriveLetter name then .error "absolute path detected in file name"
  else if name.toList.head?.any (isSeparator backslash) then
    .error "absolute path detected in file name"
  else .ok ()

/-- `validate_transfer_file_names`, which both files have. A single file may have an empty
    name: the path is carried by the request then. -/
def validateTransferFileNames (windows backslash : Bool) (names : List String) :
    Except String Unit :=
  if names = [""] then .ok ()
  else names.forM fun name =>
    if name = "" then .error "empty file name in multi-file transfer"
    else validateFileNameNoTraversal windows backslash name

/-- `std::path::Component`, without the kinds of prefixes. -/
inductive PathComponent where
  | normal (seg : String)
  | curDir
  | parentDir
  | rootDir
  | drive
  deriving DecidableEq

/-- `Path::components`: repeated separators and inner `.` are gone. -/
def pathComponents (windows : Bool) (name : String) : List PathComponent :=
  let (first, rest) := if windows && hasDriveLetter name
    then ([PathComponent.drive], String.ofList (name.toList.drop 2)) else ([], name)
  let root := rest.toList.head?.any (isSeparator windows)
  let segments := pieces (isSeparator windows) rest
  let lead := if root then [PathComponent.rootDir]
    else if segments.head? = some ['.'] then [PathComponent.curDir] else []
  first ++ lead ++ (segments.filter (· ≠ ['.'])).map fun s =>
    if s = ['.', '.'] then .parentDir else .normal (String.ofList s)

/-- `PathBuf::join`. -/
def pathJoin (windows : Bool) (p name : String) : String :=
  let absolute := name.toList.head?.any (isSeparator windows)
  if windows && hasDriveLetter name || !windows && absolute then name
  else if absolute then
    -- The root of the drive that `p` is on.
    (if hasDriveLetter p then String.ofList (p.toList.take 2) else "") ++ name
  else if p = "" || p.toList.getLast?.any (isSeparator windows) ||
      windows && hasDriveLetter p && p.length == 2 then p ++ name
  else p ++ (if windows then "\\" else "/") ++ name

/-! ## Jobs -/

inductive JobType where
  | generic
  | printer
  deriving DecidableEq

/-- `FileEntry`, as far as a job reads it. -/
structure FileEntry where
  name : String
  modifiedTime : Nat
  size : Nat := 0
  deriving DecidableEq

inductive DataSource where
  | filePath (p : String)
  | memoryCursor (data : Bytes)
  deriving DecidableEq

structure FileDigest where
  size : Nat := 0
  modified : Nat := 0
  deriving DecidableEq

inductive DataStream (φ : Type) where
  /-- `entry` is the entry the file was opened for. -/
  | fileStream (file : φ) (entry : Nat)
  | bufStream (data : Bytes) (pos : Nat)
  deriving DecidableEq

structure TransferJob (φ : Type) where
  id : Int32
  jobType : JobType
  dataSource : DataSource
  fileNum : Int32
  files : List FileEntry := []
  connId : Int32 := 0
  dataStream : Option (DataStream φ) := none
  totalSize : Nat := 0
  finishedSize : Nat := 0
  transferred : Nat := 0
  isLastJob : Bool := false
  isResume : Bool := false
  enableOverwriteDetection : Bool
  fileConfirmed : Bool := false
  fileSkipped : Bool := false
  fileIsWaiting : Bool := false
  digest : FileDigest := {}
  deriving DecidableEq

/-! ## Messages -/

structure FileTransferBlock where
  id : Int32
  fileNum : Int32
  data : Bytes
  compressed : Bool
  deriving DecidableEq

structure FileTransferDigest where
  id : Int32
  fileNum : Int32
  lastModified : Nat
  fileSize : Nat
  isUpload : Bool := false
  isIdentical : Bool := false
  transferredSize : Nat := 0
  isResume : Bool := false
  deriving DecidableEq

/-- `file_transfer_send_confirm_request::Union`. -/
inductive ConfirmUnion where
  | skip (s : Bool)
  | offsetBlk (offset : Nat)
  deriving DecidableEq

structure FileTransferSendConfirmRequest where
  id : Int32
  fileNum : Int32
  union : Option ConfirmUnion
  deriving DecidableEq

/-- The messages of a transfer: `FileResponse`, and the confirmation of a digest. -/
inductive FileMessage where
  | error (id : Int32) (err : String) (fileNum : Int32)
  | done (id : Int32) (fileNum : Int32)
  | block (b : FileTransferBlock)
  | digest (d : FileTransferDigest)
  | sendConfirm (r : FileTransferSendConfirmRequest)
  deriving DecidableEq

/-! ## What a job runs on -/

structure JobHost (σ φ : Type) where
  fs : FileSystem σ φ
  windows : Bool
  /-- `Compressor::compress` of `zstd`. -/
  zstdCompress : Bytes → Option Bytes
  /-- `zstd::decode_all`. -/
  decodeAll : Bytes → Option Bytes
  /-- `serde_json` for a `FileDigest`. -/
  digestToJson : FileDigest → String
  digestFromJson : String → Option FileDigest

/-- A failure to compress gives no bytes. -/
def JobHost.compress {σ φ : Type} (h : JobHost σ φ) (data : Bytes) : Bytes :=
  (h.zstdCompress data).getD []

/-- Data that do not decode count as empty. -/
def JobHost.decompress {σ φ : Type} (h : JobHost σ φ) (data : Bytes) : Bytes :=
  (h.decodeAll data).getD []

/-- A `zstd` frame of one raw block, which is what less than 256 bytes without repetition
    compress to. -/
def storedFrame (data : Bytes) : Bytes :=
  [0x28, 0xB5, 0x2F, 0xFD, 0x20, UInt8.ofNat data.length,
    UInt8.ofNat (data.length * 8 + 1), UInt8.ofNat (data.length / 32), 0] ++ data

/-- A number in decimal. -/
def digits? (cs : List Char) : Option Nat :=
  if cs = [] then none else some (cs.foldl (fun n c => n * 10 + (c.toNat - '0'.toNat)) 0)

/-- A job on a flat disk, for data that do not compress. -/
def diskHost {κ : Type} [DecidableEq κ] (key : String → κ) : JobHost (Disk κ) Nat where
  fs := Disk.fileSystem key
  windows := false
  zstdCompress data := some (storedFrame data)
  decodeAll data := if data = storedFrame (data.drop 9) then some (data.drop 9) else none
  digestToJson d :=
    "\x7b\"modified\":" ++ toString d.modified ++ ",\"size\":" ++ toString d.size ++ "\x7d"
  digestFromJson text :=
    match (text.toList.splitOn ':').map fun s => digits? (s.takeWhile Char.isDigit) with
    | [_, some modified, some size] => some ⟨size, modified⟩
    | _ => none

/-- Different paths are different files. -/
def plainHost : JobHost (Disk String) Nat := diskHost fun path => path

/-- `n as usize`. -/
def fileIndex (n : Int32) : Nat := asUsize n.toInt

namespace TransferJob

variable {σ φ : Type}

def newWrite (id : Int32) (jobType : JobType) (dataSource : DataSource) (fileNum : Int32)
    (enableOverwriteDetection : Bool) : TransferJob φ :=
  { id, jobType, dataSource, fileNum, enableOverwriteDetection }

def join (h : JobHost σ φ) (p name : String) : String :=
  if name = "" then p else pathJoin h.windows p name

/-- `validate_no_symlink_components`, from the components above a segment down. -/
def validateComponents (h : JobHost σ φ) (st : σ) (current : String) :
    List PathComponent → Except String Unit
  | [] => .ok ()
  | .normal seg :: rest =>
    let current := pathJoin h.windows current seg
    match h.fs.symlinkMetadata current st with
    | .found true => .error "symlink path component is not allowed"
    | .found false | .notFound => validateComponents h st current rest
    | .failed err =>
      .error ("failed to validate path component '" ++ current ++ "': " ++ err)
  | .curDir :: rest => validateComponents h st current rest
  | _ :: _ => .error "invalid file name component"

def validateNoSymlinkComponents (h : JobHost σ φ) (base name : String) (st : σ) :
    Except String Unit :=
  if name = "" then .ok () else validateComponents h st base (pathComponents h.windows name)

def joinValidatedPath (h : JobHost σ φ) (base name : String) (st : σ) : Except String String :=
  match validateFileNameNoTraversal h.windows h.windows name with
  | .error e => .error e
  | .ok () =>
    match validateNoSymlinkComponents h base name st with
    | .error e => .error e
    | .ok () => .ok (join h base name)

/-- `set_files`, with the job as it is left. -/
def setFiles (h : JobHost σ φ) (files : List FileEntry) (st : σ) (job : TransferJob φ) :
    Except String Unit × TransferJob φ :=
  match validateTransferFileNames h.windows h.windows (files.map (·.name)) with
  | .error e => (.error e, job)
  | .ok () =>
    let checked := match job.dataSource with
      | .filePath base => files.forM fun f => validateNoSymlinkComponents h base f.name st
      | .memoryCursor _ => .ok ()
    match checked with
    | .error e => (.error e, job)
    | .ok () => (.ok (), { job with totalSize := (files.map (·.size)).sum, files := files })

def resolveEntryPath (h : JobHost σ φ) (base name : String) (st : σ) (job : TransferJob φ) :
    Option String :=
  match job.jobType with
  | .generic => (joinValidatedPath h base name st).toOption
  | .printer => some (join h base name)

def downloadPath (path : String) : String := path ++ ".download"

def digestPath (path : String) : String := path ++ ".digest"

/-- The path of the current entry, for the job that has one to finish or to give up. -/
def currentPath (h : JobHost σ φ) (st : σ) (job : TransferJob φ) :
    Option (FileEntry × String) :=
  match job.jobType, job.dataSource with
  | .generic, .filePath p =>
    match job.files[fileIndex job.fileNum]? with
    | some entry => (job.resolveEntryPath h p entry.name st).map fun path => (entry, path)
    | none => none
  | _, _ => none

/-- `modify_time`: the download takes the place of the file. No error gets out. -/
def modifyTime (h : JobHost σ φ) (job : TransferJob φ) (st : σ) : σ :=
  match job.currentPath h st with
  | some (entry, path) =>
    let st := (h.fs.removeFile (digestPath path) st).2
    let st := (h.fs.rename (downloadPath path) path st).2
    (h.fs.setFileMtime path entry.modifiedTime st).2
  | none => st

def removeDownloadFile (h : JobHost σ φ) (job : TransferJob φ) (st : σ) : σ :=
  match job.currentPath h st with
  | some (_, path) =>
    let st := (h.fs.removeFile (downloadPath path) st).2
    (h.fs.removeFile (digestPath path) st).2
  | none => st

/-! ## Writing a block -/

/-- `file.sync_all()` on the stream that is about to be replaced. -/
def syncStream (h : JobHost σ φ) (job : TransferJob φ) (st : σ) : Except String Unit × σ :=
  match job.dataStream with
  | some (.fileStream f _) => h.fs.syncAll f st
  | _ => (.ok (), st)

/-- Where the bytes of an entry go and where its digest is kept. -/
def targetPaths (h : JobHost σ φ) (p : String) (entry : FileEntry) (job : TransferJob φ)
    (st : σ) : Except String (String × Option String) × σ :=
  match job.jobType with
  | .printer => (.ok (p, none), st)
  | .generic =>
    match joinValidatedPath h p entry.name st with
    | .error e => (.error e, st)
    | .ok path =>
      (.ok (downloadPath path, some (digestPath path)), (h.fs.createParents path st).2)

/-- A digest left over from an earlier job is removed first. -/
def removeOldDigest (h : JobHost σ φ) (digest : Option String) (st : σ) :
    Except String Unit × σ :=
  match digest with
  | some dp => if h.fs.pathExists dp st then h.fs.removeFile dp st else (.ok (), st)
  | none => (.ok (), st)

/-- Open the target of an entry. The stream is replaced only if all of it went well. -/
def openEntry (h : JobHost σ φ) (p : String) (entry : FileEntry) (job : TransferJob φ)
    (st : σ) : Except String Unit × TransferJob φ × σ :=
  match job.targetPaths h p entry st with
  | (.error e, st) => (.error e, job, st)
  | (.ok (path, digest), st) =>
    match removeOldDigest h digest st with
    | (.error e, st) => (.error e, job, st)
    | (.ok (), st) =>
      match h.fs.create path st with
      | (.error e, st) => (.error e, job, st)
      | (.ok f, st) =>
        let st := match digest with
          | some dp => (h.fs.writeFile dp (h.digestToJson job.digest) st).2
          | none => st
        (.ok (), { job with dataStream := some (.fileStream f (fileIndex job.fileNum)) }, st)

/-- The first half of `write`: have the target of the block open. `file_num` is set before
    the steps that may fail. -/
def openTarget (h : JobHost σ φ) (p : String) (block : FileTransferBlock) (job : TransferJob φ)
    (st : σ) : Except String Unit × TransferJob φ × σ :=
  match job.files[fileIndex block.fileNum]? with
  | none => (.error "Wrong file number", job, st)
  | some entry =>
    if fileIndex block.fileNum ≠ fileIndex job.fileNum ∨ job.dataStream.isNone then
      let st := job.modifyTime h st
      match job.syncStream h st with
      | (.error e, st) => (.error e, job, st)
      | (.ok (), st) => { job with fileNum := block.fileNum }.openEntry h p entry st
    else (.ok (), job, st)

/-- The bytes a block stands for. -/
def decoded (h : JobHost σ φ) (block : FileTransferBlock) : Bytes :=
  if block.compressed then h.decompress block.data else block.data

/-- The bytes written at a position of a buffer in memory. -/
def writeBuf (data bs : Bytes) (pos : Nat) : Bytes :=
  data.take pos ++ bs ++ data.drop (pos + bs.length)

/-- The second half of `write`: `write_all` on the stream of the job. -/
def writeData (h : JobHost σ φ) (block : FileTransferBlock) (job : TransferJob φ) (st : σ) :
    Except String Unit × TransferJob φ × σ :=
  let bs := decoded h block
  let counted : TransferJob φ := { job with
    finishedSize := job.finishedSize + bs.length
    transferred := job.transferred + block.data.length }
  match job.dataStream with
  | none => (.error (if block.compressed then "data stream is None" else "file is None"), job, st)
  | some (.fileStream f _) =>
    match h.fs.writeAll f bs st with
    | (.error e, st) => (.error e, job, st)
    | (.ok (), st) => (.ok (), counted, st)
  | some (.bufStream data pos) =>
    (.ok (), { counted with
      dataStream := some (.bufStream (writeBuf data bs pos) (pos + bs.length)) }, st)

def write (h : JobHost σ φ) (block : FileTransferBlock) (job : TransferJob φ) (st : σ) :
    Except String Unit × TransferJob φ × σ :=
  if block.id ≠ job.id then (.error "Wrong id", job, st)
  else match job.dataSource with
    | .filePath p =>
      match job.openTarget h p block st with
      | (.error e, job, st) => (.error e, job, st)
      | (.ok (), job, st) => job.writeData h block st
    | .memoryCursor data =>
      let job := if job.dataStream.isNone then { job with dataStream := some (.bufStream data 0) }
        else job
      job.writeData h block st

/-! ## Confirming a file -/

def setDigest (size modified : Nat) (job : TransferJob φ) : TransferJob φ :=
  { job with digest := ⟨size, modified⟩ }

def setFileConfirmed (confirmed : Bool) (job : TransferJob φ) : TransferJob φ :=
  { job with fileConfirmed := confirmed, fileSkipped := false }

def setFileSkipped (job : TransferJob φ) : TransferJob φ :=
  { job with
    dataStream := none
    fileConfirmed := false
    fileIsWaiting := false
    fileNum := job.fileNum + 1
    fileSkipped := true }

/-- The file `set_stream_offset` seeks in: the download of an interrupted transfer on the
    receiving side, the file itself on the sending side. -/
def openAtOffset (h : JobHost σ φ) (path : String) (st : σ) : Except String φ × σ :=
  if h.fs.pathExists (downloadPath path) st && h.fs.pathExists (digestPath path) st then
    h.fs.openWrite (downloadPath path) st
  else if h.fs.pathExists path st then h.fs.openRead path st
  else (.error "not found", st)

/-- `set_stream_offset`; `none` is the panic of `self.files[file_num]`. -/
def setStreamOffset (h : JobHost σ φ) (fileNum offset : Nat) (job : TransferJob φ) (st : σ) :
    Option (TransferJob φ × σ) :=
  match job.dataSource with
  | .memoryCursor _ => some (job, st)
  | .filePath p =>
    match job.files[fileNum]? with
    | none => none
    | some entry =>
      match job.resolveEntryPath h p entry.name st with
      | none => some (job, st)
      | some path =>
        match openAtOffset h path st with
        | (.error _, st) => some (job, st)
        | (.ok f, st) =>
          match h.fs.seek f offset st with
          | (.error _, st) => some (job, st)
          | (.ok (), st) => some ({ job with
              dataStream := some (.fileStream f fileNum)
              transferred := job.transferred + offset
              finishedSize := job.finishedSize + offset }, st)

/-- `confirm`, which both sides call on their own job. -/
def confirm (h : JobHost σ φ) (r : FileTransferSendConfirmRequest) (job : TransferJob φ) (st : σ) :
    Option (TransferJob φ × σ) :=
  if job.fileNum ≠ r.fileNum then some (job, st)
  else match r.union with
    | some (.skip true) => some (job.setFileSkipped, st)
    | some (.skip false) => some (job.setFileConfirmed true, st)
    | some (.offsetBlk offset) =>
      if 0 < offset then
        (job.setFileConfirmed true).setStreamOffset h (fileIndex r.fileNum) offset st
      else some (job.setFileConfirmed true, st)
    | none => some (job, st)

/-! ## Comparing a digest with what is on disk -/

inductive DigestCheckResult where
  | isSame
  | needConfirm (d : FileTransferDigest)
  | noSuchFile
  deriving DecidableEq

/-- The part of a file that an interrupted transfer left, if its digest is the one of the
    sender. -/
def resumable (h : JobHost σ φ) (filePath : String) (digest : FileTransferDigest) (st : σ) :
    Option FileTransferDigest :=
  if h.fs.pathExists (digestPath filePath) st && h.fs.pathExists (downloadPath filePath) st then
    match (h.fs.readToString (digestPath filePath) st).toOption.bind h.digestFromJson with
    | none => none
    | some localDigest =>
      if localDigest.modified = digest.lastModified ∧ localDigest.size = digest.fileSize then
        match h.fs.metadata (downloadPath filePath) st with
        | .error _ => none
        | .ok m =>
          -- An empty download is not worth a question.
          if 0 < m.len then
            some { digest with
              isUpload := false
              isIdentical := true
              transferredSize := m.len
              isResume := false }
          else none
      else none
  else none

/-- The time of `SystemTime::duration_since(UNIX_EPOCH)`, in nanoseconds. -/
def sinceEpoch (modified : Except String Int) : Except String Nat :=
  match modified with
  | .error e => .error e
  | .ok ns => if ns < 0 then .error "second time provided was later than self" else .ok ns.toNat

/-- The end of `is_write_need_confirmation`: compare with the file itself. -/
def compareFile (h : JobHost σ φ) (filePath : String) (digest : FileTransferDigest) (st : σ) :
    Except String DigestCheckResult :=
  match h.fs.metadata filePath st with
  | .error _ => .ok .noSuchFile
  | .ok m =>
    if !m.isFile then .ok .noSuchFile
    else match sinceEpoch m.modified with
      | .error e => .error e
      | .ok localMt =>
        .ok (.needConfirm { digest with
          lastModified := localMt / 1000000000
          fileSize := m.len
          isUpload := false
          isIdentical :=
            localMt == digest.lastModified * 1000000000 && digest.fileSize == m.len
          transferredSize := 0
          isResume := false })

def isWriteNeedConfirmation (h : JobHost σ φ) (isResume : Bool) (filePath : String)
    (digest : FileTransferDigest) (st : σ) : Except String DigestCheckResult :=
  match if isResume then resumable h filePath digest st else none with
  | some d => .ok (.needConfirm d)
  | none => compareFile h filePath digest st

end TransferJob

/-! ## Lists of jobs -/

/-- `get_job`. -/
def getJob {φ : Type} (id : Int32) (jobs : List (TransferJob φ)) : Option (TransferJob φ) :=
  jobs.find? (·.id = id)

/-- What the job found by `get_job` has become. -/
def putJob {φ : Type} (job : TransferJob φ) : List (TransferJob φ) → List (TransferJob φ)
  | [] => []
  | j :: jobs => if j.id = job.id then job :: jobs else j :: putJob job jobs

/-- What `remove_job` leaves of the list. -/
def removeJob {φ : Type} (id : Int32) (jobs : List (TransferJob φ)) : List (TransferJob φ) :=
  jobs.eraseP (·.id = id)

section Jobs

variable {φ : Type} {job j : TransferJob φ} {jobs : List (TransferJob φ)}

theorem mem_of_getJob {id : Int32} (hget : getJob id jobs = some job) : job ∈ jobs ∧ job.id = id :=
  ⟨List.mem_of_find?_eq_some hget, by simpa using List.find?_some hget⟩

theorem mem_putJob (hmem : j ∈ putJob job jobs) : j = job ∨ j ∈ jobs := by
  induction jobs with
  | nil => exact .inr hmem
  | cons k jobs ih =>
    unfold putJob at hmem
    split at hmem
    · rcases List.mem_cons.mp hmem with rfl | hmem
      · exact .inl rfl
      · exact .inr (List.mem_cons_of_mem k hmem)
    · rcases List.mem_cons.mp hmem with rfl | hmem
      · exact .inr List.mem_cons_self
      · exact (ih hmem).imp id (List.mem_cons_of_mem k)

end Jobs

end LuodaRemote
