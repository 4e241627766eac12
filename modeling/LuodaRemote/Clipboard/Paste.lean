/-
  Pasting the files of a peer on macOS: `PasteTask` of
  libs/clipboard/src/platform/unix/macos/paste_task.rs. One list of descriptors is worked off in
  order; a file is asked for block by block, written beside its name and renamed at the end.

  The file system is a parameter, so its calls may fail. A writer hands on what it is given at
  once. Times and extended attributes of files are left out, and so is the text of an error where
  only its kind is looked at. A list has less than 2^31 descriptors.
-/
import LuodaRemote.Clipboard.Descriptors
import LuodaRemote.Transfer.Read
import LuodaRemote.Transfer.Symlinks

namespace LuodaRemote
open Lib

namespace Paste

open Clip (FileDescription FileType)

/-! ## Names -/

/-- `rsplit_file_at_dot`: the stem of a file name and its extension. -/
def splitExtension (name : String) : String × Option String :=
  let back := name.toList.reverse
  match back.dropWhile (· ≠ '.') with
  | _ :: before =>
    if before = [] then (name, none)
    else (String.ofList before.reverse, some (String.ofList (back.takeWhile (· ≠ '.')).reverse))
  | [] => (name, none)

/-- `Path::parent`, with single separators. -/
def parentPath (path : String) : String :=
  (if path.toList.head? = some '/' then "/" else "") ++
    "/".intercalate (parentNames (pathNames path))

/-- `Path::with_file_name` for a path that has a file name. -/
def withFileName (path name : String) : String := pathJoin false (parentPath path) name

/-- The name that `get_first_filename` tries with a number. -/
def numbered (kind : FileType) (path : String) (i : Nat) : Option String :=
  match kind with
  | .file =>
    match splitExtension (pathFileName false path) with
    | (stem, some ext) => some (withFileName path (stem ++ "-" ++ toString i ++ "." ++ ext))
    | (_, none) => some (path ++ " (" ++ toString i ++ ")")
  | .directory => some (path ++ " (" ++ toString i ++ ")")
  | .symlink => none

section Calls

variable {σ φ : Type}

/-- The loop of `get_first_filename`. -/
def tryNumbers (fs : FileSystem σ φ) (kind : FileType) (path : String) (st : σ) :
    (fuel i : Nat) → Option String
  | 0, _ => none
  | fuel + 1, i =>
    match numbered kind path i with
    | none => none
    | some newPath =>
      if !fs.pathExists newPath st then some newPath
      else tryNumbers fs kind path st fuel (i + 1)

def getFirstFilename (fs : FileSystem σ φ) (path : String) (kind : FileType) (st : σ) :
    Option String :=
  if !fs.pathExists path st then some path else tryNumbers fs kind path st 9999998 1

def getNewFilename (fs : FileSystem σ φ) (targetDir : String) (d : FileDescription) (st : σ) :
    Option String :=
  let renameToPath := pathJoin false targetDir d.name
  if fs.pathExists renameToPath st then getFirstFilename fs renameToPath d.kind st
  else some renameToPath

/-- `create_dir_all`: the directories above a name in the directory. -/
def createDirAll (fs : FileSystem σ φ) (path : String) (st : σ) : Except String Unit × σ :=
  fs.createParents (pathJoin false path "x") st

end Calls

/-! ## The task -/

inductive CliprdrError where
  | fileError (path err : String)
  | invalidRequest (description : String)
  | commonError (description : String)
  deriving DecidableEq

structure FileContentsResponse where
  connId : Int32
  msgFlags : Int32
  streamId : Int
  requestedData : Bytes

structure FileContentsRequest where
  connId : Int32
  streamId : Int
  listIndex : Int
  dwFlags : Nat := 2
  nPositionHigh : Nat
  nPositionLow : Nat
  cbRequested : Nat
  deriving DecidableEq

structure PasteTaskProgress (φ : Type) where
  listIndex : Int := -1
  offset : Nat := 0
  totalSize : Nat
  currentSize : Nat := 0
  downloadFileIndex : Int := -1
  downloadFileSize : Nat := 0
  downloadFilePath : String := ""
  downloadFileCurrentSize : Nat := 0
  fileHandle : Option φ := none
  error : Option CliprdrError := none
  isCanceled : Bool := false

/-- `PasteTaskHandle`, with the retries that the worker counts and the disk. -/
structure PasteTaskHandle (σ φ : Type) where
  progress : PasteTaskProgress φ
  targetDir : String
  files : List FileDescription
  retryCount : Nat := 0
  disk : σ

namespace PasteTaskHandle

variable {σ φ : Type}

def isFinished (s : PasteTaskHandle σ φ) : Bool :=
  s.progress.isCanceled || s.progress.error.isSome ||
    decide ((s.files.length : Int) ≤ s.progress.listIndex)

def fail (s : PasteTaskHandle σ φ) (e : CliprdrError) : PasteTaskHandle σ φ :=
  { s with progress := { s.progress with error := some e } }

/-- `files.get(i as usize)`. -/
def fileAt (s : PasteTaskHandle σ φ) (i : Int) : Option FileDescription :=
  s.files[asUsize i]?

/-! ### The end of a file -/

def onCancelled (fs : FileSystem σ φ) (s : PasteTaskHandle σ φ) : PasteTaskHandle σ φ :=
  { s with
    progress := { s.progress with fileHandle := none }
    disk := (fs.removeFile s.progress.downloadFilePath s.disk).2 }

def onError (fs : FileSystem σ φ) (s : PasteTaskHandle σ φ) (e : CliprdrError) :
    PasteTaskHandle σ φ :=
  (s.fail e).onCancelled fs

/-- The index stays as it is where nothing is renamed. -/
def onDone (fs : FileSystem σ φ) (s : PasteTaskHandle σ φ) : PasteTaskHandle σ φ :=
  match s.progress.fileHandle with
  | none => s
  | some _ =>
    if s.progress.downloadFileIndex = -1 then s
    else
      let s := { s with progress := { s.progress with fileHandle := none } }
      match s.fileAt s.progress.downloadFileIndex with
      | none => s
      | some d =>
        match getNewFilename fs s.targetDir d s.disk with
        | none => s
        | some renameToPath =>
          { s with
            progress := { s.progress with downloadFilePath := "", downloadFileIndex := -1 }
            disk := (fs.rename s.progress.downloadFilePath renameToPath s.disk).2 }

def onFinished (fs : FileSystem σ φ) (s : PasteTaskHandle σ φ) : PasteTaskHandle σ φ :=
  let s := if s.progress.error.isSome then s.onCancelled fs else s.onDone fs
  if s.progress.currentSize ≠ s.progress.totalSize then
    s.fail (.invalidRequest "Failed to download all files")
  else s

/-! ### The next file -/

def downloadExtension : String := "rddownload"

def openNewWriter (fs : FileSystem σ φ) (s : PasteTaskHandle σ φ) :
    Except CliprdrError Unit × PasteTaskHandle σ φ :=
  match s.fileAt s.progress.listIndex with
  | none => (.error (.invalidRequest "Invalid file index"), s)
  | some d =>
    let originalFilePath := pathJoin false s.targetDir d.name
    match getFirstFilename fs (originalFilePath ++ "." ++ downloadExtension) d.kind s.disk with
    | none => (.error (.commonError "Failed to get download file path"), s)
    | some downloadFilePath =>
      let parent := parentPath downloadFilePath
      match if fs.pathExists parent s.disk then (.ok (), s.disk)
        else fs.createParents downloadFilePath s.disk with
      | (.error e, disk) => (.error (.fileError parent e), { s with disk })
      | (.ok (), disk) =>
        match fs.create downloadFilePath disk with
        | (.ok f, disk) => (.ok (), { s with
            progress := { s.progress with
              downloadFileIndex := s.progress.listIndex
              downloadFileSize := d.size
              downloadFilePath
              downloadFileCurrentSize := 0
              fileHandle := some f }
            disk })
        | (.error e, disk) => (.ok (), { s with disk }.fail (.fileError downloadFilePath e))

/-- A file of no size is made at once. A failure is passed over. -/
def createEmpty (fs : FileSystem σ φ) (s : PasteTaskHandle σ φ) (d : FileDescription) :
    PasteTaskHandle σ φ :=
  match getNewFilename fs s.targetDir d s.disk with
  | none => s
  | some newFilePath => { s with disk := (fs.create newFilePath s.disk).2 }

def createDir (fs : FileSystem σ φ) (s : PasteTaskHandle σ φ) (d : FileDescription) :
    PasteTaskHandle σ φ :=
  let path := pathJoin false s.targetDir d.name
  if fs.pathExists path s.disk then s
  else { s with disk := (createDirAll fs path s.disk).2 }

/-- The loop of `update_next` over what is left of the list, from number `i` on. -/
def nextFile (fs : FileSystem σ φ) (i : Nat) :
    List FileDescription → PasteTaskHandle σ φ → Except CliprdrError Unit × PasteTaskHandle σ φ
  | [], s => (.ok (), s)
  | d :: rest, s =>
    match d.kind with
    | .file =>
      if d.size = 0 then nextFile fs (i + 1) rest (s.createEmpty fs d)
      else
        { s with progress := { s.progress with listIndex := i, offset := 0 } }.openNewWriter fs
    | .directory => nextFile fs (i + 1) rest (s.createDir fs d)
    | .symlink => nextFile fs (i + 1) rest s

/-- The end of `update_next`: with no file open, the list is over. -/
def endOfList (s : PasteTaskHandle σ φ) : PasteTaskHandle σ φ :=
  match s.progress.fileHandle with
  | some _ => s
  | none => { s with progress := { s.progress with
      listIndex := s.files.length
      offset := 0
      downloadFileSize := 0
      downloadFileCurrentSize := 0 } }

/-- What `update_next` does at the start and after a file. -/
def openNext (fs : FileSystem σ φ) (s : PasteTaskHandle σ φ) :
    Except CliprdrError Unit × PasteTaskHandle σ φ :=
  let i := (s.progress.listIndex + 1).toNat
  match nextFile fs i (s.files.drop i) s with
  | (.error e, s) => (.error e, s)
  | (.ok (), s) => (.ok (), s.endOfList)

/-- Sizes are `u64`. -/
def count (s : PasteTaskHandle σ φ) (size : Nat) : PasteTaskHandle σ φ :=
  { s with progress := { s.progress with
      currentSize := (s.progress.currentSize + size) % 2 ^ 64 } }

def moveOffset (s : PasteTaskHandle σ φ) (size : Nat) : PasteTaskHandle σ φ :=
  { s with progress := { s.progress with
      offset := s.progress.offset + size
      downloadFileCurrentSize := s.progress.downloadFileCurrentSize + size } }

def updateNext (fs : FileSystem σ φ) (s : PasteTaskHandle σ φ) (size : Nat) :
    Except CliprdrError Unit × PasteTaskHandle σ φ :=
  if s.isFinished then (.ok (), s)
  else if s.progress.listIndex = -1 then (s.count size).openNext fs
  else if s.progress.downloadFileSize ≤ s.progress.offset + size then
    ((s.count size).onDone fs).openNext fs
  else (.ok (), ((s.count size).moveOffset size).endOfList)

/-! ### Requests and responses -/

/-- `BLOCK_SIZE`. -/
def blockSize : Nat := 4 * 1024 * 1024

/-- `send_file_contents_request`, with the request. A send that fails is passed over. -/
def sendFileContentsRequest (fs : FileSystem σ φ) (s : PasteTaskHandle σ φ) :
    PasteTaskHandle σ φ × List FileContentsRequest :=
  if s.isFinished then (s, [])
  else match s.fileAt s.progress.listIndex with
    | none => (s.onError fs (.invalidRequest "Invalid file index"), [])
    | some d => (s, [{
        connId := d.connId
        streamId := s.progress.listIndex
        listIndex := s.progress.listIndex
        nPositionHigh := s.progress.offset / 2 ^ 32
        nPositionLow := s.progress.offset % 2 ^ 32
        cbRequested := min blockSize (d.size - s.progress.offset) }])

def handleFileContentsResponse (fs : FileSystem σ φ) (s : PasteTaskHandle σ φ)
    (r : FileContentsResponse) : Except CliprdrError Unit × PasteTaskHandle σ φ :=
  match s.progress.fileHandle with
  | none => (.error (.fileError s.progress.downloadFilePath "file handle is not opened"), s)
  | some f =>
    match fs.writeAll f r.requestedData s.disk with
    | (.error e, disk) =>
      (.error (.fileError s.progress.downloadFilePath e), { s with disk })
    | (.ok (), disk) => { s with disk }.updateNext fs r.requestedData.length

/-- The end of a turn of the worker. -/
def goOn (fs : FileSystem σ φ) (s : PasteTaskHandle σ φ) :
    PasteTaskHandle σ φ × List FileContentsRequest :=
  if !s.isFinished then s.sendFileContentsRequest fs
  else ({ s with retryCount := 0 }.onFinished fs, [])

def recvRetryTimes : Nat := 3

/-- A response that the worker takes out of its channel. -/
def receive (fs : FileSystem σ φ) (s : PasteTaskHandle σ φ) (r : FileContentsResponse) :
    PasteTaskHandle σ φ × List FileContentsRequest :=
  if s.isFinished then (s, [])
  else if r.streamId ≠ s.progress.listIndex then (s, [])
  else if r.msgFlags ≠ 1 then
    let s := { s with retryCount := s.retryCount + 1 }
    (if recvRetryTimes < s.retryCount then s.fail (.invalidRequest "Failed to read file contents")
      else s).goOn fs
  else match s.fileAt r.streamId with
    | none => (s, [])
    | some d =>
      if d.connId ≠ r.connId then (s, [])
      else match s.handleFileContentsResponse fs r with
        | (.error e, s) => (s.onError fs e).goOn fs
        | (.ok (), s) => s.goOn fs

/-- What happens to a task. -/
inductive Event where
  | response (r : FileContentsResponse)
  /-- Nothing came; `late` if the last request is more than five seconds old. -/
  | timeout (late : Bool)
  | cancel

def step (fs : FileSystem σ φ) (s : PasteTaskHandle σ φ) : Event → PasteTaskHandle σ φ
  | .response r => (s.receive fs r).1
  | .timeout late =>
    if late && !s.isFinished then
      { s.fail (.invalidRequest "Failed to read file contents") with
        retryCount := 0 }.onFinished fs
    else s
  | .cancel =>
    { s with progress := { s.progress with isCanceled := true } }.onCancelled fs

end PasteTaskHandle

/-- `PasteTask::start` while no other task is on. -/
def start {σ φ : Type} (fs : FileSystem σ φ) (targetDir : String) (files : List FileDescription)
    (disk : σ) : PasteTaskHandle σ φ × List FileContentsRequest :=
  let s : PasteTaskHandle σ φ :=
    { progress := { totalSize := (files.map (·.size)).sum % 2 ^ 64 }, targetDir, files, disk }
  -- An error of `update_next` is passed over.
  let s := (s.updateNext fs 0).2
  if s.isFinished then (s.onFinished fs, []) else s.sendFileContentsRequest fs

end Paste

end LuodaRemote
