/-
  The sending side of a transfer: a `TransferJob` that reads its files, and
  `handle_read_jobs` of `libs/hbb_common/src/fs.rs`, which lets the first job of a list take a
  step at every tick.

  Whether a job is done is not recorded anywhere. When `read` has nothing to send, the job
  counts as done unless it waits for a confirmation (`jobCompleted`). With overwrite detection
  a job whose file cannot be opened, or whose metadata cannot be read, waits for nothing, so
  that it is done in the middle of the list. `done_at_end_iff` says that nothing else goes
  wrong, over every run of ticks and confirmations.

  The network takes what it is sent. The log of a job is left out.
-/
import LuodaRemote.Transfer.Write

namespace LuodaRemote
open Lib

/-! ## Which files are compressed -/

/-- `get_ext`: what follows the last dot. -/
def getExt (name : String) : String :=
  if name.toList.contains '.' then
    String.ofList (name.toList.reverse.takeWhile (· ≠ '.')).reverse
  else ""

def isCompressedFile (name : String) : Bool :=
  ["xz", "gz", "zip", "7z", "rar", "bz2", "tgz", "png", "jpg"].contains (getExt name)

/-- `Path::file_name`, empty where there is none. -/
def pathFileName (windows : Bool) (p : String) : String :=
  match (pathComponents windows p).getLast? with
  | some (.normal seg) => seg
  | _ => ""

namespace TransferJob

variable {σ φ : Type}

/-- `new_read`, with the files found below the path. -/
def newRead (id : Int32) (jobType : JobType) (dataSource : DataSource) (fileNum : Int32)
    (found : List FileEntry) (enableOverwriteDetection : Bool) : TransferJob φ :=
  match dataSource with
  | .filePath p =>
    { id, jobType, dataSource := .filePath p, fileNum, enableOverwriteDetection, files := found
      totalSize := (found.map (·.size)).sum }
  | .memoryCursor data =>
    { id, jobType, dataSource := .memoryCursor data, fileNum, enableOverwriteDetection
      totalSize := data.length }

/-! ## Opening the current file -/

/-- `open_data_stream`: `true` if the job is done. A file that cannot be opened is passed
    over. -/
def openDataStream (h : JobHost σ φ) (job : TransferJob φ) (st : σ) :
    Except String Bool × TransferJob φ × σ :=
  match job.dataSource with
  | .filePath p =>
    match job.files[fileIndex job.fileNum]? with
    | none => (.ok true, { job with dataStream := none }, st)
    | some entry =>
      match job.dataStream with
      | some _ => (.ok false, job, st)
      | none =>
        match h.fs.openRead (join h p entry.name) st with
        | (.ok f, st) => (.ok false, { job with
            dataStream := some (.fileStream f (fileIndex job.fileNum))
            fileConfirmed := false
            fileIsWaiting := false }, st)
        | (.error e, st) => (.error e, { job with
            fileNum := job.fileNum + 1
            fileConfirmed := false
            fileIsWaiting := false }, st)
  | .memoryCursor data =>
    match job.dataStream with
    | some _ => (.ok false, job, st)
    | none => (.ok false, { job with
        dataSource := .memoryCursor []
        dataStream := some (.bufStream data 0) }, st)

/-- The time of the last change in seconds and the length of an open file. -/
def digestOf (h : JobHost σ φ) (f : φ) (st : σ) : Except String (Nat × Nat) :=
  match h.fs.fileMetadata f st with
  | .error e => .error e
  | .ok m => (sinceEpoch m.modified).map fun ns => (ns / 1000000000, m.len)

def getCurrentDigest (h : JobHost σ φ) (job : TransferJob φ) (st : σ) :
    Except String (Nat × Nat) :=
  match job.dataStream with
  | none => .error "file is None"
  | some (.fileStream f _) => digestOf h f st
  | some (.bufStream _ _) => .error "No digest for buf stream"

/-- The job asks the other side before it sends the current file, and has not done so. -/
def needsDigest (job : TransferJob φ) : Bool :=
  job.jobType = .generic && job.enableOverwriteDetection && !job.fileConfirmed &&
    !job.fileIsWaiting

/-- `init_data_stream`, with what it sends. -/
def initDataStream (h : JobHost σ φ) (job : TransferJob φ) (st : σ) :
    Except String Unit × TransferJob φ × σ × List FileMessage :=
  match job.openDataStream h st with
  | (.error e, job, st) => (.error e, job, st, [])
  | (.ok true, job, st) => (.ok (), job, st, [])
  | (.ok false, job, st) =>
    if job.needsDigest then
      match job.getCurrentDigest h st with
      | .error e => (.error e, job, st, [])
      | .ok (lastModified, fileSize) =>
        (.ok (), { job with fileIsWaiting := true }, st,
          [.digest { id := job.id, fileNum := job.fileNum, lastModified, fileSize
                     isResume := job.isResume }])
    else (.ok (), job, st, [])

/-! ## Reading a block -/

/-- `BUF_SIZE`. -/
def bufSize : Nat := 128 * 1024

/-- The loop that fills the buffer, with room for `room` bytes and at most `fuel` reads. -/
def fillBuf (h : JobHost σ φ) (f : φ) : (fuel room : Nat) → σ → Except String Bytes × σ
  | 0, _, st => (.ok [], st)
  | fuel + 1, room, st =>
    match h.fs.read f room st with
    | (.error e, st) => (.error e, st)
    | (.ok bs, st) =>
      let bs := bs.take room
      if bs.isEmpty || room ≤ bs.length then (.ok bs, st)
      else match fillBuf h f fuel (room - bs.length) st with
        | (.error e, st) => (.error e, st)
        | (.ok more, st) => (.ok (bs ++ more), st)

/-- What the next block of the stream holds, and the stream behind it. Every read but the last
    brings at least one byte. -/
def readStream (h : JobHost σ φ) (stream : DataStream φ) (st : σ) :
    Except String Bytes × DataStream φ × σ :=
  match stream with
  | .fileStream f entry =>
    match fillBuf h f (bufSize + 1) bufSize st with
    | (r, st) => (r, .fileStream f entry, st)
  | .bufStream data pos =>
    let bs := (data.drop pos).take bufSize
    (.ok bs, .bufStream data (pos + bs.length), st)

/-- The flags and the stream of a file that is over, one way or the other. -/
def leaveFile (job : TransferJob φ) : TransferJob φ :=
  { job with
    fileNum := job.fileNum + 1
    dataStream := none
    fileConfirmed := false
    fileIsWaiting := false }

/-- The bytes that go on the wire for what was read, and whether they are compressed. -/
def packBlock (h : JobHost σ φ) (name : String) (job : TransferJob φ) (buf : Bytes) :
    Bytes × Bool :=
  match job.dataSource with
  | .filePath _ =>
    if isCompressedFile name then (buf, false)
    else
      let tmp := h.compress buf
      if tmp.length < buf.length then (tmp, true) else (buf, false)
  | .memoryCursor _ => (buf, false)

/-- `read` of a job that may send: the rest after the checks, for a file of this name. -/
def readBlock (h : JobHost σ φ) (name : String) (job : TransferJob φ) (st : σ) :
    Except String (Option FileTransferBlock) × TransferJob φ × σ :=
  match job.dataStream with
  | none => (.error "data stream is None", job, st)
  | some stream =>
    match readStream h stream st with
    | (.error e, _, st) => (.error e, job.leaveFile, st)
    | (.ok buf, stream, st) =>
      if buf.isEmpty then
        match job.dataSource with
        | .memoryCursor _ => (.ok none, { job with dataStream := none }, st)
        | .filePath _ =>
          (.ok (some ⟨job.id, job.fileNum, [], false⟩), job.leaveFile, st)
      else
        let (data, compressed) := job.packBlock h name buf
        (.ok (some ⟨job.id, job.fileNum, data, compressed⟩), { job with
          dataStream := some stream
          finishedSize := job.finishedSize + buf.length
          transferred := job.transferred + data.length }, st)

def read (h : JobHost σ φ) (job : TransferJob φ) (st : σ) :
    Except String (Option FileTransferBlock) × TransferJob φ × σ :=
  if job.jobType = .generic ∧ job.enableOverwriteDetection ∧ ¬ job.fileConfirmed then
    (.ok none, job, st)
  else match job.dataSource with
    | .filePath p =>
      match job.files[fileIndex job.fileNum]? with
      | none => (.ok none, { job with dataStream := none }, st)
      | some entry =>
        let name := if job.files.length = 1 ∧ entry.name = "" then pathFileName h.windows p
          else entry.name
        job.readBlock h name st
    | .memoryCursor _ => job.readBlock h "" st

/-! ## Jobs that are done -/

def jobSkipped (job : TransferJob φ) : Bool := job.fileSkipped && job.files.length == 1

/-- `job_completed`, asked when `read` gives nothing. -/
def jobCompleted (job : TransferJob φ) : Bool :=
  !job.enableOverwriteDetection || (!job.fileConfirmed && !job.fileIsWaiting)

def jobError (job : TransferJob φ) : Option String :=
  if job.jobSkipped then some "skipped" else none

end TransferJob

/-! ## A tick -/

/-- The read jobs of a connection and the disk. -/
structure Sender (σ φ : Type) where
  readJobs : List (TransferJob φ)
  disk : σ

namespace Sender

variable {σ φ : Type}

/-- `init_jobs`. -/
def initJobs (h : JobHost σ φ) :
    List (TransferJob φ) → σ → List (TransferJob φ) × σ × List FileMessage
  | [], st => ([], st, [])
  | job :: jobs, st =>
    if job.isLastJob then
      let r := initJobs h jobs st
      (job :: r.1, r.2)
    else
      match job.initDataStream h st with
      | (res, job, st, out) =>
        let err := match res with
          | .error e => [FileMessage.error job.id e job.fileNum]
          | .ok () => []
        let r := initJobs h jobs st
        (job :: r.1, r.2.1, out ++ err ++ r.2.2)

/-- The loop of `handle_read_jobs`, which ends after the first job that is not a last one. The
    last component is the job that is done, as it is then. -/
def readFirst (h : JobHost σ φ) :
    List (TransferJob φ) → σ →
      List (TransferJob φ) × σ × List FileMessage × Option (TransferJob φ)
  | [], st => ([], st, [], none)
  | job :: jobs, st =>
    if job.isLastJob then
      let r := readFirst h jobs st
      (job :: r.1, r.2)
    else
      match job.read h st with
      | (.error e, job, st) => (job :: jobs, st, [.error job.id e job.fileNum], none)
      | (.ok (some block), job, st) => (job :: jobs, st, [.block block], none)
      | (.ok none, job, st) =>
        if job.jobCompleted then
          (job :: jobs, st, [match job.jobError with
            | some err => .error job.id err job.fileNum
            | none => .done job.id job.fileNum], some job)
        else (job :: jobs, st, [], none)

/-- `handle_read_jobs`: the new state, the messages sent and the job that is done. -/
def handleReadJobs (h : JobHost σ φ) (s : Sender σ φ) :
    Sender σ φ × List FileMessage × Option (TransferJob φ) :=
  let (jobs, st, sent) := initJobs h s.readJobs s.disk
  let (jobs, st, out, finished) := readFirst h jobs st
  let jobs := match finished with
    | some job => removeJob job.id jobs
    | none => jobs
  (⟨jobs, st⟩, sent ++ out, finished)

/-- What happens to the read jobs of a connection. -/
inductive Event (σ : Type) where
  | tick
  | confirm (r : FileTransferSendConfirmRequest)
  | cancel (id : Int32)
  /-- A new job, or one that was left over and is kept for later (`is_last_job`). -/
  | start (id : Int32) (jobType : JobType) (dataSource : DataSource) (fileNum : Int32)
      (found : List FileEntry) (enableOverwriteDetection isLastJob : Bool)
  /-- A job that was kept is taken up again. -/
  | resume (id : Int32)
  /-- Somebody else uses the disk. -/
  | other (effect : σ → σ)

/-- A panic of `confirm` ends the connection and with it its jobs. -/
def step (h : JobHost σ φ) (s : Sender σ φ) : Event σ → Sender σ φ
  | .tick => (handleReadJobs h s).1
  | .confirm r =>
    match getJob r.id s.readJobs with
    | none => s
    | some job =>
      match job.confirm h r s.disk with
      | some (job, st) => ⟨putJob job s.readJobs, st⟩
      | none => ⟨[], s.disk⟩
  | .cancel id => { s with readJobs := removeJob id s.readJobs }
  | .start id jobType dataSource fileNum found detection isLastJob =>
    { s with readJobs := s.readJobs ++
      [{ (TransferJob.newRead id jobType dataSource fileNum found detection) with
        isLastJob := isLastJob }] }
  | .resume id =>
    match getJob id s.readJobs with
    | none => s
    | some job =>
      let job := { job with isLastJob := false, isResume := true }
      { s with readJobs := putJob job s.readJobs }
  | .other effect => { s with disk := effect s.disk }

end Sender

/-! ## Jobs that give up early -/

namespace TransferJob

variable {σ φ : Type} {h : JobHost σ φ} {job : TransferJob φ} {st : σ}

/-- A job over files has a file open if anything, one over a buffer has no files. -/
def Sound (job : TransferJob φ) : Prop :=
  match job.dataSource with
  | .filePath _ => ∀ s, job.dataStream = some s → ∃ f e, s = .fileStream f e
  | .memoryCursor _ => job.files = []

/-- The current file is not open yet and cannot be opened. -/
def OpenFails (h : JobHost σ φ) (job : TransferJob φ) (st : σ) : Prop :=
  ∃ p entry e, job.dataSource = .filePath p ∧ job.files[fileIndex job.fileNum]? = some entry ∧
    job.dataStream = none ∧ (h.fs.openRead (join h p entry.name) st).1 = .error e

/-- The current file is opened now, or is open and neither confirmed nor asked about, and its
    metadata cannot be had. -/
def DigestFails (h : JobHost σ φ) (job : TransferJob φ) (st : σ) : Prop :=
  ∃ p entry, job.dataSource = .filePath p ∧ job.files[fileIndex job.fileNum]? = some entry ∧
    ((∃ f st' e, job.dataStream = none ∧
        h.fs.openRead (join h p entry.name) st = (.ok f, st') ∧ digestOf h f st' = .error e) ∨
      ∃ f k e, job.dataStream = some (.fileStream f k) ∧ job.fileConfirmed = false ∧
        job.fileIsWaiting = false ∧ digestOf h f st = .error e)

/-- With overwrite detection: the current file cannot be opened and is not the last one, or it
    cannot be asked about. -/
def GivesUpEarly (h : JobHost σ φ) (job : TransferJob φ) (st : σ) : Prop :=
  job.jobType = .generic ∧ job.enableOverwriteDetection = true ∧
    ((OpenFails h job st ∧ fileIndex (job.fileNum + 1) < job.files.length) ∨ DigestFails h job st)

/-! ### What `read` does to a job -/

/-- `read` past its checks moves on when a file is over or cannot be read, and gives nothing
    only at the end of a buffer. -/
theorem readBlock_cases (name : String) (job : TransferJob φ) (st : σ) :
    let r := job.readBlock h name st
    (r.2.1.fileNum = job.fileNum ∧ r.1 ≠ .ok none) ∨
    (∃ data, job.dataSource = .memoryCursor data ∧ r.2.1 = { job with dataStream := none }) ∨
    (job.dataStream.isSome ∧ r.2.1 = job.leaveFile ∧
      ((∃ e, r.1 = .error e) ∨ r.1 = .ok (some ⟨job.id, job.fileNum, [], false⟩))) := by
  unfold readBlock
  split
  · exact .inl ⟨rfl, by simp⟩
  · rename_i stream hs
    split
    · exact .inr (.inr ⟨by rw [hs]; rfl, rfl, .inl ⟨_, rfl⟩⟩)
    · split
      · split
        · rename_i data hsrc
          exact .inr (.inl ⟨data, hsrc, rfl⟩)
        · exact .inr (.inr ⟨by rw [hs]; rfl, rfl, .inr rfl⟩)
      · exact .inl ⟨rfl, by simp⟩

/-- The job as `read` leaves it, and when it gives nothing. -/
theorem read_cases (job : TransferJob φ) (st : σ) :
    let r := job.read h st
    (r.1 = .ok none ∧ r.2.1 = job ∧ job.jobType = .generic ∧
      job.enableOverwriteDetection = true ∧ job.fileConfirmed = false) ∨
    (r.2.1 = { job with dataStream := none } ∧
      ((∃ data, job.dataSource = .memoryCursor data) ∨
        job.files[fileIndex job.fileNum]? = none)) ∨
    (r.2.1.fileNum = job.fileNum ∧ r.1 ≠ .ok none) ∨
    (job.dataStream.isSome ∧ r.2.1 = job.leaveFile ∧
      ((∃ e, r.1 = .error e) ∨ r.1 = .ok (some ⟨job.id, job.fileNum, [], false⟩))) := by
  unfold read
  split
  · rename_i hask
    obtain ⟨hgen, hdet, hconf⟩ := hask
    exact .inl ⟨rfl, rfl, hgen, hdet, by simpa using hconf⟩
  · right
    split
    · split
      · rename_i hnone
        exact .inl ⟨rfl, .inr hnone⟩
      · rename_i entry _
        dsimp only
        generalize (if job.files.length = 1 ∧ entry.name = "" then _ else entry.name) = name
        rcases readBlock_cases name job st with hstay | ⟨data, hsrc, hjob⟩ | hleave
        · exact .inr (.inl hstay)
        · exact .inl ⟨hjob, .inl ⟨data, hsrc⟩⟩
        · exact .inr (.inr hleave)
    · rcases readBlock_cases "" job st with hstay | ⟨data, hsrc, hjob⟩ | hleave
      · exact .inr (.inl hstay)
      · exact .inl ⟨hjob, .inl ⟨data, hsrc⟩⟩
      · exact .inr (.inr hleave)

/-- What no step changes of a job that stays in the list. -/
structure Keeps (job job' : TransferJob φ) : Prop where
  id : job'.id = job.id
  files : job'.files = job.files
  isLastJob : job'.isLastJob = job.isLastJob
  sound : job.Sound → job'.Sound

theorem Keeps.refl (job : TransferJob φ) : Keeps job job := ⟨rfl, rfl, rfl, fun hs => hs⟩

theorem Keeps.trans {a b c : TransferJob φ} (hab : Keeps a b) (hbc : Keeps b c) : Keeps a c :=
  ⟨hbc.id.trans hab.id, hbc.files.trans hab.files, hbc.isLastJob.trans hab.isLastJob,
    fun hs => hbc.sound (hab.sound hs)⟩

/-- A job with files to send is one over files. -/
theorem Sound.filePath_of_lt (hs : job.Sound) (hlt : fileIndex job.fileNum < job.files.length) :
    ∃ p, job.dataSource = .filePath p := by
  unfold Sound at hs
  split at hs
  · rename_i p hsrc
    exact ⟨p, hsrc⟩
  · rw [hs] at hlt
    cases hlt

/-- A job is sound without a stream. -/
theorem sound_of_closed {job' : TransferJob φ} (hsrc : job'.dataSource = job.dataSource)
    (hfiles : job'.files = job.files) (hclosed : job'.dataStream = none) (hs : job.Sound) :
    job'.Sound := by
  unfold Sound at hs ⊢
  rw [hsrc, hfiles, hclosed]
  split at hs
  · intro s hs'
    cases hs'
  · exact hs

theorem leaveFile_keeps (job : TransferJob φ) : Keeps job job.leaveFile :=
  ⟨rfl, rfl, rfl, sound_of_closed rfl rfl rfl⟩

theorem readStream_fileStream (f : φ) (k : Nat) (st : σ) :
    ∃ r st', readStream h (.fileStream f k) st = (r, .fileStream f k, st') := ⟨_, _, rfl⟩

theorem readBlock_keeps (name : String) (job : TransferJob φ) (st : σ) :
    Keeps job (job.readBlock h name st).2.1 := by
  unfold readBlock
  split
  · exact Keeps.refl job
  · rename_i stream hs
    split
    · exact leaveFile_keeps job
    · rename_i buf stream' st' hr
      split
      · split
        · exact ⟨rfl, rfl, rfl, sound_of_closed rfl rfl rfl⟩
        · exact leaveFile_keeps job
      · refine ⟨rfl, rfl, rfl, fun hsound => ?_⟩
        unfold Sound at hsound ⊢
        dsimp only
        split at hsound
        · -- The stream is still the file that was open.
          obtain ⟨f, k, rfl⟩ := hsound stream hs
          obtain ⟨r, st1, hr'⟩ := readStream_fileStream (h := h) f k st
          rw [hr'] at hr
          rintro s ⟨⟩
          exact ⟨f, k, (Prod.mk.inj (Prod.mk.inj hr).2).1.symm⟩
        · exact hsound

theorem read_keeps (job : TransferJob φ) (st : σ) : Keeps job (job.read h st).2.1 := by
  unfold read
  split
  · exact Keeps.refl job
  · split
    · split
      · exact ⟨rfl, rfl, rfl, sound_of_closed rfl rfl rfl⟩
      · exact readBlock_keeps _ job st
    · exact readBlock_keeps _ job st

/-! ### What `init_data_stream` does to a job -/

/-- The current file is open after `open_data_stream`, which opens it if it has to. -/
def Opens (h : JobHost σ φ) (job : TransferJob φ) (st : σ) (f : φ) (job1 : TransferJob φ)
    (st1 : σ) : Prop :=
  (∃ k, job.dataStream = some (.fileStream f k) ∧ job1 = job ∧ st1 = st) ∨
    ∃ p entry, job.dataSource = .filePath p ∧ job.files[fileIndex job.fileNum]? = some entry ∧
      job.dataStream = none ∧ h.fs.openRead (join h p entry.name) st = (.ok f, st1) ∧
      job1 = { job with
        dataStream := some (.fileStream f (fileIndex job.fileNum))
        fileConfirmed := false
        fileIsWaiting := false }

theorem openDataStream_cases (hsound : job.Sound) (st : σ) :
    let r := job.openDataStream h st
    (job.files[fileIndex job.fileNum]? = none ∧ r.2.1.files = job.files ∧
      r.2.1.fileNum = job.fileNum) ∨
    (∃ e, OpenFails h job st ∧ r.1 = .error e ∧ r.2.1 = { job with
      fileNum := job.fileNum + 1
      fileConfirmed := false
      fileIsWaiting := false }) ∨
    (r.1 = .ok false ∧ fileIndex job.fileNum < job.files.length ∧
      ∃ f, Opens h job st f r.2.1 r.2.2) := by
  unfold openDataStream
  split
  · rename_i p hsrc
    split
    · rename_i hnone
      exact .inl ⟨hnone, rfl, rfl⟩
    · rename_i entry hentry
      have hlt : fileIndex job.fileNum < job.files.length :=
        (List.getElem?_eq_some_iff.mp hentry).1
      split
      · rename_i s hs
        unfold Sound at hsound
        rw [hsrc] at hsound
        obtain ⟨f, k, rfl⟩ := hsound s hs
        exact .inr (.inr ⟨rfl, hlt, f, .inl ⟨k, hs, rfl, rfl⟩⟩)
      · rename_i hs
        split
        · rename_i f st1 hopen
          exact .inr (.inr ⟨rfl, hlt, f, .inr ⟨p, entry, hsrc, hentry, hs, hopen, rfl⟩⟩)
        · rename_i e st1 hopen
          exact .inr (.inl ⟨e, ⟨p, entry, e, hsrc, hentry, hs, by rw [hopen]⟩, rfl, rfl⟩)
  · rename_i data hsrc
    have hfiles : job.files = [] := by
      unfold Sound at hsound
      rw [hsrc] at hsound
      exact hsound
    have hnone : job.files[fileIndex job.fileNum]? = none := by rw [hfiles]; rfl
    split
    · exact .inl ⟨hnone, rfl, rfl⟩
    · exact .inl ⟨hnone, rfl, rfl⟩

theorem openDataStream_keeps (job : TransferJob φ) (st : σ) :
    Keeps job (job.openDataStream h st).2.1 := by
  unfold openDataStream
  split
  · rename_i p hsrc
    split
    · exact ⟨rfl, rfl, rfl, sound_of_closed rfl rfl rfl⟩
    · split
      · exact Keeps.refl job
      · rename_i hclosed
        split
        · rename_i f st1 _
          refine ⟨rfl, rfl, rfl, fun _ => ?_⟩
          unfold Sound
          dsimp only
          rw [hsrc]
          rintro s ⟨⟩
          exact ⟨f, _, rfl⟩
        · exact ⟨rfl, rfl, rfl, sound_of_closed rfl rfl hclosed⟩
  · rename_i data hsrc
    split
    · exact Keeps.refl job
    · refine ⟨rfl, rfl, rfl, fun hs => ?_⟩
      unfold Sound at hs ⊢
      rw [hsrc] at hs
      exact hs

/-- The job that `init_data_stream` leaves is the one `open_data_stream` leaves, perhaps waiting
    for an answer. -/
theorem initDataStream_eq (job : TransferJob φ) (st : σ) :
    (job.initDataStream h st).2.1 = (job.openDataStream h st).2.1 ∨
      (job.initDataStream h st).2.1 =
        { (job.openDataStream h st).2.1 with fileIsWaiting := true } := by
  unfold initDataStream
  rcases job.openDataStream h st with ⟨r, job1, st1⟩
  rcases r with e | done
  · exact .inl rfl
  · cases done with
    | true => exact .inl rfl
    | false =>
      dsimp only
      split
      · split
        · exact .inl rfl
        · exact .inr rfl
      · exact .inl rfl

theorem initDataStream_keeps (job : TransferJob φ) (st : σ) :
    Keeps job (job.initDataStream h st).2.1 := by
  have hopen := openDataStream_keeps (h := h) job st
  rcases initDataStream_eq (h := h) job st with heq | heq
  · rw [heq]
    exact hopen
  · rw [heq]
    exact hopen.trans ⟨rfl, rfl, rfl, fun hs => hs⟩

/-- The state a job is in when it is taken for done in the middle of its list. -/
def Drops (job : TransferJob φ) : Prop :=
  job.jobType = .generic ∧ job.enableOverwriteDetection = true ∧ job.fileConfirmed = false ∧
    job.fileIsWaiting = false ∧ fileIndex job.fileNum < job.files.length

theorem needsDigest_iff : job.needsDigest = true ↔
    job.jobType = .generic ∧ job.enableOverwriteDetection = true ∧ job.fileConfirmed = false ∧
      job.fileIsWaiting = false := by
  simp [needsDigest, and_assoc]

theorem drops_iff : Drops job ↔
    job.needsDigest = true ∧ fileIndex job.fileNum < job.files.length := by
  rw [needsDigest_iff]
  simp only [Drops, and_assoc]

/-- `init_data_stream` for a file that is open. -/
theorem drops_of_opens {f : φ} {job1 : TransferJob φ} {st1 : σ}
    (hopen : job.openDataStream h st = (.ok false, job1, st1)) (ho : Opens h job st f job1 st1)
    (hlt : fileIndex job.fileNum < job.files.length) :
    Drops (job.initDataStream h st).2.1 ↔
      job1.needsDigest = true ∧ ∃ e, digestOf h f st1 = .error e := by
  have hstream : ∃ k, job1.dataStream = some (.fileStream f k) := by
    rcases ho with ⟨k, hk, rfl, _⟩ | ⟨_, _, _, _, _, _, rfl⟩
    · exact ⟨k, hk⟩
    · exact ⟨_, rfl⟩
  have hnum : job1.fileNum = job.fileNum ∧ job1.files = job.files := by
    rcases ho with ⟨k, _, rfl, _⟩ | ⟨_, _, _, _, _, _, rfl⟩ <;> exact ⟨rfl, rfl⟩
  have hdig : job1.getCurrentDigest h st1 = digestOf h f st1 := by
    obtain ⟨k, hk⟩ := hstream
    unfold getCurrentDigest
    rw [hk]
  unfold initDataStream
  rw [hopen]
  dsimp only
  by_cases hneeds : job1.needsDigest = true
  · rw [if_pos hneeds, hdig]
    rcases digestOf h f st1 with e | ⟨lastModified, fileSize⟩
    · refine iff_of_true (drops_iff.mpr ⟨hneeds, ?_⟩) ⟨hneeds, e, rfl⟩
      rw [hnum.1, hnum.2]
      exact hlt
    · refine iff_of_false ?_ ?_
      · rintro ⟨_, _, _, hwait, _⟩
        cases hwait
      · rintro ⟨_, e, he⟩
        cases he
  · rw [if_neg hneeds]
    exact iff_of_false (fun hd => hneeds (drops_iff.mp hd).1) fun hd => hneeds hd.1

/-- A job is taken for done early precisely if it gives up early. -/
theorem drops_iff_givesUpEarly (hsound : job.Sound) (st : σ) :
    Drops (job.initDataStream h st).2.1 ↔ GivesUpEarly h job st := by
  rcases hopen : job.openDataStream h st with ⟨r, job1, st1⟩
  have hcases := openDataStream_cases (h := h) hsound st
  rw [hopen] at hcases
  dsimp only at hcases
  rcases hcases with ⟨hnone, hfiles, hnum⟩ | ⟨e, hfails, rfl, rfl⟩ | ⟨rfl, hlt, f, ho⟩
  · -- Past the end of the list nothing is dropped.
    refine iff_of_false ?_ ?_
    · rintro ⟨_, _, _, _, hlt⟩
      have hend : job.files.length ≤ fileIndex job.fileNum := List.getElem?_eq_none_iff.mp hnone
      rcases initDataStream_eq (h := h) job st with heq | heq <;>
        · rw [heq, hopen] at hlt
          dsimp only at hlt
          rw [hfiles, hnum] at hlt
          omega
    · rintro ⟨_, _, ⟨⟨_, _, _, _, hsome, _⟩, _⟩ | ⟨_, _, _, hsome, _⟩⟩
      · rw [hnone] at hsome
        cases hsome
      · rw [hnone] at hsome
        cases hsome
  · have hinit : job.initDataStream h st = (.error e, { job with
        fileNum := job.fileNum + 1
        fileConfirmed := false
        fileIsWaiting := false }, st1, []) := by
      unfold initDataStream
      rw [hopen]
    rw [hinit]
    constructor
    · rintro ⟨hgen, hdet, _, _, hlt⟩
      exact ⟨hgen, hdet, .inl ⟨hfails, hlt⟩⟩
    · rintro ⟨hgen, hdet, ⟨_, hlt⟩ | ⟨p', entry', hsrc', hentry', hdig⟩⟩
      · exact ⟨hgen, hdet, rfl, rfl, hlt⟩
      · obtain ⟨p, entry, e', hsrc, hentry, hclosed, herr⟩ := hfails
        rw [hsrc] at hsrc'
        rw [hentry] at hentry'
        cases hsrc'
        cases hentry'
        rcases hdig with ⟨f, st', e2, _, hok, _⟩ | ⟨f, k, e2, hs, _⟩
        · rw [hok] at herr
          cases herr
        · rw [hclosed] at hs
          cases hs
  · rw [drops_of_opens hopen ho hlt, needsDigest_iff]
    obtain ⟨p, hsrc⟩ := hsound.filePath_of_lt hlt
    have hentry := List.getElem?_eq_getElem hlt
    -- The file can be opened, so only the digest can fail.
    have hearly : GivesUpEarly h job st ↔ job.jobType = .generic ∧
        job.enableOverwriteDetection = true ∧ DigestFails h job st := by
      refine and_congr_right fun _ => and_congr_right fun _ => or_iff_right ?_
      rintro ⟨⟨p', entry, e, hsrc', hentry', hclosed, herr⟩, _⟩
      rcases ho with ⟨k, hk, _⟩ | ⟨p'', entry', hsrc'', hentry'', _, hok, _⟩
      · rw [hk] at hclosed
        cases hclosed
      · rw [hsrc'] at hsrc''
        rw [hentry'] at hentry''
        cases hsrc''
        cases hentry''
        rw [hok] at herr
        cases herr
    rw [hearly]
    rcases ho with ⟨k, hk, rfl, rfl⟩ | ⟨p', entry, hsrc', hentry', hclosed, hok, rfl⟩
    · constructor
      · rintro ⟨⟨hgen, hdet, hconf, hwait⟩, e, he⟩
        exact ⟨hgen, hdet, p, _, hsrc, hentry, .inr ⟨f, k, e, hk, hconf, hwait, he⟩⟩
      · rintro ⟨hgen, hdet, _, _, _, _, ⟨_, _, _, hclosed, _⟩ | ⟨f', k', e, hk', hconf, hwait, he⟩⟩
        · rw [hk] at hclosed
          cases hclosed
        · rw [hk] at hk'
          cases hk'
          exact ⟨⟨hgen, hdet, hconf, hwait⟩, e, he⟩
    · constructor
      · rintro ⟨⟨hgen, hdet, _, _⟩, e, he⟩
        exact ⟨hgen, hdet, p', entry, hsrc', hentry', .inl ⟨f, st1, e, hclosed, hok, he⟩⟩
      · rintro ⟨hgen, hdet, p2, entry2, hsrc2, hentry2,
          ⟨f2, st2, e, _, hok2, he⟩ | ⟨_, _, _, hk, _⟩⟩
        · rw [hsrc'] at hsrc2
          rw [hentry'] at hentry2
          cases hsrc2
          cases hentry2
          rw [hok] at hok2
          cases hok2
          exact ⟨⟨hgen, hdet, rfl, rfl⟩, e, he⟩
        · rw [hclosed] at hk
          cases hk

end TransferJob

/-! ## The job that is done at a tick -/

namespace Sender

open TransferJob (Sound Keeps Drops GivesUpEarly drops_iff_givesUpEarly initDataStream_keeps
  initDataStream_eq openDataStream_cases read_keeps read_cases)

variable {σ φ : Type} {h : JobHost σ φ}

/-- The job that may take a step. -/
def firstJob (jobs : List (TransferJob φ)) : Option (TransferJob φ) :=
  jobs.find? fun job => !job.isLastJob

/-- The jobs before the first one leave the disk alone. -/
theorem initJobs_firstJob (jobs : List (TransferJob φ)) (st : σ) :
    firstJob (initJobs h jobs st).1 =
      (firstJob jobs).map fun job => (job.initDataStream h st).2.1 := by
  unfold firstJob
  induction jobs with
  | nil => rfl
  | cons job jobs ih =>
    unfold initJobs
    by_cases hlast : job.isLastJob = true
    · rw [if_pos hlast]
      simpa [hlast] using ih
    · rw [if_neg hlast]
      rcases hinit : job.initDataStream h st with ⟨res, job', st', out⟩
      have hlast' : job'.isLastJob = job.isLastJob := by
        have hk := (initDataStream_keeps (h := h) job st).isLastJob
        rwa [hinit] at hk
      simp [hlast, hlast', hinit]

/-- The job that is done, if the job that takes the step is. -/
def doneAfter (h : JobHost σ φ) (job : TransferJob φ) (st : σ) : Option (TransferJob φ) :=
  match job.read h st with
  | (.ok none, job, _) => if job.jobCompleted then some job else none
  | _ => none

theorem readFirst_finished (jobs : List (TransferJob φ)) (st : σ) :
    (readFirst h jobs st).2.2.2 = (firstJob jobs).bind fun job => doneAfter h job st := by
  unfold firstJob
  induction jobs with
  | nil => rfl
  | cons job jobs ih =>
    unfold readFirst
    by_cases hlast : job.isLastJob = true
    · rw [if_pos hlast]
      simpa [hlast] using ih
    · rw [if_neg hlast]
      simp only [List.find?_cons, hlast, Bool.not_false, Option.bind_some, doneAfter]
      rcases job.read h st with ⟨r, job', st'⟩
      rcases r with e | _ | block
      · rfl
      · dsimp only
        split <;> rfl
      · rfl

theorem handleReadJobs_finished (s : Sender σ φ) :
    ∃ st, (handleReadJobs h s).2.2 = (firstJob s.readJobs).bind fun job =>
      doneAfter h (job.initDataStream h s.disk).2.1 st := by
  refine ⟨(initJobs h s.readJobs s.disk).2.1, ?_⟩
  unfold handleReadJobs
  dsimp only
  rw [readFirst_finished, initJobs_firstJob, Option.bind_map]
  rfl

/-- A job is done in the middle of its list in one state only. -/
theorem doneAfter_early_iff {job : TransferJob φ} (hsound : job.Sound) (st : σ) :
    (∃ job', doneAfter h job st = some job' ∧ fileIndex job'.fileNum < job'.files.length) ↔
      Drops job := by
  unfold doneAfter
  constructor
  · rintro ⟨job', hdone, hlt⟩
    rcases hr : job.read h st with ⟨r, job1, st1⟩
    have hcases := read_cases (h := h) job st
    rw [hr] at hdone hcases
    dsimp only at hcases
    rcases r with e | _ | block
    · cases hdone
    · dsimp only at hdone
      split at hdone
      · rename_i hcomp
        obtain rfl := Option.some.inj hdone
        rcases hcases with ⟨_, rfl, hgen, hdet, hconf⟩ | ⟨rfl, hend⟩ | ⟨_, hne⟩ | ⟨_, _, hr'⟩
        · refine ⟨hgen, hdet, hconf, ?_, hlt⟩
          simpa [TransferJob.jobCompleted, hdet, hconf] using hcomp
        · exfalso
          obtain ⟨p, hsrc⟩ := hsound.filePath_of_lt hlt
          rcases hend with ⟨data, hdata⟩ | hnone
          · rw [hsrc] at hdata
            cases hdata
          · exact absurd hlt (Nat.not_lt.mpr (List.getElem?_eq_none_iff.mp hnone))
        · exact absurd rfl hne
        · rcases hr' with ⟨e, he⟩ | he <;> cases he
      · cases hdone
    · cases hdone
  · rintro ⟨hgen, hdet, hconf, hwait, hlt⟩
    have hread : job.read h st = (.ok none, job, st) := by
      unfold TransferJob.read
      rw [if_pos ⟨hgen, hdet, by simp [hconf]⟩]
    refine ⟨job, ?_, hlt⟩
    rw [hread]
    simp [TransferJob.jobCompleted, hconf, hwait]

/-- A tick at which the first job gives up early. -/
def EarlyTick (h : JobHost σ φ) (s : Sender σ φ) (e : Event σ) : Prop :=
  match e with
  | .tick => ∃ job, firstJob s.readJobs = some job ∧ GivesUpEarly h job s.disk
  | _ => False

/-- The job that is done, and removed, as it is then. -/
def finished (h : JobHost σ φ) (s : Sender σ φ) (e : Event σ) : Option (TransferJob φ) :=
  match e with
  | .tick => (handleReadJobs h s).2.2
  | _ => none

/-- A job that is done is at the end of its list. -/
def DoneAtEnd (h : JobHost σ φ) (s : Sender σ φ) (e : Event σ) : Prop :=
  ∀ job, finished h s e = some job → job.files.length ≤ fileIndex job.fileNum

theorem tick_doneAtEnd_iff (s : Sender σ φ) (hsound : ∀ job ∈ s.readJobs, job.Sound) :
    DoneAtEnd h s .tick ↔ ¬ EarlyTick h s .tick := by
  obtain ⟨st, hfin⟩ := handleReadJobs_finished (h := h) s
  unfold DoneAtEnd EarlyTick finished
  dsimp only
  rw [hfin]
  cases hfirst : firstJob s.readJobs with
  | none => simp
  | some job =>
    have hjob : job.Sound := hsound job (List.mem_of_find?_eq_some hfirst)
    have hinit : (job.initDataStream h s.disk).2.1.Sound :=
      (initDataStream_keeps job s.disk).sound hjob
    have hiff := (doneAfter_early_iff (h := h) hinit st).trans
      (drops_iff_givesUpEarly hjob s.disk)
    simp only [Option.bind_some, Option.some.injEq, exists_eq_left', ← hiff, not_exists, not_and,
      Nat.not_lt]

theorem doneAtEnd_iff (s : Sender σ φ) (e : Event σ) (hsound : ∀ job ∈ s.readJobs, job.Sound) :
    DoneAtEnd h s e ↔ ¬ EarlyTick h s e := by
  cases e with
  | tick => exact tick_doneAtEnd_iff s hsound
  | _ => simp [DoneAtEnd, EarlyTick, finished]

/-! ## What a tick does to the jobs -/

/-- `init_jobs` reports every error with the number the job stands at afterwards. -/
theorem initJobs_mem {jobs : List (TransferJob φ)} {st : σ} {job' : TransferJob φ}
    (hmem : job' ∈ (initJobs h jobs st).1) :
    ∃ job ∈ jobs, job' = job ∨ ∃ st1, job' = (job.initDataStream h st1).2.1 ∧
      ∀ e, (job.initDataStream h st1).1 = .error e →
        .error job'.id e job'.fileNum ∈ (initJobs h jobs st).2.2 := by
  induction jobs generalizing st with
  | nil => cases hmem
  | cons job jobs ih =>
    unfold initJobs at hmem ⊢
    by_cases hlast : job.isLastJob = true
    · rw [if_pos hlast] at hmem ⊢
      rcases List.mem_cons.mp hmem with rfl | hmem
      · exact ⟨job', List.mem_cons_self, .inl rfl⟩
      · obtain ⟨job0, hjob0, hcase⟩ := ih hmem
        exact ⟨job0, List.mem_cons_of_mem _ hjob0, hcase⟩
    · rw [if_neg hlast] at hmem ⊢
      rcases hinit : job.initDataStream h st with ⟨res, job1, st1, out⟩
      rw [hinit] at hmem
      dsimp only at hmem ⊢
      rcases List.mem_cons.mp hmem with rfl | hmem
      · refine ⟨job, List.mem_cons_self, .inr ⟨st, by rw [hinit], ?_⟩⟩
        intro e he
        rw [hinit] at he
        subst he
        simp
      · obtain ⟨job0, hjob0, hcase⟩ := ih hmem
        refine ⟨job0, List.mem_cons_of_mem _ hjob0, hcase.imp id ?_⟩
        rintro ⟨st2, hjob', herr⟩
        exact ⟨st2, hjob', fun e he => List.mem_append_right _ (herr e he)⟩

/-- The step of the first job is reported, the other jobs stay as they are. -/
theorem readFirst_mem {jobs : List (TransferJob φ)} {st : σ} {job' : TransferJob φ}
    (hmem : job' ∈ (readFirst h jobs st).1) :
    ∃ job ∈ jobs, job' = job ∨ ∃ st1, job' = (job.read h st1).2.1 ∧
      (∀ e, (job.read h st1).1 = .error e →
        .error job'.id e job'.fileNum ∈ (readFirst h jobs st).2.2.1) ∧
      ∀ block, (job.read h st1).1 = .ok (some block) →
        .block block ∈ (readFirst h jobs st).2.2.1 := by
  induction jobs generalizing st with
  | nil => cases hmem
  | cons job jobs ih =>
    unfold readFirst at hmem ⊢
    by_cases hlast : job.isLastJob = true
    · rw [if_pos hlast] at hmem ⊢
      rcases List.mem_cons.mp hmem with rfl | hmem
      · exact ⟨job', List.mem_cons_self, .inl rfl⟩
      · obtain ⟨job0, hjob0, hcase⟩ := ih hmem
        exact ⟨job0, List.mem_cons_of_mem _ hjob0, hcase⟩
    · rw [if_neg hlast] at hmem ⊢
      rcases hread : job.read h st with ⟨r, job1, st1⟩
      rw [hread] at hmem
      have hlist : job' ∈ job1 :: jobs := by
        rcases r with e | _ | block
        · exact hmem
        · dsimp only at hmem
          split at hmem <;> exact hmem
        · exact hmem
      rcases List.mem_cons.mp hlist with rfl | hrest
      · refine ⟨job, List.mem_cons_self, .inr ⟨st, by rw [hread], ?_, ?_⟩⟩
        · intro e he
          rw [hread] at he
          subst he
          exact List.mem_cons_self
        · intro block hblock
          rw [hread] at hblock
          subst hblock
          exact List.mem_cons_self
      · exact ⟨job', List.mem_cons_of_mem _ hrest, .inl rfl⟩

theorem readFirst_finished_mem {jobs : List (TransferJob φ)} {st : σ} {job : TransferJob φ}
    (hfin : (readFirst h jobs st).2.2.2 = some job) : job ∈ (readFirst h jobs st).1 := by
  induction jobs with
  | nil => cases hfin
  | cons job0 jobs ih =>
    unfold readFirst at hfin ⊢
    by_cases hlast : job0.isLastJob = true
    · rw [if_pos hlast] at hfin ⊢
      exact List.mem_cons_of_mem _ (ih hfin)
    · rw [if_neg hlast] at hfin ⊢
      rcases hread : job0.read h st with ⟨r, job1, st1⟩
      rw [hread] at hfin
      rcases r with e | _ | block
      · cases hfin
      · dsimp only at hfin ⊢
        split at hfin
        · rename_i hcomp
          obtain rfl := Option.some.inj hfin
          rw [if_pos hcomp]
          exact List.mem_cons_self
        · cases hfin
      · cases hfin

/-- What became of the job, with the messages sent meanwhile: the number it stands at moved
    at most by one, past a file that was read to its end or reported. -/
def Advances (sent : List FileMessage) (job job' : TransferJob φ) : Prop :=
  job'.fileNum = job.fileNum ∨ job'.fileNum = job.fileNum + 1 ∧
    ((∃ e, .error job.id e (job.fileNum + 1) ∈ sent) ∨
      .block ⟨job.id, job.fileNum, [], false⟩ ∈ sent)

/-- A file that cannot be opened is reported, and nothing of the next one is open. -/
theorem initDataStream_fileNum {job : TransferJob φ} (hsound : job.Sound) (st : σ) :
    (job.initDataStream h st).2.1.fileNum = job.fileNum ∨
      (job.initDataStream h st).2.1.fileNum = job.fileNum + 1 ∧
        (job.initDataStream h st).2.1.dataStream = none ∧
        ∃ e, (job.initDataStream h st).1 = .error e := by
  rcases hopen : job.openDataStream h st with ⟨r, job1, st1⟩
  have hcases := openDataStream_cases (h := h) hsound st
  rw [hopen] at hcases
  have heq := initDataStream_eq (h := h) job st
  rw [hopen] at heq
  dsimp only at hcases heq
  rcases hcases with ⟨_, _, hnum⟩ | ⟨e, hfails, rfl, rfl⟩ | ⟨_, _, f, ho⟩
  · left
    rcases heq with heq | heq <;> · rw [heq]; exact hnum
  · right
    obtain ⟨_, _, _, _, _, hclosed, _⟩ := hfails
    have hinit : job.initDataStream h st = (.error e, { job with
        fileNum := job.fileNum + 1
        fileConfirmed := false
        fileIsWaiting := false }, st1, []) := by
      unfold TransferJob.initDataStream
      rw [hopen]
    rw [hinit]
    exact ⟨rfl, hclosed, e, rfl⟩
  · left
    have hnum : job1.fileNum = job.fileNum := by
      rcases ho with ⟨k, _, rfl, _⟩ | ⟨_, _, _, _, _, _, rfl⟩ <;> rfl
    rcases heq with heq | heq <;> · rw [heq]; exact hnum

theorem read_fileNum (job : TransferJob φ) (st : σ) :
    (job.read h st).2.1.fileNum = job.fileNum ∨
      (job.read h st).2.1.fileNum = job.fileNum + 1 ∧ job.dataStream.isSome ∧
        ((∃ e, (job.read h st).1 = .error e) ∨
          (job.read h st).1 = .ok (some ⟨job.id, job.fileNum, [], false⟩)) := by
  rcases read_cases (h := h) job st with ⟨_, hjob, _⟩ | ⟨hjob, _⟩ | ⟨hnum, _⟩ | ⟨hs, hjob, hr⟩
  · exact .inl (by rw [hjob])
  · exact .inl (by rw [hjob])
  · exact .inl hnum
  · exact .inr ⟨by rw [hjob]; rfl, hs, hr⟩

/-- The jobs after a tick, the one that is done included. -/
theorem tick_mem {s : Sender σ φ} (hsound : ∀ job ∈ s.readJobs, job.Sound) {job' : TransferJob φ}
    (hmem : job' ∈ (handleReadJobs h s).1.readJobs ∨ (handleReadJobs h s).2.2 = some job') :
    ∃ job ∈ s.readJobs, Keeps job job' ∧ Advances (handleReadJobs h s).2.1 job job' := by
  have hlist : job' ∈ (readFirst h (initJobs h s.readJobs s.disk).1
      (initJobs h s.readJobs s.disk).2.1).1 := by
    rcases hmem with hmem | hfin
    · unfold handleReadJobs at hmem
      dsimp only at hmem
      split at hmem
      · exact List.eraseP_subset hmem
      · exact hmem
    · exact readFirst_finished_mem hfin
  obtain ⟨job1, hjob1, hread⟩ := readFirst_mem hlist
  obtain ⟨job, hjob, hinit⟩ := initJobs_mem hjob1
  have hsent : (handleReadJobs h s).2.1 = (initJobs h s.readJobs s.disk).2.2 ++
      (readFirst h (initJobs h s.readJobs s.disk).1 (initJobs h s.readJobs s.disk).2.1).2.2.1 := rfl
  have hk1 : Keeps job job1 := by
    rcases hinit with rfl | ⟨st1, rfl, _⟩
    · exact Keeps.refl job1
    · exact initDataStream_keeps job st1
  have hk2 : Keeps job1 job' := by
    rcases hread with rfl | ⟨st2, rfl, _⟩
    · exact Keeps.refl job'
    · exact read_keeps job1 st2
  -- Opening and reading do not both move the job: what could not be opened is not read.
  have hopened : job1.fileNum = job.fileNum ∨ job1.fileNum = job.fileNum + 1 ∧
      job1.dataStream = none ∧ ∃ e, .error job.id e (job.fileNum + 1) ∈
        (initJobs h s.readJobs s.disk).2.2 := by
    rcases hinit with rfl | ⟨st1, rfl, herr⟩
    · exact .inl rfl
    · rcases initDataStream_fileNum (h := h) (hsound job hjob) st1 with hnum | ⟨hnum, hs, e, he⟩
      · exact .inl hnum
      · refine .inr ⟨hnum, hs, e, ?_⟩
        have hin := herr e he
        rwa [hk1.id, hnum] at hin
  refine ⟨job, hjob, hk1.trans hk2, ?_⟩
  unfold Advances
  rw [hsent]
  rcases hread with rfl | ⟨st2, rfl, herr, hblock⟩
  · refine hopened.imp id ?_
    rintro ⟨hnum, _, e, he⟩
    exact ⟨hnum, .inl ⟨e, List.mem_append_left _ he⟩⟩
  · rcases read_fileNum (h := h) job1 st2 with hstay | ⟨hmove, hs, hr⟩
    · rw [hstay]
      refine hopened.imp id ?_
      rintro ⟨hnum, _, e, he⟩
      exact ⟨hnum, .inl ⟨e, List.mem_append_left _ he⟩⟩
    · rcases hopened with hnum | ⟨_, hclosed, _⟩
      · rw [hmove, hnum]
        refine .inr ⟨rfl, ?_⟩
        rcases hr with ⟨e, he⟩ | hb
        · have hin := herr e he
          rw [hk2.id, hk1.id, hmove, hnum] at hin
          exact .inl ⟨e, List.mem_append_right _ hin⟩
        · have hin := hblock _ hb
          rw [hk1.id, hnum] at hin
          exact .inr (List.mem_append_right _ hin)
      · rw [hclosed] at hs
        cases hs

/-! ## Every run -/

/-- The file the job stands at is over: read to its end, reported by an error, or skipped by the
    other side. -/
def Over (h : JobHost σ φ) (s : Sender σ φ) (e : Event σ) (job : TransferJob φ) : Prop :=
  match e with
  | .tick => (∃ err, .error job.id err (job.fileNum + 1) ∈ (handleReadJobs h s).2.1) ∨
      .block ⟨job.id, job.fileNum, [], false⟩ ∈ (handleReadJobs h s).2.1
  | .confirm r => r = ⟨job.id, job.fileNum, some (.skip true)⟩
  | _ => False

/-- A job that the event adds to the list. -/
def Starts (e : Event σ) (job : TransferJob φ) : Prop :=
  match e with
  | .start id jobType dataSource fileNum found detection isLastJob =>
    job = { (TransferJob.newRead id jobType dataSource fileNum found detection) with
      isLastJob := isLastJob }
  | _ => False

/-- The job is new, or one of the list before, at the same file or past it if it is over. -/
def ComesFrom (h : JobHost σ φ) (s : Sender σ φ) (e : Event σ) (job' : TransferJob φ) : Prop :=
  Starts e job' ∨ ∃ job ∈ s.readJobs, job'.id = job.id ∧ job'.files = job.files ∧
    (job'.fileNum = job.fileNum ∨ job'.fileNum = job.fileNum + 1 ∧ Over h s e job)

/-- A job goes from one file to the next only when the file is over. -/
def Accounted (h : JobHost σ φ) (s : Sender σ φ) (e : Event σ) : Prop :=
  ∀ job', job' ∈ (step h s e).readJobs ∨ finished h s e = some job' → ComesFrom h s e job'

theorem newRead_sound (id : Int32) (jobType : JobType) (dataSource : DataSource) (fileNum : Int32)
    (found : List FileEntry) (detection isLastJob : Bool) :
    Sound { (TransferJob.newRead id jobType dataSource fileNum found detection :
      TransferJob φ) with isLastJob := isLastJob } := by
  cases dataSource with
  | filePath p => rintro s ⟨⟩
  | memoryCursor data => rfl

theorem setStreamOffset_keeps {job job' : TransferJob φ} {fileNum offset : Nat} {st st' : σ}
    (hset : job.setStreamOffset h fileNum offset st = some (job', st')) :
    Keeps job job' ∧ job'.fileNum = job.fileNum := by
  unfold TransferJob.setStreamOffset at hset
  split at hset
  · cases hset
    exact ⟨Keeps.refl job, rfl⟩
  · rename_i p hsrc
    split at hset
    · cases hset
    · split at hset
      · cases hset
        exact ⟨Keeps.refl job, rfl⟩
      · split at hset
        · cases hset
          exact ⟨Keeps.refl job, rfl⟩
        · rename_i f st1 _
          split at hset
          · cases hset
            exact ⟨Keeps.refl job, rfl⟩
          · cases hset
            refine ⟨⟨rfl, rfl, rfl, fun _ => ?_⟩, rfl⟩
            unfold Sound
            dsimp only
            rw [hsrc]
            rintro s ⟨⟩
            exact ⟨f, fileNum, rfl⟩

/-- Only a skip moves a job on. -/
theorem confirm_cases {job job' : TransferJob φ} {r : FileTransferSendConfirmRequest} {st st' : σ}
    (hc : job.confirm h r st = some (job', st')) :
    Keeps job job' ∧ (job'.fileNum = job.fileNum ∨
      job'.fileNum = job.fileNum + 1 ∧ r.fileNum = job.fileNum ∧ r.union = some (.skip true)) := by
  have hconf : Keeps job (job.setFileConfirmed true) := ⟨rfl, rfl, rfl, fun hs => hs⟩
  unfold TransferJob.confirm at hc
  split at hc
  · cases hc
    exact ⟨Keeps.refl job, .inl rfl⟩
  · rename_i hnum
    split at hc
    · rename_i hskip
      cases hc
      refine ⟨⟨rfl, rfl, rfl, TransferJob.sound_of_closed rfl rfl rfl⟩, .inr ⟨rfl, ?_, hskip⟩⟩
      exact (not_not.mp hnum).symm
    · cases hc
      exact ⟨hconf, .inl rfl⟩
    · split at hc
      · obtain ⟨hk, hnum'⟩ := setStreamOffset_keeps hc
        exact ⟨hconf.trans hk, .inl hnum'⟩
      · cases hc
        exact ⟨hconf, .inl rfl⟩
    · cases hc
      exact ⟨Keeps.refl job, .inl rfl⟩

theorem comesFrom_of_keeps {s : Sender σ φ} {e : Event σ} {job job' : TransferJob φ}
    (hsound : ∀ job ∈ s.readJobs, job.Sound) (hin : job ∈ s.readJobs) (hk : Keeps job job')
    (hnum : job'.fileNum = job.fileNum ∨ job'.fileNum = job.fileNum + 1 ∧ Over h s e job) :
    job'.Sound ∧ ComesFrom h s e job' :=
  ⟨hk.sound (hsound job hin), .inr ⟨job, hin, hk.id, hk.files, hnum⟩⟩

theorem step_comesFrom {s : Sender σ φ} (hsound : ∀ job ∈ s.readJobs, job.Sound) (e : Event σ)
    {job' : TransferJob φ} (hmem : job' ∈ (step h s e).readJobs ∨ finished h s e = some job') :
    job'.Sound ∧ ComesFrom h s e job' := by
  -- A job that the event does not touch.
  have hsame (hin : job' ∈ s.readJobs) : job'.Sound ∧ ComesFrom h s e job' :=
    comesFrom_of_keeps hsound hin (Keeps.refl job') (.inl rfl)
  cases e with
  | tick =>
    obtain ⟨job, hin, hk, hnum⟩ := tick_mem hsound hmem
    exact comesFrom_of_keeps hsound hin hk hnum
  | confirm r =>
    replace hmem := hmem.resolve_right (by simp [finished])
    simp only [step] at hmem
    split at hmem
    · exact hsame hmem
    · rename_i job hget
      obtain ⟨hin, hid⟩ := mem_of_getJob hget
      split at hmem
      · rename_i job1 st1 hconf
        obtain ⟨hk, hnum⟩ := confirm_cases hconf
        rcases (mem_putJob hmem).symm with hold | rfl
        · exact hsame hold
        · refine comesFrom_of_keeps hsound hin hk (hnum.imp id ?_)
          rintro ⟨hmove, hr, hskip⟩
          refine ⟨hmove, ?_⟩
          unfold Over
          rw [hid, ← hr, ← hskip]
      · cases hmem
  | cancel id =>
    replace hmem := hmem.resolve_right (by simp [finished])
    exact hsame (List.eraseP_subset hmem)
  | start id jobType dataSource fileNum found detection isLastJob =>
    replace hmem := hmem.resolve_right (by simp [finished])
    rcases List.mem_append.mp hmem with hold | hnew
    · exact hsame hold
    · obtain rfl := List.mem_singleton.mp hnew
      exact ⟨newRead_sound id jobType dataSource fileNum found detection isLastJob, .inl rfl⟩
  | resume id =>
    replace hmem := hmem.resolve_right (by simp [finished])
    simp only [step] at hmem
    split at hmem
    · exact hsame hmem
    · rename_i job hget
      have hin := (mem_of_getJob hget).1
      rcases (mem_putJob hmem).symm with hold | rfl
      · exact hsame hold
      · exact ⟨hsound job hin, .inr ⟨job, hin, rfl, rfl, .inl rfl⟩⟩
  | other effect =>
    replace hmem := hmem.resolve_right (by simp [finished])
    exact hsame hmem

/-- Whatever jobs there are, whatever the other side answers and whatever calls of the file
    system fail: a job is done only at the end of its list, with every file of it accounted
    for, precisely if no job with overwrite detection comes to a file that it cannot open, with
    more to come, or cannot ask about. -/
theorem done_at_end_iff (h : JobHost σ φ) (st : σ) (es : List (Event σ)) :
    Along (step h) (fun s e => DoneAtEnd h s e ∧ Accounted h s e) ⟨[], st⟩ es ↔
      Along (step h) (fun s e => ¬ EarlyTick h s e) ⟨[], st⟩ es := by
  have hall : Always (step h) (fun s => ∀ job ∈ s.readJobs, job.Sound) ⟨[], st⟩ es := by
    refine always_of_step (P := fun s : Sender σ φ => ∀ job ∈ s.readJobs, job.Sound) ?_ ?_ es
    · intro s e hs job' hmem
      exact (step_comesFrom hs e (.inl hmem)).1
    · rintro job ⟨⟩
  constructor
  · exact hall.along fun s e hs hP => (doneAtEnd_iff s e hs).mp hP.1
  · exact hall.along fun s e hs hno =>
      ⟨(doneAtEnd_iff s e hs).mpr hno, fun job' hmem => (step_comesFrom hs e hmem).2⟩

/-- The first of two files cannot be opened. The second one is there, but the job is done. -/
theorem done_before_second_file :
    let disk : Disk String := (plainHost.fs.create "/d/b" (Disk.empty [])).2
    let start : Event (Disk String) :=
      .start 1 .generic (.filePath "/d") 0 [⟨"a", 0, 0⟩, ⟨"b", 0, 0⟩] true false
    (handleReadJobs plainHost (step plainHost ⟨[], disk⟩ start)).2.1 =
        [.error 1 "No such file or directory" 1, .done 1 1] ∧
      ¬ Along (step plainHost)
        (fun s e => DoneAtEnd plainHost s e ∧ Accounted plainHost s e) ⟨[], disk⟩
        [start, .tick] := by
  refine ⟨by decide +kernel, ?_⟩
  rintro ⟨_, ⟨hend, _⟩, _⟩
  have hfin : ((handleReadJobs plainHost (step plainHost
      ⟨[], (plainHost.fs.create "/d/b" (Disk.empty [])).2⟩
      (.start 1 .generic (.filePath "/d") 0 [⟨"a", 0, 0⟩, ⟨"b", 0, 0⟩] true false))).2.2.any
        fun job => fileIndex job.fileNum < job.files.length) = true := by decide +kernel
  obtain ⟨job, hjob, hlt⟩ := (Option.any_eq_true _ _).mp hfin
  exact absurd (hend job hjob) (Nat.not_le.mpr (of_decide_eq_true hlt))

end Sender

end LuodaRemote
