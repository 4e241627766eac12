/-
  The connection manager's side of an upload: the requests of `handle_fs` in
  `src/ui_cm_interface.rs` that create, feed and end a write job.

  `NewWrite` checks the names of the files, makes a `FileEntry` of each of them and pushes a
  job that does not get the entries. `carries_no_files` is the invariant of every run that
  follows from it; `upload_agrees_iff` says what it means for the blocks and digests that
  come later.
-/
import LuodaRemote.Lib.Run
import LuodaRemote.Transfer.Write

namespace LuodaRemote
open Lib
open TransferJob (isWriteNeedConfirmation join)

/-- `FS::NewWrite`. -/
structure NewWrite where
  path : String
  id : Int32
  fileNum : Int32
  /-- Names and modification times. -/
  files : List (String × Nat)
  overwriteDetection : Bool
  totalSize : Nat
  connId : Int32

/-- `ipc::FS`. The requests that touch no write job are one, with what they do to the disk
    and what they answer. -/
inductive FsRequest (σ : Type) where
  | newWrite (r : NewWrite)
  | cancelWrite (id : Int32)
  | writeDone (id fileNum : Int32)
  | writeError (id fileNum : Int32) (err : String)
  | writeBlock (id fileNum : Int32) (data : Bytes) (compressed : Bool)
  | checkDigest (id fileNum : Int32) (fileSize lastModified : Nat) (isUpload isResume : Bool)
  | sendConfirm (r : Option FileTransferSendConfirmRequest)
  | other (effect : σ → σ) (replies : List FileMessage)

/-- The write jobs of a connection and the disk. -/
structure Cm (σ φ : Type) where
  writeJobs : List (TransferJob φ)
  disk : σ

namespace Cm

variable {σ φ : Type}

/-- The job that `FS::NewWrite` pushes. -/
def newWriteJob (r : NewWrite) : TransferJob φ :=
  { TransferJob.newWrite r.id .generic (.filePath r.path) r.fileNum r.overwriteDetection with
    totalSize := r.totalSize
    connId := r.connId }

/-- The answer to `FS::CheckDigest` when the job has the file, and the job afterwards. -/
def answerDigest (h : JobHost σ φ) (digest : FileTransferDigest) (isUpload isResume : Bool)
    (path : String) (job : TransferJob φ) (st : σ) : TransferJob φ × List FileMessage :=
  match isWriteNeedConfirmation h isResume path digest st with
  | .error e => (job, [.error digest.id e digest.fileNum])
  | .ok r =>
    let job := job.setDigest digest.fileSize digest.lastModified
    match r with
    | .isSame => (job, [.sendConfirm ⟨digest.id, digest.fileNum, some (.skip true)⟩])
    | .needConfirm d => (job, [.digest { d with isUpload := isUpload }])
    | .noSuchFile => (job, [.sendConfirm ⟨digest.id, digest.fileNum, some (.offsetBlk 0)⟩])

def checkDigest (h : JobHost σ φ) (digest : FileTransferDigest) (isUpload isResume : Bool)
    (job : TransferJob φ) (st : σ) : TransferJob φ × List FileMessage :=
  match job.files[fileIndex digest.fileNum]?, job.dataSource with
  | some file, .filePath p => answerDigest h digest isUpload isResume (join h p file.name) job st
  | _, _ => (job, [])

/-- `handle_fs`: the new state and the messages sent. `none` is the panic of `confirm`. -/
def handleFs (h : JobHost σ φ) (req : FsRequest σ) (cm : Cm σ φ) :
    Option (Cm σ φ × List FileMessage) :=
  match req with
  | .newWrite r =>
    match validateTransferFileNames h.windows true (r.files.map (·.1)) with
    | .error e => some (cm, [.error r.id e r.fileNum])
    | .ok () =>
      -- The entries that are made of `r.files` here are not given to the job.
      some ({ cm with writeJobs := cm.writeJobs ++ [newWriteJob r] }, [])
  | .cancelWrite id =>
    match getJob id cm.writeJobs with
    | none => some (cm, [])
    | some job => some (⟨removeJob id cm.writeJobs, job.removeDownloadFile h cm.disk⟩, [])
  | .writeDone id fileNum =>
    match getJob id cm.writeJobs with
    | none => some (cm, [])
    | some job =>
      some (⟨removeJob id cm.writeJobs, job.modifyTime h cm.disk⟩, [.done id fileNum])
  | .writeError id fileNum err =>
    match getJob id cm.writeJobs with
    | none => some (cm, [])
    | some job => some ({ cm with writeJobs := removeJob id cm.writeJobs },
        [.error job.id err fileNum])
  | .writeBlock id fileNum data compressed =>
    match getJob id cm.writeJobs with
    | none => some (cm, [])
    | some job =>
      match job.write h ⟨id, fileNum, data, compressed⟩ cm.disk with
      | (r, job, st) => some (⟨putJob job cm.writeJobs, st⟩, match r with
          | .error e => [.error id e fileNum]
          | .ok () => [])
  | .checkDigest id fileNum fileSize lastModified isUpload isResume =>
    match getJob id cm.writeJobs with
    | none => some (cm, [])
    | some job =>
      match checkDigest h { id, fileNum, lastModified, fileSize } isUpload isResume job
        cm.disk with
      | (job, out) => some ({ cm with writeJobs := putJob job cm.writeJobs }, out)
  | .sendConfirm none => some (cm, [])
  | .sendConfirm (some r) =>
    match getJob r.id cm.writeJobs with
    | none => some (cm, [])
    | some job => (job.confirm h r cm.disk).map fun (job, st) =>
      (⟨putJob job cm.writeJobs, st⟩, [])
  | .other effect replies => some ({ cm with disk := effect cm.disk }, replies)

/-- The loop of one connection, which ends with a panic. -/
def step (h : JobHost σ φ) (s : Option (Cm σ φ)) (req : FsRequest σ) : Option (Cm σ φ) :=
  s.bind fun cm => (handleFs h req cm).map (·.1)

/-- What the manager sends in answer to a request. -/
def replies (h : JobHost σ φ) (s : Option (Cm σ φ)) (req : FsRequest σ) : List FileMessage :=
  ((s.bind (handleFs h req)).map (·.2)).getD []

/-! ## Jobs without files -/

section NoFiles

variable {h : JobHost σ φ} {job : TransferJob φ} {st : σ}

/-- A job over a path that has no files. -/
def NoFiles (job : TransferJob φ) : Prop :=
  job.files = [] ∧ ∃ p, job.dataSource = .filePath p

theorem write_of_noFiles (hj : NoFiles job) (block : FileTransferBlock)
    (hid : block.id = job.id) :
    job.write h block st = (.error "Wrong file number", job, st) := by
  obtain ⟨hf, p, hp⟩ := hj
  unfold TransferJob.write TransferJob.openTarget
  rw [if_neg (by simp [hid]), hp, hf]
  rfl

theorem checkDigest_of_noFiles (hj : NoFiles job) (digest : FileTransferDigest)
    (isUpload isResume : Bool) : checkDigest h digest isUpload isResume job st = (job, []) := by
  unfold checkDigest
  rw [hj.1]
  rfl

/-- Confirming a file changes neither the list nor the source. -/
theorem confirm_noFiles (hj : NoFiles job) {r : FileTransferSendConfirmRequest}
    {job' : TransferJob φ} {st' : σ} (hc : job.confirm h r st = some (job', st')) :
    NoFiles job' := by
  obtain ⟨hf, p, hp⟩ := hj
  unfold TransferJob.confirm at hc
  split at hc
  · obtain ⟨rfl, rfl⟩ : job = job' ∧ st = st' := by simpa using hc
    exact ⟨hf, p, hp⟩
  · split at hc
    · obtain ⟨rfl, -⟩ : job.setFileSkipped = job' ∧ st = st' := by simpa using hc
      exact ⟨hf, p, hp⟩
    · obtain ⟨rfl, -⟩ : job.setFileConfirmed true = job' ∧ st = st' := by simpa using hc
      exact ⟨hf, p, hp⟩
    · split at hc
      · -- The offset is looked up in the empty list.
        simp [TransferJob.setStreamOffset, TransferJob.setFileConfirmed, hf, hp] at hc
      · obtain ⟨rfl, -⟩ : job.setFileConfirmed true = job' ∧ st = st' := by simpa using hc
        exact ⟨hf, p, hp⟩
    · obtain ⟨rfl, -⟩ : job = job' ∧ st = st' := by simpa using hc
      exact ⟨hf, p, hp⟩

/-- All write jobs are without files. -/
def CarriesNoFiles (cm : Cm σ φ) : Prop := ∀ job ∈ cm.writeJobs, NoFiles job

theorem carriesNoFiles_putJob {cm : Cm σ φ} (hcm : CarriesNoFiles cm) (hj : NoFiles job) (st : σ) :
    CarriesNoFiles ⟨putJob job cm.writeJobs, st⟩ := by
  intro j hmem
  rcases mem_putJob hmem with rfl | hmem
  · exact hj
  · exact hcm j hmem

theorem carriesNoFiles_removeJob {cm : Cm σ φ} (hcm : CarriesNoFiles cm) (id : Int32) (st : σ) :
    CarriesNoFiles ⟨removeJob id cm.writeJobs, st⟩ :=
  fun j hmem => hcm j (List.mem_of_mem_eraseP hmem)

/-- No request gives a job files. -/
theorem handleFs_carriesNoFiles {cm cm' : Cm σ φ} {req : FsRequest σ} {out : List FileMessage}
    (hcm : CarriesNoFiles cm) (hh : handleFs h req cm = some (cm', out)) :
    CarriesNoFiles cm' := by
  unfold handleFs at hh
  cases req with
  | newWrite r =>
    dsimp only at hh
    split at hh
    · cases hh
      exact hcm
    · cases hh
      intro j hmem
      rcases List.mem_append.mp hmem with hmem | hmem
      · exact hcm j hmem
      · rw [List.mem_singleton.mp hmem]
        exact ⟨rfl, r.path, rfl⟩
  | cancelWrite id =>
    dsimp only at hh
    split at hh
    · cases hh
      exact hcm
    · cases hh
      exact carriesNoFiles_removeJob hcm id _
  | writeDone id fileNum =>
    dsimp only at hh
    split at hh
    · cases hh
      exact hcm
    · cases hh
      exact carriesNoFiles_removeJob hcm id _
  | writeError id fileNum err =>
    dsimp only at hh
    split at hh
    · cases hh
      exact hcm
    · cases hh
      exact carriesNoFiles_removeJob hcm id _
  | writeBlock id fileNum data compressed =>
    dsimp only at hh
    split at hh
    · cases hh
      exact hcm
    · rename_i job hjob
      obtain ⟨hmem, hid⟩ := mem_of_getJob hjob
      rw [write_of_noFiles (hcm job hmem) _ hid.symm] at hh
      cases hh
      exact carriesNoFiles_putJob hcm (hcm job hmem) _
  | checkDigest id fileNum fileSize lastModified isUpload isResume =>
    dsimp only at hh
    split at hh
    · cases hh
      exact hcm
    · rename_i job hjob
      have hj := hcm job (mem_of_getJob hjob).1
      rw [checkDigest_of_noFiles hj] at hh
      cases hh
      exact carriesNoFiles_putJob hcm hj _
  | sendConfirm r =>
    cases r with
    | none =>
      cases hh
      exact hcm
    | some r =>
      dsimp only at hh
      split at hh
      · cases hh
        exact hcm
      · rename_i job hjob
        obtain ⟨⟨job', st'⟩, hc, heq⟩ := Option.map_eq_some_iff.mp hh
        cases heq
        exact carriesNoFiles_putJob hcm (confirm_noFiles (hcm job (mem_of_getJob hjob).1) hc) _
  | other effect replies =>
    cases hh
    exact hcm

/-- In every state that is reached from no jobs, no job has files. -/
theorem run_carriesNoFiles (st : σ) (reqs : List (FsRequest σ)) {cm : Cm σ φ}
    (hrun : run (step h) (some ⟨[], st⟩) reqs = some cm) : CarriesNoFiles cm := by
  have hall : Always (step h) (fun s => ∀ cm, s = some cm → CarriesNoFiles cm)
      (some ⟨[], st⟩) reqs := by
    refine always_of_step ?_ ?_ reqs
    · intro s req hs cm' hstep
      obtain ⟨cm, rfl, hmap⟩ := Option.bind_eq_some_iff.mp hstep
      obtain ⟨⟨cm'', out⟩, hh, rfl⟩ := Option.map_eq_some_iff.mp hmap
      exact handleFs_carriesNoFiles (hs cm rfl) hh
    · intro cm hcm
      cases hcm
      intro job hmem
      cases hmem
  exact hall.last cm hrun

end NoFiles

/-! ## What an upload expects -/

/-- The blocks and digests of an upload: for its id and one of its `n` files. -/
inductive Upload (id : Int32) (n : Nat) : FsRequest σ → Prop where
  | block {fileNum : Int32} {data : Bytes} {compressed : Bool}
      (hlo : 0 ≤ fileNum.toInt) (hhi : fileNum.toInt < n) :
      Upload id n (.writeBlock id fileNum data compressed)
  | digest {fileNum : Int32} {fileSize lastModified : Nat} {isUpload isResume : Bool}
      (hlo : 0 ≤ fileNum.toInt) (hhi : fileNum.toInt < n) :
      Upload id n (.checkDigest id fileNum fileSize lastModified isUpload isResume)

/-- A block is taken by a job that has the path and the entry of the request, and is not
    refused for its number. A digest gets one reply. -/
def Served (h : JobHost σ φ) (r : NewWrite) (s : Option (Cm σ φ)) : FsRequest σ → Prop
  | .writeBlock id fileNum data compressed =>
    (∃ cm job entry, s = some cm ∧ getJob id cm.writeJobs = some job ∧
      job.dataSource = .filePath r.path ∧ job.files[fileIndex fileNum]? = some entry ∧
      (r.files[fileIndex fileNum]?).map (·.1) = some entry.name) ∧
    .error id "Wrong file number" fileNum ∉ replies h s (.writeBlock id fileNum data compressed)
  | .checkDigest id fileNum fileSize lastModified isUpload isResume =>
    (replies h s (.checkDigest id fileNum fileSize lastModified isUpload isResume)).length = 1
  | _ => True

/-- The agreement between a request that is accepted and what comes after it. -/
structure Agrees (h : JobHost σ φ) (cm : Cm σ φ) (r : NewWrite) : Prop where
  /-- The job that is pushed has the entries of the request. -/
  carried : ∃ job, step h (some cm) (.newWrite r) =
      some { cm with writeJobs := cm.writeJobs ++ [job] } ∧
    job.files.map (fun f => (f.name, f.modifiedTime)) = r.files
  /-- Whatever of the upload follows is served. -/
  served : ∀ later, (∀ req ∈ later, Upload r.id r.files.length req) →
    Along (step h) (Served h r) (step h (some cm) (.newWrite r)) later

/-- A block is refused for its number and a digest gets no reply. -/
def Refused (h : JobHost σ φ) (s : Option (Cm σ φ)) : FsRequest σ → Prop
  | .writeBlock id fileNum data compressed =>
    replies h s (.writeBlock id fileNum data compressed) =
      [.error id "Wrong file number" fileNum]
  | .checkDigest id fileNum fileSize lastModified isUpload isResume =>
    replies h s (.checkDigest id fileNum fileSize lastModified isUpload isResume) = []
  | _ => True

section Uploads

variable {h : JobHost σ φ} {cm : Cm σ φ} {r : NewWrite}

theorem step_newWrite (cm : Cm σ φ)
    (hok : validateTransferFileNames h.windows true (r.files.map (·.1)) = .ok ()) :
    step h (some cm) (.newWrite r) =
      some { cm with writeJobs := cm.writeJobs ++ [newWriteJob r] } := by
  unfold step
  rw [Option.bind_some]
  unfold handleFs
  dsimp only
  rw [hok]
  rfl

/-- There is a job for the id, and none has files. -/
def Open (id : Int32) (cm : Cm σ φ) : Prop :=
  CarriesNoFiles cm ∧ ∃ job, getJob id cm.writeJobs = some job

theorem getJob_putJob {id : Int32} {job : TransferJob φ} {jobs : List (TransferJob φ)}
    (hg : getJob id jobs = some job) : getJob id (putJob job jobs) = some job := by
  have hid := (mem_of_getJob hg).2
  induction jobs with
  | nil => cases hg
  | cons k jobs ih =>
    unfold getJob at hg ih ⊢
    unfold putJob
    by_cases hk : k.id = job.id
    · simp [hk, hid]
    · have hk' : k.id ≠ id := fun heq => hk (heq.trans hid.symm)
      rw [List.find?_cons_of_neg (by simpa using hk')] at hg
      rw [if_neg hk, List.find?_cons_of_neg (by simpa using hk')]
      exact ih hg

/-- A request of the upload is refused and leaves the jobs as they are. -/
theorem upload_refused {id : Int32} {n : Nat} {req : FsRequest σ} (hcm : Open id cm)
    (hreq : Upload id n req) :
    Refused h (some cm) req ∧ ∃ cm', step h (some cm) req = some cm' ∧ Open id cm' := by
  obtain ⟨hno, job, hjob⟩ := hcm
  obtain ⟨hmem, hid⟩ := mem_of_getJob hjob
  have hopen : ∀ st, Open id ⟨putJob job cm.writeJobs, st⟩ :=
    fun st => ⟨carriesNoFiles_putJob hno (hno job hmem) st, job, getJob_putJob hjob⟩
  cases hreq with
  | @block fileNum data compressed hlo hhi =>
    have hh : handleFs h (.writeBlock id fileNum data compressed) cm =
        some (⟨putJob job cm.writeJobs, cm.disk⟩, [.error id "Wrong file number" fileNum]) := by
      unfold handleFs
      dsimp only
      rw [hjob]
      dsimp only
      rw [write_of_noFiles (hno job hmem) _ hid.symm]
    refine ⟨?_, _, ?_, hopen cm.disk⟩
    · simp [Refused, replies, hh]
    · simp [step, hh]
  | @digest fileNum fileSize lastModified isUpload isResume hlo hhi =>
    have hh : handleFs h (.checkDigest id fileNum fileSize lastModified isUpload isResume) cm =
        some ({ cm with writeJobs := putJob job cm.writeJobs }, []) := by
      unfold handleFs
      dsimp only
      rw [hjob]
      dsimp only
      rw [checkDigest_of_noFiles (hno job hmem)]
    refine ⟨?_, _, ?_, hopen cm.disk⟩
    · simp [Refused, replies, hh]
    · simp [step, hh]

/-- Everything of an upload is refused. -/
theorem along_refused {id : Int32} {n : Nat} (hcm : Open id cm) {later : List (FsRequest σ)}
    (hlater : ∀ req ∈ later, Upload id n req) :
    Along (step h) (Refused h) (some cm) later := by
  induction later generalizing cm with
  | nil => trivial
  | cons req later ih =>
    obtain ⟨href, cm', hstep, hopen⟩ :=
      upload_refused (h := h) hcm (hlater req List.mem_cons_self)
    refine ⟨href, ?_⟩
    rw [hstep]
    exact ih hopen fun q hq => hlater q (List.mem_cons_of_mem req hq)

end Uploads

/-- In every state the manager can reach: a request to upload files that is accepted keeps
    its agreement precisely if it lists no files. If it lists any, every block of it is
    refused for its number and no digest of it gets a reply. -/
theorem upload_agrees_iff (h : JobHost σ φ) (st : σ) (before : List (FsRequest σ))
    {cm : Cm σ φ} (hrun : run (step h) (some ⟨[], st⟩) before = some cm) (r : NewWrite)
    (hok : validateTransferFileNames h.windows true (r.files.map (·.1)) = .ok ()) :
    (Agrees h cm r ↔ r.files = []) ∧
      ∀ later, (∀ req ∈ later, Upload r.id r.files.length req) →
        Along (step h) (Refused h) (step h (some cm) (.newWrite r)) later := by
  have hstep := step_newWrite cm hok
  refine ⟨⟨fun hag => ?_, fun hnil => ⟨⟨newWriteJob r, hstep, ?_⟩, ?_⟩⟩, ?_⟩
  · obtain ⟨job, hjob, hfiles⟩ := hag.carried
    rw [hstep] at hjob
    have hlist : cm.writeJobs ++ [newWriteJob r] = cm.writeJobs ++ [job] :=
      congrArg Cm.writeJobs (Option.some.inj hjob)
    have hnew : newWriteJob r = job := List.singleton_inj.mp (List.append_cancel_left hlist)
    rw [← hfiles, ← hnew]
    rfl
  · rw [hnil]
    rfl
  · -- No number is in range.
    intro later hlater
    cases later with
    | nil => trivial
    | cons req later =>
      have hreq := hlater req List.mem_cons_self
      rw [hnil] at hreq
      cases hreq with
      | block hlo hhi => simp at hhi; omega
      | digest hlo hhi => simp at hhi; omega
  · intro later hlater
    rw [hstep]
    have hno := run_carriesNoFiles st before hrun
    refine along_refused ⟨?_, ?_⟩ hlater
    · intro j hmem
      rcases List.mem_append.mp hmem with hmem | hmem
      · exact hno j hmem
      · rw [List.mem_singleton.mp hmem]
        exact ⟨rfl, r.path, rfl⟩
    · refine Option.isSome_iff_exists.mp ?_
      unfold getJob
      rw [List.find?_isSome]
      exact ⟨newWriteJob r, by simp, by simp [newWriteJob, TransferJob.newWrite]⟩

/-- An upload of two files. -/
def twoFiles : NewWrite := ⟨"/d", 2, 0, [("a", 0), ("b", 0)], false, 0, 0⟩

/-- The two files, to a manager that has another upload, and a block of each. -/
theorem upload_agrees_iff_two_files :
    let cm : Cm (Disk String) Nat :=
      ⟨[newWriteJob ⟨"/e", 1, 0, [("c", 0)], false, 0, 0⟩], Disk.empty []⟩
    ¬ Agrees plainHost cm twoFiles ∧
      Along (step plainHost) (Refused plainHost) (step plainHost (some cm) (.newWrite twoFiles))
        [.writeBlock 2 0 [7] false, .writeBlock 2 1 [8] false] := by
  intro cm
  have hrun : run (step plainHost) (some ⟨[], Disk.empty []⟩)
      [.newWrite ⟨"/e", 1, 0, [("c", 0)], false, 0, 0⟩] = some cm :=
    step_newWrite _ (by decide +kernel)
  obtain ⟨hiff, hrefused⟩ :=
    upload_agrees_iff plainHost (Disk.empty []) _ hrun twoFiles (by decide +kernel)
  refine ⟨hiff.not.mpr (by simp [twoFiles]), hrefused _ fun req hreq => ?_⟩
  obtain rfl | rfl := by simpa using hreq
  · exact .block (by decide) (by decide)
  · exact .block (by decide) (by decide)

/-- One file `a` is announced. Its first block is refused for its number. -/
theorem announced_file_refused :
    let r : NewWrite := ⟨"/d", 1, 0, [("a", 0)], false, 1, 0⟩
    let cm : Cm (Disk String) Nat := ⟨[], Disk.empty []⟩
    validateTransferFileNames plainHost.windows true (r.files.map (·.1)) = .ok () ∧
      replies plainHost (step plainHost (some cm) (.newWrite r)) (.writeBlock 1 0 [7] false) =
        [.error 1 "Wrong file number" 0] ∧
      replies plainHost (step plainHost (some cm) (.newWrite r))
        (.checkDigest 1 0 1 0 true false) = [] ∧
      ¬ Agrees plainHost cm r := by
  refine ⟨by decide +kernel, by decide +kernel, by decide +kernel, fun hag => ?_⟩
  have hserved := hag.served [.writeBlock 1 0 [7] false] (by
    intro req hreq
    rw [List.mem_singleton.mp hreq]
    exact .block (by decide) (by decide))
  exact hserved.1.2 (by decide +kernel)

end Cm

end LuodaRemote
