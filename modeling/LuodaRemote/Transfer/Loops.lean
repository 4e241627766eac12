/-
  The read jobs of the connection manager: `handle_read_jobs_tick` and the request
  `SendConfirmForRead` of `src/ui_cm_interface.rs`, next to `handle_read_jobs` and
  `TransferJob::confirm`, which do the same for a connection that reads its files itself.

  The comments of both ask to keep them in sync. They are, for a job on its own, until something
  fails: a file that cannot be opened, asked about or read ends the job here, while the other
  loop reports it and goes on (`read_loops_agree`). A confirmation is taken here for the file the
  job is at, whatever file it names.

  The channel to the connection takes what it is sent.
-/
import LuodaRemote.Transfer.Read

namespace LuodaRemote
open Lib

/-! ## What the connection manager sends -/

/-- `ipc::Data`, as far as read jobs send it. -/
inductive ReadData where
  | fileDigestFromCM (id fileNum : Int32) (lastModified fileSize : Nat) (isResume : Bool)
      (connId : Int32)
  | fileBlockFromCM (id fileNum : Int32) (data : Bytes) (compressed : Bool) (connId : Int32)
  | fileReadError (id fileNum : Int32) (err : String) (connId : Int32)
  | fileReadDone (id fileNum connId : Int32)
  deriving DecidableEq

/-- The message that the connection sends to its peer for it: `handle_file_digest_from_cm`,
    `handle_file_block_from_cm`, `handle_file_read_error` and `handle_file_read_done`. -/
def ReadData.forwarded : ReadData → FileMessage
  | .fileDigestFromCM id fileNum lastModified fileSize isResume _ =>
    .digest { id, fileNum, lastModified, fileSize, isUpload := false, isResume }
  | .fileBlockFromCM id fileNum data compressed _ => .block ⟨id, fileNum, data, compressed⟩
  | .fileReadError id fileNum err _ => .error id err fileNum
  | .fileReadDone id fileNum _ => .done id fileNum

/-- `FS::SendConfirmForRead`. -/
structure SendConfirmForRead where
  id : Int32
  fileNum : Int32
  skip : Bool
  offsetBlk : Nat
  connId : Int32

/-- `r.skip()`, which is false where the request holds something else. -/
def FileTransferSendConfirmRequest.skip (r : FileTransferSendConfirmRequest) : Bool :=
  match r.union with
  | some (.skip s) => s
  | _ => false

/-- `r.offset_blk()`, which is 0 where the request holds something else. -/
def FileTransferSendConfirmRequest.offsetBlk (r : FileTransferSendConfirmRequest) : Nat :=
  match r.union with
  | some (.offsetBlk offset) => offset
  | _ => 0

/-- What the connection makes of a confirmation for a job of the connection manager. -/
def FileTransferSendConfirmRequest.forCm (r : FileTransferSendConfirmRequest) (connId : Int32) :
    SendConfirmForRead :=
  ⟨r.id, r.fileNum, r.skip, r.offsetBlk, connId⟩

/-- The request that the connection manager passes on to the job, which is at `fileNum`. -/
def SendConfirmForRead.request (r : SendConfirmForRead) (fileNum : Int32) :
    FileTransferSendConfirmRequest :=
  { id := r.id
    fileNum
    union := if r.skip then some (.skip true) else some (.offsetBlk r.offsetBlk) }

/-! ## The loop -/

namespace TransferJob

variable {σ φ : Type}

/-- `init_data_stream_for_cm`: the digest to send, if any. -/
def initDataStreamForCm (h : JobHost σ φ) (job : TransferJob φ) (st : σ) :
    Except String (Option (Nat × Nat)) × TransferJob φ × σ :=
  match job.openDataStream h st with
  | (.error e, job, st) => (.error e, job, st)
  | (.ok true, job, st) => (.ok none, job, st)
  | (.ok false, job, st) =>
    if job.needsDigest then
      match job.getCurrentDigest h st with
      | .error e => (.error e, job, st)
      | .ok digest => (.ok (some digest), { job with fileIsWaiting := true }, st)
    else (.ok none, job, st)

/-- `init_read_job_for_cm`, with what it sends. -/
def initReadJobForCm (h : JobHost σ φ) (connId : Int32) (job : TransferJob φ) (st : σ) :
    Except String Unit × TransferJob φ × σ × List ReadData :=
  match job.initDataStreamForCm h st with
  | (.error e, job, st) => (.error e, job, st, [])
  | (.ok none, job, st) => (.ok (), job, st, [])
  | (.ok (some (lastModified, fileSize)), job, st) =>
    (.ok (), job, st,
      [.fileDigestFromCM job.id job.fileNum lastModified fileSize job.isResume connId])

end TransferJob

namespace CmReader

variable {σ φ : Type}

/-- The loop of `handle_read_jobs_tick`, with what it sends and the jobs that are finished. A
    job that cannot be initialised does not end it. -/
def tickJobs (h : JobHost σ φ) (connId : Int32) :
    List (TransferJob φ) → σ → List (TransferJob φ) × σ × List ReadData × List Int32
  | [], st => ([], st, [], [])
  | job :: jobs, st =>
    if job.isLastJob then
      let r := tickJobs h connId jobs st
      (job :: r.1, r.2)
    else
      match job.initReadJobForCm h connId st with
      | (.error e, job, st, out) =>
        let r := tickJobs h connId jobs st
        (job :: r.1, r.2.1,
          out ++ [.fileReadError job.id job.fileNum e connId] ++ r.2.2.1, job.id :: r.2.2.2)
      | (.ok (), job, st, out) =>
        match job.read h st with
        | (.error e, job, st) =>
          (job :: jobs, st, out ++ [.fileReadError job.id job.fileNum e connId], [job.id])
        | (.ok (some block), job, st) =>
          (job :: jobs, st, out ++ [.fileBlockFromCM block.id block.fileNum block.data
            block.compressed connId], [])
        | (.ok none, job, st) =>
          if job.jobCompleted then
            (job :: jobs, st, out ++ [match job.jobError with
              | some err => .fileReadError job.id job.fileNum err connId
              | none => .fileReadDone job.id job.fileNum connId], [job.id])
          else (job :: jobs, st, out, [])

/-- `handle_read_jobs_tick`: the new state and the messages sent. -/
def handleReadJobsTick (h : JobHost σ φ) (connId : Int32) (s : Sender σ φ) :
    Sender σ φ × List ReadData :=
  let (jobs, st, out, finished) := tickJobs h connId s.readJobs s.disk
  (⟨finished.foldl (fun jobs id => removeJob id jobs) jobs, st⟩, out)

/-- `handle_fs` for `SendConfirmForRead`, which does not look at the number of the file. A panic
    of `confirm` ends the connection and with it its jobs. -/
def handleSendConfirm (h : JobHost σ φ) (s : Sender σ φ) (r : SendConfirmForRead) :
    Sender σ φ :=
  match getJob r.id s.readJobs with
  | none => s
  | some job =>
    match job.confirm h (r.request job.fileNum) s.disk with
    | some (job, st) => ⟨putJob job s.readJobs, st⟩
    | none => ⟨[], s.disk⟩

/-! ## The two loops on the same input -/

/-- What the read jobs of either kind see. -/
inductive Input (σ : Type) where
  | tick
  | confirm (r : FileTransferSendConfirmRequest)
  /-- Somebody else uses the disk. -/
  | other (effect : σ → σ)

def Input.event : Input σ → Sender.Event σ
  | .tick => .tick
  | .confirm r => .confirm r
  | .other effect => .other effect

/-- A connection that reads its files itself. -/
def networkStep (h : JobHost σ φ) (s : Sender σ φ) (i : Input σ) : Sender σ φ :=
  s.step h i.event

def networkSends (h : JobHost σ φ) (s : Sender σ φ) : Input σ → List FileMessage
  | .tick => (s.handleReadJobs h).2.1
  | _ => []

/-- The connection manager. -/
def cmStep (h : JobHost σ φ) (connId : Int32) (s : Sender σ φ) : Input σ → Sender σ φ
  | .tick => (handleReadJobsTick h connId s).1
  | .confirm r => handleSendConfirm h s (r.forCm connId)
  | .other effect => { s with disk := effect s.disk }

def cmSends (h : JobHost σ φ) (connId : Int32) (s : Sender σ φ) : Input σ → List ReadData
  | .tick => (handleReadJobsTick h connId s).2
  | _ => []

/-- The messages of the connection manager, as they reach the peer. -/
def cmMessages (h : JobHost σ φ) (connId : Int32) (s : Sender σ φ) (i : Input σ) :
    List FileMessage :=
  (cmSends h connId s i).map ReadData.forwarded

end CmReader

/-! ## What tells them apart -/

namespace TransferJob

variable {σ φ : Type} {h : JobHost σ φ} {job : TransferJob φ} {st : σ}

/-- `init_data_stream`, or the `read` that follows it, returns an error: the current file cannot
    be opened, asked about or read. -/
def failsAt (h : JobHost σ φ) (job : TransferJob φ) (st : σ) : Bool :=
  match job.initDataStream h st with
  | (.error _, _) => true
  | (.ok (), job, st, _) => !(job.read h st).1.isOk

/-- The confirmation is for the file the job is at, or that file is confirmed already and the
    request asks for nothing else. -/
def TakesAlike (job : TransferJob φ) (r : FileTransferSendConfirmRequest) : Prop :=
  (r.fileNum = job.fileNum ∧ r.union ≠ none) ∨
    (job.fileConfirmed = true ∧ job.fileSkipped = false ∧ r.skip = false ∧ r.offsetBlk = 0)

instance (job : TransferJob φ) (r : FileTransferSendConfirmRequest) :
    Decidable (job.TakesAlike r) :=
  inferInstanceAs (Decidable (_ ∨ _))

/-! ### Opening -/

/-- Both paths initialise a job alike, errors included. -/
theorem initReadJobForCm_forwarded (connId : Int32) (job : TransferJob φ) (st : σ) :
    job.initDataStream h st =
      ((job.initReadJobForCm h connId st).1, (job.initReadJobForCm h connId st).2.1,
        (job.initReadJobForCm h connId st).2.2.1,
        (job.initReadJobForCm h connId st).2.2.2.map ReadData.forwarded) := by
  unfold initDataStream initReadJobForCm initDataStreamForCm
  rcases job.openDataStream h st with ⟨_ | _ | _, job1, st1⟩
  · rfl
  · dsimp only
    by_cases hneeds : job1.needsDigest = true
    · rw [if_pos hneeds, if_pos hneeds]
      rcases job1.getCurrentDigest h st1 with _ | ⟨_, _⟩ <;> rfl
    · rw [if_neg hneeds, if_neg hneeds]
      rfl
  · rfl

/-- A job that has just asked, or failed to, reads nothing. -/
theorem initDataStream_silent (job : TransferJob φ) (st : σ) :
    (job.initDataStream h st).2.2.2 = [] ∨
      (job.initDataStream h st).1 = .ok () ∧
        ((job.initDataStream h st).2.1.read h (job.initDataStream h st).2.2.1).1 = .ok none := by
  unfold initDataStream
  rcases job.openDataStream h st with ⟨_ | _ | _, job1, st1⟩
  · exact .inl rfl
  · dsimp only
    by_cases hneeds : job1.needsDigest = true
    · rw [if_pos hneeds]
      rcases job1.getCurrentDigest h st1 with _ | ⟨_, _⟩
      · exact .inl rfl
      · obtain ⟨hgen, hdet, hconf, _⟩ := needsDigest_iff.mp hneeds
        refine .inr ⟨rfl, ?_⟩
        unfold read
        rw [if_pos ⟨hgen, hdet, by simp [hconf]⟩]
    · rw [if_neg hneeds]
      exact .inl rfl
  · exact .inl rfl

end TransferJob

namespace CmReader

variable {σ φ : Type} {h : JobHost σ φ} {connId : Int32}

/-- A job fails at a tick. -/
def Fails (h : JobHost σ φ) (s : Sender σ φ) : Input σ → Prop
  | .tick => ∃ job ∈ s.readJobs, job.isLastJob = false ∧ job.failsAt h s.disk = true
  | _ => False

/-- A confirmation of the job is taken alike. -/
def Current (s : Sender σ φ) : Input σ → Prop
  | .confirm r => ∀ job ∈ s.readJobs, job.id = r.id → job.TakesAlike r
  | _ => True

instance (s : Sender σ φ) (i : Input σ) : Decidable (Fails h s i) :=
  match i with
  | .tick => inferInstanceAs (Decidable (∃ job ∈ s.readJobs, _ ∧ _))
  | .confirm _ => inferInstanceAs (Decidable False)
  | .other _ => inferInstanceAs (Decidable False)

instance (s : Sender σ φ) (i : Input σ) : Decidable (Current s i) :=
  match i with
  | .tick => inferInstanceAs (Decidable True)
  | .confirm r => inferInstanceAs (Decidable (∀ job ∈ s.readJobs, job.id = r.id → _))
  | .other _ => inferInstanceAs (Decidable True)

/-! ### A tick -/

/-- The connection manager initialises a job as the other loop does. -/
theorem initReadJobForCm_of_init {job job1 : TransferJob φ} {st st1 : σ} {r : Except String Unit}
    {out : List FileMessage} (connId : Int32)
    (hinit : job.initDataStream h st = (r, job1, st1, out)) :
    ∃ out2, job.initReadJobForCm h connId st = (r, job1, st1, out2) ∧
      out2.map ReadData.forwarded = out := by
  have hcm := TransferJob.initReadJobForCm_forwarded (h := h) connId job st
  rw [hinit] at hcm
  obtain ⟨rfl, rfl, rfl, rfl⟩ : r = _ ∧ job1 = _ ∧ st1 = _ ∧ out = _ := by simpa using hcm
  exact ⟨_, rfl, rfl⟩

theorem isLastJob_of_init {job job1 : TransferJob φ} {st st1 : σ} {r : Except String Unit}
    {out : List FileMessage} (hinit : job.initDataStream h st = (r, job1, st1, out)) :
    job1.isLastJob = job.isLastJob := by
  have hkeeps := TransferJob.initDataStream_keeps (h := h) job st
  rw [hinit] at hkeeps
  exact hkeeps.isLastJob

/-- Nothing fails. -/
theorem tick_lockstep (connId : Int32) {job : TransferJob φ} {st : σ}
    (hok : ¬ Fails h ⟨[job], st⟩ .tick) :
    (handleReadJobsTick h connId ⟨[job], st⟩).1 = (Sender.handleReadJobs h ⟨[job], st⟩).1 ∧
      (handleReadJobsTick h connId ⟨[job], st⟩).2.map ReadData.forwarded =
        (Sender.handleReadJobs h ⟨[job], st⟩).2.1 := by
  unfold handleReadJobsTick Sender.handleReadJobs
  unfold tickJobs Sender.initJobs
  by_cases hlast : job.isLastJob = true
  · rw [if_pos hlast, if_pos hlast]
    unfold Sender.readFirst
    dsimp only [Sender.initJobs, tickJobs]
    rw [if_pos hlast]
    exact ⟨rfl, rfl⟩
  · have hnot : ¬ job.failsAt h st = true := fun hf =>
      hok ⟨job, List.mem_cons_self, Bool.eq_false_of_not_eq_true hlast, hf⟩
    unfold TransferJob.failsAt at hnot
    rw [if_neg hlast, if_neg hlast]
    rcases hinit : job.initDataStream h st with ⟨e | _, job1, st1, out⟩
    · rw [hinit] at hnot
      exact absurd rfl hnot
    · obtain ⟨out2, hcm, rfl⟩ := initReadJobForCm_of_init connId hinit
      rw [hinit] at hnot
      rw [hcm]
      dsimp only [Sender.initJobs] at hnot ⊢
      unfold Sender.readFirst
      rw [if_neg (by rw [isLastJob_of_init hinit]; exact hlast)]
      rcases hr : job1.read h st1 with ⟨e | _ | block, job2, st2⟩
      · rw [hr] at hnot
        exact absurd rfl hnot
      · dsimp only
        by_cases hdone : job2.jobCompleted = true
        · rw [if_pos hdone, if_pos hdone]
          refine ⟨rfl, ?_⟩
          cases job2.jobError <;> simp [ReadData.forwarded]
        · rw [if_neg hdone, if_neg hdone]
          exact ⟨rfl, by simp⟩
      · exact ⟨rfl, by simp [ReadData.forwarded]⟩

/-- A failure is reported by both loops. It ends the job of the connection manager. -/
theorem tick_fails (connId : Int32) {job : TransferJob φ} {st : σ}
    (hfails : Fails h ⟨[job], st⟩ .tick) :
    ∃ e fileNum more, (handleReadJobsTick h connId ⟨[job], st⟩).1.readJobs = [] ∧
      (handleReadJobsTick h connId ⟨[job], st⟩).2 = [.fileReadError job.id fileNum e connId] ∧
      (Sender.handleReadJobs h ⟨[job], st⟩).2.1 = .error job.id e fileNum :: more := by
  obtain ⟨job', hmem, hlast, hfail⟩ := hfails
  obtain rfl := List.mem_singleton.mp hmem
  have hnot : ¬ job'.isLastJob = true := by rw [hlast]; exact Bool.false_ne_true
  have hremove : ∀ job2 : TransferJob φ, removeJob job2.id [job2] = [] := by
    intro job2
    simp [removeJob]
  have hkeeps := TransferJob.initDataStream_keeps (h := h) job' st
  have hsilent := TransferJob.initDataStream_silent (h := h) job' st
  unfold TransferJob.failsAt at hfail
  unfold handleReadJobsTick Sender.handleReadJobs
  unfold tickJobs Sender.initJobs
  rw [if_neg hnot, if_neg hnot]
  rcases hinit : job'.initDataStream h st with ⟨e | _, job1, st1, out⟩
  · obtain ⟨out2, hcm, hout⟩ := initReadJobForCm_of_init connId hinit
    rw [hinit] at hkeeps hsilent
    obtain rfl : out = [] := hsilent.resolve_right fun hok => by cases hok.1
    obtain rfl : out2 = [] := List.map_eq_nil_iff.mp hout
    rw [hcm]
    dsimp only [Sender.initJobs, tickJobs]
    refine ⟨e, job1.fileNum, (Sender.readFirst h [job1] st1).2.2.1, hremove job1, ?_, ?_⟩
    · rw [← hkeeps.id]
      rfl
    · rw [← hkeeps.id]
      rfl
  · obtain ⟨out2, hcm, hout⟩ := initReadJobForCm_of_init connId hinit
    rw [hinit] at hkeeps hsilent hfail
    rw [hcm]
    dsimp only [Sender.initJobs] at hkeeps hsilent hfail ⊢
    have hkeeps2 := TransferJob.read_keeps (h := h) job1 st1
    unfold Sender.readFirst
    rw [if_neg (by rw [hkeeps.isLastJob]; exact hnot)]
    rcases hr : job1.read h st1 with ⟨e | _, job2, st2⟩
    · rw [hr] at hkeeps2 hsilent
      obtain rfl : out = [] := hsilent.resolve_right fun hok => by cases hok.2
      obtain rfl : out2 = [] := List.map_eq_nil_iff.mp hout
      refine ⟨e, job2.fileNum, [], hremove job2, ?_, ?_⟩
      · rw [← hkeeps.id, ← hkeeps2.id]
        rfl
      · rw [← hkeeps.id, ← hkeeps2.id]
        rfl
    · rw [hr] at hfail
      cases hfail

/-! ### A confirmation -/

/-- A confirmation for the current file, as the connection manager gets it. -/
theorem confirm_current (connId : Int32) (job : TransferJob φ) (r : FileTransferSendConfirmRequest)
    (st : σ) (hnum : r.fileNum = job.fileNum) (hsome : r.union ≠ none) :
    job.confirm h ((r.forCm connId).request job.fileNum) st = job.confirm h r st := by
  obtain ⟨id, fileNum, union⟩ := r
  obtain rfl : fileNum = job.fileNum := hnum
  match union with
  | none => exact absurd rfl hsome
  | some (.skip true) => rfl
  | some (.skip false) => rfl
  | some (.offsetBlk offset) => rfl

theorem setFileConfirmed_self {job : TransferJob φ} (hconf : job.fileConfirmed = true)
    (hskipped : job.fileSkipped = false) : job.setFileConfirmed true = job := by
  unfold TransferJob.setFileConfirmed
  rw [← hconf, ← hskipped]

/-- A confirmation of a file that is confirmed already changes nothing on either side. -/
theorem confirm_again {job : TransferJob φ} {r : FileTransferSendConfirmRequest} (st : σ)
    (hconf : job.fileConfirmed = true) (hskipped : job.fileSkipped = false) (hskip : r.skip = false)
    (hoff : r.offsetBlk = 0) : job.confirm h r st = some (job, st) := by
  have hself := setFileConfirmed_self hconf hskipped
  unfold TransferJob.confirm
  split
  · rfl
  · rcases hu : r.union with _ | s | offset
    · rfl
    · unfold FileTransferSendConfirmRequest.skip at hskip
      rw [hu] at hskip
      dsimp only at hskip
      rw [hskip]
      dsimp only
      rw [hself]
    · unfold FileTransferSendConfirmRequest.offsetBlk at hoff
      rw [hu] at hoff
      dsimp only at hoff
      rw [hoff]
      dsimp only
      rw [if_neg (by simp), hself]

theorem confirm_alike (connId : Int32) {job : TransferJob φ} {r : FileTransferSendConfirmRequest}
    (st : σ) (hok : job.TakesAlike r) :
    job.confirm h ((r.forCm connId).request job.fileNum) st = job.confirm h r st := by
  rcases hok with ⟨hnum, hsome⟩ | ⟨hconf, hskipped, hskip, hoff⟩
  · exact confirm_current connId job r st hnum hsome
  · have hreq : (r.forCm connId).request job.fileNum =
        ⟨r.id, job.fileNum, some (.offsetBlk 0)⟩ := by
      simp [FileTransferSendConfirmRequest.forCm, SendConfirmForRead.request, hskip, hoff]
    rw [hreq, confirm_again st hconf hskipped hskip hoff]
    exact confirm_again st hconf hskipped rfl rfl

/-- What the connection manager makes of a confirmation that is taken alike. -/
theorem confirm_lockstep (connId : Int32) {s : Sender σ φ} {r : FileTransferSendConfirmRequest}
    (hok : Current s (.confirm r)) :
    handleSendConfirm h s (r.forCm connId) = s.step h (.confirm r) := by
  have hid : (r.forCm connId).id = r.id := rfl
  unfold handleSendConfirm
  simp only [Sender.step]
  rw [hid]
  cases hget : getJob r.id s.readJobs with
  | none => rfl
  | some job =>
    obtain ⟨hmem, hid⟩ := mem_of_getJob hget
    dsimp only
    have halike := confirm_alike (h := h) connId s.disk (hok job hmem hid)
    cases hc : job.confirm h r s.disk with
    | none => simp only [halike.trans hc]
    | some p => simp only [halike.trans hc]

/-! ## Every run -/

/-- At most one job, with this id. -/
def Single (id : Int32) (s : Sender σ φ) : Prop := (s.readJobs.map (·.id)).Sublist [id]

theorem Single.cases {id : Int32} {s : Sender σ φ} (hs : Single id s) :
    s.readJobs = [] ∨ ∃ job, s.readJobs = [job] ∧ job.id = id := by
  rcases List.sublist_singleton.mp hs with hnil | hone
  · exact .inl (List.map_eq_nil_iff.mp hnil)
  · obtain ⟨job, hjobs, hid⟩ := List.map_eq_singleton_iff.mp hone
    exact .inr ⟨job, hjobs, hid⟩

/-- The two systems in the same state, at an input where they stay in step. -/
theorem lockstep (connId : Int32) {id : Int32} {s : Sender σ φ} (hs : Single id s) {i : Input σ}
    (hok : ¬ Fails h s i) (hcur : Current s i) :
    cmMessages h connId s i = networkSends h s i ∧ cmStep h connId s i = networkStep h s i := by
  cases i with
  | tick =>
    obtain ⟨jobs, st⟩ := s
    rcases hs.cases with hjobs | ⟨job, hjobs, _⟩
    · obtain rfl : jobs = [] := hjobs
      exact ⟨rfl, rfl⟩
    · obtain rfl : jobs = [job] := hjobs
      obtain ⟨hstate, hsends⟩ := tick_lockstep connId hok
      exact ⟨hsends, hstate⟩
  | confirm r => exact ⟨rfl, confirm_lockstep connId hcur⟩
  | other effect => exact ⟨rfl, rfl⟩

theorem ids_putJob (job : TransferJob φ) (jobs : List (TransferJob φ)) :
    (putJob job jobs).map (·.id) = jobs.map (·.id) := by
  induction jobs with
  | nil => rfl
  | cons j jobs ih =>
    unfold putJob
    split
    · rename_i hid
      rw [List.map_cons, List.map_cons, hid]
    · rw [List.map_cons, List.map_cons, ih]

theorem ids_initJobs (jobs : List (TransferJob φ)) (st : σ) :
    (Sender.initJobs h jobs st).1.map (·.id) = jobs.map (·.id) := by
  induction jobs generalizing st with
  | nil => rfl
  | cons job jobs ih =>
    unfold Sender.initJobs
    split
    · rw [List.map_cons, List.map_cons, ih]
    · have hid := (TransferJob.initDataStream_keeps (h := h) job st).id
      rcases hinit : job.initDataStream h st with ⟨r, job1, st1, out⟩
      rw [hinit] at hid
      dsimp only at hid ⊢
      rw [List.map_cons, List.map_cons, ih, hid]

theorem ids_readFirst (jobs : List (TransferJob φ)) (st : σ) :
    (Sender.readFirst h jobs st).1.map (·.id) = jobs.map (·.id) := by
  induction jobs generalizing st with
  | nil => rfl
  | cons job jobs ih =>
    unfold Sender.readFirst
    split
    · rw [List.map_cons, List.map_cons, ih]
    · have hid := (TransferJob.read_keeps (h := h) job st).id
      have hids : ∀ job1 : TransferJob φ, job1.id = job.id →
          (job1 :: jobs).map (·.id) = (job :: jobs).map (·.id) := by
        intro job1 hid1
        rw [List.map_cons, List.map_cons, hid1]
      rcases hr : job.read h st with ⟨_ | _ | _, job1, st1⟩
      all_goals rw [hr] at hid
      · exact hids job1 hid
      · dsimp only
        split
        · exact hids job1 hid
        · exact hids job1 hid
      · exact hids job1 hid

theorem networkStep_single {id : Int32} {s : Sender σ φ} (hs : Single id s) (i : Input σ) :
    Single id (networkStep h s i) := by
  unfold Single at hs ⊢
  cases i with
  | tick =>
    have hids : ((Sender.readFirst h (Sender.initJobs h s.readJobs s.disk).1
        (Sender.initJobs h s.readJobs s.disk).2.1).1.map (·.id)).Sublist [id] := by
      rw [ids_readFirst, ids_initJobs]
      exact hs
    unfold networkStep Input.event Sender.step Sender.handleReadJobs
    dsimp only
    split
    · exact (List.eraseP_sublist.map _).trans hids
    · exact hids
  | confirm r =>
    simp only [networkStep, Input.event, Sender.step]
    split
    · exact hs
    · split
      · rw [ids_putJob]
        exact hs
      · exact List.nil_sublist _
  | other effect => exact hs

/-- With no job left the connection manager sends nothing. -/
theorem cm_idle (connId : Int32) (s : Sender σ φ) (i : Input σ) (hs : s.readJobs = []) :
    cmMessages h connId s i = [] ∧ (cmStep h connId s i).readJobs = [] := by
  obtain ⟨jobs, st⟩ := s
  obtain rfl : jobs = [] := hs
  cases i with
  | tick => exact ⟨rfl, rfl⟩
  | confirm r => exact ⟨rfl, rfl⟩
  | other effect => exact ⟨rfl, rfl⟩

/-- A job on its own, whatever state it is in and whatever fails, in every run in which the
    confirmations are for the file the job is at. Until something fails the connection manager
    sends what the other loop sends, message for message. A failure is the last thing it
    reports, where the other loop goes on. -/
theorem read_loops_agree (h : JobHost σ φ) (connId : Int32) (job : TransferJob φ) (st : σ)
    (inputs : List (Input σ)) (hcur : Along (cmStep h connId) Current ⟨[job], st⟩ inputs) :
    let network := emitted (networkStep h) (networkSends h) ⟨[job], st⟩
    let cm := emitted (cmStep h connId) (cmMessages h connId) ⟨[job], st⟩
    (Along (cmStep h connId) (fun s i => ¬ Fails h s i) ⟨[job], st⟩ inputs →
      cm inputs = network inputs) ∧
    ∀ before after, inputs = before ++ .tick :: after →
      Along (cmStep h connId) (fun s i => ¬ Fails h s i) ⟨[job], st⟩ before →
      Fails h (run (cmStep h connId) ⟨[job], st⟩ before) .tick →
      ∃ e fileNum more, cm inputs = network before ++ [.error job.id e fileNum] ∧
        network inputs = cm inputs ++ more := by
  have hall : ∀ as, Along (cmStep h connId) Current ⟨[job], st⟩ as →
      Along (cmStep h connId) (fun s i => ¬ Fails h s i) ⟨[job], st⟩ as →
      emitted (cmStep h connId) (cmMessages h connId) ⟨[job], st⟩ as =
          emitted (networkStep h) (networkSends h) ⟨[job], st⟩ as ∧
        run (cmStep h connId) ⟨[job], st⟩ as = run (networkStep h) ⟨[job], st⟩ as ∧
        Single job.id (run (cmStep h connId) ⟨[job], st⟩ as) := by
    intro as hc hok
    refine lockstep_of_along (R := fun s t => s = t ∧ Single job.id s)
      (C := fun s i => Current s i ∧ ¬ Fails h s i) ?_ ⟨rfl, List.Sublist.refl _⟩ (hc.and hok)
    rintro s t i ⟨rfl, hs⟩ ⟨hci, hoki⟩
    obtain ⟨hsends, hstate⟩ := lockstep connId hs hoki hci
    refine ⟨hsends, hstate, ?_⟩
    rw [hstate]
    exact networkStep_single hs i
  intro network cm
  refine ⟨fun hok => (hall inputs hcur hok).1, ?_⟩
  rintro before after rfl hok hfails
  obtain ⟨hsame, hrun, hsingle⟩ := hall before (along_append.mp hcur).1 hok
  rcases hsingle.cases with hnone | ⟨job1, hjobs, hid⟩
  · obtain ⟨_, hmem, _⟩ := hfails
    rw [hnone] at hmem
    cases hmem
  · rcases hmid : run (cmStep h connId) ⟨[job], st⟩ before with ⟨jobs, st1⟩
    rw [hmid] at hfails hjobs hrun
    obtain rfl : jobs = [job1] := hjobs
    obtain ⟨e, fileNum, more, hempty, hcm, hnet⟩ := tick_fails connId hfails
    -- What comes after the failure finds no job.
    have hrest : emitted (cmStep h connId) (cmMessages h connId)
        (cmStep h connId ⟨[job1], st1⟩ .tick) after = [] :=
      emitted_of_idle (I := fun s => s.readJobs = []) (cm_idle connId) hempty after
    have hcmAll : cm (before ++ .tick :: after) =
        network before ++ [.error job.id e fileNum] := by
      show emitted _ _ _ _ = _
      rw [emitted_append, hmid, hsame]
      show _ ++ ((handleReadJobsTick h connId ⟨[job1], st1⟩).2.map ReadData.forwarded ++ _) = _
      rw [hrest, hcm, hid]
      rfl
    refine ⟨e, fileNum, more ++ emitted (networkStep h) (networkSends h)
      (networkStep h ⟨[job1], st1⟩ .tick) after, hcmAll, ?_⟩
    show emitted _ _ _ _ = _
    rw [hcmAll, emitted_append, ← hrun]
    show _ ++ ((Sender.handleReadJobs h ⟨[job1], st1⟩).2.1 ++ _) = _
    rw [hnet, hid, List.append_assoc]
    rfl

/-- A disk with a file of three bytes. -/
def oneFileDisk : Disk String :=
  { (Disk.empty [] : Disk String) with
    names := fun k => if k = "/d/b" then some (.file 0) else none
    contents := fun _ => [1, 2, 3]
    nextInode := 1 }

/-- The first file is asked about, confirmed and sent, the second one is not there. -/
theorem read_loops_agree_two_files :
    let job : TransferJob Nat :=
      TransferJob.newRead 1 .generic (.filePath "/d") 0 [⟨"b", 0, 3⟩, ⟨"c", 0, 0⟩] true
    let inputs : List (Input (Disk String)) :=
      [.tick, .confirm ⟨1, 0, some (.offsetBlk 0)⟩, .tick, .tick]
    ∃ e fileNum more,
      emitted (cmStep plainHost 7) (cmMessages plainHost 7) ⟨[job], oneFileDisk⟩
          (inputs ++ [.tick]) =
        emitted (networkStep plainHost) (networkSends plainHost) ⟨[job], oneFileDisk⟩ inputs ++
          [.error 1 e fileNum] ∧
      emitted (networkStep plainHost) (networkSends plainHost) ⟨[job], oneFileDisk⟩
          (inputs ++ [.tick]) =
        emitted (cmStep plainHost 7) (cmMessages plainHost 7) ⟨[job], oneFileDisk⟩
          (inputs ++ [.tick]) ++ more := by
  intro job inputs
  refine (read_loops_agree plainHost 7 job oneFileDisk (inputs ++ [.tick]) ?_).2 inputs [] rfl ?_ ?_
  · exact ⟨trivial, by decide +kernel, trivial, trivial, trivial, trivial⟩
  · exact ⟨by decide +kernel, by decide +kernel, by decide +kernel, by decide +kernel, trivial⟩
  · decide +kernel

/-- The first of two files cannot be opened: the other loop sends a second message. And a
    confirmation for another file starts the transfer here only. -/
theorem read_loops_differ :
    let two : TransferJob Nat :=
      TransferJob.newRead 1 .generic (.filePath "/d") 0 [⟨"a", 0, 0⟩, ⟨"b", 0, 3⟩] true
    let one : TransferJob Nat :=
      TransferJob.newRead 1 .generic (.filePath "/d") 0 [⟨"b", 0, 3⟩] true
    let inputs : List (Input (Disk String)) :=
      [.tick, .confirm ⟨1, 5, some (.offsetBlk 0)⟩, .tick]
    emitted (networkStep plainHost) (networkSends plainHost) ⟨[two], oneFileDisk⟩ [.tick] =
        [.error 1 "No such file or directory" 1, .done 1 1] ∧
      emitted (cmStep plainHost 7) (cmMessages plainHost 7) ⟨[two], oneFileDisk⟩ [.tick] =
        [.error 1 "No such file or directory" 1] ∧
      emitted (networkStep plainHost) (networkSends plainHost) ⟨[one], oneFileDisk⟩ inputs =
        [.digest ⟨1, 0, 0, 3, false, false, 0, false⟩] ∧
      emitted (cmStep plainHost 7) (cmMessages plainHost 7) ⟨[one], oneFileDisk⟩ inputs =
        [.digest ⟨1, 0, 0, 3, false, false, 0, false⟩, .block ⟨1, 0, [1, 2, 3], false⟩] := by
  decide +kernel

end CmReader

end LuodaRemote
