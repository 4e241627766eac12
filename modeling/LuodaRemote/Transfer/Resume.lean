/-
  Taking up a download where it was left.

  The sender announces every file with a digest. The client that finds the start of the file
  in `name.download`, with the same digest next to it, answers with the size it has
  (`OffsetBlk`), and both sides call `confirm` with that answer. The client's own job ignores
  it unless the job stands at the file: its `file_num` moves with the first block of a file,
  which comes later, and only for the first file (and after one that was skipped) it is
  there already. The next block then finds no stream for its file, cuts the download off and
  starts again at zero, while the sender goes on at the offset.

  `resume_agrees` says that nothing else goes wrong, over a whole download;
  `resume_elsewhere_disagrees` that this always does. Both are about senders that send from the
  offset on, as that of the program does (`honest_of_sender`).
-/
import LuodaRemote.Transfer.OnDisk
import LuodaRemote.Transfer.Read

namespace LuodaRemote
open Lib

namespace TransferJob

section AnyDisk

variable {σ φ : Type}

/-! ## The client and a digest -/

/-- What becomes of a digest. -/
inductive DigestReply where
  | sent (r : FileTransferSendConfirmRequest)
  /-- `override_file_confirm`: the user is asked. -/
  | asked
  | silent
  deriving DecidableEq

/-- Answer a digest: `confirm` on the own job, then the same to the other side. -/
def confirmAndSend (h : JobHost σ φ) (digest : FileTransferDigest) (u : ConfirmUnion)
    (job : TransferJob φ) (st : σ) : Option ((TransferJob φ × σ) × DigestReply) :=
  let r : FileTransferSendConfirmRequest := ⟨digest.id, digest.fileNum, some u⟩
  (job.confirm h r st).map fun s => (s, .sent r)

theorem confirmAndSend_some {h : JobHost σ φ} {digest : FileTransferDigest} {u : ConfirmUnion}
    {job : TransferJob φ} {st : σ} {s : TransferJob φ × σ}
    (hc : job.confirm h ⟨digest.id, digest.fileNum, some u⟩ st = some s) :
    confirmAndSend h digest u job st = some (s, .sent ⟨digest.id, digest.fileNum, some u⟩) := by
  unfold confirmAndSend
  dsimp only
  rw [hc]
  rfl

/-- The offset that an earlier download gives, as `u32`, and whether there is one. -/
def resumeOffset (job : TransferJob φ) (d : FileTransferDigest) : Option Nat :=
  if d.isIdentical && job.isResume && 0 < d.transferredSize then
    some (d.transferredSize % 2 ^ 32)
  else none

/-- `file_response::Union::Digest` in `handle_msg_from_peer`, for a job that writes: with the
    job's default overwrite strategy. `none` is the panic of `confirm`. -/
def receiveDigest (h : JobHost σ φ) (supportsResume : Bool) (strategy : Option Bool)
    (digest : FileTransferDigest) (job : TransferJob φ) (st : σ) :
    Option ((TransferJob φ × σ) × DigestReply) :=
  match job.files[fileIndex digest.fileNum]?, job.dataSource with
  | some file, .filePath p =>
    let job := job.setDigest digest.fileSize digest.lastModified
    match isWriteNeedConfirmation h (supportsResume && job.isResume) (join h p file.name) digest
      st with
    | .error _ => some ((job, st), .silent)
    | .ok .isSame => confirmAndSend h digest (.skip true) job st
    | .ok (.needConfirm d) =>
      match job.resumeOffset d with
      | some offset => confirmAndSend h digest (.offsetBlk offset) job st
      | none =>
        match strategy with
        | some true => confirmAndSend h digest (.offsetBlk 0) job st
        | some false => confirmAndSend h digest (.skip true) job st
        | none => some ((job, st), .asked)
    | .ok .noSuchFile => confirmAndSend h digest (.offsetBlk 0) job st
  | _, _ => some ((job, st), .silent)

/-- `Data::SetConfirmOverrideFile`: the answer of the user. -/
def overrideFile (h : JobHost σ φ) (digest : FileTransferDigest) (needOverride : Bool)
    (job : TransferJob φ) (st : σ) : Option ((TransferJob φ × σ) × DigestReply) :=
  confirmAndSend h digest (if needOverride then .offsetBlk 0 else .skip true) job st

/-! ## One file of a download -/

/-- A file of the sender, the blocks it sends of it from an offset on, and the choices that the
    client's side makes. -/
structure Offer where
  digest : FileTransferDigest
  content : Bytes
  blocks : Nat → List FileTransferBlock
  strategy : Option Bool
  needOverride : Bool

/-- The answer to the digest of a file, with the user's if it is asked for. -/
def answer (h : JobHost σ φ) (supportsResume : Bool) (x : Offer) (s : TransferJob φ × σ) :
    Option ((TransferJob φ × σ) × DigestReply) :=
  match receiveDigest h supportsResume x.strategy x.digest s.1 s.2 with
  | some (s, .asked) => overrideFile h x.digest x.needOverride s.1 s.2
  | r => r

/-- A file from the digest to the last block. The sender waits for the answer and sends from the
    offset on. -/
def receiveFile (h : JobHost σ φ) (supportsResume : Bool) (s : TransferJob φ × σ) (x : Offer) :
    TransferJob φ × σ :=
  match answer h supportsResume x s with
  | some (s, .sent ⟨_, _, some (.offsetBlk n)⟩) => run (deliver h) s (x.blocks n)
  | some (s, _) => s
  | none => s

/-! ## The answer -/

variable {h : JobHost σ φ} {job : TransferJob φ} {st : σ} {path : String}
  {digest : FileTransferDigest}

/-- A part that can be taken up is there, with its digest, and is not empty. -/
theorem resumable_some {d : FileTransferDigest} (hr : resumable h path digest st = some d) :
    d.isIdentical = true ∧ 0 < d.transferredSize ∧
      h.fs.pathExists (downloadPath path) st = true ∧
      (∃ text, h.fs.readToString (digestPath path) st = .ok text) ∧
      ∃ m, h.fs.metadata (downloadPath path) st = .ok m ∧ d.transferredSize = m.len := by
  unfold resumable at hr
  split at hr
  · rename_i hex
    rw [Bool.and_eq_true] at hex
    split at hr
    · cases hr
    · rename_i local' hread
      have htext : ∃ text, h.fs.readToString (digestPath path) st = .ok text := by
        cases ht : h.fs.readToString (digestPath path) st with
        | error e =>
          rw [ht] at hread
          cases hread
        | ok text => exact ⟨text, rfl⟩
      split at hr
      · split at hr
        · cases hr
        · rename_i m hm
          split at hr
          · rename_i hlen
            cases hr
            exact ⟨rfl, hlen, hex.2, htext, m, hm, rfl⟩
          · cases hr
      · cases hr
  · cases hr

/-- A comparison with the file itself gives no offset. -/
theorem compareFile_ok {r : DigestCheckResult} (hc : compareFile h path digest st = .ok r) :
    r = .noSuchFile ∨ ∃ d, r = .needConfirm d ∧ d.transferredSize = 0 := by
  unfold compareFile at hc
  split at hc
  · cases hc
    exact .inl rfl
  · split at hc
    · cases hc
      exact .inl rfl
    · split at hc
      · cases hc
      · cases hc
        exact .inr ⟨_, rfl, rfl⟩

/-- There is a part of the file to go on with, and its size is not lost in a `u32`. -/
def Resumes (h : JobHost σ φ) (supportsResume : Bool) (path : String) (x : Offer)
    (s : TransferJob φ × σ) (n : Nat) : Prop :=
  supportsResume = true ∧ s.1.isResume = true ∧
    ∃ d, resumable h path x.digest s.2 = some d ∧ n = d.transferredSize % 2 ^ 32

variable {supportsResume : Bool} {x : Offer} {s : TransferJob φ × σ} {p : String}
  {entry : FileEntry}

/-- The job with the digest of the file that is announced. -/
def noted (x : Offer) (job : TransferJob φ) : TransferJob φ :=
  job.setDigest x.digest.fileSize x.digest.lastModified

/-- An answer that needs no question. -/
theorem answer_of_receive {u : ConfirmUnion}
    (hrec : receiveDigest h supportsResume x.strategy x.digest s.1 s.2 =
      confirmAndSend h x.digest u (noted x s.1) s.2) :
    answer h supportsResume x s = confirmAndSend h x.digest u (noted x s.1) s.2 := by
  unfold answer
  rw [hrec]
  unfold confirmAndSend
  dsimp only
  cases (noted x s.1).confirm h ⟨x.digest.id, x.digest.fileNum, some u⟩ s.2 <;> rfl

theorem answer_resumes (hp : s.1.dataSource = .filePath p)
    (hentry : s.1.files[fileIndex x.digest.fileNum]? = some entry) {n : Nat}
    (hr : Resumes h supportsResume (join h p entry.name) x s n) :
    answer h supportsResume x s =
      confirmAndSend h x.digest (.offsetBlk n) (noted x s.1) s.2 := by
  obtain ⟨hsup, hres, d, hd, rfl⟩ := hr
  obtain ⟨hident, hpos, _⟩ := resumable_some hd
  have hneed : isWriteNeedConfirmation h (supportsResume && (noted x s.1).isResume)
      (join h p entry.name) x.digest s.2 = .ok (.needConfirm d) := by
    unfold isWriteNeedConfirmation
    have htrue : (supportsResume && (noted x s.1).isResume) = true := by
      rw [hsup]
      exact hres
    rw [htrue, if_pos rfl, hd]
  have hoff : (noted x s.1).resumeOffset d = some (d.transferredSize % 2 ^ 32) := by
    unfold resumeOffset
    have hres' : (noted x s.1).isResume = true := hres
    rw [hident, hres', if_pos (by simpa using hpos)]
  apply answer_of_receive
  unfold noted at hneed hoff ⊢
  unfold receiveDigest
  rw [hentry, hp]
  dsimp only
  rw [hneed]
  dsimp only
  rw [hoff]

/-- Without a part to go on with, the file is sent from its start or not at all. -/
theorem answer_fresh (hp : s.1.dataSource = .filePath p)
    (hentry : s.1.files[fileIndex x.digest.fileNum]? = some entry)
    (hr : ∀ n, ¬ Resumes h supportsResume (join h p entry.name) x s n) :
    answer h supportsResume x s = some ((noted x s.1, s.2), .silent) ∨
      answer h supportsResume x s = confirmAndSend h x.digest (.skip true) (noted x s.1) s.2 ∨
      answer h supportsResume x s = confirmAndSend h x.digest (.offsetBlk 0) (noted x s.1) s.2 := by
  have hneed : isWriteNeedConfirmation h (supportsResume && (noted x s.1).isResume)
      (join h p entry.name) x.digest s.2 = compareFile h (join h p entry.name) x.digest s.2 := by
    unfold isWriteNeedConfirmation
    cases hb : supportsResume && (noted x s.1).isResume with
    | false => rfl
    | true =>
      rw [Bool.and_eq_true] at hb
      rw [if_pos rfl]
      cases hres : resumable h (join h p entry.name) x.digest s.2 with
      | none => rfl
      | some d => exact absurd ⟨hb.1, hb.2, d, hres, rfl⟩ (hr _)
  have hrec : receiveDigest h supportsResume x.strategy x.digest s.1 s.2 =
      match compareFile h (join h p entry.name) x.digest s.2 with
      | .error _ => some ((noted x s.1, s.2), .silent)
      | .ok .isSame => confirmAndSend h x.digest (.skip true) (noted x s.1) s.2
      | .ok (.needConfirm d) =>
        match (noted x s.1).resumeOffset d with
        | some offset => confirmAndSend h x.digest (.offsetBlk offset) (noted x s.1) s.2
        | none =>
          match x.strategy with
          | some true => confirmAndSend h x.digest (.offsetBlk 0) (noted x s.1) s.2
          | some false => confirmAndSend h x.digest (.skip true) (noted x s.1) s.2
          | none => some ((noted x s.1, s.2), .asked)
      | .ok .noSuchFile => confirmAndSend h x.digest (.offsetBlk 0) (noted x s.1) s.2 := by
    rw [← hneed]
    unfold receiveDigest
    rw [hentry, hp]
    rfl
  cases hcmp : compareFile h (join h p entry.name) x.digest s.2 with
  | error e =>
    rw [hcmp] at hrec
    unfold answer
    rw [hrec]
    exact .inl rfl
  | ok r =>
    rw [hcmp] at hrec
    rcases compareFile_ok hcmp with rfl | ⟨d, rfl, hzero⟩
    · exact .inr (.inr (answer_of_receive hrec))
    · have hoff : (noted x s.1).resumeOffset d = none := by
        simp [resumeOffset, hzero]
      dsimp only at hrec
      rw [hoff] at hrec
      dsimp only at hrec
      cases hstr : x.strategy with
      | some overwrite =>
        cases overwrite with
        | true => exact .inr (.inr (answer_of_receive (by rw [hrec, hstr])))
        | false => exact .inr (.inl (answer_of_receive (by rw [hrec, hstr])))
      | none =>
        rw [hstr] at hrec
        unfold answer overrideFile
        rw [hstr, hrec]
        cases x.needOverride with
        | true => exact .inr (.inr rfl)
        | false => exact .inr (.inl rfl)

/-- A confirmation without an offset opens nothing. -/
theorem confirm_fresh {u : ConfirmUnion} (hu : u = .skip true ∨ u = .offsetBlk 0)
    (id fileNum : Int32) (job : TransferJob φ) (st : σ) :
    ∃ job', job.confirm h ⟨id, fileNum, some u⟩ st = some (job', st) ∧
      SameTask job job' ∧ (job'.dataStream = none ∨
        job'.dataStream = job.dataStream ∧ job'.fileNum = job.fileNum) := by
  unfold confirm
  by_cases hnum : job.fileNum ≠ fileNum
  · rw [if_pos hnum]
    exact ⟨job, rfl, SameTask.refl job, .inr ⟨rfl, rfl⟩⟩
  · rw [if_neg hnum]
    rcases hu with rfl | rfl
    · exact ⟨_, rfl, ⟨rfl, rfl, rfl, rfl⟩, .inl rfl⟩
    · exact ⟨_, rfl, ⟨rfl, rfl, rfl, rfl⟩, .inr ⟨rfl, rfl⟩⟩

end AnyDisk

/-! ## On a disk -/

variable {κ : Type} [DecidableEq κ] {h : JobHost (Disk κ) Nat} {key : String → κ} {p : String}
  {supportsResume : Bool} {x : Offer} {s : TransferJob Nat × Disk κ} {entry : FileEntry}

/-- A job that can write its files. -/
structure Ready (h : JobHost (Disk κ) Nat) (p : String) (s : TransferJob Nat × Disk κ) : Prop where
  generic : s.1.jobType = .generic
  source : s.1.dataSource = .filePath p
  sound : s.2.Sound
  valid : ∀ entry ∈ s.1.files, ∀ d : Disk κ,
    joinValidatedPath h p entry.name d = .ok (join h p entry.name)

/-- The sender sends the file from the offset on, in blocks that carry its number. -/
def Honest (h : JobHost (Disk κ) Nat) (id : Int32) (x : Offer) : Prop :=
  ∀ n, x.blocks n ≠ [] ∧
    (∀ b ∈ x.blocks n, b.id = id ∧ b.fileNum = x.digest.fileNum) ∧
    bytesOf h (x.blocks n) = x.content.drop n

/-- What can be taken up is the start of the file. -/
def Prefixed (h : JobHost (Disk κ) Nat) (key : String → κ) (path : String) (x : Offer)
    (d : Disk κ) : Prop :=
  ∀ bs, (resumable h path x.digest d).isSome → d.content (key (downloadPath path)) = some bs →
    bs <+: x.content

/-- The block is written to the download at the position `n`. -/
def WrittenAt (h : JobHost (Disk κ) Nat) (key : String → κ) (path : String) (n : Nat)
    (s : TransferJob Nat × Disk κ) (block : FileTransferBlock) : Prop :=
  (s.1.write h block s.2).1 = .ok () ∧
    ∃ f e bs, (deliver h s block).1.dataStream = some (.fileStream f e) ∧
      Disk.OpenAt (deliver h s block).2 f (key (downloadPath path))
        (n + (decoded h block).length) ∧
      (deliver h s block).2.content (key (downloadPath path)) = some bs ∧
      (bs.drop n).take (decoded h block).length = decoded h block

/-- The download of a file on the disk, when there is a part to go on with. -/
theorem resumable_content (hfs : h.fs = Disk.fileSystem key) {path : String} {d : Disk κ}
    {digest d' : FileTransferDigest} (hr : resumable h path digest d = some d') :
    ∃ bs, d.content (key (downloadPath path)) = some bs ∧ bs.length = d'.transferredSize ∧
      d.names (key (downloadPath path)) ≠ some .dir ∧
      ∃ i, d.names (key (digestPath path)) = some (.file i) := by
  obtain ⟨_, hpos, hdl, ⟨text, htext⟩, m, hm, hlen⟩ := resumable_some hr
  have hdg : ∃ i, d.names (key (digestPath path)) = some (.file i) := by
    rw [hfs] at htext
    simp only [Disk.fileSystem, Disk.lookup] at htext
    cases hn : d.names (key (digestPath path)) with
    | none =>
      rw [hn] at htext
      cases htext
    | some n =>
      cases n with
      | file i => exact ⟨i, rfl⟩
      | dir =>
        rw [hn] at htext
        cases htext
  rw [hfs] at hm
  simp only [Disk.fileSystem] at hm
  split at hm
  · rename_i i hi
    cases hm
    exact ⟨d.contents i, by simp [Disk.content, hi], hlen.symm, by rw [hi]; simp, hdg⟩
  · cases hm
    rw [hlen] at hpos
    cases hpos
  · cases hm

/-- A client that stands at the file goes on at the offset. -/
theorem confirm_at_file (hfs : h.fs = Disk.fileSystem key) (hs : Ready h p s)
    (hentry : s.1.files[fileIndex x.digest.fileNum]? = some entry)
    (hnum : s.1.fileNum = x.digest.fileNum) {bs : Bytes} {n : Nat}
    (hcont : s.2.content (key (downloadPath (join h p entry.name))) = some bs)
    {j : Nat} (hdg : s.2.names (key (digestPath (join h p entry.name))) = some (.file j))
    (hpos : 0 < n) (hn : n ≤ bs.length) :
    ∃ s', (noted x s.1).confirm h
        ⟨x.digest.id, x.digest.fileNum, some (.offsetBlk n)⟩ s.2 = some s' ∧
      Writing h key p entry (fileIndex x.digest.fileNum) n bs s' ∧ SameTask s.1 s'.1 := by
  have hdl : ∃ i, s.2.names (key (downloadPath (join h p entry.name))) = some (.file i) := by
    unfold Disk.content at hcont
    split at hcont
    · rename_i i hi
      exact ⟨i, hi⟩
    · cases hcont
  obtain ⟨i, hi⟩ := hdl
  obtain ⟨d1, hopen, hw, ho, hcont1⟩ := Disk.openNew_file false hs.sound (by rw [hi]; simp)
  rw [hcont] at hcont1
  have hopenAt : openAtOffset h (join h p entry.name) s.2 = (.ok s.2.nextHandle, d1) := by
    unfold openAtOffset
    rw [hfs, Disk.pathExists_eq, Disk.pathExists_eq, hi, hdg]
    exact hopen
  have hres : ((noted x s.1).setFileConfirmed true).resolveEntryPath h p entry.name s.2 =
      some (join h p entry.name) := by
    have hgen : ((noted x s.1).setFileConfirmed true).jobType = .generic := hs.generic
    unfold resolveEntryPath
    rw [hgen]
    dsimp only
    rw [hs.valid entry (List.mem_of_getElem? hentry)]
    rfl
  refine ⟨({ (noted x s.1).setFileConfirmed true with
      dataStream := some (.fileStream s.2.nextHandle (fileIndex x.digest.fileNum))
      transferred := ((noted x s.1).setFileConfirmed true).transferred + n
      finishedSize := ((noted x s.1).setFileConfirmed true).finishedSize + n },
    d1.seek s.2.nextHandle n), ?_, ?_, ⟨rfl, rfl, rfl, rfl⟩⟩
  · have hsrc : ((noted x s.1).setFileConfirmed true).dataSource = .filePath p := hs.source
    have hfiles : ((noted x s.1).setFileConfirmed true).files[fileIndex x.digest.fileNum]? =
        some entry := hentry
    have hseek : h.fs.seek s.2.nextHandle n d1 = (.ok (), d1.seek s.2.nextHandle n) := by
      rw [hfs]
      rfl
    unfold confirm
    rw [if_neg (by simpa [noted, setDigest] using hnum)]
    dsimp only
    rw [if_pos hpos]
    unfold setStreamOffset
    rw [hsrc]
    dsimp only
    rw [hfiles]
    dsimp only
    rw [hres]
    dsimp only
    rw [hopenAt]
    dsimp only
    rw [hseek]
  · refine ⟨hs.source, by rw [← hnum]; rfl, hentry,
      Disk.seek_sound _ n hw.sound, ⟨_, _, rfl, ho.seek n⟩, ?_, hn⟩
    simpa [Disk.content, Disk.seek] using hcont1

/-! ## The blocks after the answer -/

omit [DecidableEq κ] in
theorem Ready.of_sameTask {s' : TransferJob Nat × Disk κ} (hs : Ready h p s)
    (hsame : SameTask s.1 s'.1) (hsound : s'.2.Sound) : Ready h p s' := by
  refine ⟨hsame.jobType.trans hs.generic, hsame.dataSource.trans hs.source, hsound, ?_⟩
  rw [hsame.files]
  exact hs.valid

theorem writtenAt_of_writing (hfs : h.fs = Disk.fileSystem key) {k n : Nat} {bs : Bytes}
    (hw : Writing h key p entry k n bs s) {block : FileTransferBlock} (hid : block.id = s.1.id)
    (hk : fileIndex block.fileNum = k) :
    WrittenAt h key (join h p entry.name) n s block := by
  obtain ⟨hok, hw', _, _⟩ := writeData_writing hfs hw block
  have hwrite := write_writing hw hid hk
  obtain ⟨f, e, hs, ho⟩ := hw'.stream
  unfold WrittenAt deliver
  rw [hwrite]
  refine ⟨hok, f, e, _, hs, ho, hw'.content, ?_⟩
  have hlen : (bs.take n).length = n := List.length_take_of_le hw.le
  rw [Disk.overwrite_eq _ hw.le, List.drop_left' hlen, List.take_left' rfl]

/-- The rest of a file behind a part of it makes the file. -/
theorem overwrite_drop {bs content : Bytes} {n : Nat} (hpre : bs <+: content)
    (hn : n ≤ bs.length) : Disk.overwrite bs (content.drop n) n = content := by
  obtain ⟨rest, rfl⟩ := hpre
  have hend : bs.drop (n + ((bs ++ rest).drop n).length) = [] := by
    apply List.drop_eq_nil_of_le
    rw [List.length_drop, List.length_append]
    omega
  have htake : bs.take n = (bs ++ rest).take n := (List.take_append_of_le_length hn).symm
  rw [Disk.overwrite_eq _ hn, hend, List.append_nil, htake, List.take_append_drop]

/-- Blocks for a stream that stands at the offset. -/
theorem blocks_at_offset (hfs : h.fs = Disk.fileSystem key) {n : Nat} {bs : Bytes}
    (hw : Writing h key p entry (fileIndex x.digest.fileNum) n bs s) (hx : Honest h s.1.id x)
    (hpre : bs <+: x.content) :
    (∀ b rest, x.blocks n = b :: rest → WrittenAt h key (join h p entry.name) n s b) ∧
      (run (deliver h) s (x.blocks n)).2.content (key (downloadPath (join h p entry.name))) =
        some x.content ∧
      (run (deliver h) s (x.blocks n)).2.Sound ∧
      SameTask s.1 (run (deliver h) s (x.blocks n)).1 ∧
      fileIndex (run (deliver h) s (x.blocks n)).1.fileNum = fileIndex x.digest.fileNum := by
  obtain ⟨_, hblocks, hbytes⟩ := hx n
  have hblocks' : ∀ b ∈ x.blocks n, b.id = s.1.id ∧
      fileIndex b.fileNum = fileIndex x.digest.fileNum :=
    fun b hb => ⟨(hblocks b hb).1, by rw [(hblocks b hb).2]⟩
  obtain ⟨hw', hworks⟩ := run_writing hfs (x.blocks n) hw hblocks'
  refine ⟨fun b rest heq => ?_, ?_, hw'.sound, hworks.sameTask, hw'.index⟩
  · obtain ⟨hid, hk⟩ := hblocks' b (by rw [heq]; exact List.mem_cons_self)
    exact writtenAt_of_writing hfs hw hid hk
  · rw [hw'.content, hbytes, overwrite_drop hpre hw.le]

/-- Blocks for a file that has no stream yet. -/
theorem blocks_at_start (hfs : h.fs = Disk.fileSystem key)
    (hside : ∀ path, key (downloadPath path) ≠ key (digestPath path)) (hs : Ready h p s)
    (hentry : s.1.files[fileIndex x.digest.fileNum]? = some entry)
    (hnew : fileIndex x.digest.fileNum ≠ fileIndex s.1.fileNum ∨ s.1.dataStream = none)
    (hdl : s.2.names (key (downloadPath (join h p entry.name))) ≠ some .dir)
    (hdg : s.2.names (key (digestPath (join h p entry.name))) ≠ some .dir) {n : Nat}
    (hx : Honest h s.1.id x) :
    (∀ b rest, x.blocks n = b :: rest → WrittenAt h key (join h p entry.name) 0 s b) ∧
      (run (deliver h) s (x.blocks n)).2.content (key (downloadPath (join h p entry.name))) =
        some (x.content.drop n) ∧
      (run (deliver h) s (x.blocks n)).2.Sound ∧
      SameTask s.1 (run (deliver h) s (x.blocks n)).1 ∧
      fileIndex (run (deliver h) s (x.blocks n)).1.fileNum = fileIndex x.digest.fileNum := by
  obtain ⟨hne, hblocks, hbytes⟩ := hx n
  cases hb : x.blocks n with
  | nil => exact absurd hb hne
  | cons b rest =>
    rw [hb] at hblocks hbytes
    obtain ⟨hid, hnum⟩ := hblocks b List.mem_cons_self
    obtain ⟨hsound1, hdirs⟩ : (s.1.modifyTime h s.2).Sound ∧
        ∀ q, (s.1.modifyTime h s.2).names q = some .dir ↔ s.2.names q = some .dir :=
      modifyTime_sound hfs hs.sound
    have hvalid := hs.valid entry (List.mem_of_getElem? hentry)
    rw [← hnum] at hentry hnew
    obtain ⟨hok, hw, hworks⟩ := deliver_target hfs hs.source hs.generic hid hentry hnew rfl
      hsound1 (hvalid _) (fun hd => hdl ((hdirs _).mp hd)) (fun hd => hdg ((hdirs _).mp hd))
      (hside _)
    have hmore : ∀ b' ∈ rest, b'.id = (deliver h (s.1, s.2) b).1.id ∧
        fileIndex b'.fileNum = fileIndex b.fileNum := by
      intro b' hb'
      obtain ⟨hid', hnum'⟩ := hblocks b' (List.mem_cons_of_mem b hb')
      exact ⟨hid'.trans hworks.sameTask.id.symm, by rw [hnum', hnum]⟩
    obtain ⟨hw', hworks'⟩ := run_writing hfs rest hw hmore
    refine ⟨?_, ?_, hw'.sound, hworks.sameTask.trans hworks'.sameTask, ?_⟩
    · rintro b' rest' ⟨⟩
      obtain ⟨f, e, hstream, ho⟩ := hw.stream
      refine ⟨hok, f, e, _, hstream, ?_, hw.content, ?_⟩
      · rw [Nat.zero_add]
        exact ho
      · rw [List.drop_zero, List.take_length]
    · rw [run_cons, hw'.content, ← hbytes, Disk.overwrite_end]
      rfl
    · rw [run_cons, hw'.index, hnum]

/-! ## A whole download -/

/-- Whenever the client answers with an offset, the next block is written there, and the download
    is the sender's file when all of it was sent. -/
def Agrees (h : JobHost (Disk κ) Nat) (key : String → κ) (p : String) (supportsResume : Bool)
    (s : TransferJob Nat × Disk κ) (x : Offer) : Prop :=
  ∀ entry, s.1.files[fileIndex x.digest.fileNum]? = some entry →
    ∀ s' r n, answer h supportsResume x s = some (s', .sent r) → r.union = some (.offsetBlk n) →
      (∀ b rest, x.blocks n = b :: rest → WrittenAt h key (join h p entry.name) n s' b) ∧
      (run (deliver h) s' (x.blocks n)).2.content (key (downloadPath (join h p entry.name))) =
        some x.content

/-- The client stands at the file if there is a part to go on with; otherwise no directory is in
    the way of the download and its digest. -/
def Follows (h : JobHost (Disk κ) Nat) (key : String → κ) (p : String) (supportsResume : Bool)
    (s : TransferJob Nat × Disk κ) (x : Offer) : Prop :=
  ∀ entry, s.1.files[fileIndex x.digest.fileNum]? = some entry →
    (∀ n, n ≠ 0 → Resumes h supportsResume (join h p entry.name) x s n →
      s.1.fileNum = x.digest.fileNum) ∧
    ((∀ n, n ≠ 0 → ¬ Resumes h supportsResume (join h p entry.name) x s n) →
      s.2.names (key (downloadPath (join h p entry.name))) ≠ some .dir ∧
      s.2.names (key (digestPath (join h p entry.name))) ≠ some .dir)

/-- The sender is honest, and what can be taken up is the start of its file. -/
def Offered (h : JobHost (Disk κ) Nat) (key : String → κ) (p : String) (id : Int32)
    (s : TransferJob Nat × Disk κ) (x : Offer) : Prop :=
  Honest h id x ∧ ∀ entry, s.1.files[fileIndex x.digest.fileNum]? = some entry →
    Prefixed h key (join h p entry.name) x s.2

/-- What a file leaves behind for the next one: the job can still write, and its stream, if it has
    one, is that of the file, or the one it had. -/
structure Leaves (h : JobHost (Disk κ) Nat) (p : String) (x : Offer)
    (s s' : TransferJob Nat × Disk κ) : Prop where
  ready : Ready h p s'
  sameTask : SameTask s.1 s'.1
  stream : s'.1.dataStream.isSome → fileIndex s'.1.fileNum = fileIndex x.digest.fileNum ∨
    s.1.dataStream.isSome ∧ s'.1.fileNum = s.1.fileNum

omit [DecidableEq κ] in
/-- The client answered with an offset, and the blocks that follow make the file. -/
theorem receiveFile_of_answer (hs : Ready h p s)
    (hentry : s.1.files[fileIndex x.digest.fileNum]? = some entry) {n : Nat}
    {s1 : TransferJob Nat × Disk κ} (hsame : SameTask s.1 s1.1)
    (hans : answer h supportsResume x s =
      some (s1, .sent ⟨x.digest.id, x.digest.fileNum, some (.offsetBlk n)⟩))
    (hat : ∀ b rest, x.blocks n = b :: rest → WrittenAt h key (join h p entry.name) n s1 b)
    (hfinal : (run (deliver h) s1 (x.blocks n)).2.content
      (key (downloadPath (join h p entry.name))) = some x.content)
    (hsound : (run (deliver h) s1 (x.blocks n)).2.Sound)
    (hsame' : SameTask s1.1 (run (deliver h) s1 (x.blocks n)).1)
    (hidx : fileIndex (run (deliver h) s1 (x.blocks n)).1.fileNum = fileIndex x.digest.fileNum) :
    Agrees h key p supportsResume s x ∧ Leaves h p x s (receiveFile h supportsResume s x) := by
  constructor
  · intro entry' hentry' s' r n' hans' hr
    rw [hentry] at hentry'
    cases hentry'
    rw [hans] at hans'
    cases hans'
    cases hr
    exact ⟨hat, hfinal⟩
  · unfold receiveFile
    rw [hans]
    exact ⟨hs.of_sameTask (hsame.trans hsame') hsound, hsame.trans hsame', fun _ => .inl hidx⟩

/-- There is a part to go on with, and the client stands at the file. -/
theorem receiveFile_resumes (hfs : h.fs = Disk.fileSystem key) (hs : Ready h p s)
    (hoff : Offered h key p s.1.id s x)
    (hentry : s.1.files[fileIndex x.digest.fileNum]? = some entry) {n : Nat} (hn : n ≠ 0)
    (hres : Resumes h supportsResume (join h p entry.name) x s n)
    (hnum : s.1.fileNum = x.digest.fileNum) :
    Agrees h key p supportsResume s x ∧ Leaves h p x s (receiveFile h supportsResume s x) := by
  have hans := answer_resumes hs.source hentry hres
  obtain ⟨_, _, d, hd, hnd⟩ := hres
  obtain ⟨bs, hcont, hlen, _, j, hdg⟩ := resumable_content hfs hd
  have hle : n ≤ bs.length := by
    rw [hnd, hlen]
    exact Nat.mod_le _ _
  obtain ⟨s1, hconf, hw, hsame⟩ := confirm_at_file hfs hs hentry hnum hcont hdg
    (Nat.pos_of_ne_zero hn) hle
  have hpre : bs <+: x.content := hoff.2 entry hentry bs (by rw [hd]; rfl) hcont
  have hx : Honest h s1.1.id x := by
    rw [hsame.id]
    exact hoff.1
  obtain ⟨hat, hfinal, hsound, hsame', hidx⟩ := blocks_at_offset hfs hw hx hpre
  exact receiveFile_of_answer hs hentry hsame (hans.trans (confirmAndSend_some hconf)) hat hfinal
    hsound hsame' hidx

/-- The file is sent from its start. -/
theorem receiveFile_start (hfs : h.fs = Disk.fileSystem key)
    (hside : ∀ path, key (downloadPath path) ≠ key (digestPath path)) (hs : Ready h p s)
    (hclosed : s.1.dataStream.isSome → fileIndex s.1.fileNum ≠ fileIndex x.digest.fileNum)
    (hx : Honest h s.1.id x) (hentry : s.1.files[fileIndex x.digest.fileNum]? = some entry)
    (hdl : s.2.names (key (downloadPath (join h p entry.name))) ≠ some .dir)
    (hdg : s.2.names (key (digestPath (join h p entry.name))) ≠ some .dir)
    (hans : answer h supportsResume x s =
      confirmAndSend h x.digest (.offsetBlk 0) (noted x s.1) s.2) :
    Agrees h key p supportsResume s x ∧ Leaves h p x s (receiveFile h supportsResume s x) := by
  obtain ⟨job1, hconf, hsame1, hstream⟩ :=
    confirm_fresh (h := h) (.inr rfl) x.digest.id x.digest.fileNum (noted x s.1) s.2
  have hsame : SameTask s.1 job1 := ⟨hsame1.id, hsame1.jobType, hsame1.dataSource, hsame1.files⟩
  have hnew : fileIndex x.digest.fileNum ≠ fileIndex job1.fileNum ∨ job1.dataStream = none := by
    rcases hstream with hnone | ⟨hsame', hnum⟩
    · exact .inr hnone
    · cases hds : s.1.dataStream with
      | none => exact .inr (hsame'.trans hds)
      | some st =>
        left
        rw [hnum]
        exact fun heq => hclosed (by rw [hds]; rfl) heq.symm
  have hentry1 : job1.files[fileIndex x.digest.fileNum]? = some entry := by
    rw [hsame.files]
    exact hentry
  have hx1 : Honest h job1.id x := by
    rw [hsame.id]
    exact hx
  obtain ⟨hat, hfinal, hsound, hsame', hidx⟩ := blocks_at_start hfs hside
    (s := (job1, s.2)) (hs.of_sameTask hsame hs.sound) hentry1 hnew hdl hdg (n := 0) hx1
  rw [List.drop_zero] at hfinal
  exact receiveFile_of_answer hs hentry hsame (hans.trans (confirmAndSend_some hconf)) hat hfinal
    hsound hsame' hidx

omit [DecidableEq κ] in
/-- The file is not sent: nothing is opened. -/
theorem receiveFile_skipped (hs : Ready h p s)
    (hans : answer h supportsResume x s = some ((noted x s.1, s.2), .silent) ∨
      answer h supportsResume x s = confirmAndSend h x.digest (.skip true) (noted x s.1) s.2) :
    Agrees h key p supportsResume s x ∧ Leaves h p x s (receiveFile h supportsResume s x) := by
  rcases hans with hans | hans
  · constructor
    · intro entry' _ s' r n hans' hr
      rw [hans] at hans'
      cases hans'
    · unfold receiveFile
      rw [hans]
      exact ⟨hs.of_sameTask ⟨rfl, rfl, rfl, rfl⟩ hs.sound, ⟨rfl, rfl, rfl, rfl⟩,
        fun hsome => .inr ⟨hsome, rfl⟩⟩
  · obtain ⟨job1, hconf, hsame1, hstream⟩ :=
      confirm_fresh (h := h) (.inl rfl) x.digest.id x.digest.fileNum (noted x s.1) s.2
    have hsame : SameTask s.1 job1 := ⟨hsame1.id, hsame1.jobType, hsame1.dataSource, hsame1.files⟩
    have hans' := hans.trans (confirmAndSend_some hconf)
    constructor
    · intro entry' _ s' r n hans'' hr
      rw [hans'] at hans''
      cases hans''
      cases hr
    · unfold receiveFile
      rw [hans']
      refine ⟨hs.of_sameTask hsame hs.sound, hsame, fun hsome => .inr ?_⟩
      rcases hstream with hnone | ⟨hsame', hnum⟩
      · rw [hnone] at hsome
        cases hsome
      · rw [hsame'] at hsome
        exact ⟨hsome, hnum⟩

/-- One file, in a state where its stream is not open yet. -/
theorem receiveFile_step (hfs : h.fs = Disk.fileSystem key)
    (hside : ∀ path, key (downloadPath path) ≠ key (digestPath path)) (hs : Ready h p s)
    (hclosed : s.1.dataStream.isSome → fileIndex s.1.fileNum ≠ fileIndex x.digest.fileNum)
    (hoff : Offered h key p s.1.id s x) (hfol : Follows h key p supportsResume s x) :
    Agrees h key p supportsResume s x ∧ Leaves h p x s (receiveFile h supportsResume s x) := by
  cases hentry : s.1.files[fileIndex x.digest.fileNum]? with
  | none =>
    have hans : answer h supportsResume x s = some (s, .silent) := by
      unfold answer receiveDigest
      rw [hentry]
    constructor
    · intro entry hentry'
      rw [hentry] at hentry'
      cases hentry'
    · unfold receiveFile
      rw [hans]
      exact ⟨hs, SameTask.refl s.1, fun hsome => .inr ⟨hsome, rfl⟩⟩
  | some entry =>
    obtain ⟨hstands, hclear⟩ := hfol entry hentry
    by_cases hres : ∃ n, n ≠ 0 ∧ Resumes h supportsResume (join h p entry.name) x s n
    · obtain ⟨n, hn, hr⟩ := hres
      exact receiveFile_resumes hfs hs hoff hentry hn hr (hstands n hn hr)
    · have hno (n : Nat) (hn : n ≠ 0) :
          ¬ Resumes h supportsResume (join h p entry.name) x s n := fun hr => hres ⟨n, hn, hr⟩
      obtain ⟨hdl, hdg⟩ := hclear hno
      -- An offset of zero is as good as none.
      by_cases hzero : Resumes h supportsResume (join h p entry.name) x s 0
      · exact receiveFile_start hfs hside hs hclosed hoff.1 hentry hdl hdg
          (answer_resumes hs.source hentry hzero)
      · have hnever (n : Nat) : ¬ Resumes h supportsResume (join h p entry.name) x s n := by
          by_cases hn : n = 0
          · rw [hn]
            exact hzero
          · exact hno n hn
        rcases answer_fresh hs.source hentry hnever with hans | hans | hans
        · exact receiveFile_skipped hs (.inl hans)
        · exact receiveFile_skipped hs (.inr hans)
        · exact receiveFile_start hfs hside hs hclosed hoff.1 hentry hdl hdg hans

/-- The files of a download, one after the other. -/
theorem agrees_along (hfs : h.fs = Disk.fileSystem key)
    (hside : ∀ path, key (downloadPath path) ≠ key (digestPath path)) {id : Int32}
    (xs : List Offer) :
    ∀ {s : TransferJob Nat × Disk κ}, Ready h p s → s.1.id = id →
      (xs.map fun x => fileIndex x.digest.fileNum).Nodup →
      (s.1.dataStream.isSome →
        fileIndex s.1.fileNum ∉ xs.map fun x => fileIndex x.digest.fileNum) →
      Along (receiveFile h supportsResume) (Offered h key p id) s xs →
      Along (receiveFile h supportsResume) (Follows h key p supportsResume) s xs →
      Along (receiveFile h supportsResume) (Agrees h key p supportsResume) s xs := by
  induction xs with
  | nil => exact fun _ _ _ _ _ _ => trivial
  | cons x xs ih =>
    intro s hs hid hnodup hclosed hoff hfol
    rw [List.map_cons, List.nodup_cons] at hnodup
    obtain ⟨hagrees, hleaves⟩ := receiveFile_step hfs hside hs
      (fun hsome heq => hclosed hsome (by rw [heq]; exact List.mem_cons_self))
      (by rw [hid]; exact hoff.1) hfol.1
    refine ⟨hagrees, ih hleaves.ready (hleaves.sameTask.id.trans hid) hnodup.2 ?_ hoff.2 hfol.2⟩
    intro hsome hmem
    rcases hleaves.stream hsome with hidx | ⟨hsome', hnum⟩
    · rw [hidx] at hmem
      exact hnodup.1 hmem
    · rw [hnum] at hmem
      exact hclosed hsome' (List.mem_cons_of_mem _ hmem)

/-- A download into any directory, from its first digest to the last block: every offset that the
    client answers is the one it goes on at, and every file arrives as it is, if the client
    stands at each file that it has a part of, and no directory is in the way of the others. -/
theorem resume_agrees (h : JobHost (Disk κ) Nat) (key : String → κ)
    (hfs : h.fs = Disk.fileSystem key)
    (hside : ∀ path, key (downloadPath path) ≠ key (digestPath path)) {p : String} {id n : Int32}
    {files : List FileEntry} {d : Disk κ} (hd : d.Sound) {job : TransferJob Nat}
    (hset : (newWrite id .generic (.filePath p) n true).setFiles h files d = (.ok (), job))
    (supportsResume : Bool) (xs : List Offer)
    (hxs : (xs.map fun x => fileIndex x.digest.fileNum).Nodup)
    (hoff : Along (receiveFile h supportsResume) (Offered h key p id)
      ({ job with isResume := true }, d) xs)
    (hfol : Along (receiveFile h supportsResume) (Follows h key p supportsResume)
      ({ job with isResume := true }, d) xs) :
    Along (receiveFile h supportsResume) (Agrees h key p supportsResume)
      ({ job with isResume := true }, d) xs := by
  have hjob := setFiles_ok hset
  have hready : Ready h p ({ job with isResume := true }, d) := by
    refine ⟨?_, ?_, hd, fun entry hentry d' => ?_⟩
    · rw [hjob]
      rfl
    · rw [hjob]
      rfl
    · refine joinValidatedPath_of_setFiles hfs rfl hset ?_ d'
      rw [hjob] at hentry
      exact hentry
  refine agrees_along hfs hside xs hready (by rw [hjob]; rfl) hxs ?_ hoff hfol
  rw [hjob]
  intro hsome
  cases hsome

/-! ### Two files of which one is half there -/

/-- A file of the sender, in one block and the end. -/
def offer (fileNum : Int32) (content : Bytes) : Offer where
  digest := { id := 1, fileNum := fileNum, lastModified := 5, fileSize := content.length }
  content := content
  blocks n := [⟨1, fileNum, content.drop n, false⟩, ⟨1, fileNum, [], false⟩]
  strategy := none
  needOverride := true

/-- A download of three bytes that stopped after the first two. -/
def stopped (path : String) : Disk String :=
  ((Disk.empty []).withFile (downloadPath path) [1, 2]).withFile (digestPath path)
    (plainHost.digestToJson ⟨3, 5⟩).toUTF8.toList

def resumedJob : TransferJob Nat :=
  { newWrite 1 .generic (.filePath "/d") 0 true with
    files := [⟨"a", 0, 0⟩, ⟨"b", 0, 0⟩]
    isResume := true }

theorem honest_offer (fileNum : Int32) (content : Bytes) :
    Honest plainHost 1 (offer fileNum content) := by
  intro n
  refine ⟨by simp [offer], ?_, by simp [offer, bytesOf, decoded]⟩
  intro b hb
  simp only [offer, List.mem_cons, List.not_mem_nil, or_false] at hb
  rcases hb with rfl | rfl <;> exact ⟨rfl, rfl⟩

/-- The file that is half there is the first one. -/
theorem resume_agrees_first_file :
    Along (receiveFile plainHost true) (Agrees plainHost (fun path => path) "/d" true)
      (resumedJob, stopped "/d/a") [offer 0 [1, 2, 3]] := by
  have hsound : (stopped "/d/a").Sound :=
    (Disk.withFile_within _ _ (Disk.withFile_within _ _ (Disk.sound_empty [])).sound).sound
  have hset : (newWrite 1 .generic (.filePath "/d") 0 true).setFiles plainHost
      [⟨"a", 0, 0⟩, ⟨"b", 0, 0⟩] (stopped "/d/a") =
        (.ok (), { resumedJob with isResume := false }) := by
    decide +kernel
  have hentry (entry : FileEntry)
      (he : resumedJob.files[fileIndex (offer 0 [1, 2, 3]).digest.fileNum]? = some entry) :
      join plainHost "/d" entry.name = "/d/a" := by
    have hfirst : resumedJob.files[fileIndex (offer 0 [1, 2, 3]).digest.fileNum]? =
        some ⟨"a", 0, 0⟩ := by decide +kernel
    rw [hfirst] at he
    cases he
    decide +kernel
  refine resume_agrees plainHost (fun path => path) rfl plainHost_side hsound hset true _
    (by simp) ⟨⟨honest_offer 0 _, ?_⟩, trivial⟩ ⟨?_, trivial⟩
  · intro entry he bs _ hbs
    rw [hentry entry he] at hbs
    have hpart : (stopped "/d/a").content "/d/a.download" = some [1, 2] := by decide +kernel
    obtain rfl : bs = [1, 2] := Option.some.inj (hbs.symm.trans hpart)
    exact ⟨[3], rfl⟩
  · intro entry he
    rw [hentry entry he]
    exact ⟨fun _ _ _ => rfl, fun _ => by decide +kernel⟩

/-- The file that is half there is the second one: the client answers with an offset of two and
    then starts again at zero. -/
theorem resume_second_file_lost :
    (run (receiveFile plainHost true) (resumedJob, stopped "/d/b")
        [offer 0 [7], offer 1 [1, 2, 3]]).2.content "/d/b.download" = some [3] ∧
      ¬ Along (receiveFile plainHost true) (Agrees plainHost (fun path => path) "/d" true)
        (resumedJob, stopped "/d/b") [offer 0 [7], offer 1 [1, 2, 3]] := by
  have hlost : (run (receiveFile plainHost true) (resumedJob, stopped "/d/b")
      [offer 0 [7], offer 1 [1, 2, 3]]).2.content "/d/b.download" = some [3] := by decide +kernel
  refine ⟨hlost, ?_⟩
  rintro ⟨_, hagrees, _⟩
  have hreply : (answer plainHost true (offer 1 [1, 2, 3]) (receiveFile plainHost true
      (resumedJob, stopped "/d/b") (offer 0 [7]))).map (·.2) =
        some (.sent ⟨1, 1, some (.offsetBlk 2)⟩) := by decide +kernel
  obtain ⟨⟨s', reply⟩, hans, hsent⟩ := Option.map_eq_some_iff.mp hreply
  dsimp only at hsent
  subst hsent
  have hentry : (receiveFile plainHost true (resumedJob, stopped "/d/b") (offer 0 [7])).1.files[
      fileIndex (offer 1 [1, 2, 3]).digest.fileNum]? = some ⟨"b", 0, 0⟩ := by decide +kernel
  have hwhole := (hagrees ⟨"b", 0, 0⟩ hentry s' _ 2 hans rfl).2
  have hpath : downloadPath (join plainHost "/d" "b") = "/d/b.download" := by decide +kernel
  rw [hpath] at hwhole
  have hrun : run (receiveFile plainHost true) (resumedJob, stopped "/d/b")
      [offer 0 [7], offer 1 [1, 2, 3]] =
        run (deliver plainHost) s' ((offer 1 [1, 2, 3]).blocks 2) := by
    rw [run_cons, run_cons, run_nil]
    unfold receiveFile at hans ⊢
    rw [hans]
  rw [hrun, hwhole] at hlost
  exact absurd hlost (by decide)

theorem fileIndex_inj {a b : Int32} (hab : fileIndex a = fileIndex b) : a = b := by
  have ha := Int32.le_toInt a
  have ha' := Int32.toInt_lt a
  have hb := Int32.le_toInt b
  have hb' := Int32.toInt_lt b
  unfold fileIndex asUsize at hab
  apply Int32.toInt_inj.mp
  omega

/-- A client that stands elsewhere loses the part it has. -/
theorem resume_elsewhere_disagrees (hfs : h.fs = Disk.fileSystem key)
    (hside : ∀ path, key (downloadPath path) ≠ key (digestPath path)) (hs : Ready h p s)
    (hoff : Offered h key p s.1.id s x)
    (hentry : s.1.files[fileIndex x.digest.fileNum]? = some entry) {n : Nat} (hn : n ≠ 0)
    (hres : Resumes h supportsResume (join h p entry.name) x s n)
    (hnum : s.1.fileNum ≠ x.digest.fileNum) : ¬ Agrees h key p supportsResume s x := by
  intro hagrees
  have hans := answer_resumes hs.source hentry hres
  obtain ⟨_, _, d, hd, hnd⟩ := hres
  obtain ⟨bs, hcont, hlen, hdl, j, hdg⟩ := resumable_content hfs hd
  have hconf : (noted x s.1).confirm h ⟨x.digest.id, x.digest.fileNum, some (.offsetBlk n)⟩ s.2 =
      some (noted x s.1, s.2) := by
    unfold confirm
    rw [if_pos (show (noted x s.1).fileNum ≠ _ from hnum)]
  have hsame : SameTask s.1 (noted x s.1) := ⟨rfl, rfl, rfl, rfl⟩
  have hfinal := (hagrees entry hentry _ _ n (hans.trans (confirmAndSend_some hconf)) rfl).2
  have hstart := (blocks_at_start (s := (noted x s.1, s.2)) (n := n) hfs hside
    (hs.of_sameTask hsame hs.sound) hentry (.inl fun heq => hnum (fileIndex_inj heq).symm) hdl
    (by rw [hdg]; simp) hoff.1).2.1
  rw [hstart] at hfinal
  -- The file is shorter than itself.
  have hpre : bs <+: x.content := hoff.2 entry hentry bs (by rw [hd]; rfl) hcont
  have hshort := congrArg List.length (Option.some.inj hfinal)
  have hle := hpre.length_le
  have hmod := Nat.mod_le d.transferredSize (2 ^ 32)
  rw [List.length_drop] at hshort
  omega

/-! ## The sender -/

/-- The blocks that `read` gives one after the other, up to the one that ends the file. -/
def sendFile (h : JobHost (Disk κ) Nat) : Nat → TransferJob Nat × Disk κ → List FileTransferBlock
  | 0, _ => []
  | fuel + 1, s =>
    match s.1.read h s.2 with
    | (.ok (some b), s) =>
      if b.data = [] ∧ b.compressed = false then [b] else b :: sendFile h fuel s
    | _ => []

/-- A job that may read its current file, which holds `content`, at the position `n`. -/
structure Reading (content : Bytes) (n : Nat) (s : TransferJob Nat × Disk κ) : Prop where
  confirmed : s.1.fileConfirmed = true
  source : ∃ p, s.1.dataSource = .filePath p
  lt : fileIndex s.1.fileNum < s.1.files.length
  stream : ∃ f e, s.1.dataStream = some (.fileStream f e) ∧
    (s.2.handles f).writable = false ∧ (s.2.handles f).pos = n ∧
    s.2.contents (s.2.handles f).inode = content

/-- The loop fills the buffer as far as the file goes: what a second read brings is nothing. -/
theorem fillBuf_disk (hfs : h.fs = Disk.fileSystem key) {d : Disk κ} {f : Nat}
    (hr : (d.handles f).writable = false) (fuel room : Nat) {bs : Bytes}
    (hbs : bs = ((d.contents (d.handles f).inode).drop (d.handles f).pos).take room) :
    ∃ d', fillBuf h f (fuel + 2) room d = (.ok bs, d') ∧ d'.contents = d.contents ∧
      d'.handles f = { d.handles f with pos := (d.handles f).pos + bs.length } := by
  have hread (d : Disk κ) (hr : (d.handles f).writable = false) (room : Nat) :
      h.fs.read f room d = (.ok (((d.contents (d.handles f).inode).drop
        (d.handles f).pos).take room), d.seek f ((d.handles f).pos + (((d.contents
          (d.handles f).inode).drop (d.handles f).pos).take room).length)) := by
    rw [hfs]
    exact Disk.read_file hr room
  have hlen : bs.length ≤ room := by
    rw [hbs]
    exact List.length_take_le _ _
  rw [fillBuf, hread d hr room, ← hbs]
  dsimp only
  rw [List.take_of_length_le hlen]
  by_cases hfull : (bs.isEmpty || decide (room ≤ bs.length)) = true
  · rw [if_pos hfull]
    exact ⟨_, rfl, rfl, Disk.seek_handles _ _ d⟩
  · rw [if_neg hfull]
    simp only [Bool.or_eq_true, decide_eq_true_eq, not_or, Nat.not_le] at hfull
    -- A buffer that is not full ends with the file.
    have hend : (d.contents (d.handles f).inode).drop ((d.handles f).pos + bs.length) = [] := by
      rw [← List.drop_drop]
      apply List.drop_eq_nil_of_le
      have hlt := hfull.2
      rw [hbs, List.length_take] at hlt ⊢
      omega
    rw [fillBuf, hread _ (by simpa using hr)]
    simp only [Disk.seek_contents, Disk.seek_handles, hend, List.take_nil, List.isEmpty_nil,
      Bool.true_or, if_true, List.append_nil, List.length_nil, Nat.add_zero]
    exact ⟨_, rfl, rfl, by simp⟩

omit [DecidableEq κ] in
/-- What is packed is unpacked again. -/
theorem decoded_packBlock {h' : JobHost (Disk κ) Nat}
    (hzstd : ∀ data, h'.decompress (h.compress data) = data) (name : String)
    (job : TransferJob Nat) (buf : Bytes) (id fileNum : Int32) :
    decoded h' ⟨id, fileNum, (job.packBlock h name buf).1, (job.packBlock h name buf).2⟩ = buf := by
  unfold packBlock decoded
  split
  · split
    · rfl
    · dsimp only
      split
      · exact hzstd buf
      · rfl
  · rfl

/-- `read` on an open file, after its checks. -/
theorem read_eq_readBlock (hfs : h.fs = Disk.fileSystem key) {content : Bytes} {n : Nat}
    (hs : Reading content n s) : ∃ name f e d', s.1.dataStream = some (.fileStream f e) ∧
      s.1.read h s.2 = s.1.readBlock h name s.2 ∧
      readStream h (.fileStream f e) s.2 =
        (.ok ((content.drop n).take bufSize), .fileStream f e, d') ∧
      d'.contents = s.2.contents ∧ (d'.handles f) = { s.2.handles f with
        pos := n + ((content.drop n).take bufSize).length } := by
  obtain ⟨p, hp⟩ := hs.source
  obtain ⟨f, e, hstream, hread, hpos, hcont⟩ := hs.stream
  obtain ⟨d', hfill, hsame, hhandle⟩ := fillBuf_disk hfs hread (bufSize - 1) bufSize rfl
  rw [hpos, hcont] at hfill hhandle
  obtain ⟨name, hname⟩ : ∃ name, s.1.read h s.2 = s.1.readBlock h name s.2 := by
    unfold read
    rw [if_neg (by simp [hs.confirmed]), hp, List.getElem?_eq_getElem hs.lt]
    exact ⟨_, rfl⟩
  refine ⟨name, f, e, d', hstream, hname, ?_, hsame, hhandle⟩
  unfold readStream
  dsimp only
  rw [show bufSize + 1 = bufSize - 1 + 2 from rfl, hfill]

/-- `read` gives the next part of the file. -/
theorem read_reading (hfs : h.fs = Disk.fileSystem key) {h' : JobHost (Disk κ) Nat}
    (hzstd : ∀ data, h'.decompress (h.compress data) = data) {content : Bytes} {n : Nat}
    (hs : Reading content n s) (hlt : n < content.length) :
    ∃ b s', s.1.read h s.2 = (.ok (some b), s') ∧ b.id = s.1.id ∧ b.fileNum = s.1.fileNum ∧
      decoded h' b = (content.drop n).take bufSize ∧ ¬ (b.data = [] ∧ b.compressed = false) ∧
      Reading content (n + (decoded h' b).length) s' ∧ s'.1.id = s.1.id ∧
      s'.1.fileNum = s.1.fileNum := by
  obtain ⟨name, f, e, d', hstream, hread, hfill, hsame, hhandle⟩ := read_eq_readBlock hfs hs
  obtain ⟨_, _, hstream', hreadable, _, hcont⟩ := hs.stream
  rw [hstream] at hstream'
  cases hstream'
  have hne : (content.drop n).take bufSize ≠ [] := by
    intro hnil
    have hlen := congrArg List.length hnil
    rw [List.length_take, List.length_drop, List.length_nil] at hlen
    have hbuf : bufSize = 131072 := rfl
    omega
  have hblock : s.1.readBlock h name s.2 = (.ok (some ⟨s.1.id, s.1.fileNum,
      (s.1.packBlock h name ((content.drop n).take bufSize)).1,
      (s.1.packBlock h name ((content.drop n).take bufSize)).2⟩), { s.1 with
        dataStream := some (.fileStream f e)
        finishedSize := s.1.finishedSize + ((content.drop n).take bufSize).length
        transferred := s.1.transferred +
          (s.1.packBlock h name ((content.drop n).take bufSize)).1.length }, d') := by
    unfold readBlock
    rw [hstream]
    dsimp only
    rw [hfill]
    dsimp only
    rw [if_neg (by simpa using hne)]
  have hdec := decoded_packBlock hzstd name s.1 ((content.drop n).take bufSize) s.1.id s.1.fileNum
  refine ⟨_, _, hread.trans hblock, rfl, rfl, hdec, ?_, ?_, rfl, rfl⟩
  · rintro ⟨hdata, hplain⟩
    dsimp only at hdata hplain
    rw [hdata, hplain] at hdec
    exact hne hdec.symm
  · rw [hdec]
    refine ⟨hs.confirmed, hs.source, hs.lt, f, e, rfl, ?_, ?_, ?_⟩
    · rw [hhandle]
      exact hreadable
    · rw [hhandle]
    · rw [hhandle, hsame]
      exact hcont

/-- At the end of the file `read` says so. -/
theorem read_end (hfs : h.fs = Disk.fileSystem key) {content : Bytes} {n : Nat}
    (hs : Reading content n s) (hle : content.length ≤ n) :
    ∃ s', s.1.read h s.2 = (.ok (some ⟨s.1.id, s.1.fileNum, [], false⟩), s') := by
  obtain ⟨name, f, e, d', hstream, hread, hfill, _, _⟩ := read_eq_readBlock hfs hs
  obtain ⟨p, hp⟩ := hs.source
  rw [List.drop_eq_nil_of_le hle, List.take_nil] at hfill
  refine ⟨(s.1.leaveFile, d'), hread.trans ?_⟩
  unfold readBlock
  rw [hstream]
  dsimp only
  rw [hfill]
  dsimp only
  rw [if_pos List.isEmpty_nil, hp]

/-- A sender whose stream stands at `n` sends the file from there on. -/
theorem sendFile_honest (hfs : h.fs = Disk.fileSystem key) {h' : JobHost (Disk κ) Nat}
    (hzstd : ∀ data, h'.decompress (h.compress data) = data) {content : Bytes} (fuel : Nat) :
    ∀ {n : Nat} {s : TransferJob Nat × Disk κ}, Reading content n s →
      content.length - n < fuel →
      sendFile h fuel s ≠ [] ∧
        (∀ b ∈ sendFile h fuel s, b.id = s.1.id ∧ b.fileNum = s.1.fileNum) ∧
        bytesOf h' (sendFile h fuel s) = content.drop n := by
  induction fuel with
  | zero => exact fun _ hfuel => absurd hfuel (Nat.not_lt_zero _)
  | succ fuel ih =>
    intro n s hs hfuel
    unfold sendFile
    by_cases hlt : n < content.length
    · obtain ⟨b, s', hread, hid, hnum, hdec, hplain, hs', hid', hnum'⟩ :=
        read_reading hfs hzstd hs hlt
      have hlen : 0 < (decoded h' b).length := by
        rw [hdec, List.length_take, List.length_drop]
        have hbuf : bufSize = 131072 := rfl
        omega
      obtain ⟨_, hall, hbytes⟩ := ih hs' (by omega)
      rw [hread]
      dsimp only
      rw [if_neg hplain]
      refine ⟨by simp, ?_, ?_⟩
      · intro b' hb'
        rcases List.mem_cons.mp hb' with rfl | hmem
        · exact ⟨hid, hnum⟩
        · rw [← hid', ← hnum']
          exact hall b' hmem
      · show decoded h' b ++ bytesOf h' (sendFile h fuel s') = content.drop n
        rw [hbytes, ← List.drop_drop, hdec]
        exact List.prefix_iff_eq_append.mp (List.take_prefix _ _)
    · obtain ⟨s', hread⟩ := read_end hfs hs (Nat.le_of_not_lt hlt)
      rw [hread]
      dsimp only
      rw [if_pos ⟨rfl, rfl⟩, List.drop_eq_nil_of_le (Nat.le_of_not_lt hlt)]
      refine ⟨by simp, ?_, rfl⟩
      intro b' hb'
      rw [List.mem_singleton.mp hb']
      exact ⟨rfl, rfl⟩

/-- A sender that waits at a file seeks to the offset of the answer, if its own directory holds no
    download of the file. -/
theorem confirm_reading (hfs : h.fs = Disk.fileSystem key) (hgeneric : s.1.jobType = .generic)
    (hsource : s.1.dataSource = .filePath p)
    (hentry : s.1.files[fileIndex s.1.fileNum]? = some entry)
    (hvalid : joinValidatedPath h p entry.name s.2 = .ok (join h p entry.name)) {content : Bytes}
    (hcont : s.2.content (key (join h p entry.name)) = some content)
    (hopen : ∃ f e, s.1.dataStream = some (.fileStream f e) ∧
      (s.2.handles f).writable = false ∧ (s.2.handles f).pos = 0 ∧
      s.2.contents (s.2.handles f).inode = content)
    (hpair : s.2.names (key (downloadPath (join h p entry.name))) = none ∨
      s.2.names (key (digestPath (join h p entry.name))) = none) (n : Nat) :
    ∃ s', s.1.confirm h ⟨s.1.id, s.1.fileNum, some (.offsetBlk n)⟩ s.2 = some s' ∧
      Reading content n s' := by
  have hlt : fileIndex s.1.fileNum < s.1.files.length := (List.getElem?_eq_some_iff.mp hentry).1
  unfold confirm
  rw [if_neg (by simp)]
  dsimp only
  by_cases hn : 0 < n
  · obtain ⟨i, hi, hci⟩ : ∃ i, s.2.names (key (join h p entry.name)) = some (.file i) ∧
        s.2.contents i = content := by
      unfold Disk.content at hcont
      split at hcont
      · rename_i i hi
        exact ⟨i, hi, Option.some.inj hcont⟩
      · cases hcont
    have hres : (s.1.setFileConfirmed true).resolveEntryPath h p entry.name s.2 =
        some (join h p entry.name) := by
      have hgen : (s.1.setFileConfirmed true).jobType = .generic := hgeneric
      unfold resolveEntryPath
      rw [hgen]
      dsimp only
      rw [hvalid]
      rfl
    have hopenAt : openAtOffset h (join h p entry.name) s.2 =
        (.ok s.2.nextHandle, (s.2.newHandle i false).2) := by
      have hno : ¬ ((s.2.names (key (downloadPath (join h p entry.name)))).isSome &&
          (s.2.names (key (digestPath (join h p entry.name)))).isSome) = true := by
        rcases hpair with hnone | hnone <;> simp [hnone]
      have hopenRead : (Disk.fileSystem key).openRead (join h p entry.name) s.2 =
          (.ok s.2.nextHandle, (s.2.newHandle i false).2) := by
        simp [Disk.fileSystem, Disk.openOld, Disk.lookup, hi, Disk.newHandle]
      unfold openAtOffset
      rw [hfs, Disk.pathExists_eq, Disk.pathExists_eq, Disk.pathExists_eq, if_neg hno, hi,
        if_pos Option.isSome_some, hopenRead]
    have hseek : h.fs.seek s.2.nextHandle n (s.2.newHandle i false).2 =
        (.ok (), (s.2.newHandle i false).2.seek s.2.nextHandle n) := by
      rw [hfs]
      rfl
    have hsrc : (s.1.setFileConfirmed true).dataSource = .filePath p := hsource
    have hfiles : (s.1.setFileConfirmed true).files[fileIndex s.1.fileNum]? = some entry := hentry
    rw [if_pos hn]
    unfold setStreamOffset
    rw [hsrc]
    dsimp only
    rw [hfiles]
    dsimp only
    rw [hres]
    dsimp only
    rw [hopenAt]
    dsimp only
    rw [hseek]
    refine ⟨_, rfl, rfl, ⟨p, rfl⟩, hlt, _, _, rfl, ?_⟩
    simp [Disk.newHandle, hci]
  · rw [if_neg hn]
    obtain rfl : n = 0 := by omega
    exact ⟨_, rfl, rfl, ⟨p, hsource⟩, hlt, hopen⟩

/-- The blocks that the sender reads once it has called `confirm` with an offset. -/
def sentFrom (h : JobHost (Disk κ) Nat) (content : Bytes) (s : TransferJob Nat × Disk κ) (n : Nat) :
    List FileTransferBlock :=
  ((s.1.confirm h ⟨s.1.id, s.1.fileNum, some (.offsetBlk n)⟩ s.2).map
    (sendFile h (content.length + 1))).getD []

/-- Whatever offset the answer names, the sender of a file transfer that waits at a file of a valid
    name, with its stream at the start, sends the file from there on, block by block: what it
    sends is an honest offer. -/
theorem honest_of_sender (hfs : h.fs = Disk.fileSystem key) {h' : JobHost (Disk κ) Nat}
    (hzstd : ∀ data, h'.decompress (h.compress data) = data) (hgeneric : s.1.jobType = .generic)
    (hsource : s.1.dataSource = .filePath p)
    (hentry : s.1.files[fileIndex s.1.fileNum]? = some entry)
    (hvalid : joinValidatedPath h p entry.name s.2 = .ok (join h p entry.name))
    (hcont : s.2.content (key (join h p entry.name)) = some x.content)
    (hopen : ∃ f e, s.1.dataStream = some (.fileStream f e) ∧
      (s.2.handles f).writable = false ∧ (s.2.handles f).pos = 0 ∧
      s.2.contents (s.2.handles f).inode = x.content)
    (hpair : s.2.names (key (downloadPath (join h p entry.name))) = none ∨
      s.2.names (key (digestPath (join h p entry.name))) = none)
    (hnum : x.digest.fileNum = s.1.fileNum) :
    Honest h' s.1.id { x with blocks := sentFrom h x.content s } := by
  intro n
  obtain ⟨s', hconf, hreading⟩ :=
    confirm_reading hfs hgeneric hsource hentry hvalid hcont hopen hpair n
  have hsame : SameTask s.1 s'.1 := confirm_sameTask hconf
  have hfile : s'.1.fileNum = s.1.fileNum := by
    refine (Sender.confirm_cases hconf).2.resolve_right ?_
    rintro ⟨_, _, hskip⟩
    cases hskip
  obtain ⟨hne, hall, hbytes⟩ := sendFile_honest hfs hzstd (x.content.length + 1) hreading
    (by omega)
  dsimp only
  rw [sentFrom, hconf, hnum, ← hfile, ← hsame.id]
  exact ⟨hne, hall, hbytes⟩

/-- A sender with one file of three bytes, which it has opened. -/
def sending : TransferJob Nat × Disk String :=
  ({ (newWrite 1 .generic (.filePath "/d") 0 true : TransferJob Nat) with
      files := [⟨"a", 0, 0⟩]
      dataStream := some (.fileStream 0 0) },
    (((Disk.empty []).withFile "/d/a" [1, 2, 3]).newHandle 0 false).2)

theorem honest_of_sender_three :
    Honest plainHost 1 { offer 0 [1, 2, 3] with blocks := sentFrom plainHost [1, 2, 3] sending } ∧
      (sentFrom plainHost [1, 2, 3] sending 2).map (·.data) = [[3], []] := by
  have hset : (newWrite 1 .generic (.filePath "/d") 0 true).setFiles plainHost
      [⟨"a", 0, 0⟩] sending.2 = (.ok (), { sending.1 with dataStream := none }) := by decide +kernel
  have hjoin : join plainHost "/d" "a" = "/d/a" := by decide +kernel
  have hentry : sending.1.files[fileIndex sending.1.fileNum]? = some ⟨"a", 0, 0⟩ := by
    decide +kernel
  refine ⟨honest_of_sender (p := "/d") (x := offer 0 [1, 2, 3]) rfl
    (fun _ => congrArg (Option.getD · []) (if_pos rfl))
    rfl rfl hentry (joinValidatedPath_of_setFiles rfl rfl hset List.mem_cons_self _) ?_
    ⟨0, 0, rfl, by decide +kernel, by decide +kernel, by decide +kernel⟩ (.inl ?_) rfl,
    by decide +kernel⟩
  · rw [hjoin]
    decide +kernel
  · rw [hjoin]
    decide +kernel

end TransferJob

end LuodaRemote
