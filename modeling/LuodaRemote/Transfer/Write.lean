/-
  Where the bytes of a block go.

  `write` sets `file_num` before the steps that open the target of a block and replaces the
  stream after them. When one of these steps fails, the job is left with the number of the
  new entry and the stream of the old one, and the next block for the new entry goes to the
  old file. `lands_along`: over every run of blocks and whatever the file system does, each block
  that is accepted goes to the file of its entry, as long as no block is delivered for an entry
  whose open has failed while an older file was open, until a target has been opened again; and
  where writing does not fail, it is precisely then.
-/
import LuodaRemote.Lib.Disk
import LuodaRemote.Lib.Run
import LuodaRemote.Transfer.Job

namespace LuodaRemote
open Lib

namespace TransferJob

variable {σ φ : Type} (h : JobHost σ φ) {job : TransferJob φ} (st : σ)

/-- The stream of a job over a path is a file, if there is one. -/
def OnFile (p : String) (job : TransferJob φ) : Prop :=
  job.dataSource = .filePath p ∧
    ∀ s, job.dataStream = some s → ∃ f e, s = .fileStream f e

/-- One block for the job, as its owner delivers it: the job is kept whatever comes of it. -/
def deliver (h : JobHost σ φ) (s : TransferJob φ × σ) (block : FileTransferBlock) :
    TransferJob φ × σ :=
  (s.1.write h block s.2).2

/-- A block that is accepted is written to the file that was opened for its entry. -/
def Lands (h : JobHost σ φ) (s : TransferJob φ × σ) (block : FileTransferBlock) : Prop :=
  (s.1.write h block s.2).1 = .ok () →
    ∃ f st, (deliver h s block).1.dataStream = some (.fileStream f (fileIndex block.fileNum)) ∧
      h.fs.writeAll f (decoded h block) st = (.ok (), (deliver h s block).2)

/-- What comes of opening the target of a block; nothing, if the block needs no new target or is
    refused before. -/
def opening (h : JobHost σ φ) (s : TransferJob φ × σ) (block : FileTransferBlock) :
    Option (Except String Unit) :=
  match s.1.dataSource, s.1.files[fileIndex block.fileNum]? with
  | .filePath p, some entry =>
    if block.id = s.1.id ∧
        (fileIndex block.fileNum ≠ fileIndex s.1.fileNum ∨ s.1.dataStream.isNone) then
      match s.1.syncStream h (s.1.modifyTime h s.2) with
      | (.ok (), st) => some ({ s.1 with fileNum := block.fileNum }.openEntry h p entry st).1
      | (.error _, _) => none
    else none
  | _, _ => none

/-- A job, and the entry it stood at when the open of a target failed with a file still open. A
    target that is opened makes up for it. -/
def deliverNoting (h : JobHost σ φ) (p : (TransferJob φ × σ) × Option Nat)
    (block : FileTransferBlock) : (TransferJob φ × σ) × Option Nat :=
  (deliver h p.1 block, match opening h p.1 block with
    | none => p.2
    | some (.ok ()) => none
    | some (.error _) =>
      if p.1.1.dataStream.isSome then p.2.or (some (fileIndex p.1.1.fileNum)) else none)

/-- After an open failed with a file still open, the block is not one for the entry the job has
    moved on to. -/
def Kept (p : (TransferJob φ × σ) × Option Nat) (block : FileTransferBlock) : Prop :=
  ∀ left, p.2 = some left → block.id = p.1.1.id →
    fileIndex block.fileNum = fileIndex p.1.1.fileNum → fileIndex block.fileNum = left

/-! ## Opening a target -/

/-- Opening a target leaves the job alone, or gives it the file of the entry. -/
theorem openEntry_cases (p : String) (entry : FileEntry) (job : TransferJob φ) (st : σ) :
    (∃ e, (job.openEntry h p entry st).1 = .error e ∧ (job.openEntry h p entry st).2.1 = job) ∨
    ∃ f, (job.openEntry h p entry st).1 = .ok () ∧ (job.openEntry h p entry st).2.1 =
      { job with dataStream := some (.fileStream f (fileIndex job.fileNum)) } := by
  unfold openEntry
  split
  · exact .inl ⟨_, rfl, rfl⟩
  · split
    · exact .inl ⟨_, rfl, rfl⟩
    · split
      · exact .inl ⟨_, rfl, rfl⟩
      · exact .inr ⟨_, rfl, rfl⟩

/-- The block is one more for the stream that is open. -/
def Continues (block : FileTransferBlock) (job : TransferJob φ) : Prop :=
  block.id = job.id ∧ fileIndex block.fileNum < job.files.length ∧
    fileIndex block.fileNum = fileIndex job.fileNum ∧ job.dataStream.isSome

theorem openTarget_of_continues (p : String) {block : FileTransferBlock}
    (hc : Continues block job) : job.openTarget h p block st = (.ok (), job, st) := by
  obtain ⟨_, hlt, heq, hsome⟩ := hc
  unfold openTarget
  rw [List.getElem?_eq_getElem hlt]
  dsimp only
  rw [if_neg (by simp [heq, Option.ne_none_iff_isSome.mpr hsome])]

theorem opening_of_continues {block : FileTransferBlock} (hc : Continues block job) :
    opening h (job, st) block = none := by
  obtain ⟨_, _, heq, hsome⟩ := hc
  unfold opening
  split
  · exact if_neg fun hnew => hnew.2.elim (fun hne => hne heq)
      fun hnone => by rw [Option.isNone_iff_eq_none.mp hnone] at hsome; cases hsome
  · rfl

/-- A block that needs a new target is refused with the job as it was, or the open fails and the
    number has moved on, or its entry is open afterwards. -/
theorem openTarget_cases {p : String} {block : FileTransferBlock}
    (hp : job.dataSource = .filePath p) (hid : block.id = job.id) (hc : ¬ Continues block job) :
    (opening h (job, st) block = none ∧ (∃ e, (job.openTarget h p block st).1 = .error e) ∧
      (job.openTarget h p block st).2.1 = job) ∨
    (fileIndex block.fileNum < job.files.length ∧ ∃ e,
      opening h (job, st) block = some (.error e) ∧ (job.openTarget h p block st).1 = .error e ∧
        (job.openTarget h p block st).2.1 = { job with fileNum := block.fileNum }) ∨
    ∃ f, opening h (job, st) block = some (.ok ()) ∧ (job.openTarget h p block st).1 = .ok () ∧
      (job.openTarget h p block st).2.1 = { job with
        fileNum := block.fileNum
        dataStream := some (.fileStream f (fileIndex block.fileNum)) } := by
  unfold opening openTarget
  dsimp only
  cases hentry : job.files[fileIndex block.fileNum]? with
  | none =>
    refine .inl ⟨?_, ⟨_, rfl⟩, rfl⟩
    split
    · rename_i hsome
      cases hsome
    · rfl
  | some entry =>
    have hlt : fileIndex block.fileNum < job.files.length :=
      (List.getElem?_eq_some_iff.mp hentry).1
    have hnew : fileIndex block.fileNum ≠ fileIndex job.fileNum ∨ job.dataStream.isNone := by
      by_contra hold
      rw [not_or, not_not, Bool.not_eq_true, Option.isNone_eq_false_iff] at hold
      exact hc ⟨hid, hlt, hold.1, hold.2⟩
    split
    · rename_i hp' hentry'
      cases hp.symm.trans hp'
      cases hentry'
      dsimp only
      rw [if_pos ⟨hid, hnew⟩, if_pos hnew]
      rcases job.syncStream h (job.modifyTime h st) with ⟨⟨e⟩ | ⟨⟨⟩⟩, st'⟩
      · exact .inl ⟨rfl, ⟨e, rfl⟩, rfl⟩
      · rcases openEntry_cases h p entry { job with fileNum := block.fileNum } st' with
          ⟨e, he, hj⟩ | ⟨f, hok, hj⟩
        · exact .inr (.inl ⟨hlt, e, congrArg some he, he, hj⟩)
        · exact .inr (.inr ⟨f, congrArg some hok, hok, hj⟩)
    · rename_i hno
      exact absurd rfl (hno p entry hp)

/-! ## Writing to the stream -/

/-- On a file, `writeData` is one call of `write_all`. -/
theorem writeData_fileStream {f : φ} {e : Nat} (block : FileTransferBlock)
    (hs : job.dataStream = some (.fileStream f e)) :
    (job.writeData h block st).1 = (h.fs.writeAll f (decoded h block) st).1 ∧
      (job.writeData h block st).2.2 = (h.fs.writeAll f (decoded h block) st).2 ∧
      (job.writeData h block st).2.1.dataStream = job.dataStream ∧
      (job.writeData h block st).2.1.fileNum = job.fileNum ∧
      (job.writeData h block st).2.1.files = job.files ∧
      (job.writeData h block st).2.1.dataSource = job.dataSource := by
  unfold writeData
  rw [hs]
  dsimp only
  rcases hw : h.fs.writeAll f (decoded h block) st with ⟨r, st'⟩
  cases r <;> simp [hs]

/-- `write` for a block whose target could not be opened. -/
theorem write_of_open_error {p e : String} (block : FileTransferBlock)
    (hp : job.dataSource = .filePath p) (hid : block.id = job.id)
    (he : (job.openTarget h p block st).1 = .error e) :
    job.write h block st = (.error e, (job.openTarget h p block st).2) := by
  unfold write
  rw [if_neg (by simp [hid]), hp]
  dsimp only
  rcases ho : job.openTarget h p block st with ⟨r, job', st'⟩
  rw [ho] at he
  subst he
  rfl

/-- `write` for a block whose target is open. -/
theorem write_of_open {p : String} (block : FileTransferBlock)
    (hp : job.dataSource = .filePath p) (hid : block.id = job.id)
    (ho : (job.openTarget h p block st).1 = .ok ()) :
    job.write h block st = (job.openTarget h p block st).2.1.writeData h block
      (job.openTarget h p block st).2.2 := by
  unfold write
  rw [if_neg (by simp [hid]), hp]
  dsimp only
  rcases ht : job.openTarget h p block st with ⟨r, job', st'⟩
  rw [ht] at ho
  subst ho
  rfl

theorem write_wrong_id (block : FileTransferBlock) (hid : block.id ≠ job.id) :
    job.write h block st = (.error "Wrong id", job, st) := by
  unfold write
  rw [if_pos hid]

/-! ## One block -/

theorem write_of_continues {p : String} {block : FileTransferBlock} (hj : OnFile p job)
    (hc : Continues block job) :
    job.write h block st = job.writeData h block st := by
  have hopen := openTarget_of_continues h st p hc
  have hw := write_of_open h st block hj.1 hc.1 (by rw [hopen])
  rw [hopen] at hw
  exact hw

/-- A block that does not go to the open stream is refused with the job as it was, or fails to
    open its target, or goes to a new one. -/
theorem write_cases {p : String} {block : FileTransferBlock} (hj : OnFile p job)
    (hc : ¬ Continues block job) :
    (opening h (job, st) block = none ∧ (∃ e, (job.write h block st).1 = .error e) ∧
      (deliver h (job, st) block).1 = job) ∨
    (fileIndex block.fileNum < job.files.length ∧ ∃ e,
      opening h (job, st) block = some (.error e) ∧ (job.write h block st).1 = .error e ∧
        (deliver h (job, st) block).1 = { job with fileNum := block.fileNum }) ∨
    ∃ f job' st', opening h (job, st) block = some (.ok ()) ∧
      job.write h block st = writeData h block job' st' ∧
      job'.dataStream = some (.fileStream f (fileIndex block.fileNum)) ∧
      job'.fileNum = block.fileNum ∧ job'.dataSource = job.dataSource := by
  unfold deliver
  by_cases hid : block.id = job.id
  · rcases openTarget_cases h st hj.1 hid hc with
      ⟨hno, ⟨e, he⟩, hjob⟩ | ⟨hlt, e, hno, he, hjob⟩ | ⟨f, hyes, hok, hjob⟩
    · have hw := write_of_open_error h st block hj.1 hid he
      exact .inl ⟨hno, ⟨e, by rw [hw]⟩, by rw [hw]; exact hjob⟩
    · have hw := write_of_open_error h st block hj.1 hid he
      exact .inr (.inl ⟨hlt, e, hno, by rw [hw], by rw [hw]; exact hjob⟩)
    · have hw := write_of_open h st block hj.1 hid hok
      refine .inr (.inr ⟨f, _, _, hyes, hw, ?_, ?_, ?_⟩)
      · rw [hjob]
      · rw [hjob]
      · rw [hjob]
  · have hw := write_wrong_id h st block hid
    have hno : opening h (job, st) block = none := by
      unfold opening
      split
      · exact if_neg fun hnew => hid hnew.1
      · rfl
    exact .inl ⟨hno, ⟨"Wrong id", by rw [hw]⟩, by rw [hw]⟩

/-! ## Any run of blocks -/

/-- The open file is that of the entry the job stands at, or of the one that was noted when the
    open of a target failed. -/
structure Noted (p : String) (s : (TransferJob φ × σ) × Option Nat) : Prop where
  onFile : OnFile p s.1.1
  current : s.2 = none → ∀ f e, s.1.1.dataStream = some (.fileStream f e) →
    e = fileIndex s.1.1.fileNum
  left : ∀ e, s.2 = some e → fileIndex s.1.1.fileNum < s.1.1.files.length ∧
    ∃ f, s.1.1.dataStream = some (.fileStream f e)

theorem noted_of_new {p : String} (hp : job.dataSource = .filePath p)
    (hs : job.dataStream = none) : Noted p ((job, st), none) := by
  refine ⟨⟨hp, fun s hs' => ?_⟩, fun _ f e hs' => ?_, fun e he => ?_⟩
  · rw [hs] at hs'
    cases hs'
  · rw [show job.dataStream = _ from hs'] at hs
    cases hs
  · cases he

/-- Only a failed open leaves the job with the file of another entry. -/
theorem noted_step {p : String} {s : (TransferJob φ × σ) × Option Nat} (hs : Noted p s)
    (block : FileTransferBlock) : Noted p (deliverNoting h s block) := by
  obtain ⟨⟨job, st⟩, left⟩ := s
  unfold deliverNoting
  by_cases hc : Continues block job
  · -- one more block for the open file: the stream and the number stay
    obtain ⟨stream, hstream⟩ := Option.isSome_iff_exists.mp hc.2.2.2
    obtain ⟨f, e, rfl⟩ := hs.onFile.2 stream hstream
    obtain ⟨_, _, hsame, hnum, hfiles, hsource⟩ := writeData_fileStream h st block hstream
    have hjob : (deliver h (job, st) block).1 = (job.writeData h block st).2.1 := by
      unfold deliver
      rw [write_of_continues h st hs.onFile hc]
    dsimp only
    rw [opening_of_continues h st hc]
    refine ⟨?_, ?_, ?_⟩
    · unfold OnFile
      rw [hjob, hsame, hsource]
      exact hs.onFile
    · rw [hjob, hsame, hnum]
      exact hs.current
    · rw [hjob, hsame, hnum, hfiles]
      exact hs.left
  · rcases write_cases h st hs.onFile hc with
      ⟨hno, _, hjob⟩ | ⟨hlt, e, hno, _, hjob⟩ | ⟨f, job', st', hyes, hw, hnew, hnum, hsource⟩
    · dsimp only
      rw [hno]
      refine ⟨?_, ?_, ?_⟩
      · rw [hjob]
        exact hs.onFile
      · rw [hjob]
        exact hs.current
      · rw [hjob]
        exact hs.left
    · -- the open fails: what file is still open was noted before, or is that of the old entry
      dsimp only
      rw [hno]
      dsimp only
      have honfile : OnFile p (deliver h (job, st) block).1 := by
        rw [hjob]
        exact hs.onFile
      have hfile : (deliver h (job, st) block).1.dataStream = job.dataStream := by rw [hjob]
      have hcur : fileIndex (deliver h (job, st) block).1.fileNum <
          (deliver h (job, st) block).1.files.length := by
        rw [hjob]
        exact hlt
      cases hstream : job.dataStream with
      | none =>
        rw [hstream] at hfile
        refine ⟨honfile, fun _ f e hopen => ?_, fun e he => (nomatch he)⟩
        rw [show (deliver h (job, st) block).1.dataStream = _ from hopen] at hfile
        cases hfile
      | some stream =>
        obtain ⟨f, e', rfl⟩ := hs.onFile.2 stream hstream
        rw [hstream] at hfile
        cases left with
        | none =>
          have hold := hs.current rfl f e' hstream
          refine ⟨honfile, fun hnone => (nomatch hnone), fun e he => ?_⟩
          cases he
          exact ⟨hcur, f, by rw [hfile, hold]⟩
        | some left =>
          obtain ⟨_, f', hopen⟩ := hs.left left rfl
          refine ⟨honfile, fun hnone => (nomatch hnone), fun e he => ?_⟩
          cases he
          exact ⟨hcur, f', by rw [hfile, ← hstream]; exact hopen⟩
    · obtain ⟨_, _, hsame, hnum', _, hsource'⟩ := writeData_fileStream h st' block hnew
      have hjob : (deliver h (job, st) block).1 = (job'.writeData h block st').2.1 := by
        unfold deliver
        rw [hw]
      dsimp only
      rw [hyes]
      dsimp only
      refine ⟨?_, fun _ f' e hopen => ?_, fun e he => (nomatch he)⟩
      · unfold OnFile
        rw [hjob, hsame, hsource', hnew, hsource]
        exact ⟨hs.onFile.1, fun s hs' => ⟨f, _, (Option.some.inj hs').symm⟩⟩
      · have hopen : (deliver h (job, st) block).1.dataStream = some (.fileStream f' e) := hopen
        rw [hjob, hsame, hnew] at hopen
        show e = fileIndex (deliver h (job, st) block).1.fileNum
        rw [hjob, hnum', hnum]
        cases hopen
        rfl

/-- A block lands where it belongs unless it is one more for an entry whose open has failed. -/
theorem lands_of_kept {p : String} {s : (TransferJob φ × σ) × Option Nat}
    {block : FileTransferBlock} (hs : Noted p s) (hkept : Kept s block) :
    Lands h s.1 block := by
  obtain ⟨⟨job, st⟩, left⟩ := s
  unfold Lands deliver
  dsimp only
  intro hok
  by_cases hc : Continues block job
  · obtain ⟨stream, hstream⟩ := Option.isSome_iff_exists.mp hc.2.2.2
    obtain ⟨f, e, rfl⟩ := hs.onFile.2 stream hstream
    obtain ⟨hr, hst, hsame, _⟩ := writeData_fileStream h st block hstream
    rw [write_of_continues h st hs.onFile hc] at hok ⊢
    rw [hr] at hok
    rw [hst, hsame, hstream]
    have he : e = fileIndex block.fileNum := by
      cases left with
      | none => exact (hs.current rfl f e hstream).trans hc.2.2.1.symm
      | some left =>
        obtain ⟨_, f', hopen⟩ := hs.left left rfl
        cases hstream.symm.trans hopen
        exact (hkept e rfl hc.1 hc.2.2.1).symm
    exact ⟨f, st, by rw [he], Prod.ext hok rfl⟩
  · rcases write_cases h st hs.onFile hc with
      ⟨_, ⟨e, he⟩, _⟩ | ⟨_, e, _, he, _⟩ | ⟨f, job', st', _, hw, hnew, _, _⟩
    · rw [he] at hok
      cases hok
    · rw [he] at hok
      cases hok
    · obtain ⟨hr, hst, hsame, _⟩ := writeData_fileStream h st' block hnew
      rw [hw, hr] at hok
      rw [hw, hst, hsame, hnew]
      exact ⟨f, st', rfl, Prod.ext hok rfl⟩

/-- Where writing does not fail, a block for an entry whose open has failed goes astray. -/
theorem kept_of_lands {p : String} {s : (TransferJob φ × σ) × Option Nat}
    {block : FileTransferBlock} (hwrite : ∀ f bs st, (h.fs.writeAll f bs st).1 = .ok ())
    (hs : Noted p s) (hland : Lands h s.1 block) : Kept s block := by
  obtain ⟨⟨job, st⟩, left⟩ := s
  intro e he hid heq
  cases he
  obtain ⟨hlt, f, hopen⟩ := hs.left e rfl
  have hopen : job.dataStream = some (.fileStream f e) := hopen
  have hc : Continues block job := ⟨hid, heq ▸ hlt, heq, by rw [hopen]; rfl⟩
  obtain ⟨hr, _, hsame, _⟩ := writeData_fileStream h st block hopen
  unfold Lands deliver at hland
  dsimp only at hland
  rw [write_of_continues h st hs.onFile hc, hr, hsame, hopen] at hland
  obtain ⟨f', _, hfile, _⟩ := hland (hwrite _ _ _)
  cases hfile
  rfl

theorem kept_of_none {p : (TransferJob φ × σ) × Option Nat} {block : FileTransferBlock}
    (hp : p.2 = none) : Kept p block := by
  intro e he
  rw [hp] at he
  cases he

theorem along_deliverNoting {C : TransferJob φ × σ → FileTransferBlock → Prop}
    (s : TransferJob φ × σ) (left : Option Nat) (blocks : List FileTransferBlock) :
    Along (deliverNoting h) (fun p block => C p.1 block) (s, left) blocks ↔
      Along (deliver h) C s blocks := by
  induction blocks generalizing s left with
  | nil => exact Iff.rfl
  | cons block blocks ih => exact and_congr Iff.rfl (ih _ _)

/-- Whatever blocks arrive and whatever calls of the file system fail: as long as no block comes
    for an entry whose open failed with another file still open, until a target is opened, every
    block that is accepted goes to the file opened for its entry. If writing does not fail, it is
    precisely then. -/
theorem lands_along (h : JobHost σ φ) (job : TransferJob φ) (st : σ) {p : String}
    (hp : job.dataSource = .filePath p) (hs : job.dataStream = none)
    (blocks : List FileTransferBlock) :
    (Along (deliverNoting h) Kept ((job, st), none) blocks →
      Along (deliver h) (Lands h) (job, st) blocks) ∧
    ((∀ f bs st, (h.fs.writeAll f bs st).1 = .ok ()) →
      Along (deliver h) (Lands h) (job, st) blocks →
      Along (deliverNoting h) Kept ((job, st), none) blocks) := by
  have hall : Always (deliverNoting h) (Noted p) ((job, st), none) blocks :=
    always_of_step (P := Noted p) (fun s block hs => noted_step h hs block)
      (noted_of_new st hp hs) blocks
  rw [← along_deliverNoting h (job, st) none blocks]
  constructor
  · refine Always.along (P := Noted p) ?_ hall
    exact fun s block hs hkept => lands_of_kept h hs hkept
  · intro hwrite
    refine Always.along (P := Noted p) ?_ hall
    exact fun s block hs hland => kept_of_lands h hwrite hs hland

/-- Two files to be written to `/d`. -/
def twoFileJob : TransferJob Nat :=
  { newWrite 1 .generic (.filePath "/d") 0 false with files := [⟨"a", 0, 0⟩, ⟨"b", 0, 0⟩] }

/-- One file more. -/
def threeFileJob : TransferJob Nat :=
  { twoFileJob with files := twoFileJob.files ++ [⟨"c", 0, 0⟩] }

/-- `b.download` is a directory, so the file for `b` cannot be created; the block after it is for
    the next file. -/
theorem lands_along_next_file :
    Along (deliver plainHost) (Lands plainHost) (threeFileJob, Disk.empty ["/d/b.download"])
      [⟨1, 0, [1], false⟩, ⟨1, 1, [2], false⟩, ⟨1, 2, [3], false⟩, ⟨1, 2, [4], false⟩] := by
  refine (lands_along plainHost threeFileJob (Disk.empty ["/d/b.download"]) rfl rfl _).1
    ⟨?_, ?_, ?_, ?_, trivial⟩
  · exact kept_of_none rfl
  · exact kept_of_none (by decide +kernel)
  · intro e _ _ heq
    exact absurd heq (by decide +kernel)
  · exact kept_of_none (by decide +kernel)

/-- A second block for `b` instead is accepted and goes to the file of `a`. -/
theorem stranded_block_misdirected :
    let start : TransferJob Nat × Disk String := (twoFileJob, Disk.empty ["/d/b.download"])
    let blocks : List FileTransferBlock :=
      [⟨1, 0, [1], false⟩, ⟨1, 1, [2], false⟩, ⟨1, 1, [3], false⟩]
    (run (deliver plainHost) start blocks).2.content "/d/a" = some [1, 3] ∧
      ¬ Along (deliver plainHost) (Lands plainHost) start blocks := by
  refine ⟨by decide +kernel, ?_⟩
  rintro ⟨_, _, hland, _⟩
  obtain ⟨f, st, hs, _⟩ := hland (by decide +kernel)
  have hopen : (run (deliver plainHost) (twoFileJob, Disk.empty ["/d/b.download"])
      [⟨1, 0, [1], false⟩, ⟨1, 1, [2], false⟩, ⟨1, 1, [3], false⟩]).1.dataStream =
        some (.fileStream 0 0) := by decide +kernel
  have hentry : (some (.fileStream 0 0) : Option (DataStream Nat)) = some (.fileStream f 1) :=
    hopen.symm.trans hs
  cases hentry

end TransferJob

end LuodaRemote
