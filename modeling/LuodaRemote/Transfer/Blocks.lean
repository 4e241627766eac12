/-
  The blocks of a read job: what `TransferJob::read` puts into them, and what the receiving side
  takes out again.

  `compress` signals a failure by an empty output, and `read` takes the output if it is shorter
  than the input. So a failure gives an empty block that is marked as compressed, which stands for
  no bytes (`block_decodes_iff`).

  As long as nothing fails, a job without overwrite detection sends every file as blocks that are
  not empty and a last one that is (`blocks_complete`). The reads of the file may bring what they
  like: `fillBuf` fills the buffer all the same. A file has a number of 32 bits with a sign.
-/
import LuodaRemote.Transfer.Read

namespace LuodaRemote
open Lib

namespace TransferJob

/-! ## One block -/

section Packing

variable {σ φ σ' φ' : Type} {h : JobHost σ φ} {job job' : TransferJob φ} {st st' : σ}

/-- What `read` fills its buffer with. -/
def bytesRead (h : JobHost σ φ) (job : TransferJob φ) (st : σ) : Bytes :=
  match job.dataStream with
  | none => []
  | some stream => (readStream h stream st).1.toOption.getD []

/-- The name that `read` asks `is_compressed_file` about. -/
def blockName (h : JobHost σ φ) (job : TransferJob φ) (p : String) (entry : FileEntry) : String :=
  if job.files.length = 1 ∧ entry.name = "" then pathFileName h.windows p else entry.name

/-- The current file is one that `read` compresses. -/
def Compresses (h : JobHost σ φ) (job : TransferJob φ) : Prop :=
  ∃ p entry, job.dataSource = .filePath p ∧ job.files[fileIndex job.fileNum]? = some entry ∧
    isCompressedFile (job.blockName h p entry) = false

theorem packBlock_of_not_compresses {p name : String} {entry : FileEntry}
    (hsource : job.dataSource = .filePath p)
    (hentry : job.files[fileIndex job.fileNum]? = some entry)
    (hname : name = job.blockName h p entry) (hno : ¬ job.Compresses h) (buf : Bytes) :
    job.packBlock h name buf = (buf, false) := by
  unfold packBlock
  rw [hsource]
  dsimp only
  refine if_pos ?_
  by_contra hc
  exact hno ⟨p, entry, hsource, hentry, by rwa [← hname, ← Bool.not_eq_true]⟩

/-- `read` that gives a block. -/
inductive Gives (h : JobHost σ φ) (job : TransferJob φ) (st : σ) (block : FileTransferBlock)
    (job' : TransferJob φ) : Prop where
  | last (empty : job.bytesRead h st = []) (data : block.data = [])
      (plain : block.compressed = false) (finished : job'.finishedSize = job.finishedSize)
  | part (name : String) (nonempty : job.bytesRead h st ≠ [])
      (named : ∀ p, job.dataSource = .filePath p → ∃ entry,
        job.files[fileIndex job.fileNum]? = some entry ∧ name = job.blockName h p entry)
      (packed : (block.data, block.compressed) = job.packBlock h name (job.bytesRead h st))
      (finished : job'.finishedSize = job.finishedSize + (job.bytesRead h st).length)

theorem readBlock_gives {name : String} {block : FileTransferBlock}
    (hnamed : ∀ p, job.dataSource = .filePath p → ∃ entry,
      job.files[fileIndex job.fileNum]? = some entry ∧ name = job.blockName h p entry)
    (hread : job.readBlock h name st = (.ok (some block), job', st')) :
    job.Gives h st block job' := by
  unfold readBlock at hread
  cases hstream : job.dataStream with
  | none =>
    rw [hstream] at hread
    cases hread
  | some stream =>
    rw [hstream] at hread
    dsimp only at hread
    rcases hr : readStream h stream st with ⟨e | buf, stream', st1⟩
    · rw [hr] at hread
      cases hread
    · rw [hr] at hread
      dsimp only at hread
      have hbuf : job.bytesRead h st = buf := by
        unfold bytesRead
        rw [hstream]
        dsimp only
        rw [hr]
        rfl
      by_cases hempty : buf.isEmpty = true
      · rw [if_pos hempty] at hread
        have hnil : job.bytesRead h st = [] := hbuf.trans (List.isEmpty_iff.mp hempty)
        cases hsource : job.dataSource with
        | memoryCursor data =>
          rw [hsource] at hread
          cases hread
        | filePath p =>
          rw [hsource] at hread
          cases hread
          exact .last hnil rfl rfl rfl
      · rw [if_neg hempty] at hread
        cases hread
        refine .part name ?_ hnamed ?_ ?_
        · rw [hbuf]
          exact fun hnil => hempty (List.isEmpty_iff.mpr hnil)
        · rw [hbuf]
        · rw [hbuf]

theorem read_gives {block : FileTransferBlock}
    (hread : job.read h st = (.ok (some block), job', st')) : job.Gives h st block job' := by
  unfold read at hread
  split at hread
  · cases hread
  · cases hsource : job.dataSource with
    | memoryCursor data =>
      rw [hsource] at hread
      refine readBlock_gives (fun p hp => ?_) hread
      rw [hsource] at hp
      cases hp
    | filePath p =>
      rw [hsource] at hread
      dsimp only at hread
      split at hread
      · cases hread
      · rename_i entry hentry
        refine readBlock_gives (fun q hq => ?_) hread
        rw [hsource] at hq
        cases hq
        exact ⟨entry, hentry, rfl⟩

/-! ## The other side -/

section Receiver

variable {h' : JobHost σ' φ'} {sink sink' : TransferJob φ'} {dst dst' : σ'}
variable {block : FileTransferBlock}

theorem finishedSize_openTarget (p : String) (block : FileTransferBlock) (sink : TransferJob φ')
    (dst : σ') : (sink.openTarget h' p block dst).2.1.finishedSize = sink.finishedSize := by
  unfold openTarget
  split
  · rfl
  · split
    · dsimp only
      split
      · rfl
      · unfold openEntry
        split
        · rfl
        · split
          · rfl
          · split
            · rfl
            · rfl
    · rfl

theorem writeData_finishedSize (hw : sink.writeData h' block dst = (.ok (), sink', dst')) :
    sink'.finishedSize = sink.finishedSize + (decoded h' block).length := by
  unfold writeData at hw
  dsimp only at hw
  split at hw
  · cases hw
  · split at hw
    · cases hw
    · cases hw
      rfl
  · cases hw
    rfl

/-- A block that is written counts for the bytes it stands for. -/
theorem write_finishedSize (hw : sink.write h' block dst = (.ok (), sink', dst')) :
    sink'.finishedSize = sink.finishedSize + (decoded h' block).length := by
  unfold write at hw
  split at hw
  · cases hw
  · split at hw
    · rename_i p _
      have hkept : (sink.openTarget h' p block dst).2.1.finishedSize = sink.finishedSize :=
        finishedSize_openTarget p block sink dst
      rcases ho : sink.openTarget h' p block dst with ⟨e | u, sink1, dst1⟩
      · rw [ho] at hw
        cases hw
      · rw [ho] at hw hkept
        rw [writeData_finishedSize hw, hkept]
    · rw [writeData_finishedSize hw]
      split
      · rfl
      · rfl

end Receiver

theorem decoded_eq {h' : JobHost σ' φ'} {block : FileTransferBlock} {data : Bytes}
    {compressed : Bool} (hb : (block.data, block.compressed) = (data, compressed)) :
    decoded h' block = if compressed then h'.decompress data else data := by
  obtain ⟨rfl, rfl⟩ := Prod.mk.inj hb
  rfl

/-- A block of a file that is compressed, and what it decodes to: all of it, or nothing if `zstd`
    failed. -/
theorem decoded_compressed {h' : JobHost σ' φ'} {block : FileTransferBlock} {name : String}
    (hzstd : ∀ data out, h.zstdCompress data = some out → h'.decodeAll out = some data)
    (hnothing : h'.decompress [] = [])
    (hc : job.Compresses h) (hnamed : ∀ p, job.dataSource = .filePath p → ∃ entry,
      job.files[fileIndex job.fileNum]? = some entry ∧ name = job.blockName h p entry)
    {buf : Bytes} (hne : buf ≠ [])
    (packed : (block.data, block.compressed) = job.packBlock h name buf) :
    decoded h' block = if h.zstdCompress buf = none then [] else buf := by
  obtain ⟨p, entry, hsource, hentry, hname⟩ := hc
  obtain ⟨entry', hentry', rfl⟩ := hnamed p hsource
  cases hentry.symm.trans hentry'
  have hpack : job.packBlock h (job.blockName h p entry) buf =
      if (h.compress buf).length < buf.length then (h.compress buf, true) else (buf, false) := by
    unfold packBlock
    rw [hsource]
    dsimp only
    rw [if_neg (by simp [hname])]
  rw [hpack, JobHost.compress] at packed
  cases hz : h.zstdCompress buf with
  | none =>
    rw [hz] at packed
    rw [if_pos rfl, decoded_eq (packed.trans (if_pos (List.length_pos_iff.mpr hne)))]
    exact hnothing
  | some out =>
    rw [hz] at packed
    rw [if_neg (by simp)]
    dsimp only [Option.getD_some] at packed
    split at packed
    · rw [decoded_eq packed, if_pos rfl, JobHost.decompress, hzstd _ out hz]
      rfl
    · rw [decoded_eq packed]
      rfl

theorem decoded_plain {h' : JobHost σ' φ'} {block : FileTransferBlock} {name : String}
    (hc : ¬ job.Compresses h) (hnamed : ∀ p, job.dataSource = .filePath p → ∃ entry,
      job.files[fileIndex job.fileNum]? = some entry ∧ name = job.blockName h p entry)
    {buf : Bytes} (packed : (block.data, block.compressed) = job.packBlock h name buf) :
    decoded h' block = buf := by
  cases hsource : job.dataSource with
  | memoryCursor data =>
    rw [packBlock, hsource] at packed
    rw [decoded_eq packed]
    rfl
  | filePath p =>
    obtain ⟨entry, hentry, hname⟩ := hnamed p hsource
    rw [packBlock_of_not_compresses hsource hentry hname hc] at packed
    rw [decoded_eq packed]
    rfl

/-- A block stands for the bytes that were read, and counts for them on both sides, unless they
    were to be compressed and could not be. -/
theorem block_decodes_iff (h : JobHost σ φ) (h' : JobHost σ' φ')
    (hzstd : ∀ data out, h.zstdCompress data = some out → h'.decodeAll out = some data)
    (hnothing : h'.decompress [] = []) (job job' : TransferJob φ) (st st' : σ)
    (block : FileTransferBlock) (hread : job.read h st = (.ok (some block), job', st')) :
    (decoded h' block = job.bytesRead h st ∧
      ∀ (sink sink' : TransferJob φ') (dst dst' : σ'),
        sink.write h' block dst = (.ok (), sink', dst') →
          sink'.finishedSize + job.finishedSize = sink.finishedSize + job'.finishedSize) ↔
    (job.Compresses h → job.bytesRead h st ≠ [] →
      h.zstdCompress (job.bytesRead h st) ≠ none) := by
  have hcount : decoded h' block = job.bytesRead h st →
      job'.finishedSize = job.finishedSize + (job.bytesRead h st).length →
      decoded h' block = job.bytesRead h st ∧
        ∀ (sink sink' : TransferJob φ') (dst dst' : σ'),
          sink.write h' block dst = (.ok (), sink', dst') →
            sink'.finishedSize + job.finishedSize = sink.finishedSize + job'.finishedSize := by
    intro hdec hfinished
    refine ⟨hdec, fun sink sink' dst dst' hw => ?_⟩
    rw [write_finishedSize hw, hdec, hfinished]
    omega
  cases read_gives hread with
  | last empty data plain finished =>
    refine iff_of_true (hcount ?_ ?_) fun _ hne => absurd empty hne
    · rw [empty, decoded, plain, data]
      rfl
    · rw [empty, finished]
      rfl
  | part name nonempty named packed finished =>
    by_cases hc : job.Compresses h
    · have hdec := decoded_compressed hzstd hnothing hc named nonempty packed
      by_cases hz : h.zstdCompress (job.bytesRead h st) = none
      · rw [if_pos hz] at hdec
        refine iff_of_false (fun hboth => nonempty ?_) fun hok => hok hc nonempty hz
        rw [← hboth.1, hdec]
      · rw [if_neg hz] at hdec
        exact iff_of_true (hcount hdec finished) fun _ _ => hz
    · exact iff_of_true (hcount (decoded_plain hc named packed) finished) fun hyes =>
        absurd hyes hc

end Packing

/-- A machine on which `zstd` compresses nothing. -/
def failingHost : JobHost (Disk String) Nat := { plainHost with zstdCompress := fun _ => none }

/-- A disk with a file of one byte. -/
def oneByteDisk : Disk String := (Disk.empty ["/"] : Disk String).withFile "/f" [1]

/-- A job for that file that has opened it. -/
def oneByteRead (h : JobHost (Disk String) Nat) : TransferJob Nat × Disk String :=
  let job := newRead 1 .generic (.filePath "/f") 0 [⟨"", 0, 1⟩] false
  ((job.initDataStream h oneByteDisk).2.1, (job.initDataStream h oneByteDisk).2.2.1)

theorem block_decodes_iff_oneByte :
    decoded plainHost ⟨1, 0, [1], false⟩ = [1] ∧
      ((oneByteRead plainHost).1.Compresses plainHost →
        (oneByteRead plainHost).1.bytesRead plainHost (oneByteRead plainHost).2 ≠ [] →
        plainHost.zstdCompress
          ((oneByteRead plainHost).1.bytesRead plainHost (oneByteRead plainHost).2) ≠ none) := by
  refine ⟨rfl, ?_⟩
  refine (block_decodes_iff plainHost plainHost ?_ rfl (oneByteRead plainHost).1
    ((oneByteRead plainHost).1.read plainHost (oneByteRead plainHost).2).2.1
    (oneByteRead plainHost).2 ((oneByteRead plainHost).1.read plainHost
      (oneByteRead plainHost).2).2.2 ⟨1, 0, [1], false⟩ rfl).mp ⟨rfl, ?_⟩
  · intro data out hout
    cases hout
    exact if_pos rfl
  · intro sink sink' dst dst' hw
    rw [write_finishedSize hw]
    rfl

/-- The byte is read and counted, and the block has nothing in it. -/
theorem failed_compression_loses_data :
    (oneByteRead failingHost).1.bytesRead failingHost (oneByteRead failingHost).2 = [1] ∧
      ((oneByteRead failingHost).1.read failingHost (oneByteRead failingHost).2).1 =
        .ok (some ⟨1, 0, [], true⟩) ∧
      decoded failingHost ⟨1, 0, [], true⟩ = [] :=
  ⟨rfl, rfl, rfl⟩

/-! ## The blocks of a job -/

variable {σ φ σ' φ' : Type}

/-- What the loop over the jobs does with one: `init_data_stream`, then `read`. -/
def nextBlock (h : JobHost σ φ) (s : TransferJob φ × σ) :
    Except String (Option FileTransferBlock) × TransferJob φ × σ :=
  match s.1.initDataStream h s.2 with
  | (.error e, job, st, _) => (.error e, job, st)
  | (.ok (), job, st, _) => job.read h st

/-- The blocks up to the end of the job, and the job then. -/
def sendAll (h : JobHost σ φ) : Nat → TransferJob φ × σ →
    List FileTransferBlock × Option (TransferJob φ × σ)
  | 0, _ => ([], none)
  | fuel + 1, s =>
    match nextBlock h s with
    | (.ok (some block), s) => (block :: (sendAll h fuel s).1, (sendAll h fuel s).2)
    | (.ok none, s) => ([], some s)
    | (.error _, _) => ([], none)

/-- The blocks of one file. -/
structure FileBlocks (h' : JobHost σ' φ') (id : Int32) (n : Nat) (content : Bytes)
    (blocks : List FileTransferBlock) : Prop where
  numbered : ∀ block ∈ blocks, block.id = id ∧ block.fileNum = Int32.ofNat n
  parts : ∃ parts, blocks = parts ++ [⟨id, Int32.ofNat n, [], false⟩] ∧
    (∀ block ∈ parts, block.data ≠ [] ∧ decoded h' block ≠ []) ∧
    (parts.map (decoded h')).flatten = content

theorem fileIndex_ofNat {n : Nat} (hn : n < 2 ^ 31) : fileIndex (Int32.ofNat n) = n := by
  unfold fileIndex asUsize
  rw [Int32.toInt_ofNat_of_lt hn]
  omega

section Run

variable {h : JobHost σ φ} {h' : JobHost σ' φ'} {content : String → Bytes} {paths : String → Prop}
variable {hf : StaticFiles h.fs content paths} {id : Int32} {p : String} {found : List FileEntry}
variable {n : Nat} {left : Bytes} {s : TransferJob φ × σ} {entry : FileEntry}

/-- The loop fills the buffer as far as the file goes, whatever a read brings. -/
theorem fillBuf_static (hf : StaticFiles h.fs content paths) {f : φ} (fuel : Nat) {room : Nat}
    {st : σ} (hroom : 0 < room) (hfuel : room < fuel) (hh : hf.Holds st)
    (hl : hf.Left f left st) :
    ∃ st', fillBuf h f fuel room st = (.ok (left.take room), st') ∧ hf.Holds st' ∧
      hf.Left f (left.drop room) st' := by
  induction fuel generalizing room left st with
  | zero => omega
  | succ fuel ih =>
    obtain ⟨piece, left', st', hread, rfl, hlen, hend, hh', hl'⟩ := hf.read hroom hh hl
    unfold fillBuf
    rw [hread]
    dsimp only
    rw [List.take_of_length_le hlen, List.take_append, List.drop_append,
      List.take_of_length_le hlen, List.drop_of_length_le hlen, List.nil_append]
    by_cases hstop : (piece.isEmpty || decide (room ≤ piece.length)) = true
    · rw [if_pos hstop]
      have hnone : left' = [] ∨ room - piece.length = 0 := by
        rw [Bool.or_eq_true, decide_eq_true_eq, List.isEmpty_iff] at hstop
        exact hstop.imp hend fun hfull => by omega
      refine ⟨st', ?_, hh', ?_⟩
      · rcases hnone with rfl | hzero
        · rw [List.take_nil, List.append_nil]
        · rw [hzero, List.take_zero, List.append_nil]
      · rcases hnone with rfl | hzero
        · rwa [List.drop_nil]
        · rwa [hzero, List.drop_zero]
    · rw [if_neg hstop]
      simp only [Bool.or_eq_true, decide_eq_true_eq, List.isEmpty_iff, not_or, not_le] at hstop
      have hpos := List.length_pos_iff.mpr hstop.1
      have hroom' : 0 < room - piece.length := by omega
      obtain ⟨st'', hrest, hh'', hl''⟩ := ih hroom' (by omega) hh' hl'
      rw [hrest]
      exact ⟨st'', rfl, hh'', hl''⟩

/-- A job that sends files without asking. -/
structure Sends (hf : StaticFiles h.fs content paths) (id : Int32) (p : String)
    (found : List FileEntry) (s : TransferJob φ × σ) : Prop where
  id : s.1.id = id
  source : s.1.dataSource = .filePath p
  files : s.1.files = found
  detection : s.1.enableOverwriteDetection = false
  holds : hf.Holds s.2

/-- It stands at file `n`, which is not open yet. -/
structure Between (hf : StaticFiles h.fs content paths) (id : Int32) (p : String)
    (found : List FileEntry) (n : Nat) (s : TransferJob φ × σ) : Prop where
  sends : Sends hf id p found s
  fileNum : s.1.fileNum = Int32.ofNat n
  closed : s.1.dataStream = none

/-- It stands at file `n`, with this much to read. -/
structure Within (hf : StaticFiles h.fs content paths) (id : Int32) (p : String)
    (found : List FileEntry) (n : Nat) (left : Bytes) (s : TransferJob φ × σ) : Prop where
  sends : Sends hf id p found s
  fileNum : s.1.fileNum = Int32.ofNat n
  stream : ∃ f e, s.1.dataStream = some (.fileStream f e) ∧ hf.Left f left s.2

theorem Sends.needsDigest (hs : Sends hf id p found s) : s.1.needsDigest = false := by
  simp [TransferJob.needsDigest, hs.detection]

theorem Sends.read_eq (hs : Sends hf id p found s)
    (hentry : found[fileIndex s.1.fileNum]? = some entry) :
    ∃ name, s.1.read h s.2 = s.1.readBlock h name s.2 := by
  unfold read
  rw [if_neg (by simp [hs.detection]), hs.source, hs.files]
  dsimp only
  rw [hentry]
  exact ⟨_, rfl⟩

/-- What is packed is unpacked again, and is not empty if it was not. -/
theorem packBlock_decoded (hzstd : ∀ data, h'.decompress (h.compress data) = data)
    (hnothing : h'.decompress [] = []) (name : String) (job : TransferJob φ) {buf : Bytes}
    (hne : buf ≠ []) (id fileNum : Int32) :
    (job.packBlock h name buf).1 ≠ [] ∧
      decoded h' ⟨id, fileNum, (job.packBlock h name buf).1, (job.packBlock h name buf).2⟩ =
        buf := by
  unfold packBlock decoded
  split
  · split
    · exact ⟨hne, rfl⟩
    · dsimp only
      split
      · refine ⟨fun hnil => hne ?_, hzstd buf⟩
        have hempty : h.compress buf = [] := hnil
        rw [← hzstd buf, hempty, hnothing]
      · exact ⟨hne, rfl⟩
  · exact ⟨hne, rfl⟩

/-! ### One turn of the loop -/

/-- Past the last file there is nothing to send. -/
theorem nextBlock_done (hs : Sends hf id p found s) (hnone : found[fileIndex s.1.fileNum]? = none) :
    ∃ s', nextBlock h s = (.ok none, s') ∧ s'.1.read h s'.2 = (.ok none, s') ∧
      s'.1.finishedSize = s.1.finishedSize := by
  obtain ⟨job, st⟩ := s
  have hopen : job.openDataStream h st = (.ok true, { job with dataStream := none }, st) := by
    unfold openDataStream
    rw [hs.source, hs.files]
    dsimp only
    rw [hnone]
  have hread : TransferJob.read h { job with dataStream := none } st =
      (.ok none, { job with dataStream := none }, st) := by
    have hdetection : job.enableOverwriteDetection = false := hs.detection
    unfold read
    rw [if_neg (by simp [hdetection])]
    dsimp only
    rw [hs.source, hs.files]
    dsimp only
    rw [hnone]
  refine ⟨({ job with dataStream := none }, st), ?_, hread, rfl⟩
  unfold nextBlock initDataStream
  dsimp only
  rw [hopen]
  exact hread

/-- A file that is not open yet is opened first. -/
theorem nextBlock_opens (hs : Between hf id p found n s) (hn : n < 2 ^ 31)
    (hentry : found[n]? = some entry) (hpath : paths (join h p entry.name)) :
    ∃ s1, nextBlock h s = nextBlock h s1 ∧ s1.1.finishedSize = s.1.finishedSize ∧
      Within hf id p found n (content (join h p entry.name)) s1 := by
  obtain ⟨job, st⟩ := s
  obtain ⟨f, st', hopen, hholds, hleft⟩ := hf.openRead hpath hs.sends.holds
  have hindex : fileIndex job.fileNum = n := by rw [hs.fileNum, fileIndex_ofNat hn]
  have hstream : job.dataStream = none := hs.closed
  have hfiles : job.files = found := hs.sends.files
  let job1 : TransferJob φ := { job with
    dataStream := some (.fileStream f n)
    fileConfirmed := false
    fileIsWaiting := false }
  have hsends : Sends hf id p found (job1, st') :=
    ⟨hs.sends.id, hs.sends.source, hfiles, hs.sends.detection, hholds⟩
  have hfirst : job.openDataStream h st = (.ok false, job1, st') := by
    unfold openDataStream
    rw [hs.sends.source, hfiles, hstream, hindex]
    dsimp only
    rw [hentry]
    dsimp only
    rw [hopen]
    dsimp only
    rw [← hs.sends.source, ← hfiles]
  have hagain : job1.openDataStream h st' = (.ok false, job1, st') := by
    unfold openDataStream
    rw [hsends.source]
    dsimp only
    rw [hfiles, hindex, hentry]
  refine ⟨(job1, st'), ?_, rfl, hsends, hs.fileNum, f, n, rfl, hleft⟩
  unfold nextBlock initDataStream
  dsimp only
  rw [hfirst, hagain]

theorem nextBlock_open (hs : Within hf id p found n left s) (hn : n < 2 ^ 31)
    (hentry : found[n]? = some entry) : nextBlock h s = s.1.read h s.2 := by
  obtain ⟨f, e, hstream, _⟩ := hs.stream
  have hagain : s.1.openDataStream h s.2 = (.ok false, s.1, s.2) := by
    unfold openDataStream
    rw [hs.sends.source, hs.sends.files, hs.fileNum, fileIndex_ofNat hn, hstream]
    dsimp only
    rw [hentry]
  unfold nextBlock initDataStream
  rw [hagain]
  dsimp only
  rw [hs.sends.needsDigest]
  rfl

theorem bufSize_pos : 0 < bufSize := by decide

/-- A file that is over is followed by an empty block. -/
theorem nextBlock_end (hs : Within hf id p found n [] s) (hn : n < 2 ^ 31)
    (hentry : found[n]? = some entry) :
    ∃ s', nextBlock h s = (.ok (some ⟨id, Int32.ofNat n, [], false⟩), s') ∧
      s'.1.finishedSize = s.1.finishedSize ∧ Between hf id p found (n + 1) s' := by
  obtain ⟨f, e, hstream, hleft⟩ := hs.stream
  obtain ⟨st', hfill, hholds, _⟩ := fillBuf_static hf (bufSize + 1) bufSize_pos
    (Nat.lt_succ_self _) hs.sends.holds hleft
  obtain ⟨name, hread⟩ := hs.sends.read_eq (by rwa [hs.fileNum, fileIndex_ofNat hn])
  refine ⟨(s.1.leaveFile, st'), ?_, rfl, ⟨hs.sends.id, hs.sends.source, hs.sends.files,
    hs.sends.detection, hholds⟩, ?_, rfl⟩
  · rw [nextBlock_open hs hn hentry, hread, readBlock, hstream]
    dsimp only
    rw [readStream, hfill]
    dsimp only
    rw [List.take_nil, hs.sends.source, hs.sends.id, hs.fileNum]
    rfl
  · change s.1.fileNum + 1 = _
    rw [hs.fileNum, Int32.ofNat_add]
    rfl

/-- Otherwise a block brings as much of it as the buffer holds. -/
theorem nextBlock_part (hzstd : ∀ data, h'.decompress (h.compress data) = data)
    (hnothing : h'.decompress [] = []) (hs : Within hf id p found n left s) (hn : n < 2 ^ 31)
    (hentry : found[n]? = some entry) (hne : left ≠ []) :
    ∃ data compressed s',
      nextBlock h s = (.ok (some ⟨id, Int32.ofNat n, data, compressed⟩), s') ∧ data ≠ [] ∧
      decoded h' ⟨id, Int32.ofNat n, data, compressed⟩ = left.take bufSize ∧
      s'.1.finishedSize = s.1.finishedSize + (left.take bufSize).length ∧
      Within hf id p found n (left.drop bufSize) s' := by
  obtain ⟨f, e, hstream, hleft⟩ := hs.stream
  obtain ⟨st', hfill, hholds, hleft'⟩ := fillBuf_static hf (bufSize + 1) bufSize_pos
    (Nat.lt_succ_self _) hs.sends.holds hleft
  obtain ⟨name, hread⟩ := hs.sends.read_eq (by rwa [hs.fileNum, fileIndex_ofNat hn])
  have hpart : left.take bufSize ≠ [] := by
    rw [Ne, List.take_eq_nil_iff, not_or]
    exact ⟨by decide, hne⟩
  obtain ⟨hdata, hdec⟩ := packBlock_decoded hzstd hnothing name s.1 hpart id (Int32.ofNat n)
  let s' : TransferJob φ × σ := ({ s.1 with
    dataStream := some (.fileStream f e)
    finishedSize := s.1.finishedSize + (left.take bufSize).length
    transferred := s.1.transferred + (s.1.packBlock h name (left.take bufSize)).1.length }, st')
  refine ⟨_, _, s', ?_, hdata, hdec, rfl, ⟨hs.sends.id, hs.sends.source, hs.sends.files,
    hs.sends.detection, hholds⟩, hs.fileNum, f, e, rfl, hleft'⟩
  rw [nextBlock_open hs hn hentry, hread, readBlock, hstream]
  dsimp only
  rw [readStream, hfill]
  dsimp only
  rw [if_neg (by rwa [List.isEmpty_iff]), ← hs.sends.id, ← hs.fileNum]

/-! ### The whole run -/

theorem sendAll_succ {block : FileTransferBlock} {s' : TransferJob φ × σ}
    (hnext : nextBlock h s = (.ok (some block), s')) (fuel : Nat) :
    sendAll h (fuel + 1) s = (block :: (sendAll h fuel s').1, (sendAll h fuel s').2) := by
  rw [sendAll, hnext]

/-- The blocks up to the end of a file. -/
theorem sendAll_left (hzstd : ∀ data, h'.decompress (h.compress data) = data)
    (hnothing : h'.decompress [] = []) (hn : n < 2 ^ 31) (hentry : found[n]? = some entry)
    (left : Bytes) (s : TransferJob φ × σ) (hs : Within hf id p found n left s) :
    ∃ turns blocks s', FileBlocks h' id n left blocks ∧
      (∀ fuel, sendAll h (fuel + turns) s =
        (blocks ++ (sendAll h fuel s').1, (sendAll h fuel s').2)) ∧
      s'.1.finishedSize = s.1.finishedSize + left.length ∧ Between hf id p found (n + 1) s' := by
  induction hlen : left.length using Nat.strong_induction_on generalizing left s with
  | _ len ih =>
    by_cases hne : left = []
    · subst hne
      obtain ⟨s', hnext, hsize, hs'⟩ := nextBlock_end hs hn hentry
      refine ⟨1, [⟨id, Int32.ofNat n, [], false⟩], s', ⟨?_, [], rfl, by simp, rfl⟩,
        sendAll_succ hnext, ?_, hs'⟩
      · intro block hmem
        obtain rfl := List.mem_singleton.mp hmem
        exact ⟨rfl, rfl⟩
      · rw [hsize, ← hlen]
        rfl
    · obtain ⟨data, compressed, s1, hnext, hdata, hdec, hsize, hs1⟩ :=
        nextBlock_part hzstd hnothing hs hn hentry hne
      have hpos := List.length_pos_iff.mpr hne
      have hbuf : 0 < bufSize := by decide
      have hless : (left.drop bufSize).length < len := by
        rw [List.length_drop]
        omega
      obtain ⟨turns, blocks, s', hblocks, hrun, hsize', hs'⟩ := ih _ hless _ s1 hs1 rfl
      obtain ⟨hnum, parts, rfl, hparts, hflat⟩ := hblocks
      refine ⟨turns + 1, ⟨id, Int32.ofNat n, data, compressed⟩ ::
        (parts ++ [⟨id, Int32.ofNat n, [], false⟩]), s',
        ⟨?_, ⟨id, Int32.ofNat n, data, compressed⟩ :: parts, rfl, ?_, ?_⟩, ?_, ?_, hs'⟩
      · intro block hmem
        rcases List.mem_cons.mp hmem with rfl | hmem
        · exact ⟨rfl, rfl⟩
        · exact hnum block hmem
      · intro block hmem
        rcases List.mem_cons.mp hmem with rfl | hmem
        · refine ⟨hdata, ?_⟩
          rw [hdec, Ne, List.take_eq_nil_iff, not_or]
          exact ⟨hbuf.ne', hne⟩
        · exact hparts block hmem
      · rw [List.map_cons, List.flatten_cons, hdec, hflat, List.take_append_drop]
      · intro fuel
        rw [← Nat.add_assoc, sendAll_succ hnext, hrun]
        rfl
      · rw [hsize', hsize, Nat.add_assoc, ← List.length_append, List.take_append_drop, hlen]

/-- The files that the job comes to, each with its number. -/
def filesFrom (found : List FileEntry) (n : Nat) : List (FileEntry × Nat) :=
  (found.zipIdx.take (2 ^ 31)).drop n

theorem filesFrom_cons {rest : List (FileEntry × Nat)} {i : Nat}
    (hfrom : filesFrom found n = (entry, i) :: rest) :
    i = n ∧ n < 2 ^ 31 ∧ found[n]? = some entry ∧ filesFrom found (n + 1) = rest := by
  have hget : (found.zipIdx.take (2 ^ 31))[n]? = some (entry, i) := by
    rw [← List.head?_drop]
    exact congrArg List.head? hfrom
  rw [List.getElem?_take] at hget
  split at hget
  · rename_i hlt
    rw [List.getElem?_zipIdx, Option.map_eq_some_iff] at hget
    obtain ⟨_, hentry, heq⟩ := hget
    cases heq
    refine ⟨Nat.zero_add n, hlt, hentry, ?_⟩
    have htail := congrArg List.tail hfrom
    rwa [filesFrom, List.tail_drop] at htail
  · cases hget

theorem filesFrom_nil (hnil : filesFrom found n = []) :
    found.length ≤ n ∨ 2 ^ 31 ≤ n := by
  rw [filesFrom, List.drop_eq_nil_iff, List.length_take, List.length_zipIdx] at hnil
  omega

/-- The blocks of all the files from the one the job stands at. -/
theorem sendAll_files (hzstd : ∀ data, h'.decompress (h.compress data) = data)
    (hnothing : h'.decompress [] = []) (hpaths : ∀ entry ∈ found, paths (join h p entry.name))
    (rest : List (FileEntry × Nat)) (n : Nat) (s : TransferJob φ × σ)
    (hfrom : filesFrom found n = rest) (hn : n ≤ 2 ^ 31) (hs : Between hf id p found n s) :
    ∃ turns groups m s',
      List.Forall₂ (fun file blocks =>
        FileBlocks h' id file.2 (content (join h p file.1.name)) blocks) rest groups ∧
      (∀ fuel, sendAll h (fuel + turns) s =
        (groups.flatten ++ (sendAll h fuel s').1, (sendAll h fuel s').2)) ∧
      s'.1.finishedSize = s.1.finishedSize +
        (rest.map fun file => (content (join h p file.1.name)).length).sum ∧
      Between hf id p found m s' ∧ m ≤ 2 ^ 31 ∧ filesFrom found m = [] := by
  induction rest generalizing n s with
  | nil => exact ⟨0, [], n, s, .nil, fun _ => rfl, rfl, hs, hn, hfrom⟩
  | cons file rest ih =>
    obtain ⟨entry, i⟩ := file
    obtain ⟨rfl, hlt, hentry, hrest⟩ := filesFrom_cons hfrom
    obtain ⟨s1, hopen, hsize1, hs1⟩ :=
      nextBlock_opens hs hlt hentry (hpaths _ (List.mem_of_getElem? hentry))
    obtain ⟨turns, blocks, s2, hblocks, hrun, hsize2, hs2⟩ :=
      sendAll_left hzstd hnothing hlt hentry _ s1 hs1
    obtain ⟨turns', groups, m, s', hgroups, hrun', hsize', hs', hm, hend⟩ :=
      ih (i + 1) s2 hrest (by omega) hs2
    refine ⟨turns' + turns, blocks :: groups, m, s', .cons hblocks hgroups, ?_, ?_, hs', hm, hend⟩
    · intro fuel
      -- There is a block at least, so that a turn is taken and the file opened in it.
      have hsame : ∀ k, 0 < k → sendAll h k s = sendAll h k s1 := by
        intro k hk
        obtain ⟨k, rfl⟩ := Nat.exists_eq_add_one_of_ne_zero hk.ne'
        rw [sendAll, sendAll, hopen]
      have hturns : 0 < turns := by
        by_contra hzero
        obtain rfl : turns = 0 := by omega
        have hnone := congrArg Prod.fst (hrun 0)
        obtain ⟨_, parts, rfl, _⟩ := hblocks
        simp [sendAll] at hnone
      rw [← Nat.add_assoc, hsame _ (by omega), hrun, hrun', List.flatten_cons, List.append_assoc]
    · rw [hsize', hsize2, hsize1, List.map_cons, List.sum_cons, Nat.add_assoc]

/-- The rest of the run from a file that is not open yet. -/
theorem sendAll_rest (hzstd : ∀ data, h'.decompress (h.compress data) = data)
    (hnothing : h'.decompress [] = []) (hlen : found.length < 2 ^ 63)
    (hpaths : ∀ entry ∈ found, paths (join h p entry.name)) (hn : n ≤ 2 ^ 31)
    (hs : Between hf id p found n s) :
    ∃ turns groups s',
      List.Forall₂ (fun file blocks =>
        FileBlocks h' id file.2 (content (join h p file.1.name)) blocks)
        (filesFrom found n) groups ∧
      (∀ fuel, sendAll h (fuel + turns) s = (groups.flatten, some s')) ∧
      s'.1.read h s'.2 = (.ok none, s') ∧
      s'.1.finishedSize = s.1.finishedSize +
        ((filesFrom found n).map fun file => (content (join h p file.1.name)).length).sum := by
  obtain ⟨turns, groups, m, s1, hgroups, hrun, hsize, hs1, hm, hend⟩ :=
    sendAll_files hzstd hnothing hpaths _ n s rfl hn hs
  have hnone : found[fileIndex s1.1.fileNum]? = none := by
    rw [List.getElem?_eq_none_iff, hs1.fileNum]
    rcases Nat.lt_or_ge m (2 ^ 31) with hlt | hge
    · rw [fileIndex_ofNat hlt]
      exact (filesFrom_nil hend).resolve_right (Nat.not_le.mpr hlt)
    · obtain rfl : m = 2 ^ 31 := Nat.le_antisymm hm hge
      have hpast : fileIndex (Int32.ofNat (2 ^ 31)) = 2 ^ 64 - 2 ^ 31 := by decide
      omega
  obtain ⟨s', hnext, hread, hkept⟩ := nextBlock_done hs1.sends hnone
  refine ⟨turns + 1, groups, s', hgroups, fun fuel => ?_, hread, hkept.trans hsize⟩
  rw [Nat.add_comm turns 1, ← Nat.add_assoc, hrun, sendAll, hnext, List.append_nil]

theorem filesFrom_sorted (found : List FileEntry) (n : Nat) :
    (filesFrom found n).Pairwise fun file file' => file.2 ≤ file'.2 := by
  have hall : (found.zipIdx.map Prod.snd).Pairwise (· ≤ ·) := by
    rw [List.zipIdx_map_snd]
    exact List.pairwise_le_range' 1
  exact (List.pairwise_map.mp hall).sublist
    ((List.drop_sublist _ _).trans (List.take_sublist _ _))

theorem filesFrom_lt {file : FileEntry × Nat} (hmem : file ∈ filesFrom found n) :
    file.2 < 2 ^ 31 := by
  obtain ⟨k, hk, hget⟩ := List.mem_take_iff_getElem.mp (List.mem_of_mem_drop hmem)
  rw [List.getElem_zipIdx] at hget
  subst hget
  simp only [Nat.zero_add]
  omega

/-- Blocks of files that come in order have their numbers in order. -/
theorem fileNums_sorted {files : List (FileEntry × Nat)} {groups : List (List FileTransferBlock)}
    (hgroups : List.Forall₂ (fun file blocks =>
      FileBlocks h' id file.2 (content (join h p file.1.name)) blocks) files groups)
    (hsorted : files.Pairwise fun file file' => file.2 ≤ file'.2)
    (hlt : ∀ file ∈ files, file.2 < 2 ^ 31) :
    (groups.flatten.map FileTransferBlock.fileNum).Pairwise (· ≤ ·) := by
  induction hgroups with
  | nil => exact .nil
  | @cons file blocks files groups hblocks hrest ih =>
    rw [List.pairwise_cons] at hsorted
    rw [List.flatten_cons, List.map_append, List.pairwise_append]
    refine ⟨?_, ih hsorted.2 fun file' hmem => hlt file' (List.mem_cons_of_mem _ hmem), ?_⟩
    · refine List.pairwise_map.mpr (List.pairwise_of_forall_mem_list fun b hb b' hb' => ?_)
      rw [(hblocks.numbered b hb).2, (hblocks.numbered b' hb').2]
      exact Int32.le_refl _
    · rintro k hk k' hk'
      obtain ⟨b, hb, rfl⟩ := List.mem_map.mp hk
      obtain ⟨b', hb', rfl⟩ := List.mem_map.mp hk'
      obtain ⟨blocks', hin, hb'⟩ := List.mem_flatten.mp hb'
      obtain ⟨i, rfl⟩ := List.mem_iff_get.mp hin
      have hi : i < files.length := by
        rw [hrest.length_eq]
        exact i.isLt
      have hmem := List.get_mem files ⟨i, hi⟩
      have hblocks' := hrest.get hi i.isLt
      rw [(hblocks.numbered b hb).2, (hblocks'.numbered b' hb').2, Int32.le_iff_toInt_le,
        Int32.toInt_ofNat_of_lt (hlt file (List.mem_cons_self ..)),
        Int32.toInt_ofNat_of_lt (hlt _ (List.mem_cons_of_mem _ hmem))]
      exact_mod_cast hsorted.1 _ hmem

theorem ofNat_fileIndex {k : Int32} (hk : 0 ≤ k.toInt) : Int32.ofNat (fileIndex k) = k := by
  have hlt := k.toInt_lt
  have hindex : ((fileIndex k : Nat) : Int) = k.toInt := by
    unfold fileIndex asUsize
    omega
  rw [← Int32.ofInt_eq_ofNat, hindex, Int32.ofInt_toInt]

/-- Without overwrite detection and as long as nothing fails, a job sends the files from its
    `file_num` on, as far as 31 bits number them: each as blocks that are not empty and one that
    is. Then it has nothing to send, and has counted every byte. -/
theorem blocks_complete (h : JobHost σ φ) (h' : JobHost σ' φ')
    (hzstd : ∀ data, ∃ out, h.zstdCompress data = some out ∧ h'.decodeAll out = some data)
    (hnothing : h'.decompress [] = []) (hf : StaticFiles h.fs content paths) (id : Int32)
    (jobType : JobType) (p : String) (fileNum : Int32) (found : List FileEntry) (st : σ)
    (hlen : found.length < 2 ^ 63) (hpaths : ∀ entry ∈ found, paths (join h p entry.name))
    (hst : hf.Holds st) :
    ∃ turns groups s,
      List.Forall₂ (fun file blocks =>
        FileBlocks h' id file.2 (content (join h p file.1.name)) blocks)
        (filesFrom found (fileIndex fileNum)) groups ∧
      (groups.flatten.map FileTransferBlock.fileNum).Pairwise (· ≤ ·) ∧
      (∀ fuel, sendAll h (fuel + turns)
        (newRead id jobType (.filePath p) fileNum found false, st) = (groups.flatten, some s)) ∧
      s.1.read h s.2 = (.ok none, s) ∧
      s.1.finishedSize = ((filesFrom found (fileIndex fileNum)).map
        fun file => (content (join h p file.1.name)).length).sum := by
  have hpacked : ∀ data, h'.decompress (h.compress data) = data := by
    intro data
    obtain ⟨out, hout, hback⟩ := hzstd data
    simp [JobHost.compress, JobHost.decompress, hout, hback]
  have hsends : Sends hf id p found (newRead id jobType (.filePath p) fileNum found false, st) :=
    ⟨rfl, rfl, rfl, rfl, hst⟩
  by_cases hpos : 0 ≤ fileNum.toInt
  · have hlt := fileNum.toInt_lt
    have hindex : fileIndex fileNum ≤ 2 ^ 31 := by
      unfold fileIndex asUsize
      omega
    obtain ⟨turns, groups, s, hgroups, hrun, hread, hsize⟩ :=
      sendAll_rest hpacked hnothing hlen hpaths hindex ⟨hsends, (ofNat_fileIndex hpos).symm, rfl⟩
    refine ⟨turns, groups, s, hgroups, ?_, hrun, hread, hsize.trans (Nat.zero_add _)⟩
    exact fileNums_sorted hgroups (filesFrom_sorted _ _) fun file hmem => filesFrom_lt hmem
  · -- A negative number is past every list.
    have hge := fileNum.le_toInt
    have hindex : 2 ^ 63 ≤ fileIndex fileNum := by
      unfold fileIndex asUsize
      omega
    have hnil : filesFrom found (fileIndex fileNum) = [] := by
      rw [filesFrom, List.drop_eq_nil_iff, List.length_take, List.length_zipIdx]
      omega
    have hnone : found[fileIndex fileNum]? = none := by
      rw [List.getElem?_eq_none_iff]
      omega
    obtain ⟨s, hnext, hread, hsize⟩ := nextBlock_done hsends hnone
    rw [hnil]
    refine ⟨1, [], s, .nil, .nil, fun fuel => ?_, hread, hsize⟩
    rw [sendAll, hnext]
    rfl

end Run

/-- Two files of one byte. -/
def twoFiles : Disk String :=
  ((Disk.empty ["/d"] : Disk String).withFile "/d/a" [1]).withFile "/d/b" [2]

def twoEntries : List FileEntry := [⟨"a", 0, 1⟩, ⟨"b", 0, 1⟩]

def twoContents (path : String) : Bytes := if path = "/d/a" then [1] else [2]

def twoStatic : StaticFiles plainHost.fs twoContents fun path => path = "/d/a" ∨ path = "/d/b" :=
  Disk.staticFiles (fun path => path) twoContents fun path => path = "/d/a" ∨ path = "/d/b"

theorem twoStatic_holds : twoStatic.Holds twoFiles := by
  rintro path (rfl | rfl)
  · rfl
  · rfl

theorem blocks_complete_two :
    ∃ turns groups s,
      List.Forall₂ (fun file blocks =>
        FileBlocks plainHost 1 file.2 (twoContents (join plainHost "/d" file.1.name)) blocks)
        (filesFrom twoEntries (fileIndex 0)) groups ∧
      (groups.flatten.map FileTransferBlock.fileNum).Pairwise (· ≤ ·) ∧
      (∀ fuel, sendAll plainHost (fuel + turns)
        (newRead 1 .generic (.filePath "/d") 0 twoEntries false, twoFiles) =
          (groups.flatten, some s)) ∧
      s.1.read plainHost s.2 = (.ok none, s) ∧
      s.1.finishedSize = ((filesFrom twoEntries (fileIndex 0)).map
        fun file => (twoContents (join plainHost "/d" file.1.name)).length).sum :=
  blocks_complete plainHost plainHost (fun data => ⟨storedFrame data, rfl, if_pos rfl⟩) rfl
    twoStatic 1 .generic "/d" 0 twoEntries twoFiles (by decide) (by decide) twoStatic_holds

theorem sum_sizes_replicate (entry : FileEntry) (size : FileEntry → Nat) {k : Nat}
    (hk : 2 ^ 31 ≤ k) :
    ((filesFrom (List.replicate k entry) 0).map fun file => size file.1).sum =
      2 ^ 31 * size entry := by
  have hfst : (((List.replicate k entry).zipIdx.take (2 ^ 31)).map Prod.fst) =
      List.replicate (2 ^ 31) entry := by
    rw [List.map_take, List.zipIdx_map_fst, List.take_replicate, Nat.min_eq_left hk]
  rw [filesFrom, List.drop_zero, ← Function.comp_def size Prod.fst, ← List.map_map, hfst,
    List.map_replicate, List.sum_replicate, smul_eq_mul]

/-- A job that is taken up at the second file sends nothing of the first one, and a job over
    `2 ^ 31 + 1` files of one byte leaves the last one out. -/
theorem some_files_not_sent :
    ((sendAll plainHost 3 (newRead 1 .generic (.filePath "/d") 1 twoEntries false, twoFiles)).1 =
        [⟨1, 1, [2], false⟩, ⟨1, 1, [], false⟩] ∧
      (sendAll plainHost 3 (newRead 1 .generic (.filePath "/d") 1 twoEntries false,
        twoFiles)).2.map (fun s => s.1.finishedSize) = some 1) ∧
    ∃ turns blocks s,
      sendAll plainHost turns (newRead 1 .generic (.filePath "/d") 0
        (List.replicate (2 ^ 31 + 1) ⟨"a", 0, 1⟩) false, twoFiles) = (blocks, some s) ∧
      s.1.finishedSize = 2 ^ 31 := by
  refine ⟨⟨rfl, rfl⟩, ?_⟩
  have hzstd (data : Bytes) : plainHost.decompress (plainHost.compress data) = data := by
    change (plainHost.decodeAll (storedFrame data)).getD [] = data
    exact congrArg (Option.getD · []) (if_pos rfl)
  generalize hfound : List.replicate (2 ^ 31 + 1) (⟨"a", 0, 1⟩ : FileEntry) = found
  have hlen : found.length = 2 ^ 31 + 1 := by rw [← hfound, List.length_replicate]
  have hpaths : ∀ entry ∈ found, join plainHost "/d" entry.name = "/d/a" ∨
      join plainHost "/d" entry.name = "/d/b" := by
    intro entry hmem
    rw [← hfound] at hmem
    rw [List.eq_of_mem_replicate hmem]
    exact .inl (by decide)
  have hstart : Between twoStatic 1 "/d" found 0
      (newRead 1 .generic (.filePath "/d") 0 found false, twoFiles) :=
    ⟨⟨rfl, rfl, rfl, rfl, twoStatic_holds⟩, rfl, rfl⟩
  obtain ⟨turns, groups, s, _, hrun, _, hsize⟩ := sendAll_rest hzstd
    (rfl : plainHost.decompress [] = []) (by omega) hpaths (Nat.zero_le _) hstart
  refine ⟨0 + turns, _, s, hrun 0, ?_⟩
  rw [hsize, ← hfound, sum_sizes_replicate ⟨"a", 0, 1⟩
    (fun entry => (twoContents (join plainHost "/d" entry.name)).length) (by omega)]
  decide

end TransferJob

end LuodaRemote
