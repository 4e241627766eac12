/-
  A transfer job on a flat disk: what its methods touch there, and what they leave at the
  paths they are about.
-/
import LuodaRemote.Transfer.Write

namespace LuodaRemote
open Lib

namespace TransferJob

section AnyDisk

variable {σ φ : Type} {h : JobHost σ φ} {job : TransferJob φ} {d : σ}

theorem ok_of_forM {α ε : Type} {f : α → Except ε Unit} {xs : List α} (hall : xs.forM f = .ok ())
    {x : α} (hx : x ∈ xs) : f x = .ok () := by
  induction xs with
  | nil => cases hx
  | cons y ys ih =>
    cases hy : f y with
    | error e =>
      have hfail : (y :: ys).forM f = .error e := by
        show (do f y; ys.forM f) = _
        rw [hy]
        rfl
      rw [hfail] at hall
      cases hall
    | ok u =>
      have hrest : (y :: ys).forM f = ys.forM f := by
        show (do f y; ys.forM f) = _
        rw [hy]
        rfl
      rcases List.mem_cons.mp hx with rfl | hmem
      · exact hy
      · exact ih (hrest ▸ hall) hmem

theorem validateFileNameNoTraversal_empty (windows : Bool) :
    validateFileNameNoTraversal windows windows "" = .ok () := by
  cases windows <;> simp [validateFileNameNoTraversal, asBytes, pieces, hasDriveLetter]

theorem joinValidatedPath_ok {base name path : String}
    (hj : joinValidatedPath h base name d = .ok path) :
    path = join h base name := by
  unfold joinValidatedPath at hj
  split at hj
  · cases hj
  · split at hj
    · cases hj
    · exact (Except.ok.inj hj).symm

theorem resolveEntryPath_some {base name path : String}
    (hr : job.resolveEntryPath h base name d = some path) : path = join h base name := by
  unfold resolveEntryPath at hr
  split at hr
  · cases hj : joinValidatedPath h base name d with
    | error e =>
      rw [hj] at hr
      cases hr
    | ok path' =>
      rw [hj] at hr
      cases hr
      exact joinValidatedPath_ok hj
  · exact (Option.some.inj hr).symm

theorem setFiles_ok {files : List FileEntry} {job' : TransferJob φ}
    (hset : job.setFiles h files d = (.ok (), job')) :
    job' = { job with totalSize := (files.map (·.size)).sum, files := files } := by
  unfold setFiles at hset
  split at hset
  · cases hset
  · dsimp only at hset
    split at hset
    · cases hset
    · exact (congrArg Prod.snd hset).symm

theorem setFiles_error {files : List FileEntry} {e : String}
    (hset : (job.setFiles h files d).1 = .error e) : (job.setFiles h files d).2 = job := by
  unfold setFiles at *
  split
  · rfl
  · rename_i hnames
    rw [hnames] at hset
    dsimp only at hset ⊢
    split
    · rfl
    · rename_i hlinks
      rw [hlinks] at hset
      cases hset

/-- The file a job works on when it publishes or gives up. -/
theorem currentPath_some {entry : FileEntry} {path : String}
    (hc : job.currentPath h d = some (entry, path)) :
    ∃ p, job.jobType = .generic ∧ job.dataSource = .filePath p ∧
      job.files[fileIndex job.fileNum]? = some entry ∧ path = join h p entry.name := by
  unfold currentPath at hc
  split at hc
  · rename_i p htype hsrc
    split at hc
    · rename_i entry' hentry
      obtain ⟨path', hres, hpair⟩ := Option.map_eq_some_iff.mp hc
      cases hpair
      exact ⟨p, htype, hsrc, hentry, resolveEntryPath_some hres⟩
    · cases hc
  · cases hc

theorem currentPath_of_valid {p : String} {entry : FileEntry} (hgen : job.jobType = .generic)
    (hp : job.dataSource = .filePath p) (hentry : job.files[fileIndex job.fileNum]? = some entry)
    (hvalid : joinValidatedPath h p entry.name d = .ok (join h p entry.name)) :
    job.currentPath h d = some (entry, join h p entry.name) := by
  unfold currentPath resolveEntryPath
  rw [hgen, hp]
  dsimp only
  rw [hentry]
  dsimp only
  rw [hvalid]
  rfl

theorem modifyTime_none (hc : job.currentPath h d = none) : job.modifyTime h d = d := by
  unfold modifyTime
  rw [hc]

/-- What every call leaves as it is. -/
structure SameTask (job job' : TransferJob φ) : Prop where
  id : job'.id = job.id
  jobType : job'.jobType = job.jobType
  dataSource : job'.dataSource = job.dataSource
  files : job'.files = job.files

theorem SameTask.refl (job : TransferJob φ) : SameTask job job := ⟨rfl, rfl, rfl, rfl⟩

theorem SameTask.trans {a b c : TransferJob φ} (hab : SameTask a b) (hbc : SameTask b c) :
    SameTask a c :=
  ⟨hbc.id.trans hab.id, hbc.jobType.trans hab.jobType, hbc.dataSource.trans hab.dataSource,
    hbc.files.trans hab.files⟩

theorem writeData_sameTask (block : FileTransferBlock) (job : TransferJob φ) (d : σ) :
    SameTask job (job.writeData h block d).2.1 := by
  unfold writeData
  dsimp only
  split
  · exact SameTask.refl job
  · split
    · exact SameTask.refl job
    · exact ⟨rfl, rfl, rfl, rfl⟩
  · exact ⟨rfl, rfl, rfl, rfl⟩

theorem openTarget_sameTask (p : String) (block : FileTransferBlock) (job : TransferJob φ)
    (d : σ) : SameTask job (job.openTarget h p block d).2.1 := by
  unfold openTarget
  split
  · exact SameTask.refl job
  · rename_i entry _
    split
    · dsimp only
      split
      · exact SameTask.refl job
      · rename_i d' _
        rcases openEntry_cases h p entry { job with fileNum := block.fileNum } d' with
          ⟨_, _, hj⟩ | ⟨_, _, hj⟩ <;>
          · rw [hj]
            exact ⟨rfl, rfl, rfl, rfl⟩
    · exact SameTask.refl job

theorem deliver_sameTask (block : FileTransferBlock) {p : String}
    (hp : job.dataSource = .filePath p) : SameTask job (deliver h (job, d) block).1 := by
  unfold deliver
  by_cases hid : block.id = job.id
  · have h1 := openTarget_sameTask (h := h) p block job d
    cases hopen : (job.openTarget h p block d).1 with
    | error e =>
      rw [write_of_open_error h d block hp hid hopen]
      exact h1
    | ok u =>
      rw [write_of_open h d block hp hid hopen]
      exact h1.trans (writeData_sameTask block _ _)
  · rw [write_wrong_id h d block hid]
    exact SameTask.refl job

theorem confirm_sameTask {r : FileTransferSendConfirmRequest} {job' : TransferJob φ}
    {d' : σ} (hc : job.confirm h r d = some (job', d')) : SameTask job job' := by
  unfold confirm at hc
  split at hc
  · cases hc
    exact SameTask.refl job
  · split at hc
    · cases hc
      exact ⟨rfl, rfl, rfl, rfl⟩
    · cases hc
      exact ⟨rfl, rfl, rfl, rfl⟩
    · split at hc
      · unfold setStreamOffset at hc
        repeat' split at hc
        all_goals
          cases hc
          try exact ⟨rfl, rfl, rfl, rfl⟩
      · cases hc
        exact ⟨rfl, rfl, rfl, rfl⟩
    · cases hc
      exact SameTask.refl job

end AnyDisk

/-! ## Publishing and giving up -/

variable {κ : Type} [DecidableEq κ] {h : JobHost (Disk κ) Nat} {key : String → κ}
  {job : TransferJob Nat} {d : Disk κ}

theorem modifyTime_eq (hfs : h.fs = Disk.fileSystem key) {entry : FileEntry} {path : String}
    (hc : job.currentPath h d = some (entry, path)) :
    job.modifyTime h d = ((Disk.fileSystem key).setFileMtime path entry.modifiedTime
      ((d.remove (key (digestPath path))).2.rename (key (downloadPath path)) (key path)).2).2 := by
  unfold modifyTime
  rw [hc, hfs]
  rfl

theorem modifyTime_within (hfs : h.fs = Disk.fileSystem key) (hd : d.Sound) {entry : FileEntry}
    {path : String} (hc : job.currentPath h d = some (entry, path)) :
    Disk.Within [key (digestPath path), key (downloadPath path), key path] d
      (job.modifyTime h d) := by
  have h1 := Disk.remove_within (key (digestPath path)) hd
  have h2 := Disk.rename_within (key (downloadPath path)) (key path) h1.sound
  have h3 := Disk.setFileMtime_within key path entry.modifiedTime h2.sound
  rw [modifyTime_eq hfs hc]
  exact ((h1.trans h2).trans h3).mono (by simp)

/-- Whatever is published, no directory comes or goes. -/
theorem modifyTime_sound (hfs : h.fs = Disk.fileSystem key) (hd : d.Sound) :
    (job.modifyTime h d).Sound ∧
      ∀ q, (job.modifyTime h d).names q = some .dir ↔ d.names q = some .dir := by
  cases hc : job.currentPath h d with
  | none =>
    rw [modifyTime_none hc]
    exact ⟨hd, fun _ => Iff.rfl⟩
  | some ep =>
    have hw := modifyTime_within hfs hd hc
    exact ⟨hw.sound, hw.dirs⟩

/-- There is nothing to publish, or it cannot take its place. -/
theorem modifyTime_unpublished (hfs : h.fs = Disk.fileSystem key) (hd : d.Sound)
    {entry : FileEntry} {path : String} (hc : job.currentPath h d = some (entry, path))
    (hno : d.content (key (downloadPath path)) = none ∨ d.names (key path) = some .dir) :
    Disk.Within [key (digestPath path)] d (job.modifyTime h d) ∧
      (job.modifyTime h d).content (key (digestPath path)) = none := by
  have h1 := Disk.remove_within (key (digestPath path)) hd
  have hrename : ((d.remove (key (digestPath path))).2.rename (key (downloadPath path))
      (key path)).2 = (d.remove (key (digestPath path))).2 := by
    rcases hno with hnone | hdir
    · apply Disk.rename_of_content_none
      by_cases heq : key (downloadPath path) = key (digestPath path)
      · rw [heq]
        exact Disk.content_remove _ d
      · rw [(h1.untouched _ (by simpa using heq)).content]
        exact hnone
    · apply Disk.rename_onto_dir
      exact (h1.dirs _).mpr hdir
  have h3 := Disk.setFileMtime_within key path entry.modifiedTime h1.sound
  rw [modifyTime_eq hfs hc, hrename]
  refine ⟨(h1.trans h3).mono (by simp), ?_⟩
  rw [(h3.untouched _ (by simp)).content]
  exact Disk.content_remove _ d

theorem removeDownloadFile_within (hfs : h.fs = Disk.fileSystem key) (hd : d.Sound)
    {entry : FileEntry} {path : String} (hc : job.currentPath h d = some (entry, path)) :
    Disk.Within [key (downloadPath path), key (digestPath path)] d
      (job.removeDownloadFile h d) := by
  have h1 := Disk.remove_within (key (downloadPath path)) hd
  have h2 := Disk.remove_within (key (digestPath path)) h1.sound
  have heq : job.removeDownloadFile h d =
      ((d.remove (key (downloadPath path))).2.remove (key (digestPath path))).2 := by
    unfold removeDownloadFile
    rw [hc, hfs]
    rfl
  rw [heq]
  exact h1.trans h2

/-! ## Opening a target -/

theorem removeOldDigest_within (hfs : h.fs = Disk.fileSystem key) (hd : d.Sound) (dp : String) :
    Disk.Within [key dp] d (removeOldDigest h (some dp) d).2 := by
  unfold removeOldDigest
  dsimp only
  split
  · rw [hfs]
    exact Disk.remove_within (key dp) hd
  · exact Disk.Within.refl _ hd

/-- A digest can be removed unless it is a directory. -/
theorem removeOldDigest_ok (hfs : h.fs = Disk.fileSystem key) {dp : String}
    (hdp : d.names (key dp) ≠ some .dir) : (removeOldDigest h (some dp) d).1 = .ok () := by
  unfold removeOldDigest
  dsimp only
  rw [hfs, Disk.pathExists_eq]
  cases hn : d.names (key dp) with
  | none => rfl
  | some n =>
    cases n with
    | file i => exact congrArg Prod.fst (Disk.remove_file hn)
    | dir => exact absurd hn hdp

/-- Without links a path is valid or not, whatever is on the disk. -/
theorem validateComponents_disk (hfs : h.fs = Disk.fileSystem key) (d d' : Disk κ)
    (current : String) (components : List PathComponent) :
    validateComponents h d current components = validateComponents h d' current components := by
  have hlink (d : Disk κ) (path : String) : h.fs.symlinkMetadata path d = .found false ∨
      h.fs.symlinkMetadata path d = .notFound := by
    rw [hfs]
    simp only [Disk.fileSystem]
    cases d.names (key path) with
    | none => exact .inr rfl
    | some n => exact .inl rfl
  induction components generalizing current with
  | nil => rfl
  | cons c rest ih =>
    cases c with
    | normal seg =>
      simp only [validateComponents]
      rcases hlink d (pathJoin h.windows current seg) with h1 | h1 <;>
        rcases hlink d' (pathJoin h.windows current seg) with h2 | h2 <;>
        · rw [h1, h2]
          exact ih _
    | curDir => exact ih current
    | parentDir => rfl
    | rootDir => rfl
    | drive => rfl

/-- The names that `set_files` accepts are good for the disk at any later time. -/
theorem joinValidatedPath_of_setFiles (hfs : h.fs = Disk.fileSystem key) {p : String}
    (hp : job.dataSource = .filePath p) {files : List FileEntry} {d0 : Disk κ}
    {job' : TransferJob Nat} (hset : job.setFiles h files d0 = (.ok (), job')) {entry : FileEntry}
    (hmem : entry ∈ files) (d : Disk κ) :
    joinValidatedPath h p entry.name d = .ok (join h p entry.name) := by
  unfold setFiles at hset
  rw [hp] at hset
  cases hnames : validateTransferFileNames h.windows h.windows (files.map (·.name)) with
  | error e =>
    rw [hnames] at hset
    cases hset
  | ok u =>
    rw [hnames] at hset
    dsimp only at hset
    cases hlinks : files.forM fun f => validateNoSymlinkComponents h p f.name d0 with
    | error e =>
      rw [hlinks] at hset
      cases hset
    | ok u' =>
      have hname : validateFileNameNoTraversal h.windows h.windows entry.name = .ok () := by
        unfold validateTransferFileNames at hnames
        have hin : entry.name ∈ files.map (·.name) := List.mem_map_of_mem hmem
        split at hnames
        · rename_i hsingle
          rw [hsingle] at hin
          rw [List.mem_singleton.mp hin]
          exact validateFileNameNoTraversal_empty h.windows
        · have hentry := ok_of_forM hnames hin
          split at hentry
          · cases hentry
          · exact hentry
      have hlink : validateNoSymlinkComponents h p entry.name d = .ok () := by
        have hentry := ok_of_forM hlinks hmem
        unfold validateNoSymlinkComponents at hentry ⊢
        split at hentry
        · rename_i hempty
          rw [if_pos hempty]
        · rename_i hempty
          rw [if_neg hempty, validateComponents_disk hfs d d0]
          exact hentry
      unfold joinValidatedPath
      rw [hname, hlink]

/-- A target that can be opened is: empty, and open at its start. -/
theorem openEntry_ok (hfs : h.fs = Disk.fileSystem key) (hd : d.Sound) {p : String}
    {entry : FileEntry} (hgen : job.jobType = .generic)
    (hvalid : joinValidatedPath h p entry.name d = .ok (join h p entry.name))
    (hdl : d.names (key (downloadPath (join h p entry.name))) ≠ some .dir)
    (hdg : d.names (key (digestPath (join h p entry.name))) ≠ some .dir)
    (hne : key (downloadPath (join h p entry.name)) ≠ key (digestPath (join h p entry.name))) :
    ∃ f d', job.openEntry h p entry d = (.ok (),
        { job with dataStream := some (.fileStream f (fileIndex job.fileNum)) }, d') ∧
      Disk.Within [key (digestPath (join h p entry.name)),
        key (downloadPath (join h p entry.name))] d d' ∧
      Disk.OpenAt d' f (key (downloadPath (join h p entry.name))) 0 ∧
      d'.content (key (downloadPath (join h p entry.name))) = some [] := by
  have h1 := removeOldDigest_within hfs hd (digestPath (join h p entry.name))
  have hok := removeOldDigest_ok hfs hdg
  rcases hrem : removeOldDigest h (some (digestPath (join h p entry.name))) d with ⟨r, d1⟩
  rw [hrem] at h1 hok
  dsimp only at h1 hok
  subst hok
  have hdl1 : d1.names (key (downloadPath (join h p entry.name))) ≠ some .dir :=
    fun hdir => hdl ((h1.dirs _).mp hdir)
  obtain ⟨d2, hopen, h2, ho, hempty⟩ := Disk.openNew_file true h1.sound hdl1
  have h3 := Disk.withFile_within (key (digestPath (join h p entry.name)))
    (h.digestToJson job.digest).toUTF8.toList h2.sound
  have hdl3 : key (downloadPath (join h p entry.name)) ∉
      [key (digestPath (join h p entry.name))] := by simpa using hne
  refine ⟨d1.nextHandle, _, ?_, ((h1.trans h2).trans h3).mono (by simp), ho.of_within h3 hdl3, ?_⟩
  · have hcreate : h.fs.create (downloadPath (join h p entry.name)) d1 =
        (.ok d1.nextHandle, d2) := by
      rw [hfs]
      exact hopen
    have hpar : (h.fs.createParents (join h p entry.name) d).2 = d := by rw [hfs]; rfl
    have hjson : (h.fs.writeFile (digestPath (join h p entry.name))
        (h.digestToJson job.digest) d2).2 = d2.withFile (key (digestPath (join h p entry.name)))
          (h.digestToJson job.digest).toUTF8.toList := by
      rw [hfs]
      rfl
    unfold openEntry targetPaths
    rw [hgen, hvalid]
    dsimp only
    rw [hpar, hrem]
    dsimp only
    rw [hcreate]
    dsimp only
    rw [hjson]
  · rw [(h3.untouched _ hdl3).content]
    simpa using hempty

/-! ## Writing an entry -/

/-- The job writes entry `k`, whose download holds `bs` so far, at the position `pos`. -/
structure Writing (h : JobHost (Disk κ) Nat) (key : String → κ) (p : String) (entry : FileEntry)
    (k pos : Nat) (bs : Bytes) (s : TransferJob Nat × Disk κ) : Prop where
  source : s.1.dataSource = .filePath p
  index : fileIndex s.1.fileNum = k
  isEntry : s.1.files[k]? = some entry
  sound : s.2.Sound
  stream : ∃ f n, s.1.dataStream = some (.fileStream f n) ∧
    Disk.OpenAt s.2 f (key (downloadPath (join h p entry.name))) pos
  content : s.2.content (key (downloadPath (join h p entry.name))) = some bs
  le : pos ≤ bs.length

/-- The block goes to the download, at the position of the stream. -/
theorem writeData_writing (hfs : h.fs = Disk.fileSystem key) {p : String} {entry : FileEntry}
    {k pos : Nat} {bs : Bytes} {s : TransferJob Nat × Disk κ}
    (hw : Writing h key p entry k pos bs s) (block : FileTransferBlock) :
    (s.1.writeData h block s.2).1 = .ok () ∧
      Writing h key p entry k (pos + (decoded h block).length)
        (Disk.overwrite bs (decoded h block) pos) (s.1.writeData h block s.2).2 ∧
      (s.1.writeData h block s.2).2.2.names = s.2.names ∧
      ∀ q, q ≠ key (downloadPath (join h p entry.name)) →
        Disk.Untouched q s.2 (s.1.writeData h block s.2).2.2 := by
  obtain ⟨f, n, hs, ho⟩ := hw.stream
  obtain ⟨hres, hst, hstream, hnum, _, hsource⟩ := writeData_fileStream h s.2 block hs
  have hdisk : h.fs.writeAll f (decoded h block) s.2 = s.2.writeAll f (decoded h block) := by
    rw [hfs]
    rfl
  rw [hdisk] at hres hst
  obtain ⟨hok, ho', hcont, hrest⟩ :=
    Disk.writeAll_openAt (decoded h block) hw.sound ho hw.content hw.le
  obtain ⟨hsound, hnames, _⟩ := Disk.writeAll_frame f (decoded h block) hw.sound
  have hsame : SameTask s.1 (s.1.writeData h block s.2).2.1 := writeData_sameTask block s.1 s.2
  refine ⟨hres.trans hok, ⟨hsource.trans hw.source, ?_, ?_, ?_, ?_, ?_, ?_⟩, ?_, ?_⟩
  · rw [hnum]
    exact hw.index
  · rw [hsame.files]
    exact hw.isEntry
  · rw [hst]
    exact hsound
  · rw [hstream, hst]
    exact ⟨f, n, hs, ho'⟩
  · rw [hst]
    exact hcont
  · exact Disk.length_overwrite_ge _ hw.le
  · rw [hst]
    exact hnames
  · rw [hst]
    exact hrest

omit [DecidableEq κ] in
/-- One more block for the entry. -/
theorem write_writing {p : String} {entry : FileEntry} {k pos : Nat} {bs : Bytes}
    {s : TransferJob Nat × Disk κ} (hw : Writing h key p entry k pos bs s)
    {block : FileTransferBlock} (hid : block.id = s.1.id) (hk : fileIndex block.fileNum = k) :
    s.1.write h block s.2 = s.1.writeData h block s.2 := by
  obtain ⟨f, n, hs, _⟩ := hw.stream
  have honFile : OnFile p s.1 := by
    refine ⟨hw.source, fun s' hs' => ?_⟩
    rw [hs] at hs'
    cases hs'
    exact ⟨f, n, rfl⟩
  refine write_of_continues h s.2 honFile ⟨hid, ?_, hk.trans hw.index.symm, by rw [hs]; rfl⟩
  rw [hk]
  exact (List.getElem?_eq_some_iff.mp hw.isEntry).1

/-- The bytes of a list of blocks. -/
def bytesOf (h : JobHost (Disk κ) Nat) (blocks : List FileTransferBlock) : Bytes :=
  blocks.flatMap (decoded h)

/-- From `s` to `s'` the job has kept its task, and on the disk nothing happened outside the names
    of `ks`. -/
structure Works (ks : List κ) (s s' : TransferJob Nat × Disk κ) : Prop where
  sameTask : SameTask s.1 s'.1
  dirs : ∀ q, s'.2.names q = some .dir ↔ s.2.names q = some .dir
  untouched : ∀ q, q ∉ ks → Disk.Untouched q s.2 s'.2

/-- Any number of blocks for the entry. -/
theorem run_writing (hfs : h.fs = Disk.fileSystem key) {p : String} {entry : FileEntry} {k : Nat}
    (blocks : List FileTransferBlock) :
    ∀ {pos : Nat} {bs : Bytes} {s : TransferJob Nat × Disk κ},
      Writing h key p entry k pos bs s →
      (∀ b ∈ blocks, b.id = s.1.id ∧ fileIndex b.fileNum = k) →
      Writing h key p entry k (pos + (bytesOf h blocks).length)
          (Disk.overwrite bs (bytesOf h blocks) pos) (run (deliver h) s blocks) ∧
        Works [key (downloadPath (join h p entry.name))] s (run (deliver h) s blocks) := by
  induction blocks with
  | nil =>
    intro pos bs s hw _
    refine ⟨?_, SameTask.refl s.1, fun _ => Iff.rfl, fun q _ => Disk.Untouched.refl q s.2⟩
    simpa [bytesOf, Disk.overwrite_nil hw.le] using hw
  | cons b blocks ih =>
    intro pos bs s hw hblocks
    obtain ⟨hid, hk⟩ := hblocks b List.mem_cons_self
    obtain ⟨_, hw1, hnames, hrest⟩ := writeData_writing hfs hw b
    have hstep : deliver h s b = (s.1.writeData h b s.2).2 := by
      unfold deliver
      rw [write_writing hw hid hk]
    have hsame : SameTask s.1 (deliver h s b).1 := by
      rw [hstep]
      exact writeData_sameTask b s.1 s.2
    rw [← hstep] at hw1 hnames hrest
    obtain ⟨hw2, hworks⟩ := ih hw1 fun b' hb' => by
      rw [hsame.id]
      exact hblocks b' (List.mem_cons_of_mem b hb')
    rw [run_cons]
    refine ⟨?_, hsame.trans hworks.sameTask, fun q => ?_, fun q hq => ?_⟩
    · rw [Disk.overwrite_append _ _ hw.le, Nat.add_assoc, ← List.length_append] at hw2
      exact hw2
    · rw [hworks.dirs, hnames]
    · exact (hrest q (by simpa using hq)).trans (hworks.untouched q hq)

/-- The first block of an entry, when its target can be opened. `d1` is the disk after
    `modify_time` for the entry before it. -/
theorem deliver_target (hfs : h.fs = Disk.fileSystem key) {p : String} {entry : FileEntry}
    (hp : job.dataSource = .filePath p) (hgen : job.jobType = .generic)
    {block : FileTransferBlock} (hid : block.id = job.id)
    (hentry : job.files[fileIndex block.fileNum]? = some entry)
    (hnew : fileIndex block.fileNum ≠ fileIndex job.fileNum ∨ job.dataStream = none)
    {d1 : Disk κ} (hd1 : job.modifyTime h d = d1) (hsound : d1.Sound)
    (hvalid : joinValidatedPath h p entry.name d1 = .ok (join h p entry.name))
    (hdl : d1.names (key (downloadPath (join h p entry.name))) ≠ some .dir)
    (hdg : d1.names (key (digestPath (join h p entry.name))) ≠ some .dir)
    (hne : key (downloadPath (join h p entry.name)) ≠ key (digestPath (join h p entry.name))) :
    (job.write h block d).1 = .ok () ∧
      Writing h key p entry (fileIndex block.fileNum) (decoded h block).length (decoded h block)
        (deliver h (job, d) block) ∧
      Works [key (digestPath (join h p entry.name)), key (downloadPath (join h p entry.name))]
        (job, d1) (deliver h (job, d) block) := by
  obtain ⟨f, d2, hopen, hw2, ho, hempty⟩ := openEntry_ok hfs hsound
    (show { job with fileNum := block.fileNum }.jobType = .generic from hgen) hvalid hdl hdg hne
  have htarget : job.openTarget h p block d = (.ok (), { job with
      fileNum := block.fileNum
      dataStream := some (.fileStream f (fileIndex block.fileNum)) }, d2) := by
    have hsync : job.syncStream h d1 = (.ok (), d1) := by
      unfold syncStream
      rw [hfs]
      split <;> rfl
    unfold openTarget
    rw [hentry]
    dsimp only
    rw [if_pos (hnew.imp (fun hn => hn) fun hn => by simp [hn]), hd1, hsync]
    dsimp only
    rw [hopen]
  have hwriting : Writing h key p entry (fileIndex block.fileNum) 0 [] ({ job with
      fileNum := block.fileNum
      dataStream := some (.fileStream f (fileIndex block.fileNum)) }, d2) :=
    ⟨hp, rfl, hentry, hw2.sound, ⟨f, _, rfl, ho⟩, hempty, Nat.le_refl 0⟩
  obtain ⟨hok, hw3, hnames, hrest⟩ := writeData_writing hfs hwriting block
  have hwrite := write_of_open h d block hp hid (by rw [htarget])
  rw [htarget] at hwrite
  dsimp only at hwrite hok hw3 hnames hrest
  unfold deliver
  dsimp only
  rw [hwrite]
  refine ⟨hok, ?_, ?_, fun q => ?_, fun q hq => ?_⟩
  · have hover : Disk.overwrite [] (decoded h block) 0 = decoded h block := by
      simp [Disk.overwrite_eq]
    rw [hover, Nat.zero_add] at hw3
    exact hw3
  · have hsame := writeData_sameTask (h := h) block { job with
      fileNum := block.fileNum
      dataStream := some (.fileStream f (fileIndex block.fileNum)) } d2
    exact ⟨hsame.id, hsame.jobType, hsame.dataSource, hsame.files⟩
  · rw [hnames]
    exact hw2.dirs q
  · refine (hw2.untouched q hq).trans (hrest q ?_)
    rintro rfl
    exact hq (by simp)

theorem plainHost_side (path : String) : downloadPath path ≠ digestPath path := by
  intro heq
  have hlen : ".download".length = ".digest".length := by
    simpa [downloadPath, digestPath, String.length_append] using congrArg String.length heq
  exact absurd hlen (by decide +kernel)

end TransferJob

end LuodaRemote
