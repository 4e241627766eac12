/-
  When a transfer changes the files it is meant to replace.

  A write job collects an entry in `name.download` and moves it to `name` in `modify_time`.
  `write` calls `modify_time` for the current entry whenever it has to open a target, also
  for the first block of a job, and `Done` calls it for whatever entry the job stands at.
  Nobody asks whether the entry is complete, or whether the download is one of this job.
  `destinations_kept` says when that does no harm, over every run of calls on one job: no
  call publishes an entry that is not complete, and the names of the list keep out of each
  other's way.

  The disk is the flat one of `Lib.Disk`, with any idea of which paths name the same file.
-/
import LuodaRemote.Transfer.OnDisk

namespace LuodaRemote
open Lib

namespace TransferJob

/-! ## Calls on one job -/

section AnyDisk

variable {σ φ : Type} {h : JobHost σ φ} {job : TransferJob φ} {d : σ}

/-- What the receivers of a transfer call on a write job. -/
inductive Call where
  | write (block : FileTransferBlock)
  /-- `Done` arrived. -/
  | modifyTime
  /-- The job is cancelled. -/
  | removeDownloadFile
  | confirm (r : FileTransferSendConfirmRequest)
  | setDigest (size modified : Nat)

/-- A panic of `confirm` leaves the job to its fate. -/
def call (h : JobHost σ φ) (s : TransferJob φ × σ) : Call → TransferJob φ × σ
  | .write block => deliver h s block
  | .modifyTime => (s.1, s.1.modifyTime h s.2)
  | .removeDownloadFile => (s.1, s.1.removeDownloadFile h s.2)
  | .confirm r => (s.1.confirm h r s.2).getD s
  | .setDigest size modified => (s.1.setDigest size modified, s.2)

/-- The calls on a job so far, each with the state it found. -/
abbrev History (σ φ : Type) := List ((TransferJob φ × σ) × Call)

/-- The block that a sender ends an entry with. -/
def Ends (block : FileTransferBlock) : Prop := block.data = [] ∧ block.compressed = false

/-- All blocks of entry `k` were written: the one that ends it and, before it, no block for the
    entry was refused. -/
def Complete (h : JobHost σ φ) (past : History σ φ) (k : Nat) : Prop :=
  ∃ before s block after, past = before ++ (s, .write block) :: after ∧
    fileIndex block.fileNum = k ∧ Ends block ∧ (s.1.write h block s.2).1 = .ok () ∧
    ∀ s' block', (s', Call.write block') ∈ before → fileIndex block'.fileNum = k →
      (s'.1.write h block' s'.2).1 = .ok ()

theorem Complete.append {past : History σ φ} {k : Nat} (hc : Complete h past k)
    (more : History σ φ) : Complete h (past ++ more) k := by
  obtain ⟨before, s, block, after, rfl, hrest⟩ := hc
  exact ⟨before, s, block, after ++ more, by simp, hrest⟩

/-- The block opens a target, after `modify_time` for the entry before it. -/
def NeedsTarget (block : FileTransferBlock) (job : TransferJob φ) : Prop :=
  block.id = job.id ∧ fileIndex block.fileNum < job.files.length ∧
    (fileIndex block.fileNum ≠ fileIndex job.fileNum ∨ job.dataStream = none)

/-- The call runs `modify_time` on the current entry. -/
def Publishes (job : TransferJob φ) : Call → Prop
  | .write block => NeedsTarget block job
  | .modifyTime => True
  | _ => False

theorem call_sameTask (hp : ∃ p, job.dataSource = .filePath p) (c : Call) :
    SameTask job (call h (job, d) c).1 := by
  obtain ⟨p, hp⟩ := hp
  cases c with
  | write block => exact deliver_sameTask block hp
  | modifyTime => exact SameTask.refl job
  | removeDownloadFile => exact SameTask.refl job
  | confirm r =>
    cases hc : job.confirm h r d with
    | none =>
      simp only [call, hc, Option.getD_none]
      exact SameTask.refl job
    | some s =>
      simp only [call, hc, Option.getD_some]
      exact confirm_sameTask hc
  | setDigest size modified => exact ⟨rfl, rfl, rfl, rfl⟩

end AnyDisk

/-! ## What a method leaves alone -/

variable {κ : Type} {job : TransferJob Nat} {d : Disk κ}

/-- The stream of the job does not write to the file at `q`. -/
def StreamApart (job : TransferJob Nat) (d : Disk κ) (q : κ) : Prop :=
  ∀ f e, job.dataStream = some (.fileStream f e) → Disk.Apart d f q

theorem StreamApart.of_within {d' : Disk κ} {q : κ} {ks : List κ} (ha : StreamApart job d q)
    (hw : Disk.Within ks d d') (hq : q ∉ ks) : StreamApart job d' q :=
  fun f e hs => (ha f e hs).of_within hw hq

variable [DecidableEq κ] {h : JobHost (Disk κ) Nat} {key : String → κ}

/-- Opening the target of an entry touches its download and its digest. -/
theorem openEntry_within (hfs : h.fs = Disk.fileSystem key) (hd : d.Sound) (p : String)
    (entry : FileEntry) (hgen : job.jobType = .generic) :
    let path := join h p entry.name
    let ks := [key (digestPath path), key (downloadPath path)]
    Disk.Within ks d (job.openEntry h p entry d).2.2 ∧
      ∀ q, q ∉ ks → StreamApart job d q →
        StreamApart (job.openEntry h p entry d).2.1 (job.openEntry h p entry d).2.2 q := by
  unfold openEntry targetPaths
  rw [hgen]
  dsimp only
  cases hj : joinValidatedPath h p entry.name d with
  | error e => exact ⟨Disk.Within.refl _ hd, fun q _ ha => ha⟩
  | ok path =>
    obtain rfl := joinValidatedPath_ok hj
    have hpar : (h.fs.createParents (join h p entry.name) d).2 = d := by rw [hfs]; rfl
    dsimp only
    rw [hpar]
    have h1 := removeOldDigest_within hfs hd (digestPath (join h p entry.name))
    rcases hrem : removeOldDigest h (some (digestPath (join h p entry.name))) d with ⟨r, d1⟩
    rw [hrem] at h1
    dsimp only at h1
    cases r with
    | error e =>
      have hw := h1.mono (List.subset_append_left _ [key (downloadPath (join h p entry.name))])
      exact ⟨hw, fun q hq ha => ha.of_within hw hq⟩
    | ok u =>
      dsimp only
      rw [hfs]
      have hcreate : (Disk.fileSystem key).create (downloadPath (join h p entry.name)) d1 =
          d1.openNew (key (downloadPath (join h p entry.name))) true := rfl
      rw [hcreate]
      by_cases hdir : d1.names (key (downloadPath (join h p entry.name))) = some .dir
      · rw [Disk.openNew_dir true hdir]
        have hw := h1.mono
          (List.subset_append_left _ [key (downloadPath (join h p entry.name))])
        exact ⟨hw, fun q hq ha => ha.of_within hw hq⟩
      · obtain ⟨d2, hopen, h2, ho, _⟩ := Disk.openNew_file true h1.sound hdir
        have h3 := Disk.withFile_within (key (digestPath (join h p entry.name)))
          (h.digestToJson job.digest).toUTF8.toList h2.sound
        rw [hopen]
        refine ⟨((h1.trans h2).trans h3).mono (by simp), ?_⟩
        -- The new stream writes to the download.
        rintro q hq - f e hs
        obtain ⟨rfl, _⟩ : d1.nextHandle = f ∧ fileIndex job.fileNum = e := by simpa using hs
        simp only [List.mem_cons, List.not_mem_nil, or_false, not_or] at hq
        exact (ho.apart h2.sound hq.2).of_within h3 (by simpa using hq.1)

/-- A block goes to the stream and nowhere else. -/
theorem writeData_untouched (hfs : h.fs = Disk.fileSystem key) (hd : d.Sound)
    (block : FileTransferBlock) {q : κ} (ha : StreamApart job d q) :
    (job.writeData h block d).2.2.Sound ∧ Disk.Untouched q d (job.writeData h block d).2.2 ∧
      StreamApart (job.writeData h block d).2.1 (job.writeData h block d).2.2 q := by
  cases hs : job.dataStream with
  | none =>
    have heq : (job.writeData h block d).2 = (job, d) := by
      unfold writeData
      rw [hs]
    rw [heq]
    exact ⟨hd, Disk.Untouched.refl q d, ha⟩
  | some s =>
    cases s with
    | fileStream f e =>
      obtain ⟨_, hst, hstream, _, _⟩ := writeData_fileStream h d block hs
      obtain ⟨hsound, hnames, hnext, hinode, hwrite, hrest⟩ :=
        Disk.writeAll_frame f (decoded h block) hd
      have hout : (job.writeData h block d).2.2 = (d.writeAll f (decoded h block)).2 := by
        rw [hst, hfs]
        rfl
      rw [hout]
      refine ⟨hsound, hrest q (ha f e hs).2, fun f' e' hs' => ?_⟩
      rw [hstream, hs] at hs'
      cases hs'
      refine ⟨?_, ?_⟩
      · rw [hnext]
        exact (ha f e hs).1
      · rw [hinode, hwrite, hnames]
        exact (ha f e hs).2
    | bufStream data pos =>
      have heq : (job.writeData h block d).2.2 = d ∧ ∃ data' pos',
          (job.writeData h block d).2.1.dataStream = some (.bufStream data' pos') := by
        unfold writeData
        rw [hs]
        exact ⟨rfl, _, _, rfl⟩
      obtain ⟨hout, data', pos', hstream⟩ := heq
      rw [hout]
      refine ⟨hd, Disk.Untouched.refl q d, fun f' e' hs' => ?_⟩
      rw [hstream] at hs'
      cases hs'

/-- The file that `set_stream_offset` opens. -/
theorem openAtOffset_cases (hfs : h.fs = Disk.fileSystem key) (hd : d.Sound) (path : String) :
    (∃ e, openAtOffset h path d = (.error e, d)) ∨
    ∃ f d1, openAtOffset h path d = (.ok f, d1) ∧
      Disk.Within [key (downloadPath path)] d d1 ∧
      ∀ q, q ≠ key (downloadPath path) → Disk.Apart d1 f q := by
  unfold openAtOffset
  rw [hfs]
  split
  · have hopen : (Disk.fileSystem key).openWrite (downloadPath path) d =
        d.openNew (key (downloadPath path)) false := rfl
    rw [hopen]
    by_cases hdir : d.names (key (downloadPath path)) = some .dir
    · exact .inl ⟨_, Disk.openNew_dir false hdir⟩
    · obtain ⟨d1, heq, hw, ho, _⟩ := Disk.openNew_file false hd hdir
      exact .inr ⟨_, d1, heq, hw, fun q hq => ho.apart hw.sound hq⟩
  · split
    · have hopen : (Disk.fileSystem key).openRead path d = d.openOld (key path) false := rfl
      rw [hopen]
      unfold Disk.openOld
      split
      · exact .inl ⟨_, rfl⟩
      · rename_i i _
        have hw := (Disk.newHandle_within i false hd).mono
          (List.nil_subset [key (downloadPath path)])
        refine .inr ⟨_, _, rfl, hw, fun q _ => ⟨Nat.lt_succ_self _, ?_⟩⟩
        simp [Disk.newHandle]
    · exact .inl ⟨_, rfl⟩

theorem setStreamOffset_untouched (hfs : h.fs = Disk.fileSystem key) (hd : d.Sound) {p : String}
    (hp : job.dataSource = .filePath p) {fileNum offset : Nat} {q : κ}
    (hq : ∀ entry, job.files[fileNum]? = some entry →
      q ≠ key (downloadPath (join h p entry.name)))
    (ha : StreamApart job d q) {job' : TransferJob Nat} {d' : Disk κ}
    (hset : job.setStreamOffset h fileNum offset d = some (job', d')) :
    d'.Sound ∧ Disk.Untouched q d d' ∧ StreamApart job' d' q := by
  unfold setStreamOffset at hset
  rw [hp] at hset
  dsimp only at hset
  split at hset
  · cases hset
  · rename_i entry hentry
    split at hset
    · cases hset
      exact ⟨hd, Disk.Untouched.refl q d, ha⟩
    · rename_i path hres
      obtain rfl := resolveEntryPath_some hres
      rcases openAtOffset_cases hfs hd (join h p entry.name) with ⟨e, heq⟩ |
        ⟨f, d1, heq, hw, hapart⟩
      · rw [heq] at hset
        cases hset
        exact ⟨hd, Disk.Untouched.refl q d, ha⟩
      · rw [heq] at hset
        dsimp only at hset
        have hseek : h.fs.seek f offset d1 = (.ok (), d1.seek f offset) := by
          rw [hfs]
          rfl
        rw [hseek] at hset
        cases hset
        have hu := hw.untouched q (by simpa using hq entry hentry)
        refine ⟨Disk.seek_sound f offset hw.sound, ⟨hu.names, hu.contents⟩, ?_⟩
        intro f' e' hs'
        cases hs'
        obtain ⟨hlt, hno⟩ := hapart q (hq entry hentry)
        refine ⟨hlt, ?_⟩
        simpa [Disk.seek] using hno

/-- What a confirmation may touch is the download of the current entry. -/
theorem confirm_untouched (hfs : h.fs = Disk.fileSystem key) (hd : d.Sound) {p : String}
    (hp : job.dataSource = .filePath p) {q : κ}
    (hq : ∀ entry, job.files[fileIndex job.fileNum]? = some entry →
      q ≠ key (downloadPath (join h p entry.name)))
    (ha : StreamApart job d q) {r : FileTransferSendConfirmRequest} {job' : TransferJob Nat}
    {d' : Disk κ} (hc : job.confirm h r d = some (job', d')) :
    d'.Sound ∧ Disk.Untouched q d d' ∧ StreamApart job' d' q := by
  have hsame {job1 : TransferJob Nat}
      (hs : ∀ s, job1.dataStream = some s → job.dataStream = some s) :
      d.Sound ∧ Disk.Untouched q d d ∧ StreamApart job1 d q :=
    ⟨hd, Disk.Untouched.refl q d, fun f e hf => ha f e (hs _ hf)⟩
  unfold confirm at hc
  split at hc
  · cases hc
    exact hsame fun s hs => hs
  · rename_i hnum
    split at hc
    · cases hc
      exact hsame fun s hs => by cases hs
    · cases hc
      exact hsame fun s hs => hs
    · split at hc
      · have hnum' : job.fileNum = r.fileNum := not_not.mp hnum
        rw [← hnum'] at hc
        refine setStreamOffset_untouched (p := p) hfs hd ?_ ?_ ?_ hc
        · exact hp
        · exact hq
        · exact ha
      · cases hc
        exact hsame fun s hs => hs
    · cases hc
      exact hsame fun s hs => hs

/-- `q` is neither the download nor the digest of an entry. -/
def Aside (h : JobHost (Disk κ) Nat) (key : String → κ) (p : String) (files : List FileEntry)
    (q : κ) : Prop :=
  ∀ entry ∈ files, q ≠ key (downloadPath (join h p entry.name)) ∧
    q ≠ key (digestPath (join h p entry.name))

/-- `modify_time` leaves the file at `q` alone. -/
def Spares (h : JobHost (Disk κ) Nat) (key : String → κ) (job : TransferJob Nat) (d : Disk κ)
    (q : κ) : Prop :=
  ∀ entry path, job.currentPath h d = some (entry, path) →
    d.content (key (downloadPath path)) = none ∨ d.names (key path) = some .dir ∨ q ≠ key path

theorem modifyTime_spares (hfs : h.fs = Disk.fileSystem key) (hd : d.Sound) {p : String}
    (hp : job.dataSource = .filePath p) {q : κ} (hq : Aside h key p job.files q)
    (hsp : Spares h key job d q) :
    ∃ ks, Disk.Within ks d (job.modifyTime h d) ∧ q ∉ ks := by
  cases hc : job.currentPath h d with
  | none => exact ⟨[], by rw [modifyTime_none hc]; exact Disk.Within.refl _ hd, by simp⟩
  | some ep =>
    obtain ⟨entry, path⟩ := ep
    obtain ⟨p', _, hp', hentry, rfl⟩ := currentPath_some hc
    rw [hp] at hp'
    cases hp'
    obtain ⟨hdl, hdg⟩ := hq entry (List.mem_of_getElem? hentry)
    have hun (hno : d.content (key (downloadPath (join h p entry.name))) = none ∨
        d.names (key (join h p entry.name)) = some .dir) :
        ∃ ks, Disk.Within ks d (job.modifyTime h d) ∧ q ∉ ks :=
      ⟨_, (modifyTime_unpublished hfs hd hc hno).1, by simpa using hdg⟩
    rcases hsp _ _ hc with hnone | hdir | hne
    · exact hun (.inl hnone)
    · exact hun (.inr hdir)
    · refine ⟨_, modifyTime_within hfs hd hc, ?_⟩
      simp [hdg, hdl, hne]

theorem openTarget_untouched (hfs : h.fs = Disk.fileSystem key) (hd : d.Sound) {p : String}
    (hp : job.dataSource = .filePath p) (hgen : job.jobType = .generic)
    (block : FileTransferBlock) (hid : block.id = job.id) {q : κ}
    (hq : Aside h key p job.files q) (hsp : NeedsTarget block job → Spares h key job d q)
    (ha : StreamApart job d q) :
    (job.openTarget h p block d).2.2.Sound ∧
      Disk.Untouched q d (job.openTarget h p block d).2.2 ∧
      StreamApart (job.openTarget h p block d).2.1 (job.openTarget h p block d).2.2 q := by
  unfold openTarget
  split
  · exact ⟨hd, Disk.Untouched.refl q d, ha⟩
  · rename_i entry hentry
    split
    · rename_i hnew
      have hneeds : NeedsTarget block job :=
        ⟨hid, (List.getElem?_eq_some_iff.mp hentry).1, hnew.imp (fun hne => hne) fun hn => by
          simpa using hn⟩
      obtain ⟨ks, hw1, hq1⟩ := modifyTime_spares hfs hd hp hq (hsp hneeds)
      have hsync : job.syncStream h (job.modifyTime h d) = (.ok (), job.modifyTime h d) := by
        unfold syncStream
        rw [hfs]
        split <;> rfl
      dsimp only
      rw [hsync]
      dsimp only
      obtain ⟨hdl, hdg⟩ := hq entry (List.mem_of_getElem? hentry)
      obtain ⟨hw2, hkeep⟩ := openEntry_within hfs hw1.sound p entry
        (show { job with fileNum := block.fileNum }.jobType = .generic from hgen)
      have hq2 : q ∉ [key (digestPath (join h p entry.name)),
          key (downloadPath (join h p entry.name))] := by simp [hdl, hdg]
      exact ⟨hw2.sound, (hw1.untouched q hq1).trans (hw2.untouched q hq2),
        hkeep q hq2 (ha.of_within hw1 hq1)⟩
    · exact ⟨hd, Disk.Untouched.refl q d, ha⟩

theorem write_untouched (hfs : h.fs = Disk.fileSystem key) (hd : d.Sound) {p : String}
    (hp : job.dataSource = .filePath p) (hgen : job.jobType = .generic)
    (block : FileTransferBlock) {q : κ} (hq : Aside h key p job.files q)
    (hsp : NeedsTarget block job → Spares h key job d q) (ha : StreamApart job d q) :
    (deliver h (job, d) block).2.Sound ∧ Disk.Untouched q d (deliver h (job, d) block).2 ∧
      StreamApart (deliver h (job, d) block).1 (deliver h (job, d) block).2 q := by
  unfold deliver
  by_cases hid : block.id = job.id
  · obtain ⟨hs1, hu1, ha1⟩ := openTarget_untouched hfs hd hp hgen block hid hq hsp ha
    cases hopen : (job.openTarget h p block d).1 with
    | error e =>
      rw [write_of_open_error h d block hp hid hopen]
      exact ⟨hs1, hu1, ha1⟩
    | ok u =>
      rw [write_of_open h d block hp hid hopen]
      obtain ⟨hs2, hu2, ha2⟩ := writeData_untouched hfs hs1 block ha1
      exact ⟨hs2, hu1.trans hu2, ha2⟩
  · rw [write_wrong_id h d block hid]
    exact ⟨hd, Disk.Untouched.refl q d, ha⟩

/-- A call runs `modify_time` for an entry that is not complete, with a download to publish. -/
def PublishesEarly (h : JobHost (Disk κ) Nat) (key : String → κ)
    (x : (TransferJob Nat × Disk κ) × History (Disk κ) Nat) (c : Call) : Prop :=
  Publishes x.1.1 c ∧ ¬ Complete h x.2 (fileIndex x.1.1.fileNum) ∧
    ∃ entry path, x.1.1.currentPath h x.1.2 = some (entry, path) ∧
      (x.1.2.content (key (downloadPath path))).isSome ∧ x.1.2.names (key path) ≠ some .dir

/-- No entry is written where another one is kept, for good or for the time being. -/
def KeepApart (h : JobHost (Disk κ) Nat) (key : String → κ) (p : String)
    (files : List FileEntry) : Prop :=
  (∀ entry ∈ files, Aside h key p files (key (join h p entry.name))) ∧
    ∀ (j k : Nat) (ej ek : FileEntry), files[j]? = some ej → files[k]? = some ek →
      key (join h p ej.name) = key (join h p ek.name) → j = k

/-- The call leaves the destination of every entry that is not complete as it is. -/
def KeepsDestinations (h : JobHost (Disk κ) Nat) (key : String → κ) (p : String)
    (files : List FileEntry) (x : (TransferJob Nat × Disk κ) × History (Disk κ) Nat)
    (c : Call) : Prop :=
  ∀ (k : Nat) (entry : FileEntry), files[k]? = some entry → ¬ Complete h x.2 k →
    (call h x.1 c).2.content (key (join h p entry.name)) =
      x.1.2.content (key (join h p entry.name))

/-! ## Every run of calls -/

/-- The task of the job is the given one, and its stream keeps away from the destinations of the
    entries that are not complete. -/
structure OnTask (h : JobHost (Disk κ) Nat) (key : String → κ) (p : String)
    (files : List FileEntry) (x : (TransferJob Nat × Disk κ) × History (Disk κ) Nat) : Prop where
  generic : x.1.1.jobType = .generic
  source : x.1.1.dataSource = .filePath p
  sameFiles : x.1.1.files = files
  apart : ∀ (k : Nat) (entry : FileEntry), files[k]? = some entry → ¬ Complete h x.2 k →
    x.1.2.Sound ∧ StreamApart x.1.1 x.1.2 (key (join h p entry.name))

theorem onTask_spares {p : String} {files : List FileEntry}
    {x : (TransferJob Nat × Disk κ) × History (Disk κ) Nat} {c : Call} (hx : OnTask h key p files x)
    (hnames : KeepApart h key p files) (hno : ¬ PublishesEarly h key x c)
    (hpub : Publishes x.1.1 c) {k : Nat} {entry : FileEntry} (hk : files[k]? = some entry)
    (hopen : ¬ Complete h x.2 k) : Spares h key x.1.1 x.1.2 (key (join h p entry.name)) := by
  intro entry' path hc
  obtain ⟨p', _, hp', hentry', rfl⟩ := currentPath_some hc
  rw [hx.source] at hp'
  cases hp'
  rw [hx.sameFiles] at hentry'
  by_contra hcon
  rw [not_or, not_or, not_not] at hcon
  obtain ⟨hsome, hdir, hsame⟩ := hcon
  -- The entry to be published is the one that is not complete.
  have hkc : k = fileIndex x.1.1.fileNum := hnames.2 _ _ _ _ hk hentry' hsame
  rw [hkc] at hopen
  exact hno ⟨hpub, hopen, entry', _, hc, Option.isSome_iff_ne_none.mpr hsome, hdir⟩

/-- One call, seen from the destination of an entry that is not complete. -/
theorem call_untouched (hfs : h.fs = Disk.fileSystem key) {p : String} {files : List FileEntry}
    {x : (TransferJob Nat × Disk κ) × History (Disk κ) Nat} {c : Call} (hx : OnTask h key p files x)
    (hnames : KeepApart h key p files) (hno : ¬ PublishesEarly h key x c) {k : Nat}
    {entry : FileEntry} (hk : files[k]? = some entry) (hopen : ¬ Complete h x.2 k) :
    (call h x.1 c).2.Sound ∧
      Disk.Untouched (key (join h p entry.name)) x.1.2 (call h x.1 c).2 ∧
      StreamApart (call h x.1 c).1 (call h x.1 c).2 (key (join h p entry.name)) := by
  obtain ⟨⟨job, d⟩, past⟩ := x
  obtain ⟨hgen, hp, rfl, hapart⟩ := hx
  obtain ⟨hd, ha⟩ := hapart k entry hk hopen
  have hq : Aside h key p job.files (key (join h p entry.name)) :=
    hnames.1 entry (List.mem_of_getElem? hk)
  have hsp (hpub : Publishes job c) : Spares h key job d (key (join h p entry.name)) :=
    onTask_spares ⟨hgen, hp, rfl, hapart⟩ hnames hno hpub hk hopen
  have hsame : d.Sound ∧ Disk.Untouched (key (join h p entry.name)) d d ∧
      StreamApart job d (key (join h p entry.name)) := ⟨hd, Disk.Untouched.refl _ d, ha⟩
  cases c with
  | write block => exact write_untouched hfs hd hp hgen block hq hsp ha
  | modifyTime =>
    obtain ⟨ks, hw, hks⟩ := modifyTime_spares hfs hd hp hq (hsp trivial)
    exact ⟨hw.sound, hw.untouched _ hks, ha.of_within hw hks⟩
  | removeDownloadFile =>
    cases hc : job.currentPath h d with
    | none =>
      have heq : job.removeDownloadFile h d = d := by
        unfold removeDownloadFile
        rw [hc]
      simp only [call, heq]
      exact hsame
    | some ep =>
      obtain ⟨entry', path⟩ := ep
      obtain ⟨p', _, hp', hentry', rfl⟩ := currentPath_some hc
      rw [hp] at hp'
      cases hp'
      have hw := removeDownloadFile_within hfs hd hc
      obtain ⟨hdl, hdg⟩ := hq entry' (List.mem_of_getElem? hentry')
      have hks : key (join h p entry.name) ∉ [key (downloadPath (join h p entry'.name)),
          key (digestPath (join h p entry'.name))] := by simp [hdl, hdg]
      exact ⟨hw.sound, hw.untouched _ hks, ha.of_within hw hks⟩
  | confirm r =>
    cases hc : job.confirm h r d with
    | none =>
      simp only [call, hc, Option.getD_none]
      exact hsame
    | some s =>
      simp only [call, hc, Option.getD_some]
      refine confirm_untouched hfs hd hp ?_ ha hc
      intro entry' hentry'
      exact (hq entry' (List.mem_of_getElem? hentry')).1
  | setDigest size modified => exact hsame

/-- A call that publishes nothing early keeps the invariant. -/
theorem histStep_onTask (hfs : h.fs = Disk.fileSystem key) {p : String} {files : List FileEntry}
    (hnames : KeepApart h key p files)
    (x : (TransferJob Nat × Disk κ) × History (Disk κ) Nat) (c : Call)
    (hx : OnTask h key p files x) (hno : ¬ PublishesEarly h key x c) :
    OnTask h key p files (histStep (call h) x c) := by
  have hsame : SameTask x.1.1 (call h x.1 c).1 := call_sameTask ⟨p, hx.source⟩ c
  refine ⟨hsame.jobType.trans hx.generic, hsame.dataSource.trans hx.source,
    hsame.files.trans hx.sameFiles, fun k entry hk hopen => ?_⟩
  have hopen' : ¬ Complete h x.2 k := fun hc => hopen (hc.append _)
  obtain ⟨hs, _, ha⟩ := call_untouched hfs hx hnames hno hk hopen'
  exact ⟨hs, ha⟩

omit [DecidableEq κ] in
/-- What the calls of a run leave alone, the run leaves alone. -/
theorem content_run {p : String} {files : List FileEntry} {k : Nat} {entry : FileEntry}
    (hk : files[k]? = some entry) (calls : List Call) :
    ∀ {x : (TransferJob Nat × Disk κ) × History (Disk κ) Nat},
      Along (histStep (call h)) (KeepsDestinations h key p files) x calls →
      ¬ Complete h (run (histStep (call h)) x calls).2 k →
      (run (histStep (call h)) x calls).1.2.content (key (join h p entry.name)) =
        x.1.2.content (key (join h p entry.name)) := by
  induction calls with
  | nil => exact fun _ _ => rfl
  | cons c calls ih =>
    intro x hall hopen
    have hopen' : ¬ Complete h x.2 k := by
      intro hc
      obtain ⟨more, hmore⟩ := run_histStep_past (call h) x (c :: calls)
      exact hopen (by rw [hmore]; exact hc.append more)
    rw [run_cons, ih hall.2 hopen]
    exact hall.1 k entry hk hopen'

/-- Whatever is on the disk, leftovers of earlier jobs included, and whatever is called on a new
    job: the destination of an entry changes only after all its blocks were written, if no
    call publishes an entry before and the names of the list keep apart. A job that ends
    before that leaves the destination as it was. -/
theorem destinations_kept (h : JobHost (Disk κ) Nat) (key : String → κ)
    (hfs : h.fs = Disk.fileSystem key) {p : String} (job : TransferJob Nat)
    (hgen : job.jobType = .generic) (hp : job.dataSource = .filePath p)
    (hnew : job.dataStream = none) (d : Disk κ) (hd : d.Sound)
    (hnames : KeepApart h key p job.files) (calls : List Call)
    (hcalls : Along (histStep (call h)) (fun x c => ¬ PublishesEarly h key x c)
      ((job, d), []) calls) :
    Along (histStep (call h)) (KeepsDestinations h key p job.files) ((job, d), []) calls ∧
      ∀ (k : Nat) (entry : FileEntry), job.files[k]? = some entry →
        ¬ Complete h (run (histStep (call h)) ((job, d), []) calls).2 k →
        (run (histStep (call h)) ((job, d), []) calls).1.2.content (key (join h p entry.name)) =
          d.content (key (join h p entry.name)) := by
  have hstart : OnTask h key p job.files ((job, d), []) := by
    refine ⟨hgen, hp, rfl, fun k entry _ _ => ⟨hd, fun f e hs => ?_⟩⟩
    rw [hnew] at hs
    cases hs
  have hall := always_of_along (histStep_onTask hfs hnames) hstart hcalls
  have hkeeps : Along (histStep (call h)) (KeepsDestinations h key p job.files)
      ((job, d), []) calls := by
    refine hall.along ?_ hcalls
    intro x c hx hno k entry hk hopen
    exact (call_untouched hfs hx hnames hno hk hopen).2.1.content
  exact ⟨hkeeps, fun k entry hk hopen => content_run hk calls hkeeps hopen⟩

/-- One file to be written to `/d`. -/
def oneFileJob : TransferJob Nat :=
  { newWrite 1 .generic (.filePath "/d") 0 false with files := [⟨"a", 0, 0⟩] }

/-- A file that is to be replaced, and what an earlier job may have left of the new one. -/
def replacing (leftover : Option Bytes) : Disk String :=
  let disk := (Disk.empty []).withFile "/d/a" [9]
  match leftover with
  | some bs => disk.withFile "/d/a.download" bs
  | none => disk

theorem sound_replacing (leftover : Option Bytes) : (replacing leftover).Sound := by
  have hd := (Disk.withFile_within "/d/a" [9] (Disk.sound_empty [])).sound
  cases leftover with
  | none => exact hd
  | some bs => exact (Disk.withFile_within "/d/a.download" bs hd).sound

theorem join_oneFile : join plainHost "/d" "a" = "/d/a" := by decide +kernel

/-- A transfer that is cancelled after its first block. -/
theorem destinations_kept_cancelled :
    (run (histStep (call plainHost)) ((oneFileJob, replacing none), [])
      [.write ⟨1, 0, [5], false⟩, .removeDownloadFile]).1.2.content
        (join plainHost "/d" "a") = (replacing none).content (join plainHost "/d" "a") := by
  refine (destinations_kept plainHost (fun path => path) rfl oneFileJob rfl rfl rfl
    (replacing none) (sound_replacing none) ?_ _ ?_).2 0 ⟨"a", 0, 0⟩ rfl ?_
  · constructor
    · intro entry hentry entry' hentry'
      obtain rfl := List.mem_singleton.mp hentry
      obtain rfl := List.mem_singleton.mp hentry'
      decide +kernel
    · intro j k ej ek hj hk _
      obtain rfl : j = 0 := by simpa [oneFileJob] using (List.getElem?_eq_some_iff.mp hj).1
      obtain rfl : k = 0 := by simpa [oneFileJob] using (List.getElem?_eq_some_iff.mp hk).1
      rfl
  · refine ⟨?_, ?_, trivial⟩
    · rintro ⟨_, _, entry, path, hc, hsome, _⟩
      have hpath : oneFileJob.currentPath plainHost (replacing none) =
          some (⟨"a", 0, 0⟩, "/d/a") := by decide +kernel
      obtain rfl : path = "/d/a" := by
        have hpair := hpath.symm.trans hc
        simp only [Option.some.injEq, Prod.mk.injEq] at hpair
        exact hpair.2.symm
      exact absurd hsome (by decide +kernel)
    · rintro ⟨⟨⟩, _⟩
  · -- No block ended the entry.
    rintro ⟨before, s, block, after, hpast, _, hends, _⟩
    have hmem : (s, Call.write block) ∈ (run (histStep (call plainHost))
        ((oneFileJob, replacing none), []) [.write ⟨1, 0, [5], false⟩, .removeDownloadFile]).2 := by
      rw [hpast]
      exact List.mem_append_right _ List.mem_cons_self
    have hblock : block = ⟨1, 0, [5], false⟩ := by
      simp only [run, List.foldl_cons, List.foldl_nil, histStep, List.nil_append, List.mem_append,
        List.mem_singleton, Prod.mk.injEq, Call.write.injEq, reduceCtorEq, and_false,
        or_false] at hmem
      exact hmem.2
    rw [hblock] at hends
    exact absurd hends.1 (by decide)

/-- The download that an earlier job left takes the place of the file when the first block
    arrives. -/
theorem leftover_published :
    (call plainHost (oneFileJob, replacing (some [1])) (.write ⟨1, 0, [5], false⟩)).2.content
        "/d/a" = some [1] ∧
      ¬ Along (histStep (call plainHost))
        (KeepsDestinations plainHost (fun path => path) "/d" oneFileJob.files)
        ((oneFileJob, replacing (some [1])), []) [.write ⟨1, 0, [5], false⟩] := by
  have hafter : (call plainHost (oneFileJob, replacing (some [1]))
      (.write ⟨1, 0, [5], false⟩)).2.content "/d/a" = some [1] := by decide +kernel
  refine ⟨hafter, ?_⟩
  rintro ⟨hkeeps, _⟩
  have hsame := hkeeps 0 ⟨"a", 0, 0⟩ rfl (by
    rintro ⟨before, s, block, after, hpast, _⟩
    simp at hpast)
  rw [join_oneFile] at hsame
  have hbefore : (replacing (some [1])).content "/d/a" = some [9] := by decide +kernel
  exact absurd (hafter.symm.trans (hsame.trans hbefore)) (by decide)

end TransferJob

end LuodaRemote
