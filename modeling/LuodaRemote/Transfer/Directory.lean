/-
  What a transfer into an empty directory leaves there.

  While an entry is written, its download and its digest are files next to the ones that
  were transferred before it, under names that may be theirs. The directory is a table from
  names to contents, and an entry that was transferred is one update of it: the names of its
  download and its digest are free afterwards, and its path holds its content (`place`).
  `content_transfer` says that the job computes precisely this, entry by entry, whatever
  blocks the contents come in. Which files survive is read off the updates:
  `directory_complete_iff`.
-/
import LuodaRemote.Transfer.OnDisk

namespace LuodaRemote
open Lib

/-! ## The directory as a table -/

section Table

variable {κ : Type} [DecidableEq κ]

/-- Where an entry goes: its path, its download and its digest. -/
structure Slot (κ : Type) where
  path : κ
  download : κ
  digest : κ

/-- An entry that was transferred. -/
def place (m : κ → Option Bytes) (x : Slot κ × Bytes) : κ → Option Bytes :=
  Function.update (Function.update (Function.update m x.1.download none) x.1.digest none) x.1.path
    (some x.2)

/-- The name is one that the entry uses. -/
def Slot.Uses (x : Slot κ) (q : κ) : Prop := q = x.path ∨ q = x.download ∨ q = x.digest

theorem place_of_not_uses (m : κ → Option Bytes) {x : Slot κ × Bytes} {q : κ} (hq : ¬ x.1.Uses q) :
    place m x q = m q := by
  simp only [Slot.Uses, not_or] at hq
  simp [place, hq.1, hq.2.1, hq.2.2]

theorem place_path (m : κ → Option Bytes) (x : Slot κ × Bytes) : place m x x.1.path = some x.2 :=
  Function.update_self ..

theorem place_side (m : κ → Option Bytes) {x : Slot κ × Bytes} {q : κ} (hq : x.1.Uses q)
    (hne : q ≠ x.1.path) : place m x q = none := by
  rcases hq with rfl | rfl | rfl
  · exact absurd rfl hne
  · by_cases hd : x.1.download = x.1.digest
    · simp [place, hd, hd ▸ hne]
    · simp [place, hne, hd]
  · simp [place, hne]

/-- A name holds what the last entry that uses it put there, if it is the path of that entry. -/
theorem foldl_place_eq_some_iff {items : List (Slot κ × Bytes)} {q : κ} {bs : Bytes} :
    items.foldl place (fun _ => none) q = some bs ↔
      ∃ before y after, items = before ++ y :: after ∧ y.1.path = q ∧ y.2 = bs ∧
        ∀ z ∈ after, ¬ z.1.Uses q := by
  induction items using List.reverseRecOn with
  | nil => simp
  | append_singleton items x ih =>
    rw [List.foldl_append, List.foldl_cons, List.foldl_nil]
    -- Where the new entry stands in a split of the longer list.
    have hsplit {before : List (Slot κ × Bytes)} {y : Slot κ × Bytes}
        {after : List (Slot κ × Bytes)} (heq : items ++ [x] = before ++ y :: after) :
        (before = items ∧ y = x ∧ after = []) ∨
          ∃ after', after = after' ++ [x] ∧ items = before ++ y :: after' := by
      rcases List.eq_nil_or_concat' after with rfl | ⟨after', z, rfl⟩
      · obtain ⟨h1, h2⟩ := List.append_inj' heq rfl
        exact .inl ⟨h1.symm, (List.singleton_inj.mp h2).symm, rfl⟩
      · rw [← List.cons_append, ← List.append_assoc] at heq
        obtain ⟨h1, h2⟩ := List.append_inj' heq rfl
        obtain rfl := List.singleton_inj.mp h2
        exact .inr ⟨after', rfl, h1⟩
    by_cases huses : x.1.Uses q
    · by_cases hpath : q = x.1.path
      · subst hpath
        rw [place_path, Option.some.injEq]
        constructor
        · intro hbs
          exact ⟨items, x, [], rfl, rfl, hbs, by simp⟩
        · rintro ⟨before, y, after, heq, _, hbs, hafter⟩
          rcases hsplit heq with ⟨_, rfl, _⟩ | ⟨after', rfl, _⟩
          · exact hbs
          · exact absurd huses (hafter x (by simp))
      · rw [place_side _ huses hpath]
        refine iff_of_false (by simp) ?_
        rintro ⟨before, y, after, heq, hy, _, hafter⟩
        rcases hsplit heq with ⟨_, rfl, _⟩ | ⟨after', rfl, _⟩
        · exact hpath hy.symm
        · exact absurd huses (hafter x (by simp))
    · rw [place_of_not_uses _ huses, ih]
      constructor
      · rintro ⟨before, y, after, rfl, hy, hbs, hafter⟩
        refine ⟨before, y, after ++ [x], by simp, hy, hbs, fun z hz => ?_⟩
        rcases List.mem_append.mp hz with hz | hz
        · exact hafter z hz
        · rw [List.mem_singleton.mp hz]
          exact huses
      · rintro ⟨before, y, after, heq, hy, hbs, hafter⟩
        rcases hsplit heq with ⟨_, rfl, _⟩ | ⟨after', rfl, rfl⟩
        · exact absurd (.inl hy.symm) huses
        · exact ⟨before, y, after', rfl, hy, hbs, fun z hz => hafter z (by simp [hz])⟩

/-- The last entry that uses the path of an entry has it for its path, and the same content. -/
def Undisturbed (items : List (Slot κ × Bytes)) : Prop :=
  ∀ x ∈ items, ∃ before y after, items = before ++ y :: after ∧ y.1.path = x.1.path ∧
    y.2 = x.2 ∧ ∀ z ∈ after, ¬ z.1.Uses x.1.path

omit [DecidableEq κ] in
/-- No entry uses the path of an earlier one. -/
theorem undisturbed_of_pairwise {items : List (Slot κ × Bytes)}
    (hp : items.Pairwise fun x z => ¬ z.1.Uses x.1.path) : Undisturbed items := by
  intro x hx
  obtain ⟨before, after, rfl⟩ := List.append_of_mem hx
  refine ⟨before, x, after, rfl, rfl, rfl, ?_⟩
  exact (List.pairwise_cons.mp (List.pairwise_append.mp hp).2.1).1

end Table

namespace TransferJob

variable {κ : Type} [DecidableEq κ] {h : JobHost (Disk κ) Nat} {key : String → κ}
  {job : TransferJob Nat} {d : Disk κ} {p : String}

/-- Where the job keeps an entry. -/
def slot (h : JobHost (Disk κ) Nat) (key : String → κ) (p : String)
    (entry : FileEntry) : Slot κ where
  path := key (join h p entry.name)
  download := key (downloadPath (join h p entry.name))
  digest := key (digestPath (join h p entry.name))

/-! ## The job and the table -/

/-- The disk holds the files of the table and no directory. -/
structure Holds (m : κ → Option Bytes) (d : Disk κ) : Prop where
  sound : d.Sound
  noDir : ∀ q, d.names q ≠ some .dir
  content : ∀ q, d.content q = m q

/-- The job writes an entry into a directory that holds `m` besides. -/
structure Filling (h : JobHost (Disk κ) Nat) (key : String → κ) (p : String)
    (m : κ → Option Bytes) (entry : FileEntry) (k : Nat) (bs : Bytes)
    (s : TransferJob Nat × Disk κ) : Prop where
  writing : Writing h key p entry k bs.length bs s
  generic : s.1.jobType = .generic
  noDir : ∀ q, s.2.names q ≠ some .dir
  content : ∀ q, q ≠ (slot h key p entry).download → q ≠ (slot h key p entry).digest →
    s.2.content q = m q

/-- More blocks for the entry. -/
theorem filling_run (hfs : h.fs = Disk.fileSystem key) {m : κ → Option Bytes} {entry : FileEntry}
    {k : Nat} {bs : Bytes} {s : TransferJob Nat × Disk κ} (hf : Filling h key p m entry k bs s)
    {blocks : List FileTransferBlock}
    (hblocks : ∀ b ∈ blocks, b.id = s.1.id ∧ fileIndex b.fileNum = k) :
    Filling h key p m entry k (bs ++ bytesOf h blocks) (run (deliver h) s blocks) ∧
      SameTask s.1 (run (deliver h) s blocks).1 := by
  obtain ⟨hw, hworks⟩ := run_writing hfs blocks hf.writing hblocks
  rw [Disk.overwrite_end, ← List.length_append] at hw
  refine ⟨⟨hw, ?_, ?_, ?_⟩, hworks.sameTask⟩
  · rw [hworks.sameTask.jobType]
    exact hf.generic
  · intro q hq
    exact hf.noDir q ((hworks.dirs q).mp hq)
  · intro q hdl hdg
    rw [(hworks.untouched q (by simpa [slot] using hdl)).content]
    exact hf.content q hdl hdg

/-- `modify_time` publishes the entry. -/
theorem filling_modifyTime (hfs : h.fs = Disk.fileSystem key)
    (hside : ∀ path, key (downloadPath path) ≠ key (digestPath path)) {m : κ → Option Bytes}
    {entry : FileEntry} {k : Nat} {bs : Bytes} {s : TransferJob Nat × Disk κ}
    (hf : Filling h key p m entry k bs s)
    (hvalid : joinValidatedPath h p entry.name s.2 = .ok (join h p entry.name)) :
    Holds (place m (slot h key p entry, bs)) (s.1.modifyTime h s.2) := by
  have hc : s.1.currentPath h s.2 = some (entry, join h p entry.name) := by
    refine currentPath_of_valid hf.generic hf.writing.source ?_ hvalid
    rw [hf.writing.index]
    exact hf.writing.isEntry
  have hne : (slot h key p entry).download ≠ (slot h key p entry).digest := hside _
  have h1 := Disk.remove_within (slot h key p entry).digest hf.writing.sound
  have h2 := Disk.rename_within (slot h key p entry).download (slot h key p entry).path h1.sound
  have h3 := Disk.setFileMtime_within key (join h p entry.name) entry.modifiedTime h2.sound
  have heq : s.1.modifyTime h s.2 = ((Disk.fileSystem key).setFileMtime (join h p entry.name)
      entry.modifiedTime ((s.2.remove (slot h key p entry).digest).2.rename
        (slot h key p entry).download (slot h key p entry).path).2).2 := modifyTime_eq hfs hc
  -- The download is still there when it is renamed.
  have hdl : (s.2.remove (slot h key p entry).digest).2.content (slot h key p entry).download =
      some bs := by
    rw [(h1.untouched _ (by simpa using hne)).content]
    exact hf.writing.content
  obtain ⟨i, hi⟩ : ∃ i, (s.2.remove (slot h key p entry).digest).2.names
      (slot h key p entry).download = some (.file i) := by
    unfold Disk.content at hdl
    split at hdl
    · rename_i i hi
      exact ⟨i, hi⟩
    · cases hdl
  have hdst : (s.2.remove (slot h key p entry).digest).2.names (slot h key p entry).path ≠
      some .dir := fun hdir => hf.noDir _ ((h1.dirs _).mp hdir)
  have hall : Disk.Within [(slot h key p entry).digest, (slot h key p entry).download,
      (slot h key p entry).path] s.2 (s.1.modifyTime h s.2) :=
    modifyTime_within hfs hf.writing.sound hc
  refine ⟨hall.sound, fun q hq => hf.noDir q ((hall.dirs q).mp hq), fun q => ?_⟩
  by_cases huses : (slot h key p entry).Uses q
  · rw [heq, (h3.untouched q (by simp)).content]
    by_cases hpath : q = (slot h key p entry).path
    · subst hpath
      rw [place_path m (slot h key p entry, bs)]
      exact (Disk.content_rename hi hdst).trans hdl
    · rw [place_side m huses hpath]
      by_cases hq : q = (slot h key p entry).download
      · subst hq
        exact Disk.content_rename_src hi hdst hpath
      · have hdg : q = (slot h key p entry).digest := by
          rcases huses with hu | hu | hu
          · exact absurd hu hpath
          · exact absurd hu hq
          · exact hu
        subst hdg
        rw [(h2.untouched _ (by simp [hq, hpath])).content]
        exact Disk.content_remove _ s.2
  · rw [place_of_not_uses m huses]
    simp only [Slot.Uses, not_or] at huses
    rw [(hall.untouched q (by simp [huses])).content]
    exact hf.content q huses.2.1 huses.2.2

/-- There is nothing to publish in an empty directory. -/
theorem blank_modifyTime (hfs : h.fs = Disk.fileSystem key) (hd : Holds (fun _ => none) d) :
    Holds (fun _ => none) (job.modifyTime h d) := by
  cases hc : job.currentPath h d with
  | none =>
    rw [modifyTime_none hc]
    exact hd
  | some ep =>
    obtain ⟨entry, path⟩ := ep
    obtain ⟨hw, hdg⟩ := modifyTime_unpublished hfs hd.sound hc (.inl (hd.content _))
    refine ⟨hw.sound, fun q hq => hd.noDir q ((hw.dirs q).mp hq), fun q => ?_⟩
    by_cases hq : q = key (digestPath path)
    · rw [hq]
      exact hdg
    · rw [(hw.untouched q (by simpa using hq)).content]
      exact hd.content q

/-- The first block of the next entry. -/
theorem filling_target (hfs : h.fs = Disk.fileSystem key)
    (hside : ∀ path, key (downloadPath path) ≠ key (digestPath path)) {m : κ → Option Bytes}
    {entry : FileEntry} (hp : job.dataSource = .filePath p) (hgen : job.jobType = .generic)
    {block : FileTransferBlock} (hid : block.id = job.id)
    (hentry : job.files[fileIndex block.fileNum]? = some entry)
    (hnew : fileIndex block.fileNum ≠ fileIndex job.fileNum ∨ job.dataStream = none)
    (hvalid : ∀ d : Disk κ, joinValidatedPath h p entry.name d = .ok (join h p entry.name))
    (hm : Holds m (job.modifyTime h d)) :
    Filling h key p m entry (fileIndex block.fileNum) (decoded h block)
        (deliver h (job, d) block) ∧
      SameTask job (deliver h (job, d) block).1 := by
  obtain ⟨_, hw, hworks⟩ := deliver_target hfs hp hgen hid hentry hnew rfl hm.sound (hvalid _)
    (hm.noDir _) (hm.noDir _) (hside _)
  refine ⟨⟨hw, ?_, fun q hq => hm.noDir q ((hworks.dirs q).mp hq), fun q hdl hdg => ?_⟩,
    hworks.sameTask⟩
  · rw [hworks.sameTask.jobType]
    exact hgen
  · have hq : q ∉ [(slot h key p entry).digest, (slot h key p entry).download] := by
      simp [hdl, hdg]
    rw [(hworks.untouched q hq).content]
    exact hm.content q

/-! ## All entries -/

/-- The blocks of file `k`, then those of the next one, and so on: at least one for each, since a
    file ends with a block of its own. -/
def InOrder (id : Int32) : Nat → List (List FileTransferBlock) → Prop
  | _, [] => True
  | k, blocks :: rest =>
    blocks ≠ [] ∧ (∀ b ∈ blocks, b.id = id ∧ fileIndex b.fileNum = k) ∧ InOrder id (k + 1) rest

/-- The slots of the files with the contents that arrive for them. -/
def arrivals (h : JobHost (Disk κ) Nat) (key : String → κ) (p : String) (files : List FileEntry)
    (chunks : List (List FileTransferBlock)) : List (Slot κ × Bytes) :=
  (files.map (slot h key p)).zip (chunks.map (bytesOf h))

/-- The disk after all blocks and the `modify_time` that ends the job. -/
def transfer (h : JobHost (Disk κ) Nat) (job : TransferJob Nat) (d : Disk κ)
    (chunks : List (List FileTransferBlock)) : Disk κ :=
  (run (deliver h) (job, d) chunks.flatten).1.modifyTime h
    (run (deliver h) (job, d) chunks.flatten).2

/-- All blocks of one entry, from the first one on. -/
theorem filling_entry (hfs : h.fs = Disk.fileSystem key)
    (hside : ∀ path, key (downloadPath path) ≠ key (digestPath path)) {m : κ → Option Bytes}
    {entry : FileEntry} {k : Nat} (hp : job.dataSource = .filePath p)
    (hgen : job.jobType = .generic) (hentry : job.files[k]? = some entry)
    (hnew : k ≠ fileIndex job.fileNum ∨ job.dataStream = none)
    (hvalid : ∀ d : Disk κ, joinValidatedPath h p entry.name d = .ok (join h p entry.name))
    (hm : Holds m (job.modifyTime h d)) {blocks : List FileTransferBlock} (hne : blocks ≠ [])
    (hblocks : ∀ b ∈ blocks, b.id = job.id ∧ fileIndex b.fileNum = k) :
    Filling h key p m entry k (bytesOf h blocks) (run (deliver h) (job, d) blocks) ∧
      SameTask job (run (deliver h) (job, d) blocks).1 := by
  cases blocks with
  | nil => exact absurd rfl hne
  | cons b blocks =>
    obtain ⟨hid, hk⟩ := hblocks b List.mem_cons_self
    subst hk
    obtain ⟨hf, hsame⟩ := filling_target hfs hside hp hgen hid hentry hnew hvalid hm
    have hmore : ∀ b' ∈ blocks, b'.id = (deliver h (job, d) b).1.id ∧
        fileIndex b'.fileNum = fileIndex b.fileNum := by
      intro b' hb'
      rw [hsame.id]
      exact hblocks b' (List.mem_cons_of_mem b hb')
    obtain ⟨hf', hsame'⟩ := filling_run hfs hf hmore
    exact ⟨hf', hsame.trans hsame'⟩

/-- The entries after the one that is being written. -/
theorem filling_rest (hfs : h.fs = Disk.fileSystem key)
    (hside : ∀ path, key (downloadPath path) ≠ key (digestPath path)) {files : List FileEntry}
    (hvalid : ∀ entry ∈ files, ∀ d : Disk κ,
      joinValidatedPath h p entry.name d = .ok (join h p entry.name)) {id : Int32}
    (chunks : List (List FileTransferBlock)) :
    ∀ {m : κ → Option Bytes} {entry : FileEntry} {k : Nat} {bs : Bytes}
      {s : TransferJob Nat × Disk κ}, Filling h key p m entry k bs s → s.1.files = files →
      s.1.id = id → InOrder id (k + 1) chunks → chunks.length = (files.drop (k + 1)).length →
      Holds ((arrivals h key p (files.drop (k + 1)) chunks).foldl place
        (place m (slot h key p entry, bs))) (transfer h s.1 s.2 chunks) := by
  induction chunks with
  | nil =>
    intro m entry k bs s hf hfiles _ _ _
    have hmem : entry ∈ files := hfiles ▸ List.mem_of_getElem? hf.writing.isEntry
    simpa [arrivals, transfer] using filling_modifyTime hfs hside hf (hvalid entry hmem s.2)
  | cons blocks chunks ih =>
    intro m entry k bs s hf hfiles hid hin hlen
    obtain ⟨hne, hblocks, hin'⟩ := hin
    have hmem : entry ∈ files := hfiles ▸ List.mem_of_getElem? hf.writing.isEntry
    have hm := filling_modifyTime hfs hside hf (hvalid entry hmem s.2)
    -- The entry that the blocks are for.
    have hlt : k + 1 < files.length := by
      rw [List.length_cons, List.length_drop] at hlen
      omega
    have hnext : s.1.files[k + 1]? = some files[k + 1] := by
      rw [hfiles]
      exact List.getElem?_eq_getElem hlt
    obtain ⟨hf', hsame⟩ := filling_entry hfs hside hf.writing.source hf.generic hnext
      (.inl (by rw [hf.writing.index]; omega)) (hvalid _ (List.getElem_mem hlt)) hm hne
      (fun b hb => by rw [hid]; exact hblocks b hb)
    have hrest := ih hf' (hsame.files.trans hfiles) (hsame.id.trans hid) hin' (by
      rw [List.length_cons, List.length_drop] at hlen
      rw [List.length_drop]
      omega)
    have hdrop : files.drop (k + 1) = files[k + 1] :: files.drop (k + 1 + 1) :=
      List.drop_eq_getElem_cons hlt
    rw [hdrop]
    unfold transfer at hrest ⊢
    rw [List.flatten_cons, run_append]
    exact hrest

/-- Transfer into an empty directory. -/
theorem content_transfer (hfs : h.fs = Disk.fileSystem key)
    (hside : ∀ path, key (downloadPath path) ≠ key (digestPath path))
    (hp : job.dataSource = .filePath p) (hgen : job.jobType = .generic)
    (hnew : job.dataStream = none) (hvalid : ∀ entry ∈ job.files, ∀ d : Disk κ,
      joinValidatedPath h p entry.name d = .ok (join h p entry.name))
    {chunks : List (List FileTransferBlock)} (hin : InOrder job.id 0 chunks)
    (hlen : chunks.length = job.files.length) (q : κ) :
    (transfer h job (Disk.empty []) chunks).content q =
      (arrivals h key p job.files chunks).foldl place (fun _ => none) q := by
  have hblank : Holds (fun _ => none) (job.modifyTime h (Disk.empty [])) := by
    refine blank_modifyTime hfs ⟨Disk.sound_empty [], ?_, ?_⟩
    · intro q hq
      simp [Disk.empty] at hq
    · intro q
      rfl
  cases chunks with
  | nil => simpa [arrivals, transfer] using hblank.content q
  | cons blocks chunks =>
    obtain ⟨hne, hblocks, hin'⟩ := hin
    have hlt : 0 < job.files.length := by
      rw [← hlen]
      exact Nat.succ_pos _
    obtain ⟨hf, hsame⟩ := filling_entry hfs hside hp hgen (List.getElem?_eq_getElem hlt)
      (.inr hnew) (hvalid _ (List.getElem_mem hlt)) hblank hne hblocks
    have hrest := filling_rest hfs hside hvalid chunks hf hsame.files hsame.id hin' (by
      rw [List.length_cons] at hlen
      rw [List.length_drop]
      omega)
    have hdrop : job.files = job.files[0] :: job.files.drop 1 := by
      simpa using List.drop_eq_getElem_cons hlt
    have hfinal := hrest.content q
    rw [hdrop]
    unfold transfer at hfinal ⊢
    rw [List.flatten_cons, run_append]
    exact hfinal

/-- For every list of files that `set_files` accepts, all contents and every way to cut them into
    blocks: in the end every file is at its path with its content, precisely if no path is used
    by an entry after the last one that it belongs to, and entries with one path have one
    content. -/
theorem directory_complete_iff (h : JobHost (Disk κ) Nat) (key : String → κ)
    (hfs : h.fs = Disk.fileSystem key)
    (hside : ∀ path, key (downloadPath path) ≠ key (digestPath path)) {p : String} {id n : Int32}
    {files : List FileEntry} {job : TransferJob Nat}
    (hset : (newWrite id .generic (.filePath p) n false).setFiles h files (Disk.empty []) =
      (.ok (), job))
    {chunks : List (List FileTransferBlock)} (hin : InOrder id 0 chunks)
    (hlen : chunks.length = files.length) :
    (∀ x ∈ arrivals h key p files chunks,
        (transfer h job (Disk.empty []) chunks).content x.1.path = some x.2) ↔
      Undisturbed (arrivals h key p files chunks) := by
  have hjob := setFiles_ok hset
  have hvalid : ∀ entry ∈ files, ∀ d : Disk κ,
      joinValidatedPath h p entry.name d = .ok (join h p entry.name) :=
    fun entry hentry d => joinValidatedPath_of_setFiles hfs rfl hset hentry d
  subst hjob
  refine forall₂_congr fun x _ => ?_
  rw [content_transfer hfs hside rfl rfl rfl hvalid hin hlen, foldl_place_eq_some_iff]

/-- Two files of one byte each, which come in one block with the end right behind it. -/
def twoChunks : List (List FileTransferBlock) :=
  [[⟨1, 0, [1], false⟩, ⟨1, 0, [], false⟩], [⟨1, 1, [2], false⟩, ⟨1, 1, [], false⟩]]

theorem inOrder_twoChunks : InOrder 1 0 twoChunks := by
  refine ⟨by simp, ?_, by simp, ?_, trivial⟩ <;> decide +kernel

/-- The two files arrive. -/
theorem directory_complete_two_files :
    (newWrite 1 .generic (.filePath "/d") 0 false).setFiles plainHost twoFileJob.files
        (Disk.empty []) = (.ok (), twoFileJob) ∧
      ∀ x ∈ arrivals plainHost (fun path => path) "/d" twoFileJob.files twoChunks,
        (transfer plainHost twoFileJob (Disk.empty []) twoChunks).content x.1.path = some x.2 := by
  have hset : (newWrite 1 .generic (.filePath "/d") 0 false).setFiles plainHost twoFileJob.files
      (Disk.empty []) = (.ok (), twoFileJob) := by decide +kernel
  refine ⟨hset, (directory_complete_iff plainHost (fun path => path) rfl plainHost_side hset
    inOrder_twoChunks rfl).mpr (undisturbed_of_pairwise ?_)⟩
  simp only [Slot.Uses]
  decide +kernel

/-- The download of the second file takes the place of the first one and goes away with it. -/
theorem download_name_lost :
    let files : List FileEntry := [⟨"x.download", 0, 0⟩, ⟨"x", 0, 0⟩]
    let job : TransferJob Nat := { twoFileJob with files := files }
    (newWrite 1 .generic (.filePath "/d") 0 false).setFiles plainHost files (Disk.empty []) =
        (.ok (), job) ∧
      InOrder 1 0 twoChunks ∧
      (transfer plainHost job (Disk.empty []) twoChunks).content
        (join plainHost "/d" "x.download") = none ∧
      ¬ ∀ x ∈ arrivals plainHost (fun path => path) "/d" files twoChunks,
        (transfer plainHost job (Disk.empty []) twoChunks).content x.1.path = some x.2 := by
  refine ⟨by decide +kernel, inOrder_twoChunks, by decide +kernel, by decide +kernel⟩

end TransferJob

end LuodaRemote
