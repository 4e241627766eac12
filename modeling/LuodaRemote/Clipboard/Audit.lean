/-
  Which transfers of clipboard files are audited (`get_files_for_audit` of `serv_files.rs`).

  The list of files is handed over for the audit when the first file of the list is asked for from
  its beginning. A peer chooses which file it asks for, and from where on. `audited_iff`: all bytes
  that are served are announced precisely for the sequences of requests in which that request is
  not later than the first one that reads anything, and the list has a regular file.
-/
import LuodaRemote.Clipboard.Files

namespace LuodaRemote
open Lib

namespace ClipFiles

/-- What `read_file_contents` makes of a message of a peer. -/
def requestOf : ClipboardFile → Option ContentsRequest
  | .fileContentsRequest streamId listIndex dwFlags low high cb =>
    parseRequest streamId listIndex dwFlags low high cb
  | _ => none

/-- The regular files of the list, with their sizes. -/
def auditList (fs : ClipFs) (ps : List String) : List (String × Nat) :=
  (ps.filter fs.isFile).map fun p => (p, fs.len p)

/-! ## The property -/

/-- The request is answered with bytes of a file. -/
def GivesBytes (fs : ClipFs) (c : ClipFiles) (m : Int32 × ClipboardFile) : Prop :=
  ∃ streamId k o n data, requestOf m.2 = some (.range streamId k o n) ∧ data ≠ [] ∧
    .ok (.fileContentsResponse 1 streamId data) ∈ (c.handle fs m.1 m.2).1

/-- With the request the list of the files is handed over for the audit. -/
def GivesAudit (fs : ClipFs) (ps : List String) (c : ClipFiles) (m : Int32 × ClipboardFile) :
    Prop :=
  .ok (.files (auditList fs ps)) ∈ (c.handle fs m.1 m.2).1

/-- Whenever bytes are served, the list of files was handed over by then. -/
def Audited (fs : ClipFs) (ps : List String) (c : ClipFiles)
    (requests : List (Int32 × ClipboardFile)) : Prop :=
  ∀ before m after, requests = before ++ m :: after →
    GivesBytes fs (run (serveStep fs) c before) m →
    ∃ early m' late, before ++ [m] = early ++ m' :: late ∧
      GivesAudit fs ps (run (serveStep fs) c early) m'

/-- The request is for some bytes of a readable file of the list. -/
def Reads (fs : ClipFs) (ps : List String) (m : Int32 × ClipboardFile) : Prop :=
  ∃ streamId k o n p, requestOf m.2 = some (.range streamId k o n) ∧ ps[k]? = some p ∧
    fs.isDir p = false ∧ fs.Readable p ∧ o < (fs.content p).length ∧ n ≠ 0 ∧
    readSize o n (fs.content p).length < 2 ^ 63 ∧ NextReadable fs ps k

/-- The request is for the beginning of the first file of the list. -/
def AsksFirst (fs : ClipFs) (ps : List String) (m : Int32 × ClipboardFile) : Prop :=
  ∃ streamId k n, requestOf m.2 = some (.range streamId k 0 n) ∧
    ps.findIdx? (fun p => !fs.isDir p) = some k

/-- No bytes are read before the beginning of the first file was asked for, and there is a regular
    file in the list. -/
def OpensFirst (fs : ClipFs) (ps : List String) (requests : List (Int32 × ClipboardFile)) : Prop :=
  ∀ before m after, requests = before ++ m :: after → Reads fs ps m →
    (∃ p ∈ ps, fs.isFile p = true) ∧ ∃ m' ∈ before ++ [m], AsksFirst fs ps m'

variable {fs : ClipFs} {ps : List String} {c : ClipFiles}

/-! ## What is served -/

theorem handle_eq (connId : Int32) {request : ClipboardFile} {fcr : ContentsRequest}
    (hreq : requestOf request = some fcr) :
    (c.handle fs connId request).1 = (c.serveFileContents fs connId fcr).1.elim []
      fun res => ((c.getFilesForAudit fs fcr).map .ok).toList ++ [res] := by
  cases request with
  | fileContentsRequest streamId listIndex dwFlags low high cb =>
    have hparse : parseRequest streamId listIndex dwFlags low high cb = some fcr := hreq
    unfold handle readFileContents
    dsimp only
    rw [hparse]
    dsimp only
    rcases c.serveFileContents fs connId fcr with ⟨_ | res, c'⟩
    · rfl
    · rfl
  | fileContentsResponse msgFlags streamId data => cases hreq
  | files files => cases hreq

theorem getFilesForAudit_eq (hc : Serves fs ps c) (streamId : Int32) (k o n : Nat) :
    c.getFilesForAudit fs (.range streamId k o n) =
      if k = c.firstFileIndex ∧ o = 0 ∧ auditList fs ps ≠ [] then some (.files (auditList fs ps))
      else none := by
  have hlist : ((c.fileList.filter fun f => fs.isFile f.path).map fun f => (f.path, f.size)) =
      auditList fs ps := by
    obtain ⟨hps, hgood⟩ := hc
    unfold auditList
    rw [← hps, paths, List.filter_map, List.map_map]
    refine List.map_congr_left fun f hf => ?_
    have hsize := (hgood f (List.mem_of_mem_filter hf)).size_eq
    exact Prod.ext rfl hsize
  unfold getFilesForAudit
  dsimp only
  rw [hlist]
  by_cases hfirst : k = c.firstFileIndex ∧ o = 0
  · rw [if_pos hfirst]
    cases haudit : auditList fs ps with
    | nil => simp
    | cons a rest => simp [hfirst]
  · rw [if_neg hfirst, if_neg fun h => hfirst ⟨h.1, h.2.1⟩]

theorem readSize_ne_zero {o n size : Nat} (ho : o < size) (hsize : size < 2 ^ 63) :
    readSize o n size ≠ 0 ↔ n ≠ 0 := by
  unfold readSize
  split
  · next hlt =>
      refine iff_of_true (by omega) ?_
      rintro rfl
      rw [Nat.add_zero, Nat.mod_eq_of_lt (by omega)] at hlt
      omega
  · rfl

/-- Reading a range gives bytes precisely if the file can be read, the range is inside and the
    next file can be loaded. -/
theorem serve_range_bytes_iff (hc : Serves fs ps c) (connId streamId : Int32) (k o n : Nat) :
    (∃ data, data ≠ [] ∧ (c.serveFileContents fs connId (.range streamId k o n)).1 =
        some (.ok (.fileContentsResponse 1 streamId data))) ↔
      ∃ p, ps[k]? = some p ∧ fs.isDir p = false ∧ fs.Readable p ∧ o < (fs.content p).length ∧
        n ≠ 0 ∧ readSize o n (fs.content p).length < 2 ^ 63 ∧ NextReadable fs ps k := by
  constructor
  · rintro ⟨data, hdata, hserve⟩
    cases hfile : c.fileList[k]? with
    | none =>
      simp only [serveFileContents, hfile] at hserve
      cases hserve
    | some file =>
      have hf := hc.2 file (List.mem_of_getElem? hfile)
      have hk : ps[k]? = some file.path := by
        rw [← hc.1, paths, List.getElem?_map, hfile]
        rfl
      have hinside : o ≤ file.size ∧ readSize o n file.size < 2 ^ 63 := by
        by_contra hnot
        simp only [serveFileContents, hfile] at hserve
        split at hserve
        · cases hserve
        · split at hserve
          · cases hserve
          · omega
      have hok : file.isDir = false ∧ fs.Readable file.path := by
        by_contra hnot
        have hno : file.isDir = true ∨ ¬ fs.Readable file.path := by
          rw [← Bool.not_eq_false]
          exact not_and_or.mp hnot
        obtain ⟨e, he⟩ := LocalFile.readExactAt_fails (readSize o n file.size) o hf hno
        simp only [serveFileContents, hfile] at hserve
        rw [if_neg (by omega), if_neg (by omega), he] at hserve
        cases hserve
      obtain ⟨hdir, hr⟩ := hok
      have hsize := hf.size_of_file hdir
      rw [hsize] at hinside
      obtain ⟨rfl, hnext⟩ := (serve_range_readable hc connId streamId hk
        (hf.isDir_eq.symm.trans hdir) hr hinside.1 hinside.2 data).mp hserve
      have hlt := fs.length_lt file.path
      have ho : o < (fs.content file.path).length := by
        by_contra hend
        exact hdata (by rw [List.drop_eq_nil_of_le (by omega), List.take_nil])
      have hsome : readSize o n (fs.content file.path).length ≠ 0 := by
        intro hzero
        exact hdata (by rw [hzero, List.take_zero])
      exact ⟨file.path, hk, hf.isDir_eq.symm.trans hdir, hr, ho,
        (readSize_ne_zero ho hlt).mp hsome, hinside.2, hnext⟩
  · rintro ⟨p, hk, hdir, hr, ho, hn, hbuf, hnext⟩
    refine ⟨_, ?_, (serve_range_readable hc connId streamId hk hdir hr ho.le hbuf _).mpr
      ⟨rfl, hnext⟩⟩
    have hlt := fs.length_lt p
    have hsome := (readSize_ne_zero ho hlt).mpr hn
    rw [ne_eq, ← List.length_eq_zero_iff, List.length_take, List.length_drop]
    omega

/-! ## One request -/

theorem getFilesForAudit_files {fcr : ContentsRequest} {a : ClipboardFile}
    (h : c.getFilesForAudit fs fcr = some a) : ∃ list, a = .files list := by
  unfold getFilesForAudit at h
  split at h
  · dsimp only at h
    split at h
    · split at h
      · cases h
      · cases h
        exact ⟨_, rfl⟩
    · cases h
  · cases h

/-- A response comes from `serve_file_contents`. -/
theorem mem_handle_response (connId : Int32) {request : ClipboardFile} {fcr : ContentsRequest}
    (hreq : requestOf request = some fcr) (flags streamId : Int32) (data : Bytes) :
    .ok (.fileContentsResponse flags streamId data) ∈ (c.handle fs connId request).1 ↔
      (c.serveFileContents fs connId fcr).1 =
        some (.ok (.fileContentsResponse flags streamId data)) := by
  rw [handle_eq connId hreq]
  cases (c.serveFileContents fs connId fcr).1 with
  | none => simp
  | some res =>
    simp only [Option.elim_some, List.mem_append, List.mem_singleton, Option.some_inj]
    rw [eq_comm (a := res)]
    refine ⟨fun h => h.resolve_left fun hmem => ?_, .inr⟩
    rw [Option.mem_toList, Option.map_eq_some_iff] at hmem
    obtain ⟨a, ha, heq⟩ := hmem
    obtain ⟨list, rfl⟩ := getFilesForAudit_files ha
    cases heq

theorem respond_ne_files (k : Nat) (flags streamId : Int32) (data : Bytes)
    (list : List (String × Nat)) :
    (c.respond fs k (.fileContentsResponse flags streamId data)).1 ≠ .ok (.files list) := by
  unfold respond
  dsimp only
  cases (hotReload fs (c.fileList.drop (k + 1))).1 with
  | ok u => exact nofun
  | error e => exact nofun

theorem serveFileContents_ne_files (connId : Int32) (fcr : ContentsRequest)
    (list : List (String × Nat)) :
    (c.serveFileContents fs connId fcr).1 ≠ some (.ok (.files list)) := by
  intro h
  unfold serveFileContents at h
  split at h
  · split at h
    · cases h
    · exact respond_ne_files _ _ _ _ _ (Option.some_inj.mp h)
  · split at h
    · cases h
    · split at h
      · cases h
      · dsimp only at h
        split at h
        · cases h
        · split at h
          · cases h
          · exact respond_ne_files _ _ _ _ _ (Option.some_inj.mp h)

/-- The list of files comes from `get_files_for_audit`, unless the call panics. -/
theorem mem_handle_files (connId : Int32) {request : ClipboardFile} {fcr : ContentsRequest}
    (hreq : requestOf request = some fcr) (list : List (String × Nat)) :
    .ok (.files list) ∈ (c.handle fs connId request).1 ↔
      c.getFilesForAudit fs fcr = some (.files list) ∧
        (c.serveFileContents fs connId fcr).1 ≠ none := by
  rw [handle_eq connId hreq]
  have hother : (c.serveFileContents fs connId fcr).1 ≠ some (.ok (.files list)) :=
    serveFileContents_ne_files connId fcr list
  cases hserve : (c.serveFileContents fs connId fcr).1 with
  | none => simp
  | some res =>
    rw [hserve] at hother
    simp only [Option.elim_some, List.mem_append, List.mem_singleton, Option.mem_toList,
      Option.map_eq_some_iff]
    constructor
    · rintro (⟨a, ha, heq⟩ | heq)
      · cases heq
        exact ⟨ha, nofun⟩
      · exact absurd (congrArg some heq.symm) hother
    · exact fun h => .inl ⟨_, h.1, rfl⟩

theorem givesBytes_iff (hc : Serves fs ps c) (m : Int32 × ClipboardFile) :
    GivesBytes fs c m ↔ Reads fs ps m := by
  constructor
  · rintro ⟨streamId, k, o, n, data, hreq, hdata, hmem⟩
    have hserve := (mem_handle_response m.1 hreq 1 streamId data).mp hmem
    obtain ⟨p, hp⟩ := (serve_range_bytes_iff hc m.1 streamId k o n).mp ⟨data, hdata, hserve⟩
    exact ⟨streamId, k, o, n, p, hreq, hp⟩
  · rintro ⟨streamId, k, o, n, p, hreq, hp⟩
    obtain ⟨data, hdata, hserve⟩ := (serve_range_bytes_iff hc m.1 streamId k o n).mpr ⟨p, hp⟩
    exact ⟨streamId, k, o, n, data, hreq, hdata,
      (mem_handle_response m.1 hreq 1 streamId data).mpr hserve⟩

/-- The call for the beginning of a file does not panic. -/
theorem serve_start_ne_none (hc : Serves fs ps c) (connId streamId : Int32) {k n : Nat} {p : String}
    (hk : ps[k]? = some p) (hdir : fs.isDir p = false) (hn : n < 2 ^ 64) :
    (c.serveFileContents fs connId (.range streamId k 0 n)).1 ≠ none := by
  obtain ⟨file, hfile, rfl⟩ := hc.getElem? hk
  have hf := hc.2 file (List.mem_of_getElem? hfile)
  have hsize := hf.size_of_file (hf.isDir_eq.trans hdir)
  have hlt := fs.length_lt file.path
  have hbuf : readSize 0 n file.size < 2 ^ 63 := by
    unfold readSize
    rw [Nat.zero_add, Nat.mod_eq_of_lt hn]
    split
    · omega
    · omega
  unfold serveFileContents
  dsimp only
  rw [hfile]
  dsimp only
  rw [if_neg (by omega), if_neg (by omega)]
  split
  · exact nofun
  · exact nofun

theorem asU64_lt (n : Int32) : asU64 n < 2 ^ 64 := by
  unfold asU64 asUsize
  omega

theorem requestOf_length {request : ClipboardFile} {streamId : Int32} {k o n : Nat}
    (h : requestOf request = some (.range streamId k o n)) : n < 2 ^ 64 := by
  cases request with
  | fileContentsRequest sid listIndex dwFlags low high cb =>
    have hparse : parseRequest sid listIndex dwFlags low high cb =
        some (.range streamId k o n) := h
    unfold parseRequest at hparse
    split at hparse
    · cases hparse
    · split at hparse
      · cases hparse
        exact asU64_lt cb
      · cases hparse
  | fileContentsResponse msgFlags sid data => cases h
  | files files => cases h

/-- The list was made from these paths. -/
structure Synced (fs : ClipFs) (ps : List String) (c : ClipFiles) : Prop where
  serves : Serves fs ps c
  first : c.firstFileIndex = (ps.findIdx? fun p => !fs.isDir p).getD usizeMax

theorem auditList_ne_nil : auditList fs ps ≠ [] ↔ ∃ p ∈ ps, fs.isFile p = true := by
  unfold auditList
  rw [ne_eq, List.map_eq_nil_iff, List.filter_eq_nil_iff]
  push Not
  rfl

theorem not_mem_handle (connId : Int32) {request : ClipboardFile} (hreq : requestOf request = none)
    (x : ClipboardFile) : .ok x ∉ (c.handle fs connId request).1 := by
  cases request with
  | fileContentsRequest streamId listIndex dwFlags low high cb =>
    have hparse : parseRequest streamId listIndex dwFlags low high cb = none := hreq
    unfold handle readFileContents
    dsimp only
    rw [hparse]
    simp
  | fileContentsResponse msgFlags streamId data => exact List.not_mem_nil
  | files files => exact List.not_mem_nil

theorem givesAudit_iff (hc : Synced fs ps c) (m : Int32 × ClipboardFile) {k : Nat}
    (hfirst : ps.findIdx? (fun p => !fs.isDir p) = some k) :
    GivesAudit fs ps c m ↔ (∃ p ∈ ps, fs.isFile p = true) ∧ AsksFirst fs ps m := by
  have hindex : c.firstFileIndex = k := by
    rw [hc.first, hfirst]
    rfl
  unfold GivesAudit AsksFirst
  rw [← auditList_ne_nil]
  cases hreq : requestOf m.2 with
  | none =>
    refine iff_of_false (not_mem_handle m.1 hreq _) ?_
    rintro ⟨-, _, _, _, hnone, -⟩
    cases hnone
  | some fcr =>
    rw [mem_handle_files m.1 hreq]
    cases fcr with
    | size streamId fileIdx =>
      refine iff_of_false (fun h => nomatch h.1) ?_
      rintro ⟨-, _, _, _, hrange, -⟩
      cases hrange
    | range streamId fileIdx o n =>
      rw [getFilesForAudit_eq hc.serves, hindex]
      constructor
      · rintro ⟨haudit, -⟩
        split at haudit
        · next h =>
            obtain ⟨rfl, rfl, hsome⟩ := h
            exact ⟨hsome, streamId, fileIdx, n, rfl, hfirst⟩
        · cases haudit
      · rintro ⟨hsome, sid, j, n', hrange, hj⟩
        cases hrange
        rw [hfirst] at hj
        cases hj
        refine ⟨if_pos ⟨rfl, rfl, hsome⟩, ?_⟩
        obtain ⟨hlt, hdir, -⟩ := List.findIdx?_eq_some_iff_getElem.mp hfirst
        exact serve_start_ne_none hc.serves m.1 streamId (List.getElem?_eq_getElem hlt)
          (by simpa using hdir) (requestOf_length hreq)

/-! ## Every sequence of requests -/

theorem firstFileIndex_serve (connId : Int32) (fcr : ContentsRequest) :
    (c.serveFileContents fs connId fcr).2.firstFileIndex = c.firstFileIndex := by
  unfold serveFileContents
  split
  · split
    · rfl
    · rfl
  · split
    · rfl
    · split
      · rfl
      · dsimp only
        split
        · rfl
        · split
          · rfl
          · rfl

theorem firstFileIndex_handle (connId : Int32) (request : ClipboardFile) :
    (c.handle fs connId request).2.firstFileIndex = c.firstFileIndex := by
  unfold handle
  split
  · unfold readFileContents
    split
    · rfl
    · next fcr _ =>
        have hserve : (c.serveFileContents fs connId fcr).2.firstFileIndex = c.firstFileIndex :=
          firstFileIndex_serve connId fcr
        split
        · next heq =>
            rw [heq] at hserve
            exact hserve
        · next heq =>
            rw [heq] at hserve
            exact hserve
  · rfl

theorem synced_run (fs : ClipFs) (ps : List String) (before : List (Int32 × ClipboardFile)) :
    Synced fs ps (run (serveStep fs) (syncFiles fs ps) before) := by
  have hall : Always (serveStep fs) (Synced fs ps) (syncFiles fs ps) before :=
    always_of_step (P := Synced fs ps) (fun c m hc => ⟨handle_serves m.1 m.2 hc.serves,
      (firstFileIndex_handle m.1 m.2).trans hc.first⟩) ⟨serves_syncFiles fs ps, rfl⟩ before
  exact hall.last

/-- After any requests `past` since the list was made (a later `sync_files` of the same files
    changes nothing): all bytes served from then on are audited precisely if none are read before
    the beginning of the first file was asked for and the list has a regular file. -/
theorem audited_iff (fs : ClipFs) (ps : List String)
    (past requests : List (Int32 × ClipboardFile)) :
    Audited fs ps (run (serveStep fs) (syncFiles fs ps) past) requests ↔
      OpensFirst fs ps requests := by
  have hsynced : ∀ before, Synced fs ps
      (run (serveStep fs) (run (serveStep fs) (syncFiles fs ps) past) before) := by
    intro before
    rw [← run_append]
    exact synced_run fs ps (past ++ before)
  unfold Audited OpensFirst
  refine forall_congr' fun before => forall_congr' fun m => forall_congr' fun after => ?_
  refine imp_congr_right fun _ => ?_
  rw [givesBytes_iff (hsynced before).serves]
  refine imp_congr_right fun hreads => ?_
  -- a file can be read, so there is a first one
  obtain ⟨k, hfirst⟩ : ∃ k, ps.findIdx? (fun p => !fs.isDir p) = some k := by
    obtain ⟨_, _, _, _, p, -, hp, hdir, -⟩ := hreads
    rw [← Option.isSome_iff_exists, List.findIdx?_isSome, List.any_eq_true]
    exact ⟨p, List.mem_of_getElem? hp, by simp [hdir]⟩
  constructor
  · rintro ⟨early, m', late, hsplit, haudit⟩
    obtain ⟨hfile, hasks⟩ := (givesAudit_iff (hsynced early) m' hfirst).mp haudit
    exact ⟨hfile, m', by rw [hsplit]; simp, hasks⟩
  · rintro ⟨hfile, m', hm', hasks⟩
    obtain ⟨early, late, hsplit⟩ := List.append_of_mem hm'
    exact ⟨early, m', late, hsplit, (givesAudit_iff (hsynced early) m' hfirst).mpr ⟨hfile, hasks⟩⟩

/-- A request for the three bytes of the second file. -/
def secondFile : ClipboardFile := readNodeRequest 7 1 (Int64.ofNat 0) (UInt32.ofNat 3)

theorem requestOf_secondFile : requestOf secondFile = some (.range 7 1 0 3) := by decide

/-- The second of two files is read, and the first is never asked for. -/
theorem not_audited :
    ¬ Audited sampleClipFs ["a", "b"] (syncFiles sampleClipFs ["a", "b"]) [(1, secondFile)] := by
  intro h
  have hreads : Reads sampleClipFs ["a", "b"] (1, secondFile) := by
    refine ⟨7, 1, 0, 3, "b", requestOf_secondFile, rfl, rfl, ⟨by decide, rfl⟩, by decide, by decide,
      by decide, ?_⟩
    intro p hp
    cases hp
  have hsynced := synced_run sampleClipFs ["a", "b"] []
  obtain ⟨early, m', late, hsplit, haudit⟩ := h [] (1, secondFile) [] rfl
    ((givesBytes_iff hsynced.serves _).mpr hreads)
  have hone : early = [] ∧ m' = (1, secondFile) := by
    cases early with
    | nil =>
      cases hsplit
      exact ⟨rfl, rfl⟩
    | cons a rest => simp at hsplit
  obtain ⟨rfl, rfl⟩ := hone
  obtain ⟨-, _, k, _, hreq, hfirst⟩ := (givesAudit_iff hsynced (1, secondFile) rfl).mp haudit
  rw [requestOf_secondFile] at hreq
  cases hreq
  exact absurd hfirst (by decide)

end ClipFiles

end LuodaRemote
