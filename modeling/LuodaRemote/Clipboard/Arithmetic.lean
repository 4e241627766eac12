/-
  The arithmetic of `read_file_contents` (`libs/clipboard/src/platform/unix/serv_files.rs`,
  `local_file.rs`) on the fields of a request, which are signed and come from the peer.

  `serveTraced` serves a request as `serveFileContents` does and also notes the sums, the
  differences, the accesses to the list and the buffer on the way. The sum of offset and length is
  taken before it is checked: `request_safe_iff` says for which requests it does not fit in a
  `u64`, and that nothing else can go wrong.
-/
import LuodaRemote.Clipboard.Files

namespace LuodaRemote
open Lib

/-- Something that is done with numbers from a request. -/
inductive WireOp where
  /-- A sum of two `u64`. -/
  | add (a b : Nat)
  /-- A difference of two `u64`. -/
  | sub (a b : Nat)
  /-- The `i`-th entry of a list is used. -/
  | index (i length : Nat)
  /-- The buffer for bytes of a file of this size. -/
  | buffer (length size : Nat)
  deriving DecidableEq

/-- It stays within `u64`, within the list and within the file. -/
def WireOp.Safe : WireOp → Prop
  | .add a b => a + b < 2 ^ 64
  | .sub a b => b ≤ a
  | .index i length => i < length
  | .buffer length size => length ≤ size

namespace ClipFiles

/-- What is done to find out how much of the range there is. -/
def rangeOps (offset length : Nat) (fileIdx fileCount size : Nat) : List WireOp :=
  [.index fileIdx fileCount, .add offset length] ++
    (if size < (offset + length) % 2 ^ 64 then [.sub size offset] else []) ++
    [.buffer (readSize offset length size) size]

/-- `serve_file_contents` with the operations it comes to. -/
def serveTraced (fs : ClipFs) (connId : Int32) (request : ContentsRequest) (c : ClipFiles) :
    List WireOp × Option (Except CliprdrError ClipboardFile) × ClipFiles :=
  match request with
  | .size streamId fileIdx =>
    match c.fileList[fileIdx]? with
    | none => ([], some (.error (invalidIndex fileIdx connId)), c)
    | some file =>
      let r := c.respond fs fileIdx (.fileContentsResponse 1 streamId (sizeBytes file.size))
      ([.index fileIdx c.fileList.length, .add fileIdx 1], some r.1, r.2)
  | .range streamId fileIdx offset length =>
    match c.fileList[fileIdx]? with
    | none => ([], some (.error (invalidIndex fileIdx connId)), c)
    | some file =>
      if file.size < offset then
        ([.index fileIdx c.fileList.length], some (.error (invalidOffset connId)), c)
      else
        let size := readSize offset length file.size
        let ops := rangeOps offset length fileIdx c.fileList.length file.size
        if 2 ^ 63 ≤ size then (ops, none, c)
        else
          let r := file.readExactAt fs size offset
          let c := { c with fileList := c.fileList.set fileIdx r.2 }
          match r.1 with
          | .error e => (ops, some (.error e), c)
          | .ok buf =>
            let r := c.respond fs fileIdx (.fileContentsResponse 1 streamId buf)
            -- the first sum is the new offset of the file
            (ops ++ [.add offset size, .add fileIdx 1], some r.1, r.2)

end ClipFiles

/-! ## Requests leave the sizes alone -/

section Sizes

variable {fs : ClipFs} {c : ClipFiles}

theorem LocalFile.size_loadHandle {f f' : LocalFile} (h : f.loadHandle fs = .ok f') :
    f'.size = f.size := by
  unfold LocalFile.loadHandle at h
  split at h
  · split at h
    · cases h
    · cases h
    · cases h
      rfl
  · cases h
    rfl

theorem LocalFile.size_readExactAt (fs : ClipFs) (len offset : Nat) (f : LocalFile) :
    (f.readExactAt fs len offset).2.size = f.size := by
  unfold LocalFile.readExactAt
  cases hload : f.loadHandle fs with
  | error e => rfl
  | ok g =>
    rw [← LocalFile.size_loadHandle hload]
    dsimp only
    cases g.handle with
    | none => rfl
    | some pos =>
      dsimp only
      cases LocalFile.readExact fs g.path (if offset ≠ g.offset then offset else pos) len with
      | error e => rfl
      | ok bytes =>
        dsimp only
        by_cases hend : g.size ≤ offset + len
        · rw [if_pos hend]
        · rw [if_neg hend]

namespace ClipFiles

def sizes (c : ClipFiles) : List Nat := c.fileList.map (·.size)

theorem sizes_hotReload (fs : ClipFs) (l : List LocalFile) :
    (hotReload fs l).2.map (·.size) = l.map (·.size) := by
  induction l with
  | nil => rfl
  | cons f rest ih =>
    unfold hotReload
    by_cases hdir : f.isDir = true
    · rw [if_pos hdir]
      exact congrArg (f.size :: ·) ih
    · rw [if_neg hdir]
      cases hload : f.loadHandle fs with
      | error e => rfl
      | ok f' =>
        dsimp only
        rw [List.map_cons, List.map_cons, LocalFile.size_loadHandle hload]

theorem sizes_respond (fs : ClipFs) (fileIdx : Nat) (resp : ClipboardFile) (c : ClipFiles) :
    (c.respond fs fileIdx resp).2.sizes = c.sizes := by
  unfold respond sizes
  dsimp only
  rw [List.map_append, sizes_hotReload, ← List.map_append, List.take_append_drop]

theorem sizes_set {k : Nat} {file file' : LocalFile} (hk : c.fileList[k]? = some file)
    (hsize : file'.size = file.size) :
    sizes { c with fileList := c.fileList.set k file' } = c.sizes := by
  obtain ⟨hlt, rfl⟩ := List.getElem?_eq_some_iff.mp hk
  have hlt' : k < c.sizes.length := by
    rw [sizes, List.length_map]
    exact hlt
  have hget : c.sizes[k] = c.fileList[k].size := List.getElem_map _
  show (c.fileList.set k file').map (·.size) = c.sizes
  rw [List.map_set, hsize, ← hget]
  exact List.set_getElem_self hlt'

theorem sizes_serveFileContents (fs : ClipFs) (connId : Int32) (request : ContentsRequest)
    (c : ClipFiles) : (c.serveFileContents fs connId request).2.sizes = c.sizes := by
  unfold serveFileContents
  cases request with
  | size streamId fileIdx =>
    dsimp only
    cases c.fileList[fileIdx]? with
    | none => rfl
    | some file =>
      exact sizes_respond fs fileIdx (.fileContentsResponse 1 streamId (sizeBytes file.size)) c
  | range streamId fileIdx offset length =>
    dsimp only
    cases hfile : c.fileList[fileIdx]? with
    | none => rfl
    | some file =>
      dsimp only
      by_cases hoff : file.size < offset
      · rw [if_pos hoff]
      · rw [if_neg hoff]
        by_cases hbuf : 2 ^ 63 ≤ readSize offset length file.size
        · rw [if_pos hbuf]
        · rw [if_neg hbuf]
          have hset := sizes_set hfile
            (LocalFile.size_readExactAt fs (readSize offset length file.size) offset file)
          cases (file.readExactAt fs (readSize offset length file.size) offset).1 with
          | error e => exact hset
          | ok buf =>
            exact (sizes_respond fs fileIdx (.fileContentsResponse 1 streamId buf) _).trans
              hset

theorem sizes_readFileContents (fs : ClipFs)
    (connId streamId listIndex dwFlags nPositionLow nPositionHigh cbRequested : Int32)
    (c : ClipFiles) :
    (c.readFileContents fs connId streamId listIndex dwFlags nPositionLow nPositionHigh
      cbRequested).2.sizes = c.sizes := by
  unfold readFileContents
  cases parseRequest streamId listIndex dwFlags nPositionLow nPositionHigh cbRequested with
  | none => rfl
  | some fcr =>
    have hsizes := sizes_serveFileContents fs connId fcr c
    dsimp only
    rcases hserve : c.serveFileContents fs connId fcr with ⟨_ | res, c'⟩
    · rw [hserve] at hsizes
      exact hsizes
    · rw [hserve] at hsizes
      exact hsizes

end ClipFiles

end Sizes

/-! ## A request to what is kept -/

/-- `CLIP_FILES`. A size is an `off_t`, and a list fits into the memory. -/
structure ClipStore extends ClipFiles where
  files : List String
  filesPdu : Bytes
  sizes_lt : ∀ size ∈ toClipFiles.sizes, size < 2 ^ 63
  count_lt : toClipFiles.sizes.length < 2 ^ 63

namespace ClipStore

/-- What is kept after a request. -/
def withFiles (s : ClipStore) (c : ClipFiles) (h : c.sizes = s.toClipFiles.sizes) : ClipStore where
  toClipFiles := c
  files := s.files
  filesPdu := s.filesPdu
  sizes_lt := h ▸ s.sizes_lt
  count_lt := h ▸ s.count_lt

/-- What `read_file_contents` does with the numbers of a request. -/
def wireOps (fs : ClipFs)
    (connId streamId listIndex dwFlags nPositionLow nPositionHigh cbRequested : Int32)
    (s : ClipStore) : List WireOp :=
  match ClipFiles.parseRequest streamId listIndex dwFlags nPositionLow nPositionHigh
      cbRequested with
  | none => []
  | some fcr => (s.serveTraced fs connId fcr).1

/-- `read_file_contents` with the results and what is kept. -/
def read (fs : ClipFs)
    (connId streamId listIndex dwFlags nPositionLow nPositionHigh cbRequested : Int32)
    (s : ClipStore) : List (Except CliprdrError ClipboardFile) × ClipStore :=
  let r := s.readFileContents fs connId streamId listIndex dwFlags nPositionLow nPositionHigh
    cbRequested
  (r.1, s.withFiles r.2 (ClipFiles.sizes_readFileContents fs connId streamId listIndex dwFlags
    nPositionLow nPositionHigh cbRequested s.toClipFiles))

/-- Neither a size nor a range that begins inside a file of the list is asked for. -/
def OutOfRange (c : ClipFiles) : Option ContentsRequest → Prop
  | none => True
  | some (.size _ fileIdx) => c.fileList[fileIdx]? = none
  | some (.range _ fileIdx offset _) =>
    ∀ file, c.fileList[fileIdx]? = some file → file.size < offset

section Request

variable (fs : ClipFs)
  (connId streamId listIndex dwFlags nPositionLow nPositionHigh cbRequested : Int32)
  (s : ClipStore)

/-- All numbers stay in bounds, and a request for something that is not there is answered with an
    error and changes nothing. -/
structure SafeRequest : Prop where
  ops : ∀ op ∈ s.wireOps fs connId streamId listIndex dwFlags nPositionLow nPositionHigh
    cbRequested, op.Safe
  refused : OutOfRange s.toClipFiles (ClipFiles.parseRequest streamId listIndex dwFlags
      nPositionLow nPositionHigh cbRequested) →
    (∃ e, (s.read fs connId streamId listIndex dwFlags nPositionLow nPositionHigh
      cbRequested).1.getLast? = some (.error e)) ∧
    (s.read fs connId streamId listIndex dwFlags nPositionLow nPositionHigh cbRequested).2 = s

/-- A range of a negative length, of a file of the list and from inside the file on, that is not
    longer than what is before it. -/
def Backwards : Prop :=
  dwFlags = 2 ∧ 0 ≤ nPositionLow.toInt ∧ 0 ≤ nPositionHigh.toInt ∧ cbRequested.toInt < 0 ∧
    -cbRequested.toInt ≤ nPositionHigh.toInt * 2 ^ 32 + nPositionLow.toInt ∧
    ∃ file, s.fileList[asUsize listIndex.toInt]? = some file ∧
      nPositionHigh.toInt * 2 ^ 32 + nPositionLow.toInt ≤ file.size

end Request

end ClipStore

/-! ## Signed fields as unsigned numbers -/

section Fields

variable {low high x : Int32}

theorem asU64_of_nonneg (hx : 0 ≤ x.toInt) : (ClipFiles.asU64 x : Int) = x.toInt := by
  have hlt := x.toInt_lt
  unfold ClipFiles.asU64 asUsize
  omega

theorem asU64_of_neg (hx : x.toInt < 0) : (ClipFiles.asU64 x : Int) = 2 ^ 64 + x.toInt := by
  have hle := x.le_toInt
  unfold ClipFiles.asU64 asUsize
  omega

/-- The offset that is put together from the two fields. -/
def wireOffset (low high : Int32) : Nat :=
  (ClipFiles.asU64 high <<< 32) % 2 ^ 64 ||| ClipFiles.asU64 low

theorem wireOffset_of_nonneg (hlow : 0 ≤ low.toInt) (hhigh : 0 ≤ high.toInt) :
    (wireOffset low high : Int) = high.toInt * 2 ^ 32 + low.toInt := by
  have hl := asU64_of_nonneg hlow
  have hh := asU64_of_nonneg hhigh
  have hllt := low.toInt_lt
  have hhlt := high.toInt_lt
  unfold wireOffset
  rw [Nat.shiftLeft_eq, Nat.mod_eq_of_lt (by omega), ← Nat.shiftLeft_eq,
    ← Nat.shiftLeft_add_eq_or_of_lt (by omega), Nat.shiftLeft_eq]
  push_cast
  rw [hl, hh]

theorem wireOffset_of_neg (low high : Int32) (h : low.toInt < 0 ∨ high.toInt < 0) :
    2 ^ 63 ≤ wireOffset low high := by
  unfold wireOffset
  rcases h with hlow | hhigh
  · have hl := asU64_of_neg hlow
    have hle := low.le_toInt
    exact le_trans (by omega) Nat.right_le_or
  · have hh := asU64_of_neg hhigh
    have hle := high.le_toInt
    rw [Nat.shiftLeft_eq]
    exact le_trans (by omega) Nat.left_le_or

end Fields

/-! ## What can go wrong -/

namespace ClipFiles

variable {fs : ClipFs} {c : ClipFiles}

theorem safe_rangeOps_iff (length : Nat) {offset fileIdx fileCount size : Nat}
    (hindex : fileIdx < fileCount) (hoff : offset ≤ size) :
    (∀ op ∈ rangeOps offset length fileIdx fileCount size, op.Safe) ↔ offset + length < 2 ^ 64 := by
  constructor
  · intro hall
    exact hall (.add offset length) (by simp [rangeOps])
  · intro hsum op hop
    unfold rangeOps at hop
    rw [List.mem_append, List.mem_append] at hop
    rcases hop with (hop | hop) | hop
    · rcases List.mem_cons.mp hop with rfl | hop
      · exact hindex
      · rw [List.mem_singleton.mp hop]
        exact hsum
    · split at hop
      · rw [List.mem_singleton.mp hop]
        exact hoff
      · cases hop
    · rw [List.mem_singleton.mp hop]
      show readSize offset length size ≤ size
      unfold readSize
      split
      · exact Nat.sub_le size offset
      · rename_i hle
        rw [Nat.mod_eq_of_lt hsum] at hle
        omega

/-- The request is for a range from inside a file of the list on. -/
def InsideFile (c : ClipFiles) (request : ContentsRequest) (offset length : Nat) : Prop :=
  ∃ streamId fileIdx file, request = .range streamId fileIdx offset length ∧
    c.fileList[fileIdx]? = some file ∧ offset ≤ file.size

theorem index_fits (hcount : c.sizes.length < 2 ^ 63) {k : Nat} {file : LocalFile}
    (hk : c.fileList[k]? = some file) : k < c.fileList.length ∧ k + 1 < 2 ^ 64 := by
  have hlt := (List.getElem?_eq_some_iff.mp hk).1
  rw [sizes, List.length_map] at hcount
  exact ⟨hlt, by omega⟩

theorem safe_serveTraced_range (hsizes : ∀ size ∈ c.sizes, size < 2 ^ 63)
    (hcount : c.sizes.length < 2 ^ 63) (connId streamId : Int32) (fileIdx offset length : Nat) :
    (∀ op ∈ (c.serveTraced fs connId (.range streamId fileIdx offset length)).1, op.Safe) ↔
      ∀ file, c.fileList[fileIdx]? = some file → offset ≤ file.size →
        offset + length < 2 ^ 64 := by
  unfold serveTraced
  dsimp only
  cases hfile : c.fileList[fileIdx]? with
  | none => exact iff_of_true (List.forall_mem_nil _) (by rintro _ ⟨⟩)
  | some file =>
    have hindex := index_fits hcount hfile
    dsimp only
    by_cases hoff : file.size < offset
    · rw [if_pos hoff]
      refine iff_of_true (List.forall_mem_singleton.mpr hindex.1) ?_
      intro file' heq hle
      cases heq
      omega
    · rw [if_neg hoff]
      have hrange := safe_rangeOps_iff length hindex.1 (not_lt.mp hoff)
      have hfirst : (∀ file', some file = some file' → offset ≤ file'.size →
          offset + length < 2 ^ 64) ↔ offset + length < 2 ^ 64 :=
        ⟨fun h => h file rfl (not_lt.mp hoff), fun h _ _ _ => h⟩
      rw [hfirst, ← hrange]
      by_cases hbuf : 2 ^ 63 ≤ readSize offset length file.size
      · rw [if_pos hbuf]
      · rw [if_neg hbuf]
        cases (file.readExactAt fs (readSize offset length file.size) offset).1 with
        | error e => rfl
        | ok buf =>
          have hlt := hsizes file.size (List.mem_map_of_mem (List.mem_of_getElem? hfile))
          have hlast : ∀ op ∈ [WireOp.add offset (readSize offset length file.size),
              .add fileIdx 1], op.Safe :=
            List.forall_mem_cons.mpr ⟨by show _ + _ < 2 ^ 64; omega,
              List.forall_mem_singleton.mpr hindex.2⟩
          dsimp only
          rw [List.forall_mem_append]
          exact and_iff_left hlast

/-- Only the first sum can go wrong. -/
theorem safe_serveTraced_iff (hsizes : ∀ size ∈ c.sizes, size < 2 ^ 63)
    (hcount : c.sizes.length < 2 ^ 63) (connId : Int32) (request : ContentsRequest) :
    (∀ op ∈ (c.serveTraced fs connId request).1, op.Safe) ↔
      ∀ offset length, InsideFile c request offset length → offset + length < 2 ^ 64 := by
  cases request with
  | size streamId fileIdx =>
    refine iff_of_true ?_ ?_
    · unfold serveTraced
      dsimp only
      cases hfile : c.fileList[fileIdx]? with
      | none => exact List.forall_mem_nil _
      | some file =>
        have hindex := index_fits hcount hfile
        exact List.forall_mem_cons.mpr ⟨hindex.1, List.forall_mem_singleton.mpr hindex.2⟩
    · rintro offset length ⟨_, _, _, heq, -, -⟩
      cases heq
  | range streamId fileIdx offset length =>
    rw [safe_serveTraced_range hsizes hcount]
    constructor
    · rintro h o n ⟨_, _, file, heq, hfile, hoff⟩
      cases heq
      exact h file hfile hoff
    · intro h file hfile hoff
      exact h offset length ⟨streamId, fileIdx, file, rfl, hfile, hoff⟩

theorem serveFileContents_outOfRange (fs : ClipFs) {request : ContentsRequest}
    (hout : ClipStore.OutOfRange c (some request)) (connId : Int32) :
    ∃ e, c.serveFileContents fs connId request = (some (.error e), c) := by
  unfold serveFileContents
  cases request with
  | size streamId fileIdx =>
    have hnone : c.fileList[fileIdx]? = none := hout
    dsimp only
    rw [hnone]
    exact ⟨_, rfl⟩
  | range streamId fileIdx offset length =>
    dsimp only
    cases hfile : c.fileList[fileIdx]? with
    | none => exact ⟨_, rfl⟩
    | some file =>
      dsimp only
      rw [if_pos (hout file hfile)]
      exact ⟨_, rfl⟩

end ClipFiles

namespace ClipStore

variable {fs : ClipFs}

theorem read_outOfRange
    {connId streamId listIndex dwFlags nPositionLow nPositionHigh cbRequested : Int32}
    {s : ClipStore} (hout : OutOfRange s.toClipFiles (ClipFiles.parseRequest streamId listIndex
      dwFlags nPositionLow nPositionHigh cbRequested)) :
    (∃ e, (s.read fs connId streamId listIndex dwFlags nPositionLow nPositionHigh
      cbRequested).1.getLast? = some (.error e)) ∧
    (s.read fs connId streamId listIndex dwFlags nPositionLow nPositionHigh cbRequested).2 = s := by
  have hread : ∃ results e, results.getLast? = some (.error e) ∧
      s.readFileContents fs connId streamId listIndex dwFlags nPositionLow nPositionHigh
        cbRequested = (results, s.toClipFiles) := by
    unfold ClipFiles.readFileContents
    cases hparse : ClipFiles.parseRequest streamId listIndex dwFlags nPositionLow nPositionHigh
        cbRequested with
    | none => exact ⟨_, _, rfl, rfl⟩
    | some fcr =>
      rw [hparse] at hout
      obtain ⟨e, he⟩ := ClipFiles.serveFileContents_outOfRange fs hout connId
      dsimp only
      rw [he]
      exact ⟨_, e, List.getLast?_concat, rfl⟩
  obtain ⟨results, e, hlast, heq⟩ := hread
  have hfst : (s.read fs connId streamId listIndex dwFlags nPositionLow nPositionHigh
      cbRequested).1 = results := congrArg Prod.fst heq
  refine ⟨⟨e, by rw [hfst, hlast]⟩, ?_⟩
  have hsnd := congrArg Prod.snd heq
  cases s
  unfold read withFiles
  dsimp only at hsnd ⊢
  congr

/-- The sum is too large for a range of a negative length, if the offset makes up for it. -/
theorem inside_fits_iff
    {streamId listIndex dwFlags nPositionLow nPositionHigh cbRequested : Int32} {s : ClipStore}
    (hrange : dwFlags = 2) :
    (∀ offset length, ClipFiles.InsideFile s.toClipFiles (.range streamId (asUsize listIndex.toInt)
        (wireOffset nPositionLow nPositionHigh) (ClipFiles.asU64 cbRequested)) offset length →
      offset + length < 2 ^ 64) ↔
      ¬ Backwards listIndex dwFlags nPositionLow nPositionHigh cbRequested s := by
  constructor
  · rintro hfits ⟨-, hlow, hhigh, hneg, hback, file, hfile, hsize⟩
    have hoff := wireOffset_of_nonneg hlow hhigh
    have hlen := asU64_of_neg hneg
    have hsum := hfits _ _ ⟨streamId, _, file, rfl, hfile, by omega⟩
    omega
  · rintro hback offset length ⟨_, _, file, heq, hfile, hoff⟩
    cases heq
    have hsize := s.sizes_lt file.size (List.mem_map_of_mem (List.mem_of_getElem? hfile))
    have hsigns : 0 ≤ nPositionLow.toInt ∧ 0 ≤ nPositionHigh.toInt := by
      by_contra hno
      have hlarge := wireOffset_of_neg nPositionLow nPositionHigh (by omega)
      omega
    have hvalue := wireOffset_of_nonneg hsigns.1 hsigns.2
    by_cases hneg : cbRequested.toInt < 0
    · have hlen := asU64_of_neg hneg
      by_contra hsum
      refine hback ⟨hrange, hsigns.1, hsigns.2, hneg, ?_, file, hfile, ?_⟩
      · omega
      · omega
    · have hlen := asU64_of_nonneg (not_lt.mp hneg)
      have hlt := cbRequested.toInt_lt
      omega

/-- A request is served within bounds unless its range has a negative length that does not reach
    back before the beginning of the file. -/
theorem request_safe_iff (fs : ClipFs)
    (connId streamId listIndex dwFlags nPositionLow nPositionHigh cbRequested : Int32)
    (s : ClipStore) :
    SafeRequest fs connId streamId listIndex dwFlags nPositionLow nPositionHigh cbRequested s ↔
      ¬ Backwards listIndex dwFlags nPositionLow nPositionHigh cbRequested s := by
  have hiff : SafeRequest fs connId streamId listIndex dwFlags nPositionLow nPositionHigh
      cbRequested s ↔ ∀ op ∈ s.wireOps fs connId streamId listIndex dwFlags nPositionLow
        nPositionHigh cbRequested, op.Safe := ⟨fun h => h.ops, fun h => ⟨h, read_outOfRange⟩⟩
  rw [hiff]
  unfold wireOps ClipFiles.parseRequest
  by_cases hsize : dwFlags = 1
  · rw [if_pos hsize]
    refine iff_of_true ?_ ?_
    · refine (ClipFiles.safe_serveTraced_iff s.sizes_lt s.count_lt connId _).mpr ?_
      rintro offset length ⟨_, _, _, heq, -, -⟩
      cases heq
    · rintro ⟨hrange, -⟩
      rw [hsize] at hrange
      exact absurd hrange (by decide)
  · rw [if_neg hsize]
    by_cases hrange : dwFlags = 2
    · rw [if_pos hrange]
      dsimp only
      rw [ClipFiles.safe_serveTraced_iff s.sizes_lt s.count_lt]
      exact inside_fits_iff hrange
    · rw [if_neg hrange]
      exact iff_of_true (List.forall_mem_nil _) fun h => hrange h.1

/-- A list with one file, of three bytes. -/
def oneServed : ClipStore where
  fileList := [{ path := "a", size := 3, isDir := false }]
  firstFileIndex := 0
  files := ["a"]
  filesPdu := []
  sizes_lt := by
    unfold ClipFiles.sizes
    decide
  count_lt := by
    unfold ClipFiles.sizes
    decide

/-- The sum of 1 and -1 for a `u64`. -/
theorem backwards_overflows :
    .add 1 (2 ^ 64 - 1) ∈ oneServed.wireOps ClipFiles.sampleClipFs 1 7 0 2 1 0 (-1) ∧
      .buffer (2 ^ 64 - 1) 3 ∈ oneServed.wireOps ClipFiles.sampleClipFs 1 7 0 2 1 0 (-1) ∧
      ¬ SafeRequest ClipFiles.sampleClipFs 1 7 0 2 1 0 (-1) oneServed := by
  have hops : oneServed.wireOps ClipFiles.sampleClipFs 1 7 0 2 1 0 (-1) =
      [.index 0 1, .add 1 (2 ^ 64 - 1), .buffer (2 ^ 64 - 1) 3] := by
    decide +kernel
  rw [hops]
  refine ⟨by simp, by simp, fun hsafe => ?_⟩
  have hadd : (WireOp.add 1 (2 ^ 64 - 1)).Safe := hsafe.ops _ (by rw [hops]; simp)
  exact absurd hadd (by unfold WireOp.Safe; decide)

end ClipStore

end LuodaRemote
