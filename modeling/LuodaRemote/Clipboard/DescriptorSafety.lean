/-
  Whether describing a file, and reading descriptions, can panic: `LocalFile::as_bin`
  (`local_file.rs`) and `FileDescription::parse_file_descriptors` (`filetype.rs` of
  `libs/clipboard/src/platform/unix`), with arithmetic that is checked and reads that stop at the
  end of the bytes.

  `asBinChecked_eq` and `parseFileDescriptorsChecked_eq` compare them with the functions whose
  arithmetic wraps. `descriptors_safe_iff` says which paths are too long to be described and
  which bytes stop the reader: the ones with a time so late that it does not fit in 64 bits of
  nanoseconds.
-/
import LuodaRemote.Clipboard.Descriptors
import LuodaRemote.Lib.Checked

namespace LuodaRemote
open Lib

namespace Clip

/-- What stops a thread. -/
inductive Panic where
  | arithmetic (fault : Fault)
  /-- More is read than is left. -/
  | outOfBytes
deriving DecidableEq

def checked (x : Except Fault Nat) : Except Panic Nat := x.mapError .arithmetic

/-! ## Writing -/

/-- `as_bin`. -/
def asBinChecked (f : LocalFileEntry) : Except Panic Bytes := do
  let win32Time ← checked (U64.add (f.lastWriteTime.toNat % 2 ^ 64 / 100) ldapEpochDelta)
  let padding ← checked (U64.sub 520 f.nameBytes.length)
  .ok <|
    putLe 4 LocalFileEntry.flags ++ (List.replicate 32 0 ++ (putLe 4 f.attributes ++
      (List.replicate 12 0 ++ (putLe 4 f.perm.toNat ++ (putLe 8 win32Time ++
        (putLe 4 (f.size.toNat / 2 ^ 32) ++ (putLe 4 (f.size.toNat % 2 ^ 32) ++
          (f.nameBytes ++ List.replicate padding 0))))))))

theorem asBinChecked_eq (f : LocalFileEntry) :
    asBinChecked f = match f.asBin with
      | some bin => .ok bin
      | none => .error (.arithmetic .underflow) := by
  have htime : f.lastWriteTime.toNat % 2 ^ 64 / 100 + ldapEpochDelta < 2 ^ 64 := by
    have hlt : f.lastWriteTime.toNat % 2 ^ 64 < 2 ^ 64 := Nat.mod_lt _ (by decide)
    unfold ldapEpochDelta
    omega
  unfold asBinChecked LocalFileEntry.asBin
  rw [U64.add_ok htime]
  by_cases hlen : 520 < f.nameBytes.length
  · rw [U64.sub_underflow hlen, if_pos hlen]
    rfl
  · rw [U64.sub_ok (Nat.not_lt.mp hlen), if_neg hlen]
    rfl

/-! ## Reading -/

/-- `get_u32_le` and `get_u64_le`, by the number of bytes. -/
def getUint (n : Nat) (bytes : Bytes) : Except Panic (Nat × Bytes) :=
  if bytes.length < n then .error .outOfBytes else .ok (getLe (bytes.take n), bytes.drop n)

/-- `Buf::advance`. -/
def advance (n : Nat) (bytes : Bytes) : Except Panic Bytes :=
  if bytes.length < n then .error .outOfBytes else .ok (bytes.drop n)

/-- `UNIX_EPOCH + Duration::from_nanos(..)`: the seconds are an `i64`. -/
def afterEpoch (nanos : Nat) : Except Panic Nat :=
  if nanos / 10 ^ 9 < 2 ^ 63 then .ok nanos else .error (.arithmetic .overflow)

def parseTimeChecked (validWriteTime : Bool) (lastWriteTime : Nat) : Except Panic Nat :=
  if validWriteTime ∧ ldapEpochDelta ≤ lastWriteTime then do
    let since ← checked (U64.sub lastWriteTime ldapEpochDelta)
    let nanos ← checked (U64.mul since 100)
    afterEpoch nanos
  else .ok 0

/-- `parse_file_descriptor`, with the bytes after the descriptor. -/
def parseFileDescriptorChecked (bytes : Bytes) (connId : Int32) :
    Except Panic (Except DescriptorError (FileDescription × Bytes)) := do
  let (flags, bytes) ← getUint 4 bytes
  let bytes ← advance 32 bytes
  let (attributes, bytes) ← getUint 4 bytes
  let bytes ← advance 12 bytes
  let (perm, bytes) ← getUint 4 bytes
  let (lastWriteTime, bytes) ← getUint 8 bytes
  let (fileSizeHigh, bytes) ← getUint 4 bytes
  let (fileSizeLow, bytes) ← getUint 4 bytes
  let block := bytes
  let bytes ← advance 520 bytes
  match decodeUtf16 (units (block.take 520)) with
  | none => .ok (.error .conversionFailure)
  | some wstr =>
    if flags &&& flagsFdAttributes = 0 then
      .ok (.error (.invalidRequest "file description must have valid attributes"))
    else do
      let size ← checked (U64.add (fileSizeHigh * 2 ^ 32) fileSizeLow)
      let lastModified ← parseTimeChecked (flags &&& flagsFdLastWrite != 0) lastWriteTime
      .ok (.ok ({ connId := connId
                  name := parseName wstr
                  kind := if attributes &&& 0x10 ≠ 0 then .directory else .file
                  atime := lastModified
                  lastModified := lastModified
                  lastMetadataChanged := lastModified
                  creationTime := lastModified
                  size := size
                  perm := parsePerm (flags &&& flagsFdUnixMode != 0) attributes (perm % 2 ^ 16) },
                bytes))

/-- The loop over the descriptors. -/
def parseLoopChecked (connId : Int32) :
    Nat → Bytes → Except Panic (Except DescriptorError (List FileDescription))
  | 0, _ => .ok (.ok [])
  | count + 1, bytes =>
    match parseFileDescriptorChecked bytes connId with
    | .error p => .error p
    | .ok (.error e) => .ok (.error e)
    | .ok (.ok (desc, rest)) =>
      match parseLoopChecked connId count rest with
      | .error p => .error p
      | .ok (.error e) => .ok (.error e)
      | .ok (.ok descs) => .ok (.ok (desc :: descs))

/-- `parse_file_descriptors`. A `usize` has 64 bits. -/
def parseFileDescriptorsChecked (pdu : Bytes) (connId : Int32) :
    Except Panic (Except DescriptorError (List FileDescription)) :=
  if pdu.length < 4 then
    .ok (.error (.invalidRequest "file descriptor request with infficient length"))
  else do
    let (count, data) ← getUint 4 pdu
    if data.length = 0 ∧ count = 0 then .ok (.ok [])
    else do
      let expected ← checked (U64.mul 592 count)
      if data.length ≠ expected then
        .ok (.error (.invalidRequest "file descriptor request with invalid length"))
      else parseLoopChecked connId count data

/-! ## One descriptor -/

/-- The name, as far as it is one. -/
def recordName (rec : Bytes) : Option (List Char) := decodeUtf16 (units ((rec.drop 72).take 520))

/-- The descriptor is not refused: the name is text, and the attributes are valid. -/
def Described (rec : Bytes) : Prop :=
  (recordName rec).isSome = true ∧ getLe (rec.take 4) &&& flagsFdAttributes ≠ 0

/-- The time of the last write is valid, and beyond the year 2554. -/
def TooLate (rec : Bytes) : Prop :=
  getLe (rec.take 4) &&& flagsFdLastWrite ≠ 0 ∧
    ldapEpochDelta + 2 ^ 64 / 100 < getLe ((rec.drop 56).take 8)

section Record

variable {bytes : Bytes} {n : Nat}

theorem getUint_ok (h : n ≤ bytes.length) :
    getUint n bytes = .ok (getLe (bytes.take n), bytes.drop n) := if_neg (Nat.not_lt.mpr h)

theorem advance_ok (h : n ≤ bytes.length) : advance n bytes = .ok (bytes.drop n) :=
  if_neg (Nat.not_lt.mpr h)

theorem ok_bind {α β : Type} (a : α) (f : α → Except Panic β) :
    ((.ok a : Except Panic α) >>= f) = f a := rfl

theorem error_bind {α β : Type} (p : Panic) (f : α → Except Panic β) :
    ((.error p : Except Panic α) >>= f) = .error p := rfl

theorem checked_ok (n : Nat) : checked (.ok n) = .ok n := rfl

theorem checked_error (e : Fault) : checked (.error e) = .error (.arithmetic e) := rfl

theorem parseTimeChecked_late {t : Nat} (ht : ldapEpochDelta + 2 ^ 64 / 100 < t) :
    parseTimeChecked true t = .error (.arithmetic .overflow) := by
  have hle : ldapEpochDelta ≤ t := by omega
  unfold parseTimeChecked
  rw [if_pos ⟨rfl, hle⟩, U64.sub_ok hle, checked_ok, ok_bind, U64.mul_overflow (by omega),
    checked_error, error_bind]

theorem parseTimeChecked_ok {valid : Bool} {t : Nat}
    (ht : valid = true → t ≤ ldapEpochDelta + 2 ^ 64 / 100) :
    parseTimeChecked valid t = .ok (parseTime valid t) := by
  unfold parseTimeChecked parseTime
  by_cases hvalid : valid = true ∧ ldapEpochDelta ≤ t
  · have hle := ht hvalid.1
    have hfits : (t - ldapEpochDelta) * 100 < 2 ^ 64 := by omega
    rw [if_pos hvalid, if_pos hvalid, U64.sub_ok hvalid.2, checked_ok, ok_bind, U64.mul_ok hfits,
      checked_ok, ok_bind, Nat.mod_eq_of_lt hfits, afterEpoch, if_pos (by omega)]
  · rw [if_neg hvalid, if_neg hvalid]

theorem size_fits (hi lo : Bytes) (hhi : hi.length ≤ 4) (hlo : lo.length ≤ 4) :
    getLe hi * 2 ^ 32 + getLe lo < 2 ^ 64 := by
  have hhi' : getLe hi < 256 ^ 4 := (getLe_lt hi).trans_le (Nat.pow_le_pow_right (by decide) hhi)
  have hlo' : getLe lo < 256 ^ 4 := (getLe_lt lo).trans_le (Nat.pow_le_pow_right (by decide) hlo)
  omega

/-- A descriptor whose bytes are there. -/
theorem parseFileDescriptorChecked_ok (connId : Int32) (h : 592 ≤ bytes.length)
    (htime : Described bytes → ¬ TooLate bytes) :
    parseFileDescriptorChecked bytes connId = .ok (parseFileDescriptor bytes connId) := by
  unfold parseFileDescriptorChecked parseFileDescriptor
  simp (disch := (try simp only [List.length_drop]); omega) only [getUint_ok, advance_ok, ok_bind,
    List.drop_drop]
  have hname : decodeUtf16 (units ((bytes.drop (4 + 32 + 4 + 12 + 4 + 8 + 4 + 4)).take 520)) =
      recordName bytes := rfl
  rw [hname]
  cases hn : recordName bytes with
  | none => rfl
  | some wstr =>
    dsimp only
    by_cases hattr : getLe (bytes.take 4) &&& flagsFdAttributes = 0
    · rw [if_pos hattr, if_pos hattr]
    · rw [if_neg hattr, if_neg hattr, U64.add_ok (size_fits _ _ (List.length_take_le _ _)
        (List.length_take_le _ _)), checked_ok, ok_bind, parseTimeChecked_ok, ok_bind]
      intro hvalid
      by_contra hlate
      exact htime ⟨by rw [hn]; rfl, hattr⟩ ⟨bne_iff_ne.mp hvalid, Nat.not_le.mp hlate⟩

theorem parseFileDescriptorChecked_late (connId : Int32) (h : 592 ≤ bytes.length)
    (hdescribed : Described bytes) (hlate : TooLate bytes) :
    parseFileDescriptorChecked bytes connId = .error (.arithmetic .overflow) := by
  unfold parseFileDescriptorChecked
  simp (disch := (try simp only [List.length_drop]); omega) only [getUint_ok, advance_ok, ok_bind,
    List.drop_drop]
  have hname : decodeUtf16 (units ((bytes.drop (4 + 32 + 4 + 12 + 4 + 8 + 4 + 4)).take 520)) =
      recordName bytes := rfl
  obtain ⟨wstr, hn⟩ := Option.isSome_iff_exists.mp hdescribed.1
  rw [hname, hn]
  dsimp only
  rw [if_neg hdescribed.2, U64.add_ok (size_fits _ _ (List.length_take_le _ _)
    (List.length_take_le _ _)), checked_ok, ok_bind, bne_iff_ne.mpr hlate.1,
    parseTimeChecked_late hlate.2, error_bind]

theorem parse_described (connId : Int32) (hdescribed : Described bytes) :
    ∃ d, parseFileDescriptor bytes connId = .ok (d, bytes.drop 592) := by
  have hname : decodeUtf16 (units ((bytes.drop (4 + 32 + 4 + 12 + 4 + 8 + 4 + 4)).take 520)) =
      recordName bytes := rfl
  obtain ⟨wstr, hn⟩ := Option.isSome_iff_exists.mp hdescribed.1
  unfold parseFileDescriptor
  simp only [List.drop_drop]
  rw [hname, hn]
  dsimp only
  rw [if_neg hdescribed.2]
  exact ⟨_, rfl⟩

theorem parse_undescribed (connId : Int32) (hdescribed : ¬ Described bytes) :
    ∃ e, parseFileDescriptor bytes connId = .error e := by
  have hname : decodeUtf16 (units ((bytes.drop (4 + 32 + 4 + 12 + 4 + 8 + 4 + 4)).take 520)) =
      recordName bytes := rfl
  unfold parseFileDescriptor
  simp only [List.drop_drop]
  rw [hname]
  cases hn : recordName bytes with
  | none => exact ⟨_, rfl⟩
  | some wstr =>
    dsimp only
    rw [if_pos (by_contra fun hattr => hdescribed ⟨by rw [hn]; rfl, hattr⟩)]
    exact ⟨_, rfl⟩

end Record

/-! ## The list -/

/-- The reader comes to a descriptor with a time that is too late: it is not refused, and none
    before it is. -/
def LateReached (count : Nat) (data : Bytes) : Prop :=
  ∃ i < count, (∀ j ≤ i, Described (data.drop (592 * j))) ∧ TooLate (data.drop (592 * i))

section List

variable {count : Nat} {data : Bytes}

theorem lateReached_succ :
    LateReached (count + 1) data ↔
      Described data ∧ (TooLate data ∨ LateReached count (data.drop 592)) := by
  constructor
  · rintro ⟨i, hi, hdescribed, hlate⟩
    have hfirst := hdescribed 0 (Nat.zero_le i)
    refine ⟨hfirst, ?_⟩
    cases i with
    | zero => exact .inl hlate
    | succ i =>
      refine .inr ⟨i, by omega, fun j hj => ?_, ?_⟩
      · rw [List.drop_drop, Nat.add_comm, ← Nat.mul_succ]
        exact hdescribed (j + 1) (by omega)
      · rw [List.drop_drop, Nat.add_comm, ← Nat.mul_succ]
        exact hlate
  · rintro ⟨hfirst, hlate | ⟨i, hi, hdescribed, hlate⟩⟩
    · refine ⟨0, Nat.succ_pos count, fun j hj => ?_, hlate⟩
      obtain rfl := Nat.le_zero.mp hj
      exact hfirst
    · refine ⟨i + 1, by omega, fun j hj => ?_, ?_⟩
      · cases j with
        | zero => exact hfirst
        | succ j =>
          have hnext := hdescribed j (by omega)
          rwa [List.drop_drop, Nat.add_comm, ← Nat.mul_succ] at hnext
      · rwa [List.drop_drop, Nat.add_comm, ← Nat.mul_succ] at hlate

theorem parseLoopChecked_ok (connId : Int32) (hlen : data.length = 592 * count)
    (htime : ¬ LateReached count data) :
    parseLoopChecked connId count data = .ok (parseLoop connId count data) := by
  induction count generalizing data with
  | zero => rfl
  | succ count ih =>
    rw [lateReached_succ] at htime
    have hfirst := parseFileDescriptorChecked_ok connId (by omega : 592 ≤ data.length)
      fun hdescribed hlate => htime ⟨hdescribed, .inl hlate⟩
    rw [parseLoopChecked, parseLoop, hfirst]
    by_cases hdescribed : Described data
    · obtain ⟨d, hparse⟩ := parse_described connId hdescribed
      rw [hparse]
      dsimp only
      rw [ih (by rw [List.length_drop]; omega) fun hlate => htime ⟨hdescribed, .inr hlate⟩]
      cases parseLoop connId count (data.drop 592) <;> rfl
    · obtain ⟨e, hparse⟩ := parse_undescribed connId hdescribed
      rw [hparse]

theorem parseLoopChecked_late (connId : Int32) (hlen : data.length = 592 * count)
    (htime : LateReached count data) :
    parseLoopChecked connId count data = .error (.arithmetic .overflow) := by
  induction count generalizing data with
  | zero =>
    obtain ⟨i, hi, -⟩ := htime
    exact absurd hi (Nat.not_lt_zero i)
  | succ count ih =>
    have hlen' : 592 ≤ data.length := by omega
    obtain ⟨hdescribed, hlate⟩ := lateReached_succ.mp htime
    rw [parseLoopChecked]
    by_cases hnow : TooLate data
    · rw [parseFileDescriptorChecked_late connId hlen' hdescribed hnow]
    · obtain ⟨d, hparse⟩ := parse_described connId hdescribed
      rw [parseFileDescriptorChecked_ok connId hlen' fun _ => hnow, hparse]
      dsimp only
      rw [ih (by rw [List.length_drop]; omega) (hlate.resolve_left hnow)]

end List

/-- The bytes are a list of the length that they begin with, and the reader comes to a time that
    is too late. -/
def LateListed (pdu : Bytes) : Prop :=
  4 ≤ pdu.length ∧ pdu.length = 4 + 592 * getLe (pdu.take 4) ∧
    LateReached (getLe (pdu.take 4)) (pdu.drop 4)

theorem parseFileDescriptorsChecked_late (pdu : Bytes) (connId : Int32) (hlate : LateListed pdu) :
    parseFileDescriptorsChecked pdu connId = .error (.arithmetic .overflow) := by
  obtain ⟨hmin, hlen, hreached⟩ := hlate
  have hcount : getLe (pdu.take 4) < 256 ^ 4 :=
    (getLe_lt _).trans_le (Nat.pow_le_pow_right (by decide) (List.length_take_le _ _))
  have hpos : 0 < getLe (pdu.take 4) := by
    obtain ⟨i, hi, -⟩ := hreached
    omega
  have hdata : (pdu.drop 4).length = 592 * getLe (pdu.take 4) := by
    rw [List.length_drop]
    omega
  unfold parseFileDescriptorsChecked
  rw [if_neg (Nat.not_lt.mpr hmin), getUint_ok hmin, ok_bind]
  dsimp only
  rw [if_neg (by omega), U64.mul_ok (by omega), checked_ok, ok_bind, if_neg (not_not.mpr hdata)]
  exact parseLoopChecked_late connId hdata hreached

theorem parseFileDescriptorsChecked_ok (pdu : Bytes) (connId : Int32) (htime : ¬ LateListed pdu) :
    parseFileDescriptorsChecked pdu connId = .ok (parseFileDescriptors pdu connId) := by
  have hcount : getLe (pdu.take 4) < 256 ^ 4 :=
    (getLe_lt _).trans_le (Nat.pow_le_pow_right (by decide) (List.length_take_le _ _))
  unfold parseFileDescriptorsChecked parseFileDescriptors
  by_cases hmin : pdu.length < 4
  · rw [if_pos hmin, if_pos hmin]
  · rw [if_neg hmin, if_neg hmin, getUint_ok (Nat.not_lt.mp hmin), ok_bind]
    dsimp only
    by_cases hempty : (pdu.drop 4).length = 0 ∧ getLe (pdu.take 4) = 0
    · rw [if_pos hempty, if_pos hempty]
    · rw [if_neg hempty, if_neg hempty, U64.mul_ok (by omega), checked_ok, ok_bind]
      by_cases hlen : (pdu.drop 4).length = 592 * getLe (pdu.take 4)
      · rw [if_neg (not_not.mpr hlen), if_neg (not_not.mpr hlen)]
        refine parseLoopChecked_ok connId hlen fun hreached => htime ⟨?_, ?_, hreached⟩
        · exact Nat.not_lt.mp hmin
        · rw [List.length_drop] at hlen
          omega
      · rw [if_pos hlen, if_pos hlen]

/-! ## When nothing stops the thread -/

/-- A file is described in 592 bytes. -/
def DescribedIn592 (f : LocalFileEntry) : Prop :=
  ∃ bin, asBinChecked f = .ok bin ∧ bin.length = 592

/-- Reading the bytes ends with an error or a list. -/
def ParsedSafely (pdu : Bytes) (connId : Int32) : Prop :=
  ∃ r, parseFileDescriptorsChecked pdu connId = .ok r

theorem describedIn592_iff (f : LocalFileEntry) : DescribedIn592 f ↔ f.Fits := by
  have hlen : f.nameBytes.length = 2 * (encodeUtf16 f.relativePath.toList).length := by
    rw [LocalFileEntry.nameBytes, length_utf16Bytes]
  unfold DescribedIn592
  rw [asBinChecked_eq]
  constructor
  · rintro ⟨bin, hbin, -⟩
    by_contra hlong
    rw [LocalFileEntry.Fits, not_le] at hlong
    have hnone : f.asBin = none := by
      rw [LocalFileEntry.asBin, if_pos (by omega)]
    rw [hnone] at hbin
    cases hbin
  · intro hfits
    obtain ⟨bin, hbin⟩ := asBin_of_fits hfits
    rw [hbin]
    exact ⟨bin, rfl, length_asBin hbin⟩

/-- A file is described precisely if its path has at most 260 units of UTF-16, and bytes are read
    without a panic precisely if no time that is too late is come to. -/
theorem descriptors_safe_iff (f : LocalFileEntry) (pdu : Bytes) (connId : Int32) :
    (DescribedIn592 f ↔ f.Fits) ∧ (ParsedSafely pdu connId ↔ ¬ LateListed pdu) := by
  refine ⟨describedIn592_iff f, ?_, ?_⟩
  · rintro ⟨r, hr⟩ hlate
    rw [parseFileDescriptorsChecked_late pdu connId hlate] at hr
    cases hr
  · intro htime
    exact ⟨_, parseFileDescriptorsChecked_ok pdu connId htime⟩

/-- A name of 261 letters. -/
def longName : String := String.ofList (List.replicate 261 'a')

theorem longName_noNul : '\x00' ∉ longName.toList := by
  unfold longName
  rw [String.toList_ofList, List.mem_replicate]
  exact fun h => absurd h.2 (by decide)

/-- One descriptor, with valid attributes and a time of all ones. -/
def latePdu : Bytes :=
  putLe 4 1 ++ (putLe 4 (flagsFdAttributes ||| flagsFdLastWrite) ++ (List.replicate 32 0 ++
    (putLe 4 0x80 ++ (List.replicate 16 0 ++ (List.replicate 8 255 ++ List.replicate 528 0)))))

/-- A path that cannot be described, and a list that stops its reader. -/
theorem panics :
    ¬ DescribedIn592 (sampleEntry longName longName_noNul) ∧
      parseFileDescriptorsChecked latePdu 1 = .error (.arithmetic .overflow) ∧
      ¬ ParsedSafely latePdu 1 := by
  have hlate : parseFileDescriptorsChecked latePdu 1 = .error (.arithmetic .overflow) := by
    decide +kernel
  refine ⟨?_, hlate, ?_⟩
  · rw [describedIn592_iff, LocalFileEntry.Fits]
    show ¬ (encodeUtf16 longName.toList).length ≤ 260
    unfold longName
    rw [String.toList_ofList]
    decide +kernel
  · rintro ⟨r, hr⟩
    rw [hlate] at hr
    cases hr

end Clip

end LuodaRemote
