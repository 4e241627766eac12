/-
  The remembered position of a served file: `load_handle` and `read_exact_at` of
  `libs/clipboard/src/platform/unix/local_file.rs`, where any call to the system may fail.

  A read at the remembered offset does not seek. The offset is remembered only after a read that
  worked, while a read that fails may have moved the handle. `reads_right` says that reads give
  the right bytes as long as none of them starts with a handle that was moved so
  (`not_displaced_along`); `readExactAt_displaced` says what it gives otherwise.

  The file does not change. A handle is the position of its `BufReader`, buffered bytes not
  counted.
-/
import LuodaRemote.Clipboard.Files

namespace LuodaRemote
open Lib

/-- What the system answers while a file is read once. -/
structure ReadTurn where
  openError : Option String := none
  /-- The error of the first `fill_buf`. -/
  fillError : Option String := none
  seekError : Option String := none
  /-- The error that `read_exact` meets, and after how many bytes. -/
  readError : Option (Nat × String) := none
  deriving DecidableEq

namespace ReadPosition

/-- `load_handle`. -/
def loadHandle (turn : ReadTurn) (f : LocalFile) : Except CliprdrError LocalFile :=
  if !f.isDir && f.handle.isNone then
    match turn.openError, turn.fillError with
    | some err, _ => .error (.fileError f.path err)
    | none, some err => .error (.fileError f.path err)
    | none, none => .ok { f with handle := some 0 }
  else .ok f

/-- `BufReader::read_exact` from `pos` on, with the position after it. -/
def readExact (content : Bytes) (pos len : Nat) (readError : Option (Nat × String)) :
    Except String Bytes × Nat :=
  let available := content.length - pos
  let whole : Except String Bytes × Nat :=
    if len ≤ available then (.ok ((content.drop pos).take len), pos + len)
    else (.error "failed to fill whole buffer", pos + available)
  if len = 0 then (.ok [], pos)
  else match readError with
    | none => whole
    | some (after, err) =>
      if after < len ∧ after ≤ available then (.error err, pos + after) else whole

/-- `read_exact_at`, with the bytes that the buffer is filled with. -/
def readExactAt (content : Bytes) (turn : ReadTurn) (len offset : Nat) (f : LocalFile) :
    Except CliprdrError Bytes × LocalFile :=
  match loadHandle turn f with
  | .error e => (.error e, f)
  | .ok f =>
    match f.handle with
    | none => (.error (.fileError f.path "file handle not found"), f)
    | some pos =>
      match (if offset ≠ f.offset then turn.seekError else none) with
      | some err => (.error (.fileError f.path err), f)
      | none =>
        let pos := if offset ≠ f.offset then offset else pos
        let r := readExact content pos len turn.readError
        match r.1 with
        | .error err => (.error (.fileError f.path err), { f with handle := some r.2 })
        | .ok bytes =>
          let newOffset := offset + len
          -- The handle is given up at the end of the file.
          if f.size ≤ newOffset then (.ok bytes, { f with offset := 0, handle := none })
          else (.ok bytes, { f with offset := newOffset, handle := some r.2 })

/-- A call to a served file. -/
inductive Call where
  | load (turn : ReadTurn)
  | read (turn : ReadTurn) (len offset : Nat)
  deriving DecidableEq

def step (content : Bytes) (f : LocalFile) : Call → LocalFile
  | .load turn =>
    match loadHandle turn f with
    | .error _ => f
    | .ok f => f
  | .read turn len offset => (readExactAt content turn len offset f).2

/-! ## The property -/

/-- Every read that works, in whatever state it finds the file, gives the bytes from its offset
    on. -/
def ReadsRight (content : Bytes) (f : LocalFile) (calls : List Call) : Prop :=
  ∀ before turn len offset after, calls = before ++ .read turn len offset :: after →
    ∀ bytes, (readExactAt content turn len offset (run (step content) f before)).1 = .ok bytes →
      bytes = (content.drop offset).take len ∧ bytes.length = len

/-- The call is a read at the remembered offset, the handle stands elsewhere, and there are enough
    bytes where it stands. -/
def Displaced (content : Bytes) (f : LocalFile) : Call → Prop
  | .load _ => False
  | .read _ len offset =>
    len ≠ 0 ∧ offset = f.offset ∧
      ∃ pos, f.handle = some pos ∧ pos ≠ offset ∧ pos + len ≤ content.length

/-! ## One call -/

/-- Without a handle, nothing is remembered. -/
def Fresh (f : LocalFile) : Prop := f.handle = none → f.offset = 0

/-- The handle stands where it is remembered. -/
def Placed (f : LocalFile) : Prop := ∀ pos, f.handle = some pos → pos = f.offset

/-- The read fails once it has moved the handle. -/
def FailsMoved (content : Bytes) (f : LocalFile) : Call → Prop
  | .load _ => False
  | .read turn len offset => ∃ e g, (readExactAt content turn len offset f).1 = .error e ∧
      loadHandle turn f = .ok g ∧ (readExactAt content turn len offset f).2.handle ≠ g.handle

section Step

variable {content : Bytes} {turn : ReadTurn} {len offset pos pos' : Nat} {f f' : LocalFile}
  {bytes : Bytes}

theorem readExact_ok {readError : Option (Nat × String)}
    (h : readExact content pos len readError = (.ok bytes, pos')) :
    pos' = pos + len ∧ bytes = (content.drop pos).take len ∧ bytes.length = len ∧
      (len ≠ 0 → pos + len ≤ content.length) := by
  unfold readExact at h
  dsimp only at h
  by_cases hzero : len = 0
  · rw [if_pos hzero] at h
    cases h
    exact ⟨by rw [hzero]; rfl, by rw [hzero, List.take_zero], hzero.symm,
      fun hne => absurd hzero hne⟩
  · rw [if_neg hzero] at h
    have hwhole : (if len ≤ content.length - pos then
        ((.ok ((content.drop pos).take len), pos + len) : Except String Bytes × Nat)
        else (.error "failed to fill whole buffer", pos + (content.length - pos))) =
          (.ok bytes, pos') → pos' = pos + len ∧ bytes = (content.drop pos).take len ∧
            bytes.length = len ∧ (len ≠ 0 → pos + len ≤ content.length) := by
      intro h
      by_cases hle : len ≤ content.length - pos
      · rw [if_pos hle] at h
        cases h
        refine ⟨rfl, rfl, ?_, fun _ => by omega⟩
        rw [List.length_take, List.length_drop]
        omega
      · rw [if_neg hle] at h
        cases h
    cases readError with
    | none => exact hwhole h
    | some e =>
      dsimp only at h
      split at h
      · cases h
      · exact hwhole h

theorem fresh_loadHandle (hf : Fresh f) (h : loadHandle turn f = .ok f') :
    Fresh f' ∧ f'.offset = f.offset ∧ (∀ pos, f'.handle = some pos →
      f.handle = some pos ∨ pos = f.offset) := by
  unfold loadHandle at h
  by_cases hopen : (!f.isDir && f.handle.isNone) = true
  · rw [if_pos hopen] at h
    have hnone : f.handle = none := by
      rw [Bool.and_eq_true, Option.isNone_iff_eq_none] at hopen
      exact hopen.2
    cases ho : turn.openError with
    | some err =>
      rw [ho] at h
      cases h
    | none =>
      cases hfill : turn.fillError with
      | some err =>
        rw [ho, hfill] at h
        cases h
      | none =>
        rw [ho, hfill] at h
        cases h
        refine ⟨nofun, rfl, fun pos hpos => .inr ?_⟩
        rw [hf hnone]
        exact (Option.some.inj hpos).symm
  · rw [if_neg hopen] at h
    cases h
    exact ⟨hf, rfl, fun pos hpos => .inl hpos⟩

theorem placed_loadHandle (hf : Fresh f) (hp : Placed f) (h : loadHandle turn f = .ok f') :
    Placed f' := by
  obtain ⟨-, hoff, hhandle⟩ := fresh_loadHandle hf h
  intro pos hpos
  rw [hoff]
  exact (hhandle pos hpos).elim (hp pos) id

/-- What is left of a file by a read. -/
theorem fresh_readExactAt (hf : Fresh f) : Fresh (readExactAt content turn len offset f).2 := by
  unfold readExactAt
  cases hload : loadHandle turn f with
  | error e => exact hf
  | ok g =>
    have hg := (fresh_loadHandle hf hload).1
    dsimp only
    cases hh : g.handle with
    | none => exact hg
    | some pos =>
      dsimp only
      cases (if offset ≠ g.offset then turn.seekError else none) with
      | some err => exact hg
      | none =>
        dsimp only
        cases (readExact content (if offset ≠ g.offset then offset else pos) len
          turn.readError).1 with
        | error err => exact nofun
        | ok bytes =>
          dsimp only
          by_cases hend : g.size ≤ offset + len
          · rw [if_pos hend]
            exact fun _ => rfl
          · rw [if_neg hend]
            exact nofun

theorem fresh_step (hf : Fresh f) (call : Call) : Fresh (step content f call) := by
  cases call with
  | load turn =>
    unfold step
    dsimp only
    cases hload : loadHandle turn f with
    | error e => exact hf
    | ok g => exact (fresh_loadHandle hf hload).1
  | read turn len offset => exact fresh_readExactAt hf

/-- A read that works has read from the place to which it sought, or from where the handle was. -/
theorem readExactAt_from (h : (readExactAt content turn len offset f).1 = .ok bytes) :
    ∃ g pos, loadHandle turn f = .ok g ∧ g.handle = some pos ∧
      bytes = (content.drop (if offset ≠ g.offset then offset else pos)).take len ∧
      bytes.length = len ∧
      (len ≠ 0 → (if offset ≠ g.offset then offset else pos) + len ≤ content.length) := by
  unfold readExactAt at h
  cases hload : loadHandle turn f with
  | error e =>
    rw [hload] at h
    cases h
  | ok g =>
    rw [hload] at h
    dsimp only at h
    cases hh : g.handle with
    | none =>
      rw [hh] at h
      cases h
    | some pos =>
      rw [hh] at h
      dsimp only at h
      refine ⟨g, pos, rfl, hh, ?_⟩
      cases hseek : (if offset ≠ g.offset then turn.seekError else none) with
      | some err =>
        rw [hseek] at h
        cases h
      | none =>
        rw [hseek] at h
        dsimp only at h
        rcases hread : readExact content (if offset ≠ g.offset then offset else pos) len
          turn.readError with ⟨err | bytes', pos'⟩
        · rw [hread] at h
          cases h
        · rw [hread] at h
          dsimp only at h
          have hbytes : bytes' = bytes := by
            by_cases hend : g.size ≤ offset + len
            · rw [if_pos hend] at h
              exact Except.ok.inj h
            · rw [if_neg hend] at h
              exact Except.ok.inj h
          exact hbytes ▸ (readExact_ok hread).2

/-- The step lemma: without a displaced handle the bytes are those from the offset on. -/
theorem readExactAt_right (hf : Fresh f) (hplaced : ¬ Displaced content f (.read turn len offset))
    (h : (readExactAt content turn len offset f).1 = .ok bytes) :
    bytes = (content.drop offset).take len ∧ bytes.length = len := by
  obtain ⟨g, pos, hload, hpos, hbytes, hlength, hinside⟩ := readExactAt_from h
  refine ⟨?_, hlength⟩
  by_cases hzero : len = 0
  · rw [hbytes, hzero, List.take_zero, List.take_zero]
  · by_cases hseek : offset ≠ g.offset
    · rw [hbytes, if_pos hseek]
    · obtain ⟨-, hoff, hhandle⟩ := fresh_loadHandle hf hload
      rw [if_neg hseek] at hbytes hinside
      have hremembered : offset = f.offset := (not_not.mp hseek).trans hoff
      have hat : pos = offset := by
        rcases hhandle pos hpos with hopen | hnew
        · by_contra hne
          exact hplaced ⟨hzero, hremembered, pos, hopen, hne, hinside hzero⟩
        · rw [hnew, hremembered]
      rw [hbytes, hat]

/-- A displaced handle is not moved, so the bytes are those that follow it. -/
theorem readExactAt_displaced (hopen : f.handle = some pos) (hlen : pos + len ≤ content.length)
    (hread : turn.readError = none) :
    (readExactAt content turn len f.offset f).1 = .ok ((content.drop pos).take len) := by
  have hload : loadHandle turn f = .ok f := by
    unfold loadHandle
    rw [hopen, Option.isNone_some, Bool.and_false, if_neg Bool.false_ne_true]
  have hbytes : readExact content pos len none =
      (.ok ((content.drop pos).take len), pos + len) := by
    unfold readExact
    dsimp only
    by_cases hzero : len = 0
    · rw [if_pos hzero, hzero, List.take_zero, Nat.add_zero]
    · rw [if_neg hzero, if_pos (by omega)]
  have hsame : ¬ f.offset ≠ f.offset := fun hne => hne rfl
  unfold readExactAt
  rw [hload]
  dsimp only
  rw [hopen]
  dsimp only
  rw [if_neg hsame, if_neg hsame, hread, hbytes]
  dsimp only
  by_cases hend : f.size ≤ f.offset + len
  · rw [if_pos hend]
  · rw [if_neg hend]

/-- The exits of a read, but for a failed one that has moved the handle, keep the handle where it
    is remembered. -/
theorem placed_readExactAt (hf : Fresh f) (hp : Placed f)
    (hkept : ¬ FailsMoved content f (.read turn len offset)) :
    Placed (readExactAt content turn len offset f).2 := by
  unfold FailsMoved at hkept
  dsimp only at hkept
  unfold readExactAt at *
  cases hload : loadHandle turn f with
  | error e => exact hp
  | ok g =>
    have hg := placed_loadHandle hf hp hload
    rw [hload] at hkept
    dsimp only at hkept ⊢
    cases hh : g.handle with
    | none => exact hg
    | some pos =>
      rw [hh] at hkept
      dsimp only at hkept ⊢
      cases hseek : (if offset ≠ g.offset then turn.seekError else none) with
      | some err => exact hg
      | none =>
        rw [hseek] at hkept
        dsimp only at hkept ⊢
        rcases hread : readExact content (if offset ≠ g.offset then offset else pos) len
          turn.readError with ⟨err | bytes, pos'⟩
        · rw [hread] at hkept
          intro at' hat
          have hsame : some pos' = g.handle := by
            by_contra hmoved
            exact hkept ⟨_, _, rfl, rfl, hmoved⟩
          exact hg at' (hsame ▸ hat)
        · dsimp only
          by_cases hend : g.size ≤ offset + len
          · rw [if_pos hend]
            exact nofun
          · rw [if_neg hend]
            intro at' hat
            -- what was read starts where the handle is remembered
            have hfrom : (if offset ≠ g.offset then offset else pos) = offset := by
              split
              · rfl
              · rename_i hsame
                exact (hg pos hh).trans (not_not.mp hsame).symm
            rw [← Option.some.inj hat, (readExact_ok hread).1, hfrom]

theorem placed_step (hf : Fresh f) (hp : Placed f) (call : Call)
    (hkept : ¬ FailsMoved content f call) : Placed (step content f call) := by
  cases call with
  | load turn =>
    unfold step
    dsimp only
    cases hload : loadHandle turn f with
    | error e => exact hp
    | ok g => exact placed_loadHandle hf hp hload
  | read turn len offset => exact placed_readExactAt hf hp hkept

end Step

/-- A handle stands elsewhere than it is remembered only after a read that failed once it had moved
    it. -/
theorem not_displaced_along (content : Bytes) (path : String) (size : Nat) (isDir : Bool)
    (calls : List Call)
    (hkept : Along (step content) (fun f call => ¬ FailsMoved content f call)
      { path, size, isDir } calls) :
    Along (step content) (fun f call => ¬ Displaced content f call)
      { path, size, isDir } calls := by
  have hplaced : Always (step content) (fun f => Fresh f ∧ Placed f) { path, size, isDir } calls :=
    always_of_along
      (fun f call hf hkept => ⟨fresh_step hf.1 call, placed_step hf.1 hf.2 call hkept⟩)
      ⟨fun _ => rfl, nofun⟩ hkept
  refine hplaced.along (fun f call hf _ => ?_) hkept
  cases call with
  | load turn => exact id
  | read turn len offset =>
    rintro ⟨-, rfl, pos, hpos, hne, -⟩
    exact hne (hf.2 pos hpos)

/-- In a run in which no read at the remembered offset starts with a handle that an earlier read
    has moved, every read that works gives the bytes from its offset on. -/
theorem reads_right (content : Bytes) (path : String) (size : Nat) (isDir : Bool)
    (calls : List Call)
    (hplaced : Along (step content) (fun f call => ¬ Displaced content f call)
      { path, size, isDir } calls) :
    ReadsRight content { path, size, isDir } calls := by
  rintro before turn len offset after rfl bytes h
  have hfresh : Fresh (run (step content) { path, size, isDir } before) :=
    (always_of_step (P := Fresh) (fun f call hf => fresh_step hf call) (fun _ => rfl) before).last
  obtain ⟨-, hcall, -⟩ := along_append.mp hplaced
  exact readExactAt_right hfresh hcall h

/-- A file of twelve bytes. -/
def twelve : Bytes := (List.range 12).map UInt8.ofNat

/-- A read, one that cannot seek, and one at the offset that is remembered of the first. -/
def retried : List Call :=
  [.read {} 4 0, .read { seekError := some "EIO" } 4 8, .read {} 4 4, .load {}]

theorem reads_right_retried :
    ReadsRight twelve { path := "a", size := 12, isDir := false } retried :=
  reads_right twelve "a" 12 false retried (by
    unfold retried Along Along Along Along Along Displaced
    decide)

/-- A read from 4 on fails after four bytes, and the same read after it starts at 8. -/
theorem retry_reads_elsewhere :
    (readExactAt twelve {} 4 4 (run (step twelve) { path := "a", size := 12, isDir := false }
        [.read {} 4 0, .read { readError := some (4, "EIO") } 8 4])).1 = .ok [8, 9, 10, 11] ∧
      ¬ ReadsRight twelve { path := "a", size := 12, isDir := false }
        [.read {} 4 0, .read { readError := some (4, "EIO") } 8 4, .read {} 4 4] := by
  have hread : (readExactAt twelve {} 4 4 (run (step twelve)
      { path := "a", size := 12, isDir := false }
      [.read {} 4 0, .read { readError := some (4, "EIO") } 8 4])).1 = .ok [8, 9, 10, 11] := rfl
  refine ⟨hread, fun hright => ?_⟩
  have hwrong := (hright [.read {} 4 0, .read { readError := some (4, "EIO") } 8 4] {} 4 4 [] rfl _
    hread).1
  exact absurd hwrong (by decide)

end ReadPosition

end LuodaRemote
