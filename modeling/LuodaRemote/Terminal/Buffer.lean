/-
  The output buffer of a terminal session (`OutputBuffer` of terminal_service.rs).

  The buffer holds the recent output of the shell as lines, the last one perhaps incomplete, and
  a counter `total_size` that is meant to be the number of bytes in them. `append` trims from the
  front until both bounds hold; the subtraction there may underflow, and with no line left to
  remove the loop goes round forever. Both are outcomes here.

  `append_spec` says what is in the buffer before the trim, and `trim_ok_iff` when the trim comes
  to an end. A continuation of the incomplete last line that brings the newline is not counted,
  and one without a newline returns before the trim. `append_invariant_iff`: the buffer keeps its
  invariant through a run of appends precisely when neither happens with something to lose.

  `get_recent` returns the newest bytes of the buffer and no more than it was asked for
  (`getRecent_spec`).
-/
import LuodaRemote.Message
import LuodaRemote.Lib.Run

namespace LuodaRemote
open Lib

namespace Terminal

/-! ## The buffer -/

def maxOutputBufferSize : Nat := 1024 * 1024

def maxBufferLines : Nat := 10000

/-- The byte `b'\n'`. -/
def newline : UInt8 := 10

structure OutputBuffer where
  lines : List Bytes
  totalSize : Nat
  lastLineIncomplete : Bool
deriving DecidableEq

/-- How a call ends: it returns, `total_size - removed.len()` underflows, or the trim goes round
    an empty buffer for good. -/
inductive Outcome (α : Type) where
  | ok (a : α)
  | underflow
  | spins
deriving DecidableEq

namespace OutputBuffer

def new : OutputBuffer where
  lines := []
  totalSize := 0
  lastLineIncomplete := false

/-- Appends to the last line, if there is one. -/
def extendLast : List Bytes → Bytes → List Bytes
  | [], _ => []
  | [line], data => [line ++ data]
  | line :: rest, data => line :: extendLast rest data

/-- The loop over the pieces of the data. `rest.isEmpty` is the source's `i == lines.len() - 1`. -/
def pushLines (endsWithNewline : Bool) (b : OutputBuffer) : List Bytes → OutputBuffer
  | [] => b
  | line :: rest =>
    let last := rest.isEmpty
    let b := if last && !endsWithNewline && !line.isEmpty then
        { b with lastLineIncomplete := true } else b
    let b := if !line.isEmpty || !last then
        let lineData := if !last || endsWithNewline then line ++ [newline] else line
        { b with totalSize := b.totalSize + lineData.length, lines := b.lines ++ [lineData] }
      else b
    pushLines endsWithNewline b rest

/-- What the loop condition of the trim asks. -/
def TooLarge (lines : List Bytes) (totalSize : Nat) : Prop :=
  maxOutputBufferSize < totalSize ∨ maxBufferLines < lines.length

instance (lines : List Bytes) (totalSize : Nat) : Decidable (TooLarge lines totalSize) :=
  inferInstanceAs (Decidable (_ ∨ _))

/-- The `while` loop at the end of `append`, on the lines and the size counter. -/
def trim : List Bytes → Nat → Outcome (List Bytes × Nat)
  | [], total => if TooLarge [] total then .spins else .ok ([], total)
  | removed :: rest, total =>
    if TooLarge (removed :: rest) total then
      -- `self.total_size -= removed.len()`
      if removed.length ≤ total then trim rest (total - removed.length) else .underflow
    else .ok (removed :: rest, total)

/-- The buffer with the remaining data split into lines, as the trim finds it. -/
def filled (b : OutputBuffer) (remaining : Bytes) : OutputBuffer :=
  b.pushLines (remaining.getLast? == some newline) (remaining.splitOn newline)

/-- What `append` does once an incomplete last line has been dealt with. -/
def appendRemaining (b : OutputBuffer) (remaining : Bytes) : Outcome OutputBuffer :=
  match trim (b.filled remaining).lines (b.filled remaining).totalSize with
  | .ok (lines, total) => .ok { b.filled remaining with lines := lines, totalSize := total }
  | .underflow => .underflow
  | .spins => .spins

def append (b : OutputBuffer) (data : Bytes) : Outcome OutputBuffer :=
  if data = [] then .ok b
  else if b.lastLineIncomplete ∧ b.lines ≠ [] then
    match data.findIdx? (· == newline) with
    | some pos =>
      appendRemaining
        { b with lines := extendLast b.lines (data.take (pos + 1)), lastLineIncomplete := false }
        (data.drop (pos + 1))
    | none =>
      .ok { b with lines := extendLast b.lines data, totalSize := b.totalSize + data.length }
  else appendRemaining b data

/-! ## What an append puts into the buffer -/

variable {b b' : OutputBuffer} {data : Bytes}

theorem flatten_extendLast {lines : List Bytes} (hne : lines ≠ []) (data : Bytes) :
    (extendLast lines data).flatten = lines.flatten ++ data := by
  induction lines with
  | nil => exact absurd rfl hne
  | cons line rest ih =>
    cases rest with
    | nil => simp [extendLast]
    | cons next rest =>
      show line ++ (extendLast (next :: rest) data).flatten = _
      rw [ih (List.cons_ne_nil _ _)]
      simp

theorem length_extendLast (lines : List Bytes) (data : Bytes) :
    (extendLast lines data).length = lines.length := by
  induction lines with
  | nil => rfl
  | cons line rest ih =>
    cases rest with
    | nil => rfl
    | cons next rest =>
      show (extendLast (next :: rest) data).length + 1 = _
      rw [ih]
      rfl

/-- The loop pushes the pieces with their newlines and counts what it pushes. -/
theorem pushLines_spec {endsWithNewline : Bool} {pieces : List Bytes}
    (hends : endsWithNewline = true → pieces.getLast? = some []) (b : OutputBuffer) :
    (b.pushLines endsWithNewline pieces).lines.flatten =
        b.lines.flatten ++ [newline].intercalate pieces ∧
      (b.pushLines endsWithNewline pieces).totalSize =
        b.totalSize + ([newline].intercalate pieces).length := by
  induction pieces generalizing b with
  | nil => simp [pushLines]
  | cons line rest ih =>
    cases rest with
    | nil =>
      cases endsWithNewline with
      | true =>
        have hline : line = [] := by simpa using hends rfl
        simp [pushLines, hline]
      | false => by_cases hline : line = [] <;> simp [pushLines, hline]
    | cons next rest =>
      have hrest : endsWithNewline = true → (next :: rest).getLast? = some [] := by
        intro he
        rw [← hends he, List.getLast?_cons_cons]
      rw [pushLines]
      obtain ⟨hlines, htotal⟩ := ih hrest { b with
        totalSize := b.totalSize + (line ++ [newline]).length,
        lines := b.lines ++ [line ++ [newline]] }
      simp only [List.isEmpty_cons, Bool.not_false, Bool.or_true, Bool.true_or,
        Bool.false_and, if_true, Bool.false_eq_true, if_false]
      constructor
      · rw [hlines]
        simp
      · rw [htotal]
        simp
        omega

theorem filled_spec (b : OutputBuffer) (remaining : Bytes) :
    (b.filled remaining).lines.flatten = b.lines.flatten ++ remaining ∧
      (b.filled remaining).totalSize = b.totalSize + remaining.length := by
  have hends : (remaining.getLast? == some newline) = true →
      (remaining.splitOn newline).getLast? = some [] := by
    intro he
    have hlast : remaining.getLast? = some newline := by simpa using he
    obtain ⟨init, rfl⟩ := List.getLast?_eq_some_iff.mp hlast
    rw [List.splitOn_append_cons_self, List.splitOn_nil, List.getLast?_concat]
  obtain ⟨hlines, htotal⟩ := pushLines_spec hends b
  rw [List.intercalate_splitOn] at hlines htotal
  exact ⟨hlines, htotal⟩

/-! ## The trim -/

variable {lines kept : List Bytes} {total left : Nat}

/-- A trim that returns has removed some lines from the front and their bytes from the count. -/
theorem trim_ok (h : trim lines total = .ok (kept, left)) :
    ∃ removed, lines = removed ++ kept ∧ total = removed.flatten.length + left ∧
      ¬ TooLarge kept left := by
  induction lines generalizing total with
  | nil =>
    rw [trim] at h
    split at h
    · cases h
    · next hfits =>
        cases h
        exact ⟨[], rfl, by simp, hfits⟩
  | cons line rest ih =>
    rw [trim] at h
    split at h
    · split at h
      · next hle =>
          obtain ⟨removed, rfl, htotal, hfits⟩ := ih h
          refine ⟨line :: removed, rfl, ?_, hfits⟩
          rw [List.flatten_cons, List.length_append]
          omega
      · cases h
    · next hfits =>
        cases h
        exact ⟨[], rfl, by simp, hfits⟩

/-- The trim returns precisely when some of the oldest lines can be taken from the count and
    leave the buffer within its bounds. -/
theorem trim_ok_iff : (∃ r, trim lines total = .ok r) ↔
    ∃ k, (lines.take k).flatten.length ≤ total ∧
      ¬ TooLarge (lines.drop k) (total - (lines.take k).flatten.length) := by
  constructor
  · rintro ⟨⟨kept, left⟩, h⟩
    obtain ⟨removed, rfl, htotal, hfits⟩ := trim_ok h
    refine ⟨removed.length, ?_, ?_⟩
    · rw [List.take_left]
      omega
    · rw [List.take_left, List.drop_left, htotal, Nat.add_sub_cancel_left]
      exact hfits
  · rintro ⟨k, hle, hfits⟩
    induction lines generalizing total k with
    | nil =>
      simp only [List.take_nil, List.flatten_nil, List.length_nil, Nat.sub_zero,
        List.drop_nil] at hfits
      exact ⟨_, by rw [trim, if_neg hfits]⟩
    | cons line rest ih =>
      rw [trim]
      by_cases hlarge : TooLarge (line :: rest) total
      · cases k with
        | zero => exact absurd hlarge (by simpa using hfits)
        | succ k =>
          simp only [List.take_succ_cons, List.flatten_cons, List.length_append] at hle hfits
          rw [if_pos hlarge, if_pos (by omega)]
          refine ih k (by omega) ?_
          rw [Nat.sub_sub]
          exact hfits
      · exact ⟨_, by rw [if_neg hlarge]⟩

/-- With the exact count the trim returns. -/
theorem trim_of_count (h : lines.flatten.length = total) : ∃ r, trim lines total = .ok r := by
  refine trim_ok_iff.mpr ⟨lines.length, ?_, ?_⟩
  · rw [List.take_length]
    omega
  · rw [List.take_length, List.drop_length]
    simp only [TooLarge, List.length_nil]
    omega

theorem appendRemaining_ok {remaining : Bytes} (h : b.appendRemaining remaining = .ok b') :
    trim (b.filled remaining).lines (b.filled remaining).totalSize =
      .ok (b'.lines, b'.totalSize) := by
  unfold appendRemaining at h
  split at h
  · next htrim =>
      cases h
      exact htrim
  · cases h
  · cases h

theorem appendRemaining_of_trim {remaining : Bytes}
    (h : ∃ r, trim (b.filled remaining).lines (b.filled remaining).totalSize = .ok r) :
    ∃ b', b.appendRemaining remaining = .ok b' := by
  obtain ⟨⟨lines, total⟩, htrim⟩ := h
  exact ⟨_, by rw [appendRemaining, htrim]⟩

/-- An append that returns leaves, of the old lines and the data, what the trim left. -/
theorem appendRemaining_spec {remaining : Bytes} (h : b.appendRemaining remaining = .ok b') :
    ∃ removed : List Bytes,
      b.lines.flatten ++ remaining = removed.flatten ++ b'.lines.flatten ∧
      b.totalSize + remaining.length = removed.flatten.length + b'.totalSize ∧
      ¬ TooLarge b'.lines b'.totalSize := by
  obtain ⟨removed, hlines, htotal, hfits⟩ := trim_ok (appendRemaining_ok h)
  obtain ⟨hflat, hsize⟩ := b.filled_spec remaining
  refine ⟨removed, ?_, ?_, hfits⟩
  · rw [← hflat, hlines, List.flatten_append]
  · rw [← hsize, htotal]

theorem appendRemaining_of_count (hcount : b.lines.flatten.length = b.totalSize)
    (remaining : Bytes) : ∃ b', b.appendRemaining remaining = .ok b' := by
  obtain ⟨hflat, hsize⟩ := b.filled_spec remaining
  refine appendRemaining_of_trim (trim_of_count ?_)
  rw [hflat, hsize, List.length_append, hcount]

/-! ## One append -/

/-- The data goes to the end of an incomplete line. -/
def Continues (b : OutputBuffer) (data : Bytes) : Prop :=
  data ≠ [] ∧ b.lastLineIncomplete = true ∧ b.lines ≠ []

theorem append_of_not_continues (hc : ¬ b.Continues data) (hne : data ≠ []) :
    b.append data = b.appendRemaining data := by
  rw [append, if_neg hne, if_neg fun hand => hc ⟨hne, hand⟩]

theorem append_newline (hc : b.Continues data) {pos : Nat}
    (hpos : data.findIdx? (· == newline) = some pos) :
    b.append data = appendRemaining
      { b with lines := extendLast b.lines (data.take (pos + 1)), lastLineIncomplete := false }
      (data.drop (pos + 1)) := by
  rw [append, if_neg hc.1, if_pos hc.2, hpos]

theorem append_no_newline (hc : b.Continues data) (hnone : newline ∉ data) :
    b.append data =
      .ok { b with lines := extendLast b.lines data, totalSize := b.totalSize + data.length } := by
  have hfind : data.findIdx? (· == newline) = none := by
    rw [List.findIdx?_eq_none_iff]
    intro byte hmem
    exact beq_false_of_ne fun heq => hnone (heq ▸ hmem)
  rw [append, if_neg hc.1, if_pos hc.2, hfind]

theorem findIdx?_newline (hmem : newline ∈ data) :
    ∃ pos, data.findIdx? (· == newline) = some pos := by
  have hsome : (data.findIdx? (· == newline)).isSome = true := by
    rw [List.findIdx?_isSome, List.any_eq_true]
    exact ⟨newline, hmem, beq_self_eq_true newline⟩
  exact Option.isSome_iff_exists.mp hsome

/-- However the count stands, what a returning append leaves is the end of what was there and
    what came. -/
theorem append_suffix (h : b.append data = .ok b') :
    b'.lines.flatten <:+ b.lines.flatten ++ data := by
  by_cases hne : data = []
  · rw [append, if_pos hne] at h
    cases h
    rw [hne, List.append_nil]
  by_cases hc : b.Continues data
  · by_cases hmem : newline ∈ data
    · obtain ⟨pos, hpos⟩ := findIdx?_newline hmem
      rw [append_newline hc hpos] at h
      obtain ⟨removed, hflat, -, -⟩ := appendRemaining_spec h
      refine ⟨removed.flatten, ?_⟩
      rw [← hflat, flatten_extendLast hc.2.2, List.append_assoc, List.take_append_drop]
    · rw [append_no_newline hc hmem] at h
      cases h
      rw [flatten_extendLast hc.2.2]
  · rw [append_of_not_continues hc hne] at h
    obtain ⟨removed, hflat, -, -⟩ := appendRemaining_spec h
    exact ⟨removed.flatten, hflat.symm⟩

/-- `total_size` counts the bytes of the lines, and both bounds hold. -/
structure Fits (b : OutputBuffer) : Prop where
  count : b.totalSize = (b.lines.map List.length).sum
  size : b.totalSize ≤ maxOutputBufferSize
  lines : b.lines.length ≤ maxBufferLines

theorem Fits.length_flatten (hf : b.Fits) : b.lines.flatten.length = b.totalSize := by
  rw [List.length_flatten, hf.count]

theorem fits_of_count (hcount : b.lines.flatten.length = b.totalSize)
    (hfits : ¬ TooLarge b.lines b.totalSize) : b.Fits := by
  unfold TooLarge at hfits
  rw [List.length_flatten] at hcount
  exact ⟨hcount.symm, by omega, by omega⟩

/-- The continuation that goes wrong: it brings the newline of the incomplete line, whose bytes
    are not counted, or it brings none and is too long, and returns before the trim. -/
def Loses (b : OutputBuffer) (data : Bytes) : Prop :=
  b.Continues data ∧ (newline ∈ data ∨ maxOutputBufferSize < b.totalSize + data.length)

theorem fits_appendRemaining (hf : b.Fits) (remaining : Bytes) :
    ∃ b', b.appendRemaining remaining = .ok b' ∧ b'.Fits := by
  obtain ⟨b', hok⟩ := appendRemaining_of_count hf.length_flatten remaining
  obtain ⟨removed, hflat, htotal, hfits⟩ := appendRemaining_spec hok
  refine ⟨b', hok, fits_of_count ?_ hfits⟩
  have hlen := congrArg List.length hflat
  rw [List.length_append, List.length_append, hf.length_flatten] at hlen
  omega

theorem fits_append (hf : b.Fits) (hok : ¬ b.Loses data) :
    ∃ b', b.append data = .ok b' ∧ b'.Fits := by
  by_cases hne : data = []
  · exact ⟨b, by rw [append, if_pos hne], hf⟩
  by_cases hc : b.Continues data
  · have hnone : newline ∉ data := fun hmem => hok ⟨hc, .inl hmem⟩
    have hsmall : b.totalSize + data.length ≤ maxOutputBufferSize :=
      Nat.le_of_not_lt fun hlt => hok ⟨hc, .inr hlt⟩
    refine ⟨_, append_no_newline hc hnone, ?_, hsmall, ?_⟩
    · show b.totalSize + data.length = _
      rw [← List.length_flatten, flatten_extendLast hc.2.2, List.length_append, hf.length_flatten]
    · show (extendLast b.lines data).length ≤ _
      rw [length_extendLast]
      exact hf.lines
  · rw [append_of_not_continues hc hne]
    exact fits_appendRemaining hf data

theorem not_fits_of_loses (hf : b.Fits) (hl : b.Loses data) (h : b.append data = .ok b') :
    ¬ b'.Fits := by
  intro hf'
  obtain ⟨hc, hkind⟩ := hl
  by_cases hmem : newline ∈ data
  · obtain ⟨pos, hpos⟩ := findIdx?_newline hmem
    rw [append_newline hc hpos] at h
    obtain ⟨removed, hflat, htotal, -⟩ := appendRemaining_spec h
    have hlen := congrArg List.length hflat
    have hpos' : 0 < (data.take (pos + 1)).length := by
      have := List.length_pos_of_ne_nil hc.1
      rw [List.length_take]
      omega
    rw [flatten_extendLast hc.2.2] at hlen
    simp only [List.length_append] at hlen
    rw [hf.length_flatten, hf'.length_flatten] at hlen
    simp only at htotal
    omega
  · rw [append_no_newline hc hmem] at h
    cases h
    have hsize : b.totalSize + data.length ≤ maxOutputBufferSize := hf'.size
    have hlarge := hkind.resolve_left hmem
    omega

/-! ## A run of appends -/

/-- A buffer and everything that was appended to it. -/
structure Log where
  buffer : Outcome OutputBuffer
  appended : Bytes

/-- An append to a buffer that is still in use. -/
def Log.append (log : Log) (data : Bytes) : Log where
  buffer := match log.buffer with
    | .ok b => b.append data
    | .underflow => .underflow
    | .spins => .spins
  appended := log.appended ++ data

def Log.new : Log where
  buffer := .ok .new
  appended := []

/-- Every call returned, the count and the bounds hold, and the lines are the end of the
    output. -/
def Log.Kept (log : Log) : Prop :=
  ∃ b, log.buffer = .ok b ∧ b.Fits ∧ b.lines.flatten <:+ log.appended

theorem kept_new : Log.new.Kept := by
  refine ⟨.new, rfl, ⟨rfl, ?_, ?_⟩, List.suffix_refl _⟩
  · exact Nat.zero_le _
  · exact Nat.zero_le _

/-- The append does not lose a part of the buffer's account. -/
def Log.Counts (log : Log) (data : Bytes) : Prop :=
  ∀ b, log.buffer = .ok b → ¬ b.Loses data

theorem kept_append_iff {log : Log} (hk : log.Kept) (data : Bytes) :
    (log.append data).Kept ↔ log.Counts data := by
  obtain ⟨b, hb, hf, hsuffix⟩ := hk
  have hbuffer : (log.append data).buffer = b.append data := by rw [Log.append, hb]
  constructor
  · rintro ⟨b', hb', hf', -⟩ b₀ hb₀ hloses
    rw [hb] at hb₀
    cases hb₀
    exact not_fits_of_loses hf hloses (hbuffer ▸ hb') hf'
  · intro hcounts
    obtain ⟨b', hok, hf'⟩ := fits_append hf (hcounts b hb)
    refine ⟨b', hbuffer.trans hok, hf', (append_suffix hok).trans ?_⟩
    obtain ⟨before, hbefore⟩ := hsuffix
    exact ⟨before, by rw [Log.append, ← hbefore, List.append_assoc]⟩

/-- The invariant of the buffer holds after every append of a run precisely when no append
    continues the incomplete last line with its newline, or beyond the size of the buffer. -/
theorem append_invariant_iff (chunks : List Bytes) :
    Always Log.append Log.Kept Log.new chunks ↔ Along Log.append Log.Counts Log.new chunks :=
  always_iff_along (I := fun _ => True) (fun _ _ _ => trivial)
    (fun _ data _ hk => kept_append_iff hk data) trivial kept_new

/-- A line that comes in two pieces: one byte is counted for two. -/
theorem append_newline_uncounted :
    ¬ Always Log.append Log.Kept Log.new [[97], [newline]] := by
  intro h
  obtain ⟨b, hb, hf, -⟩ := h.last
  have hrun : (run Log.append Log.new [[97], [newline]]).buffer =
      .ok ⟨[[97, newline]], 1, false⟩ := by decide
  rw [hrun] at hb
  cases hb
  exact absurd hf.count (by decide)

/-! ## The newest bytes -/

/-- A byte that continues a UTF-8 sequence. -/
def isContinuation (byte : UInt8) : Bool := byte &&& 0b11000000 == 0b10000000

/-- Moves the offset over continuation bytes, as often as it may. -/
def skipContinuation (chunk : Bytes) (offset : Nat) : Nat → Nat
  | 0 => offset
  | skips + 1 =>
    match chunk[offset]? with
    | some byte => if isContinuation byte then skipContinuation chunk (offset + 1) skips else offset
    | none => offset

/-- The loop of `get_recent` over the lines, newest first; the chunks are in the order in which
    they are pushed. -/
def recentChunks (maxBytes : Nat) : List Bytes → List Bytes → Nat → List Bytes
  | [], chunks, _ => chunks
  | line :: older, chunks, size =>
    if maxBytes < size + line.length then
      if size = 0 ∧ maxBytes < line.length then
        let offset := skipContinuation line (line.length - maxBytes) 3
        if offset < line.length then chunks ++ [line.drop offset] else chunks
      else chunks
    else recentChunks maxBytes older (chunks ++ [line]) (size + line.length)

def getRecent (b : OutputBuffer) (maxBytes : Nat) : Bytes :=
  if maxBytes = 0 then []
  else (recentChunks maxBytes b.lines.reverse [] 0).reverse.flatten

theorem le_skipContinuation (chunk : Bytes) (offset skips : Nat) :
    offset ≤ skipContinuation chunk offset skips := by
  induction skips generalizing offset with
  | zero => exact le_refl _
  | succ skips ih =>
    rw [skipContinuation]
    split
    · split
      · have := ih (offset + 1)
        omega
      · exact le_refl _
    · exact le_refl _

/-- The chunks are a suffix of the lines seen, and never more than `maxBytes`. -/
theorem recentChunks_spec {maxBytes : Nat} {older chunks : List Bytes} {size : Nat}
    (hsize : chunks.reverse.flatten.length = size) (hle : size ≤ maxBytes) :
    (recentChunks maxBytes older chunks size).reverse.flatten <:+
        older.reverse.flatten ++ chunks.reverse.flatten ∧
      (recentChunks maxBytes older chunks size).reverse.flatten.length ≤ maxBytes := by
  induction older generalizing chunks size with
  | nil =>
    rw [recentChunks]
    exact ⟨by simp, by omega⟩
  | cons line older ih =>
    have hstop : chunks.reverse.flatten <:+
        (line :: older).reverse.flatten ++ chunks.reverse.flatten := List.suffix_append _ _
    rw [recentChunks]
    split
    · split
      · next hover =>
          have hnil : chunks.reverse.flatten = [] := List.eq_nil_of_length_eq_zero (by omega)
          dsimp only
          split
          · have hskip := le_skipContinuation line (line.length - maxBytes) 3
            rw [List.reverse_append, List.flatten_append, hnil]
            refine ⟨?_, ?_⟩
            · simp only [List.reverse_cons, List.reverse_nil, List.nil_append, List.flatten_cons,
                List.flatten_nil, List.append_nil, List.flatten_append]
              exact (List.drop_suffix _ _).trans (List.suffix_append _ _)
            · simp only [List.reverse_cons, List.reverse_nil, List.nil_append, List.flatten_cons,
                List.flatten_nil, List.append_nil, List.length_drop]
              omega
          · exact ⟨hstop, by omega⟩
      · exact ⟨hstop, by omega⟩
    · have hchunks : (chunks ++ [line]).reverse.flatten = line ++ chunks.reverse.flatten := by
        simp
      have hcount : (chunks ++ [line]).reverse.flatten.length = size + line.length := by
        rw [hchunks, List.length_append]
        omega
      obtain ⟨hsuffix, hlen⟩ := ih hcount (by omega)
      refine ⟨?_, hlen⟩
      rw [hchunks] at hsuffix
      simpa using hsuffix

theorem getRecent_spec (b : OutputBuffer) (maxBytes : Nat) :
    b.getRecent maxBytes <:+ b.lines.flatten ∧ (b.getRecent maxBytes).length ≤ maxBytes := by
  rw [getRecent]
  split
  · exact ⟨List.nil_suffix, Nat.zero_le _⟩
  · simpa using @recentChunks_spec maxBytes b.lines.reverse [] 0 rfl (Nat.zero_le maxBytes)

end OutputBuffer
end Terminal
end LuodaRemote
