/-
  The buffer of the audio that is played (`AudioBuffer` of `src/client.rs`).

  A ring buffer holds three seconds of samples. `append_pcm` puts samples in, at the expense of
  the oldest ones, and counts in a histogram how full it was; every twelve seconds `try_shrink`
  looks at the histogram and drops what was never needed. `resize` makes a new ring buffer for
  another format.

  The numbers are of type `usize`, which has 64 bits on some of the machines and 32 on others, and
  in a release build products go around. A format whose product with the three seconds is too large
  for a word can have the capacity of another one, is taken for it, and leaves the divisor of
  `try_shrink` as it was (`wrapped_format_kept_back`). `audio_buffer_kept`: as long as these
  products fit, which they always do in 64 bits, the buffer is in order.

  `ringbuf` is a parameter: `RingBuf` says what its documentation says. The only thing that stops a
  run is that it does not give a new buffer, which is so for a format without samples. The clock of
  the last shrinking is shared with other sessions, and the output stream takes samples out at any
  time.
-/
import LuodaRemote.Lib.Checked

namespace LuodaRemote
open Lib

namespace AudioBuffer

/-! ## Ring buffers -/

/-- `ringbuf::HeapRb`, with its items from the oldest to the newest. -/
structure RingBuf (α : Type) where
  HeapRb : Type
  /-- Without value where it panics. -/
  new : ℕ → Option HeapRb
  capacity : HeapRb → ℕ
  items : HeapRb → List α
  skip : ℕ → HeapRb → HeapRb
  pushSliceOverwrite : List α → HeapRb → HeapRb
  capacity_pos : ∀ n, ∀ rb ∈ new n, 0 < n
  capacity_new : ∀ n, ∀ rb ∈ new n, capacity rb = n
  items_new : ∀ n, ∀ rb ∈ new n, items rb = []
  capacity_skip : ∀ n rb, capacity (skip n rb) = capacity rb
  items_skip : ∀ n rb, items (skip n rb) = (items rb).drop n
  capacity_push : ∀ xs rb, capacity (pushSliceOverwrite xs rb) = capacity rb
  /-- The oldest items make room, those of the slice included. -/
  items_push : ∀ xs rb, items (pushSliceOverwrite xs rb) =
    (items rb ++ xs).drop ((items rb).length + xs.length - capacity rb)

inductive Panic where
  | fault (f : Fault)
  | index
  /-- Of `HeapRb::new`. -/
  | newBuffer
deriving DecidableEq

/-- `usize` arithmetic with `w` bits, as a release build does it. -/
def usizeMul (w a b : ℕ) : ℕ := a * b % 2 ^ w

def usizeAdd (w a b : ℕ) : ℕ := (a + b) % 2 ^ w

/-- An operation of numbers, where its fault is a panic. -/
def checked {β : Type} (x : Except Fault β) : Except Panic β := x.mapError .fault

/-- `hist[i]`. -/
def get (hist : List ℕ) (i : ℕ) : Except Panic ℕ :=
  match hist[i]? with
  | some n => .ok n
  | none => .error .index

/-- `hist[i] = n`. -/
def set (hist : List ℕ) (i n : ℕ) : Except Panic (List ℕ) :=
  if i < hist.length then .ok (hist.set i n) else .error .index

/-- `AUDIO_BUFFER_MS`. -/
def audioBufferMs : ℕ := 3000

/-! ## The buffer -/

variable {α : Type} (w : ℕ) (R : RingBuf α)

/-- The fields of the tuple, in order. -/
structure Buffer where
  rb : R.HeapRb
  /-- Samples for a second. -/
  rate : ℕ
  hist : List ℕ

variable {R}

def newRb (capacity : ℕ) : Except Panic R.HeapRb :=
  match R.new capacity with
  | some rb => .ok rb
  | none => .error .newBuffer

def default : Except Panic (Buffer R) := do
  let rb ← newRb (48000 * 2 * audioBufferMs / 1000)
  return ⟨rb, 48000 * 2, List.replicate 30 0⟩

def resize (sampleRate channels : ℕ) (b : Buffer R) : Except Panic (Buffer R) := do
  let n := usizeMul w sampleRate channels
  let capacity := usizeMul w n audioBufferMs / 1000
  if capacity ≠ R.capacity b.rb then
    let rb ← newRb capacity
    return { b with rb, rate := n }
  else
    return b

/-- One turn of the loop of `try_shrink`: the histogram, `zero` and `max`. -/
def mark (m : List ℕ × ℕ × ℕ) (i : ℕ) : Except Panic (List ℕ × ℕ × ℕ) := do
  let (hist, zeroMark, maxMark) := m
  let here ← get hist i
  let zeroMark := if here = 0 ∧ zeroMark = i then zeroMark + 1 else zeroMark
  let top ← get hist maxMark
  if here > top then
    let hist ← set hist maxMark 0
    return (hist, zeroMark, i)
  else
    let hist ← set hist i 0
    return (hist, zeroMark, maxMark)

/-- `(cap * max / (30 * N) + 1) & !1`. -/
def skipOf (n : ℕ) : ℕ := (n / (30 * 4) + 1) / 2 * 2

/-- What is dropped for the water marks that were found. -/
def shrink (zeroMark maxMark : ℕ) (b : Buffer R) : Except Panic (Buffer R) := do
  let zeroMark := zeroMark * 2 / 3
  if maxMark < 6 then
    return b
  else
    let maxMark := if maxMark > zeroMark * 4 then zeroMark * 4 else maxMark
    let skip := skipOf (usizeMul w (R.capacity b.rb) maxMark)
    if (R.items b.rb).length > usizeMul w skip 3 ∧ skip > 0 then
      return { b with rb := R.skip skip b.rb }
    else
      return b

/-- `try_shrink` at `dt`, with the clock `prev` before and after it. -/
def tryShrink (having : ℕ) (dt prev : ℤ) (b : Buffer R) : Except Panic (ℤ × Buffer R) := do
  let i ← checked (U64.div (usizeMul w having 10) b.rate)
  let i := if i > 29 then 29 else i
  let n ← get b.hist i
  let hist ← set b.hist i (usizeAdd w n 1)
  let b := { b with hist }
  if prev = 0 then
    return (dt, b)
  else if dt < prev + 12000 then
    return (prev, b)
  else
    let (hist, zeroMark, maxMark) ← (List.range 30).foldlM mark (b.hist, 0, 0)
    let hist ← set hist maxMark 0
    let b ← shrink w zeroMark maxMark { b with hist }
    return (dt, b)

/-- The buffer with the samples, and how many it says it has. -/
def appendPcm2 (buffer : List α) (b : Buffer R) : ℕ × Buffer R :=
  let cap := R.capacity b.rb
  if buffer.length > cap then (cap, { b with rb := R.pushSliceOverwrite buffer b.rb })
  else
    let having := usizeAdd w (R.items b.rb).length buffer.length
    let rb := if having > cap then R.skip (having - cap) b.rb else b.rb
    let rb := R.pushSliceOverwrite buffer rb
    ((R.items rb).length, { b with rb })

/-- `pop_slice` of the output stream. -/
def play (n : ℕ) (b : Buffer R) : Buffer R := { b with rb := R.skip n b.rb }

variable (R)

/-- The buffer of a session, with what has been asked of it. -/
structure Session where
  buffer : Buffer R
  /-- `TMS`. -/
  tms : ℤ
  /-- Sample rate times channels of the last `resize`, or of the default, as a number. -/
  format : ℕ
  /-- What was appended since the ring buffer was replaced. -/
  appended : List α
  /-- How many samples each call of `try_shrink` has dropped. -/
  skipped : List ℕ

variable {R}

inductive Action (α : Type) where
  | resize (sampleRate : UInt32) (channels : UInt16)
  /-- The output stream takes `played` samples between the two locks. -/
  | appendPcm (buffer : List α) (played : ℕ) (dt : ℤ)
  | play (n : ℕ)
  | otherSession (tms : ℤ)
deriving DecidableEq

def Buffer.len (b : Buffer R) : ℕ := (R.items b.rb).length

def start : Except Panic (Session R) := do
  let buffer ← default
  return ⟨buffer, 0, 48000 * 2, [], []⟩

def step (s : Session R) : Action α → Except Panic (Session R)
  | .resize sampleRate channels => do
    let buffer ← resize w sampleRate.toNat channels.toNat s.buffer
    let replaced := R.capacity buffer.rb ≠ R.capacity s.buffer.rb
    return { s with
      buffer
      format := sampleRate.toNat * channels.toNat
      appended := if replaced then [] else s.appended }
  | .appendPcm buffer played dt => do
    let (having, b) := appendPcm2 w buffer s.buffer
    let b := play played b
    let (tms, b') ← tryShrink w having dt s.tms b
    return { s with
      buffer := b'
      tms
      appended := s.appended ++ buffer
      skipped := (b.len - b'.len) :: s.skipped }
  | .play n => return { s with buffer := play n s.buffer }
  | .otherSession tms => return { s with tms }

/-- The product that `resize` divides by a thousand fits into a word. -/
def Fits (w : ℕ) : Action α → Prop
  | .resize sampleRate channels =>
    sampleRate.toNat * channels.toNat * audioBufferMs < 2 ^ w
  | _ => True

/-- The buffer is within its capacity, its divisor belongs to the format, its samples are the last
    ones that were appended, and shrinking has dropped them in pairs. -/
structure Kept (s : Session R) : Prop where
  capacity : s.buffer.len ≤ R.capacity s.buffer.rb
  rate : s.buffer.rate = s.format
  suffix : R.items s.buffer.rb <:+ s.appended
  even : ∀ n ∈ s.skipped, Even n

/-! ## What each part returns -/

/-- Between calls. The ring buffer holds the samples of three seconds. -/
structure Buffer.Inv (b : Buffer R) : Prop where
  capacity : R.capacity b.rb = 3 * b.rate
  pos : 0 < b.rate
  small : b.rate * audioBufferMs < 2 ^ w
  hist : b.hist.length = 30
  len : b.len ≤ R.capacity b.rb

section Parts

variable {w} {b : Buffer R}

theorem usizeMul_of_lt {a b : ℕ} (h : a * b < 2 ^ w) : usizeMul w a b = a * b := Nat.mod_eq_of_lt h

theorem checked_returns {β : Type} {x : Except Fault β} {Q : β → Prop} {A : Panic → Prop}
    (hx : Returns (fun _ => False) x Q) : Returns A (checked x) Q := by
  cases x with
  | ok n => exact hx
  | error f => exact hx.elim

theorem newRb_returns (n : ℕ) : Returns (· = .newBuffer) (newRb (R := R) n)
    fun rb => 0 < n ∧ R.capacity rb = n ∧ R.items rb = [] := by
  unfold newRb
  cases hrb : R.new n with
  | none => exact rfl
  | some rb => exact ⟨R.capacity_pos n rb hrb, R.capacity_new n rb hrb, R.items_new n rb hrb⟩

theorem get_returns {A : Panic → Prop} {hist : List ℕ} {i : ℕ} (hi : i < hist.length) :
    Returns A (get hist i) fun _ => True := by
  unfold get
  rw [List.getElem?_eq_getElem hi]
  trivial

theorem set_returns {A : Panic → Prop} {hist : List ℕ} {i : ℕ} (hi : i < hist.length) (n : ℕ) :
    Returns A (set hist i n) fun hist' => hist'.length = hist.length := by
  rw [set, if_pos hi]
  exact List.length_set

/-- The capacity tells the formats apart: it is three times the samples of a second. -/
theorem resize_returns {r c : ℕ} (hb : b.Inv w) (hfit : r * c * audioBufferMs < 2 ^ w) :
    Returns (· = .newBuffer) (resize w r c b) fun b' => b'.Inv w ∧ b'.rate = r * c ∧
      (b' = b ∨ R.capacity b'.rb ≠ R.capacity b.rb ∧ R.items b'.rb = []) := by
  have hn : usizeMul w r c = r * c :=
    usizeMul_of_lt ((Nat.le_mul_of_pos_right _ (by decide)).trans_lt hfit)
  have hms : r * c * audioBufferMs / 1000 = 3 * (r * c) := by
    unfold audioBufferMs
    omega
  unfold resize
  dsimp only
  rw [hn, usizeMul_of_lt hfit, hms]
  split
  · rename_i hother
    refine (newRb_returns _).bind ?_
    rintro rb ⟨hpos, hcap, hitems⟩
    refine returns_ok ⟨⟨hcap, by dsimp only; omega, hfit, hb.hist, ?_⟩, rfl, .inr ⟨?_, hitems⟩⟩
    · simp [Buffer.len, hitems]
    · exact fun h => hother (hcap.symm.trans h)
  · rename_i hsame
    have hrate := hb.capacity
    exact returns_ok ⟨hb, by omega, .inl rfl⟩

/-- The loop stays within the histogram. -/
theorem mark_returns {m : List ℕ × ℕ × ℕ} {i : ℕ} (hi : i < 30) (hm : m.1.length = 30)
    (hmax : m.2.2 < 30) : Returns (· = .newBuffer) (mark m i)
      fun m' => m'.1.length = 30 ∧ m'.2.2 < 30 := by
  obtain ⟨hist, zeroMark, maxMark⟩ := m
  dsimp only at hm hmax
  unfold mark
  refine (get_returns (hi.trans_eq hm.symm)).bind fun here _ => ?_
  refine (get_returns (hmax.trans_eq hm.symm)).bind fun top _ => ?_
  split
  · refine (set_returns (hmax.trans_eq hm.symm) 0).bind fun hist' hlen => ?_
    exact returns_ok ⟨hlen.trans hm, hi⟩
  · refine (set_returns (hi.trans_eq hm.symm) 0).bind fun hist' hlen => ?_
    exact returns_ok ⟨hlen.trans hm, hmax⟩

/-- All that `try_shrink` does to the samples. -/
def Dropped (b b' : Buffer R) : Prop :=
  ∃ k, 2 * k ≤ b.len ∧ R.items b'.rb = (R.items b.rb).drop (2 * k)

theorem dropped_of_items {b' : Buffer R} (h : R.items b'.rb = R.items b.rb) : Dropped b b' :=
  ⟨0, Nat.zero_le _, h⟩

theorem shrink_returns (hb : b.Inv w) (zeroMark : ℕ) {maxMark : ℕ} (hmax : maxMark < 30) :
    Returns (· = .newBuffer) (shrink w zeroMark maxMark b)
      fun b' => b'.Inv w ∧ b'.rate = b.rate ∧ Dropped b b' := by
  unfold shrink
  dsimp only
  split
  · exact returns_ok ⟨hb, rfl, dropped_of_items rfl⟩
  · generalize hm : (if maxMark > zeroMark * 2 / 3 * 4 then zeroMark * 2 / 3 * 4 else maxMark) = m
    have hm30 : m < 30 := by
      rw [← hm]
      split <;> omega
    have hcap := hb.capacity
    have hsmall := hb.small
    have hpos := hb.pos
    unfold audioBufferMs at hsmall
    have hfit : R.capacity b.rb * m < 2 ^ w := by
      calc R.capacity b.rb * m
        _ ≤ R.capacity b.rb * 30 := Nat.mul_le_mul_left _ hm30.le
        _ < 2 ^ w := by omega
    rw [usizeMul_of_lt hfit]
    have hthree : skipOf (R.capacity b.rb * m) * 3 < 2 ^ w := by
      unfold skipOf
      omega
    rw [usizeMul_of_lt hthree]
    split
    · rename_i hskip
      have hlen : 2 * ((R.capacity b.rb * m / (30 * 4) + 1) / 2) ≤ b.len := by
        have hmore := hskip.1
        unfold skipOf at hmore
        show _ ≤ (R.items b.rb).length
        omega
      have hitems : R.items (R.skip (skipOf (R.capacity b.rb * m)) b.rb) =
          (R.items b.rb).drop (2 * ((R.capacity b.rb * m / (30 * 4) + 1) / 2)) := by
        rw [R.items_skip, skipOf, Nat.mul_comm 2]
      refine returns_ok ⟨⟨?_, hb.pos, hb.small, hb.hist, ?_⟩, rfl, _, hlen, hitems⟩
      · rw [R.capacity_skip]
        exact hb.capacity
      · rw [R.capacity_skip, Buffer.len, hitems, List.length_drop]
        exact (Nat.sub_le _ _).trans hb.len
    · exact returns_ok ⟨hb, rfl, dropped_of_items rfl⟩

theorem withHist_inv (hb : b.Inv w) {hist : List ℕ} (hlen : hist.length = 30) :
    ({ b with hist } : Buffer R).Inv w := ⟨hb.capacity, hb.pos, hb.small, hlen, hb.len⟩

theorem tryShrink_returns (hb : b.Inv w) {having : ℕ} (hhaving : having ≤ R.capacity b.rb)
    (dt prev : ℤ) : Returns (· = .newBuffer) (tryShrink w having dt prev b)
      fun p => p.2.Inv w ∧ p.2.rate = b.rate ∧ Dropped b p.2 := by
  have hcap := hb.capacity
  have hsmall := hb.small
  unfold audioBufferMs at hsmall
  unfold tryShrink
  rw [usizeMul_of_lt (by omega)]
  refine (checked_returns (U64.returns_div hb.pos.ne')).bind ?_
  rintro i rfl
  dsimp only
  generalize hi : (if having * 10 / b.rate > 29 then 29 else having * 10 / b.rate) = i
  have hi30 : i < b.hist.length := by
    rw [hb.hist, ← hi]
    split <;> omega
  refine (get_returns hi30).bind fun n _ => ?_
  refine (set_returns hi30 (usizeAdd w n 1)).bind fun hist hlen => ?_
  rw [hb.hist] at hlen
  split
  · exact returns_ok ⟨withHist_inv hb hlen, rfl, dropped_of_items rfl⟩
  · split
    · exact returns_ok ⟨withHist_inv hb hlen, rfl, dropped_of_items rfl⟩
    · refine Returns.bind (Returns.foldlM_of_mem (I := fun m : List ℕ × ℕ × ℕ =>
        m.1.length = 30 ∧ m.2.2 < 30) (fun m i hi hm =>
          mark_returns (List.mem_range.mp hi) hm.1 hm.2) ⟨hlen, by norm_num⟩) ?_
      rintro ⟨hist', zeroMark, maxMark⟩ ⟨hlen', hmax⟩
      dsimp only at hlen' hmax ⊢
      refine (set_returns (hmax.trans_eq hlen'.symm) 0).bind fun hist'' hlen'' => ?_
      refine (shrink_returns (withHist_inv hb (hlen''.trans hlen')) zeroMark hmax).bind ?_
      exact fun b' hb' => returns_ok hb'

theorem push_suffix (xs : List α) (rb : R.HeapRb) :
    R.items (R.pushSliceOverwrite xs rb) <:+ R.items rb ++ xs := by
  rw [R.items_push]
  exact List.drop_suffix _ _

theorem push_len (xs : List α) (rb : R.HeapRb) :
    (R.items (R.pushSliceOverwrite xs rb)).length ≤ R.capacity rb := by
  rw [R.items_push, List.length_drop, List.length_append]
  omega

theorem skip_suffix (n : ℕ) (rb : R.HeapRb) : R.items (R.skip n rb) <:+ R.items rb := by
  rw [R.items_skip]
  exact List.drop_suffix _ _

theorem append_suffix {xs ys zs : List α} (h : xs <:+ ys) : xs ++ zs <:+ ys ++ zs := by
  obtain ⟨ws, rfl⟩ := h
  exact ⟨ws, (List.append_assoc ..).symm⟩

/-- Room is made for the samples, and they are put in. -/
theorem inv_push (hb : b.Inv w) {rb : R.HeapRb} (hrb : R.capacity rb = R.capacity b.rb)
    (buffer : List α) : ({ b with rb := R.pushSliceOverwrite buffer rb } : Buffer R).Inv w := by
  refine ⟨?_, hb.pos, hb.small, hb.hist, ?_⟩
  · rw [R.capacity_push, hrb]
    exact hb.capacity
  · rw [R.capacity_push]
    exact push_len buffer rb

/-- What was there and what comes make a suffix, and the count is no more than the capacity. -/
theorem appendPcm2_spec (hb : b.Inv w) (buffer : List α) :
    (appendPcm2 w buffer b).2.Inv w ∧ (appendPcm2 w buffer b).2.rate = b.rate ∧
      R.items (appendPcm2 w buffer b).2.rb <:+ R.items b.rb ++ buffer ∧
      (appendPcm2 w buffer b).1 ≤ R.capacity (appendPcm2 w buffer b).2.rb := by
  unfold appendPcm2
  dsimp only
  split
  · exact ⟨inv_push hb rfl buffer, rfl, push_suffix buffer b.rb, (R.capacity_push buffer b.rb).ge⟩
  · generalize hroom : (if _ > R.capacity b.rb then R.skip _ b.rb else b.rb) = rb
    have hrb : R.capacity rb = R.capacity b.rb ∧ R.items rb <:+ R.items b.rb := by
      rw [← hroom]
      split
      · exact ⟨R.capacity_skip _ _, skip_suffix _ _⟩
      · exact ⟨rfl, List.suffix_rfl⟩
    refine ⟨inv_push hb hrb.1 buffer, rfl, (push_suffix buffer rb).trans (append_suffix hrb.2), ?_⟩
    rw [R.capacity_push]
    exact push_len buffer rb

theorem play_inv (hb : b.Inv w) (n : ℕ) : (play n b).Inv w := by
  refine ⟨(R.capacity_skip n b.rb).trans hb.capacity, hb.pos, hb.small, hb.hist, ?_⟩
  show (R.items (R.skip n b.rb)).length ≤ R.capacity (R.skip n b.rb)
  rw [R.capacity_skip]
  exact (skip_suffix n b.rb).length_le.trans hb.len

end Parts

/-! ## Every sequence of calls -/

section Steps

variable {w} {s : Session R}

theorem start_returns (hw : 32 ≤ w) : Returns (· = .newBuffer) (start (R := R))
    fun s => s.buffer.Inv w ∧ Kept s := by
  have hword : 2 ^ 32 ≤ 2 ^ w := Nat.pow_le_pow_right (by norm_num) hw
  refine Returns.bind (Q := fun b => b.Inv w ∧ b.rate = 48000 * 2 ∧ R.items b.rb = []) ?_ ?_
  · refine (newRb_returns _).bind ?_
    rintro rb ⟨_, hcap, hitems⟩
    have hthree : R.capacity rb = 3 * (48000 * 2) := hcap.trans (by norm_num [audioBufferMs])
    refine returns_ok ⟨⟨hthree, by norm_num, ?_, List.length_replicate, ?_⟩, rfl, hitems⟩
    · exact (by norm_num [audioBufferMs] : 48000 * 2 * audioBufferMs < 2 ^ 32).trans_le hword
    · simp [Buffer.len, hitems]
  · rintro b ⟨hb, hrate, hitems⟩
    refine returns_ok ⟨hb, hb.len, hrate, ?_, fun n hn => absurd hn List.not_mem_nil⟩
    dsimp only
    rw [hitems]

theorem resize_kept (hb : s.buffer.Inv w) (hs : Kept s) {sampleRate : UInt32} {channels : UInt16}
    (hfit : Fits (α := α) w (.resize sampleRate channels)) :
    Returns (· = .newBuffer) (step w s (.resize sampleRate channels))
      fun s' => s'.buffer.Inv w ∧ Kept s' := by
  refine (resize_returns hb hfit).bind ?_
  rintro b ⟨hinv, hrate, hitems⟩
  refine returns_ok ⟨hinv, hinv.len, hrate, ?_, hs.even⟩
  dsimp only
  rcases hitems with rfl | ⟨hother, hnil⟩
  · rw [if_neg (by simp)]
    exact hs.suffix
  · rw [if_pos hother, hnil]

theorem appendPcm_kept (hb : s.buffer.Inv w) (hs : Kept s) (buffer : List α) (played : ℕ)
    (dt : ℤ) : Returns (· = .newBuffer) (step w s (.appendPcm buffer played dt))
      fun s' => s'.buffer.Inv w ∧ Kept s' := by
  obtain ⟨hinv, hrate, hsuffix, hcount⟩ := appendPcm2_spec hb buffer
  have hhaving : (appendPcm2 w buffer s.buffer).1 ≤
      R.capacity (play played (appendPcm2 w buffer s.buffer).2).rb := by
    show _ ≤ R.capacity (R.skip played _)
    rw [R.capacity_skip]
    exact hcount
  refine (tryShrink_returns (play_inv hinv played) hhaving dt s.tms).bind ?_
  rintro ⟨tms, b⟩ ⟨hinv', hrate', k, hk, hitems⟩
  refine returns_ok ⟨hinv', hinv'.len, hrate'.trans (hrate.trans hs.rate), ?_, ?_⟩
  · show R.items b.rb <:+ s.appended ++ buffer
    rw [hitems]
    calc (R.items (play played (appendPcm2 w buffer s.buffer).2).rb).drop (2 * k)
      _ <:+ R.items (R.skip played (appendPcm2 w buffer s.buffer).2.rb) := List.drop_suffix _ _
      _ <:+ R.items (appendPcm2 w buffer s.buffer).2.rb := skip_suffix _ _
      _ <:+ R.items s.buffer.rb ++ buffer := hsuffix
      _ <:+ s.appended ++ buffer := append_suffix hs.suffix
  · refine List.forall_mem_cons.mpr ⟨⟨k, ?_⟩, hs.even⟩
    have hlen : b.len = (play played (appendPcm2 w buffer s.buffer).2).len - 2 * k := by
      rw [Buffer.len, hitems, List.length_drop]
      rfl
    show (play played (appendPcm2 w buffer s.buffer).2).len - b.len = k + k
    omega

theorem step_kept (hb : s.buffer.Inv w) (hs : Kept s) {a : Action α} (hfit : Fits w a) :
    Returns (· = .newBuffer) (step w s a) fun s' => s'.buffer.Inv w ∧ Kept s' := by
  cases a with
  | resize sampleRate channels => exact resize_kept hb hs hfit
  | appendPcm buffer played dt => exact appendPcm_kept hb hs buffer played dt
  | play n =>
    have hinv : (play n s.buffer).Inv w := play_inv hb n
    exact returns_ok ⟨hinv, hinv.len, hs.rate, (skip_suffix n s.buffer.rb).trans hs.suffix, hs.even⟩
  | otherSession tms => exact returns_ok ⟨hb, hs.capacity, hs.rate, hs.suffix, hs.even⟩

end Steps

/-- With 64 bits every format fits. -/
theorem fits_of_64 (hw : 64 ≤ w) (a : Action α) : Fits w a := by
  cases a with
  | resize sampleRate channels =>
    have hsmall : sampleRate.toNat * channels.toNat < 2 ^ 32 * 2 ^ 16 :=
      Nat.mul_lt_mul'' sampleRate.toNat_lt channels.toNat_lt
    calc sampleRate.toNat * channels.toNat * audioBufferMs
      _ < 2 ^ 64 := by unfold audioBufferMs; omega
      _ ≤ 2 ^ w := Nat.pow_le_pow_right (by norm_num) hw
  | appendPcm _ _ _ | play _ | otherSession _ => trivial

/-- Every sequence of calls with formats that fit returns, unless there is no ring buffer to be
    had, and the buffer is in order after it. -/
theorem audio_buffer_kept (R : RingBuf α) {w : ℕ} (hw : 32 ≤ w) (actions : List (Action α))
    (hfits : ∀ a ∈ actions, Fits w a) :
    Returns (· = .newBuffer) (start >>= fun s : Session R => actions.foldlM (step w) s) Kept := by
  refine (start_returns hw).bind fun s hs => ?_
  refine (Returns.foldlM_of_mem (I := fun s : Session R => s.buffer.Inv w ∧ Kept s)
    (fun s a ha h => step_kept h.1 h.2 (hfits a ha)) hs).mono ?_
  exact fun _ h => h.2

/-- A ring buffer that is its capacity and the list of its items. -/
def listRb (α : Type) : RingBuf α where
  HeapRb := ℕ × List α
  new n := if 0 < n then some (n, []) else none
  capacity := Prod.fst
  items := Prod.snd
  skip n rb := (rb.1, rb.2.drop n)
  pushSliceOverwrite xs rb := (rb.1, (rb.2 ++ xs).drop (rb.2.length + xs.length - rb.1))
  capacity_pos n rb hrb := by
    by_contra hn
    rw [if_neg hn] at hrb
    cases hrb
  capacity_new n rb hrb := by
    split at hrb
    · cases hrb
      rfl
    · cases hrb
  items_new n rb hrb := by
    split at hrb
    · cases hrb
      rfl
    · cases hrb
  capacity_skip _ _ := rfl
  items_skip _ _ := rfl
  capacity_push _ _ := rfl
  items_push _ _ := rfl

/-- 176.4 kHz on eight channels, in 32 bits, and samples that are played. -/
theorem audio_buffer_kept_surround : Returns (· = .newBuffer)
    (start >>= fun s : Session (listRb ℕ) =>
      [.resize 176400 8, .appendPcm [1, 2, 3] 1 5].foldlM (step 32) s) Kept := by
  refine audio_buffer_kept (listRb ℕ) le_rfl _ fun a ha => ?_
  rcases List.mem_cons.mp ha with rfl | ha
  · show 176400 * 8 * 3000 < 2 ^ 32
    norm_num
  · rw [List.mem_singleton.mp ha]
    trivial

/-- In 32 bits, 190957 samples a second on eight channels have the capacity of the default, and
    the divisor stays that of the default. -/
theorem wrapped_format_kept_back :
    (start >>= fun s : Session (listRb ℕ) =>
      [Action.resize 190957 8].foldlM (step 32) s).map (fun s => (s.buffer.rate, s.format)) =
        .ok (96000, 1527656) ∧
    ¬ Returns (· = .newBuffer) (start >>= fun s : Session (listRb ℕ) =>
      [Action.resize 190957 8].foldlM (step 32) s) Kept := by
  refine ⟨by rfl, fun hkept => ?_⟩
  have hrate : (96000 : ℕ) = 1527656 := hkept.rate
  norm_num at hrate

/-- One sample a second, and more of them than there is room for. -/
example : (start >>= fun s : Session (listRb ℕ) =>
    [.resize 1 1, .appendPcm [1, 2] 0 1, .appendPcm [3, 4] 0 2].foldlM (step 64) s).map
      (fun s => (s.buffer.rb, s.buffer.rate)) = .ok ((3, [2, 3, 4]), 1) := rfl

/-- Samples without a channel need no room, and a ring buffer has some. -/
example : (start >>= fun s : Session (listRb ℕ) => [.resize 48000 0].foldlM (step 64) s).map
    (fun s => s.buffer.rate) = .error .newBuffer := rfl

end AudioBuffer

end LuodaRemote
