/-
  Recordings (`Recorder` of `libs/scrap/src/common/record.rs`).

  A new file is started for a new codec or picture size and when the time of a frame is before the
  last one; the old file is closed by its drop. `recordings_playable`: each file has frames of one
  codec and size, in order of time, and the states that are sent tell of one file after another.
  Two things are left to the peer and the muxer: a frame's time has to fit in nanoseconds, and
  a frame that needs another one has to come to a file in which something has been written.

  What the muxers do with a frame is left open, but for whether they take it.
-/
import LuodaRemote.Codec.Negotiation
import LuodaRemote.Lib.Checked
import LuodaRemote.Lib.Run
import LuodaRemote.Message
import LuodaRemote.Transfer.Job

namespace LuodaRemote
open Lib Codec

namespace Record

/-- In seconds. -/
def minSecs : Nat := 1

structure RecorderContext where
  server : Bool
  id : String
  dir : String
  displayIdx : Nat
  camera : Bool
  /-- There is someone to send the states to. -/
  tx : Bool
deriving DecidableEq

structure RecorderContext2 where
  filename : String
  width : Nat
  height : Nat
  format : CodecFormat
deriving DecidableEq

inductive RecordState where
  | newFile (filename : String)
  | newFrame
  | writeTail
  | removeFile
deriving DecidableEq

structure EncodedVideoFrame where
  data : Bytes
  key : Bool
  pts : Int
deriving DecidableEq

/-- `video_frame::Union`; the pictures that are not encoded are of no interest here. -/
inductive Union where
  | vp8s (frames : List EncodedVideoFrame)
  | vp9s (frames : List EncodedVideoFrame)
  | av1s (frames : List EncodedVideoFrame)
  | h264s (frames : List EncodedVideoFrame)
  | h265s (frames : List EncodedVideoFrame)
  | rgb
  | yuv
deriving DecidableEq

def Union.format : Union → CodecFormat
  | .vp8s _ => .vp8
  | .vp9s _ => .vp9
  | .av1s _ => .av1
  | .h264s _ => .h264
  | .h265s _ => .h265
  | .rgb | .yuv => .unknown

/-- How a new file is opened: with `create_new`, or, if it is there, with `create`. -/
inductive Opening where
  | new
  | there (createError : Option String)
  | failed (e : String)
deriving DecidableEq

/-- What the system does when a file may be closed and another one started. -/
structure Attempt where
  /-- The directory is there. -/
  dirExists : Bool := true
  dirError : Option String := none
  /-- The time of day as `_%Y%m%d%H%M%S%3f_`. -/
  stamp : String := "_20240101000000000_"
  opening : Opening := .new
  segment : Bool := true
  codecPrivate : Bool := true
  hwMuxer : Bool := true
  /-- When the old file is closed, in milliseconds. -/
  dropped : Nat := 0
  /-- When the new one is started. -/
  started : Nat := 0
deriving DecidableEq

/-- What the system does with one frame. -/
structure Turn where
  attempt : Attempt := {}
  /-- The muxer takes the frame. -/
  accepted : Bool := true
deriving DecidableEq

/-- What the system does in a call of `write_frame`. -/
structure Env where
  first : Attempt := {}
  turn : Nat → Turn := fun _ => {}

/-- The feature `hwcodec` of the build, and whether it is for Windows. -/
structure Build where
  hwcodec : Bool
  windows : Bool
deriving DecidableEq

/-! ## Files -/

def formatName : CodecFormat → String
  | .vp8 => "VP8"
  | .vp9 => "VP9"
  | .av1 => "AV1"
  | .h264 => "H264"
  | .h265 => "H265"
  | .unknown => "Unknown"

/-- `set_filename`. -/
def filename (b : Build) (a : Attempt) (ctx : RecorderContext) (format : CodecFormat) :
    Except String String :=
  match (if a.dirExists then none else a.dirError) with
  | some e => .error e
  | none =>
    let file := (if ctx.server then "incoming" else "outgoing") ++ "_" ++ ctx.id ++ a.stamp ++
      ((if ctx.camera then "camera" else "display") ++ toString ctx.displayIdx ++ "_") ++
      (formatName format).toLower ++
      if format = .vp9 ∨ format = .vp8 ∨ format = .av1 then ".webm" else ".mp4"
    .ok (pathJoin b.windows ctx.dir file)

/-- A frame as it was handed to a muxer, with the codec and the size of its picture. -/
structure Handed where
  format : CodecFormat
  width : Nat
  height : Nat
  frame : EncodedVideoFrame
  accepted : Bool
deriving DecidableEq

/-- A `WebmRecorder`, or an `HwRecorder`, with its file. -/
structure FileRecorder where
  hw : Bool
  ctx2 : RecorderContext2
  key : Bool
  written : Bool
  start : Nat
  frames : List Handed
deriving DecidableEq

/-- `WebmRecorder::new`. -/
def newWebm (a : Attempt) (ctx2 : RecorderContext2) : Except String FileRecorder :=
  let file : FileRecorder := ⟨false, ctx2, false, false, a.started, []⟩
  let finish : Except String FileRecorder :=
    if !a.segment then .error "Failed to create webm mux"
    else if ctx2.format = .av1 && !a.codecPrivate then .error "Failed to set codec private"
    else .ok file
  match a.opening with
  | .new => finish
  | .there none => finish
  | .there (some e) => .error e
  | .failed e => .error e

/-- `HwRecorder::new`. -/
def newHw (a : Attempt) (ctx2 : RecorderContext2) : Except String FileRecorder :=
  if a.hwMuxer then .ok ⟨true, ctx2, false, false, a.started, []⟩
  else .error "Failed to create hardware muxer"

/-- The file that `check` starts. -/
def newFile (b : Build) (a : Attempt) (format : CodecFormat) (ctx2 : RecorderContext2) :
    Except String FileRecorder :=
  match format with
  | .vp8 | .vp9 | .av1 => newWebm a ctx2
  | _ => if b.hwcodec then newHw a ctx2 else .error "unsupported codec type"

/-- `write_video`. A WebM muxer gets the time too, in nanoseconds. -/
def FileRecorder.writeVideo (file : FileRecorder) (w h : Nat) (format : CodecFormat)
    (accepted : Bool) (frame : EncodedVideoFrame) : Bool × FileRecorder :=
  let key := file.key || frame.key
  if key then
    (accepted, { file with key := key
                           written := file.written || accepted
                           frames := file.frames ++ [⟨format, w, h, frame, accepted⟩] })
  else (false, { file with key := key })

/-- `frame.pts as u64`. -/
def asU64 (pts : Int) : Nat := (pts % 2 ^ 64).toNat

/-- `frame.pts as u64 * 1_000_000`. -/
def webmTime (pts : Int) : Except Fault Nat := U64.mul (asU64 pts) 1000000

/-- The state that `drop` sends; unless it is the tail, the file is removed. -/
def FileRecorder.lastState (file : FileRecorder) (now : Nat) : RecordState :=
  if !file.written || (now - file.start) / 1000 < minSecs then .removeFile else .writeTail

/-! ## The recorder -/

structure Recorder where
  inner : Option FileRecorder
  ctx : RecorderContext
  ctx2 : Option RecorderContext2
  pts : Option Int
  checkFailed : Bool
  /-- What was sent on `tx`. -/
  sent : List RecordState
  /-- The files that were closed. -/
  closed : List FileRecorder
deriving DecidableEq

def Recorder.new (ctx : RecorderContext) : Recorder := ⟨none, ctx, none, none, false, [], []⟩

def Recorder.sendState (r : Recorder) (state : RecordState) : Recorder :=
  { r with sent := if r.ctx.tx then r.sent ++ [state] else r.sent }

/-- `self.inner = None`. -/
def Recorder.dropInner (r : Recorder) (now : Nat) : Recorder :=
  match r.inner with
  | none => r
  | some file =>
    { r with inner := none
             closed := r.closed ++ [file] }.sendState (file.lastState now)

def Recorder.setFile (r : Recorder) (file : FileRecorder) : Recorder :=
  { r with inner := some file, pts := none }.sendState (.newFile file.ctx2.filename)

/-- `check` as far as `ctx2`. -/
def Recorder.checkCtx2 (r : Recorder) (b : Build) (a : Attempt) (w h : Nat)
    (format : CodecFormat) : Except String Unit × Recorder :=
  if r.ctx2.any fun c => c.width == w && c.height == h && c.format == format then (.ok (), r)
  else
    match filename b a r.ctx format with
    | .error e => (.error e, r)
    | .ok name => (.ok (), { r with ctx2 := some ⟨name, w, h, format⟩ }.dropInner a.dropped)

def Recorder.check (r : Recorder) (b : Build) (a : Attempt) (w h : Nat) (format : CodecFormat) :
    Except String Unit × Recorder :=
  match r.checkCtx2 b a w h format with
  | (.error e, r) => (.error e, r)
  | (.ok (), r) =>
    match r.ctx2 with
    | none => (.error "ctx2 is None", r)
    | some ctx2 =>
      if r.inner.isSome then (.ok (), r)
      else
        match newFile b a format ctx2 with
        | .error e => (.error e, r)
        | .ok file => (.ok (), r.setFile file)

/-- A `check` whose failure is remembered. -/
def Recorder.checkOrFail (r : Recorder) (b : Build) (a : Attempt) (w h : Nat)
    (format : CodecFormat) : Except String Unit × Recorder :=
  match r.check b a w h format with
  | (.error e, r) => (.error e, { r with checkFailed := true })
  | (.ok (), r) => (.ok (), r)

def Recorder.setPts (r : Recorder) (pts : Int) : Recorder := { r with pts := some pts }

/-- Nothing is open, and the next `check` starts a file. -/
def Recorder.forget (r : Recorder) (now : Nat) : Recorder :=
  { r.dropInner now with ctx2 := none }

def Recorder.checkPts (r : Recorder) (b : Build) (a : Attempt) (pts : Int) (key : Bool)
    (w h : Nat) (format : CodecFormat) : Except String Unit × Recorder :=
  if r.pts.isNone && !key then (.error "first frame is not key frame", r)
  else if pts < r.pts.getD 0 then
    match ((r.setPts pts).forget a.dropped).checkOrFail b a w h format with
    | (.error e, r) => (.error e, r)
    | (.ok (), r) => (.ok (), r.setPts pts)
  else (.ok (), r.setPts pts)

/-- `self.as_mut().map(|x| x.write_video(f))`. -/
def Recorder.writeVideo (r : Recorder) (w h : Nat) (format : CodecFormat) (accepted : Bool)
    (f : EncodedVideoFrame) : Recorder :=
  { r with inner := r.inner.map fun x => (x.writeVideo w h format accepted f).2 }

/-- The loop over the frames of a message, from the `k`-th one on. -/
def Recorder.writeFrames (b : Build) (turn : Nat → Turn) (w h : Nat) (format : CodecFormat) :
    Recorder → Nat → List EncodedVideoFrame → Except String Unit × Recorder
  | r, _, [] => (.ok (), r)
  | r, k, f :: fs =>
    match r.checkPts b (turn k).attempt f.pts f.key w h format with
    | (.error e, r) => (.error e, r)
    | (.ok (), r) =>
      (r.writeVideo w h format (turn k).accepted f).writeFrames b turn w h format (k + 1) fs

/-- The frames of the kinds that the build records. -/
def Union.frames (hwcodec : Bool) : Union → Option (List EncodedVideoFrame)
  | .vp8s fs => some fs
  | .vp9s fs => some fs
  | .av1s fs => some fs
  | .h264s fs => if hwcodec then some fs else none
  | .h265s fs => if hwcodec then some fs else none
  | .rgb | .yuv => none

def Recorder.writeFrame (r : Recorder) (b : Build) (env : Env) (frame : Union) (w h : Nat) :
    Except String Unit × Recorder :=
  if r.checkFailed then (.error "check failed", r)
  else if frame.format = .unknown then (.error "unsupported frame type", r)
  else
    match r.checkOrFail b env.first w h frame.format with
    | (.error e, r) => (.error e, r)
    | (.ok (), r) =>
      match frame.frames b.hwcodec with
      | none => (.error "unsupported frame type", r)
      | some fs =>
        match r.writeFrames b env.turn w h frame.format 0 fs with
        | (.error e, r) => (.error e, r)
        | (.ok (), r) => (.ok (), r.sendState .newFrame)

/-- A call of `write_frame`. -/
structure Call where
  env : Env
  frame : Union
  w : Nat
  h : Nat

def Recorder.step (b : Build) (r : Recorder) (c : Call) : Recorder :=
  (r.writeFrame b c.env c.frame c.w c.h).2

/-! ## What a recording should be -/

/-- The states tell of one file after another; the flag says that one is open in the end. -/
inductive Told : List RecordState → Bool → Prop where
  | start : Told [] false
  | newFile {states : List RecordState} (h : Told states false) (filename : String) :
      Told (states ++ [.newFile filename]) true
  | newFrame {states : List RecordState} (h : Told states true) :
      Told (states ++ [.newFrame]) true
  | writeTail {states : List RecordState} (h : Told states true) :
      Told (states ++ [.writeTail]) false
  | removeFile {states : List RecordState} (h : Told states true) :
      Told (states ++ [.removeFile]) false

structure FileRecorder.Playable (file : FileRecorder) : Prop where
  uniform : ∀ f ∈ file.frames, f.format = file.ctx2.format ∧ f.width = file.ctx2.width ∧
    f.height = file.ctx2.height
  begins : ∀ f ∈ file.frames.head?, f.frame.key = true
  /-- The same for the frames that the muxer took. -/
  starts : ∀ f ∈ (file.frames.filter (·.accepted)).head?, f.frame.key = true
  ordered : (file.frames.map (·.frame.pts)).Pairwise (· ≤ ·)
  fits : file.hw = false → ∀ f ∈ file.frames, ∃ t : Nat, webmTime f.frame.pts = .ok t ∧
    (t : Int) = f.frame.pts * 1000000

structure Recorder.Playable (r : Recorder) : Prop where
  closed : ∀ file ∈ r.closed, file.Playable
  inner : ∀ file ∈ r.inner, file.Playable
  told : Told r.sent (r.ctx.tx && r.inner.isSome)

/-- The last time that fits. -/
def maxPts : Nat := 18446744073709

/-- If the frame is written in this file, its time fits, and something was written before it unless
    it is a key frame. -/
def FileRecorder.Suits (file : FileRecorder) (f : EncodedVideoFrame) : Prop :=
  (file.key || f.key) = true →
    (file.hw = false → 0 ≤ f.pts ∧ f.pts ≤ maxPts) ∧ (f.key = false → file.written = true)

/-- The frames that the loop comes to suit the files that they come to. -/
def Recorder.Suits (b : Build) (turn : Nat → Turn) (w h : Nat) (format : CodecFormat) :
    Recorder → Nat → List EncodedVideoFrame → Prop
  | _, _, [] => True
  | r, k, f :: fs =>
    match r.checkPts b (turn k).attempt f.pts f.key w h format with
    | (.error _, _) => True
    | (.ok (), r) =>
      (∀ file ∈ r.inner, file.Suits f) ∧
        (r.writeVideo w h format (turn k).accepted f).Suits b turn w h format (k + 1) fs

def Recorder.Meets (b : Build) (r : Recorder) (c : Call) : Prop :=
  match r.checkOrFail b c.env.first c.w c.h c.frame.format, c.frame.frames b.hwcodec with
  | (.ok (), checked), some fs =>
    r.checkFailed = false → checked.Suits b c.env.turn c.w c.h c.frame.format 0 fs
  | _, _ => True

/-! ## Files -/

/-- A file as it was just made. -/
def FileRecorder.Fresh (file : FileRecorder) : Prop :=
  file.key = false ∧ file.written = false ∧ file.frames = []

theorem newWebm_ok {a : Attempt} {ctx2 : RecorderContext2} {file : FileRecorder}
    (h : newWebm a ctx2 = .ok file) : file.ctx2 = ctx2 ∧ file.Fresh := by
  unfold newWebm at h
  dsimp only at h
  split at h
  all_goals try cases h
  all_goals
    split at h
    · cases h
    · split at h
      · cases h
      · cases h
        exact ⟨rfl, rfl, rfl, rfl⟩

theorem newHw_ok {a : Attempt} {ctx2 : RecorderContext2} {file : FileRecorder}
    (h : newHw a ctx2 = .ok file) : file.ctx2 = ctx2 ∧ file.Fresh := by
  unfold newHw at h
  split at h
  · cases h
    exact ⟨rfl, rfl, rfl, rfl⟩
  · cases h

theorem newFile_ok {b : Build} {a : Attempt} {format : CodecFormat} {ctx2 : RecorderContext2}
    {file : FileRecorder} (h : newFile b a format ctx2 = .ok file) :
    file.ctx2 = ctx2 ∧ file.Fresh := by
  unfold newFile at h
  split at h
  · exact newWebm_ok h
  · exact newWebm_ok h
  · exact newWebm_ok h
  · split at h
    · exact newHw_ok h
    · cases h

theorem FileRecorder.Fresh.playable {file : FileRecorder} (h : file.Fresh) : file.Playable := by
  obtain ⟨-, -, hframes⟩ := h
  constructor
  all_goals rw [hframes]
  · exact nofun
  · exact nofun
  · exact nofun
  · exact .nil
  · exact fun _ => nofun

theorem webmTime_ok {pts : Int} (h0 : 0 ≤ pts) (h : pts ≤ maxPts) :
    ∃ t : Nat, webmTime pts = .ok t ∧ (t : Int) = pts * 1000000 := by
  obtain ⟨n, rfl⟩ := Int.eq_ofNat_of_zero_le h0
  have hn : n ≤ 18446744073709 := Int.ofNat_le.mp h
  have hu : asU64 n = n := by
    unfold asU64
    omega
  refine ⟨n * 1000000, ?_, Int.natCast_mul n 1000000⟩
  unfold webmTime
  rw [hu]
  exact U64.mul_ok (by omega)

/-- What is known of a file that is open, when the last frame had the time `pts`. -/
structure FileRecorder.Open (file : FileRecorder) (pts : Option Int) : Prop where
  playable : file.Playable
  key : file.key = true ↔ file.frames ≠ []
  written : file.written = true ↔ ∃ f ∈ file.frames, f.accepted = true
  late : ∀ f ∈ file.frames, ∃ p, pts = some p ∧ f.frame.pts ≤ p

theorem FileRecorder.Fresh.opened {file : FileRecorder} (h : file.Fresh) :
    file.Open none where
  playable := h.playable
  key := by
    rw [h.1, h.2.2]
    exact ⟨nofun, fun hne => absurd rfl hne⟩
  written := by
    rw [h.2.1, h.2.2]
    exact ⟨nofun, nofun⟩
  late := by
    rw [h.2.2]
    exact nofun

/-- A later frame than the last one does not come too early for what is there. -/
theorem FileRecorder.Open.later {file : FileRecorder} {old : Option Int} {pts : Int}
    (h : file.Open old) (hle : ∀ p ∈ old, p ≤ pts) : file.Open (some pts) := by
  refine { h with late := fun f hf => ?_ }
  obtain ⟨p, hold, hp⟩ := h.late f hf
  exact ⟨pts, rfl, hp.trans (hle p hold)⟩

/-! ## One frame -/

/-- The file is for pictures of this codec and size. -/
def FileRecorder.For (file : FileRecorder) (w h : Nat) (format : CodecFormat) : Prop :=
  file.ctx2.width = w ∧ file.ctx2.height = h ∧ file.ctx2.format = format

section WriteVideo

variable {file : FileRecorder} {w h : Nat} {format : CodecFormat} {accepted : Bool}
  {f : EncodedVideoFrame}

theorem writeVideo_ctx2 : (file.writeVideo w h format accepted f).2.ctx2 = file.ctx2 := by
  unfold FileRecorder.writeVideo
  dsimp only
  split <;> rfl

/-- A frame that is not written changes nothing. -/
theorem writeVideo_skip (hkey : (file.key || f.key) = false) :
    (file.writeVideo w h format accepted f).2 = file := by
  have hfile : file.key = false := (Bool.or_eq_false_iff.mp hkey).1
  unfold FileRecorder.writeVideo
  dsimp only
  rw [hkey, if_neg (by decide), ← hfile]

theorem writeVideo_hand (hkey : (file.key || f.key) = true) :
    (file.writeVideo w h format accepted f).2 =
      { file with key := true
                  written := file.written || accepted
                  frames := file.frames ++ [⟨format, w, h, f, accepted⟩] } := by
  unfold FileRecorder.writeVideo
  dsimp only
  rw [hkey, if_pos rfl]

/-- A file stays playable with one more frame that suits it. -/
theorem FileRecorder.Open.playable_hand (hopen : file.Open (some f.pts))
    (hfor : file.For w h format) (hkey : (file.key || f.key) = true) (hsuits : file.Suits f) :
    (file.writeVideo w h format accepted f).2.Playable := by
  obtain ⟨htime, hfirst⟩ := hsuits hkey
  rw [writeVideo_hand hkey]
  constructor
  · intro g hg
    rcases List.mem_append.mp hg with hg | hg
    · exact hopen.playable.uniform g hg
    · cases List.mem_singleton.mp hg
      exact ⟨hfor.2.2.symm, hfor.1.symm, hfor.2.1.symm⟩
  · intro g hg
    dsimp only at hg
    cases hframes : file.frames with
    | nil =>
      have hnew : file.key = false := by
        rw [Bool.eq_false_iff]
        exact fun hk => hopen.key.mp hk hframes
      rw [hframes, List.nil_append, List.head?_cons] at hg
      cases hg
      rwa [hnew, Bool.false_or] at hkey
    | cons g' gs =>
      have hhead (last : Handed) : (file.frames ++ [last]).head? = file.frames.head? := by
        rw [hframes]
        rfl
      rw [hhead] at hg
      exact hopen.playable.begins g hg
  · intro g hg
    dsimp only at hg
    rw [List.filter_append, List.head?_append] at hg
    cases hold : (file.frames.filter (·.accepted)).head? with
    | some g' =>
      rw [hold] at hg
      cases hg
      exact hopen.playable.starts g hold
    | none =>
      rw [hold, Option.none_or] at hg
      cases List.mem_singleton.mp (List.mem_filter.mp (List.mem_of_head? hg)).1
      by_contra hdelta
      obtain ⟨g, hg, haccepted⟩ := hopen.written.mp (hfirst (Bool.eq_false_iff.mpr hdelta))
      have hmem := List.mem_filter.mpr ⟨hg, haccepted⟩
      rw [List.head?_eq_none_iff.mp hold] at hmem
      cases hmem
  · dsimp only
    rw [List.map_append, List.pairwise_append]
    refine ⟨hopen.playable.ordered, List.pairwise_singleton _ _, ?_⟩
    intro p hp q hq
    obtain ⟨g, hg, rfl⟩ := List.mem_map.mp hp
    cases List.mem_singleton.mp hq
    obtain ⟨last, hlast, hle⟩ := hopen.late g hg
    cases hlast
    exact hle
  · intro hhw g hg
    rcases List.mem_append.mp hg with hg | hg
    · exact hopen.playable.fits hhw g hg
    · cases List.mem_singleton.mp hg
      exact webmTime_ok (htime hhw).1 (htime hhw).2

/-- A frame that suits the file, and is not earlier than the others. -/
theorem FileRecorder.Open.writeVideo (hopen : file.Open (some f.pts)) (hfor : file.For w h format)
    (hsuits : file.Suits f) :
    (file.writeVideo w h format accepted f).2.Open (some f.pts) := by
  cases hkey : file.key || f.key with
  | false =>
    rw [writeVideo_skip hkey]
    exact hopen
  | true =>
    refine ⟨hopen.playable_hand hfor hkey hsuits, ?_, ?_, ?_⟩
    all_goals rw [writeVideo_hand hkey]; dsimp only
    · exact ⟨fun _ => List.append_ne_nil_of_right_ne_nil _ (List.cons_ne_nil _ _), fun _ => rfl⟩
    · rw [Bool.or_eq_true, hopen.written]
      simp only [List.mem_append, List.mem_singleton, or_and_right, exists_or, exists_eq_left]
    · intro g hg
      rcases List.mem_append.mp hg with hg | hg
      · exact hopen.late g hg
      · cases List.mem_singleton.mp hg
        exact ⟨f.pts, rfl, le_rfl⟩

end WriteVideo

/-! ## The recorder -/

/-- What holds of the recorder between its steps. -/
structure Recorder.Sound (r : Recorder) : Prop where
  playable : r.Playable
  opened : ∀ file ∈ r.inner, file.Open r.pts
  ctx2 : ∀ file ∈ r.inner, r.ctx2 = some file.ctx2

section Recorder

variable {r : Recorder}

theorem playable_new (ctx : RecorderContext) : (Recorder.new ctx).Playable where
  closed := nofun
  inner := nofun
  told := by
    unfold Recorder.new
    rw [Option.isSome_none, Bool.and_false]
    exact .start

/-- With no file open, nothing more is asked. -/
theorem Recorder.Playable.sound (h : r.Playable) (hinner : r.inner = none) : r.Sound where
  playable := h
  opened := by
    rw [hinner]
    exact nofun
  ctx2 := by
    rw [hinner]
    exact nofun

@[simp] theorem dropInner_inner (now : Nat) : (r.dropInner now).inner = none := by
  unfold Recorder.dropInner
  split
  · assumption
  · rfl

@[simp] theorem dropInner_ctx2 (now : Nat) : (r.dropInner now).ctx2 = r.ctx2 := by
  unfold Recorder.dropInner
  split <;> rfl

/-- The state that tells of the end of a file. -/
theorem told_lastState {states : List RecordState} (h : Told states true) (file : FileRecorder)
    (now : Nat) : Told (states ++ [file.lastState now]) false := by
  unfold FileRecorder.lastState
  split
  · exact .removeFile h
  · exact .writeTail h

theorem Recorder.Playable.dropInner (h : r.Playable) (now : Nat) :
    (r.dropInner now).Playable := by
  cases hinner : r.inner with
  | none =>
    unfold Recorder.dropInner
    rw [hinner]
    exact h
  | some file =>
    have htold := h.told
    rw [hinner] at htold
    unfold Recorder.dropInner
    rw [hinner]
    refine ⟨?_, nofun, ?_⟩
    · refine List.forall_mem_append.mpr ⟨h.closed, ?_⟩
      exact List.forall_mem_singleton.mpr (h.inner file hinner)
    · unfold Recorder.sendState
      dsimp only
      cases htx : r.ctx.tx with
      | true =>
        rw [htx] at htold
        exact told_lastState htold file now
      | false =>
        rw [htx] at htold
        exact htold

/-- A file is started when none is open. -/
theorem Recorder.Playable.setFile (h : r.Playable) (hinner : r.inner = none) {file : FileRecorder}
    (hctx2 : r.ctx2 = some file.ctx2) (hfresh : file.Fresh) : (r.setFile file).Sound := by
  have htold := h.told
  rw [hinner, Option.isSome_none, Bool.and_false] at htold
  refine ⟨⟨h.closed, ?_, ?_⟩, ?_, ?_⟩
  · intro g hg
    cases hg
    exact hfresh.playable
  · unfold Recorder.setFile Recorder.sendState
    dsimp only
    cases r.ctx.tx with
    | true => exact .newFile htold _
    | false => exact htold
  · intro g hg
    cases hg
    exact hfresh.opened
  · intro g hg
    cases hg
    exact hctx2

/-- A file of this codec and size is open. -/
def Recorder.Ready (r : Recorder) (w h : Nat) (format : CodecFormat) : Prop :=
  ∃ file ∈ r.inner, file.For w h format

variable {b : Build} {a : Attempt} {w h : Nat} {format : CodecFormat}

variable (b a w h format) in
theorem checkCtx2_sound (hr : r.Sound) : (r.checkCtx2 b a w h format).2.Sound := by
  unfold Recorder.checkCtx2
  split
  · exact hr
  · split
    · exact hr
    · next name _ =>
        have hplayable : ({ r with ctx2 := some ⟨name, w, h, format⟩ } : Recorder).Playable :=
          ⟨hr.playable.closed, hr.playable.inner, hr.playable.told⟩
        exact (hplayable.dropInner _).sound (dropInner_inner _)

theorem checkCtx2_ok (hok : (r.checkCtx2 b a w h format).1 = .ok ()) :
    ∃ c, (r.checkCtx2 b a w h format).2.ctx2 = some c ∧ c.width = w ∧ c.height = h ∧
      c.format = format := by
  unfold Recorder.checkCtx2 at hok ⊢
  split
  · next hsame =>
      cases hctx2 : r.ctx2 with
      | none =>
        rw [hctx2] at hsame
        cases hsame
      | some c =>
        rw [hctx2, Option.any_some, Bool.and_eq_true, Bool.and_eq_true, beq_iff_eq, beq_iff_eq,
          beq_iff_eq] at hsame
        exact ⟨c, rfl, hsame.1.1, hsame.1.2, hsame.2⟩
  · next hsame =>
      rw [if_neg hsame] at hok
      split
      · next hname =>
          rw [hname] at hok
          cases hok
      · exact ⟨_, dropInner_ctx2 _, rfl, rfl, rfl⟩

variable (b a w h format) in
theorem check_spec (hr : r.Sound) : (r.check b a w h format).2.Sound ∧
    ((r.check b a w h format).1 = .ok () → (r.check b a w h format).2.Ready w h format) := by
  have hsound := checkCtx2_sound b a w h format hr
  have hctx2 : (r.checkCtx2 b a w h format).1 = .ok () → _ := checkCtx2_ok
  unfold Recorder.check
  split
  · next e r' heq =>
      rw [heq] at hsound
      exact ⟨hsound, nofun⟩
  · next r' heq =>
      rw [heq] at hsound hctx2
      obtain ⟨c, hc, hfor⟩ := hctx2 rfl
      dsimp only at hc
      rw [hc]
      dsimp only
      cases hinner : r'.inner with
      | some file =>
        rw [Option.isSome_some, if_pos rfl]
        refine ⟨hsound, fun _ => ⟨file, hinner, ?_⟩⟩
        cases hc.symm.trans (hsound.ctx2 file hinner)
        exact hfor
      | none =>
        rw [Option.isSome_none, if_neg (by decide)]
        cases hnew : newFile b a format c with
        | error e => exact ⟨hsound, nofun⟩
        | ok file =>
          obtain ⟨rfl, hfresh⟩ := newFile_ok hnew
          refine ⟨hsound.playable.setFile hinner hc hfresh, fun _ => ⟨file, rfl, hfor⟩⟩

variable (b a w h format) in
theorem checkOrFail_spec (hr : r.Sound) : (r.checkOrFail b a w h format).2.Sound ∧
    ((r.checkOrFail b a w h format).1 = .ok () →
      (r.checkOrFail b a w h format).2.Ready w h format) := by
  obtain ⟨hsound, hready⟩ := check_spec b a w h format hr
  unfold Recorder.checkOrFail
  split
  · next heq =>
      rw [heq] at hsound
      have hp := hsound.playable
      exact ⟨⟨⟨hp.closed, hp.inner, hp.told⟩, hsound.opened, hsound.ctx2⟩, nofun⟩
  · next heq =>
      rw [heq] at hsound hready
      exact ⟨hsound, hready⟩

/-- A `check` that has to start a file forgets the last time. -/
theorem check_pts (hinner : r.inner = none) (hok : (r.check b a w h format).1 = .ok ()) :
    (r.check b a w h format).2.pts = none := by
  have hnone : (r.checkCtx2 b a w h format).2.inner = none := by
    unfold Recorder.checkCtx2
    split
    · exact hinner
    · split
      · exact hinner
      · exact dropInner_inner _
  unfold Recorder.check at hok ⊢
  split
  · next heq =>
      rw [heq] at hok
      cases hok
  · next r' heq =>
      rw [heq] at hok hnone
      dsimp only at hok hnone ⊢
      cases hctx2 : r'.ctx2 with
      | none =>
        rw [hctx2] at hok
        cases hok
      | some c =>
        rw [hctx2] at hok
        dsimp only at hok ⊢
        rw [hnone, Option.isSome_none, if_neg (by decide)] at hok ⊢
        split
        · next hnew =>
            rw [hnew] at hok
            cases hok
        · rfl

theorem checkOrFail_pts (hinner : r.inner = none)
    (hok : (r.checkOrFail b a w h format).1 = .ok ()) :
    (r.checkOrFail b a w h format).2.pts = none := by
  have hpts : (r.check b a w h format).1 = .ok () → _ := check_pts hinner
  unfold Recorder.checkOrFail at hok ⊢
  split
  · next heq =>
      rw [heq] at hok
      cases hok
  · next heq =>
      rw [heq] at hpts
      exact hpts rfl

theorem Recorder.Sound.setPts (hr : r.Sound) {pts : Int} (hle : ∀ p ∈ r.pts, p ≤ pts) :
    (r.setPts pts).Sound :=
  ⟨⟨hr.playable.closed, hr.playable.inner, hr.playable.told⟩,
    fun file hfile => (hr.opened file hfile).later hle, hr.ctx2⟩

theorem Recorder.Sound.forget (hr : r.Sound) (pts : Int) (now : Nat) :
    ((r.setPts pts).forget now).Sound := by
  have hset : (r.setPts pts).Playable := ⟨hr.playable.closed, hr.playable.inner, hr.playable.told⟩
  have hdrop := hset.dropInner now
  have hforget : ((r.setPts pts).forget now).Playable := ⟨hdrop.closed, hdrop.inner, hdrop.told⟩
  exact hforget.sound (dropInner_inner now)

theorem checkPts_spec (hr : r.Sound) (hready : r.Ready w h format) {pts : Int} {key : Bool} :
    (r.checkPts b a pts key w h format).2.Sound ∧
      ((r.checkPts b a pts key w h format).1 = .ok () →
        (r.checkPts b a pts key w h format).2.Ready w h format ∧
          (r.checkPts b a pts key w h format).2.pts = some pts) := by
  unfold Recorder.checkPts
  split
  · exact ⟨hr, nofun⟩
  · split
    · have hforget := hr.forget pts a.dropped
      have hspec := checkOrFail_spec b a w h format hforget
      have hpts : (((r.setPts pts).forget a.dropped).checkOrFail b a w h format).1 = .ok () → _ :=
        checkOrFail_pts (dropInner_inner a.dropped)
      split
      · next heq =>
          rw [heq] at hspec
          exact ⟨hspec.1, nofun⟩
      · next r' heq =>
          rw [heq] at hspec
          have hpts : r'.pts = none := by
            have := hpts (congrArg Prod.fst heq)
            rwa [heq] at this
          refine ⟨hspec.1.setPts ?_, fun _ => ⟨hspec.2 rfl, rfl⟩⟩
          rw [hpts]
          exact nofun
    · next hlt =>
        refine ⟨hr.setPts fun p hp => ?_, fun _ => ⟨hready, rfl⟩⟩
        rw [hp] at hlt
        exact Int.not_lt.mp hlt

/-- The frame is written in the file that is open. -/
theorem writeVideo_sound (accepted : Bool) (hr : r.Sound) (hready : r.Ready w h format)
    {f : EncodedVideoFrame} (hpts : r.pts = some f.pts)
    (hsuits : ∀ file ∈ r.inner, file.Suits f) :
    (r.writeVideo w h format accepted f).Sound ∧
      (r.writeVideo w h format accepted f).Ready w h format := by
  obtain ⟨file, hfile, hfor⟩ := hready
  have hopen : file.Open (some f.pts) := hpts ▸ hr.opened file hfile
  have hopen' : (file.writeVideo w h format accepted f).2.Open (some f.pts) :=
    hopen.writeVideo hfor (hsuits file hfile)
  have hctx2 : (file.writeVideo w h format accepted f).2.ctx2 = file.ctx2 := writeVideo_ctx2
  have htold := hr.playable.told
  unfold Recorder.writeVideo
  rw [Option.mem_def.mp hfile] at htold ⊢
  refine ⟨⟨⟨hr.playable.closed, ?_, htold⟩, ?_, ?_⟩, ?_⟩
  · intro g hg
    cases hg
    exact hopen'.playable
  · intro g hg
    cases hg
    rw [hpts]
    exact hopen'
  · intro g hg
    cases hg
    rw [hctx2]
    exact hr.ctx2 file hfile
  · refine ⟨_, rfl, ?_⟩
    unfold FileRecorder.For
    rw [hctx2]
    exact hfor

theorem writeFrames_sound {turn : Nat → Turn} {fs : List EncodedVideoFrame} {k : Nat}
    (hr : r.Sound) (hready : r.Ready w h format)
    (hsuits : r.Suits b turn w h format k fs) :
    (r.writeFrames b turn w h format k fs).2.Sound ∧
      ((r.writeFrames b turn w h format k fs).1 = .ok () →
        (r.writeFrames b turn w h format k fs).2.Ready w h format) := by
  induction fs generalizing r k with
  | nil => exact ⟨hr, fun _ => hready⟩
  | cons f fs ih =>
    have hspec : (r.checkPts b (turn k).attempt f.pts f.key w h format).2.Sound ∧ _ :=
      checkPts_spec hr hready
    unfold Recorder.Suits at hsuits
    unfold Recorder.writeFrames
    split at hsuits
    · next heq =>
        rw [heq] at hspec
        exact ⟨hspec.1, nofun⟩
    · next r' heq =>
        rw [heq] at hspec
        obtain ⟨hready', hpts⟩ := hspec.2 rfl
        have hwritten := writeVideo_sound (turn k).accepted hspec.1 hready' hpts hsuits.1
        exact ih hwritten.1 hwritten.2 hsuits.2

/-- A frame tells of itself in the file that is open. -/
theorem Recorder.Sound.newFrame (hr : r.Sound) (hready : r.Ready w h format) :
    (r.sendState .newFrame).Sound := by
  obtain ⟨file, hfile, -⟩ := hready
  have htold := hr.playable.told
  refine ⟨⟨hr.playable.closed, hr.playable.inner, ?_⟩, hr.opened, hr.ctx2⟩
  unfold Recorder.sendState
  dsimp only
  rw [Option.mem_def.mp hfile] at htold ⊢
  cases htx : r.ctx.tx with
  | true =>
    rw [htx] at htold
    exact .newFrame htold
  | false =>
    rw [htx] at htold
    exact htold

theorem step_sound {c : Call} (hr : r.Sound) (hmeets : r.Meets b c) : (r.step b c).Sound := by
  unfold Recorder.step Recorder.writeFrame
  split
  · exact hr
  · next hfailed =>
      split
      · exact hr
      · have hspec := checkOrFail_spec b c.env.first c.w c.h c.frame.format hr
        unfold Recorder.Meets at hmeets
        split
        · next heq =>
            rw [heq] at hspec
            exact hspec.1
        · next r' heq =>
            rw [heq] at hspec hmeets
            cases hframes : c.frame.frames b.hwcodec with
            | none => exact hspec.1
            | some fs =>
              rw [hframes] at hmeets
              have hwritten := writeFrames_sound hspec.1 (hspec.2 rfl)
                (hmeets (Bool.eq_false_iff.mpr hfailed))
              dsimp only
              split
              · next heq =>
                  rw [heq] at hwritten
                  exact hwritten.1
              · next heq =>
                  rw [heq] at hwritten
                  exact hwritten.1.newFrame (hwritten.2 rfl)

end Recorder

/-- Every file of a run is playable, also if the recorder is dropped where the run has come to, and
    the states tell of one file after another, as long as the frames suit the files that they come
    to. -/
theorem recordings_playable (b : Build) (ctx : RecorderContext) {calls : List Call}
    (hmeets : Along (Recorder.step b) (Recorder.Meets b) (.new ctx) calls) :
    Always (Recorder.step b)
      (fun r => r.Playable ∧ ∀ now, (r.dropInner now).Playable ∧ Told (r.dropInner now).sent false)
      (.new ctx) calls := by
  have hstep : ∀ (r : Recorder) (c : Call), r.Sound → r.Meets b c → (r.step b c).Sound :=
    fun r c => step_sound
  have hsound : Always (Recorder.step b) Recorder.Sound (.new ctx) calls :=
    always_of_along hstep ((playable_new ctx).sound rfl) hmeets
  refine hsound.mono fun r hr => ⟨hr.playable, fun now => ?_⟩
  have hdrop := hr.playable.dropInner now
  have htold := hdrop.told
  rw [dropInner_inner, Option.isSome_none, Bool.and_false] at htold
  exact ⟨hdrop, htold⟩

/-- An outgoing session that is recorded. -/
def outgoing : RecorderContext := ⟨false, "123456789", "/videos", 0, false, true⟩

/-- A call with frames of VP9. -/
def vp9Call (fs : List EncodedVideoFrame) : Call := ⟨{}, .vp9s fs, 640, 480⟩

theorem recordings_playable_vp9 :
    Always (Recorder.step ⟨false, false⟩)
      (fun r => r.Playable ∧ ∀ now, (r.dropInner now).Playable ∧ Told (r.dropInner now).sent false)
      (.new outgoing) [vp9Call [⟨[1], true, 0⟩, ⟨[2], false, 33⟩, ⟨[3], true, 16⟩]] := by
  refine recordings_playable _ _ ⟨fun _ => ⟨?_, ?_, ?_, trivial⟩, trivial⟩
  all_goals
    intro file hfile hkey
    cases hfile
    revert hkey
    decide

/-- Frames that should not have been written: one with a negative time, and one that needs another
    after that was refused. -/
theorem recordings_not_playable :
    ¬ ((Recorder.new outgoing).step ⟨false, false⟩ (vp9Call [⟨[1], true, -1⟩])).Playable ∧
      ¬ ((Recorder.new outgoing).step ⟨false, false⟩
        { vp9Call [⟨[], true, 0⟩, ⟨[2], false, 33⟩] with
          env.turn := fun k => { accepted := decide (k ≠ 0) } }).Playable := by
  constructor
  · intro h
    obtain ⟨t, ht, -⟩ := (h.inner _ rfl).fits rfl _ List.mem_cons_self
    cases ht
  · intro h
    have := (h.inner _ rfl).starts _ rfl
    cases this

end Record

end LuodaRemote
