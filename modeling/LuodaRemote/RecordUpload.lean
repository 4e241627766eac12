/-
  Recordings that are uploaded while they are made: `RecordUploader` of
  `src/hbbs_http/record_upload.rs`, with the file that a recorder writes.

  The recorder appends to the file and may write its first bytes again. A part is what is in the
  file behind the last one; its offset is the length that `metadata` gave when the last part was
  sent, its bytes are what was read after that. `parts_tile_iff`: the parts are consecutive, and
  make up the file, precisely as long as none is sent after one that was read when the file had
  grown since its metadata.

  A read of a file gets all that is there, or as much as was asked for. How much time has passed is
  left open.
-/
import LuodaRemote.Message
import LuodaRemote.Lib.Pieces
import LuodaRemote.Lib.Run

namespace LuodaRemote
open Lib

namespace Recording

def maxHeaderLen : Nat := 1024

def shouldSendSize : Nat := 1024 * 1024

/-- The query and the body of a part. -/
structure Part where
  offset : Nat
  length : Nat
  body : Bytes
deriving DecidableEq

/-- What is sent to `/api/record`. -/
inductive Request where
  | new (file : String)
  | part (file : String) (part : Part)
  /-- At offset 0. -/
  | tail (file : String) (length : Nat) (body : Bytes)
deriving DecidableEq

structure RecordUploader where
  filename : String
  uploadSize : Nat
  running : Bool
deriving DecidableEq

/-- The uploader, and the file that it uploads. -/
structure State where
  uploader : RecordUploader
  file : Bytes
  sent : List Request
  /-- The file as it was when each part was read. -/
  reads : List Bytes
  /-- The file had grown between the metadata and the read of the last part. -/
  grew : Bool
  /-- The first bytes of the file were written again. -/
  rewritten : Bool
  /-- The last event was a `WriteTail` that was uploaded. -/
  tailed : Bool
deriving DecidableEq

/-- What happens while a frame is handled. -/
structure FrameTurn where
  /-- `SHOULD_SEND_TIME` has passed since the last part. -/
  elapsed : Bool := true
  openError : Option String := none
  metadataError : Option String := none
  seekError : Option String := none
  /-- What the recorder appends between the metadata and the read. -/
  grown : Bytes := []
  readError : Option String := none
  sendError : Option String := none
deriving DecidableEq

/-- What happens while the tail is uploaded. -/
structure TailTurn where
  openError : Option String := none
  readError : Option String := none
  sendError : Option String := none
deriving DecidableEq

/-- A call that may fail, and what comes after it. -/
def unlessError (error : Option String) (s : State) (next : Except String Unit × State) :
    Except String Unit × State :=
  match error with
  | some e => (.error e, s)
  | none => next

/-- The file has grown. -/
def State.grow (s : State) (bytes : Bytes) : State := { s with file := s.file ++ bytes }

/-- What is in the file behind `uploadSize` is sent. -/
def State.sendPart (s : State) (grown : Bytes) : State :=
  let buf := s.file.drop s.uploader.uploadSize
  { s with sent := s.sent ++ [.part s.uploader.filename ⟨s.uploader.uploadSize, buf.length, buf⟩]
           reads := s.reads ++ [s.file]
           grew := grown != [] }

def State.sendTail (s : State) : State :=
  let buf := s.file.take maxHeaderLen
  { s with sent := s.sent ++ [.tail s.uploader.filename buf.length buf] }

def State.setUploadSize (s : State) (len : Nat) : State :=
  { s with uploader := { s.uploader with uploadSize := len } }

/-- `handle_frame`. -/
def handleFrame (turn : FrameTurn) (flush : Bool) (s : State) : Except String Unit × State :=
  if !flush && !turn.elapsed then (.ok (), s)
  else unlessError turn.openError s <| unlessError turn.metadataError s <|
    let len := s.file.length
    if len ≤ s.uploader.uploadSize then (.ok (), s)
    else if !flush && len - s.uploader.uploadSize < shouldSendSize then (.ok (), s)
    else unlessError turn.seekError s <|
      let s := s.grow turn.grown
      unlessError turn.readError s <|
        let s := s.sendPart turn.grown
        unlessError turn.sendError s (.ok (), s.setUploadSize len)

/-- `handle_tail`. -/
def handleTail (turn : FrameTurn) (tailTurn : TailTurn) (s : State) :
    Except String Unit × State :=
  match handleFrame turn true s with
  | (.error e, s) => (.error e, s)
  | (.ok _, s) =>
    unlessError tailTurn.openError s <| unlessError tailTurn.readError s <|
      let s := s.sendTail
      unlessError tailTurn.sendError s (.ok (), s)

inductive Event where
  /-- The recorder appends to the file. -/
  | append (bytes : Bytes)
  /-- The recorder writes the first bytes of the file again. -/
  | rewriteHeader (header : Bytes)
  | newFrame (turn : FrameTurn)
  | writeTail (turn : FrameTurn) (tailTurn : TailTurn)
deriving DecidableEq

/-- The end of an event in the loop of `run`: an error stops the upload. -/
def finish (tail : Bool) : Except String Unit × State → State
  | (.ok _, s) => { s with tailed := tail }
  | (.error _, s) => { s with uploader := { s.uploader with running := false }, tailed := false }

/-- The first bytes are replaced, as far as they are there. -/
def rewriteHeader (header file : Bytes) : Bytes :=
  writeAt 0 file 0 (header.take (min maxHeaderLen file.length))

def step (s : State) : Event → State
  | .append bytes => { s.grow bytes with tailed := false }
  | .rewriteHeader header =>
    { s with file := rewriteHeader header s.file, rewritten := true, tailed := false }
  | .newFrame turn =>
    if s.uploader.running then finish false (handleFrame turn false s) else s
  | .writeTail turn tailTurn =>
    if s.uploader.running then finish true (handleTail turn tailTurn s) else s

/-- After `handle_new_file` for a file that has this in it already. -/
def State.start (filename : String) (file : Bytes) : State where
  uploader := { filename := filename, uploadSize := 0, running := true }
  file := file
  sent := [.new filename]
  reads := []
  grew := false
  rewritten := false
  tailed := false

/-! ## The server -/

/-- The copy of a server that writes at the offset. -/
def writeSent (copy : Bytes) : Request → Bytes
  | .new _ => []
  | .part _ p => writeAt 0 copy p.offset p.body
  | .tail _ _ body => writeAt 0 copy 0 body

/-- The copy of a server that appends the parts. -/
def appendSent (copy : Bytes) : Request → Bytes
  | .new _ => []
  | .part _ p => copy ++ p.body
  | .tail _ _ body => writeAt 0 copy 0 body

def State.written (s : State) : Bytes := s.sent.foldl writeSent []

def State.appended (s : State) : Bytes := s.sent.foldl appendSent []

/-! ## The property -/

def Request.part? : Request → Option Part
  | .part _ p => some p
  | _ => none

def State.parts (s : State) : List Part := s.sent.filterMap Request.part?

def Part.piece (p : Part) : Piece UInt8 := ⟨p.offset, p.body⟩

def State.pieces (s : State) : List (Piece UInt8) := s.parts.map Part.piece

/-- The part is what the file had from its offset on. -/
structure AsRead (p : Part) (file : Bytes) : Prop where
  offset : p.offset ≤ file.length
  body : p.body = file.drop p.offset
  length : p.length = p.body.length

structure Tiles (s : State) : Prop where
  /-- Each part begins where the last one ends. -/
  consecutive : Consecutive 0 s.pieces
  asRead : List.Forall₂ AsRead s.parts s.reads
  /-- The parts are the beginning of the file, but for what was written again since. -/
  starts : s.rewritten = false → joined s.pieces <+: s.file
  behind : (joined s.pieces).drop maxHeaderLen <+: s.file.drop maxHeaderLen
  /-- With the tail, the server has the file. -/
  written : s.tailed = true → s.written = s.file
  appended : s.tailed = true → s.appended = s.file

/-- A part is about to be sent. -/
def Sends (turn : FrameTurn) (flush : Bool) (s : State) : Prop :=
  s.uploader.running = true ∧ s.uploader.uploadSize < s.file.length ∧
    (flush = true ∨
      turn.elapsed = true ∧ shouldSendSize ≤ s.file.length - s.uploader.uploadSize) ∧
    turn.openError = none ∧ turn.metadataError = none ∧ turn.seekError = none ∧
    turn.readError = none

/-- No part is sent after one that was read when the file had grown since its metadata. -/
def Aligned (s : State) : Event → Prop
  | .newFrame turn => Sends turn false s → s.grew = false
  | .writeTail turn _ => Sends turn true s → s.grew = false
  | _ => True

/-! ## The frame -/

variable {s s' : State} {turn : FrameTurn} {flush : Bool}

/-- The state in which a part was sent. -/
def State.afterPart (s : State) (turn : FrameTurn) : State :=
  (s.grow turn.grown).sendPart turn.grown

/-- What `handle_frame` comes to: nothing happens, the file grows and cannot be read, or a part is
    sent. -/
inductive Framed (turn : FrameTurn) (flush : Bool) (s : State) :
    Except String Unit × State → Prop where
  | idle {result : Except String Unit} (hsends : ¬ Sends turn flush s)
      (hdone : flush = true → result = .ok () → s.file.length ≤ s.uploader.uploadSize) :
      Framed turn flush s (result, s)
  | unread {e : String} (hsends : ¬ Sends turn flush s) :
      Framed turn flush s (.error e, s.grow turn.grown)
  | refused {e : String} (hsends : Sends turn flush s) :
      Framed turn flush s (.error e, s.afterPart turn)
  | sent (hsends : Sends turn flush s) :
      Framed turn flush s (.ok (), (s.afterPart turn).setUploadSize s.file.length)

theorem framed (hrunning : s.uploader.running = true) :
    Framed turn flush s (handleFrame turn flush s) := by
  unfold handleFrame
  split
  · next hwait =>
      refine .idle ?_ ?_
      · rintro ⟨-, -, hnow, -⟩
        rcases hnow with hflush | ⟨helapsed, -⟩
        · simp [hflush] at hwait
        · simp [helapsed] at hwait
      · intro hflush
        simp [hflush] at hwait
  · next hwait =>
      cases hopen : turn.openError with
      | some e => exact .idle (fun h => by simp [Sends, hopen] at h) nofun
      | none =>
        cases hmeta : turn.metadataError with
        | some e => exact .idle (fun h => by simp [Sends, hmeta] at h) nofun
        | none =>
          simp only [unlessError]
          split
          · next hle => exact .idle (fun h => absurd h.2.1 (by omega)) (fun _ _ => hle)
          · next hlt =>
              split
              · next hsmall =>
                  simp only [Bool.and_eq_true, Bool.not_eq_true', decide_eq_true_eq] at hsmall
                  refine .idle ?_ ?_
                  · rintro ⟨-, -, hnow, -⟩
                    rcases hnow with hflush | ⟨-, hsize⟩
                    · simp [hflush] at hsmall
                    · omega
                  · intro hflush
                    simp [hflush] at hsmall
              · next hlarge =>
                  cases hseek : turn.seekError with
                  | some e => exact .idle (fun h => by simp [Sends, hseek] at h) nofun
                  | none =>
                    cases hread : turn.readError with
                    | some e => exact .unread (fun h => by simp [Sends, hread] at h)
                    | none =>
                      have hsends : Sends turn flush s := by
                        refine ⟨hrunning, by omega, ?_, hopen, hmeta, hseek, hread⟩
                        cases flush with
                        | true => exact .inl rfl
                        | false =>
                          refine .inr ⟨by simpa using hwait, ?_⟩
                          simpa using hlarge
                      cases hsend : turn.sendError with
                      | some e => exact .refused hsends
                      | none => exact .sent hsends

/-! ## What the server has -/

/-- What holds of the parts, the file and the copies; most of it as long as the parts are
    consecutive. -/
structure Kept (s : State) : Prop where
  within : ending s.pieces ≤ s.file.length
  asRead : List.Forall₂ AsRead s.parts s.reads
  starts : Consecutive 0 s.pieces → s.rewritten = false → joined s.pieces <+: s.file
  behind : Consecutive 0 s.pieces →
    (joined s.pieces).drop maxHeaderLen <+: s.file.drop maxHeaderLen
  same : Consecutive 0 s.pieces → s.written = s.appended
  length : Consecutive 0 s.pieces → s.appended.length = (joined s.pieces).length
  copied : Consecutive 0 s.pieces →
    s.appended.drop maxHeaderLen = (joined s.pieces).drop maxHeaderLen

/-- Where the next part would begin, seen from the end of the last one. -/
def Follows (s : State) : Prop :=
  if s.grew = true then s.uploader.uploadSize < ending s.pieces
  else s.uploader.uploadSize = ending s.pieces

structure Sound (s : State) : Prop extends Kept s where
  follows : s.uploader.running = true → Follows s
  tailed : Consecutive 0 s.pieces → s.tailed = true → s.appended = s.file

theorem tiles_iff (hs : Sound s) : Tiles s ↔ Consecutive 0 s.pieces := by
  constructor
  · exact fun h => h.consecutive
  · intro h
    exact ⟨h, hs.asRead, hs.starts h, hs.behind h, fun ht => (hs.same h).trans (hs.tailed h ht),
      hs.tailed h⟩

/-- The uploader has no part in it. -/
theorem kept_congr (hs : Kept s) (hfile : s'.file = s.file) (hsent : s'.sent = s.sent)
    (hreads : s'.reads = s.reads) (hrewritten : s'.rewritten = s.rewritten) : Kept s' := by
  have hparts : s'.parts = s.parts := by rw [State.parts, hsent, State.parts]
  have hpieces : s'.pieces = s.pieces := by rw [State.pieces, hparts, State.pieces]
  have hwritten : s'.written = s.written := by rw [State.written, hsent, State.written]
  have happended : s'.appended = s.appended := by rw [State.appended, hsent, State.appended]
  constructor
  · rw [hpieces, hfile]
    exact hs.within
  · rw [hparts, hreads]
    exact hs.asRead
  · rw [hpieces, hrewritten, hfile]
    exact hs.starts
  · rw [hpieces, hfile]
    exact hs.behind
  · rw [hpieces, hwritten, happended]
    exact hs.same
  · rw [hpieces, happended]
    exact hs.length
  · rw [hpieces, happended]
    exact hs.copied

theorem kept_grow (hs : Kept s) (bytes : Bytes) : Kept (s.grow bytes) where
  within := by
    have hlen : (s.grow bytes).file.length = s.file.length + bytes.length := List.length_append
    have hin : ending (s.grow bytes).pieces ≤ s.file.length := hs.within
    omega
  asRead := hs.asRead
  starts h hrewritten := (hs.starts h hrewritten).trans (List.prefix_append _ _)
  behind h := (hs.behind h).trans ((List.prefix_append _ _).drop _)
  same := hs.same
  length := hs.length
  copied := hs.copied

/-- The part that is sent next. -/
def State.nextPart (s : State) : Part :=
  let buf := s.file.drop s.uploader.uploadSize
  ⟨s.uploader.uploadSize, buf.length, buf⟩

theorem parts_sendPart (s : State) (grown : Bytes) :
    (s.sendPart grown).parts = s.parts ++ [s.nextPart] := by
  unfold State.parts State.sendPart
  rw [List.filterMap_append]
  rfl

theorem pieces_sendPart (s : State) (grown : Bytes) :
    (s.sendPart grown).pieces = s.pieces ++ [s.nextPart.piece] := by
  unfold State.pieces
  rw [parts_sendPart, List.map_append]
  rfl

theorem written_sendPart (s : State) (grown : Bytes) : (s.sendPart grown).written =
    writeAt 0 s.written s.uploader.uploadSize (s.file.drop s.uploader.uploadSize) := by
  unfold State.written State.sendPart
  rw [List.foldl_append]
  rfl

theorem appended_sendPart (s : State) (grown : Bytes) :
    (s.sendPart grown).appended = s.appended ++ s.file.drop s.uploader.uploadSize := by
  unfold State.appended State.sendPart
  rw [List.foldl_append]
  rfl

/-- A part reaches to the end of the file. -/
theorem ending_sendPart (hsize : s.uploader.uploadSize ≤ s.file.length) (grown : Bytes) :
    ending (s.sendPart grown).pieces = s.file.length := by
  rw [pieces_sendPart, ending_concat]
  show s.uploader.uploadSize + (s.file.drop s.uploader.uploadSize).length = s.file.length
  rw [List.length_drop]
  omega

theorem kept_sendPart (hs : Kept s) (hsize : s.uploader.uploadSize ≤ s.file.length)
    (grown : Bytes) : Kept (s.sendPart grown) := by
  have hpieces := pieces_sendPart s grown
  have hjoined : joined (s.sendPart grown).pieces =
      joined s.pieces ++ s.file.drop s.uploader.uploadSize := by
    rw [hpieces, joined_concat]
    rfl
  have hold (h : Consecutive 0 (s.sendPart grown).pieces) :
      Consecutive 0 s.pieces ∧ s.uploader.uploadSize = (joined s.pieces).length := by
    rw [hpieces] at h
    obtain ⟨hc, hoffset⟩ := consecutive_concat.mp h
    rw [Nat.zero_add] at hoffset
    exact ⟨hc, hoffset⟩
  constructor
  · rw [ending_sendPart hsize]
    exact Nat.le_refl _
  · rw [parts_sendPart]
    exact List.rel_append hs.asRead (.cons ⟨hsize, rfl, rfl⟩ .nil)
  · intro h hrewritten
    obtain ⟨hc, hoffset⟩ := hold h
    have hall : joined s.pieces ++ s.file.drop (joined s.pieces).length = s.file :=
      drop_append_rest (n := 0) (hs.starts hc hrewritten)
    rw [hjoined, hoffset, hall]
    exact List.prefix_rfl
  · intro h
    obtain ⟨hc, hoffset⟩ := hold h
    rw [hjoined, hoffset, drop_append_rest (hs.behind hc)]
    exact List.prefix_rfl
  · intro h
    obtain ⟨hc, hoffset⟩ := hold h
    rw [written_sendPart, appended_sendPart, hs.same hc, hoffset, ← hs.length hc, writeAt_end]
  · intro h
    obtain ⟨hc, -⟩ := hold h
    rw [appended_sendPart, hjoined, List.length_append, List.length_append, hs.length hc]
  · intro h
    obtain ⟨hc, -⟩ := hold h
    rw [appended_sendPart, hjoined, List.drop_append, List.drop_append, hs.copied hc, hs.length hc]

theorem written_sendTail (s : State) :
    s.sendTail.written = writeAt 0 s.written 0 (s.file.take maxHeaderLen) := by
  unfold State.written State.sendTail
  rw [List.foldl_append]
  rfl

theorem appended_sendTail (s : State) :
    s.sendTail.appended = writeAt 0 s.appended 0 (s.file.take maxHeaderLen) := by
  unfold State.appended State.sendTail
  rw [List.foldl_append]
  rfl

theorem parts_sendTail (s : State) : s.sendTail.parts = s.parts := by
  unfold State.parts State.sendTail
  rw [List.filterMap_append]
  exact List.append_nil _

theorem pieces_sendTail (s : State) : s.sendTail.pieces = s.pieces := by
  unfold State.pieces
  rw [parts_sendTail]

/-- With all of the file uploaded, the tail only replaces the first bytes. -/
theorem kept_sendTail (hs : Kept s) (hfull : ending s.pieces = s.file.length) :
    Kept s.sendTail where
  within := by
    rw [pieces_sendTail]
    exact hs.within
  asRead := by
    rw [parts_sendTail]
    exact hs.asRead
  starts h := by
    rw [pieces_sendTail] at h ⊢
    exact hs.starts h
  behind h := by
    rw [pieces_sendTail] at h ⊢
    exact hs.behind h
  same h := by
    rw [pieces_sendTail] at h
    rw [written_sendTail, appended_sendTail, hs.same h]
  length h := by
    rw [pieces_sendTail] at h ⊢
    have hlen := hs.length h
    have hend := ending_of_consecutive h
    rw [appended_sendTail, length_writeAt_start, hlen]
    rw [List.length_take]
    omega
  copied h := by
    rw [pieces_sendTail] at h ⊢
    rw [appended_sendTail, drop_writeAt_start _ (List.length_take_le _ _), hs.copied h]

/-- After the tail the server has the file. -/
theorem appended_of_sendTail (hs : Kept s) (hfull : ending s.pieces = s.file.length)
    (h : Consecutive 0 s.pieces) : s.sendTail.appended = s.file := by
  have hlen : s.appended.length = s.file.length := by
    rw [hs.length h, ← ending_of_consecutive h, hfull]
  rw [appended_sendTail]
  refine writeAt_take 0 hlen ?_
  rw [hs.copied h]
  refine (hs.behind h).eq_of_length ?_
  rw [List.length_drop, List.length_drop, ← hs.length h, hlen]

/-! ## One event -/

/-- What an attempt to send a part comes to. -/
structure Attempt (turn : FrameTurn) (flush : Bool) (s : State)
    (out : Except String Unit × State) : Prop where
  kept : Kept out.2
  consecutive : Consecutive 0 s.pieces →
    (Consecutive 0 out.2.pieces ↔ (Sends turn flush s → s.grew = false))
  follows : out.1 = .ok () → Follows out.2
  full : out.1 = .ok () → flush = true → ending out.2.pieces = out.2.file.length

theorem uploadSize_le (hs : Sound s) (hrunning : s.uploader.running = true) :
    s.uploader.uploadSize ≤ ending s.pieces := by
  have hfollows := hs.follows hrunning
  unfold Follows at hfollows
  split at hfollows
  · exact Nat.le_of_lt hfollows
  · exact Nat.le_of_eq hfollows

/-- The next part continues the last one unless that had more than it should. -/
theorem consecutive_afterPart (hs : Sound s) (hrunning : s.uploader.running = true)
    (h : Consecutive 0 s.pieces) :
    Consecutive 0 (s.afterPart turn).pieces ↔ s.grew = false := by
  have hpieces : (s.afterPart turn).pieces =
      s.pieces ++ [(s.grow turn.grown).nextPart.piece] := pieces_sendPart _ _
  have hoffset : (s.grow turn.grown).nextPart.piece.offset = s.uploader.uploadSize := rfl
  have hfollows := hs.follows hrunning
  rw [hpieces, consecutive_concat, hoffset, Nat.zero_add, ← ending_of_consecutive h]
  unfold Follows at hfollows
  cases hgrew : s.grew with
  | true =>
    rw [if_pos hgrew] at hfollows
    refine ⟨fun hc => absurd hc.2 (by omega), nofun⟩
  | false =>
    rw [hgrew, if_neg (by decide)] at hfollows
    exact ⟨fun _ => rfl, fun _ => ⟨h, hfollows⟩⟩

/-- A part reaches to the end of what was read. -/
theorem ending_afterPart (hsize : s.uploader.uploadSize ≤ s.file.length) (turn : FrameTurn) :
    ending (s.afterPart turn).pieces = s.file.length + turn.grown.length := by
  have hlen : (s.grow turn.grown).file.length = s.file.length + turn.grown.length :=
    List.length_append
  have hgrown : s.uploader.uploadSize ≤ (s.grow turn.grown).file.length := by omega
  exact (ending_sendPart hgrown turn.grown).trans hlen

theorem kept_afterPart (hs : Kept s) (hsize : s.uploader.uploadSize ≤ s.file.length)
    (turn : FrameTurn) : Kept (s.afterPart turn) := by
  have hlen : (s.grow turn.grown).file.length = s.file.length + turn.grown.length :=
    List.length_append
  have hgrown : s.uploader.uploadSize ≤ (s.grow turn.grown).file.length := by omega
  exact kept_sendPart (kept_grow hs turn.grown) hgrown turn.grown

/-- What was read beyond the metadata is what the next offset lags behind. -/
theorem follows_afterPart (hsize : s.uploader.uploadSize ≤ s.file.length) (turn : FrameTurn) :
    Follows ((s.afterPart turn).setUploadSize s.file.length) := by
  have hending : ending ((s.afterPart turn).setUploadSize s.file.length).pieces =
      s.file.length + turn.grown.length := ending_afterPart hsize turn
  have hgrew : ((s.afterPart turn).setUploadSize s.file.length).grew = (turn.grown != []) := rfl
  have hnext : ((s.afterPart turn).setUploadSize s.file.length).uploader.uploadSize =
      s.file.length := rfl
  unfold Follows
  rw [hgrew, hending, hnext]
  split
  · next hmore =>
      have hpos : 0 < turn.grown.length := List.length_pos_iff.mpr (by simpa using hmore)
      omega
  · next hnone =>
      have hnil : turn.grown = [] := by simpa using hnone
      rw [hnil]
      rfl

theorem attempt_of_framed (hs : Sound s) (hrunning : s.uploader.running = true)
    {out : Except String Unit × State} (hframed : Framed turn flush s out) :
    Attempt turn flush s out := by
  have hsize := (uploadSize_le hs hrunning).trans hs.within
  have hafter := kept_afterPart hs.toKept hsize turn
  cases hframed with
  | idle hsends hdone =>
    refine ⟨hs.toKept, fun h => ⟨fun _ hyes => absurd hyes hsends, fun _ => h⟩,
      fun _ => hs.follows hrunning, fun hok hflush => ?_⟩
    have hle := hdone hflush hok
    have hwithin := hs.within
    have hupto := uploadSize_le hs hrunning
    dsimp only
    omega
  | unread hsends =>
    exact ⟨kept_grow hs.toKept _, fun h => ⟨fun _ hyes => absurd hyes hsends, fun _ => h⟩, nofun,
      nofun⟩
  | refused hsends =>
    refine ⟨hafter, fun h => ?_, nofun, nofun⟩
    rw [consecutive_afterPart hs hrunning h]
    exact ⟨fun hgrew _ => hgrew, fun hgrew => hgrew hsends⟩
  | sent hsends =>
    refine ⟨kept_congr hafter rfl rfl rfl rfl, fun h => ?_,
      fun _ => follows_afterPart hsize turn, fun _ _ => ?_⟩
    · have hiff : Consecutive 0 (s.afterPart turn).pieces ↔ s.grew = false :=
        consecutive_afterPart hs hrunning h
      exact ⟨fun hc _ => hiff.mp hc, fun hgrew => hiff.mpr (hgrew hsends)⟩
    · exact (ending_afterPart hsize turn).trans List.length_append.symm

theorem attempt_frame (hs : Sound s) (hrunning : s.uploader.running = true) :
    Attempt turn flush s (handleFrame turn flush s) :=
  attempt_of_framed hs hrunning (framed hrunning)

theorem sound_of_kept (hs : Kept s) (hstopped : s.uploader.running = false)
    (htailed : s.tailed = false) : Sound s where
  toKept := hs
  follows h := by
    rw [hstopped] at h
    cases h
  tailed _ h := by
    rw [htailed] at h
    cases h

/-- An upload that fails stops. -/
theorem sound_failed (hs : Kept s) (tail : Bool) (e : String) :
    Sound (finish tail (.error e, s)) :=
  sound_of_kept (kept_congr hs rfl rfl rfl rfl) rfl rfl

theorem sound_rewriteHeader (hs : Sound s) (header : Bytes) :
    Sound (step s (.rewriteHeader header)) := by
  have hfits : (header.take (min maxHeaderLen s.file.length)).length ≤ s.file.length := by
    rw [List.length_take]
    omega
  have hlen : (rewriteHeader header s.file).length = s.file.length := length_writeAt_start 0 hfits
  have hdrop : (rewriteHeader header s.file).drop maxHeaderLen = s.file.drop maxHeaderLen := by
    refine drop_writeAt_start 0 ?_
    rw [List.length_take]
    omega
  refine ⟨⟨?_, hs.asRead, nofun, ?_, hs.same, hs.length, hs.copied⟩, hs.follows, nofun⟩
  · show ending s.pieces ≤ (rewriteHeader header s.file).length
    rw [hlen]
    exact hs.within
  · intro h
    show (joined s.pieces).drop maxHeaderLen <+: (rewriteHeader header s.file).drop maxHeaderLen
    rw [hdrop]
    exact hs.behind h

theorem sound_append (hs : Sound s) (bytes : Bytes) : Sound (step s (.append bytes)) := by
  have hk := kept_grow hs.toKept bytes
  exact ⟨kept_congr hk rfl rfl rfl rfl, hs.follows, nofun⟩

theorem step_newFrame (hs : Sound s) (turn : FrameTurn) :
    Sound (step s (.newFrame turn)) ∧ (Consecutive 0 s.pieces →
      (Consecutive 0 (step s (.newFrame turn)).pieces ↔ Aligned s (.newFrame turn))) := by
  rw [step]
  split
  · next hrunning =>
      have ha : Attempt turn false s (handleFrame turn false s) := attempt_frame hs hrunning
      revert ha
      rcases handleFrame turn false s with ⟨_ | _, s'⟩
      · intro ha
        exact ⟨sound_failed ha.kept false _, ha.consecutive⟩
      · intro ha
        exact ⟨⟨kept_congr ha.kept rfl rfl rfl rfl, fun _ => ha.follows rfl, nofun⟩, ha.consecutive⟩
  · next hstopped =>
      exact ⟨hs, fun h => ⟨fun _ hsends => absurd hsends.1 hstopped, fun _ => h⟩⟩

theorem follows_sendTail (h : Follows s) : Follows s.sendTail := by
  unfold Follows
  rw [pieces_sendTail]
  exact h

/-- With all of the file uploaded, the tail ends the upload, or an error does. -/
theorem sound_tail (tailTurn : TailTurn) (hk : Kept s) (hfollows : Follows s)
    (hfull : ending s.pieces = s.file.length) :
    ∃ s', finish true (unlessError tailTurn.openError s <| unlessError tailTurn.readError s <|
        unlessError tailTurn.sendError s.sendTail (.ok (), s.sendTail)) = s' ∧
      Sound s' ∧ s'.pieces = s.pieces := by
  refine ⟨_, rfl, ?_⟩
  have hsent := kept_sendTail hk hfull
  cases tailTurn.openError with
  | some e => exact ⟨sound_failed hk true e, rfl⟩
  | none =>
    cases tailTurn.readError with
    | some e => exact ⟨sound_failed hk true e, rfl⟩
    | none =>
      cases tailTurn.sendError with
      | some e => exact ⟨sound_failed hsent true e, pieces_sendTail s⟩
      | none =>
        refine ⟨⟨kept_congr hsent rfl rfl rfl rfl, fun _ => follows_sendTail hfollows,
          fun h _ => ?_⟩, pieces_sendTail s⟩
        have hc : Consecutive 0 s.pieces := by
          rw [← pieces_sendTail s]
          exact h
        exact appended_of_sendTail hk hfull hc

theorem step_writeTail (hs : Sound s) (turn : FrameTurn) (tailTurn : TailTurn) :
    Sound (step s (.writeTail turn tailTurn)) ∧ (Consecutive 0 s.pieces →
      (Consecutive 0 (step s (.writeTail turn tailTurn)).pieces ↔
        Aligned s (.writeTail turn tailTurn))) := by
  rw [step]
  split
  · next hrunning =>
      have ha : Attempt turn true s (handleFrame turn true s) := attempt_frame hs hrunning
      unfold handleTail
      revert ha
      rcases handleFrame turn true s with ⟨_ | _, s₁⟩
      · intro ha
        exact ⟨sound_failed ha.kept true _, ha.consecutive⟩
      · intro ha
        obtain ⟨s', hfinish, hsound, hpieces⟩ :=
          sound_tail tailTurn ha.kept (ha.follows rfl) (ha.full rfl rfl)
        dsimp only
        rw [hfinish, hpieces]
        exact ⟨hsound, ha.consecutive⟩
  · next hstopped =>
      exact ⟨hs, fun h => ⟨fun _ hsends => absurd hsends.1 hstopped, fun _ => h⟩⟩

theorem step_sound (hs : Sound s) (e : Event) : Sound (step s e) ∧
    (Consecutive 0 s.pieces → (Consecutive 0 (step s e).pieces ↔ Aligned s e)) := by
  cases e with
  | append bytes => exact ⟨sound_append hs bytes, fun h => ⟨fun _ => trivial, fun _ => h⟩⟩
  | rewriteHeader header =>
    exact ⟨sound_rewriteHeader hs header, fun h => ⟨fun _ => trivial, fun _ => h⟩⟩
  | newFrame turn => exact step_newFrame hs turn
  | writeTail turn tailTurn => exact step_writeTail hs turn tailTurn

theorem sound_start (filename : String) (file : Bytes) : Sound (.start filename file) where
  within := Nat.zero_le _
  asRead := .nil
  starts _ _ := List.nil_prefix
  behind _ := List.nil_prefix
  same _ := rfl
  length _ := rfl
  copied _ := rfl
  follows _ := rfl
  tailed _ := nofun

/-- The parts tile the file throughout an upload if and only if none is sent after one that was
    read when the file had grown since its metadata. -/
theorem parts_tile_iff (filename : String) (file : Bytes) (events : List Event) :
    Always step Tiles (.start filename file) events ↔
      Along step Aligned (.start filename file) events := by
  refine always_iff_along (I := Sound) (fun s e hs => (step_sound hs e).1) ?_
    (sound_start filename file) ?_
  · intro s e hs ht
    rw [tiles_iff (step_sound hs e).1]
    exact (step_sound hs e).2 ht.consecutive
  · rw [tiles_iff (sound_start filename file)]
    exact trivial

/-- A recording of exactly the size that is sent, which grows by a byte while it is read. -/
def growing : List Event := [.newFrame { grown := [1] }, .writeTail {} {}]

theorem growing_parts {file : Bytes} (hsize : file.length = shouldSendSize) :
    (run step (.start "a.webm" file) growing).parts =
      [⟨0, shouldSendSize + 1, file ++ [1]⟩, ⟨shouldSendSize, 1, [1]⟩] := by
  have hpos : ¬ shouldSendSize ≤ 0 := by decide
  simp [growing, step, State.start, handleFrame, handleTail, unlessError, finish, State.grow,
    State.sendPart, State.sendTail, State.setUploadSize, State.parts, hsize, hpos]
  rfl

/-- The byte is sent twice. -/
theorem growing_overlaps {file : Bytes} (hsize : file.length = shouldSendSize) :
    (run step (.start "a.webm" file) growing).parts.map (fun p => (p.offset, p.length)) =
        [(0, shouldSendSize + 1), (shouldSendSize, 1)] ∧
      ¬ Always step Tiles (.start "a.webm" file) growing := by
  have hparts := growing_parts hsize
  constructor
  · rw [hparts]
    rfl
  · intro h
    have hc := h.last.consecutive
    unfold State.pieces at hc
    rw [hparts] at hc
    have hoffset : shouldSendSize = 0 + (file ++ [1]).length := hc.2.1
    rw [List.length_append, hsize, List.length_singleton] at hoffset
    omega

theorem parts_overlap :
    (run step (.start "a.webm" (List.replicate shouldSendSize 0)) growing).parts.map
        (fun p => (p.offset, p.length)) = [(0, shouldSendSize + 1), (shouldSendSize, 1)] ∧
      ¬ Always step Tiles (.start "a.webm" (List.replicate shouldSendSize 0)) growing :=
  growing_overlaps List.length_replicate

end Recording

end LuodaRemote
