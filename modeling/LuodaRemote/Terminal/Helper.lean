/-
  The input of a terminal that runs in a helper process on Windows (`encode_helper_message`,
  `encode_resize_message`, `read_exact_or_eof` and the input thread of `run_terminal_helper` in
  terminal_helper.rs; `handle_data` and `handle_resize` of terminal_service.rs call the first two).

  What is typed and the sizes of the window go through one pipe, each with its kind and its length
  in front. The reader gets the bytes in whatever pieces the pipe gives it. It has a limit for the
  length of a message that the writer does not know of: `input_carried` says that everything before
  the first message over the limit reaches the terminal, in order, and nothing from there on.
-/
import Mathlib.Data.List.TakeWhile
import LuodaRemote.Lib.Wire
import LuodaRemote.Message

namespace LuodaRemote
open Lib

namespace Terminal
namespace Helper

/-! ## The writer -/

def msgTypeData : UInt8 := 0x01

def msgTypeResize : UInt8 := 0x02

def msgHeaderSize : Nat := 5

def maxPayloadSize : Nat := 16 * 1024 * 1024

/-- `payload.len() as u32` is cut off by `putLe`. -/
def encodeHelperMessage (msgType : UInt8) (payload : Bytes) : Bytes :=
  msgType :: (putLe 4 payload.length ++ payload)

def encodeResizeMessage (rows cols : UInt16) : Bytes :=
  encodeHelperMessage msgTypeResize (putLe 2 rows.toNat ++ putLe 2 cols.toNat)

/-- What the service sends to the helper. -/
inductive Input where
  | data (payload : Bytes)
  | resize (rows cols : UInt16)
deriving DecidableEq

def Input.encode : Input → Bytes
  | .data payload => encodeHelperMessage msgTypeData payload
  | .resize rows cols => encodeResizeMessage rows cols

/-! ## The pipe -/

/-- What a call of `read` comes to. -/
inductive Turn where
  | interrupted
  /-- At most `k + 1` bytes. -/
  | upTo (k : Nat)
  | error (err : String)
deriving DecidableEq

/-- The bytes until the writer closes the pipe, and the reads to come. After these a read gives
    all that it is asked for. -/
structure Pipe where
  bytes : Bytes
  turns : List Turn
deriving DecidableEq

/-- Reads `n` bytes; `none` is the end of the file. -/
def readExactOrEof (n : Nat) (bytes : Bytes) : List Turn → Except String (Option Bytes) × Pipe
  | [] =>
    if bytes.length < n then (.ok none, ⟨[], []⟩)
    else (.ok (some (bytes.take n)), ⟨bytes.drop n, []⟩)
  | turn :: turns =>
    if n = 0 then (.ok (some []), ⟨bytes, turn :: turns⟩)
    else match turn with
      | .interrupted => readExactOrEof n bytes turns
      | .error err => (.error err, ⟨bytes, turns⟩)
      | .upTo k =>
        let got := bytes.take (min (k + 1) n)
        if got = [] then (.ok none, ⟨bytes, turns⟩)
        else match readExactOrEof (n - got.length) (bytes.drop got.length) turns with
          | (.ok (some rest), pipe) => (.ok (some (got ++ rest)), pipe)
          | (.ok none, pipe) => (.ok none, pipe)
          | (.error err, pipe) => (.error err, pipe)

/-! ## The input thread -/

/-- A call on the terminal. -/
inductive PtyCall where
  | write (payload : Bytes)
  | resize (rows cols : UInt16)
deriving DecidableEq

/-- Why the thread ended. -/
inductive Ended where
  | exiting
  | eof
  | readError (err : String)
  | payloadTooLarge
  | eofDuringPayload
  | writeError (err : String)
  | unknownType
deriving DecidableEq

/-- What the thread finds in its `i`-th turn: whether the shell has exited, and whether the
    terminal can be written to. -/
structure Surroundings where
  exiting : Nat → Bool
  writeError : Nat → Option String

/-- `payload_buf.resize`, if it is too small. -/
def growBuf (payloadLen : Nat) (payloadBuf : Bytes) : Bytes :=
  if payloadBuf.length < payloadLen then
    payloadBuf ++ List.replicate (payloadLen - payloadBuf.length) 0
  else payloadBuf

/-- The payload at the front of the buffer, which is used for all messages. -/
def readPayload (payloadLen : Nat) (payloadBuf : Bytes) (pipe : Pipe) :
    Except String (Option Bytes) × Pipe :=
  if payloadLen = 0 then (.ok (some payloadBuf), pipe)
  else match readExactOrEof payloadLen pipe.bytes pipe.turns with
    | (.ok (some payload), pipe) => (.ok (some (payload ++ payloadBuf.drop payloadLen)), pipe)
    | (.ok none, pipe) => (.ok none, pipe)
    | (.error err, pipe) => (.error err, pipe)

/-- The loop, with the calls that it makes; without fuel it has not ended. -/
def inputLoop (env : Surroundings) :
    (fuel i : Nat) → (payloadBuf : Bytes) → Pipe → List PtyCall × Option Ended
  | 0, _, _, _ => ([], none)
  | fuel + 1, i, payloadBuf, pipe =>
    if env.exiting i then ([], some .exiting)
    else match readExactOrEof msgHeaderSize pipe.bytes pipe.turns with
      | (.ok none, _) => ([], some .eof)
      | (.error err, _) => ([], some (.readError err))
      | (.ok (some header), pipe) =>
        let msgType := header.headD 0
        let payloadLen := getLe (header.drop 1)
        if maxPayloadSize < payloadLen then ([], some .payloadTooLarge)
        else match readPayload payloadLen (growBuf payloadLen payloadBuf) pipe with
          | (.ok none, _) => ([], some .eofDuringPayload)
          | (.error err, _) => ([], some (.readError err))
          | (.ok (some payloadBuf), pipe) =>
            if msgType = msgTypeData then
              match env.writeError i with
              | some err => ([], some (.writeError err))
              | none =>
                let r := inputLoop env fuel (i + 1) payloadBuf pipe
                (.write (payloadBuf.take payloadLen) :: r.1, r.2)
            else if msgType = msgTypeResize then
              let r := inputLoop env fuel (i + 1) payloadBuf pipe
              if 4 ≤ payloadLen then
                (.resize (.ofNat (getLe (payloadBuf.take 2)))
                  (.ofNat (getLe ((payloadBuf.drop 2).take 2))) :: r.1, r.2)
              else r
            else ([], some .unknownType)

/-- The whole thread. A turn that is not the last one takes a header at least. -/
def runInputThread (env : Surroundings) (pipe : Pipe) : List PtyCall × Option Ended :=
  inputLoop env (pipe.bytes.length + 1) 0 (List.replicate 4096 0) pipe

/-! ## What is to come of the inputs -/

def Input.call : Input → PtyCall
  | .data payload => .write payload
  | .resize rows cols => .resize rows cols

/-- The payload is within the limit of the reader. -/
def Input.fits : Input → Bool
  | .data payload => payload.length ≤ maxPayloadSize
  | .resize _ _ => true

/-- The data fits in a message, whose fields are shorter than 2^32 bytes. -/
def Input.Carried : Input → Prop
  | .data payload => payload.length < 2 ^ 32
  | .resize _ _ => True

/-- The bytes that the writer puts into the pipe. -/
def encodeAll (inputs : List Input) : Bytes := (inputs.map Input.encode).flatten

/-- Every input reaches the terminal, in order, and the thread ends at the end of the file. -/
def CarriesAll (env : Surroundings) (turns : List Turn) (inputs : List Input) : Prop :=
  runInputThread env ⟨encodeAll inputs, turns⟩ = (inputs.map Input.call, some .eof)

/-- The shell is running and takes what is written. -/
structure Surroundings.Steady (env : Surroundings) : Prop where
  exiting : ∀ i, env.exiting i = false
  writeError : ∀ i, env.writeError i = none

/-- No read fails. -/
def NoError (turns : List Turn) : Prop := ∀ err, .error err ∉ turns

/-! ## Reading -/

variable {n : Nat} {bytes : Bytes} {turns : List Turn}

theorem NoError.tail {turn : Turn} (h : NoError (turn :: turns)) : NoError turns :=
  fun err hmem => h err (List.mem_cons_of_mem turn hmem)

/-- However the bytes come, they are the ones that were asked for. -/
theorem readExactOrEof_ok (n : Nat) (bytes : Bytes) (hturns : NoError turns)
    (hn : n ≤ bytes.length) :
    ∃ turns', NoError turns' ∧
      readExactOrEof n bytes turns = (.ok (some (bytes.take n)), ⟨bytes.drop n, turns'⟩) := by
  induction turns generalizing n bytes with
  | nil => exact ⟨[], hturns, by rw [readExactOrEof, if_neg (by omega)]⟩
  | cons turn turns ih =>
    rw [readExactOrEof.eq_def]
    dsimp only
    by_cases hzero : n = 0
    · exact ⟨turn :: turns, hturns, by rw [if_pos hzero, hzero, List.take_zero, List.drop_zero]⟩
    · rw [if_neg hzero]
      cases turn with
      | interrupted => exact ih n bytes hturns.tail hn
      | error err => exact absurd List.mem_cons_self (hturns err)
      | upTo k =>
        have hlen : (bytes.take (min (k + 1) n)).length = min (k + 1) n := by
          rw [List.length_take]
          omega
        have hgot : bytes.take (min (k + 1) n) ≠ [] := by
          rw [← List.length_pos_iff, hlen]
          omega
        obtain ⟨turns', hturns', hread⟩ := ih (n - min (k + 1) n)
          (bytes.drop (min (k + 1) n)) hturns.tail (by rw [List.length_drop]; omega)
        refine ⟨turns', hturns', ?_⟩
        dsimp only
        rw [if_neg hgot, hlen, hread]
        dsimp only
        rw [List.drop_drop, ← List.take_add, Nat.add_sub_cancel' (Nat.min_le_right _ _)]

theorem readExactOrEof_eof (n : Nat) (bytes : Bytes) (hturns : NoError turns)
    (hn : bytes.length < n) : (readExactOrEof n bytes turns).1 = .ok none := by
  induction turns generalizing n bytes with
  | nil => rw [readExactOrEof, if_pos hn]
  | cons turn turns ih =>
    rw [readExactOrEof.eq_def]
    dsimp only
    rw [if_neg (by omega)]
    cases turn with
    | interrupted => exact ih n bytes hturns.tail hn
    | error err => exact absurd List.mem_cons_self (hturns err)
    | upTo k =>
      dsimp only
      split
      · rfl
      · have hread := ih (n - (bytes.take (min (k + 1) n)).length)
          (bytes.drop (bytes.take (min (k + 1) n)).length) hturns.tail
          (by rw [List.length_drop, List.length_take]; omega)
        split
        · next heq =>
            rw [heq] at hread
            cases hread
        · rfl
        · next heq =>
            rw [heq] at hread
            cases hread

/-! ## One message -/

variable {env : Surroundings} {payloadBuf rest payload : Bytes}

theorem readPayload_ok (hturns : NoError turns) (payloadBuf payload rest : Bytes) :
    ∃ turns' payloadBuf', NoError turns' ∧ payloadBuf'.take payload.length = payload ∧
      readPayload payload.length payloadBuf ⟨payload ++ rest, turns⟩ =
        (.ok (some payloadBuf'), ⟨rest, turns'⟩) := by
  unfold readPayload
  by_cases hnil : payload = []
  · subst hnil
    exact ⟨turns, _, hturns, List.take_zero, rfl⟩
  · have hlen : payload.length ≠ 0 := fun h => hnil (List.length_eq_zero_iff.mp h)
    obtain ⟨turns', hturns', hread⟩ := readExactOrEof_ok payload.length
      (payload ++ rest) hturns (by rw [List.length_append]; omega)
    rw [List.take_left, List.drop_left] at hread
    refine ⟨turns', payload ++ payloadBuf.drop payload.length, hturns', List.take_left, ?_⟩
    dsimp only
    rw [if_neg hlen, hread]

/-- The header says what kind of message it is and how long. -/
theorem readHeader_ok (hturns : NoError turns) (msgType : UInt8) (payload rest : Bytes) :
    ∃ turns', NoError turns' ∧
      readExactOrEof msgHeaderSize (encodeHelperMessage msgType payload ++ rest) turns =
        (.ok (some (msgType :: putLe 4 payload.length)), ⟨payload ++ rest, turns'⟩) := by
  have hsplit : encodeHelperMessage msgType payload ++ rest =
      (msgType :: putLe 4 payload.length) ++ (payload ++ rest) := by
    simp [encodeHelperMessage]
  have hlen : (msgType :: putLe 4 payload.length).length = msgHeaderSize := by
    rw [List.length_cons, length_putLe]
    rfl
  obtain ⟨turns', hturns', hread⟩ := readExactOrEof_ok msgHeaderSize
    ((msgType :: putLe 4 payload.length) ++ (payload ++ rest)) hturns
    (by rw [List.length_append, hlen]; omega)
  refine ⟨turns', hturns', ?_⟩
  rw [hsplit, hread, ← hlen, List.take_left, List.drop_left]

theorem inputLoop_eof (hsteady : env.Steady) (hturns : NoError turns) (fuel i : Nat)
    (payloadBuf : Bytes) :
    inputLoop env (fuel + 1) i payloadBuf ⟨[], turns⟩ = ([], some .eof) := by
  rw [inputLoop, hsteady.exiting]
  have heof := readExactOrEof_eof msgHeaderSize [] hturns (by decide)
  rcases hread : readExactOrEof msgHeaderSize [] turns with ⟨r, p⟩
  rw [hread] at heof
  dsimp only at heof ⊢
  rw [heof]
  rfl

theorem inputLoop_tooLarge (hsteady : env.Steady) (hturns : NoError turns) (fuel i : Nat)
    (payloadBuf : Bytes) (msgType : UInt8) (hlarge : maxPayloadSize < payload.length)
    (hcarried : payload.length < 2 ^ 32) :
    inputLoop env (fuel + 1) i payloadBuf
      ⟨encodeHelperMessage msgType payload ++ rest, turns⟩ = ([], some .payloadTooLarge) := by
  obtain ⟨turns', -, hread⟩ := readHeader_ok hturns msgType payload rest
  have hlen : getLe ((msgType :: putLe 4 payload.length).drop 1) = payload.length := by
    rw [List.drop_one, List.tail_cons, getLe_putLe]
    exact Nat.mod_eq_of_lt hcarried
  rw [inputLoop, hsteady.exiting, hread]
  dsimp only
  rw [hlen, if_pos hlarge]
  rfl

/-- The bytes of the numbers are where the reader looks for them. -/
theorem sizes_of_resize {payloadBuf : Bytes} (rows cols : UInt16)
    (hbuf : payloadBuf.take 4 = putLe 2 rows.toNat ++ putLe 2 cols.toNat) :
    UInt16.ofNat (getLe (payloadBuf.take 2)) = rows ∧
      UInt16.ofNat (getLe ((payloadBuf.drop 2).take 2)) = cols := by
  have hrows : payloadBuf.take 2 = putLe 2 rows.toNat := by
    have htake : payloadBuf.take 2 = (payloadBuf.take 4).take 2 := by simp [List.take_take]
    rw [htake, hbuf, take_putLe]
  have hcols : (payloadBuf.drop 2).take 2 = putLe 2 cols.toNat := by
    have hdrop : (payloadBuf.drop 2).take 2 = (payloadBuf.take 4).drop 2 := by
      rw [List.drop_take]
    rw [hdrop, hbuf, drop_putLe]
  rw [hrows, hcols, getLe_putLe, getLe_putLe]
  exact ⟨by simp, by simp⟩

/-- One turn of the loop does what the input says. -/
theorem inputLoop_message (hsteady : env.Steady) (hturns : NoError turns) (fuel i : Nat)
    (payloadBuf : Bytes) {input : Input} (hfits : input.fits = true) (rest : Bytes) :
    ∃ turns' payloadBuf', NoError turns' ∧
      inputLoop env (fuel + 1) i payloadBuf ⟨input.encode ++ rest, turns⟩ =
        (input.call :: (inputLoop env fuel (i + 1) payloadBuf' ⟨rest, turns'⟩).1,
          (inputLoop env fuel (i + 1) payloadBuf' ⟨rest, turns'⟩).2) := by
  have hlimit : maxPayloadSize < 2 ^ 32 := by decide
  have hlen : ∀ (msgType : UInt8) (payload : Bytes), payload.length ≤ maxPayloadSize →
      getLe ((msgType :: putLe 4 payload.length).drop 1) = payload.length := by
    intro msgType payload hle
    rw [List.drop_one, List.tail_cons, getLe_putLe]
    exact Nat.mod_eq_of_lt (by omega)
  cases input with
  | data payload =>
    have hle : payload.length ≤ maxPayloadSize := of_decide_eq_true hfits
    obtain ⟨turns₁, hturns₁, hheader⟩ := readHeader_ok hturns msgTypeData payload rest
    obtain ⟨turns₂, payloadBuf₂, hturns₂, htake, hpayload⟩ :=
      readPayload_ok hturns₁ (growBuf payload.length payloadBuf) payload rest
    refine ⟨turns₂, payloadBuf₂, hturns₂, ?_⟩
    rw [Input.encode, inputLoop, hsteady.exiting, if_neg Bool.false_ne_true, hheader]
    dsimp only
    rw [hlen msgTypeData payload hle, if_neg (by omega), hpayload]
    dsimp only
    rw [List.headD_cons, if_pos rfl, hsteady.writeError, htake]
    rfl
  | resize rows cols =>
    set payload := putLe 2 rows.toNat ++ putLe 2 cols.toNat with hpayload
    have hfour : payload.length = 4 := by
      rw [hpayload, List.length_append, length_putLe, length_putLe]
    have hle : payload.length ≤ maxPayloadSize := by rw [hfour]; decide
    obtain ⟨turns₁, hturns₁, hheader⟩ := readHeader_ok hturns msgTypeResize payload rest
    obtain ⟨turns₂, payloadBuf₂, hturns₂, htake, hread⟩ :=
      readPayload_ok hturns₁ (growBuf payload.length payloadBuf) payload rest
    rw [hfour] at htake
    obtain ⟨hrows, hcols⟩ := sizes_of_resize rows cols htake
    refine ⟨turns₂, payloadBuf₂, hturns₂, ?_⟩
    rw [Input.encode, encodeResizeMessage, ← hpayload, inputLoop, hsteady.exiting,
      if_neg Bool.false_ne_true, hheader]
    dsimp only
    rw [hlen msgTypeResize payload hle, if_neg (by omega), hread]
    dsimp only
    rw [List.headD_cons, if_neg (by decide), if_pos rfl, if_pos (by omega), hrows, hcols]
    rfl

/-! ## All messages -/

theorem encodeAll_cons (input : Input) (inputs : List Input) :
    encodeAll (input :: inputs) = input.encode ++ encodeAll inputs := rfl

theorem length_encode_pos (input : Input) : 0 < input.encode.length := by
  cases input <;> exact Nat.succ_pos _

/-- The loop takes the messages up to the first that is too large. -/
theorem inputLoop_all (hsteady : env.Steady) {inputs : List Input}
    (hcarried : ∀ input ∈ inputs, input.Carried) (hturns : NoError turns) {fuel : Nat} (i : Nat)
    (payloadBuf : Bytes) (hfuel : (encodeAll inputs).length < fuel) :
    inputLoop env fuel i payloadBuf ⟨encodeAll inputs, turns⟩ =
      ((inputs.takeWhile Input.fits).map Input.call,
        some (if inputs.all Input.fits then .eof else .payloadTooLarge)) := by
  induction inputs generalizing turns fuel i payloadBuf with
  | nil =>
    obtain ⟨fuel, rfl⟩ : ∃ n, fuel = n + 1 := ⟨fuel - 1, by omega⟩
    exact inputLoop_eof hsteady hturns fuel i payloadBuf
  | cons input inputs ih =>
    obtain ⟨fuel, rfl⟩ : ∃ n, fuel = n + 1 := ⟨fuel - 1, by omega⟩
    obtain ⟨hinput, hinputs⟩ := List.forall_mem_cons.mp hcarried
    rw [encodeAll_cons, List.length_append] at hfuel
    have hpos := length_encode_pos input
    rw [encodeAll_cons]
    by_cases hfits : input.fits = true
    · obtain ⟨turns', payloadBuf', hturns', hturn⟩ := inputLoop_message hsteady hturns fuel i
        payloadBuf hfits (encodeAll inputs)
      rw [hturn, ih hinputs hturns' (i + 1) payloadBuf' (by omega), List.takeWhile_cons,
        if_pos hfits, List.all_cons, hfits, Bool.true_and]
      rfl
    · rw [List.takeWhile_cons, if_neg hfits, List.all_cons, Bool.eq_false_of_not_eq_true hfits]
      cases input with
      | data payload =>
        have hlarge : maxPayloadSize < payload.length :=
          Nat.lt_of_not_le fun hle => hfits (decide_eq_true hle)
        exact inputLoop_tooLarge hsteady hturns fuel i payloadBuf msgTypeData hlarge hinput
      | resize rows cols => exact absurd rfl hfits

theorem runInputThread_eq (hsteady : env.Steady) {inputs : List Input}
    (hcarried : ∀ input ∈ inputs, input.Carried) (hturns : NoError turns) :
    runInputThread env ⟨encodeAll inputs, turns⟩ =
      ((inputs.takeWhile Input.fits).map Input.call,
        some (if inputs.all Input.fits then .eof else .payloadTooLarge)) :=
  inputLoop_all hsteady hcarried hturns 0 _ (Nat.lt_succ_self _)

/-- However the pipe splits the bytes: the terminal gets exactly the inputs before the first that
    is longer than 16 MiB, in order, and the thread goes on to the end of the file precisely if
    there is none. So every input arrives if none is longer. -/
theorem input_carried (env : Surroundings) (hsteady : env.Steady) (inputs : List Input)
    (hcarried : ∀ input ∈ inputs, input.Carried) (turns : List Turn) (hturns : NoError turns) :
    runInputThread env ⟨encodeAll inputs, turns⟩ =
        ((inputs.takeWhile Input.fits).map Input.call,
          some (if inputs.all Input.fits then .eof else .payloadTooLarge)) ∧
      ((∀ input ∈ inputs, input.fits = true) → CarriesAll env turns inputs) := by
  have hrun := runInputThread_eq hsteady hcarried hturns
  refine ⟨hrun, fun hall => ?_⟩
  unfold CarriesAll
  rw [hrun, List.takeWhile_eq_self_iff.mpr hall, List.all_eq_true.mpr hall]
  rfl

/-- The shell is running and takes everything. -/
def quietSurroundings : Surroundings := ⟨fun _ => false, fun _ => none⟩

theorem quiet_steady : quietSurroundings.Steady := ⟨fun _ => rfl, fun _ => rfl⟩

theorem input_carried_split :
    CarriesAll quietSurroundings [.upTo 0, .interrupted, .upTo 2, .upTo 9]
      [.data [108, 115, 13], .resize 24 80, .data [], .data [113]] := by
  refine (input_carried quietSurroundings quiet_steady _ ?_ _ ?_).2 (by decide)
  · simp [Input.Carried]
  · simp [NoError]

/-- One byte more than the limit. -/
def oversized : List Input := [.data (List.replicate (maxPayloadSize + 1) 120), .data [13]]

/-- Nothing arrives of an input that is too long, nor of what is typed after it. -/
theorem oversized_not_carried :
    ¬ ∀ inputs : List Input, (∀ input ∈ inputs, input.Carried) →
      CarriesAll quietSurroundings [] inputs := by
  intro hall
  have hlen : (List.replicate (maxPayloadSize + 1) (120 : UInt8)).length = maxPayloadSize + 1 :=
    List.length_replicate
  have hcarried : ∀ input ∈ oversized, input.Carried := by
    intro input hinput
    rcases List.mem_pair.mp hinput with rfl | rfl
    · rw [Input.Carried, hlen]
      decide
    · rw [Input.Carried]
      decide
  have hclaimed : runInputThread quietSurroundings ⟨encodeAll oversized, []⟩ = _ :=
    hall oversized hcarried
  have hlarge : (oversized.all Input.fits) = false := by
    have hno : Input.fits (.data (List.replicate (maxPayloadSize + 1) 120)) = false := by
      rw [Input.fits, hlen]
      exact decide_eq_false (Nat.not_succ_le_self maxPayloadSize)
    rw [oversized, List.all_cons, hno, Bool.false_and]
  rw [runInputThread_eq quiet_steady hcarried fun err => List.not_mem_nil, hlarge] at hclaimed
  exact absurd (congrArg Prod.snd hclaimed) (by decide)

end Helper
end Terminal
end LuodaRemote
