/-
  The framing of a TCP stream: `BytesCodec` of `libs/hbb_common/src/bytes_codec.rs`.

  A frame is a header of one to four bytes and the payload. The two low bits of the header
  say how long it is, the others how long the payload is. `decode_encode` reads one frame
  back, whatever lies behind it; with `resumable` and `Lib.Decoder` this gives
  `frames_roundtrip`, for a stream that arrives in any pieces.

  The encoder takes what the header can count, the decoder what it allows. The default codec
  allows much less, see `encoded_decodes_iff`.
-/
import LuodaRemote.Lib.Decoder
import LuodaRemote.Message

namespace LuodaRemote
open Lib

inductive DecodeState where
  | head
  | data (n : Nat)
  deriving DecidableEq

structure BytesCodec where
  state : DecodeState := .head
  raw : Bool := false
  maxPacketLength : Nat := 64 * 1024 * 1024
  deriving DecidableEq

namespace BytesCodec

def new : BytesCodec := {}

def setRaw (codec : BytesCodec) : BytesCodec := { codec with raw := true }

def setMaxPacketLength (n : Nat) (codec : BytesCodec) : BytesCodec :=
  { codec with maxPacketLength := n }

/-! ## Decoding -/

/-- `src[i] as usize`. -/
def byteAt (src : Bytes) (i : Nat) : Nat := (src.getD i 0).toNat

/-- The length of the header that starts with this byte. -/
def headLen (b : UInt8) : Nat := (b &&& 0x3).toNat + 1

/-- The number in a header, without the bits for its length. -/
def headValue (len : Nat) (src : Bytes) : Nat :=
  let n := byteAt src 0
  let n := if 1 < len then n ||| byteAt src 1 <<< 8 else n
  let n := if 2 < len then n ||| byteAt src 2 <<< 16 else n
  let n := if 3 < len then n ||| byteAt src 3 <<< 24 else n
  n >>> 2

/-- `decode_head`, with what is left of the buffer. -/
def decodeHead (src : Bytes) (codec : BytesCodec) : Except String (Option Nat) × Bytes :=
  match src with
  | [] => (.ok none, src)
  | b :: _ =>
    let len := headLen b
    if src.length < len then (.ok none, src)
    else
      let n := headValue len src
      if codec.maxPacketLength < n then (.error "Too big packet", src)
      else (.ok (some n), src.drop len)

def decodeData (n : Nat) (src : Bytes) : Option (Bytes × Bytes) :=
  if src.length < n then none else some (src.take n, src.drop n)

/-- The end of `decode`, with `n` bytes to come. -/
def decodeBody (n : Nat) (src : Bytes) (codec : BytesCodec) :
    Except String (Option Bytes) × BytesCodec × Bytes :=
  match decodeData n src with
  | some (data, rest) => (.ok (some data), { codec with state := .head }, rest)
  | none => (.ok none, codec, src)

def decode (codec : BytesCodec) (src : Bytes) :
    Except String (Option Bytes) × BytesCodec × Bytes :=
  if codec.raw then
    if src.isEmpty then (.ok none, codec, src) else (.ok (some src), codec, [])
  else match codec.state with
    | .data n => decodeBody n src codec
    | .head =>
      match codec.decodeHead src with
      | (.error e, src) => (.error e, codec, src)
      | (.ok none, src) => (.ok none, codec, src)
      | (.ok (some n), src) => decodeBody n src { codec with state := .data n }

/-! ## Encoding -/

def putU16Le (n : UInt16) : Bytes := [n.toUInt8, (n >>> 8).toUInt8]

def putU32Le (n : UInt32) : Bytes :=
  [n.toUInt8, (n >>> 8).toUInt8, (n >>> 16).toUInt8, (n >>> 24).toUInt8]

/-- The header `encode` writes for a payload of length `len`. -/
def header (len : Nat) : Except String Bytes :=
  if len ≤ 0x3F then .ok [UInt8.ofNat (len <<< 2)]
  else if len ≤ 0x3FFF then .ok (putU16Le (UInt16.ofNat (len <<< 2) ||| 0x1))
  else if len ≤ 0x3FFFFF then
    let h := UInt32.ofNat (len <<< 2) ||| 0x2
    .ok (putU16Le (h &&& 0xFFFF).toUInt16 ++ [(h >>> 16).toUInt8])
  else if len ≤ 0x3FFFFFFF then .ok (putU32Le (UInt32.ofNat (len <<< 2) ||| 0x3))
  else .error "Overflow"

/-- `encode`: the buffer with the frame at its end. -/
def encode (codec : BytesCodec) (data buf : Bytes) : Except String Bytes :=
  if codec.raw then .ok (buf ++ data)
  else match header data.length with
    | .error e => .error e
    | .ok head => .ok (buf ++ head ++ data)

/-! ## Headers -/

/-- The first `len` bytes, least significant first. -/
def littleEndian (len : Nat) (src : Bytes) : Nat :=
  Nat.ofDigits 256 ((src.take len).map UInt8.toNat)

theorem or_shiftLeft {a b i : Nat} (ha : a < 2 ^ i) : a ||| b <<< i = a + b * 2 ^ i := by
  rw [Nat.or_comm, ← Nat.shiftLeft_add_eq_or_of_lt ha, Nat.shiftLeft_eq, Nat.add_comm]

/-- A header is a little-endian number, shifted by two. -/
theorem headValue_eq {len : Nat} {src : Bytes} (hlen : 1 ≤ len ∧ len ≤ 4)
    (hsrc : len ≤ src.length) : headValue len src = littleEndian len src / 4 := by
  have hb : ∀ b : UInt8, b.toNat < 2 ^ 8 := fun b => b.toNat_lt
  have h2 : ∀ b0 b1 : UInt8, b0.toNat ||| b1.toNat <<< 8 = b0.toNat + b1.toNat * 256 :=
    fun b0 b1 => or_shiftLeft (hb b0)
  have h3 : ∀ b0 b1 b2 : UInt8, b0.toNat + b1.toNat * 256 ||| b2.toNat <<< 16 =
      b0.toNat + b1.toNat * 256 + b2.toNat * 65536 := by
    intro b0 b1 b2
    have := hb b0
    have := hb b1
    exact or_shiftLeft (by omega)
  have h4 : ∀ b0 b1 b2 b3 : UInt8,
      b0.toNat + b1.toNat * 256 + b2.toNat * 65536 ||| b3.toNat <<< 24 =
        b0.toNat + b1.toNat * 256 + b2.toNat * 65536 + b3.toNat * 16777216 := by
    intro b0 b1 b2 b3
    have := hb b0
    have := hb b1
    have := hb b2
    exact or_shiftLeft (by omega)
  unfold headValue littleEndian
  match len, hlen, src, hsrc with
  | 1, _, b0 :: _, _ => simp [byteAt, Nat.shiftRight_eq_div_pow]
  | 2, _, b0 :: b1 :: _, _ =>
    simp [byteAt, Nat.shiftRight_eq_div_pow, h2, Nat.ofDigits_cons]
    omega
  | 3, _, b0 :: b1 :: b2 :: _, _ =>
    simp [byteAt, Nat.shiftRight_eq_div_pow, h2, h3, Nat.ofDigits_cons]
    omega
  | 4, _, b0 :: b1 :: b2 :: b3 :: _, _ =>
    simp [byteAt, Nat.shiftRight_eq_div_pow, h2, h3, h4, Nat.ofDigits_cons]
    omega

theorem headLen_eq (b : UInt8) : headLen b = b.toNat % 4 + 1 := by
  unfold headLen
  rw [UInt8.toNat_and]
  exact congrArg (· + 1) (Nat.and_two_pow_sub_one_eq_mod b.toNat 2)

theorem shiftLeft_or {len k w : Nat} (hk : k < 4) (hlen : len <<< 2 < 2 ^ w) :
    len <<< 2 % 2 ^ w ||| k = 4 * len + k := by
  rw [Nat.mod_eq_of_lt hlen, ← Nat.shiftLeft_add_eq_or_of_lt (by omega), Nat.shiftLeft_eq]
  omega

/-- What is wanted of the header of a payload of length `len`. -/
structure IsHeader (len : Nat) (head : Bytes) : Prop where
  first : ∃ b, head.head? = some b ∧ headLen b = head.length
  value : Nat.ofDigits 256 (head.map UInt8.toNat) / 4 = len

theorem isHeader_u8 {len : Nat} (hlen : len ≤ 0x3F) : IsHeader len [UInt8.ofNat (len <<< 2)] := by
  have hval : (UInt8.ofNat (len <<< 2)).toNat = 4 * len := by
    rw [UInt8.toNat_ofNat', Nat.shiftLeft_eq, Nat.mod_eq_of_lt (by omega)]
    omega
  refine ⟨⟨_, rfl, ?_⟩, ?_⟩
  · rw [headLen_eq, hval]
    simp
  · rw [List.map_singleton, hval, Nat.ofDigits_singleton]
    omega

theorem isHeader_u16 {len : Nat} (hlen : len ≤ 0x3FFF) :
    IsHeader len (putU16Le (UInt16.ofNat (len <<< 2) ||| 0x1)) := by
  have hval : (UInt16.ofNat (len <<< 2) ||| 0x1).toNat = 4 * len + 1 := by
    rw [UInt16.toNat_or, UInt16.toNat_ofNat']
    exact shiftLeft_or (by decide) (by rw [Nat.shiftLeft_eq]; omega)
  refine ⟨⟨_, rfl, ?_⟩, ?_⟩
  · rw [headLen_eq, UInt16.toNat_toUInt8, hval]
    simp only [putU16Le, List.length_cons, List.length_nil]
    omega
  · simp only [putU16Le, List.map_cons, List.map_nil, Nat.ofDigits_cons, Nat.ofDigits_nil,
      UInt16.toNat_toUInt8, UInt16.toNat_shiftRight, hval]
    simp [Nat.shiftRight_eq_div_pow]
    omega

theorem isHeader_u24 {len : Nat} (hlen : len ≤ 0x3FFFFF) :
    IsHeader len (putU16Le ((UInt32.ofNat (len <<< 2) ||| 0x2) &&& 0xFFFF).toUInt16 ++
      [((UInt32.ofNat (len <<< 2) ||| 0x2) >>> 16).toUInt8]) := by
  have hval : (UInt32.ofNat (len <<< 2) ||| 0x2).toNat = 4 * len + 2 := by
    rw [UInt32.toNat_or, UInt32.toNat_ofNat']
    exact shiftLeft_or (by decide) (by rw [Nat.shiftLeft_eq]; omega)
  have hlow : ((UInt32.ofNat (len <<< 2) ||| 0x2) &&& 0xFFFF).toUInt16.toNat =
      (4 * len + 2) % 65536 := by
    rw [UInt32.toNat_toUInt16, UInt32.toNat_and, hval]
    have := Nat.and_two_pow_sub_one_eq_mod (4 * len + 2) 16
    simp at this
    simp [this]
  refine ⟨⟨_, rfl, ?_⟩, ?_⟩
  · rw [headLen_eq, UInt16.toNat_toUInt8, hlow]
    simp only [putU16Le, List.length_cons, List.length_append, List.length_nil]
    omega
  · simp only [putU16Le, List.map_cons, List.map_nil, List.cons_append, List.nil_append,
      Nat.ofDigits_cons, Nat.ofDigits_nil, UInt16.toNat_toUInt8, UInt16.toNat_shiftRight,
      UInt32.toNat_toUInt8, UInt32.toNat_shiftRight, hlow, hval]
    simp [Nat.shiftRight_eq_div_pow]
    omega

theorem isHeader_u32 {len : Nat} (hlen : len ≤ 0x3FFFFFFF) :
    IsHeader len (putU32Le (UInt32.ofNat (len <<< 2) ||| 0x3)) := by
  have hval : (UInt32.ofNat (len <<< 2) ||| 0x3).toNat = 4 * len + 3 := by
    rw [UInt32.toNat_or, UInt32.toNat_ofNat']
    exact shiftLeft_or (by decide) (by rw [Nat.shiftLeft_eq]; omega)
  refine ⟨⟨_, rfl, ?_⟩, ?_⟩
  · rw [headLen_eq, UInt32.toNat_toUInt8, hval]
    simp only [putU32Le, List.length_cons, List.length_nil]
    omega
  · simp only [putU32Le, List.map_cons, List.map_nil, Nat.ofDigits_cons, Nat.ofDigits_nil,
      UInt32.toNat_toUInt8, UInt32.toNat_shiftRight, hval]
    simp [Nat.shiftRight_eq_div_pow]
    omega

theorem header_eq {len : Nat} (hlen : len ≤ 0x3FFFFFFF) :
    ∃ head, header len = .ok head ∧ IsHeader len head := by
  unfold header
  split
  · rename_i h8
    exact ⟨_, rfl, isHeader_u8 h8⟩
  · split
    · rename_i h16
      exact ⟨_, rfl, isHeader_u16 h16⟩
    · split
      · rename_i h24
        exact ⟨_, rfl, isHeader_u24 h24⟩
      · exact ⟨_, rfl, isHeader_u32 hlen⟩

/-! ## One call -/

theorem headLen_bounds (b : UInt8) : 1 ≤ headLen b ∧ headLen b ≤ 4 := by
  rw [headLen_eq]
  omega

/-- The value of a complete header depends on its bytes only. -/
theorem headValue_append {b : UInt8} {src : Bytes} (rest : Bytes) (hlen : headLen b ≤ src.length) :
    headValue (headLen b) (src ++ rest) = headValue (headLen b) src := by
  rw [headValue_eq (headLen_bounds b) hlen, headValue_eq (headLen_bounds b) (by
    rw [List.length_append]
    omega)]
  unfold littleEndian
  rw [List.take_append_of_le_length hlen]

theorem decodeHead_short {b : UInt8} {src : Bytes} (codec : BytesCodec)
    (hlen : (b :: src).length < headLen b) :
    codec.decodeHead (b :: src) = (.ok none, b :: src) := by
  unfold decodeHead
  exact if_pos hlen

theorem decodeHead_complete {b : UInt8} {src : Bytes} (codec : BytesCodec)
    (hlen : headLen b ≤ (b :: src).length) :
    codec.decodeHead (b :: src) =
      if codec.maxPacketLength < headValue (headLen b) (b :: src)
      then (.error "Too big packet", b :: src)
      else (.ok (some (headValue (headLen b) (b :: src))), (b :: src).drop (headLen b)) := by
  unfold decodeHead
  exact if_neg (by omega)

/-- A header of `n` bytes that is announced and allowed is taken off the buffer. -/
theorem decodeHead_header {len : Nat} {head : Bytes} (codec : BytesCodec) (rest : Bytes)
    (hh : IsHeader len head) (hmax : len ≤ codec.maxPacketLength) :
    codec.decodeHead (head ++ rest) = (.ok (some len), rest) := by
  obtain ⟨⟨b, hb, hlen⟩, hval⟩ := hh
  cases head with
  | nil => cases hb
  | cons b' tail =>
    obtain rfl : b' = b := Option.some.inj hb
    have hle : headLen b' ≤ ((b' :: tail) ++ rest).length := by
      rw [List.length_append]
      omega
    have hvalue : headValue (headLen b') ((b' :: tail) ++ rest) = len := by
      rw [headValue_append rest (by omega), headValue_eq (headLen_bounds b') (by omega)]
      unfold littleEndian
      rw [List.take_of_length_le (by omega)]
      exact hval
    rw [List.cons_append] at hle hvalue ⊢
    rw [decodeHead_complete codec hle, hvalue, if_neg (by omega), hlen]
    simp

theorem decodeBody_append {n : Nat} {data : Bytes} (codec : BytesCodec) (rest : Bytes)
    (hn : data.length = n) :
    decodeBody n (data ++ rest) codec = (.ok (some data), { codec with state := .head }, rest) := by
  unfold decodeBody decodeData
  rw [if_neg (by rw [List.length_append]; omega)]
  simp [← hn]

/-- A frame at the front of the buffer is decoded to its payload. -/
theorem decode_encode {codec : BytesCodec} {data frame : Bytes} (hraw : codec.raw = false)
    (hstate : codec.state = .head) (hmax : data.length ≤ codec.maxPacketLength)
    (henc : ∃ head, frame = head ++ data ∧ IsHeader data.length head) (rest : Bytes) :
    codec.decode (frame ++ rest) = (.ok (some data), codec, rest) := by
  obtain ⟨head, rfl, hh⟩ := henc
  unfold decode
  rw [if_neg (by simp [hraw]), hstate]
  dsimp only
  rw [List.append_assoc, decodeHead_header codec (data ++ rest) hh hmax]
  dsimp only
  rw [decodeBody_append _ rest rfl]
  simp only [Prod.mk.injEq, true_and, and_true]
  rw [← hstate]

/-- A header that announces too much is refused. Nothing changes. -/
theorem decode_too_big {codec : BytesCodec} {b : UInt8} {src : Bytes} (hraw : codec.raw = false)
    (hstate : codec.state = .head) (hlen : headLen b ≤ (b :: src).length)
    (hbig : codec.maxPacketLength < littleEndian (headLen b) (b :: src) / 4) :
    codec.decode (b :: src) = (.error "Too big packet", codec, b :: src) := by
  unfold decode
  rw [if_neg (by simp [hraw]), hstate]
  dsimp only
  rw [decodeHead_complete codec hlen, if_pos (by rwa [headValue_eq (headLen_bounds b) hlen])]

/-! ## The codec as a decoder -/

theorem decodeBody_weight {n : Nat} {src : Bytes} {codec : BytesCodec} {data : Bytes}
    {codec' : BytesCodec} {src' : Bytes}
    (hd : decodeBody n src codec = (.ok (some data), codec', src')) :
    codec'.state = .head ∧ src'.length ≤ src.length := by
  unfold decodeBody decodeData at hd
  split at hd
  · rename_i data' rest hdata
    split at hdata
    · cases hdata
    · cases hdata
      cases hd
      exact ⟨rfl, by simp⟩
  · cases hd

/-- Twice the bytes, and one for a header that was read already. -/
def weight (codec : BytesCodec) (src : Bytes) : Nat :=
  2 * src.length + match codec.state with
    | .head => 0
    | .data _ => 1

theorem decode_weight_lt {codec : BytesCodec} {src data : Bytes} {codec' : BytesCodec}
    {src' : Bytes} (hd : codec.decode src = (.ok (some data), codec', src')) :
    weight codec' src' < weight codec src := by
  unfold decode at hd
  split at hd
  · split at hd
    · cases hd
    · rename_i hne
      cases hd
      have hpos : 0 < src.length := List.length_pos_iff.mpr (by simpa using hne)
      unfold weight
      simp only [List.length_nil]
      omega
  · split at hd
    · rename_i n hstate
      obtain ⟨hhead, hle⟩ := decodeBody_weight hd
      unfold weight
      rw [hhead, hstate]
      dsimp only
      omega
    · rename_i hstate
      split at hd
      · cases hd
      · cases hd
      · rename_i n rest hhead
        obtain ⟨hhead', hle⟩ := decodeBody_weight hd
        have hlt : rest.length < src.length := by
          cases src with
          | nil => cases hhead
          | cons b tail =>
            by_cases hlen : headLen b ≤ (b :: tail).length
            · rw [decodeHead_complete codec hlen] at hhead
              split at hhead
              · cases hhead
              · cases hhead
                have := headLen_bounds b
                rw [List.length_drop, List.length_cons]
                omega
            · rw [decodeHead_short codec (by omega)] at hhead
              cases hhead
        unfold weight
        rw [hhead', hstate]
        dsimp only
        omega

/-- `BytesCodec` as a `tokio_util::codec::Decoder`. -/
def decoder : Decoder BytesCodec UInt8 Bytes String where
  decode := decode
  weight := weight
  weight_lt := decode_weight_lt

/-- More bytes behind a body that is complete change nothing; behind one that is not, they
    are what it waits for. -/
theorem decodeBody_cases (n : Nat) (src : Bytes) (codec : BytesCodec) :
    (∃ data rest, ∀ more, decodeBody n (src ++ more) codec =
      (.ok (some data), { codec with state := .head }, rest ++ more)) ∨
    decodeBody n src codec = (.ok none, codec, src) := by
  by_cases hlen : src.length < n
  · right
    unfold decodeBody decodeData
    rw [if_pos hlen]
  · left
    refine ⟨src.take n, src.drop n, fun more => ?_⟩
    unfold decodeBody decodeData
    rw [if_neg (by rw [List.length_append]; omega)]
    simp only
    rw [List.take_append_of_le_length (by omega), List.drop_append_of_le_length (by omega)]

theorem decode_data {codec : BytesCodec} {n : Nat} (hraw : codec.raw = false)
    (hstate : codec.state = .data n) (src : Bytes) :
    codec.decode src = decodeBody n src codec := by
  unfold decode
  rw [if_neg (by simp [hraw]), hstate]

theorem decode_head {codec : BytesCodec} (hraw : codec.raw = false) (hstate : codec.state = .head)
    (src : Bytes) :
    codec.decode src = match codec.decodeHead src with
      | (.error e, src) => (.error e, codec, src)
      | (.ok none, src) => (.ok none, codec, src)
      | (.ok (some n), src) => decodeBody n src { codec with state := .data n } := by
  unfold decode
  rw [if_neg (by simp [hraw]), hstate]

/-- What a call does, and what it would have done with more bytes in the buffer. -/
inductive Call (codec : BytesCodec) (src : Bytes) : Prop where
  | item (data rest : Bytes) (codec' : BytesCodec) (hraw : codec'.raw = false)
      (heq : ∀ more, codec.decode (src ++ more) = (.ok (some data), codec', rest ++ more))
  | error (e : String)
      (heq : ∀ more, codec.decode (src ++ more) = (.error e, codec, src ++ more))
  | more (codec' : BytesCodec) (rest : Bytes) (hraw : codec'.raw = false)
      (hnone : codec.decode src = (.ok none, codec', rest))
      (heq : ∀ more, codec.decode (src ++ more) = codec'.decode (rest ++ more))

theorem decode_of_append {codec codec' : BytesCodec} {src rest : Bytes}
    {r : Except String (Option Bytes)}
    (heq : ∀ more, codec.decode (src ++ more) = (r, codec', rest ++ more)) :
    codec.decode src = (r, codec', rest) := by
  have h0 := heq []
  rw [List.append_nil, List.append_nil] at h0
  exact h0

theorem call_of_not_raw {codec : BytesCodec} (hraw : codec.raw = false) (src : Bytes) :
    Call codec src := by
  cases hstate : codec.state with
  | data n =>
    rcases decodeBody_cases n src codec with ⟨data, rest, hbody⟩ | hnone
    · refine .item data rest { codec with state := .head } hraw fun more => ?_
      rw [decode_data hraw hstate, hbody]
    · exact .more codec src hraw (by rw [decode_data hraw hstate, hnone]) fun _ => rfl
  | head =>
    cases src with
    | nil => exact .more codec [] hraw (decode_head hraw hstate []) fun _ => rfl
    | cons b tail =>
      by_cases hlen : headLen b ≤ (b :: tail).length
      · have hhead : ∀ more, codec.decodeHead (b :: tail ++ more) =
            if codec.maxPacketLength < headValue (headLen b) (b :: tail)
            then (.error "Too big packet", b :: tail ++ more)
            else (.ok (some (headValue (headLen b) (b :: tail))),
              (b :: tail).drop (headLen b) ++ more) := by
          intro more
          have hlen' : headLen b ≤ (b :: (tail ++ more)).length := by
            rw [← List.cons_append, List.length_append]
            omega
          rw [List.cons_append, decodeHead_complete codec hlen', ← List.cons_append,
            headValue_append more hlen, List.drop_append_of_le_length hlen]
        by_cases hbig : codec.maxPacketLength < headValue (headLen b) (b :: tail)
        · refine .error "Too big packet" fun more => ?_
          rw [decode_head hraw hstate, hhead, if_pos hbig]
        · -- The header is read; the rest is up to the body.
          generalize hn : headValue (headLen b) (b :: tail) = n at hhead hbig
          have hdec : ∀ more, codec.decode (b :: tail ++ more) =
              decodeBody n ((b :: tail).drop (headLen b) ++ more)
                { codec with state := .data n } := by
            intro more
            rw [decode_head hraw hstate, hhead, if_neg hbig]
          rcases decodeBody_cases n ((b :: tail).drop (headLen b))
            { codec with state := .data n } with ⟨data, rest, hbody⟩ | hnone
          · exact .item data rest { codec with state := .head } hraw
              fun more => (hdec more).trans (hbody more)
          · have hraw' : { codec with state := .data n }.raw = false := hraw
            refine .more { codec with state := .data n } ((b :: tail).drop (headLen b)) hraw
              ?_ fun more => (hdec more).trans (decode_data hraw' rfl _).symm
            have h0 := hdec []
            rw [List.append_nil, List.append_nil] at h0
            rw [h0, hnone]
      · refine .more codec (b :: tail) hraw ?_ fun _ => rfl
        rw [decode_head hraw hstate, decodeHead_short codec (by omega)]

/-- A codec that is not raw does not look behind what it takes. -/
theorem resumable : decoder.Resumable fun codec => codec.raw = false where
  keep := by
    intro codec src hraw
    show (codec.decode src).2.1.raw = false
    cases call_of_not_raw hraw src with
    | item data rest codec' hraw' heq =>
      rw [decode_of_append heq]
      exact hraw'
    | error e heq =>
      rw [decode_of_append heq]
      exact hraw
    | more codec' rest hraw' hnone heq =>
      rw [hnone]
      exact hraw'
  item := by
    intro codec src data codec₁ src₁ hraw hd rest
    show codec.decode (src ++ rest) = _
    cases call_of_not_raw hraw src with
    | item data' rest' codec' hraw' heq =>
      cases (decode_of_append heq).symm.trans hd
      exact heq rest
    | error e heq => cases (decode_of_append heq).symm.trans hd
    | more codec' rest' hraw' hnone heq => cases hnone.symm.trans hd
  error := by
    intro codec src e codec₁ src₁ hraw hd rest
    show codec.decode (src ++ rest) = _
    cases call_of_not_raw hraw src with
    | item data' rest' codec' hraw' heq => cases (decode_of_append heq).symm.trans hd
    | error e' heq =>
      cases (decode_of_append heq).symm.trans hd
      exact heq rest
    | more codec' rest' hraw' hnone heq => cases hnone.symm.trans hd
  more := by
    intro codec src codec₁ src₁ hraw hd rest
    show codec.decode (src ++ rest) = codec₁.decode (src₁ ++ rest)
    cases call_of_not_raw hraw src with
    | item data' rest' codec' hraw' heq => cases (decode_of_append heq).symm.trans hd
    | error e' heq => cases (decode_of_append heq).symm.trans hd
    | more codec' rest' hraw' hnone heq =>
      cases hnone.symm.trans hd
      exact heq rest

/-! ## Streams of frames -/

/-- The frames of several payloads, one behind the other in one buffer. -/
def encodeAll (codec : BytesCodec) (payloads : List Bytes) : Except String Bytes :=
  payloads.foldlM (fun buf data => codec.encode data buf) []

/-- The frame of a payload that is not too long. -/
theorem encode_eq (codec : BytesCodec) (data : Bytes) (hraw : codec.raw = false)
    (hlen : data.length ≤ 0x3FFFFFFF) :
    ∃ head, IsHeader data.length head ∧
      ∀ buf, codec.encode data buf = .ok (buf ++ (head ++ data)) := by
  obtain ⟨head, hhead, hh⟩ := header_eq hlen
  refine ⟨head, hh, fun buf => ?_⟩
  unfold encode
  rw [if_neg (by simp [hraw]), hhead]
  simp

/-- The frames of payloads of allowed length are there, and draining them gives the
    payloads. -/
theorem drain_encodeAll (codec : BytesCodec) (hraw : codec.raw = false)
    (hstate : codec.state = .head) (payloads : List Bytes)
    (hlen : ∀ data ∈ payloads, data.length ≤ codec.maxPacketLength ∧ data.length ≤ 0x3FFFFFFF) :
    ∃ bytes,
      (∀ buf, payloads.foldlM (fun buf data => new.encode data buf) buf = .ok (buf ++ bytes)) ∧
      decoder.drain codec bytes = (payloads, none, codec, []) := by
  induction payloads with
  | nil =>
    refine ⟨[], fun buf => ?_, Decoder.drain_more (decode_head hraw hstate [])⟩
    rw [List.append_nil]
    rfl
  | cons data payloads ih =>
    obtain ⟨bytes, henc, hdrain⟩ := ih fun d hd => hlen d (List.mem_cons_of_mem data hd)
    obtain ⟨hmax, hbound⟩ := hlen data List.mem_cons_self
    obtain ⟨head, hh, hframe⟩ := encode_eq new data rfl hbound
    refine ⟨(head ++ data) ++ bytes, fun buf => ?_, ?_⟩
    · rw [List.foldlM_cons, hframe buf]
      show payloads.foldlM _ (buf ++ (head ++ data)) = _
      rw [henc, List.append_assoc]
    · have hitem := decode_encode hraw hstate hmax ⟨head, rfl, hh⟩ bytes
      rw [Decoder.drain_item hitem, hdrain]

/-- The frames of any payloads of allowed length, cut into any pieces, are decoded to these
    payloads, and the decoder is as it was at the start. A header that announces more than is
    allowed is refused and stays in the buffer. -/
theorem frames_roundtrip (maxLen : Nat) (payloads : List Bytes)
    (hlen : ∀ data ∈ payloads, data.length ≤ maxLen ∧ data.length ≤ 0x3FFFFFFF) :
    (∃ bytes, new.encodeAll payloads = .ok bytes ∧
      ∀ chunks : List Bytes, chunks.flatten = bytes →
        decoder.feed (new.setMaxPacketLength maxLen) [] chunks =
          (payloads, none, new.setMaxPacketLength maxLen, [])) ∧
    ∀ (codec : BytesCodec) (b : UInt8) (src : Bytes), codec.raw = false → codec.state = .head →
      headLen b ≤ (b :: src).length →
      codec.maxPacketLength < littleEndian (headLen b) (b :: src) / 4 →
      codec.decode (b :: src) = (.error "Too big packet", codec, b :: src) := by
  refine ⟨?_, fun codec b src => decode_too_big⟩
  obtain ⟨bytes, henc, hdrain⟩ :=
    drain_encodeAll (new.setMaxPacketLength maxLen) rfl rfl payloads hlen
  refine ⟨bytes, henc [], fun chunks hchunks => ?_⟩
  refine Decoder.feed_eq resumable rfl chunks rfl ?_
  rw [List.nil_append, hchunks, hdrain]

/-- Two payloads, cut in the middle of the first one. -/
theorem frames_roundtrip_two :
    decoder.feed (new.setMaxPacketLength 8) [] [[8, 1], [2, 0]] =
      ([[1, 2], []], none, new.setMaxPacketLength 8, []) := by
  obtain ⟨⟨bytes, henc, hfeed⟩, _⟩ := frames_roundtrip 8 [[1, 2], []] (by decide)
  have hbytes : new.encodeAll [[1, 2], []] = .ok [8, 1, 2, 0] := by decide
  rw [hbytes] at henc
  cases henc
  exact hfeed [[8, 1], [2, 0]] rfl

/-! ## The two limits -/

theorem encode_ok {codec : BytesCodec} {data bytes : Bytes} (hraw : codec.raw = false)
    (henc : codec.encode data [] = .ok bytes) :
    data.length ≤ 0x3FFFFFFF ∧ ∃ head, bytes = head ++ data ∧ IsHeader data.length head := by
  by_cases hlen : data.length ≤ 0x3FFFFFFF
  · obtain ⟨head, hh, hframe⟩ := encode_eq codec data hraw hlen
    rw [hframe, List.nil_append] at henc
    cases henc
    exact ⟨hlen, head, rfl, hh⟩
  · unfold encode header at henc
    rw [if_neg (by simp [hraw]), if_neg (by omega), if_neg (by omega), if_neg (by omega),
      if_neg hlen] at henc
    cases henc

/-- The frame of a payload that is too long is refused at its header. -/
theorem decode_oversized {codec : BytesCodec} {data bytes : Bytes} (hraw : codec.raw = false)
    (hstate : codec.state = .head) (henc : codec.encode data [] = .ok bytes)
    (hbig : codec.maxPacketLength < data.length) :
    codec.decode bytes = (.error "Too big packet", codec, bytes) := by
  obtain ⟨_, head, rfl, ⟨b, hb, hlen⟩, hval⟩ := encode_ok hraw henc
  cases head with
  | nil => cases hb
  | cons b' tail =>
    obtain rfl : b' = b := Option.some.inj hb
    have hle : headLen b' ≤ (b' :: (tail ++ data)).length := by
      rw [hlen, ← List.cons_append, List.length_append]
      omega
    have hvalue : littleEndian (headLen b') (b' :: (tail ++ data)) / 4 = data.length := by
      unfold littleEndian
      rw [hlen, ← List.cons_append, List.take_left]
      exact hval
    exact decode_too_big hraw hstate hle (hvalue ▸ hbig)

/-- What one end takes for a frame the other end reads back, however it arrives, up to 64 MiB.
    Above that the decoder refuses it. -/
theorem encoded_decodes_iff (data bytes : Bytes) (henc : new.encode data [] = .ok bytes)
    (chunks : List Bytes) (hchunks : chunks.flatten = bytes) :
    (decoder.feed new [] chunks = ([data], none, new, []) ↔
      data.length ≤ 64 * 1024 * 1024) ∧
    (64 * 1024 * 1024 < data.length →
      (decoder.feed new [] chunks).1 = [] ∧
        (decoder.feed new [] chunks).2.1 = some "Too big packet") := by
  have hrefused : 64 * 1024 * 1024 < data.length →
      (decoder.feed new [] chunks).1 = [] ∧
        (decoder.feed new [] chunks).2.1 = some "Too big packet" := by
    intro hbig
    have hdrain := Decoder.drain_error (D := decoder) (decode_oversized rfl rfl henc hbig)
    have hstart : decoder.drain new ([] ++ chunks.flatten) =
        ([], some "Too big packet", new, bytes) := by
      rw [List.nil_append, hchunks, hdrain]
    obtain ⟨left, hfeed⟩ := Decoder.feed_error resumable rfl chunks rfl hstart
    rw [hfeed]
    exact ⟨rfl, rfl⟩
  refine ⟨⟨fun hfeed => ?_, fun hlen => ?_⟩, hrefused⟩
  · by_contra hlen
    have hnone := (hrefused (by omega)).1
    rw [hfeed] at hnone
    cases hnone
  · obtain ⟨hbound, hframe⟩ := encode_ok rfl henc
    have hraw : new.raw = false := rfl
    have hitem := decode_encode hraw rfl hlen hframe []
    rw [List.append_nil] at hitem
    have hrest : decoder.drain new [] = ([], none, new, []) :=
      Decoder.drain_more rfl
    refine Decoder.feed_eq resumable rfl chunks rfl ?_
    rw [List.nil_append, hchunks, Decoder.drain_item hitem, hrest]

theorem encoded_decodes_iff_two :
    decoder.feed new [] [[8], [1, 2]] = ([[1, 2]], none, new, []) :=
  (encoded_decodes_iff [1, 2] [8, 1, 2] (by decide) [[8], [1, 2]] rfl).1.mpr (by decide)

/-- A payload of one byte more than 64 MiB is taken and not read back. -/
theorem oversized_payload_refused :
    ∃ data bytes, new.encode data [] = .ok bytes ∧
      new.decode bytes = (.error "Too big packet", new, bytes) := by
  have hlen : (List.replicate (64 * 1024 * 1024 + 1) (0 : UInt8)).length ≤ 0x3FFFFFFF := by
    rw [List.length_replicate]
    omega
  obtain ⟨head, _, hframe⟩ := encode_eq new _ rfl hlen
  refine ⟨_, _, hframe [], decode_oversized rfl rfl (hframe []) ?_⟩
  rw [List.length_replicate]
  decide

end BytesCodec

end LuodaRemote
