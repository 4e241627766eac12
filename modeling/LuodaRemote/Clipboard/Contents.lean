/-
  The contents of the clipboard as messages (`create_multi_clipboards` and
  `from_multi_clipboards` of `src/clipboard.rs`, with `libs/hbb_common/src/compress.rs`).

  Each encoder sends the compressed bytes if they are fewer than the bytes, and the decoder goes by
  the flag. A compression that failed gives nothing, which is fewer than anything; and where
  `special_to_proto` does not compress, it sends the name of the format in place of its data.
  `fromMultiClipboards_iff` says which contents arrive as they were.

  `arboard` is not modelled; a list that it gives is compressed element by element, and the
  compressor may do something else at each of them. A `usize` has 64 bits.
-/
import LuodaRemote.Lib.Utf8
import LuodaRemote.Message

namespace LuodaRemote
open Lib

namespace ClipboardContents

/-! ## Data and messages -/

/-- `arboard::ImageData`. -/
inductive ImageData where
  | rgba (width height : UInt64) (bytes : Bytes)
  | png (bytes : Bytes)
  | svg (s : String)
deriving DecidableEq

/-- `arboard::ClipboardData`. -/
inductive ClipboardData where
  | text (s : String)
  | rtf (s : String)
  | html (s : String)
  | image (a : ImageData)
  | special (name : String) (data : Bytes)
  /-- Whatever else it can be, which is not sent. -/
  | other
deriving DecidableEq

inductive ClipboardFormat where
  | text
  | rtf
  | html
  | imageRgba
  | imagePng
  | imageSvg
  | special
deriving DecidableEq

def ClipboardFormat.value : ClipboardFormat → Int32
  | .text => 0
  | .rtf => 1
  | .html => 2
  | .imageRgba => 21
  | .imagePng => 22
  | .imageSvg => 23
  | .special => 31

/-- `enum_value()`. -/
def enumValue (format : Int32) : Option ClipboardFormat :=
  [.text, .rtf, .html, .imageRgba, .imagePng, .imageSvg, .special].find? (·.value = format)

structure Clipboard where
  compress : Bool := false
  content : Bytes := []
  width : Int32 := 0
  height : Int32 := 0
  format : Int32 := 0
  specialName : String := ""
deriving DecidableEq

/-- `zstd`, with the result of the compressor at each element of a list. -/
structure Zstd where
  compressor : ℕ → Bytes → Option Bytes
  decodeAll : Bytes → Option Bytes
  decodeAll_compressor : ∀ i data, ∀ res ∈ compressor i data, decodeAll res = some data
  /-- Of nothing, nothing comes. -/
  decodeAll_nil : ∀ data ∈ decodeAll [], data = []

/-- `as i32`. -/
def toI32 (n : UInt64) : Int32 := n.toUInt32.toInt32

/-- `as usize`. -/
def toUsize (n : Int32) : UInt64 := n.toInt64.toUInt64

variable (z : Zstd)

/-- A compression that fails leaves the empty vector. -/
def compress (i : ℕ) (data : Bytes) : Bytes := (z.compressor i data).getD []

def decompress (data : Bytes) : Bytes := (z.decodeAll data).getD []

/-! ## Encoders -/

/-- The flag and the content that go out for `data`: the compressed bytes if they are fewer, else
    `plain`. -/
def pack (compressed data plain : Bytes) : Bool × Bytes :=
  if compressed.length < data.length then (true, compressed) else (false, plain)

def plainToProto (i : ℕ) (s : String) (format : ClipboardFormat) : Clipboard :=
  let (compress, content) := pack (compress z i (asBytes s)) (asBytes s) (asBytes s)
  { compress, content, format := format.value }

def imageToProto (i : ℕ) : ImageData → Clipboard
  | .rgba width height bytes =>
    let (compress, content) := pack (compress z i bytes) bytes bytes
    { compress, content, width := toI32 width, height := toI32 height,
      format := ClipboardFormat.imageRgba.value }
  | .png bytes => { content := bytes, format := ClipboardFormat.imagePng.value }
  | .svg s =>
    let (compress, content) := pack (compress z i (asBytes s)) (asBytes s) (asBytes s)
    { compress, content, format := ClipboardFormat.imageSvg.value }

/-- What is not compressed is the name. -/
def specialToProto (i : ℕ) (d : Bytes) (s : String) : Clipboard :=
  let (compress, content) := pack (compress z i d) d (asBytes s)
  { compress, content, format := ClipboardFormat.special.value, specialName := s }

def clipboardDataToProto (i : ℕ) : ClipboardData → Option Clipboard
  | .text s => some (plainToProto z i s .text)
  | .rtf s => some (plainToProto z i s .rtf)
  | .html s => some (plainToProto z i s .html)
  | .image a => some (imageToProto z i a)
  | .special s d => some (specialToProto z i d s)
  | .other => none

/-- The messages for `vecData`, whose elements are numbered for the compressor. -/
def createMultiClipboards (vecData : List ClipboardData) : List Clipboard :=
  vecData.zipIdx.filterMap fun (data, i) => clipboardDataToProto z i data

/-! ## The decoder -/

/-- `String::from_utf8`. -/
def fromUtf8 (data : Bytes) : Option String := String.fromUTF8? ⟨data.toArray⟩

def fromClipboard (clipboard : Clipboard) : Option ClipboardData :=
  let data := if clipboard.compress then decompress z clipboard.content else clipboard.content
  match enumValue clipboard.format with
  | some .text => (fromUtf8 data).map .text
  | some .rtf => (fromUtf8 data).map .rtf
  | some .html => (fromUtf8 data).map .html
  | some .imageRgba =>
    some (.image (.rgba (toUsize clipboard.width) (toUsize clipboard.height) data))
  | some .imagePng => some (.image (.png data))
  | some .imageSvg => some (.image (.svg ((fromUtf8 data).getD "")))
  | some .special => some (.special clipboard.specialName data)
  | none => none

def fromMultiClipboards (multiClipboards : List Clipboard) : List ClipboardData :=
  multiClipboards.filterMap (fromClipboard z)

/-! ## What is kept -/

/-- A number that an `i32` can stand for, with its sign. -/
def Fits (n : UInt64) : Prop := n.toNat < 2 ^ 31 ∨ 2 ^ 64 - 2 ^ 31 ≤ n.toNat

instance (n : UInt64) : Decidable (Fits n) := inferInstanceAs (Decidable (_ ∨ _))

/-- What is compressed can be unpacked if the compressor has not failed; else it has to be sent. -/
def PackKept (i : ℕ) (data plain : Bytes) : Prop :=
  if (compress z i data).length < data.length then compress z i data ≠ [] else plain = data

/-- What arrives of the `i`-th element of a list is the element. -/
def Kept (i : ℕ) : ClipboardData → Prop
  | .text s | .rtf s | .html s | .image (.svg s) => s = "" ∨ compress z i (asBytes s) ≠ []
  | .image (.rgba width height bytes) =>
    Fits width ∧ Fits height ∧ (bytes = [] ∨ compress z i bytes ≠ [])
  | .image (.png _) => True
  | .special s d => PackKept z i d (asBytes s)
  | .other => False

section Elements

variable {z} {i : ℕ} {data plain : Bytes}

theorem toUsize_toI32 (n : UInt64) : toUsize (toI32 n) = n ↔ Fits n := by
  have hbits : (toUsize (toI32 n)).toBitVec = (n.toBitVec.setWidth 32).signExtend 64 := rfl
  have hlt : n.toNat < 2 ^ 64 := n.toNat_lt
  rw [← UInt64.toBitVec_inj, hbits, ← BitVec.toNat_inj, BitVec.toNat_signExtend,
    BitVec.msb_eq_decide, Fits]
  by_cases hneg : 2147483648 ≤ n.toNat % 4294967296
  · simp [hneg]
    omega
  · simp [hneg]
    omega

/-- What the decoder gets back of what was packed. -/
def unpack (z : Zstd) (p : Bool × Bytes) : Bytes := if p.1 then decompress z p.2 else p.2

theorem decompress_nil : decompress z [] = [] := by
  unfold decompress
  cases hd : z.decodeAll [] with
  | none => rfl
  | some data => exact z.decodeAll_nil data hd

theorem decompress_compress (hc : compress z i data ≠ []) :
    decompress z (compress z i data) = data := by
  unfold compress at hc ⊢
  cases hres : z.compressor i data with
  | none => exact absurd (by rw [hres]; rfl) hc
  | some res => simp [decompress, z.decodeAll_compressor i data res hres]

theorem unpack_pack : unpack z (pack (compress z i data) data plain) = data ↔
    PackKept z i data plain := by
  unfold PackKept pack
  split
  · rename_i hlt
    show decompress z (compress z i data) = data ↔ _
    refine ⟨fun h hnil => ?_, decompress_compress⟩
    rw [hnil, decompress_nil] at h
    rw [← h] at hlt
    exact Nat.not_lt_zero _ hlt
  · exact Iff.rfl

variable (data) in
/-- What carries its own bytes arrives whole or not at all. -/
theorem unpack_pack_self : unpack z (pack (compress z i data) data data) = data ∨
    unpack z (pack (compress z i data) data data) = [] := by
  by_cases hc : compress z i data = []
  · rw [hc]
    unfold pack
    split
    · exact .inr decompress_nil
    · exact .inl rfl
  · refine .inl (unpack_pack.mpr ?_)
    unfold PackKept
    split
    · exact hc
    · rfl

theorem packKept_self : PackKept z i data data ↔ data = [] ∨ compress z i data ≠ [] := by
  unfold PackKept
  split
  · rename_i hlt
    have hne : data ≠ [] := List.ne_nil_of_length_pos (by omega)
    simp [hne]
  · rename_i hge
    refine iff_of_true rfl (or_iff_not_imp_left.mpr fun hne hnil => hge ?_)
    rw [hnil]
    exact List.length_pos_iff.mpr hne

theorem asBytes_empty : asBytes "" = [] := by
  rw [asBytes, toList_byteArray]
  rfl

theorem asBytes_eq_nil {s : String} : asBytes s = [] ↔ s = "" := by
  rw [← asBytes_empty]
  exact utf8_injective.eq_iff

theorem fromUtf8_eq {s : String} : fromUtf8 data = some s ↔ data = asBytes s := by
  refine ⟨fun h => (utf8_of_fromUTF8 h).symm, fun h => ?_⟩
  rw [h]
  exact fromUTF8_utf8 s

/-- A text arrives if its bytes do. -/
theorem fromUtf8_unpack {s : String} :
    fromUtf8 (unpack z (pack (compress z i (asBytes s)) (asBytes s) (asBytes s))) = some s ↔
      s = "" ∨ compress z i (asBytes s) ≠ [] := by
  rw [fromUtf8_eq, unpack_pack, packKept_self, asBytes_eq_nil]

/-- The text of a picture is empty if it cannot be read, which it can. -/
theorem svg_unpack {s : String} :
    (fromUtf8 (unpack z (pack (compress z i (asBytes s)) (asBytes s) (asBytes s)))).getD "" = s ↔
      s = "" ∨ compress z i (asBytes s) ≠ [] := by
  rw [← fromUtf8_unpack]
  rcases unpack_pack_self (z := z) (i := i) (asBytes s) with hall | hnone
  · rw [hall, fromUtf8_eq.mpr rfl]
    simp
  · rw [hnone, fromUtf8_eq.mpr asBytes_empty.symm]
    simp

theorem map_fromUtf8_unpack {s : String} {make : String → ClipboardData}
    (hmake : Function.Injective make) :
    (fromUtf8 (unpack z (pack (compress z i (asBytes s)) (asBytes s) (asBytes s)))).map make =
      some (make s) ↔ s = "" ∨ compress z i (asBytes s) ≠ [] := by
  rw [← fromUtf8_unpack, ← Option.map_some, (Option.map_injective hmake).eq_iff]

theorem image_kept {a : ImageData} :
    fromClipboard z (imageToProto z i a) = some (.image a) ↔ Kept z i (.image a) := by
  cases a with
  | rgba width height bytes =>
    show some (ClipboardData.image (.rgba (toUsize (toI32 width)) (toUsize (toI32 height))
      (unpack z (pack (compress z i bytes) bytes bytes)))) = _ ↔ _
    simp only [Option.some.injEq, ClipboardData.image.injEq, ImageData.rgba.injEq,
      toUsize_toI32, unpack_pack, packKept_self, Kept]
  | png bytes => exact iff_of_true rfl trivial
  | svg s =>
    show some (ClipboardData.image (.svg ((fromUtf8 (unpack z
      (pack (compress z i (asBytes s)) (asBytes s) (asBytes s)))).getD ""))) = _ ↔ _
    simp only [Option.some.injEq, ClipboardData.image.injEq, ImageData.svg.injEq, svg_unpack, Kept]

theorem special_kept {s : String} {d : Bytes} :
    fromClipboard z (specialToProto z i d s) = some (.special s d) ↔ Kept z i (.special s d) := by
  show some (ClipboardData.special s (unpack z (pack (compress z i d) d (asBytes s)))) = _ ↔ _
  simp only [Option.some.injEq, ClipboardData.special.injEq, true_and, unpack_pack, Kept]

theorem element_kept {data : ClipboardData} :
    (clipboardDataToProto z i data).bind (fromClipboard z) = some data ↔ Kept z i data := by
  cases data with
  | text s => exact map_fromUtf8_unpack fun _ _ => ClipboardData.text.inj
  | rtf s => exact map_fromUtf8_unpack fun _ _ => ClipboardData.rtf.inj
  | html s => exact map_fromUtf8_unpack fun _ _ => ClipboardData.html.inj
  | image a => exact image_kept
  | special s d => exact special_kept
  | other => exact iff_of_false (by rintro ⟨⟩) id

end Elements

/-! ## Lists -/

/-- A map that may drop elements gives all the first components precisely if it gives each. -/
theorem filterMap_eq_map_fst {α β : Type*} {f : α × β → Option α} (l : List (α × β)) :
    l.filterMap f = l.map Prod.fst ↔ ∀ p ∈ l, f p = some p.1 := by
  induction l with
  | nil => simp
  | cons p l ih =>
    rw [List.forall_mem_cons, ← ih, List.map_cons]
    cases hp : f p with
    | none =>
      rw [List.filterMap_cons_none hp]
      refine iff_of_false (fun h => ?_) (by rintro ⟨⟨⟩, _⟩)
      have hle : (l.filterMap f).length ≤ l.length := List.length_filterMap_le f l
      rw [h] at hle
      simp at hle
    | some a =>
      rw [List.filterMap_cons_some hp]
      simp

/-- What arrives is what was sent, precisely if every element is kept. -/
theorem fromMultiClipboards_iff (vecData : List ClipboardData) :
    fromMultiClipboards z (createMultiClipboards z vecData) = vecData ↔
      ∀ i data, vecData[i]? = some data → Kept z i data := by
  have hboth : fromMultiClipboards z (createMultiClipboards z vecData) =
      vecData.zipIdx.filterMap fun (data, i) =>
        (clipboardDataToProto z i data).bind (fromClipboard z) := List.filterMap_filterMap
  have hfst : vecData.zipIdx.map Prod.fst = vecData := List.zipIdx_map_fst 0 vecData
  calc fromMultiClipboards z (createMultiClipboards z vecData) = vecData
    _ ↔ ∀ p ∈ vecData.zipIdx, Kept z p.2 p.1 := by
        nth_rewrite 2 [← hfst]
        rw [hboth, filterMap_eq_map_fst]
        exact forall₂_congr fun p _ => element_kept
    _ ↔ ∀ i data, vecData[i]? = some data → Kept z i data := by
        simp only [Prod.forall, List.mem_zipIdx_iff_getElem?]
        exact forall_comm

/-- A compressor that puts a byte in front, and fails at the elements of `fails`. -/
def storing (fails : List ℕ) : Zstd where
  compressor i data := if i ∈ fails then none else some (0x28 :: data)
  decodeAll
    | [] => none
    | _ :: data => some data
  decodeAll_compressor i data res hres := by
    split at hres
    · cases hres
    · cases hres
      rfl
  decodeAll_nil := by rintro data ⟨⟩

/-- Three bytes that do not get shorter arrive as the name of their format. -/
theorem special_data_lost : ¬ ∀ (z : Zstd) (vecData : List ClipboardData),
    (∀ data ∈ vecData, data ≠ .other) →
      fromMultiClipboards z (createMultiClipboards z vecData) = vecData := by
  intro hall
  have hname : asBytes "x" = [120] := by
    rw [asBytes, utf8_eq_flatMap]
    rfl
  have hgot : fromMultiClipboards (storing [])
      (createMultiClipboards (storing []) [.special "x" [1, 2, 3]]) =
        [.special "x" (asBytes "x")] := rfl
  have hsent := hall (storing []) [.special "x" [1, 2, 3]] (by simp)
  rw [hgot, hname] at hsent
  exact absurd hsent (by decide)

end ClipboardContents

end LuodaRemote
