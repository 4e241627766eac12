/-
  The pixels of a screenshot (`get_rgba_from_pixelbuf` of `src/server/video_service.rs`, with
  `convert` of `libs/scrap/src/common/convert.rs`).

  A buffer without padding is left to `convert`, which knows the formats but gives back as many
  bytes as it was given, those behind the last row included. With padding the bytes are taken for
  BGRA, whatever the format says. `rgba_iff` says for which buffers the result is the picture.

  `ABGRToARGB` of libyuv is a parameter: when it does not refuse, it swaps the first and the third
  byte of each pixel of the rows it is given, as long as its numbers fit in a `c_int`.
-/
import LuodaRemote.Lib.Blocks
import LuodaRemote.Lib.Checked
import LuodaRemote.Message

namespace LuodaRemote
open Lib

namespace Screenshot

/-! ## Buffers -/

inductive Pixfmt where
  | bgra
  | rgba
  | rgb565le
  | i420
  | nv12
  | i444
deriving DecidableEq

/-- As `{:?}` writes it. -/
def Pixfmt.debug : Pixfmt → String
  | .bgra => "BGRA"
  | .rgba => "RGBA"
  | .rgb565le => "RGB565LE"
  | .i420 => "I420"
  | .nv12 => "NV12"
  | .i444 => "I444"

def Pixfmt.bpp : Pixfmt → ℕ
  | .bgra | .rgba => 32
  | .rgb565le => 16
  | .i420 | .nv12 => 12
  | .i444 => 24

def Pixfmt.bytesPerPixel (f : Pixfmt) : ℕ := (f.bpp + 7) / 8

structure PixelBuffer where
  data : Bytes
  pixfmt : Pixfmt
  width : ℕ
  height : ℕ
  stride : List ℕ
deriving DecidableEq

inductive PixelError where
  | bail (msg : String)
  /-- `call_yuv` with the message of the failed call. -/
  | failedCall (msg : String)
  /-- A panic. -/
  | indexOutOfBounds
deriving DecidableEq

/-- libyuv: source with its stride, target with its stride, width and height. -/
structure Libyuv where
  abgrToArgb : Bytes → Int32 → Bytes → Int32 → Int32 → Int32 → Except String Bytes
  /-- The target keeps its length, and what the rows say is there with two bytes swapped. -/
  swaps : ∀ (src dst res : Bytes) (s w h : ℕ), s < 2 ^ 31 → h < 2 ^ 31 → 4 * w ≤ s →
    s * h ≤ src.length → s * h ≤ dst.length →
    abgrToArgb src (.ofNat s) dst (.ofNat s) (.ofNat w) (.ofNat h) = .ok res →
    res.length = dst.length ∧ ∀ y < h, ∀ x < w,
      (res.drop (s * y + 4 * x)).take 4 =
        [src.getD (s * y + 4 * x + 2) 0, src.getD (s * y + 4 * x + 1) 0,
          src.getD (s * y + 4 * x) 0, src.getD (s * y + 4 * x + 3) 0]

/-! ## The conversion -/

variable (yuv : Libyuv)

def convert (captured : PixelBuffer) (pixfmt : Pixfmt) (dst : Bytes) : Except PixelError Bytes :=
  if captured.pixfmt = pixfmt then .ok (dst ++ captured.data)
  else
    match captured.pixfmt, pixfmt with
    | .bgra, .rgba | .rgba, .bgra =>
      let stride := Int32.ofNat (captured.stride.getD 0 0)
      match yuv.abgrToArgb captured.data stride (List.replicate captured.data.length 0) stride
          (.ofNat captured.width) (.ofNat captured.height) with
      | .ok dst => .ok dst
      | .error msg => .error (.failedCall msg)
    | _, _ => .error (.bail ("unsupported pixfmt conversion: " ++ captured.pixfmt.debug ++ " -> " ++
        pixfmt.debug))

/-- `&[bgra[i + 2], bgra[i + 1], bgra[i], bgra[i + 3]]`. -/
def flipAt (bgra : Bytes) (i : ℕ) : Except PixelError Bytes :=
  match bgra[i + 2]?, bgra[i + 1]?, bgra[i]?, bgra[i + 3]? with
  | some r, some g, some b, some a => .ok [r, g, b, a]
  | _, _, _, _ => .error .indexOutOfBounds

def getRgbaFromPixelbuf (pixbuf : PixelBuffer) : Except PixelError Bytes :=
  match pixbuf.stride with
  | [] => .error (.bail "Invalid pixel buf stride.")
  | s :: _ =>
    if s = pixbuf.width * 4 then convert yuv pixbuf .rgba []
    else
      ((grid pixbuf.width pixbuf.height).mapM fun (x, y) =>
        flipAt pixbuf.data (s * y + 4 * x)).map List.flatten

/-! ## The picture -/

namespace PixelBuffer

variable (p : PixelBuffer)

/-- Where the pixel begins. -/
def offset (x y : ℕ) : ℕ := p.stride.getD 0 0 * y + p.pixfmt.bytesPerPixel * x

def byte (i : ℕ) : UInt8 := p.data.getD i 0

/-- `n` bits, repeated from the top to make eight. -/
def scale (n v : ℕ) : UInt8 := .ofNat (v * 2 ^ (8 - n) + v / 2 ^ (2 * n - 8))

/-- The value of a pixel: red, green, blue and alpha. -/
def pixel (x y : ℕ) : Bytes :=
  let i := p.offset x y
  match p.pixfmt with
  | .bgra => [p.byte (i + 2), p.byte (i + 1), p.byte i, p.byte (i + 3)]
  | .rgba => [p.byte i, p.byte (i + 1), p.byte (i + 2), p.byte (i + 3)]
  | .rgb565le =>
    let v := (p.byte i).toNat + 256 * (p.byte (i + 1)).toNat
    [scale 5 (v / 2048), scale 6 (v / 32 % 64), scale 5 (v % 32), 255]
  | _ => [0, 0, 0, 0]

/-- The bytes are those of the pixels, row by row and nothing else. -/
structure IsPicture (rgba : Bytes) : Prop where
  length : rgba.length = 4 * (p.width * p.height)
  pixel : ∀ y < p.height, ∀ x < p.width, block 4 (p.width * y + x) rgba = p.pixel x y

/-- A frame of one of the formats of a display: a stride, and data for all the rows. -/
structure WellFormed : Prop where
  format : p.pixfmt = .bgra ∨ p.pixfmt = .rgba ∨ p.pixfmt = .rgb565le
  stride : p.stride ≠ []
  row : p.width * p.pixfmt.bytesPerPixel ≤ p.stride.getD 0 0
  rows : p.stride.getD 0 0 * p.height ≤ p.data.length

/-- What is promised: an error, or the picture, and no index outside the data. -/
def Converts : Prop :=
  match getRgbaFromPixelbuf yuv p with
  | .ok rgba => p.IsPicture rgba
  | .error e => e ≠ .indexOutOfBounds

/-- Four bytes are there and are, with two of them swapped, the pixel. -/
def TakenForBgra (x y : ℕ) : Prop :=
  let i := p.stride.getD 0 0 * y + 4 * x
  i + 3 < p.data.length ∧ p.pixel x y = [p.byte (i + 2), p.byte (i + 1), p.byte i, p.byte (i + 3)]

/-- What libyuv is given, and what it makes of it. -/
def swapped : Except String Bytes :=
  yuv.abgrToArgb p.data (.ofNat (p.stride.getD 0 0)) (List.replicate p.data.length 0)
    (.ofNat (p.stride.getD 0 0)) (.ofNat p.width) (.ofNat p.height)

/-- libyuv does not take the buffer. -/
def Refused : Prop := ∃ msg, p.swapped yuv = .error msg

/-- Without padding, no bytes behind the last row, unless the conversion is refused; with padding,
    BGRA, or pixels that look the same. -/
def Fits : Prop :=
  if p.stride.getD 0 0 = p.width * 4 then
    p.data.length = 4 * (p.width * p.height) ∨ p.pixfmt = .rgb565le ∨
      p.pixfmt = .bgra ∧ p.Refused yuv
  else p.pixfmt = .bgra ∨ ∀ y < p.height, ∀ x < p.width, p.TakenForBgra x y

end PixelBuffer

/-! ## Without padding -/

section Cases

variable {yuv} {p : PixelBuffer} {x y i : ℕ}

theorem take_four {data : Bytes} (hi : i + 3 < data.length) : (data.drop i).take 4 =
    [data.getD i 0, data.getD (i + 1) 0, data.getD (i + 2) 0, data.getD (i + 3) 0] := by
  have h0 : i < data.length := by omega
  have h1 : i + 1 < data.length := by omega
  have h2 : i + 2 < data.length := by omega
  rw [List.drop_eq_getElem_cons h0, List.drop_eq_getElem_cons h1, List.drop_eq_getElem_cons h2,
    List.drop_eq_getElem_cons hi]
  simp [h0, h1, h2, hi, -List.getElem_cons_drop]

/-- The four bytes of a place in a row that has room for them. -/
theorem in_data (hp : p.WellFormed) (hx : x < p.width) (hy : y < p.height)
    (hw : 4 * p.width ≤ p.stride.getD 0 0) :
    p.stride.getD 0 0 * y + 4 * x + 3 < p.data.length := by
  have hrow : p.stride.getD 0 0 * (y + 1) ≤ p.stride.getD 0 0 * p.height :=
    Nat.mul_le_mul_left _ hy
  have hrows := hp.rows
  rw [Nat.mul_succ] at hrow
  omega

/-- Where the pixel begins, if there is no padding. -/
theorem place_eq (hs : p.stride.getD 0 0 = p.width * 4) :
    p.stride.getD 0 0 * y + 4 * x = 4 * (p.width * y + x) := by
  rw [hs]
  ring

theorem convert_rgba (hf : p.pixfmt = .rgba) : convert yuv p .rgba [] = .ok p.data := by
  unfold convert
  exact if_pos hf

variable (yuv) in
theorem convert_rgb565le (hf : p.pixfmt = .rgb565le) : ∃ msg, convert yuv p .rgba [] =
    .error (.bail msg) := by
  unfold convert
  rw [if_neg (by rw [hf]; decide), hf]
  exact ⟨_, rfl⟩

theorem convert_bgra (hf : p.pixfmt = .bgra) :
    convert yuv p .rgba [] = (p.swapped yuv).mapError .failedCall := by
  unfold convert PixelBuffer.swapped
  rw [if_neg (by rw [hf]; decide), hf]
  dsimp only
  split
  · rename_i hres
    rw [hres]
    rfl
  · rename_i hres
    rw [hres]
    rfl

theorem offset_four (hbytes : p.pixfmt.bytesPerPixel = 4) (x y : ℕ) :
    p.offset x y = p.stride.getD 0 0 * y + 4 * x := by
  rw [PixelBuffer.offset, hbytes]

theorem isPicture_rgba (hp : p.WellFormed) (hf : p.pixfmt = .rgba)
    (hs : p.stride.getD 0 0 = p.width * 4) :
    p.IsPicture p.data ↔ p.data.length = 4 * (p.width * p.height) := by
  refine ⟨fun h => h.length, fun hlen => ⟨hlen, fun y hy x hx => ?_⟩⟩
  have hin := in_data hp hx hy (by omega)
  have hoffset := offset_four (by rw [hf]; rfl) x y
  rw [block, ← place_eq hs, take_four hin, PixelBuffer.pixel, hf, hoffset]
  rfl

theorem isPicture_swapped (hp : p.WellFormed) (hf : p.pixfmt = .bgra)
    (hs : p.stride.getD 0 0 = p.width * 4) (hint : p.stride.getD 0 0 < 2 ^ 31)
    (hheight : p.height < 2 ^ 31) {res : Bytes}
    (hres : p.swapped yuv = .ok res) :
    p.IsPicture res ↔ p.data.length = 4 * (p.width * p.height) := by
  have hrows := hp.rows
  obtain ⟨hlen, hpixels⟩ := yuv.swaps _ _ res _ _ _ hint hheight (by omega) hrows
    (by rw [List.length_replicate]; exact hrows) hres
  rw [List.length_replicate] at hlen
  refine ⟨fun h => hlen.symm.trans h.length, fun hall => ⟨hlen.trans hall, fun y hy x hx => ?_⟩⟩
  have hoffset := offset_four (by rw [hf]; rfl) x y
  rw [block, ← place_eq hs, hpixels y hy x hx, PixelBuffer.pixel, hf, hoffset]
  rfl

/-! ## With padding -/

theorem flipAt_ok {data : Bytes} (hi : i + 3 < data.length) : flipAt data i =
    .ok [data.getD (i + 2) 0, data.getD (i + 1) 0, data.getD i 0, data.getD (i + 3) 0] := by
  have h0 : i < data.length := by omega
  have h1 : i + 1 < data.length := by omega
  have h2 : i + 2 < data.length := by omega
  unfold flipAt
  simp only [List.getElem?_eq_getElem, h0, h1, h2, hi]
  simp [h0, h1, h2, hi]

theorem flipAt_error {data : Bytes} (hi : ¬ i + 3 < data.length) :
    flipAt data i = .error .indexOutOfBounds := by
  have h3 : data[i + 3]? = none := List.getElem?_eq_none (Nat.le_of_not_lt hi)
  unfold flipAt
  rw [h3]
  split
  · rename_i hnone
    cases hnone
  · rfl

/-- What the loop gives, as long as it stays within the data. -/
theorem flip_ok {s : ℕ}
    (hin : ∀ y < p.height, ∀ x < p.width, s * y + 4 * x + 3 < p.data.length) :
    ((grid p.width p.height).mapM fun (x, y) => flipAt p.data (s * y + 4 * x)).map List.flatten =
      .ok ((grid p.width p.height).flatMap fun (x, y) =>
        [p.byte (s * y + 4 * x + 2), p.byte (s * y + 4 * x + 1), p.byte (s * y + 4 * x),
          p.byte (s * y + 4 * x + 3)]) := by
  rw [mapM_ok (g := fun (q : ℕ × ℕ) => [p.byte (s * q.2 + 4 * q.1 + 2),
    p.byte (s * q.2 + 4 * q.1 + 1), p.byte (s * q.2 + 4 * q.1), p.byte (s * q.2 + 4 * q.1 + 3)])]
  · rfl
  · intro q hq
    obtain ⟨hx, hy⟩ := mem_grid.mp hq
    exact flipAt_ok (hin q.2 hy q.1 hx)

theorem flip_error {s : ℕ}
    (hout : ¬ ∀ y < p.height, ∀ x < p.width, s * y + 4 * x + 3 < p.data.length) :
    ((grid p.width p.height).mapM fun (x, y) => flipAt p.data (s * y + 4 * x)).map List.flatten =
      .error .indexOutOfBounds := by
  rw [mapM_error]
  · rfl
  · intro q _
    by_cases hi : s * q.2 + 4 * q.1 + 3 < p.data.length
    · exact .inr ⟨_, flipAt_ok hi⟩
    · exact .inl (flipAt_error hi)
  · push Not at hout
    obtain ⟨y, hy, x, hx, hle⟩ := hout
    exact ⟨(x, y), mem_grid.mpr ⟨hx, hy⟩, flipAt_error (Nat.not_lt.mpr hle)⟩

theorem length_pixel (hp : p.WellFormed) (x y : ℕ) : (p.pixel x y).length = 4 := by
  unfold PixelBuffer.pixel
  rcases hp.format with hf | hf | hf
  · rw [hf]
    rfl
  · rw [hf]
    rfl
  · rw [hf]
    rfl

/-- The picture, put together from its pixels. -/
theorem isPicture_iff (hp : p.WellFormed) {rgba : Bytes} :
    p.IsPicture rgba ↔ rgba = (grid p.width p.height).flatMap fun q => p.pixel q.1 q.2 := by
  rw [eq_flatMap_grid_iff (k := 4) fun q _ => length_pixel hp q.1 q.2]
  exact ⟨fun h => ⟨h.length, h.pixel⟩, fun h => ⟨h.1, h.2⟩⟩

/-- Pictures of blocks of four are the same if their blocks are. -/
theorem isPicture_flatMap (hp : p.WellFormed) {f : ℕ × ℕ → Bytes} (hf : ∀ q, (f q).length = 4) :
    p.IsPicture ((grid p.width p.height).flatMap f) ↔
      ∀ y < p.height, ∀ x < p.width, p.pixel x y = f (x, y) := by
  rw [isPicture_iff hp, eq_comm, eq_flatMap_grid_iff (k := 4) fun q _ => hf q]
  have hpicture := (isPicture_iff hp).mpr rfl
  refine ⟨fun h y hy x hx => ?_, fun h => ⟨hpicture.length, fun y hy x hx => ?_⟩⟩
  · rw [← hpicture.pixel y hy x hx]
    exact h.2 y hy x hx
  · rw [hpicture.pixel y hy x hx]
    exact h y hy x hx

theorem takenForBgra_bgra (hp : p.WellFormed) (hf : p.pixfmt = .bgra) (hx : x < p.width)
    (hy : y < p.height) : p.TakenForBgra x y := by
  have hrow := hp.row
  have hbytes : p.pixfmt.bytesPerPixel = 4 := by
    rw [hf]
    rfl
  rw [hbytes] at hrow
  refine ⟨in_data hp hx hy (by omega), ?_⟩
  rw [PixelBuffer.pixel, hf, PixelBuffer.offset, hf]
  rfl

theorem getD_of_eq_cons {xs rest : List ℕ} {s : ℕ} (h : xs = s :: rest) : xs.getD 0 0 = s := by
  rw [h]
  rfl

theorem converts_padded (hp : p.WellFormed) (hs : p.stride.getD 0 0 ≠ p.width * 4) :
    p.Converts yuv ↔ ∀ y < p.height, ∀ x < p.width, p.TakenForBgra x y := by
  obtain ⟨s, rest, hstride⟩ := List.exists_cons_of_ne_nil hp.stride
  have hgetD : p.stride.getD 0 0 = s := getD_of_eq_cons hstride
  rw [hgetD] at hs
  unfold PixelBuffer.Converts getRgbaFromPixelbuf
  rw [hstride]
  dsimp only
  rw [if_neg hs]
  by_cases hin : ∀ y < p.height, ∀ x < p.width, s * y + 4 * x + 3 < p.data.length
  · rw [flip_ok hin]
    dsimp only
    rw [isPicture_flatMap hp fun q => rfl]
    refine forall₂_congr fun y hy => forall₂_congr fun x hx => ?_
    unfold PixelBuffer.TakenForBgra
    rw [hgetD]
    exact (and_iff_right (hin y hy x hx)).symm
  · rw [flip_error hin]
    refine iff_of_false (fun h => h rfl) fun h => hin fun y hy x hx => ?_
    have htaken := (h y hy x hx).1
    rwa [hgetD] at htaken

theorem converts_unpadded (hp : p.WellFormed) (hint : p.stride.getD 0 0 < 2 ^ 31)
    (hheight : p.height < 2 ^ 31) (hs : p.stride.getD 0 0 = p.width * 4) :
    p.Converts yuv ↔ p.data.length = 4 * (p.width * p.height) ∨ p.pixfmt = .rgb565le ∨
      p.pixfmt = .bgra ∧ p.Refused yuv := by
  obtain ⟨s, rest, hstride⟩ := List.exists_cons_of_ne_nil hp.stride
  have hgetD : p.stride.getD 0 0 = s := getD_of_eq_cons hstride
  have hconvert : getRgbaFromPixelbuf yuv p = convert yuv p .rgba [] := by
    unfold getRgbaFromPixelbuf
    rw [hstride]
    exact if_pos (hgetD.symm.trans hs)
  unfold PixelBuffer.Converts
  rw [hconvert]
  rcases hp.format with hf | hf | hf
  · rw [convert_bgra hf]
    cases hres : p.swapped yuv with
    | error msg => exact iff_of_true (by rintro ⟨⟩) (.inr (.inr ⟨hf, msg, hres⟩))
    | ok res =>
      refine (isPicture_swapped hp hf hs hint hheight hres).trans ⟨.inl, fun h => ?_⟩
      refine h.resolve_right ?_
      rintro (h565 | ⟨_, msg, hmsg⟩)
      · rw [hf] at h565
        cases h565
      · rw [hres] at hmsg
        cases hmsg
  · rw [convert_rgba hf]
    refine (isPicture_rgba hp hf hs).trans ⟨.inl, fun h => h.resolve_right ?_⟩
    rw [hf]
    rintro (h565 | ⟨hbgra, _⟩)
    · cases h565
    · cases hbgra
  · obtain ⟨msg, hmsg⟩ := convert_rgb565le yuv hf
    rw [hmsg]
    exact iff_of_true (by rintro ⟨⟩) (.inr (.inl hf))

end Cases

/-! ## Every buffer -/

/-- The result is an error or the picture precisely for the buffers that fit. -/
theorem rgba_iff (yuv : Libyuv) (p : PixelBuffer) (hp : p.WellFormed)
    (hint : p.stride.getD 0 0 < 2 ^ 31) (hheight : p.height < 2 ^ 31) :
    p.Converts yuv ↔ p.Fits yuv := by
  unfold PixelBuffer.Fits
  by_cases hs : p.stride.getD 0 0 = p.width * 4
  · rw [if_pos hs]
    exact converts_unpadded hp hint hheight hs
  · rw [if_neg hs, converts_padded hp hs]
    refine ⟨.inr, ?_⟩
    rintro (hf | htaken)
    · exact fun y hy x hx => takenForBgra_bgra hp hf hx hy
    · exact htaken

/-- Two rows of two pixels. -/
def fourPixels : Bytes := [1, 2, 3, 4, 5, 6, 7, 8, 9, 10, 11, 12, 13, 14, 15, 16]

/-- A libyuv that takes this picture only. -/
def fourPixelYuv : Libyuv where
  abgrToArgb src s dst _ w h :=
    if src = fourPixels ∧ dst.length = 16 ∧ s = .ofNat 8 ∧ w = .ofNat 2 ∧ h = .ofNat 2 then
      .ok [3, 2, 1, 4, 7, 6, 5, 8, 11, 10, 9, 12, 15, 14, 13, 16]
    else .error "errcode=-1"
  swaps := by
    intro src dst res s w h hs hh hw hsrc hdst hres
    split at hres
    · rename_i hall
      obtain ⟨rfl, hlen, hs8, _, hh2⟩ := hall
      cases hres
      have hs8 : s = 8 := by
        have hint := congrArg Int32.toInt hs8
        rw [Int32.toInt_ofNat_of_lt hs, Int32.toInt_ofNat_of_lt (by norm_num)] at hint
        exact_mod_cast hint
      have hh2 : h = 2 := by
        have hint := congrArg Int32.toInt hh2
        rw [Int32.toInt_ofNat_of_lt hh, Int32.toInt_ofNat_of_lt (by norm_num)] at hint
        exact_mod_cast hint
      subst hs8
      subst hh2
      refine ⟨hlen.symm, fun y hy x hx => ?_⟩
      have hx2 : x < 2 := by omega
      interval_cases y
      all_goals
        interval_cases x
        all_goals decide
    · cases hres

theorem rgba_iff_fourPixels :
    PixelBuffer.Converts fourPixelYuv ⟨fourPixels, .bgra, 2, 2, [8]⟩ :=
  (rgba_iff fourPixelYuv ⟨fourPixels, .bgra, 2, 2, [8]⟩ ⟨.inl rfl, by decide, by decide, by decide⟩
    (by decide) (by decide)).mpr (.inl rfl)

/-- The padded pixel of an RGBA buffer has red and blue exchanged. -/
theorem padded_rgba_swapped :
    ¬ ∀ (yuv : Libyuv) (p : PixelBuffer), p.WellFormed → p.Converts yuv := by
  intro hall
  have hconverts := hall fourPixelYuv ⟨[255, 0, 0, 255, 0, 0, 0, 0], .rgba, 1, 1, [8]⟩
    ⟨.inr (.inl rfl), by decide, by decide, by decide⟩
  have hpixel := PixelBuffer.IsPicture.pixel hconverts 0 (by decide) 0 (by decide)
  exact absurd hpixel (by decide)

end Screenshot

end LuodaRemote
