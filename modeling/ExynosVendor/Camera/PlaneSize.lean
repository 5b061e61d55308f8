import Mathlib.Algebra.Ring.Nat
import Mathlib.Tactic.Common

/-!
# The sizes of camera planes

`getBayerPlaneSize`, `getYuvPlaneSize` and `getV4l2FormatInfo` of `ExynosCameraUtils.cpp`.
The arithmetic is on 32 bits: `error` is the first operation that divides by zero or wraps.
What `videodev2_exynos_media.h` defines is left open.
-/

namespace ExynosVendor.Camera.PlaneSize

inductive Status
  | noError
  | badValue
  deriving DecidableEq

/-- What may go wrong in a computation of sizes. -/
inductive Fault
  | divisionByZero
  | wrapped
  deriving DecidableEq

/-- The `V4L2_PIX_FMT_` formats that the functions know, and the others. -/
inductive Format
  | BGR32 | RGB32 | RGB24 | RGB565X
  | NV12 | NV21 | NV12M | NV21M | NV12MT | NV12MT_16X16
  | YUV420 | YVU420 | YUV420M | YVU420M
  | NV12M_P010 | NV12M_S10B
  | YUYV | YVYU | UYVY | VYUY
  | NV16 | NV61 | NV16M | NV61M | NV16M_P210 | NV16M_S10B | YUV422P
  | SBGGR16 | SBGGR12 | SBGGR12P | SBGGR10 | SBGGR10P | SBGGR8 | SGRBG8 | Z16
  | other
  deriving DecidableEq

/-- `camera_pixel_size`; `other` is from `CAMERA_PIXEL_SIZE_12BIT` on. -/
inductive PixelSize
  | eightBit
  | tenBit
  | packedTenBit
  | eightTwoBit
  | other
  deriving DecidableEq

/-- What the media header gives: the alignment macros are one, and the sizes of the planes
of the formats that keep two bits of a pixel apart. -/
structure MediaHeader where
  ALIGN_UP : ℕ → ℕ → ℕ
  NV12M_Y_SIZE : ℕ → ℕ → ℕ
  NV12M_Y_2B_SIZE : ℕ → ℕ → ℕ
  NV12M_CBCR_SIZE : ℕ → ℕ → ℕ
  NV12M_CBCR_2B_SIZE : ℕ → ℕ → ℕ
  NV16M_Y_SIZE : ℕ → ℕ → ℕ
  NV16M_Y_2B_SIZE : ℕ → ℕ → ℕ
  NV16M_CBCR_SIZE : ℕ → ℕ → ℕ
  NV16M_CBCR_2B_SIZE : ℕ → ℕ → ℕ

/-! ## Arithmetic -/

def mul (a b : ℕ) : Except Fault ℕ := if a * b < 2 ^ 32 then .ok (a * b) else .error .wrapped

def sub (a b : ℕ) : Except Fault ℕ := if b ≤ a then .ok (a - b) else .error .wrapped

def div (a b : ℕ) : Except Fault ℕ := if b = 0 then .error .divisionByZero else .ok (a / b)

/-- A product of `int`. -/
def imul (a b : ℕ) : Except Fault ℕ := if a * b < 2 ^ 31 then .ok (a * b) else .error .wrapped

/-! ## Bayer -/

/-- `ROUND_UP` to `CAMERA_16PX_ALIGN`. -/
def roundUp (x : ℕ) : ℕ := (x + 15) / 16 * 16

/-- A format that is not handled is taken for two bytes a pixel. -/
def getBayerLineSize (width : ℕ) : Format → Except Fault ℕ
  | .RGB24 => return roundUp (← imul width 3)
  | .SBGGR16 | .SBGGR10 | .SBGGR12 => return roundUp (← imul width 2)
  | .SBGGR12P => return roundUp ((← imul width 13) / 8)
  | .SBGGR10P => return roundUp ((← imul width 5) / 4)
  | .SBGGR8 | .SGRBG8 | .UYVY => return roundUp width
  | _ => return roundUp (← imul width 2)

def getBayerPlaneSize (width height : ℕ) (bayerFormat : Format) : Except Fault ℕ :=
  if width = 0 ∨ height = 0 then return 0
  else do
    let bytesPerLine ← getBayerLineSize width bayerFormat
    imul bytesPerLine height

/-! ## Formats -/

/-- The bits of a pixel and the planes, or `none` for a format that is not accepted. -/
def getV4l2FormatInfo (format : Format) (pixelSize : PixelSize) : Option (ℕ × ℕ) :=
  match format with
  | .NV12 | .NV21 => some (12, 1)
  | .NV12M | .NV21M | .NV12MT | .NV12MT_16X16 => some (12, 2)
  | .YUV420 | .YVU420 => some (12, 1)
  | .YUV420M | .YVU420M => some (12, 3)
  | .NV12M_P010 =>
      match pixelSize with
      | .tenBit => some (24, 2)
      | .packedTenBit => some (15, 2)
      | _ => some (0, 2)
  | .NV12M_S10B => some (15, 2)
  | .YUYV | .YVYU | .UYVY | .VYUY =>
      match pixelSize with
      | .eightBit => some (16, 1)
      | .tenBit => some (32, 1)
      | .packedTenBit => some (20, 1)
      | _ => some (0, 1)
  | .NV16 | .NV61 => some (16, 1)
  | .NV16M | .NV61M => some (16, 2)
  | .NV16M_P210 =>
      match pixelSize with
      | .tenBit => some (32, 2)
      | .packedTenBit => some (20, 2)
      | _ => some (0, 2)
  | .NV16M_S10B => some (20, 2)
  | .YUV422P => some (16, 3)
  | .SBGGR16 => some (16, 1)
  | .SBGGR12 => some (12, 1)
  | .SBGGR12P => some (13, 1)
  | .SBGGR10 => some (10, 1)
  | .SBGGR8 | .SGRBG8 | .RGB24 => some (8, 1)
  | .Z16 => some (16, 1)
  | _ => none

/-! ## Compressed planes -/

variable (header : MediaHeader) (width height : ℕ)

def SBWC_8B_STRIDE : Except Fault ℕ := mul 128 ((width + 31) / 32)

def SBWC_10B_STRIDE : Except Fault ℕ := mul 160 ((width + 31) / 32)

def SBWC_HEADER_STRIDE : Except Fault ℕ := mul (((width + 63) / 64 + 15) / 16) 16

def SBWC_Y_VSTRIDE_BLOCKS : ℕ := (header.ALIGN_UP height 8 + 3) / 4

def SBWC_CBCR_VSTRIDE_BLOCKS : ℕ := (header.ALIGN_UP height 8 / 2 + 3) / 4

def SBWC_8B_Y_SIZE : Except Fault ℕ := do
  return (← mul (← SBWC_8B_STRIDE width) (SBWC_Y_VSTRIDE_BLOCKS header height)) + 64

def SBWC_Y_HEADER_SIZE : Except Fault ℕ := do
  let blocks ← mul (← SBWC_HEADER_STRIDE width) (SBWC_Y_VSTRIDE_BLOCKS header height)
  return header.ALIGN_UP (blocks + 256) 32

def SBWC_8B_CBCR_SIZE : Except Fault ℕ := do
  return (← mul (← SBWC_8B_STRIDE width) (SBWC_CBCR_VSTRIDE_BLOCKS header height)) + 64

def SBWC_CBCR_HEADER_SIZE : Except Fault ℕ := do
  return (← mul (← SBWC_HEADER_STRIDE width) (SBWC_CBCR_VSTRIDE_BLOCKS header height)) + 128

def SBWC_10B_Y_SIZE : Except Fault ℕ := do
  return (← mul (← SBWC_10B_STRIDE width) (SBWC_Y_VSTRIDE_BLOCKS header height)) + 64

def SBWC_10B_CBCR_SIZE : Except Fault ℕ := do
  return (← mul (← SBWC_10B_STRIDE width) (SBWC_CBCR_VSTRIDE_BLOCKS header height)) + 64

/-- The two planes of 8 bits, each with its header. -/
def comp8 : Except Fault (ℕ × ℕ) := do
  let y := (← SBWC_8B_Y_SIZE header width height) + (← SBWC_Y_HEADER_SIZE header width height)
  let cbcr :=
    (← SBWC_8B_CBCR_SIZE header width height) + (← SBWC_CBCR_HEADER_SIZE header width height)
  return (y, cbcr)

/-- The two planes of 10 bits, each with its header. -/
def comp10 : Except Fault (ℕ × ℕ) := do
  let y := (← SBWC_10B_Y_SIZE header width height) + (← SBWC_Y_HEADER_SIZE header width height)
  let cbcr :=
    (← SBWC_10B_CBCR_SIZE header width height) + (← SBWC_CBCR_HEADER_SIZE header width height)
  return (y, cbcr)

/-! ## YUV -/

/-- The entries of `size` that were set. -/
structure Sizes where
  size0 : Option ℕ
  size1 : Option ℕ
  size2 : Option ℕ
  deriving DecidableEq

def Sizes.unset : Sizes := ⟨none, none, none⟩

/-- `frame_size` and `frame_ratio`; the latter is computed for every format. `none` is a
pixel size that is not handled. -/
def frameSizeRatio (pixelSize : PixelSize) (src_bpp src_planes : ℕ) :
    Except Fault (Option (ℕ × ℕ)) :=
  match pixelSize with
  | .eightBit => do
      let frame_size ← mul width height
      let frame_ratio ← div (8 * (src_planes - 1)) (← sub src_bpp 8)
      return some (frame_size, frame_ratio)
  | .tenBit => do
      let frame_size ← mul (← mul width 2) height
      let frame_ratio ← div (16 * (src_planes - 1)) (← sub src_bpp 16)
      return some (frame_size, frame_ratio)
  | .packedTenBit | .eightTwoBit => do
      -- `(double)(width * 2) * (10.0 / 16.0)` is exact
      let frame_size ← mul (header.ALIGN_UP ((← mul width 2) * 10 / 16) 16) height
      let frame_ratio ← div (10 * (src_planes - 1)) (← sub src_bpp 10)
      return some (frame_size, frame_ratio)
  | .other => return none

/-- Two planes, the larger of the plain and the compressed size each. -/
def twoPlanes (size0 size1 : ℕ) (comp : Except Fault (ℕ × ℕ)) (isComp : Bool) :
    Except Fault (Status × Sizes) :=
  if isComp then do
    let (compSize0, compSize1) ← comp
    return (.noError, ⟨some (max compSize0 size0), some (max compSize1 size1), some 0⟩)
  else return (.noError, ⟨some size0, some size1, some 0⟩)

/-- The formats of one plane. `return false` for the others reads as `NO_ERROR`. -/
def onePlane (format : Format) (frame_size : ℕ) (isComp : Bool) :
    Except Fault (Status × Sizes) :=
  match format with
  | .BGR32 | .RGB32 | .RGB24 => do
      return (.noError, ⟨some (← mul frame_size 4), some 0, some 0⟩)
  | .RGB565X | .NV16 | .NV61 | .YUYV | .UYVY | .VYUY | .YVYU => do
      return (.noError, ⟨some (← mul frame_size 2), some 0, some 0⟩)
  | .YUV420 | .NV12 | .NV21 | .NV21M => do
      let size0 := (← mul frame_size 3) / 2
      if isComp then
        let (y, cbcr) ← comp8 header width height
        return (.noError, ⟨some (max (y + cbcr) size0), some 0, some 0⟩)
      else return (.noError, ⟨some size0, some 0, some 0⟩)
  | .YVU420 => do
      let chroma ← mul (header.ALIGN_UP (width / 2) 16) (height / 2 * 2)
      return (.noError, ⟨some (frame_size + chroma), some 0, some 0⟩)
  | _ => return (.noError, Sizes.unset)

/-- The sizes of the planes, by their number and the format. -/
def setSizes (format : Format) (src_planes frame_size frame_ratio : ℕ) (isComp : Bool) :
    Except Fault (Status × Sizes) :=
  match src_planes with
  | 1 => onePlane header width height format frame_size isComp
  | 2 =>
      match format with
      | .NV12M_S10B =>
          twoPlanes (header.NV12M_Y_SIZE width height + header.NV12M_Y_2B_SIZE width height)
            (header.NV12M_CBCR_SIZE width height + header.NV12M_CBCR_2B_SIZE width height)
            (comp10 header width height) isComp
      | .NV16M_S10B =>
          twoPlanes (header.NV16M_Y_SIZE width height + header.NV16M_Y_2B_SIZE width height)
            (header.NV16M_CBCR_SIZE width height + header.NV16M_CBCR_2B_SIZE width height)
            (comp10 header width height) false
      | _ => do
          let size1 ← div frame_size frame_ratio
          twoPlanes frame_size size1 (comp8 header width height) isComp
  | 3 => do
      let size1 ← div frame_size frame_ratio
      let size2 ← div frame_size frame_ratio
      return (.noError, ⟨some frame_size, some size1, some size2⟩)
  | _ => return (.noError, Sizes.unset)

/-- **`getYuvPlaneSize`.** -/
def getYuvPlaneSize (format : Format) (pixelSize : PixelSize) (isComp : Bool) :
    Except Fault (Status × Sizes) :=
  match getV4l2FormatInfo format pixelSize with
  | none => return (.badValue, Sizes.unset)
  | some (src_bpp, planes) =>
      if src_bpp = 0 then return (.badValue, Sizes.unset)
      else do
        let src_planes := if planes = 0 then 1 else planes
        match ← frameSizeRatio header width height pixelSize src_bpp src_planes with
        | none => return (.badValue, Sizes.unset)
        | some (frame_size, frame_ratio) =>
            setSizes header width height format src_planes frame_size frame_ratio isComp

end ExynosVendor.Camera.PlaneSize
