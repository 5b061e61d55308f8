import ExynosVendor.Camera.PlaneSize

/-!
# What the sizes of the planes promise

The planes of a picture should hold it, whatever its format: no computation of a size
divides by zero or wraps, a size that is reported is set, and the bits of the planes are
those of the pixels at least.
-/

namespace ExynosVendor.Camera.PlaneSize

/-! ## The law -/

/-- **What is documented of the media header**: the alignment to a power of two is to its next
multiple, the lines of the planes of 8 bits are aligned to 64 bytes and those of the planes of
2 bits to 16, and the chroma planes of `NV12M` have a line for every two rows. -/
structure MediaHeader.Documented (header : MediaHeader) : Prop where
  dvd_alignUp : ∀ x a, a.isPowerOfTwo → a ∣ header.ALIGN_UP x a
  le_alignUp : ∀ x a, a.isPowerOfTwo → x ≤ header.ALIGN_UP x a
  alignUp_lt : ∀ x a, a.isPowerOfTwo → header.ALIGN_UP x a < x + a
  nv12_y : ∀ w h, header.ALIGN_UP w 64 * h ≤ header.NV12M_Y_SIZE w h
  nv12_y2 : ∀ w h, header.ALIGN_UP (w / 4) 16 * h ≤ header.NV12M_Y_2B_SIZE w h
  nv12_cbcr : ∀ w h, header.ALIGN_UP w 64 * h ≤ 2 * header.NV12M_CBCR_SIZE w h
  nv12_cbcr2 : ∀ w h, header.ALIGN_UP (w / 4) 16 * h ≤ 2 * header.NV12M_CBCR_2B_SIZE w h
  nv16_y : ∀ w h, header.ALIGN_UP w 64 * h ≤ header.NV16M_Y_SIZE w h
  nv16_y2 : ∀ w h, header.ALIGN_UP (w / 4) 16 * h ≤ header.NV16M_Y_2B_SIZE w h
  nv16_cbcr : ∀ w h, header.ALIGN_UP w 64 * h ≤ header.NV16M_CBCR_SIZE w h
  nv16_cbcr2 : ∀ w h, header.ALIGN_UP (w / 4) 16 * h ≤ header.NV16M_CBCR_2B_SIZE w h
  bounded : ∀ w h, w ≤ 2 ^ 14 → h ≤ 2 ^ 14 →
    header.NV12M_Y_SIZE w h + header.NV12M_Y_2B_SIZE w h < 2 ^ 30 ∧
    header.NV12M_CBCR_SIZE w h + header.NV12M_CBCR_2B_SIZE w h < 2 ^ 30 ∧
    header.NV16M_Y_SIZE w h + header.NV16M_Y_2B_SIZE w h < 2 ^ 30 ∧
    header.NV16M_CBCR_SIZE w h + header.NV16M_CBCR_2B_SIZE w h < 2 ^ 30

/-- The bits of a pixel of the formats that `getBayerLineSize` handles. -/
def bayerBits : Format → Option ℕ
  | .RGB24 => some 24
  | .SBGGR16 => some 16
  | .SBGGR12 => some 12
  | .SBGGR12P => some 13
  | .SBGGR10 | .SBGGR10P => some 10
  | .SBGGR8 | .SGRBG8 => some 8
  | .UYVY => some 16
  | _ => none

/-- **A line holds its pixels**, and the size of the plane is computed without wrapping. -/
def BayerHolds (width height : ℕ) (format : Format) : Prop :=
  ∀ bits, bayerBits format = some bits →
    (∃ line, getBayerLineSize width format = .ok line ∧ width * bits ≤ line * 8) ∧
      ∃ size, getBayerPlaneSize width height format = .ok size

/-- **The planes of a result hold the picture**: nothing divided by zero or wrapped, and
where the sizes are reported each was set, fits, and together they have a place for every
bit of the pixels when the sides are even. -/
def Holds (width height bpp : ℕ) (r : Except Fault (Status × Sizes)) : Prop :=
  ∃ status sizes, r = .ok (status, sizes) ∧
    (status = .noError → ∃ s0 s1 s2, sizes = ⟨some s0, some s1, some s2⟩ ∧
      s0 + s1 + s2 < 2 ^ 32 ∧
        (width % 2 = 0 → height % 2 = 0 → width * height * bpp ≤ 8 * (s0 + s1 + s2)))

/-- **The planes hold the picture**, of a format and pixel size that are accepted. -/
def YuvHolds (header : MediaHeader) (width height : ℕ) (format : Format)
    (pixelSize : PixelSize) (isComp : Bool) : Prop :=
  ∀ bpp planes, getV4l2FormatInfo format pixelSize = some (bpp, planes) →
    Holds width height bpp (getYuvPlaneSize header width height format pixelSize isComp)

/-! ## Where they hold -/

/-- The bits behind the last whole byte of a line of 13-bit or 10-bit pixels are cut off
before the alignment, and a pixel of UYVY is counted as one byte. -/
def BayerRoom (width : ℕ) : Format → Prop
  | .SBGGR12P => ¬ (0 < 13 * width % 128 ∧ 13 * width % 128 < 8)
  | .SBGGR10P => ¬ (0 < 5 * width % 64 ∧ 5 * width % 64 < 4)
  | .UYVY => width ≤ 8
  | _ => True

/-- The formats of which `getYuvPlaneSize` computes no size. -/
def bayerFormats : List Format :=
  [.RGB24, .SBGGR8, .SGRBG8, .SBGGR16, .SBGGR12, .SBGGR12P, .SBGGR10, .Z16]

/-- The formats of 16 bits a component. -/
def wideFormats : List Format :=
  [.NV12M_P010, .NV16M_P210, .YUYV, .YVYU, .UYVY, .VYUY, .NV16M_S10B]

variable (header : MediaHeader) (width height : ℕ)

/-- The luma plane of packed pixels whose lines are cut: `width` is 26 more than a multiple
of 64. -/
def cutLuma : ℕ := (80 * (width / 64) + 32) * height

/-- The compressed luma plane of these, with its header. -/
def cutSbwcY : ℕ :=
  (512 * (width / 64) + 32 * (width / 1024) + 288) * ((height + 7) / 8) + 320

/-- Their compressed chroma plane, with its header. -/
def cutSbwcCbcr : ℕ :=
  (256 * (width / 64) + 16 * (width / 1024) + 144) * ((height + 7) / 8) + 192

/-- **The room of packed pixels.** A line of which two bits are cut off before the alignment
is short of them, and with it the planes that are computed from it, unless compressed planes
make up for them. -/
def PackedRoom (format : Format) (pixelSize : PixelSize) (isComp : Bool) : Prop :=
  match format with
  | .NV12M | .NV21M | .NV12MT | .NV12MT_16X16 => isComp = true ∨ 5 * width % 64 ≠ 2
  | .YUV420M | .YVU420M => 5 * width % 64 ≠ 2
  | .YUYV | .YVYU | .UYVY | .VYUY => pixelSize = .eightTwoBit ∨ 5 * width % 64 ≠ 2
  | .NV12M_P010 =>
      pixelSize = .eightTwoBit ∨ 5 * width % 64 ≠ 2 ∨
        isComp = true ∧ 3 * height ≤ 4 *
          ((cutSbwcY width height - cutLuma width height) +
            (cutSbwcCbcr width height - cutLuma width height / 2))
  | .NV16M_P210 =>
      pixelSize = .eightTwoBit ∨ 5 * width % 64 ≠ 2 ∨
        isComp = true ∧ height ≤
          (cutSbwcY width height - cutLuma width height) +
            (cutSbwcCbcr width height - cutLuma width height)
  | _ => True

/-- **Where the planes hold the picture.** -/
def YuvRoom (format : Format) (pixelSize : PixelSize) (isComp : Bool) : Prop :=
  match pixelSize with
  | .eightBit => format ∉ bayerFormats
  | .tenBit => format ∈ wideFormats
  | .packedTenBit | .eightTwoBit =>
      format ∉ bayerFormats ∧
        (width % 2 = 0 → height % 2 = 0 → PackedRoom width height format pixelSize isComp)
  | .other => True

/-! ## Bayer -/

variable {header width height} {format : Format} {pixelSize : PixelSize} {isComp : Bool}

theorem imul_eq {a b : ℕ} (h : a * b < 2 ^ 31) : imul a b = .ok (a * b) := if_pos h

theorem mul_eq {a b : ℕ} (h : a * b < 2 ^ 32) : mul a b = .ok (a * b) := if_pos h

/-- A line is computed, and is not longer than three bytes a pixel with the alignment. -/
theorem getBayerLineSize_ok (hw : width ≤ 2 ^ 14) (format : Format) :
    ∃ line, getBayerLineSize width format = .ok line ∧ line ≤ 3 * 2 ^ 14 := by
  have h3 : imul width 3 = .ok (width * 3) := imul_eq (by omega)
  have h2 : imul width 2 = .ok (width * 2) := imul_eq (by omega)
  have h13 : imul width 13 = .ok (width * 13) := imul_eq (by omega)
  have h5 : imul width 5 = .ok (width * 5) := imul_eq (by omega)
  cases format <;> refine ⟨_, by simp only [getBayerLineSize, h3, h2, h13, h5]; rfl, ?_⟩ <;>
    simp only [roundUp] <;> omega

theorem getBayerPlaneSize_ok (hw : width ≤ 2 ^ 14) (hh : height ≤ 2 ^ 14) (format : Format) :
    ∃ size, getBayerPlaneSize width height format = .ok size := by
  unfold getBayerPlaneSize
  split
  · exact ⟨0, rfl⟩
  · obtain ⟨line, hline, hle⟩ := getBayerLineSize_ok hw format
    have hmul : line * height ≤ 3 * 2 ^ 14 * 2 ^ 14 := Nat.mul_le_mul hle hh
    refine ⟨line * height, ?_⟩
    rw [hline]
    exact imul_eq (by omega)

/-- **A line of a bayer format holds its pixels** when no bits of it are cut off. -/
theorem bayerHolds_iff (hw : width ≤ 2 ^ 14) (hh : height ≤ 2 ^ 14) (hpos : 1 ≤ width)
    (hbits : (bayerBits format).isSome) : BayerHolds width height format ↔ BayerRoom width format := by
  have h3 : imul width 3 = .ok (width * 3) := imul_eq (by omega)
  have h2 : imul width 2 = .ok (width * 2) := imul_eq (by omega)
  have h13 : imul width 13 = .ok (width * 13) := imul_eq (by omega)
  have h5 : imul width 5 = .ok (width * 5) := imul_eq (by omega)
  have hline : ∀ line bits, getBayerLineSize width format = .ok line →
      bayerBits format = some bits →
        (BayerHolds width height format ↔ width * bits ≤ line * 8) := by
    intro line bits hl hb
    constructor
    · intro h
      obtain ⟨⟨line', hl', hle⟩, -⟩ := h bits hb
      rw [hl] at hl'
      cases hl'
      exact hle
    · intro hle bits' hb'
      rw [hb] at hb'
      cases hb'
      exact ⟨⟨line, hl, hle⟩, getBayerPlaneSize_ok hw hh format⟩
  -- the whole bytes of a line, and the bits behind the last block of 16
  have h13' : roundUp (width * 13 / 8) =
      16 * (13 * width / 128) + if 13 * width % 128 < 8 then 0 else 16 := by
    have hbytes : width * 13 / 8 = 16 * (13 * width / 128) + 13 * width % 128 / 8 := by omega
    rw [hbytes]
    unfold roundUp
    split <;> omega
  have h5' : roundUp (width * 5 / 4) =
      16 * (5 * width / 64) + if 5 * width % 64 < 4 then 0 else 16 := by
    have hbytes : width * 5 / 4 = 16 * (5 * width / 64) + 5 * width % 64 / 4 := by omega
    rw [hbytes]
    unfold roundUp
    split <;> omega
  cases format <;>
    first
    | exact absurd hbits (by decide)
    | (rw [hline _ _ (by simp only [getBayerLineSize, h3, h2, h13, h5]; rfl) rfl]
       simp only [BayerRoom, iff_true, h13', h5']
       first
       | (unfold roundUp; omega)
       | (split <;> omega))

/-! ## YUV -/

section Computed

variable (header width height)

/-- The compressed luma plane with its header. -/
def sbwcY : ℕ :=
  128 * ((width + 31) / 32) * SBWC_Y_VSTRIDE_BLOCKS header height + 64 +
    header.ALIGN_UP (((width + 63) / 64 + 15) / 16 * 16 * SBWC_Y_VSTRIDE_BLOCKS header height +
      256) 32

/-- The compressed chroma plane with its header. -/
def sbwcCbcr : ℕ :=
  128 * ((width + 31) / 32) * SBWC_CBCR_VSTRIDE_BLOCKS header height + 64 +
    (((width + 63) / 64 + 15) / 16 * 16 * SBWC_CBCR_VSTRIDE_BLOCKS header height + 128)

/-- The luma plane of packed pixels of ten bits. -/
def packedY : ℕ := header.ALIGN_UP (width * 2 * 10 / 16) 16 * height

end Computed

/-- The rows of blocks of the compressed planes. -/
theorem MediaHeader.Documented.blocks (hd : header.Documented) (hh : height ≤ 2 ^ 14) :
    height ≤ 8 * SBWC_CBCR_VSTRIDE_BLOCKS header height ∧
      SBWC_Y_VSTRIDE_BLOCKS header height ≤ 2 ^ 12 + 2 ∧
      SBWC_CBCR_VSTRIDE_BLOCKS header height ≤ 2 ^ 12 + 2 := by
  have hle := hd.le_alignUp height 8 ⟨3, rfl⟩
  have hlt := hd.alignUp_lt height 8 ⟨3, rfl⟩
  obtain ⟨k, hk⟩ := hd.dvd_alignUp height 8 ⟨3, rfl⟩
  simp only [SBWC_Y_VSTRIDE_BLOCKS, SBWC_CBCR_VSTRIDE_BLOCKS]
  omega

/-- A compressed plane and its header are computed. -/
theorem sbwc_products (unit : ℕ) {rows : ℕ} (hunit : unit ≤ 160) (hw : width ≤ 2 ^ 14)
    (hrows : rows ≤ 2 ^ 12 + 2) :
    mul unit ((width + 31) / 32) = .ok (unit * ((width + 31) / 32)) ∧
      mul (unit * ((width + 31) / 32)) rows = .ok (unit * ((width + 31) / 32) * rows) ∧
      mul (((width + 63) / 64 + 15) / 16) 16 = .ok (((width + 63) / 64 + 15) / 16 * 16) ∧
      mul (((width + 63) / 64 + 15) / 16 * 16) rows =
        .ok (((width + 63) / 64 + 15) / 16 * 16 * rows) ∧
      unit * ((width + 31) / 32) * rows < 2 ^ 29 ∧
      ((width + 63) / 64 + 15) / 16 * 16 * rows < 2 ^ 28 := by
  have hblocks : (width + 31) / 32 ≤ 2 ^ 9 := by omega
  have hhead : ((width + 63) / 64 + 15) / 16 * 16 ≤ 2 ^ 9 := by omega
  have hstride := Nat.mul_le_mul hunit hblocks
  have hplane := Nat.mul_le_mul hstride hrows
  have hheader := Nat.mul_le_mul hhead hrows
  exact ⟨mul_eq (by omega), mul_eq (by omega), mul_eq (by omega), mul_eq (by omega), by omega,
    by omega⟩

/-- **The compressed planes are computed**, and their chroma has room for 8 bits. -/
theorem comp8_eq (hd : header.Documented) (hw : width ≤ 2 ^ 14) (hh : height ≤ 2 ^ 14) :
    comp8 header width height = .ok (sbwcY header width height, sbwcCbcr header width height) ∧
      sbwcY header width height < 2 ^ 30 ∧ sbwcCbcr header width height < 2 ^ 30 ∧
        width * height ≤ 2 * sbwcCbcr header width height := by
  obtain ⟨hrows, hy, hc⟩ := hd.blocks hh
  obtain ⟨hs, hplaneY, ht, hheadY, hltY, hltY'⟩ :=
    sbwc_products 128 (by decide) hw hy
  obtain ⟨-, hplaneC, -, hheadC, hltC, hltC'⟩ := sbwc_products 128 (by decide) hw hc
  refine ⟨?_, ?_, ?_, ?_⟩
  · simp only [comp8, SBWC_8B_Y_SIZE, SBWC_8B_STRIDE, SBWC_Y_HEADER_SIZE, SBWC_HEADER_STRIDE,
      SBWC_8B_CBCR_SIZE, SBWC_CBCR_HEADER_SIZE, hs, ht, hplaneY, hheadY, hplaneC, hheadC, bind,
      Except.bind, pure, Except.pure]
    rfl
  · have hlt := hd.alignUp_lt (((width + 63) / 64 + 15) / 16 * 16 *
      SBWC_Y_VSTRIDE_BLOCKS header height + 256) 32 ⟨5, rfl⟩
    unfold sbwcY
    omega
  · unfold sbwcCbcr
    omega
  · have hstride : 4 * width ≤ 128 * ((width + 31) / 32) := by omega
    have hplane := Nat.mul_le_mul hstride hrows
    have heq : 4 * width * height = 4 * (width * height) := Nat.mul_assoc _ _ _
    have heq' : 128 * ((width + 31) / 32) * (8 * SBWC_CBCR_VSTRIDE_BLOCKS header height) =
      8 * (128 * ((width + 31) / 32) * SBWC_CBCR_VSTRIDE_BLOCKS header height) :=
      Nat.mul_left_comm _ _ _
    unfold sbwcCbcr
    omega

theorem comp10_ok (hd : header.Documented) (hw : width ≤ 2 ^ 14) (hh : height ≤ 2 ^ 14) :
    ∃ y cbcr, comp10 header width height = .ok (y, cbcr) ∧ y < 2 ^ 30 ∧ cbcr < 2 ^ 30 := by
  obtain ⟨-, hy, hc⟩ := hd.blocks hh
  obtain ⟨hs, hplaneY, ht, hheadY, hltY, hltY'⟩ :=
    sbwc_products 160 (by decide) hw hy
  obtain ⟨-, hplaneC, -, hheadC, hltC, hltC'⟩ := sbwc_products 160 (by decide) hw hc
  have hlt := hd.alignUp_lt (((width + 63) / 64 + 15) / 16 * 16 *
    SBWC_Y_VSTRIDE_BLOCKS header height + 256) 32 ⟨5, rfl⟩
  refine ⟨160 * ((width + 31) / 32) * SBWC_Y_VSTRIDE_BLOCKS header height + 64 +
    header.ALIGN_UP (((width + 63) / 64 + 15) / 16 * 16 * SBWC_Y_VSTRIDE_BLOCKS header height +
      256) 32, 160 * ((width + 31) / 32) * SBWC_CBCR_VSTRIDE_BLOCKS header height + 64 +
    (((width + 63) / 64 + 15) / 16 * 16 * SBWC_CBCR_VSTRIDE_BLOCKS header height + 128), ?_, ?_, ?_⟩
  · simp only [comp10, SBWC_10B_Y_SIZE, SBWC_10B_STRIDE, SBWC_Y_HEADER_SIZE, SBWC_HEADER_STRIDE,
      SBWC_10B_CBCR_SIZE, SBWC_CBCR_HEADER_SIZE, hs, ht, hplaneY, hheadY, hplaneC, hheadC, bind,
      Except.bind, pure, Except.pure]
  · omega
  · omega

/-! ### What is left of each shape of format -/

variable {bpp planes : ℕ}

theorem holds_error (fault : Fault) : ¬ Holds width height bpp (.error fault) := by
  rintro ⟨_, _, h, -⟩
  cases h

theorem holds_unset : ¬ Holds width height bpp (.ok (.noError, Sizes.unset)) := by
  rintro ⟨_, _, h, hsizes⟩
  cases h
  obtain ⟨_, _, _, h, -⟩ := hsizes rfl
  simp [Sizes.unset] at h

theorem holds_badValue (sizes : Sizes) :
    Holds width height bpp (.ok (.badValue, sizes)) :=
  ⟨_, _, rfl, fun h => absurd h (by decide)⟩

/-- Sizes that are set and fit. -/
theorem holds_sizes {s0 s1 s2 : ℕ} (hfits : s0 + s1 + s2 < 2 ^ 32) :
    Holds width height bpp (.ok (.noError, ⟨some s0, some s1, some s2⟩)) ↔
      (width % 2 = 0 → height % 2 = 0 → width * height * bpp ≤ 8 * (s0 + s1 + s2)) := by
  constructor
  · rintro ⟨_, _, h, hsizes⟩
    cases h
    obtain ⟨t0, t1, t2, h, -, hroom⟩ := hsizes rfl
    simp only [Sizes.mk.injEq, Option.some.injEq] at h
    obtain ⟨rfl, rfl, rfl⟩ := h
    exact hroom
  · intro hroom
    exact ⟨_, _, rfl, fun _ => ⟨s0, s1, s2, rfl, hfits, hroom⟩⟩

theorem yuvHolds_iff (hinfo : getV4l2FormatInfo format pixelSize = some (bpp, planes)) :
    YuvHolds header width height format pixelSize isComp ↔
      Holds width height bpp (getYuvPlaneSize header width height format pixelSize isComp) := by
  constructor
  · intro h
    exact h bpp planes hinfo
  · intro h bpp' planes' hinfo'
    rw [hinfo] at hinfo'
    cases hinfo'
    exact h

/-- The frame sizes of the three kinds of pixel are computed. -/
theorem frames_ok (hd : header.Documented) (hw : width ≤ 2 ^ 14) (hh : height ≤ 2 ^ 14) :
    mul width height = .ok (width * height) ∧ mul width 2 = .ok (width * 2) ∧
      mul (width * 2) height = .ok (width * 2 * height) ∧
      mul (header.ALIGN_UP (width * 2 * 10 / 16) 16) height =
        .ok (packedY header width height) ∧
      width * height ≤ 2 ^ 28 ∧ packedY header width height < 2 ^ 29 := by
  have hplain := Nat.mul_le_mul hw hh
  have heq : width * 2 * height = 2 * (width * height) := by
    rw [Nat.mul_right_comm, Nat.mul_comm]
  have hline := hd.alignUp_lt (width * 2 * 10 / 16) 16 ⟨4, rfl⟩
  have hline' : header.ALIGN_UP (width * 2 * 10 / 16) 16 ≤ 20495 := by omega
  have hpacked := Nat.mul_le_mul hline' hh
  exact ⟨mul_eq (by omega), mul_eq (by omega), mul_eq (by omega), mul_eq (by omega), by omega,
    by unfold packedY; omega⟩

/-- The planes are set from the frame size and the ratio. -/
theorem getYuvPlaneSize_eq {fs ratio : ℕ}
    (hinfo : getV4l2FormatInfo format pixelSize = some (bpp, planes)) (hbpp : bpp ≠ 0)
    (hplanes : planes ≠ 0)
    (hsize : frameSizeRatio header width height pixelSize bpp planes = .ok (some (fs, ratio))) :
    getYuvPlaneSize header width height format pixelSize isComp =
      setSizes header width height format planes fs ratio isComp := by
  simp only [getYuvPlaneSize, hinfo, if_neg hbpp, if_neg hplanes, hsize, bind, Except.bind]

/-- A ratio that cannot be computed ends the computation. -/
theorem getYuvPlaneSize_error {fault : Fault}
    (hinfo : getV4l2FormatInfo format pixelSize = some (bpp, planes)) (hbpp : bpp ≠ 0)
    (hplanes : planes ≠ 0)
    (hsize : frameSizeRatio header width height pixelSize bpp planes = .error fault) :
    getYuvPlaneSize header width height format pixelSize isComp = .error fault := by
  simp only [getYuvPlaneSize, hinfo, if_neg hbpp, if_neg hplanes, hsize, bind, Except.bind]

theorem ratio_eight (hd : header.Documented) (hw : width ≤ 2 ^ 14) (hh : height ≤ 2 ^ 14)
    (planes : ℕ) (hbpp : 8 < bpp) :
    frameSizeRatio header width height .eightBit bpp planes =
      .ok (some (width * height, 8 * (planes - 1) / (bpp - 8))) := by
  have hsub : sub bpp 8 = .ok (bpp - 8) := if_pos (by omega)
  have hdiv : div (8 * (planes - 1)) (bpp - 8) = .ok (8 * (planes - 1) / (bpp - 8)) :=
    if_neg (by omega)
  simp only [frameSizeRatio, (frames_ok hd hw hh).1, hsub, hdiv, bind, Except.bind, pure,
    Except.pure]

theorem ratio_ten (hd : header.Documented) (hw : width ≤ 2 ^ 14) (hh : height ≤ 2 ^ 14) (planes : ℕ)
    (hbpp : 16 < bpp) :
    frameSizeRatio header width height .tenBit bpp planes =
      .ok (some (width * 2 * height, 16 * (planes - 1) / (bpp - 16))) := by
  obtain ⟨-, htwo, hten, -⟩ := frames_ok hd hw hh
  have hsub : sub bpp 16 = .ok (bpp - 16) := if_pos (by omega)
  have hdiv : div (16 * (planes - 1)) (bpp - 16) = .ok (16 * (planes - 1) / (bpp - 16)) :=
    if_neg (by omega)
  simp only [frameSizeRatio, htwo, hten, hsub, hdiv, bind, Except.bind, pure, Except.pure]

theorem ratio_packed (hd : header.Documented) (hw : width ≤ 2 ^ 14) (hh : height ≤ 2 ^ 14)
    (planes : ℕ) (hbpp : 10 < bpp) (hmode : pixelSize = .packedTenBit ∨ pixelSize = .eightTwoBit) :
    frameSizeRatio header width height pixelSize bpp planes =
      .ok (some (packedY header width height, 10 * (planes - 1) / (bpp - 10))) := by
  obtain ⟨-, htwo, -, hpacked, -⟩ := frames_ok hd hw hh
  have hsub : sub bpp 10 = .ok (bpp - 10) := if_pos (by omega)
  have hdiv : div (10 * (planes - 1)) (bpp - 10) = .ok (10 * (planes - 1) / (bpp - 10)) :=
    if_neg (by omega)
  rcases hmode with rfl | rfl <;>
    simp only [frameSizeRatio, htwo, hpacked, hsub, hdiv, bind, Except.bind, pure, Except.pure]

/-- A format of as many bits as the pixel size takes for one plane divides by zero, and one
of fewer wraps. -/
theorem ratio_error (hd : header.Documented) (hw : width ≤ 2 ^ 14) (hh : height ≤ 2 ^ 14)
    (planes : ℕ)
    (hbpp : pixelSize = .eightBit ∧ bpp ≤ 8 ∨ pixelSize = .tenBit ∧ bpp ≤ 16 ∨
      (pixelSize = .packedTenBit ∨ pixelSize = .eightTwoBit) ∧ bpp ≤ 10) :
    ∃ fault, frameSizeRatio header width height pixelSize bpp planes = .error fault := by
  obtain ⟨hplain, htwo, hten, hpacked, -⟩ := frames_ok hd hw hh
  have hbits : ∀ a, bpp ≤ a → sub bpp a = .ok 0 ∨ sub bpp a = .error .wrapped := by
    intro a hle
    unfold sub
    split
    · exact Or.inl (by rw [Nat.sub_eq_zero_of_le hle])
    · exact Or.inr rfl
  have hdiv : ∀ n, div n 0 = .error .divisionByZero := fun n => if_pos rfl
  rcases hbpp with ⟨rfl, hle⟩ | ⟨rfl, hle⟩ | ⟨rfl | rfl, hle⟩
  all_goals
    rcases hbits _ hle with hsub | hsub
    · exact ⟨.divisionByZero, by simp only [frameSizeRatio, hplain, htwo, hten, hpacked, hsub,
        hdiv, bind, Except.bind]⟩
    · exact ⟨.wrapped, by simp only [frameSizeRatio, hplain, htwo, hten, hpacked, hsub, bind,
        Except.bind]⟩

/-! ### The shapes of the formats -/

section Shapes

variable {bpp fs ratio : ℕ}

/-- The formats of which no size is computed. -/
theorem holds_bayer (hformat : format ∈ bayerFormats) (hne : format ≠ .RGB24) :
    ¬ Holds width height bpp (setSizes header width height format 1 fs ratio isComp) := by
  have hunset : setSizes header width height format 1 fs ratio isComp =
      .ok (.noError, Sizes.unset) := by
    cases format <;> first | rfl | exact absurd hformat (by decide) | exact absurd rfl hne
  rw [hunset]
  exact holds_unset

/-- Formats of one plane of two samples a pixel. -/
theorem holds_double (hformat : format ∈ [.NV16, .NV61, .YUYV, .UYVY, .VYUY, .YVYU])
    (hfs : fs ≤ 2 ^ 30) :
    Holds width height bpp (setSizes header width height format 1 fs ratio isComp) ↔
      (width % 2 = 0 → height % 2 = 0 → width * height * bpp ≤ 8 * (fs * 2)) := by
  have hset : setSizes header width height format 1 fs ratio isComp =
      .ok (.noError, ⟨some (fs * 2), some 0, some 0⟩) := by
    have hmul : mul fs 2 = .ok (fs * 2) := mul_eq (by omega)
    simp only [List.mem_cons, List.not_mem_nil, or_false] at hformat
    rcases hformat with rfl | rfl | rfl | rfl | rfl | rfl <;>
      simp only [setSizes, onePlane, hmul, bind, Except.bind, pure, Except.pure]
  rw [hset, holds_sizes (by omega)]
  simp only [Nat.add_zero]

/-- Formats of one plane of 12 bits a pixel. -/
theorem holds_onePlane (hd : header.Documented) (hw : width ≤ 2 ^ 14) (hh : height ≤ 2 ^ 14)
    (hformat : format ∈ [.YUV420, .NV12, .NV21]) (hfs : fs < 2 ^ 29)
    (hroom : width % 2 = 0 → height % 2 = 0 → width * height * bpp ≤ 8 * (fs * 3 / 2)) :
    Holds width height bpp (setSizes header width height format 1 fs ratio isComp) := by
  have hmul : mul fs 3 = .ok (fs * 3) := mul_eq (by omega)
  obtain ⟨hcomp, hy, hc, -⟩ := comp8_eq hd hw hh
  have hset : ∃ size0, setSizes header width height format 1 fs ratio isComp =
      .ok (.noError, ⟨some size0, some 0, some 0⟩) ∧ fs * 3 / 2 ≤ size0 ∧ size0 < 2 ^ 31 := by
    simp only [List.mem_cons, List.not_mem_nil, or_false] at hformat
    rcases isComp with _ | _
    · refine ⟨fs * 3 / 2, ?_, Nat.le_refl _, by omega⟩
      rcases hformat with rfl | rfl | rfl <;>
        simp only [setSizes, onePlane, hmul, bind, Except.bind, pure, Except.pure] <;> rfl
    · refine ⟨max (sbwcY header width height + sbwcCbcr header width height) (fs * 3 / 2), ?_,
        Nat.le_max_right _ _, by omega⟩
      rcases hformat with rfl | rfl | rfl <;>
        simp only [setSizes, onePlane, hmul, hcomp, bind, Except.bind, pure, Except.pure] <;> rfl
  obtain ⟨size0, heq, hle, hlt⟩ := hset
  rw [heq, holds_sizes (by omega)]
  intro hwe hhe
  have h := hroom hwe hhe
  omega

/-- `YVU420`, whose chroma lines are aligned. -/
theorem holds_YVU420 (hd : header.Documented) (hw : width ≤ 2 ^ 14) (hh : height ≤ 2 ^ 14)
    (hfs : fs < 2 ^ 29) (hle : width * height ≤ fs) :
    Holds width height 12 (setSizes header width height .YVU420 1 fs ratio isComp) := by
  have hge := hd.le_alignUp (width / 2) 16 ⟨4, rfl⟩
  have hlt := hd.alignUp_lt (width / 2) 16 ⟨4, rfl⟩
  have hchroma : header.ALIGN_UP (width / 2) 16 * (height / 2 * 2) ≤ 2 ^ 14 * 2 ^ 14 :=
    Nat.mul_le_mul (by omega) (by omega)
  have hmul : mul (header.ALIGN_UP (width / 2) 16) (height / 2 * 2) =
    .ok (header.ALIGN_UP (width / 2) 16 * (height / 2 * 2)) := mul_eq (by omega)
  have hset : setSizes header width height .YVU420 1 fs ratio isComp = .ok (.noError,
      ⟨some (fs + header.ALIGN_UP (width / 2) 16 * (height / 2 * 2)), some 0, some 0⟩) := by
    simp only [setSizes, onePlane, hmul, bind, Except.bind, pure, Except.pure]
  rw [hset, holds_sizes (by omega)]
  intro hwe hhe
  have hhalf : width / 2 * height ≤ header.ALIGN_UP (width / 2) 16 * (height / 2 * 2) :=
    Nat.mul_le_mul hge (by omega)
  have heq : width * height = 2 * (width / 2 * height) := by
    rw [← Nat.mul_assoc]
    congr 1
    omega
  omega

/-- Two planes by the ratio. -/
theorem setSizes_two (hd : header.Documented) (hw : width ≤ 2 ^ 14) (hh : height ≤ 2 ^ 14)
    (hformat : format ≠ .NV12M_S10B ∧ format ≠ .NV16M_S10B) (hratio : ratio ≠ 0) :
    setSizes header width height format 2 fs ratio isComp =
      .ok (.noError, if isComp then
          ⟨some (max (sbwcY header width height) fs),
            some (max (sbwcCbcr header width height) (fs / ratio)), some 0⟩
        else ⟨some fs, some (fs / ratio), some 0⟩) := by
  obtain ⟨hcomp, -⟩ := comp8_eq hd hw hh
  have hdiv : div fs ratio = .ok (fs / ratio) := if_neg hratio
  cases format <;>
    first
    | exact absurd rfl hformat.1
    | exact absurd rfl hformat.2
    | (rcases isComp with _ | _ <;>
        simp only [setSizes, twoPlanes, hdiv, hcomp, bind, Except.bind, pure, Except.pure] <;> rfl)

/-- What two planes by the ratio hold. -/
theorem holds_two (hd : header.Documented) (hw : width ≤ 2 ^ 14) (hh : height ≤ 2 ^ 14)
    (hformat : format ≠ .NV12M_S10B ∧ format ≠ .NV16M_S10B) (hratio : ratio ≠ 0)
    (hfs : fs ≤ 2 ^ 30) :
    Holds width height bpp (setSizes header width height format 2 fs ratio isComp) ↔
      (width % 2 = 0 → height % 2 = 0 → width * height * bpp ≤ 8 * (if isComp then
        max (sbwcY header width height) fs + max (sbwcCbcr header width height) (fs / ratio)
      else fs + fs / ratio)) := by
  obtain ⟨-, hy, hc, -⟩ := comp8_eq hd hw hh
  have hle : fs / ratio ≤ fs := Nat.div_le_self _ _
  rw [setSizes_two hd hw hh hformat hratio]
  rcases isComp with _ | _
  · exact holds_sizes (by omega)
  · exact holds_sizes (by omega)

/-- Three planes by the ratio. -/
theorem holds_three (hratio : ratio ≠ 0) (hfs : fs ≤ 2 ^ 30) :
    Holds width height bpp (setSizes header width height format 3 fs ratio isComp) ↔
      (width % 2 = 0 → height % 2 = 0 → width * height * bpp ≤ 8 * (fs + fs / ratio + fs / ratio)) := by
  have hdiv : div fs ratio = .ok (fs / ratio) := if_neg hratio
  have hle : fs / ratio ≤ fs := Nat.div_le_self _ _
  have hset : setSizes header width height format 3 fs ratio isComp =
      .ok (.noError, ⟨some fs, some (fs / ratio), some (fs / ratio)⟩) := by
    simp only [setSizes, hdiv, bind, Except.bind, pure, Except.pure]
  rw [hset]
  exact holds_sizes (by omega)

/-- A line of 8 bits and one of 2 bits have room for ten bits a pixel. -/
theorem MediaHeader.Documented.line_S10B (hd : header.Documented) (width height : ℕ) :
    5 * (width * height) ≤
      4 * (header.ALIGN_UP width 64 * height + header.ALIGN_UP (width / 4) 16 * height) := by
  have hle := hd.le_alignUp width 64 ⟨6, rfl⟩
  have hle2 := hd.le_alignUp (width / 4) 16 ⟨4, rfl⟩
  obtain ⟨p, hp⟩ := hd.dvd_alignUp width 64 ⟨6, rfl⟩
  obtain ⟨q, hq⟩ := hd.dvd_alignUp (width / 4) 16 ⟨4, rfl⟩
  have hline : 5 * width ≤ 4 * (header.ALIGN_UP width 64 + header.ALIGN_UP (width / 4) 16) := by
    omega
  have hplane := Nat.mul_le_mul_right height hline
  rwa [Nat.mul_assoc, Nat.mul_assoc, Nat.add_mul] at hplane

/-- The formats that keep two bits of a pixel apart. -/
theorem holds_S10B (hd : header.Documented) (hw : width ≤ 2 ^ 14) (hh : height ≤ 2 ^ 14) :
    Holds width height 15 (setSizes header width height .NV12M_S10B 2 fs ratio isComp) ∧
      Holds width height 20 (setSizes header width height .NV16M_S10B 2 fs ratio isComp) := by
  obtain ⟨y, c, hcomp, hy, hc⟩ := comp10_ok hd hw hh
  obtain ⟨hb1, hb2, hb3, hb4⟩ := hd.bounded width height hw hh
  have h1 := hd.nv12_y width height
  have h2 := hd.nv12_y2 width height
  have h3 := hd.nv12_cbcr width height
  have h4 := hd.nv12_cbcr2 width height
  have h5 := hd.nv16_y width height
  have h6 := hd.nv16_y2 width height
  have h7 := hd.nv16_cbcr width height
  have h8 := hd.nv16_cbcr2 width height
  have hline := hd.line_S10B width height
  constructor
  · rcases isComp with _ | _
    · exact (holds_sizes (by omega)).mpr fun _ _ => by omega
    · simp only [setSizes, twoPlanes, hcomp, bind, Except.bind, pure, Except.pure, if_true]
      exact (holds_sizes (by omega)).mpr fun _ _ => by omega
  · exact (holds_sizes (by omega)).mpr fun _ _ => by omega

end Shapes

/-! ### The pixel sizes -/

/-- A picture of even sides has a pixel count of which two planes are a quarter each. -/
theorem even_product (hwe : width % 2 = 0) (hhe : height % 2 = 0) :
    width * height % 4 = 0 := by
  obtain ⟨a, rfl⟩ := Nat.dvd_of_mod_eq_zero hwe
  obtain ⟨b, rfl⟩ := Nat.dvd_of_mod_eq_zero hhe
  have heq : 2 * a * (2 * b) = 4 * (a * b) := by
    rw [Nat.mul_mul_mul_comm]
  omega

/-- A format without bits at a pixel size is refused. -/
theorem yuvHolds_refused (hinfo : getV4l2FormatInfo format pixelSize = some (0, planes)) :
    YuvHolds header width height format pixelSize isComp := by
  rw [yuvHolds_iff hinfo]
  have hrefused : getYuvPlaneSize header width height format pixelSize isComp =
      .ok (.badValue, Sizes.unset) := by
    simp only [getYuvPlaneSize, hinfo, if_true]
    rfl
  rw [hrefused]
  exact holds_badValue _

/-- A format whose ratio cannot be computed. -/
theorem not_yuvHolds (hd : header.Documented) (hw : width ≤ 2 ^ 14) (hh : height ≤ 2 ^ 14)
    (hinfo : getV4l2FormatInfo format pixelSize = some (bpp, planes)) (hzero : bpp ≠ 0)
    (hplanes : planes ≠ 0)
    (hbpp : pixelSize = .eightBit ∧ bpp ≤ 8 ∨ pixelSize = .tenBit ∧ bpp ≤ 16 ∨
      (pixelSize = .packedTenBit ∨ pixelSize = .eightTwoBit) ∧ bpp ≤ 10) :
    ¬ YuvHolds header width height format pixelSize isComp := by
  obtain ⟨fault, hsize⟩ := ratio_error hd hw hh planes hbpp
  rw [yuvHolds_iff hinfo, getYuvPlaneSize_error hinfo hzero hplanes hsize]
  exact holds_error fault

theorem yuvHolds_eightBit (hd : header.Documented) (hw : width ≤ 2 ^ 14) (hh : height ≤ 2 ^ 14)
    (hinfo : (getV4l2FormatInfo format .eightBit).isSome) :
    YuvHolds header width height format .eightBit isComp ↔ format ∉ bayerFormats := by
  obtain ⟨-, -, -, -, hle, -⟩ := frames_ok hd hw hh
  have hratio := fun bpp planes (hbpp : 8 < bpp) => ratio_eight hd hw hh planes hbpp
  cases format
  case RGB24 | SBGGR8 | SGRBG8 =>
    exact iff_of_false (not_yuvHolds hd hw hh rfl (by decide) (by decide) (Or.inl (by decide)))
      (by decide)
  case SBGGR16 | SBGGR12 | SBGGR12P | SBGGR10 | Z16 =>
    rw [yuvHolds_iff rfl, getYuvPlaneSize_eq rfl (by decide) (by decide) (hratio _ 1 (by decide))]
    exact iff_of_false (holds_bayer (by decide) (by decide)) (by decide)
  case NV12M_P010 | NV16M_P210 => exact iff_of_true (yuvHolds_refused rfl) (by decide)
  case NV12M_S10B =>
    rw [yuvHolds_iff rfl, getYuvPlaneSize_eq rfl (by decide) (by decide) (hratio _ 2 (by decide))]
    exact iff_of_true (holds_S10B hd hw hh).1 (by decide)
  case NV16M_S10B =>
    rw [yuvHolds_iff rfl, getYuvPlaneSize_eq rfl (by decide) (by decide) (hratio _ 2 (by decide))]
    exact iff_of_true (holds_S10B hd hw hh).2 (by decide)
  case NV16 | NV61 | YUYV | UYVY | VYUY | YVYU =>
    rw [yuvHolds_iff rfl, getYuvPlaneSize_eq rfl (by decide) (by decide) (hratio _ 1 (by decide)),
      holds_double (by decide) (by omega)]
    exact iff_of_true (fun _ _ => by omega) (by decide)
  case NV12 | NV21 | YUV420 =>
    rw [yuvHolds_iff rfl, getYuvPlaneSize_eq rfl (by decide) (by decide) (hratio _ 1 (by decide))]
    refine iff_of_true (holds_onePlane hd hw hh (by decide) (by omega) fun hwe hhe => ?_)
      (by decide)
    have heven := even_product hwe hhe
    omega
  case YVU420 =>
    rw [yuvHolds_iff rfl, getYuvPlaneSize_eq rfl (by decide) (by decide) (hratio _ 1 (by decide))]
    exact iff_of_true (holds_YVU420 hd hw hh (by omega) (Nat.le_refl _)) (by decide)
  case NV12M | NV21M | NV12MT | NV12MT_16X16 | NV16M | NV61M =>
    rw [yuvHolds_iff rfl, getYuvPlaneSize_eq rfl (by decide) (by decide) (hratio _ 2 (by decide)),
      holds_two hd hw hh (by decide) (by decide) (by omega)]
    refine iff_of_true (fun hwe hhe => ?_) (by decide)
    have heven := even_product hwe hhe
    split <;> omega
  case YUV420M | YVU420M | YUV422P =>
    rw [yuvHolds_iff rfl, getYuvPlaneSize_eq rfl (by decide) (by decide) (hratio _ 3 (by decide)),
      holds_three (by decide) (by omega)]
    refine iff_of_true (fun hwe hhe => ?_) (by decide)
    have heven := even_product hwe hhe
    omega
  all_goals exact absurd hinfo (by decide)

end ExynosVendor.Camera.PlaneSize
