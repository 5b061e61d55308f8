import ExynosVendor.Camera.PlaneRoom
import Mathlib.Tactic.Ring

/-!
# Where the planes of a picture hold it

The pixel sizes of ten bits, wide and packed, and all of them together.
-/

namespace ExynosVendor.Camera.PlaneSize

variable {header : MediaHeader} {width height : ℕ} {format : Format} {pixelSize : PixelSize}
  {isComp : Bool}

/-! ## Wide -/

/-- **Ten bits in two bytes** are sized for the formats of 16 bits a component only: the ratio
of the others divides by zero or wraps. -/
theorem yuvHolds_tenBit (hd : header.Documented) (hw : width ≤ 2 ^ 14) (hh : height ≤ 2 ^ 14)
    (hinfo : (getV4l2FormatInfo format .tenBit).isSome) :
    YuvHolds header width height format .tenBit isComp ↔ format ∈ wideFormats := by
  obtain ⟨-, -, -, -, hle, -⟩ := frames_ok hd hw hh
  have hwide : width * 2 * height = 2 * (width * height) := by
    rw [Nat.mul_right_comm, Nat.mul_comm]
  have hratio := fun bpp planes (hbpp : 16 < bpp) => ratio_ten hd hw hh planes hbpp
  cases format
  case NV12M_P010 =>
    rw [yuvHolds_iff rfl, getYuvPlaneSize_eq rfl (by decide) (by decide) (hratio _ 2 (by decide)),
      holds_two hd hw hh (by decide) (by decide) (by omega)]
    refine iff_of_true (fun _ _ => ?_) (by decide)
    split <;> omega
  case NV16M_P210 =>
    rw [yuvHolds_iff rfl, getYuvPlaneSize_eq rfl (by decide) (by decide) (hratio _ 2 (by decide)),
      holds_two hd hw hh (by decide) (by decide) (by omega)]
    refine iff_of_true (fun _ _ => ?_) (by decide)
    split <;> omega
  case NV16M_S10B =>
    rw [yuvHolds_iff rfl, getYuvPlaneSize_eq rfl (by decide) (by decide) (hratio _ 2 (by decide))]
    exact iff_of_true (holds_S10B hd hw hh).2 (by decide)
  case YUYV | YVYU | UYVY | VYUY =>
    rw [yuvHolds_iff rfl, getYuvPlaneSize_eq rfl (by decide) (by decide) (hratio _ 1 (by decide)),
      holds_double (by decide) (by omega)]
    exact iff_of_true (fun _ _ => by omega) (by decide)
  all_goals
    first
    | exact absurd hinfo (by decide)
    | exact iff_of_false
        (not_yuvHolds hd hw hh rfl (by decide) (by decide) (Or.inr (Or.inl (by decide))))
        (by decide)

/-! ## Packed -/

/-- A line of packed pixels is a bit pair short, full, or has two bits to spare. -/
theorem packed_line (hd : header.Documented) (hpos : 1 ≤ width) (hwe : width % 2 = 0) :
    (5 * width % 64 = 2 ∧ 26 ≤ width ∧
        4 * header.ALIGN_UP (width * 2 * 10 / 16) 16 + 2 = 5 * width) ∨
      (5 * width % 64 ≠ 2 ∧ (64 ≤ width ∧ width % 64 = 0 ∧
          4 * header.ALIGN_UP (width * 2 * 10 / 16) 16 = 5 * width ∨
        5 * width + 2 ≤ 4 * header.ALIGN_UP (width * 2 * 10 / 16) 16)) := by
  have hle := hd.le_alignUp (width * 2 * 10 / 16) 16 ⟨4, rfl⟩
  have hlt := hd.alignUp_lt (width * 2 * 10 / 16) 16 ⟨4, rfl⟩
  obtain ⟨a, ha⟩ := hd.dvd_alignUp (width * 2 * 10 / 16) 16 ⟨4, rfl⟩
  have hcases : 5 * width % 64 = 2 ∨ 5 * width % 64 = 0 ∨
      5 * width % 64 ≠ 2 ∧ 4 ≤ 5 * width % 64 := by omega
  rcases hcases with hcut | hfull | hspare
  · exact Or.inl ⟨hcut, by omega, by omega⟩
  · exact Or.inr ⟨by omega, Or.inl ⟨by omega, by omega, by omega⟩⟩
  · have hnext : 5 * width / 64 + 1 ≤ a := by omega
    exact Or.inr ⟨hspare.1, Or.inr (by omega)⟩

/-- What is known of a plane of packed lines by whether they are `cut`: the size of the plane
against the area of the picture. -/
def PackedPlane (cut : Prop) (fs area rows : ℕ) : Prop :=
  fs % 16 = 0 ∧
    ((cut ∧ 26 * rows ≤ area ∧ 4 * fs + 2 * rows = 5 * area) ∨
      (¬ cut ∧ (64 * rows ≤ area ∧ area % 64 = 0 ∧ 4 * fs = 5 * area ∨
        5 * area + 2 * rows ≤ 4 * fs)))

variable (height) in
/-- What follows for the plane of the lines, with an even number of them. -/
theorem packed_plane (hd : header.Documented) (hpos : 1 ≤ width) (hwe : width % 2 = 0) :
    PackedPlane (5 * width % 64 = 2) (packedY header width height) (width * height) height := by
  have hline := packed_line hd hpos hwe
  have hdvd := hd.dvd_alignUp (width * 2 * 10 / 16) 16 ⟨4, rfl⟩
  unfold packedY
  generalize header.ALIGN_UP (width * 2 * 10 / 16) 16 = line at hline hdvd ⊢
  refine ⟨Nat.mod_eq_zero_of_dvd (Nat.dvd_mul_right_of_dvd hdvd height), ?_⟩
  rcases hline with ⟨hcut, hge, heq⟩ | ⟨hcut, ⟨hge, hmod, heq⟩ | hspare⟩
  · have hprod : (4 * line + 2) * height = 5 * width * height := by rw [heq]
    rw [Nat.add_mul, Nat.mul_assoc, Nat.mul_assoc] at hprod
    exact Or.inl ⟨hcut, Nat.mul_le_mul_right height hge, hprod⟩
  · have hprod : 4 * line * height = 5 * width * height := by rw [heq]
    rw [Nat.mul_assoc, Nat.mul_assoc] at hprod
    have hmod' := Nat.mod_eq_zero_of_dvd
      (Nat.dvd_mul_right_of_dvd (Nat.dvd_of_mod_eq_zero hmod) height)
    exact Or.inr ⟨hcut, Or.inl ⟨Nat.mul_le_mul_right height hge, hmod', hprod⟩⟩
  · have hprod := Nat.mul_le_mul_right height hspare
    rw [Nat.add_mul, Nat.mul_assoc, Nat.mul_assoc] at hprod
    exact Or.inr ⟨hcut, Or.inr hprod⟩

namespace PackedPlane

variable {cut : Prop} {fs area rows : ℕ}

/-- A byte a pixel is there in any case. -/
theorem area_le (h : PackedPlane cut fs area rows) : area ≤ fs := by
  obtain ⟨-, ⟨-, hge, heq⟩ | ⟨-, ⟨-, -, heq⟩ | hspare⟩⟩ := h <;> omega

/-- And with half a plane more, twelve bits are. -/
theorem half (h : PackedPlane cut fs area rows) : area * 12 ≤ 8 * (fs * 3 / 2) := by
  have hle := h.area_le
  have hmod := h.1
  omega

theorem thirds (h : PackedPlane cut fs area rows) : area * 16 ≤ 8 * (fs + fs / 3 + fs / 3) := by
  obtain ⟨hmod, ⟨-, hge, heq⟩ | ⟨-, ⟨-, hmod', heq⟩ | hspare⟩⟩ := h
  · omega
  · omega
  · omega

/-- Where the lines have their bits, and only there, twice the plane has. -/
theorem double_iff (h : PackedPlane cut fs area rows) (hpos : 1 ≤ rows) :
    area * 20 ≤ 8 * (fs * 2) ↔ ¬ cut := by
  obtain ⟨-, ⟨hcut, -, heq⟩ | ⟨hcut, ⟨-, -, heq⟩ | hspare⟩⟩ := h
  · exact iff_of_false (by omega) (fun hnot => hnot hcut)
  · exact iff_of_true (by omega) hcut
  · exact iff_of_true (by omega) hcut

theorem fifth_iff (h : PackedPlane cut fs area rows) (hpos : 1 ≤ rows) (heven : area % 4 = 0) :
    area * 12 ≤ 8 * (fs + fs / 5) ↔ ¬ cut := by
  obtain ⟨hmod, ⟨hcut, hge, heq⟩ | ⟨hcut, ⟨-, hmod', heq⟩ | hspare⟩⟩ := h
  · exact iff_of_false (by omega) (fun hnot => hnot hcut)
  · exact iff_of_true (by omega) hcut
  · exact iff_of_true (by omega) hcut

theorem tenths_iff (h : PackedPlane cut fs area rows) (hpos : 1 ≤ rows) (heven : area % 4 = 0) :
    area * 12 ≤ 8 * (fs + fs / 10 + fs / 10) ↔ ¬ cut := by
  obtain ⟨hmod, ⟨hcut, hge, heq⟩ | ⟨hcut, ⟨-, hmod', heq⟩ | hspare⟩⟩ := h
  · exact iff_of_false (by omega) (fun hnot => hnot hcut)
  · exact iff_of_true (by omega) hcut
  · exact iff_of_true (by omega) hcut

/-- A compressed chroma plane has half a byte a pixel. -/
theorem compressed (h : PackedPlane cut fs area rows) {luma chroma : ℕ}
    (hchroma : area ≤ 2 * chroma) : area * 12 ≤ 8 * (max luma fs + max chroma (fs / 5)) := by
  have hle := h.area_le
  have hluma := Nat.le_max_right luma fs
  have hplane := Nat.le_max_left chroma (fs / 5)
  generalize max luma fs = y at hluma ⊢
  generalize max chroma (fs / 5) = c at hplane ⊢
  omega

/-- What compressed planes gain makes up for three bits a row. -/
theorem halfGain_iff (h : PackedPlane cut fs area rows) (gain : ℕ) :
    area * 15 ≤ 8 * (fs + fs / 2 + gain) ↔ ¬ cut ∨ 3 * rows ≤ 4 * gain := by
  obtain ⟨hmod, ⟨hcut, -, heq⟩ | ⟨hcut, ⟨-, -, heq⟩ | hspare⟩⟩ := h
  · rw [or_iff_right (fun hnot => hnot hcut)]
    omega
  · exact iff_of_true (by omega) (Or.inl hcut)
  · exact iff_of_true (by omega) (Or.inl hcut)

theorem fullGain_iff (h : PackedPlane cut fs area rows) (gain : ℕ) :
    area * 20 ≤ 8 * (fs + fs + gain) ↔ ¬ cut ∨ rows ≤ gain := by
  obtain ⟨-, ⟨hcut, -, heq⟩ | ⟨hcut, ⟨-, -, heq⟩ | hspare⟩⟩ := h
  · rw [or_iff_right (fun hnot => hnot hcut)]
    omega
  · exact iff_of_true (by omega) (Or.inl hcut)
  · exact iff_of_true (by omega) (Or.inl hcut)

end PackedPlane

/-- What compressed planes gain over the plain ones. -/
theorem max_gain (a b c d : ℕ) : max a b + max c d = b + d + ((a - b) + (c - d)) := by
  omega

/-- The planes of a picture whose lines are cut, by its sides alone. -/
theorem cut_planes (hd : header.Documented) (height : ℕ) (hcut : 5 * width % 64 = 2) :
    packedY header width height = cutLuma width height ∧
      sbwcY header width height = cutSbwcY width height ∧
      sbwcCbcr header width height = cutSbwcCbcr width height := by
  have hline : header.ALIGN_UP (width * 2 * 10 / 16) 16 = 80 * (width / 64) + 32 := by
    have hle := hd.le_alignUp (width * 2 * 10 / 16) 16 ⟨4, rfl⟩
    have hlt := hd.alignUp_lt (width * 2 * 10 / 16) 16 ⟨4, rfl⟩
    obtain ⟨a, ha⟩ := hd.dvd_alignUp (width * 2 * 10 / 16) 16 ⟨4, rfl⟩
    omega
  have hrows : header.ALIGN_UP height 8 = 8 * ((height + 7) / 8) := by
    have hle := hd.le_alignUp height 8 ⟨3, rfl⟩
    have hlt := hd.alignUp_lt height 8 ⟨3, rfl⟩
    obtain ⟨k, hk⟩ := hd.dvd_alignUp height 8 ⟨3, rfl⟩
    omega
  set rows := (height + 7) / 8 with hrowsDef
  have hY : SBWC_Y_VSTRIDE_BLOCKS header height = 2 * rows := by
    unfold SBWC_Y_VSTRIDE_BLOCKS
    omega
  have hC : SBWC_CBCR_VSTRIDE_BLOCKS header height = rows := by
    unfold SBWC_CBCR_VSTRIDE_BLOCKS
    omega
  have hstride : (width + 31) / 32 = 2 * (width / 64) + 1 := by omega
  have hhead : ((width + 63) / 64 + 15) / 16 * 16 = 16 * (width / 1024 + 1) := by omega
  have hblocks : 16 * (width / 1024 + 1) * (2 * rows) + 256 =
      32 * ((width / 1024 + 1) * rows + 8) := by ring
  have halign : header.ALIGN_UP (32 * ((width / 1024 + 1) * rows + 8)) 32 =
      32 * ((width / 1024 + 1) * rows + 8) := by
    have hle := hd.le_alignUp (32 * ((width / 1024 + 1) * rows + 8)) 32 ⟨5, rfl⟩
    have hlt := hd.alignUp_lt (32 * ((width / 1024 + 1) * rows + 8)) 32 ⟨5, rfl⟩
    obtain ⟨k, hk⟩ := hd.dvd_alignUp (32 * ((width / 1024 + 1) * rows + 8)) 32 ⟨5, rfl⟩
    omega
  refine ⟨by rw [packedY, hline, cutLuma], ?_, ?_⟩
  · rw [sbwcY, hY, hstride, hhead, hblocks, halign, cutSbwcY, ← hrowsDef]
    ring
  · rw [sbwcCbcr, hC, hstride, hhead, cutSbwcCbcr, ← hrowsDef]
    ring

/-- **Packed pixels have room** when no bits of their line are cut off, for the formats whose
planes are computed from it, and the ratio of a format below ten bits divides by zero or
wraps. -/
theorem yuvHolds_packed (hd : header.Documented) (hw : width ≤ 2 ^ 14) (hh : height ≤ 2 ^ 14)
    (hwpos : 1 ≤ width) (hhpos : 1 ≤ height)
    (hmode : pixelSize = .packedTenBit ∨ pixelSize = .eightTwoBit)
    (hinfo : (getV4l2FormatInfo format pixelSize).isSome) :
    YuvHolds header width height format pixelSize isComp ↔
      format ∉ bayerFormats ∧ (width % 2 = 0 → height % 2 = 0 →
        PackedRoom width height format pixelSize isComp) := by
  obtain ⟨-, -, -, -, -, hlt⟩ := frames_ok hd hw hh
  obtain ⟨-, -, -, hcbcr⟩ := comp8_eq hd hw hh
  have hratio := fun bpp planes (hbpp : 10 < bpp) => ratio_packed hd hw hh planes hbpp hmode
  have hplane := fun hwe => packed_plane height hd hwpos hwe
  cases format
  case RGB24 | SBGGR8 | SGRBG8 | SBGGR10 =>
    exact iff_of_false (not_yuvHolds hd hw hh rfl (by decide) (by decide)
      (Or.inr (Or.inr ⟨hmode, by decide⟩))) fun h => h.1 (by decide)
  case SBGGR16 | SBGGR12 | SBGGR12P | Z16 =>
    rw [yuvHolds_iff rfl, getYuvPlaneSize_eq rfl (by decide) (by decide) (hratio _ 1 (by decide))]
    exact iff_of_false (holds_bayer (by decide) (by decide)) fun h => h.1 (by decide)
  -- the planes of these have room in either case
  case NV16 | NV61 =>
    rw [yuvHolds_iff rfl, getYuvPlaneSize_eq rfl (by decide) (by decide) (hratio _ 1 (by decide)),
      holds_double (by decide) (by omega)]
    refine iff_of_true (fun hwe _ => ?_) ⟨by decide, fun _ _ => trivial⟩
    have hroom := (hplane hwe).area_le
    omega
  case NV12 | NV21 | YUV420 =>
    rw [yuvHolds_iff rfl, getYuvPlaneSize_eq rfl (by decide) (by decide) (hratio _ 1 (by decide))]
    exact iff_of_true (holds_onePlane hd hw hh (by decide) (by omega) fun hwe _ =>
      (hplane hwe).half) ⟨by decide, fun _ _ => trivial⟩
  case YVU420 =>
    rw [yuvHolds_iff rfl, getYuvPlaneSize_eq rfl (by decide) (by decide) (hratio _ 1 (by decide))]
    refine iff_of_true (holds_YVU420 hd hw hh (by omega) ?_) ⟨by decide, fun _ _ => trivial⟩
    have hle := hd.le_alignUp (width * 2 * 10 / 16) 16 ⟨4, rfl⟩
    exact Nat.mul_le_mul_right height (by omega)
  case NV16M | NV61M =>
    rw [yuvHolds_iff rfl, getYuvPlaneSize_eq rfl (by decide) (by decide) (hratio _ 2 (by decide)),
      holds_two hd hw hh (by decide) (by decide) (by omega)]
    refine iff_of_true (fun hwe _ => ?_) ⟨by decide, fun _ _ => trivial⟩
    have hroom := (hplane hwe).area_le
    split <;> omega
  case YUV422P =>
    rw [yuvHolds_iff rfl, getYuvPlaneSize_eq rfl (by decide) (by decide) (hratio _ 3 (by decide)),
      holds_three (by decide) (by omega)]
    exact iff_of_true (fun hwe _ => (hplane hwe).thirds) ⟨by decide, fun _ _ => trivial⟩
  case NV12M_S10B =>
    rw [yuvHolds_iff rfl, getYuvPlaneSize_eq rfl (by decide) (by decide) (hratio _ 2 (by decide))]
    exact iff_of_true (holds_S10B hd hw hh).1 ⟨by decide, fun _ _ => trivial⟩
  case NV16M_S10B =>
    rw [yuvHolds_iff rfl, getYuvPlaneSize_eq rfl (by decide) (by decide) (hratio _ 2 (by decide))]
    exact iff_of_true (holds_S10B hd hw hh).2 ⟨by decide, fun _ _ => trivial⟩
  -- the planes of these fall short of a line that is
  case NV12M | NV21M | NV12MT | NV12MT_16X16 =>
    rw [yuvHolds_iff rfl, getYuvPlaneSize_eq rfl (by decide) (by decide) (hratio _ 2 (by decide)),
      holds_two hd hw hh (by decide) (by decide) (by omega), and_iff_right (by decide)]
    refine imp_congr_right fun hwe => imp_congr_right fun hhe => ?_
    rcases isComp with _ | _
    · refine ((hplane hwe).fifth_iff hhpos (even_product hwe hhe)).trans ?_
      exact (or_iff_right Bool.false_ne_true).symm
    · exact iff_of_true ((hplane hwe).compressed hcbcr) (Or.inl rfl)
  case YUV420M | YVU420M =>
    rw [yuvHolds_iff rfl, getYuvPlaneSize_eq rfl (by decide) (by decide) (hratio _ 3 (by decide)),
      holds_three (by decide) (by omega), and_iff_right (by decide)]
    exact imp_congr_right fun hwe => imp_congr_right fun hhe =>
      (hplane hwe).tenths_iff hhpos (even_product hwe hhe)
  -- and these are refused at 8 bits and 2
  case YUYV | YVYU | UYVY | VYUY =>
    rcases hmode with rfl | rfl
    · rw [yuvHolds_iff rfl, getYuvPlaneSize_eq rfl (by decide) (by decide)
        (hratio _ 1 (by decide)), holds_double (by decide) (by omega), and_iff_right (by decide)]
      refine imp_congr_right fun hwe => imp_congr_right fun _ => ?_
      simp only [PackedRoom, reduceCtorEq, false_or]
      exact (hplane hwe).double_iff hhpos
    · exact iff_of_true (yuvHolds_refused rfl) ⟨by decide, fun _ _ => Or.inl rfl⟩
  case NV12M_P010 =>
    rcases hmode with rfl | rfl
    · rw [yuvHolds_iff rfl, getYuvPlaneSize_eq rfl (by decide) (by decide)
        (hratio _ 2 (by decide)), holds_two hd hw hh (by decide) (by decide) (by omega),
        and_iff_right (by decide)]
      refine imp_congr_right fun hwe => imp_congr_right fun _ => ?_
      have hgain := (hplane hwe).halfGain_iff
      simp only [PackedRoom, reduceCtorEq, false_or]
      rcases isComp with _ | _
      · simp only [Bool.false_eq_true, if_false, false_and, or_false]
        exact (hgain 0).trans (or_iff_left (by omega))
      · simp only [if_true, true_and, max_gain]
        refine (hgain _).trans (or_congr_right' fun hcut => ?_)
        obtain ⟨hy, hsbwcY, hsbwcCbcr⟩ := cut_planes hd height (not_not.mp hcut)
        rw [hy, hsbwcY, hsbwcCbcr]
    · exact iff_of_true (yuvHolds_refused rfl) ⟨by decide, fun _ _ => Or.inl rfl⟩
  case NV16M_P210 =>
    rcases hmode with rfl | rfl
    · rw [yuvHolds_iff rfl, getYuvPlaneSize_eq rfl (by decide) (by decide)
        (hratio _ 2 (by decide)), holds_two hd hw hh (by decide) (by decide) (by omega),
        and_iff_right (by decide)]
      refine imp_congr_right fun hwe => imp_congr_right fun _ => ?_
      have hgain := (hplane hwe).fullGain_iff
      simp only [PackedRoom, reduceCtorEq, false_or, Nat.reduceMul, Nat.reduceSub, Nat.reduceDiv,
        Nat.div_one]
      rcases isComp with _ | _
      · simp only [Bool.false_eq_true, if_false, false_and, or_false]
        exact (hgain 0).trans (or_iff_left (by omega))
      · simp only [if_true, true_and, max_gain]
        refine (hgain _).trans (or_congr_right' fun hcut => ?_)
        obtain ⟨hy, hsbwcY, hsbwcCbcr⟩ := cut_planes hd height (not_not.mp hcut)
        rw [hy, hsbwcY, hsbwcCbcr]
    · exact iff_of_true (yuvHolds_refused rfl) ⟨by decide, fun _ _ => Or.inl rfl⟩
  all_goals exact absurd hinfo Bool.false_ne_true

/-! ## All of them -/

/-- A pixel size that is not handled is refused. -/
theorem yuvHolds_other : YuvHolds header width height format .other isComp := by
  intro bpp planes hinfo
  have hrefused : getYuvPlaneSize header width height format .other isComp =
      .ok (.badValue, Sizes.unset) := by
    simp only [getYuvPlaneSize, hinfo, frameSizeRatio, bind, Except.bind, pure, Except.pure]
    split <;> rfl
  rw [hrefused]
  exact holds_badValue _

theorem yuvHolds_room (hd : header.Documented) (hw : width ≤ 2 ^ 14) (hh : height ≤ 2 ^ 14)
    (hwpos : 1 ≤ width) (hhpos : 1 ≤ height)
    (hinfo : (getV4l2FormatInfo format pixelSize).isSome) :
    YuvHolds header width height format pixelSize isComp ↔
      YuvRoom width height format pixelSize isComp := by
  cases pixelSize
  case eightBit => exact yuvHolds_eightBit hd hw hh hinfo
  case tenBit => exact yuvHolds_tenBit hd hw hh hinfo
  case packedTenBit => exact yuvHolds_packed hd hw hh hwpos hhpos (Or.inl rfl) hinfo
  case eightTwoBit => exact yuvHolds_packed hd hw hh hwpos hhpos (Or.inr rfl) hinfo
  case other => exact iff_of_true yuvHolds_other trivial

/-- **The planes hold the picture.** For every bayer format that is handled, and for every
pixel format and pixel size that is accepted, where no operation divides by zero or wraps,
each size that is reported is set, and the planes have a place for every bit. -/
theorem planes_hold_iff_room (hd : header.Documented) (hwpos : 1 ≤ width) (hw : width ≤ 2 ^ 14)
    (hhpos : 1 ≤ height) (hh : height ≤ 2 ^ 14) :
    (∀ format, (bayerBits format).isSome →
        (BayerHolds width height format ↔ BayerRoom width format)) ∧
      ∀ format pixelSize isComp, (getV4l2FormatInfo format pixelSize).isSome →
        (YuvHolds header width height format pixelSize isComp ↔
          YuvRoom width height format pixelSize isComp) :=
  ⟨fun _ hbits => bayerHolds_iff hw hh hwpos hbits,
    fun _ _ _ hinfo => yuvHolds_room hd hw hh hwpos hhpos hinfo⟩

/-! ## A media header -/

/-- The alignment of the kernel, and planes of aligned lines and rows. -/
def alignedHeader : MediaHeader where
  ALIGN_UP x a := (x + (a - 1)) / a * a
  NV12M_Y_SIZE w h := (w + 63) / 64 * 64 * ((h + 15) / 16 * 16) + 256
  NV12M_Y_2B_SIZE w h := (w / 4 + 15) / 16 * 16 * ((h + 15) / 16 * 16) + 256
  NV12M_CBCR_SIZE w h := (w + 63) / 64 * 64 * ((h + 15) / 16 * 16) / 2 + 256
  NV12M_CBCR_2B_SIZE w h := (w / 4 + 15) / 16 * 16 * ((h + 15) / 16 * 16) / 2 + 256
  NV16M_Y_SIZE w h := (w + 63) / 64 * 64 * ((h + 15) / 16 * 16) + 256
  NV16M_Y_2B_SIZE w h := (w / 4 + 15) / 16 * 16 * ((h + 15) / 16 * 16) + 256
  NV16M_CBCR_SIZE w h := (w + 63) / 64 * 64 * ((h + 15) / 16 * 16) + 256
  NV16M_CBCR_2B_SIZE w h := (w / 4 + 15) / 16 * 16 * ((h + 15) / 16 * 16) + 256

theorem alignedHeader_documented : alignedHeader.Documented := by
  have hrows : ∀ a h : ℕ, a * h ≤ a * ((h + 15) / 16 * 16) := fun a h =>
    Nat.mul_le_mul_left a (by omega)
  have hbounded : ∀ w h : ℕ, w ≤ 2 ^ 14 → h ≤ 2 ^ 14 →
      (w + 63) / 64 * 64 * ((h + 15) / 16 * 16) ≤ 2 ^ 14 * 2 ^ 14 ∧
        (w / 4 + 15) / 16 * 16 * ((h + 15) / 16 * 16) ≤ 2 ^ 12 * 2 ^ 14 := fun w h hw hh =>
    ⟨Nat.mul_le_mul (by omega) (by omega), Nat.mul_le_mul (by omega) (by omega)⟩
  refine ⟨fun x a _ => Nat.dvd_mul_left _ _, fun x a hpower => ?_, fun x a hpower => ?_, ?_, ?_, ?_, ?_,
    ?_, ?_, ?_, ?_, fun w h hw hh => ?bounded⟩
  · have hdiv := Nat.div_add_mod (x + (a - 1)) a
    have hmod := Nat.mod_lt (x + (a - 1)) (Nat.pos_of_isPowerOfTwo hpower)
    simp only [alignedHeader, Nat.mul_comm _ a]
    omega
  · have hpos := Nat.pos_of_isPowerOfTwo hpower
    have hle := Nat.div_mul_le_self (x + (a - 1)) a
    simp only [alignedHeader]
    omega
  case bounded =>
    have hle := hbounded w h hw hh
    simp only [alignedHeader]
    omega
  all_goals
    intro w h
    have h8 := hrows ((w + 63) / 64 * 64) h
    have h2 := hrows ((w / 4 + 15) / 16 * 16) h
    simp only [alignedHeader, Nat.reduceSub]
    omega

/-- A picture in full HD. -/
theorem planes_hold_fullHd :
    alignedHeader.Documented ∧
      (∀ format, (bayerBits format).isSome →
        (BayerHolds 1920 1080 format ↔ BayerRoom 1920 format)) ∧
      ∀ format pixelSize isComp, (getV4l2FormatInfo format pixelSize).isSome →
        (YuvHolds alignedHeader 1920 1080 format pixelSize isComp ↔
          YuvRoom 1920 1080 format pixelSize isComp) :=
  ⟨alignedHeader_documented,
    planes_hold_iff_room alignedHeader_documented (by decide) (by decide) (by decide) (by decide)⟩

/-- A line of 1044 pixels of 13 bits is short of four bits and one of 1050 packed pixels of
two; whatever its size, a picture in `RGB24` divides by zero, one in `NV12M` wraps at ten bits,
and one in `SBGGR16` has no sizes. -/
theorem not_planes_hold :
    ¬ BayerHolds 1044 1050 .SBGGR12P ∧
      ¬ YuvHolds alignedHeader 1050 1050 .NV12M .packedTenBit false ∧
      getYuvPlaneSize alignedHeader 1050 1050 .RGB24 .eightBit false =
        .error .divisionByZero ∧
      getYuvPlaneSize alignedHeader 1050 1050 .NV12M .tenBit false = .error .wrapped ∧
      getYuvPlaneSize alignedHeader 1050 1050 .SBGGR16 .eightBit false =
        .ok (.noError, Sizes.unset) := by
  refine ⟨fun h => ?_, fun h => ?_, by decide +kernel, by decide +kernel, by decide +kernel⟩
  · obtain ⟨⟨line, hline, hroom⟩, -⟩ := h 13 rfl
    have heq : getBayerLineSize 1044 .SBGGR12P = .ok 1696 := rfl
    rw [heq] at hline
    cases hline
    omega
  · obtain ⟨status, sizes, heq, hsizes⟩ := h 12 2 rfl
    have hcase : getYuvPlaneSize alignedHeader 1050 1050 .NV12M .packedTenBit false =
      .ok (.noError, ⟨some 1377600, some 275520, some 0⟩) := by decide +kernel
    rw [hcase] at heq
    cases heq
    obtain ⟨_, _, _, hset, -, hroom⟩ := hsizes rfl
    cases hset
    exact absurd (hroom rfl rfl) (by decide)

end ExynosVendor.Camera.PlaneSize
