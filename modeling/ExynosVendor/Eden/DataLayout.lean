import ExynosVendor.Common.Block
import ExynosVendor.Common.RowMajor
import ExynosVendor.Common.Word
import Mathlib.Data.List.Perm.Subperm

/-!
# Data layouts of the NN driver

The clients of the driver keep a tensor by (number, height, width, channel), the
device by (number, channel, height, width), and `PrePostProcessor` moves the
elements from one to the other within the buffer, through a copy on the heap.

The copy has as many elements as the buffer has bytes and is written back by the
buffer's bytes, whatever the operand's dimensions say. The two numbers agree
where the buffer holds exactly the operand's tensor, and there
`convertToNHWC_spec` says what is left in it; `convertToNCHW_front` is for a buffer that
may have more.
-/

namespace ExynosVendor.Eden

open RowMajor
open List Option

/-- The types of the elements, `DATA_TYPE`. -/
inductive DataType where
  | float32
  | quant8
  | relaxedFloat32
  | int32
  | bool8
  | float16
  | int64
  | int16
  | int8
  | uint64
  | uint32
  | uint16
  | uint8
  deriving DecidableEq

/-- The operand types of the API; `other` are those the driver does not know. -/
inductive OperandType where
  | float32
  | int32
  | uint32
  | tensorFloat32
  | tensorInt32
  | tensorQuant8Asymm
  | bool
  | tensorQuant16Symm
  | tensorFloat16
  | tensorBool8
  | float16
  | tensorQuant8SymmPerChannel
  | tensorQuant16Asymm
  | tensorQuant8Symm
  | other
  deriving DecidableEq

/-- The type of an operand's elements. -/
def getDataType : OperandType → DataType
  | .float32 => .float32
  | .int32 => .int32
  | .uint32 => .int32
  | .tensorFloat32 => .float32
  | .tensorInt32 => .int32
  | .tensorQuant8Asymm => .quant8
  | .bool => .bool8
  | .tensorQuant16Symm => .int16
  | .tensorFloat16 => .float16
  | .tensorBool8 => .int8
  | .float16 => .float16
  | .tensorQuant8SymmPerChannel => .int8
  | .tensorQuant16Asymm => .int16
  | .tensorQuant8Symm => .int8
  | .other => .float32

/-- The bytes of the C++ type that the elements are moved as. -/
def DataType.width : DataType → ℕ
  | .quant8 | .bool8 | .int8 | .uint8 => 1
  | .relaxedFloat32 | .float16 | .int16 | .uint16 => 2
  | .float32 | .int32 | .uint32 => 4
  | .int64 | .uint64 => 8

theorem DataType.width_pos (dataType : DataType) : 0 < dataType.width := by
  cases dataType <;> decide

/-- The four dimensions of the device, of type `int32_t`. -/
structure EdenDims where
  number : ℤ
  channel : ℤ
  height : ℤ
  width : ℤ
  deriving DecidableEq

/-- The dimensions of the API, `uint32_t` each, as the device has them. -/
def getEdenDimensions : List ℕ → EdenDims
  | [] => ⟨0, 0, 0, 0⟩
  | [number] => if number ≠ 0 then ⟨toInt number, 1, 1, 1⟩ else ⟨0, 0, 0, 0⟩
  | [height, width] => ⟨1, 1, toInt height, toInt width⟩
  | [number, height, width] => ⟨toInt number, 1, toInt height, toInt width⟩
  | number :: height :: width :: channel :: _ =>
      ⟨toInt number, toInt channel, toInt height, toInt width⟩

namespace EdenDims

variable (d : EdenDims)

/-- How many elements the four loops see. -/
def volume : ℕ := d.number.toNat * (d.channel.toNat * (d.height.toNat * d.width.toNat))

/-- Where the loops of `convertToNHWC` put the elements they see in turn. -/
def nhwcPlaces : List ℕ :=
  (List.range d.number.toNat ×ˢ List.range d.channel.toNat ×ˢ List.range d.height.toNat ×ˢ
    List.range d.width.toNat).map fun x =>
      ((x.1 * d.height.toNat + x.2.2.1) * d.width.toNat + x.2.2.2) * d.channel.toNat + x.2.1

/-- And those of `convertToNCHW`, of which the innermost is the channel's. -/
def nchwPlaces : List ℕ :=
  (List.range d.number.toNat ×ˢ List.range d.height.toNat ×ˢ List.range d.width.toNat ×ˢ
    List.range d.channel.toNat).map fun x =>
      ((x.1 * d.channel.toNat + x.2.2.2) * d.height.toNat + x.2.1) * d.width.toNat + x.2.2.1

end EdenDims

/-- The copy of the conversions: `size` elements from the heap, the element `i` of the
input moved to the place `i` of `places` as `f` makes it; its first `size` bytes are the
result. -/
def moved (places : List ℕ) (width : ℕ) (f : List (BitVec 8) → List (BitVec 8))
    (heap : ℕ → BitVec 8) (input : List (BitVec 8)) (size : ℕ) : List (BitVec 8) :=
  let temp := (List.range size).map fun k => (List.range width).map fun j => heap (k * width + j)
  let elements := (List.range places.length).map fun k => f (cell width input k)
  (scatter temp places elements).flatten.take size

/-- The conversions, of the `size` bytes at `addr`. An exception of `new`, for a size
that is negative as an `int32_t`, ends the process. -/
def convert (places : List ℕ) (width : ℕ) (f : List (BitVec 8) → List (BitVec 8))
    (heap : ℕ → BitVec 8) (memory : List (BitVec 8)) (addr size : ℕ) :
    Option (List (BitVec 8)) :=
  if 2 ^ 31 ≤ size then none
  else
    (Block.load memory addr (places.length * width)).bind fun input =>
      if places.all (· < size) then
        Block.store memory addr (moved places width f heap input size)
      else none

/-- `convertToNHWC<T>`, and `convertToNHWCWithOffset<T>` of elements of one byte, which are
those that the scheduler gives an offset. -/
def convertToNHWC (d : EdenDims) (width : ℕ) (offset : BitVec 8) :
    (ℕ → BitVec 8) → List (BitVec 8) → ℕ → ℕ → Option (List (BitVec 8)) :=
  convert d.nhwcPlaces width (List.map (· + offset))

/-- `convertToNCHW<T>`, and `convertToNCHWWithOffset<T>` of elements of one byte. -/
def convertToNCHW (d : EdenDims) (width : ℕ) (offset : BitVec 8) :
    (ℕ → BitVec 8) → List (BitVec 8) → ℕ → ℕ → Option (List (BitVec 8)) :=
  convert d.nchwPlaces width (List.map (· + offset))

/-- `convertDataLayoutFromNCHWToNHWC`, which skips a buffer without bytes. -/
def convertDataLayoutFromNCHWToNHWC (d : EdenDims) (dataType : DataType) (offset : BitVec 8)
    (heap : ℕ → BitVec 8) (memory : List (BitVec 8)) (addr size : ℕ) :
    Option (List (BitVec 8)) :=
  if size = 0 then some memory else convertToNHWC d dataType.width offset heap memory addr size

/-- `convertDataLayoutFromNHWCToNCHW`, in the same way. -/
def convertDataLayoutFromNHWCToNCHW (d : EdenDims) (dataType : DataType) (offset : BitVec 8)
    (heap : ℕ → BitVec 8) (memory : List (BitVec 8)) (addr size : ℕ) :
    Option (List (BitVec 8)) :=
  if size = 0 then some memory else convertToNCHW d dataType.width offset heap memory addr size

/-! ## What a conversion leaves -/

/-- Two buffers hold one tensor, the first by (number, channel, height, width) and
the second by (number, height, width, channel), each element of `width` bytes; the
second's bytes are larger by `offset`. -/
structure EdenDims.IsNHWC (d : EdenDims) (width : ℕ) (offset : BitVec 8)
    (nchw nhwc : List (BitVec 8)) : Prop where
  length : nhwc.length = d.volume * width
  element : ∀ n < d.number.toNat, ∀ c < d.channel.toNat, ∀ h < d.height.toNat,
    ∀ w < d.width.toNat,
      cell width nhwc
          (((n * d.height.toNat + h) * d.width.toNat + w) * d.channel.toNat + c) =
        (cell width nchw
          (((n * d.channel.toNat + c) * d.height.toNat + h) * d.width.toNat + w)).map (· + offset)

/-- As `IsNHWC`, but it is the second that has the layout of the device. -/
structure EdenDims.IsNCHW (d : EdenDims) (width : ℕ) (offset : BitVec 8)
    (nhwc nchw : List (BitVec 8)) : Prop where
  length : nchw.length = d.volume * width
  element : ∀ n < d.number.toNat, ∀ c < d.channel.toNat, ∀ h < d.height.toNat,
    ∀ w < d.width.toNat,
      cell width nchw
          (((n * d.channel.toNat + c) * d.height.toNat + h) * d.width.toNat + w) =
        (cell width nhwc
          (((n * d.height.toNat + h) * d.width.toNat + w) * d.channel.toNat + c)).map (· + offset)

section Places

variable (d : EdenDims)

theorem EdenDims.length_nhwcPlaces : d.nhwcPlaces.length = d.volume := by
  simp only [nhwcPlaces, volume, length_map, length_product, length_range]

theorem EdenDims.length_nchwPlaces : d.nchwPlaces.length = d.volume := by
  simp only [nchwPlaces, volume, length_map, length_product, length_range]
  ring

/-- Each place of `convertToNHWC` is within the tensor. -/
theorem EdenDims.nhwcPlaces_lt : ∀ k ∈ d.nhwcPlaces, k < d.volume := by
  intro k hk
  obtain ⟨⟨n, c, h, w⟩, hx, rfl⟩ := mem_map.mp hk
  simp only [mem_product, mem_range] at hx
  obtain ⟨hn, hc, hh, hw⟩ := hx
  have hplace := index_lt (index_lt (index_lt hn hh) hw) hc
  refine lt_of_lt_of_eq hplace ?_
  rw [volume]
  ring

theorem EdenDims.nchwPlaces_lt : ∀ k ∈ d.nchwPlaces, k < d.volume := by
  intro k hk
  obtain ⟨⟨n, h, w, c⟩, hx, rfl⟩ := mem_map.mp hk
  simp only [mem_product, mem_range] at hx
  obtain ⟨hn, hh, hw, hc⟩ := hx
  have hplace := index_lt (index_lt (index_lt hn hc) hh) hw
  refine lt_of_lt_of_eq hplace ?_
  rw [volume]
  ring

/-- And no two elements are put at one place. -/
theorem EdenDims.nodup_nhwcPlaces : d.nhwcPlaces.Nodup := by
  refine Nodup.map_on ?_ (nodup_range.product
    (nodup_range.product (nodup_range.product nodup_range)))
  rintro ⟨n, c, h, w⟩ hx ⟨n', c', h', w'⟩ hx' heq
  simp only [mem_product, mem_range] at hx hx'
  obtain ⟨-, hc, hh, hw⟩ := hx
  obtain ⟨-, hc', hh', hw'⟩ := hx'
  obtain ⟨heq, rfl⟩ := index_inj hc hc' heq
  obtain ⟨heq, rfl⟩ := index_inj hw hw' heq
  obtain ⟨rfl, rfl⟩ := index_inj hh hh' heq
  rfl

theorem EdenDims.nodup_nchwPlaces : d.nchwPlaces.Nodup := by
  refine Nodup.map_on ?_ (nodup_range.product
    (nodup_range.product (nodup_range.product nodup_range)))
  rintro ⟨n, h, w, c⟩ hx ⟨n', h', w', c'⟩ hx' heq
  simp only [mem_product, mem_range] at hx hx'
  obtain ⟨-, hh, hw, hc⟩ := hx
  obtain ⟨-, hh', hw', hc'⟩ := hx'
  obtain ⟨heq, rfl⟩ := index_inj hw hw' heq
  obtain ⟨heq, rfl⟩ := index_inj hh hh' heq
  obtain ⟨rfl, rfl⟩ := index_inj hc hc' heq
  rfl

/-- The places in an array of four dimensions. -/
theorem getElem?_product_range {i j k l a b c d : ℕ} (hi : i < a) (hj : j < b) (hk : k < c)
    (hl : l < d) :
    (List.range a ×ˢ List.range b ×ˢ List.range c ×ˢ List.range d)[((i * b + j) * c + k) * d + l]? =
      some (i, j, k, l) := by
  have hturn := getElem?_product (getElem?_range hi)
    (getElem?_product (getElem?_range hj) (getElem?_product (getElem?_range hk) (getElem?_range hl)))
  simp only [length_product, length_range] at hturn
  have hindex : ((i * b + j) * c + k) * d + l = i * (b * (c * d)) + (j * (c * d) + (k * d + l)) := by
    ring
  rw [hindex, hturn]

/-- The element at (number, channel, height, width) is seen in its turn. -/
theorem EdenDims.getElem?_nhwcPlaces {n c h w : ℕ} (hn : n < d.number.toNat)
    (hc : c < d.channel.toNat) (hh : h < d.height.toNat) (hw : w < d.width.toNat) :
    d.nhwcPlaces[((n * d.channel.toNat + c) * d.height.toNat + h) * d.width.toNat + w]? =
      some (((n * d.height.toNat + h) * d.width.toNat + w) * d.channel.toNat + c) := by
  rw [nhwcPlaces, getElem?_map, getElem?_product_range hn hc hh hw]
  rfl

theorem EdenDims.getElem?_nchwPlaces {n c h w : ℕ} (hn : n < d.number.toNat)
    (hc : c < d.channel.toNat) (hh : h < d.height.toNat) (hw : w < d.width.toNat) :
    d.nchwPlaces[((n * d.height.toNat + h) * d.width.toNat + w) * d.channel.toNat + c]? =
      some (((n * d.channel.toNat + c) * d.height.toNat + h) * d.width.toNat + w) := by
  rw [nchwPlaces, getElem?_map, getElem?_product_range hn hh hw hc]
  rfl

end Places

section Convert

variable {places : List ℕ} {width : ℕ} {heap : ℕ → BitVec 8}
variable {f : List (BitVec 8) → List (BitVec 8)} {input memory : List (BitVec 8)} {addr size : ℕ}

theorem index_cell {i n : ℕ} (hi : i < n) : i * width + width ≤ n * width := by
  have hrow : (i + 1) * width ≤ n * width := Nat.mul_le_mul_right width hi
  rwa [Nat.add_mul, Nat.one_mul] at hrow

/-- The copy keeps the width of its elements. -/
theorem scatter_width (hf : ∀ c, (f c).length = c.length) (hinput : input.length = places.length * width) :
    ∀ c ∈ scatter
      ((List.range size).map fun k => (List.range width).map fun j => heap (k * width + j)) places
      ((List.range places.length).map fun k => f (cell width input k)),
      c.length = width := by
  refine forall_scatter (fun c hc => ?_) (fun c hc => ?_) places
  · obtain ⟨k, -, rfl⟩ := mem_map.mp hc
    rw [length_map, length_range]
  · obtain ⟨k, hk, rfl⟩ := mem_map.mp hc
    rw [hf]
    exact length_cell (hinput ▸ index_cell (mem_range.mp hk))

theorem length_moved (hwidth : 0 < width) (hf : ∀ c, (f c).length = c.length)
    (hinput : input.length = places.length * width) :
    (moved places width f heap input size).length = size := by
  have hbytes : size ≤ size * width := Nat.le_mul_of_pos_right _ hwidth
  rw [moved, length_take, length_flatten (scatter_width hf hinput),
    length_scatter, length_map, length_range]
  omega

/-- Each element is found at its place. -/
theorem cell_moved (hnodup : places.Nodup) (hlt : ∀ k ∈ places, k < places.length)
    (hwidth : 0 < width) (hf : ∀ c, (f c).length = c.length)
    (hsize : places.length * width ≤ size) (hinput : input.length = places.length * width)
    {i k : ℕ} (hk : places[i]? = some k) :
    cell width (moved places width f heap input size) k =
      f (cell width input i) := by
  have hi : i < places.length := (List.getElem?_eq_some_iff.mp hk).1
  have hklt : k < places.length := hlt k (mem_of_getElem? hk)
  have hcount : places.length ≤ places.length * width := Nat.le_mul_of_pos_right _ hwidth
  have hwithin : k * width + width ≤ size := (index_cell hklt).trans hsize
  rw [moved, cell_take hwithin]
  refine cell_flatten (scatter_width hf hinput) (getElem?_scatter hnodup hk ?_ ?_)
  · rw [length_map, length_range]
    omega
  · rw [getElem?_map, getElem?_range hi]
    rfl

/-- A conversion stays within its objects when the elements that the dimensions
speak of can be read, the copy has a place for each, and the buffer is one. -/
theorem convert_isSome_iff (hwidth : 0 < width) (hf : ∀ c, (f c).length = c.length) :
    (convert places width f heap memory addr size).isSome ↔
      size < 2 ^ 31 ∧ addr + places.length * width ≤ memory.length ∧
        (∀ k ∈ places, k < size) ∧ addr + size ≤ memory.length := by
  unfold convert
  by_cases hint : 2 ^ 31 ≤ size
  · rw [if_pos hint]
    simp only [isSome_none, Bool.false_eq_true, false_iff]
    omega
  · rw [if_neg hint]
    by_cases hread : addr + places.length * width ≤ memory.length
    · have hinput : ((memory.drop addr).take (places.length * width)).length =
          places.length * width := by
        rw [length_take, length_drop]
        omega
      rw [Block.load_of_le hread, bind_some]
      by_cases hplaces : places.all (· < size) = true
      · rw [if_pos hplaces, Block.store_isSome_iff, length_moved hwidth hf hinput]
        simp only [List.all_eq_true, decide_eq_true_eq] at hplaces
        exact ⟨fun h => ⟨by omega, hread, hplaces, h⟩, fun h => h.2.2.2⟩
      · rw [if_neg hplaces]
        simp only [List.all_eq_true, decide_eq_true_eq] at hplaces
        simp only [isSome_none, Bool.false_eq_true, false_iff]
        exact fun h => hplaces h.2.2.1
    · rw [Block.load_eq_none (Nat.not_le.mp hread)]
      simp only [bind_none, isSome_none, Bool.false_eq_true, false_iff]
      exact fun h => hread h.2.1

/-- A conversion asks no more of `f` than what it does to elements. -/
theorem convert_congr {g : List (BitVec 8) → List (BitVec 8)}
    (h : ∀ c, c.length = width → f c = g c) :
    convert places width f heap memory addr size =
      convert places width g heap memory addr size := by
  unfold convert
  split
  · rfl
  · cases hload : Block.load memory addr (places.length * width) with
    | none => rfl
    | some input =>
      have hinput := Block.length_load hload
      have helements : (List.range places.length).map (fun k => f (cell width input k)) =
          (List.range places.length).map fun k => g (cell width input k) :=
        map_congr_left fun k hk =>
          h _ (length_cell (hinput ▸ index_cell (mem_range.mp hk)))
      simp only [bind_some, moved, helements]

theorem length_convert {memory' : List (BitVec 8)}
    (h : convert places width f heap memory addr size = some memory') :
    memory'.length = memory.length := by
  unfold convert at h
  split at h
  · contradiction
  · obtain ⟨input, -, h⟩ := bind_eq_some_iff.mp h
    split at h
    · exact Block.store_length h
    · contradiction

/-- **A conversion moves the elements**, where the bytes are exactly the elements
of the four loops: each is found at its place, and the rest is as it was. -/
theorem convert_spec (hnodup : places.Nodup) (hlt : ∀ k ∈ places, k < places.length)
    (hwidth : 0 < width) (hf : ∀ c, (f c).length = c.length)
    (hsize : size = places.length * width) (hint : size < 2 ^ 31) (hfit : addr + size ≤ memory.length) :
    ∃ out, convert places width f heap memory addr size = Block.store memory addr out ∧
      out.length = size ∧ ∀ i k, places[i]? = some k →
        cell width out k =
          f (cell width ((memory.drop addr).take size) i) := by
  have hload : Block.load memory addr (places.length * width) =
      some ((memory.drop addr).take size) := by
    rw [← hsize]
    exact Block.load_of_le hfit
  have hcount : places.length ≤ size := hsize ▸ Nat.le_mul_of_pos_right _ hwidth
  have hplaces : places.all (· < size) = true := by
    rw [List.all_eq_true]
    intro k hk
    have := hlt k hk
    simp only [decide_eq_true_eq]
    omega
  have hinput : ((memory.drop addr).take size).length = places.length * width := by
    rw [length_take, length_drop]
    omega
  refine ⟨_, by rw [convert, if_neg (by omega), hload, bind_some, if_pos hplaces],
    length_moved hwidth hf hinput, fun i k hk => ?_⟩
  exact cell_moved hnodup hlt hwidth hf (by omega) hinput hk

/-- **Nothing of the heap is left** in a buffer that the tensor fills. -/
theorem convert_heap (hnodup : places.Nodup) (hlt : ∀ k ∈ places, k < places.length)
    (hwidth : 0 < width) (hf : ∀ c, (f c).length = c.length) (hsize : size = places.length * width)
    (heap' : ℕ → BitVec 8) :
    convert places width f heap memory addr size = convert places width f heap' memory addr size := by
  unfold convert
  split
  · rfl
  cases hload : Block.load memory addr (places.length * width) with
  | none => rfl
  | some input =>
    have hinput := Block.length_load hload
    have hlength : ∀ heap, (moved places width f heap input size).length =
        places.length * width := fun heap => (length_moved hwidth hf hinput).trans hsize
    -- every place is that of some element
    have hevery : places.Perm (List.range places.length) :=
      (subperm_of_subset hnodup fun k hk => mem_range.mpr (hlt k hk)).perm_of_length_le
        length_range.le
    have hmoved : moved places width f heap input size = moved places width f heap' input size := by
      refine ext_cell (hlength heap) (hlength heap') fun k hk => ?_
      have hmem : k ∈ places := hevery.mem_iff.mpr (mem_range.mpr hk)
      obtain ⟨i, hi⟩ := mem_iff_getElem?.mp hmem
      rw [cell_moved hnodup hlt hwidth hf hsize.ge hinput hi,
        cell_moved hnodup hlt hwidth hf hsize.ge hinput hi]
    rw [bind_some, bind_some, hmoved]

end Convert

/-- **What `convertToNHWC` leaves** of a buffer that is a tensor by (number,
channel, height, width). -/
theorem convertToNHWC_spec (d : EdenDims) {width : ℕ} (hwidth : 0 < width)
    (offset : BitVec 8) (heap : ℕ → BitVec 8) {memory : List (BitVec 8)} {addr size : ℕ}
    (hsize : size = d.volume * width) (hint : size < 2 ^ 31)
    (hfit : addr + size ≤ memory.length) :
    ∃ out, convertToNHWC d width offset heap memory addr size = Block.store memory addr out ∧
      d.IsNHWC width offset ((memory.drop addr).take size) out := by
  have hlength := d.length_nhwcPlaces
  obtain ⟨out, heq, hlen, hcells⟩ := convert_spec d.nodup_nhwcPlaces
    (hlength ▸ d.nhwcPlaces_lt) hwidth (fun _ => length_map _) (hlength ▸ hsize) hint hfit
  refine ⟨out, heq, hlen.trans hsize, fun n hn c hc h hh w hw => ?_⟩
  exact hcells _ _ (d.getElem?_nhwcPlaces hn hc hh hw)

/-- **And what `convertToNCHW` leaves** of a buffer that starts with one by (number,
height, width, channel): a tensor in front of bytes of the heap. -/
theorem convertToNCHW_front (d : EdenDims) {width : ℕ} (hwidth : 0 < width)
    (offset : BitVec 8) (heap : ℕ → BitVec 8) {memory memory' : List (BitVec 8)}
    (h : convertToNCHW d width offset heap memory 0 memory.length = some memory') :
    d.IsNCHW width offset (memory.take (d.volume * width)) (memory'.take (d.volume * width)) := by
  have hplaces := d.length_nchwPlaces
  have hkept := length_convert h
  have hsome := isSome_iff_exists.mpr ⟨memory', h⟩
  obtain ⟨-, hfit, -, -⟩ := (convert_isSome_iff hwidth fun _ => length_map _).mp hsome
  rw [Nat.zero_add, hplaces] at hfit
  unfold convertToNCHW convert at h
  split at h
  · contradiction
  obtain ⟨input, hinput, h⟩ := bind_eq_some_iff.mp h
  split at h
  swap
  · contradiction
  have hread := Block.length_load hinput
  rw [Block.load_of_le (by rw [hplaces]; omega), drop_zero, some.injEq, hplaces] at hinput
  have hmoved := Block.load_store h
  rw [length_moved hwidth (fun _ => length_map _) hread, Block.load_of_le (by omega), some.injEq, drop_zero,
    ← hkept, take_length] at hmoved
  refine ⟨by rw [length_take]; omega, fun n hn c hc y hy x hx => ?_⟩
  have hplace := d.getElem?_nchwPlaces hn hc hy hx
  have hwithin : _ * width + width ≤ d.volume * width :=
    index_cell (d.nchwPlaces_lt _ (mem_of_getElem? hplace))
  rw [cell_take hwithin, hmoved, hinput, hkept]
  exact cell_moved d.nodup_nchwPlaces (hplaces ▸ d.nchwPlaces_lt) hwidth
    (fun _ => length_map _) (by rw [hplaces]; omega) (hinput ▸ hread) hplace

end ExynosVendor.Eden
