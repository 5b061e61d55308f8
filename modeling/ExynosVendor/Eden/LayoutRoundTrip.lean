import ExynosVendor.Common.LittleEndian
import ExynosVendor.Eden.DataLayout

/-!
# The conversions of layout, and back

`convertDataLayoutFromNHWCToNCHW` and `convertDataLayoutFromNCHWToNHWC` of
`PrePostProcessor`, for every type of elements and with any offset: the first with an
offset and the second with its negative should leave a buffer as it was. What a sum of a
`float` and an `int` is stays open.
-/

namespace ExynosVendor.Eden.PrePostProcessor

open LittleEndian

/-- The C++ types that elements are moved as. -/
inductive ElementType where
  | int8
  | int16
  | int32
  | int64
  | float
  deriving DecidableEq

def ElementType.width : ElementType → ℕ
  | .int8 => 1
  | .int16 => 2
  | .int32 => 4
  | .int64 => 8
  | .float => 4

/-- The cases of the switches without an offset. -/
def elementType : DataType → ElementType
  | .quant8 | .bool8 => .int8
  | .relaxedFloat32 | .float16 => .int16
  | .float32 => .float
  | .int8 | .uint8 => .int8
  | .int16 | .uint16 => .int16
  | .int32 | .uint32 => .int32
  | .int64 | .uint64 => .int64

/-- `*(input++) + offset` as it is stored, on the bytes of an element. -/
def plus (floatAdd : BitVec 32 → ℤ → BitVec 32) (T : ElementType) (offset : ℤ)
    (element : List (BitVec 8)) : List (BitVec 8) :=
  match T with
  | .float =>
      encode element.length
        (floatAdd (BitVec.ofNat 32 (decode element)) offset).toNat
  | _ =>
      encode element.length
        ((decode element + offset) % 256 ^ element.length).toNat

variable (floatAdd : BitVec 32 → ℤ → BitVec 32)

def convertToNHWC (d : EdenDims) (T : ElementType) :
    (ℕ → BitVec 8) → List (BitVec 8) → ℕ → ℕ → Option (List (BitVec 8)) :=
  convert d.nhwcPlaces T.width id

def convertToNCHW (d : EdenDims) (T : ElementType) :
    (ℕ → BitVec 8) → List (BitVec 8) → ℕ → ℕ → Option (List (BitVec 8)) :=
  convert d.nchwPlaces T.width id

def convertToNHWCWithOffset (d : EdenDims) (T : ElementType) (offset : ℤ) :
    (ℕ → BitVec 8) → List (BitVec 8) → ℕ → ℕ → Option (List (BitVec 8)) :=
  convert d.nhwcPlaces T.width (plus floatAdd T offset)

def convertToNCHWWithOffset (d : EdenDims) (T : ElementType) (offset : ℤ) :
    (ℕ → BitVec 8) → List (BitVec 8) → ℕ → ℕ → Option (List (BitVec 8)) :=
  convert d.nchwPlaces T.width (plus floatAdd T offset)

/-- `convertDataLayoutFromNCHWToNHWC`, of a buffer. -/
def convertDataLayoutFromNCHWToNHWC (d : EdenDims) (dataType : DataType) (offset : ℤ)
    (heap : ℕ → BitVec 8) (memory : List (BitVec 8)) (addr size : ℕ) :
    Option (List (BitVec 8)) :=
  if size = 0 then some memory
  else if offset = 0 then convertToNHWC d (elementType dataType) heap memory addr size
  else
    match dataType with
    | .quant8 | .bool8 => convertToNHWCWithOffset floatAdd d .int8 offset heap memory addr size
    | .relaxedFloat32 | .float16 =>
        convertToNHWCWithOffset floatAdd d .int16 offset heap memory addr size
    | .float32 => convertToNHWCWithOffset floatAdd d .float offset heap memory addr size
    | .int8 | .uint8 => convertToNHWCWithOffset floatAdd d .int8 offset heap memory addr size
    -- the offset is not handed on
    | .int16 | .uint16 => convertToNHWC d .int16 heap memory addr size
    | .int32 | .uint32 => convertToNHWCWithOffset floatAdd d .int32 offset heap memory addr size
    | .int64 | .uint64 => convertToNHWCWithOffset floatAdd d .int64 offset heap memory addr size

/-- `convertDataLayoutFromNHWCToNCHW`, whose cases with an offset are those without. -/
def convertDataLayoutFromNHWCToNCHW (d : EdenDims) (dataType : DataType) (offset : ℤ)
    (heap : ℕ → BitVec 8) (memory : List (BitVec 8)) (addr size : ℕ) :
    Option (List (BitVec 8)) :=
  if size = 0 then some memory
  else if offset = 0 then convertToNCHW d (elementType dataType) heap memory addr size
  else convertToNCHWWithOffset floatAdd d (elementType dataType) offset heap memory addr size

/-! ## The law -/

/-- The second buffer holds the tensor of the first by (number, channel, height, width),
each element made another by `f`. -/
structure PlacedByNCHW (d : EdenDims) (width : ℕ) (f : List (BitVec 8) → List (BitVec 8))
    (nhwc nchw : List (BitVec 8)) : Prop where
  length : nchw.length = d.volume * width
  element : ∀ n < d.number.toNat, ∀ c < d.channel.toNat, ∀ h < d.height.toNat,
    ∀ w < d.width.toNat,
      RowMajor.cell width nchw
          (((n * d.channel.toNat + c) * d.height.toNat + h) * d.width.toNat + w) =
        f (RowMajor.cell width nhwc
          (((n * d.height.toNat + h) * d.width.toNat + w) * d.channel.toNat + c))

/-- **The conversions are inverse.** The first stays in bounds and puts every element, with
the offset, at its place; the second stays in bounds and leaves the buffer as it was. -/
def RoundTrip (d : EdenDims) (dataType : DataType) (offset : ℤ) (heap heap' : ℕ → BitVec 8)
    (memory : List (BitVec 8)) (addr size : ℕ) : Prop :=
  ∃ memory',
    convertDataLayoutFromNHWCToNCHW floatAdd d dataType offset heap memory addr size =
      some memory' ∧
    PlacedByNCHW d dataType.width
      (if offset = 0 then id else plus floatAdd (elementType dataType) offset)
      ((memory.drop addr).take size) ((memory'.drop addr).take size) ∧
    convertDataLayoutFromNCHWToNHWC floatAdd d dataType (-offset) heap' memory' addr size =
      some memory

/-- **What can be undone**: for 16-bit integers, of which the second conversion leaves out the
offset, one that vanishes in 16 bits; for floats, one that no element's sum is rounded by. -/
def Invertible (d : EdenDims) (dataType : DataType) (offset : ℤ) (buffer : List (BitVec 8)) :
    Prop :=
  d.volume = 0 ∨ offset = 0 ∨
    match dataType with
    | .int16 | .uint16 => offset % 2 ^ 16 = 0
    | .float32 =>
        ∀ k < d.volume,
          let element := BitVec.ofNat 32 (decode (RowMajor.cell 4 buffer k))
          floatAdd (floatAdd element offset) (-offset) = element
    | _ => True

/-! ## Elements -/

variable {floatAdd : BitVec 32 → ℤ → BitVec 32} {T : ElementType} {offset : ℤ}
  {element : List (BitVec 8)}

theorem elementType_width (dataType : DataType) :
    (elementType dataType).width = dataType.width := by
  cases dataType <;> rfl

theorem length_plus (element : List (BitVec 8)) :
    (plus floatAdd T offset element).length = element.length := by
  unfold plus
  split <;> exact length_encode _ _

/-- The sum of integers, as the number that is stored. -/
theorem emod_lt (n : ℤ) (width : ℕ) : (n % 256 ^ width).toNat < 256 ^ width := by
  have hpos : (0 : ℤ) < 256 ^ width := Int.pow_pos (by decide)
  have hlt := Int.emod_lt_of_pos n hpos
  have hcast : ((256 ^ width : ℕ) : ℤ) = 256 ^ width := by push_cast; rfl
  omega

theorem decode_plus (hT : T ≠ .float) :
    (decode (plus floatAdd T offset element) : ℤ) =
      (decode element + offset) % 256 ^ element.length := by
  have hpos : (0 : ℤ) < 256 ^ element.length := Int.pow_pos (by decide)
  have hplus : plus floatAdd T offset element = encode element.length
      ((decode element + offset) % 256 ^ element.length).toNat := by
    cases T
    case float => exact absurd rfl hT
    all_goals rfl
  rw [hplus, decode_encode_of_lt (emod_lt _ _)]
  exact Int.toNat_of_nonneg (Int.emod_nonneg _ hpos.ne')

/-- An element of integers is known by its number. -/
theorem eq_of_decode {a b : List (BitVec 8)} (hlen : a.length = b.length)
    (h : (decode a : ℤ) = decode b) : a = b := by
  rw [← encode_decode a, ← encode_decode b, hlen, Int.ofNat_inj.mp h]

/-- **The negative offset undoes the offset**, modulo the width of the integers. -/
theorem plus_neg (hT : T ≠ .float) :
    plus floatAdd T (-offset) (plus floatAdd T offset element) = element := by
  refine eq_of_decode (by rw [length_plus, length_plus]) ?_
  have hlt := decode_lt element
  rw [decode_plus hT, decode_plus hT, length_plus, Int.emod_add_emod, Int.add_neg_cancel_right]
  refine Int.emod_eq_of_lt (Int.natCast_nonneg _) ?_
  exact_mod_cast hlt

/-- And an offset alone changes nothing when it vanishes modulo the width. -/
theorem plus_eq_self_iff (hT : T ≠ .float) :
    plus floatAdd T offset element = element ↔ offset % 256 ^ element.length = 0 := by
  have hlt := decode_lt element
  have hself : (decode element : ℤ) % 256 ^ element.length =
      decode element :=
    Int.emod_eq_of_lt (Int.natCast_nonneg _) (by exact_mod_cast hlt)
  constructor
  · intro h
    have hdecode : (decode (plus floatAdd T offset element) : ℤ) = _ :=
      decode_plus hT
    rw [h, ← hself] at hdecode
    have hdvd := Int.emod_eq_emod_iff_emod_sub_eq_zero.mp hdecode.symm
    have hoffset : (decode element : ℤ) + offset - decode element =
      offset := by omega
    rwa [hself, hoffset] at hdvd
  · intro h
    refine eq_of_decode (length_plus _) ?_
    rw [decode_plus hT, Int.add_emod, h, Int.add_zero, Int.emod_emod_of_dvd _ dvd_rfl, hself]

/-- A float's sum is that of its bits. -/
theorem plus_float_neg_iff (hlen : element.length = 4) :
    plus floatAdd .float (-offset) (plus floatAdd .float offset element) = element ↔
      floatAdd (floatAdd (BitVec.ofNat 32 (decode element)) offset) (-offset) =
        BitVec.ofNat 32 (decode element) := by
  have hbits : ∀ x : BitVec 32, x.toNat < 256 ^ element.length := by
    intro x
    rw [hlen]
    exact x.isLt
  have hnum : decode element < 256 ^ element.length := decode_lt element
  have helement : encode element.length
      (BitVec.ofNat 32 (decode element)).toNat = element := by
    have hsmall : decode element < 2 ^ 32 := by
      rw [hlen] at hnum
      exact hnum
    rw [BitVec.toNat_ofNat, Nat.mod_eq_of_lt hsmall, encode_decode]
  simp only [plus, length_encode, decode_encode_of_lt (hbits _),
    BitVec.ofNat_toNat, BitVec.setWidth_eq]
  constructor
  · intro h
    exact BitVec.eq_of_toNat_eq (encode_inj (hbits _) (hbits _)
      (h.trans helement.symm))
  · intro h
    rw [h, helement]

/-! ## Both conversions -/

section Convert

variable {d : EdenDims} {width : ℕ} {f g : List (BitVec 8) → List (BitVec 8)}
  {memory : List (BitVec 8)} {addr size : ℕ}

/-- Every place of a tensor by (number, height, width, channel) is that of an element. -/
theorem exists_nhwc (d : EdenDims) {k : ℕ} (hk : k < d.volume) :
    ∃ i, d.nchwPlaces[k]? = some i ∧ d.nhwcPlaces[i]? = some k := by
  have hvolume : d.volume =
      d.number.toNat * d.height.toNat * d.width.toNat * d.channel.toNat := by
    unfold EdenDims.volume
    ring
  obtain ⟨x, c, hx, hc, rfl⟩ := RowMajor.exists_index (hvolume ▸ hk)
  obtain ⟨y, w, hy, hw, rfl⟩ := RowMajor.exists_index hx
  obtain ⟨n, h, hn, hh, rfl⟩ := RowMajor.exists_index hy
  exact ⟨_, d.getElem?_nchwPlaces hn hc hh hw, d.getElem?_nhwcPlaces hn hc hh hw⟩

/-- **One conversion and then the other**: the elements are placed by the first, and the
buffer is as it was where each element is. -/
theorem convert_convert (heap heap' : ℕ → BitVec 8) (hf : ∀ c, (f c).length = c.length)
    (hg : ∀ c, (g c).length = c.length) (hwidth : 0 < width) (hsize : size = d.volume * width)
    (hint : size < 2 ^ 31) (hfit : addr + size ≤ memory.length) :
    ∃ memory', convert d.nchwPlaces width f heap memory addr size = some memory' ∧
      PlacedByNCHW d width f ((memory.drop addr).take size) ((memory'.drop addr).take size) ∧
      (convert d.nhwcPlaces width g heap' memory' addr size = some memory ↔
        ∀ k < d.volume, g (f (RowMajor.cell width ((memory.drop addr).take size) k)) =
          RowMajor.cell width ((memory.drop addr).take size) k) := by
  obtain ⟨out, heq, hlen, hcells⟩ :
      ∃ out, convert d.nchwPlaces width f heap memory addr size = Block.store memory addr out ∧ _ :=
    convert_spec d.nodup_nchwPlaces (d.length_nchwPlaces ▸ d.nchwPlaces_lt) hwidth hf
      (d.length_nchwPlaces ▸ hsize) hint hfit
  have hsome : (Block.store memory addr out).isSome :=
    Block.store_isSome_iff.mpr (by rw [hlen]; exact hfit)
  obtain ⟨memory', hstore⟩ := Option.isSome_iff_exists.mp hsome
  have hlength := Block.store_length hstore
  have hout : (memory'.drop addr).take size = out := by
    have hload := Block.load_store hstore
    rwa [hlen, Block.load_of_le (by omega), Option.some.injEq] at hload
  obtain ⟨back, heq', hlen', hcells'⟩ :
      ∃ back, convert d.nhwcPlaces width g heap' memory' addr size =
        Block.store memory' addr back ∧ _ :=
    convert_spec d.nodup_nhwcPlaces (d.length_nhwcPlaces ▸ d.nhwcPlaces_lt) hwidth hg
      (d.length_nhwcPlaces ▸ hsize) hint (hlength.symm ▸ hfit)
  refine ⟨memory', heq.trans hstore, ⟨?_, ?_⟩, ?_⟩
  · rw [hout, hlen, hsize]
  · intro n hn c hc h hh w hw
    rw [hout]
    exact hcells _ _ (d.getElem?_nchwPlaces hn hc hh hw)
  · have hboth : ∀ k < d.volume, RowMajor.cell width back k =
        g (f (RowMajor.cell width ((memory.drop addr).take size) k)) := by
      intro k hk
      obtain ⟨i, hi, hi'⟩ := exists_nhwc d hk
      rw [hcells' _ _ hi', hout, hcells _ _ hi]
    rw [heq', Block.store_back_iff hstore (hlen'.trans hlen.symm), hlen, Block.load_of_le hfit,
      Option.some.injEq]
    constructor
    · intro hslice k hk
      rw [← hboth k hk, hslice]
    · intro hsame
      refine RowMajor.ext_cell (n := d.volume) (s := width) ?_ (hlen'.trans hsize) fun k hk => ?_
      · rw [List.length_take, List.length_drop, ← hsize]
        omega
      · rw [hboth k hk, hsame k hk]

end Convert

variable {memory : List (BitVec 8)} {addr size : ℕ}

/-- The conversions of a buffer that has elements. -/
theorem roundTrip_iff_elements (floatAdd : BitVec 32 → ℤ → BitVec 32) (d : EdenDims)
    (dataType : DataType) (offset : ℤ) (heap heap' : ℕ → BitVec 8) {f g : List (BitVec 8) → List (BitVec 8)}
    (hf : ∀ c, (f c).length = c.length) (hg : ∀ c, (g c).length = c.length)
    (hfeq : f = if offset = 0 then id else plus floatAdd (elementType dataType) offset)
    (hfirst : convertDataLayoutFromNHWCToNCHW floatAdd d dataType offset heap memory addr size =
      convert d.nchwPlaces dataType.width f heap memory addr size)
    (hsecond : ∀ memory', convertDataLayoutFromNCHWToNHWC floatAdd d dataType (-offset) heap'
      memory' addr size = convert d.nhwcPlaces dataType.width g heap' memory' addr size)
    (hsize : size = d.volume * dataType.width) (hint : size < 2 ^ 31)
    (hfit : addr + size ≤ memory.length) :
    RoundTrip floatAdd d dataType offset heap heap' memory addr size ↔
      ∀ k < d.volume, g (f (RowMajor.cell dataType.width ((memory.drop addr).take size) k)) =
        RowMajor.cell dataType.width ((memory.drop addr).take size) k := by
  obtain ⟨memory', hconvert, hplaced, hback⟩ := convert_convert heap heap' hf hg
    dataType.width_pos hsize hint hfit
  constructor
  · rintro ⟨memory'', hconvert', -, hback'⟩
    rw [hfirst, hconvert, Option.some.injEq] at hconvert'
    subst hconvert'
    rw [hsecond] at hback'
    exact hback.mp hback'
  · intro hsame
    refine ⟨memory', hfirst.trans hconvert, hfeq ▸ hplaced, ?_⟩
    rw [hsecond]
    exact hback.mpr hsame

/-- **The conversions of a tensor, and back**, restore the buffer where the offset can be
undone; in any case they stay in bounds and place the elements. -/
theorem layoutRoundTrip_iff (floatAdd : BitVec 32 → ℤ → BitVec 32) {n c h w : ℕ}
    (dataType : DataType) (offset : ℤ) (heap heap' : ℕ → BitVec 8)
    (hsize : n * c * h * w * dataType.width = size) (hint : size < 2 ^ 31)
    (hfit : addr + size ≤ memory.length) :
    RoundTrip floatAdd ⟨n, c, h, w⟩ dataType offset heap heap' memory addr size ↔
      Invertible floatAdd ⟨n, c, h, w⟩ dataType offset ((memory.drop addr).take size) := by
  generalize hd : (⟨n, c, h, w⟩ : EdenDims) = d
  have hvolume : size = d.volume * dataType.width := by
    rw [← hsize, ← hd]
    simp only [EdenDims.volume, Int.toNat_natCast]
    ring
  have hcell : ∀ k < d.volume, (RowMajor.cell dataType.width
      ((memory.drop addr).take size) k).length = dataType.width := by
    intro k hk
    have hindex : k * dataType.width + dataType.width ≤ _ := index_cell hk
    refine RowMajor.length_cell ?_
    rw [List.length_take, List.length_drop]
    omega
  unfold Invertible
  by_cases hempty : d.volume = 0
  · have hzero : size = 0 := by rw [hvolume, hempty, Nat.zero_mul]
    refine iff_of_true ⟨memory, if_pos hzero, ⟨?_, ?_⟩, if_pos hzero⟩ (Or.inl hempty)
    · rw [List.length_take, List.length_drop, hempty]
      omega
    · intro n hn c hc h hh w hw
      have hplace := List.mem_of_getElem? (d.getElem?_nchwPlaces hn hc hh hw)
      have hlt := d.nchwPlaces_lt _ hplace
      omega
  have hpos : size ≠ 0 := by
    rw [hvolume]
    exact Nat.mul_ne_zero hempty dataType.width_pos.ne'
  by_cases hoffset : offset = 0
  · subst hoffset
    rw [roundTrip_iff_elements floatAdd d dataType 0 heap heap' (f := id) (g := id)
      (fun _ => rfl) (fun _ => rfl) (if_pos rfl).symm ?_ (fun _ => ?_) hvolume hint hfit]
    · exact iff_of_true (fun _ _ => rfl) (Or.inr (Or.inl rfl))
    · rw [convertDataLayoutFromNHWCToNCHW, if_neg hpos, if_pos rfl, convertToNCHW,
        elementType_width]
    · unfold convertDataLayoutFromNCHWToNHWC
      rw [if_neg hpos, if_pos Int.neg_zero, convertToNHWC, elementType_width]
  have hneg : -offset ≠ 0 := Int.neg_ne_zero.mpr hoffset
  rw [or_iff_right hempty, or_iff_right hoffset]
  have hboth := fun g hg hsecond => roundTrip_iff_elements floatAdd d dataType offset heap heap'
    (f := plus floatAdd (elementType dataType) offset) (g := g) length_plus hg
    (if_neg hoffset).symm (by rw [convertDataLayoutFromNHWCToNCHW, if_neg hpos, if_neg hoffset,
      convertToNCHWWithOffset, elementType_width]) hsecond hvolume hint hfit
  -- an offset of integers is taken away again
  have hinteger (hT : elementType dataType ≠ .float) (hsecond) :=
    (hboth (plus floatAdd (elementType dataType) (-offset)) length_plus hsecond).trans
      (iff_of_true (fun _ _ => plus_neg hT) trivial)
  cases dataType
  case int16 | uint16 =>
    rw [hboth id (fun _ => rfl) fun _ => (if_neg hpos).trans (if_neg hneg)]
    have hself : ∀ k < d.volume, (plus floatAdd .int16 offset
        (RowMajor.cell 2 ((memory.drop addr).take size) k) =
          RowMajor.cell 2 ((memory.drop addr).take size) k ↔ offset % 2 ^ 16 = 0) := by
      intro k hk
      have hlen : (RowMajor.cell 2 ((memory.drop addr).take size) k).length = 2 := hcell k hk
      have hwidth : (256 : ℤ) ^ 2 = 2 ^ 16 := by decide
      rw [plus_eq_self_iff (by decide), hlen, hwidth]
    constructor
    · intro hsame
      exact (hself 0 (Nat.pos_of_ne_zero hempty)).mp (hsame 0 (Nat.pos_of_ne_zero hempty))
    · intro hvanish k hk
      exact (hself k hk).mpr hvanish
  case float32 =>
    rw [hboth (plus floatAdd .float (-offset)) length_plus
      fun _ => (if_neg hpos).trans (if_neg hneg)]
    exact forall₂_congr fun k hk => plus_float_neg_iff (hcell k hk)
  case quant8 | bool8 | int8 | uint8 | relaxedFloat32 | float16 | int32 | uint32 | int64 | uint64 =>
    exact hinteger (by decide) fun _ => (if_neg hpos).trans (if_neg hneg)

/-! ## Where the scheduler converts -/

/-- The offset of an element of one byte is added to the byte. -/
theorem plus_int8 (offset : ℤ) (b : BitVec 8) :
    plus floatAdd .int8 offset [b] = [b].map (· + BitVec.ofInt 8 offset) := by
  refine eq_of_decode (by rw [length_plus, List.length_map]) ?_
  rw [decode_plus (by decide), List.map_cons, List.map_nil, decode_cons,
    decode_cons, BitVec.toNat_add, BitVec.toNat_ofInt]
  simp only [decode, List.foldr_nil, List.length_cons, List.length_nil]
  omega

theorem map_add_zero (bytes : List (BitVec 8)) : bytes.map (· + BitVec.ofInt 8 0) = bytes := by
  refine List.map_id'' (fun b => ?_) bytes
  exact BitVec.add_zero b

theorem map_add_eq_plus {offset : ℤ} {element : List (BitVec 8)} (hlen : element.length = 1) :
    element.map (· + BitVec.ofInt 8 offset) = plus floatAdd .int8 offset element := by
  obtain ⟨b, rfl⟩ := List.length_eq_one_iff.mp hlen
  exact (plus_int8 offset b).symm

/-- **What the scheduler does to its inputs** is this conversion, since it has an offset for
elements of one byte only. -/
theorem convertDataLayoutFromNHWCToNCHW_eq (d : EdenDims) {dataType : DataType} {offset : ℤ}
    (hwidth : dataType.width = 1 ∨ offset = 0) (heap : ℕ → BitVec 8) :
    Eden.convertDataLayoutFromNHWCToNCHW d dataType (BitVec.ofInt 8 offset) heap memory addr size =
      convertDataLayoutFromNHWCToNCHW floatAdd d dataType offset heap memory addr size := by
  unfold Eden.convertDataLayoutFromNHWCToNCHW convertDataLayoutFromNHWCToNCHW
  by_cases hsize : size = 0
  · rw [if_pos hsize, if_pos hsize]
  rw [if_neg hsize, if_neg hsize, Eden.convertToNCHW, convertToNCHW, convertToNCHWWithOffset,
    elementType_width]
  by_cases hoffset : offset = 0
  · rw [if_pos hoffset, hoffset]
    exact convert_congr fun c _ => map_add_zero c
  · rw [if_neg hoffset]
    have hone := hwidth.resolve_right hoffset
    have hint8 : elementType dataType = .int8 := by
      cases dataType <;> first | rfl | exact absurd hone (by decide)
    rw [hint8]
    exact convert_congr fun c hc => map_add_eq_plus (hc.trans hone)

/-- And to its outputs. -/
theorem convertDataLayoutFromNCHWToNHWC_eq (d : EdenDims) {dataType : DataType} {offset : ℤ}
    (hwidth : dataType.width = 1 ∨ offset = 0) (heap : ℕ → BitVec 8) :
    Eden.convertDataLayoutFromNCHWToNHWC d dataType (BitVec.ofInt 8 offset) heap memory addr size =
      convertDataLayoutFromNCHWToNHWC floatAdd d dataType offset heap memory addr size := by
  unfold Eden.convertDataLayoutFromNCHWToNHWC convertDataLayoutFromNCHWToNHWC
  by_cases hsize : size = 0
  · rw [if_pos hsize, if_pos hsize]
  rw [if_neg hsize, if_neg hsize, Eden.convertToNHWC]
  by_cases hoffset : offset = 0
  · rw [if_pos hoffset, hoffset, convertToNHWC, elementType_width]
    exact convert_congr fun c _ => map_add_zero c
  · rw [if_neg hoffset]
    have hone := hwidth.resolve_right hoffset
    cases dataType
    case quant8 | bool8 | int8 | uint8 => exact convert_congr fun c hc => map_add_eq_plus hc
    all_goals exact absurd hone (by decide)

/-- Two channels of a quantised tensor, with the offset from `UINT8` to `INT8`. -/
theorem roundTrip_quant8 :
    RoundTrip (fun x _ => x) ⟨1, 2, 1, 2⟩ .quant8 (-128) (fun _ => 0) (fun _ => 0)
        [1, 2, 3, 4] 0 4 ↔
      Invertible (fun x _ => x) ⟨1, 2, 1, 2⟩ .quant8 (-128) [1, 2, 3, 4] :=
  layoutRoundTrip_iff (n := 1) (c := 2) (h := 1) (w := 2) _ _ _ _ _ (by decide) (by decide) (by decide)

/-- Two channels of 16-bit integers come back larger by the offset. -/
theorem not_roundTrip_int16 :
    convertDataLayoutFromNHWCToNCHW (fun x _ => x) ⟨1, 2, 1, 1⟩ .int16 1 (fun _ => 0)
        [5, 0, 7, 0] 0 4 = some [6, 0, 8, 0] ∧
      convertDataLayoutFromNCHWToNHWC (fun x _ => x) ⟨1, 2, 1, 1⟩ .int16 (-1) (fun _ => 0)
        [6, 0, 8, 0] 0 4 = some [6, 0, 8, 0] ∧
      ¬ RoundTrip (fun x _ => x) ⟨1, 2, 1, 1⟩ .int16 1 (fun _ => 0) (fun _ => 0)
        [5, 0, 7, 0] 0 4 := by
  have hfirst : convertDataLayoutFromNHWCToNCHW (fun x _ => x) ⟨1, 2, 1, 1⟩ .int16 1 (fun _ => 0)
      [5, 0, 7, 0] 0 4 = some [6, 0, 8, 0] := by decide +kernel
  have hsecond : convertDataLayoutFromNCHWToNHWC (fun x _ => x) ⟨1, 2, 1, 1⟩ .int16 (-1)
      (fun _ => 0) [6, 0, 8, 0] 0 4 = some [6, 0, 8, 0] := by decide +kernel
  refine ⟨hfirst, hsecond, ?_⟩
  rintro ⟨memory', hfirst', -, hsecond'⟩
  rw [hfirst, Option.some.injEq] at hfirst'
  subst hfirst'
  rw [hsecond] at hsecond'
  exact absurd hsecond' (by decide)

end ExynosVendor.Eden.PrePostProcessor
