import ExynosVendor.Eden.ValueRewrites
import Mathlib.Data.List.Count

/-!
# Values are rewritten once

After all operations have been converted, the values of each should stand at the positions
that the device has for the client's axes, with neutral values elsewhere. An operation that
finds the values of an earlier one rewrites what it has rewritten.
-/

namespace ExynosVendor.Eden.ValueRewrites

open List

/-! ## The law -/

/-- Values by axis at the positions of the axes. -/
structure Placed (position : ℕ → ℕ) (rank : ℕ) (neutral : ℤ) (values placed : List ℤ) :
    Prop where
  length : placed.length = 4
  axis : ∀ b < rank, placed[position b]? = values[b]?
  other : ∀ p < 4, (∀ b < rank, position b ≠ p) → placed[p]? = some neutral

/-- Pairs by axis in the rows of the axes. -/
structure PlacedPairs (position : ℕ → ℕ) (rank : ℕ) (values placed : List ℤ) : Prop where
  length : placed.length = 8
  axis : ∀ b < rank, ∀ j < 2, placed[2 * position b + j]? = values[2 * b + j]?
  other : ∀ p < 4, (∀ b < rank, position b ≠ p) → ∀ j < 2, placed[2 * p + j]? = some 0

/-- Bits by axis at the positions of the axes. -/
structure MaskMoved (position : ℕ → ℕ) (rank : ℕ) (mask moved : ℤ) : Prop where
  axis : ∀ b < rank, bit moved (position b) = bit mask b
  other : ∀ p, (∀ b < rank, position b ≠ p) → bit moved p = 0

/-- The position of an axis of a slice. -/
def slicePosition (rank b : ℕ) : ℕ := (edenPosition rank b).toNat

/-- And of a padding, which moves the size of a single axis to the width. -/
def padPosition (rank b : ℕ) : ℕ := if rank = 1 then 3 else (edenPosition rank b).toNat

/-- A constant of the model, by its words. -/
def HasValue (model : ClientModel) (operandIdx : ℕ) (values : List ℤ) : Prop :=
  ∃ operand, model.operands[operandIdx]? = some operand ∧
    constantWords model operand = some values

/-- The words of the device's operand. -/
def Holds (c : Rewriting) (operandIdx : ℕ) (placed : List ℤ) : Prop :=
  ∃ operand, c.operands operandIdx = some operand ∧ operand.buffer = some placed

/-- The rank of an operand of the client. -/
def HasRank (model : ClientModel) (operandIdx rank : ℕ) : Prop :=
  ∃ operand, model.operands[operandIdx]? = some operand ∧ operand.dimensions.length = rank

/-- **The paddings are the table** of the original pairs. -/
def PaddingsRewritten (model : ClientModel) (c : Rewriting) (inputIdx paddingsIdx : ℕ) : Prop :=
  ∃ rank values placed, HasRank model inputIdx rank ∧ HasValue model paddingsIdx values ∧
    Holds c paddingsIdx placed ∧ PlacedPairs (padPosition rank) rank values placed

/-- One of the three operands of a slice, with its mask. -/
def OperandRewritten (model : ClientModel) (c : Rewriting) (rank operandIdx : ℕ)
    (neutral mask moved : ℤ) : Prop :=
  ∃ values placed, HasValue model operandIdx values ∧ Holds c operandIdx placed ∧
    Placed (slicePosition rank) rank neutral values placed ∧
    MaskMoved (slicePosition rank) rank mask moved

/-- **The begin, end and strides are the original values**, and the masks their bits. -/
def SliceRewritten (model : ClientModel) (c : Rewriting) (operation : ClientOperation)
    (inputIdx beginIdx endIdx stridesIdx : ℕ) (options : StridedSliceOptions) : Prop :=
  ∃ rank beginMask endMask shrinkAxisMask, HasRank model inputIdx rank ∧
    getValue model operation 4 = some beginMask ∧ getValue model operation 5 = some endMask ∧
    getValue model operation 6 = some shrinkAxisMask ∧
    OperandRewritten model c rank beginIdx 0 beginMask options.beginMask ∧
    OperandRewritten model c rank endIdx 1 endMask options.endMask ∧
    OperandRewritten model c rank stridesIdx 1 shrinkAxisMask options.shrinkAxisMask

/-- **The values of an operation are rewritten once.** -/
def Rewritten (model : ClientModel) (c : Rewriting)
    (entry : ClientOperation × Option StridedSliceOptions) : Prop :=
  match entry.1.type, entry.1.inputs, entry.2 with
  | .pad, inputIdx :: paddingsIdx :: _, none => PaddingsRewritten model c inputIdx paddingsIdx
  | .padV2, inputIdx :: paddingsIdx :: _, none => PaddingsRewritten model c inputIdx paddingsIdx
  | .stridedSlice, inputIdx :: beginIdx :: endIdx :: stridesIdx :: _, some options =>
      SliceRewritten model c entry.1 inputIdx beginIdx endIdx stridesIdx options
  | _, _, _ => False

/-! ## Operations that a model may have -/

/-- An operand of the model. -/
def Known (model : ClientModel) (operandIdx : ℕ) : Prop :=
  ∃ operand, model.operands[operandIdx]? = some operand

/-- A one-dimensional constant of as many values as the input has axes. -/
def ByAxis (model : ClientModel) (rank operandIdx : ℕ) : Prop :=
  ∃ operand values, model.operands[operandIdx]? = some operand ∧ operand.dimensions = [rank] ∧
    constantWords model operand = some values ∧ values.length = rank

/-- A constant with a pair for each axis. -/
def PairsByAxis (model : ClientModel) (rank operandIdx : ℕ) : Prop :=
  ∃ values, HasValue model operandIdx values ∧ values.length = 2 * rank

/-- **An operation over an input of rank 1 to 4**, with values that are constants. -/
def WellFormed (model : ClientModel) (operation : ClientOperation) : Prop :=
  match operation.type, operation.inputs, operation.outputs with
  | .pad, [inputIdx, paddingsIdx], [outputIdx] =>
      ∃ rank, (1 ≤ rank ∧ rank ≤ 4) ∧ HasRank model inputIdx rank ∧
        PairsByAxis model rank paddingsIdx ∧ Known model outputIdx
  | .padV2, [inputIdx, paddingsIdx, padvalueIdx], [outputIdx] =>
      ∃ rank, (1 ≤ rank ∧ rank ≤ 4) ∧ HasRank model inputIdx rank ∧
        PairsByAxis model rank paddingsIdx ∧ Known model padvalueIdx ∧ Known model outputIdx
  | .stridedSlice, [inputIdx, beginIdx, endIdx, stridesIdx, _, _, _], [outputIdx] =>
      ∃ rank, (1 ≤ rank ∧ rank ≤ 4) ∧ HasRank model inputIdx rank ∧
        ByAxis model rank beginIdx ∧ ByAxis model rank endIdx ∧ ByAxis model rank stridesIdx ∧
        Known model outputIdx ∧ (getValue model operation 4).isSome ∧
        (getValue model operation 5).isSome ∧ (getValue model operation 6).isSome
  | _, _, _ => False

/-- The operands that an operation converts. -/
def named (operation : ClientOperation) : List ℕ :=
  match operation.type, operation.inputs, operation.outputs with
  | .pad, inputIdx :: paddingsIdx :: _, outputIdx :: _ => [inputIdx, paddingsIdx, outputIdx]
  | .padV2, inputIdx :: paddingsIdx :: padvalueIdx :: _, outputIdx :: _ =>
      [inputIdx, paddingsIdx, padvalueIdx, outputIdx]
  | .stridedSlice, inputIdx :: beginIdx :: endIdx :: stridesIdx :: _, outputIdx :: _ =>
      [inputIdx, beginIdx, endIdx, stridesIdx, outputIdx]
  | _, _, _ => []

/-- And those whose values it rewrites. -/
def rewritten (operation : ClientOperation) : List ℕ :=
  match operation.type, operation.inputs with
  | .pad, _ :: paddingsIdx :: _ => [paddingsIdx]
  | .padV2, _ :: paddingsIdx :: _ => [paddingsIdx]
  | .stridedSlice, _ :: beginIdx :: endIdx :: stridesIdx :: _ => [beginIdx, endIdx, stridesIdx]
  | _, _ => []

/-- **Nothing that is rewritten is shared**: the operations name it once. -/
def Unshared (operations : List ClientOperation) : Prop :=
  ∀ operation ∈ operations, ∀ operandIdx ∈ rewritten operation,
    (operations.flatMap named).count operandIdx = 1

/-! ## Operands -/

variable {model : ClientModel} {c : Rewriting} {operandIdx : ℕ}

theorem ok_bind {α β : Type} (a : α) (f : α → Except Stop β) : (Except.ok a >>= f) = f a := rfl

theorem setOperand_of_ne {c : Rewriting} {i j : ℕ} (operand : EdenOperand) (h : j ≠ i) :
    (setOperand c i operand).operands j = c.operands j := by
  simp [setOperand, h]

variable {operand : EdenOperand} {rank : ℕ} {values : List ℤ} {operation : ClientOperation}

theorem operandAt_eq (h : c.operands operandIdx = some operand) :
    operandAt c operandIdx = .ok operand := by
  rw [operandAt, h]

/-- What an operand is once the device's model has it. -/
def created (model : ClientModel) (c : Rewriting) (operandIdx : ℕ) : Option EdenOperand :=
  (c.operands operandIdx).or ((model.operands[operandIdx]?).map (createEdenOperand model))

/-- The operands that are named are made, and those that were there stay. -/
theorem getEdenOperands_eq (names : List ℕ) (c : Rewriting)
    (hknown : ∀ operandIdx ∈ names, Known model operandIdx) :
    getEdenOperands model names c = .ok { c with
      operands := fun operandIdx =>
        if operandIdx ∈ names then created model c operandIdx else c.operands operandIdx } := by
  induction names generalizing c with
  | nil => simp [getEdenOperands]
  | cons name names ih =>
    obtain ⟨hname, hrest⟩ := forall_mem_cons.mp hknown
    obtain ⟨operand, hoperand⟩ := hname
    rw [getEdenOperands, getEdenOperand]
    cases hfound : c.operands name with
    | some found =>
      rw [ok_bind, ih c hrest]
      congr 1
      congr 1
      funext operandIdx
      by_cases hmem : operandIdx ∈ names
      · rw [if_pos hmem, if_pos (mem_cons_of_mem _ hmem)]
      · rw [if_neg hmem]
        by_cases heq : operandIdx = name
        · rw [if_pos (heq ▸ mem_cons_self), heq, created, hfound]
          rfl
        · rw [if_neg fun h => (mem_cons.mp h).elim heq hmem]
    | none =>
      simp only [elementAt_eq_ok.mpr hoperand, ok_bind]
      rw [ih _ hrest]
      congr 1
      congr 1
      funext operandIdx
      by_cases heq : operandIdx = name
      · subst heq
        simp [created, hfound, hoperand]
      · simp [created, heq]

/-! ## Slices -/

section Slices

variable (x y z w neutral : ℤ)

theorem placed_one :
    Placed (slicePosition 1) 1 neutral [x] [x, neutral, neutral, neutral] := by
  refine ⟨rfl, fun b hb => ?_, fun p hp hne => ?_⟩
  · interval_cases b
    rfl
  · have h0 := hne 0 (by decide)
    interval_cases p <;> first | rfl | exact absurd rfl h0

theorem placed_two :
    Placed (slicePosition 2) 2 neutral [x, y] [neutral, neutral, x, y] := by
  refine ⟨rfl, fun b hb => ?_, fun p hp hne => ?_⟩
  · interval_cases b <;> rfl
  · have h0 := hne 0 (by decide)
    have h1 := hne 1 (by decide)
    interval_cases p <;> first | rfl | exact absurd rfl h0 | exact absurd rfl h1

theorem placed_three :
    Placed (slicePosition 3) 3 neutral [x, y, z] [x, neutral, y, z] := by
  refine ⟨rfl, fun b hb => ?_, fun p hp hne => ?_⟩
  · interval_cases b <;> rfl
  · have h0 := hne 0 (by decide)
    have h1 := hne 1 (by decide)
    have h2 := hne 2 (by decide)
    interval_cases p <;>
      first | rfl | exact absurd rfl h0 | exact absurd rfl h1 | exact absurd rfl h2

theorem placed_four :
    Placed (slicePosition 4) 4 neutral [x, y, z, w] [x, w, y, z] := by
  refine ⟨rfl, fun b hb => ?_, fun p hp hne => ?_⟩
  · interval_cases b <;> rfl
  · have h0 := hne 0 (by decide)
    have h1 := hne 1 (by decide)
    have h2 := hne 2 (by decide)
    have h3 := hne 3 (by decide)
    interval_cases p
    · exact absurd rfl h0
    · exact absurd rfl h3
    · exact absurd rfl h1
    · exact absurd rfl h2

end Slices

theorem bit_range (mask : ℤ) (i : ℕ) : 0 ≤ bit mask i ∧ bit mask i ≤ 1 := by
  unfold bit
  omega

/-- The bits of a mask of four. -/
theorem bit_mask {b0 b1 b2 b3 : ℤ} (h0 : 0 ≤ b0 ∧ b0 ≤ 1) (h1 : 0 ≤ b1 ∧ b1 ≤ 1)
    (h2 : 0 ≤ b2 ∧ b2 ≤ 1) (h3 : 0 ≤ b3 ∧ b3 ≤ 1) (p : ℕ) :
    bit (b0 + 2 * b1 + 4 * b2 + 8 * b3) p = ([b0, b1, b2, b3][p]?).getD 0 := by
  unfold bit
  match p with
  | 0 =>
    show (b0 + 2 * b1 + 4 * b2 + 8 * b3) / 1 % 2 = b0
    omega
  | 1 =>
    show (b0 + 2 * b1 + 4 * b2 + 8 * b3) / 2 % 2 = b1
    omega
  | 2 =>
    show (b0 + 2 * b1 + 4 * b2 + 8 * b3) / 4 % 2 = b2
    omega
  | 3 =>
    show (b0 + 2 * b1 + 4 * b2 + 8 * b3) / 8 % 2 = b3
    omega
  | p + 4 =>
    have hpow : (2 : ℤ) ^ (p + 4) = 2 ^ p * 16 := by rw [pow_add]; rfl
    have hpos : (0 : ℤ) < 2 ^ p := Int.pow_pos (by decide)
    rw [Int.ediv_eq_zero_of_lt (by omega) (by omega)]
    rfl

/-- **A mask moves as its bits are placed.** -/
theorem maskMoved_of_placed {position : ℕ → ℕ} {mask b0 b1 b2 b3 : ℤ} {bits : List ℤ}
    (hbits : bits = (List.range rank).map (bit mask)) (h0 : 0 ≤ b0 ∧ b0 ≤ 1) (h1 : 0 ≤ b1 ∧ b1 ≤ 1)
    (h2 : 0 ≤ b2 ∧ b2 ≤ 1) (h3 : 0 ≤ b3 ∧ b3 ≤ 1)
    (h : Placed position rank 0 bits [b0, b1, b2, b3]) :
    MaskMoved position rank mask (b0 + 2 * b1 + 4 * b2 + 8 * b3) := by
  refine ⟨fun b hb => ?_, fun p hne => ?_⟩
  · rw [bit_mask h0 h1 h2 h3, h.axis b hb, hbits, getElem?_map, getElem?_range hb]
    rfl
  · rw [bit_mask h0 h1 h2 h3]
    by_cases hp : p < 4
    · rw [h.other p hp hne]
      rfl
    · rw [getElem?_eq_none (by simpa using Nat.not_lt.mp hp)]
      rfl

/-- **One extension of the rank.** Whatever has the values of as many axes as the rank is
left with them at their positions. -/
theorem extendRankToFour_spec (hrank : 1 ≤ rank ∧ rank ≤ 4) (hbuffer : operand.buffer = some values)
    (hlen : values.length = rank) (neutral mask : ℤ) :
    ∃ placed moved,
      extendRankToFour operand rank neutral mask =
        .ok ({ operand with buffer := some placed }, moved) ∧
      Placed (slicePosition rank) rank neutral values placed ∧
      MaskMoved (slicePosition rank) rank mask moved := by
  have hb := bit_range mask
  have h0 : (0 : ℤ) ≤ 0 ∧ (0 : ℤ) ≤ 1 := by decide
  match values with
  | [x] =>
    obtain rfl : rank = 1 := hlen.symm
    refine ⟨_, _, ?_, placed_one x neutral,
      maskMoved_of_placed rfl (hb 0) h0 h0 h0 (placed_one _ _)⟩
    simp [extendRankToFour, hbuffer, wordAt, ok_bind]
  | [x, y] =>
    obtain rfl : rank = 2 := hlen.symm
    refine ⟨_, _, ?_, placed_two x y neutral,
      maskMoved_of_placed rfl h0 h0 (hb 0) (hb 1) (placed_two _ _ _)⟩
    simp [extendRankToFour, hbuffer, wordAt, ok_bind]
  | [x, y, z] =>
    obtain rfl : rank = 3 := hlen.symm
    refine ⟨_, _, ?_, placed_three x y z neutral,
      maskMoved_of_placed rfl (hb 0) h0 (hb 1) (hb 2) (placed_three _ _ _ _)⟩
    simp [extendRankToFour, hbuffer, wordAt, ok_bind]
  | [x, y, z, w] =>
    obtain rfl : rank = 4 := hlen.symm
    refine ⟨_, _, ?_, placed_four x y z w neutral,
      maskMoved_of_placed rfl (hb 0) (hb 3) (hb 1) (hb 2) (placed_four _ _ _ _ _)⟩
    simp [extendRankToFour, hbuffer, wordAt, ok_bind]
  | [] | _ :: _ :: _ :: _ :: _ :: _ =>
    simp only [length_cons, length_nil] at hlen
    omega

/-- What a change of one operand leaves. -/
structure Touches (c c' : Rewriting) (operandIdx : ℕ) : Prop where
  operations : c'.operations = c.operations
  frame : ∀ j, j ≠ operandIdx → c'.operands j = c.operands j
  present : ∃ operand, c'.operands operandIdx = some operand

theorem touches_setOperand (c : Rewriting) (operandIdx : ℕ) (operand : EdenOperand) :
    Touches c (setOperand c operandIdx operand) operandIdx :=
  ⟨rfl, fun _ hne => setOperand_of_ne operand hne, operand, by simp [setOperand]⟩

/-- An operand that was there still is. -/
theorem Touches.isPresent {c c' : Rewriting} (h : Touches c c' operandIdx) {j : ℕ}
    (hj : ∃ operand, c.operands j = some operand) : ∃ operand, c'.operands j = some operand := by
  by_cases heq : j = operandIdx
  · exact heq ▸ h.present
  · rw [h.frame j heq]
    exact hj

theorem Holds.frame {c c' : Rewriting} {placed : List ℤ} (h : Holds c operandIdx placed)
    (hsame : c'.operands operandIdx = c.operands operandIdx) : Holds c' operandIdx placed := by
  obtain ⟨operand, hoperand, hbuffer⟩ := h
  exact ⟨operand, hsame.trans hoperand, hbuffer⟩

/-- What is converted of a constant by axis. -/
theorem created_byAxis (hrank : 1 ≤ rank ∧ rank ≤ 4) (h : ByAxis model rank operandIdx)
    (hfresh : c.operands operandIdx = none) :
    ∃ operand values, created model c operandIdx = some operand ∧
      HasValue model operandIdx values ∧ operand.buffer = some values ∧ values.length = rank ∧
      operand.dims.number = rank ∧ operand.numOfDims = 1 := by
  obtain ⟨operand, values, hoperand, hdims, hvalues, hlen⟩ := h
  refine ⟨createEdenOperand model operand, values, ?_, ⟨operand, hoperand, hvalues⟩, hvalues, hlen,
    ?_, ?_⟩
  · rw [created, hfresh, hoperand]
    rfl
  · have hpos : rank ≠ 0 := by omega
    simp only [createEdenOperand, hdims, getEdenDimensions, if_pos hpos]
    exact toInt_of_lt (by omega) (by omega)
  · simp only [createEdenOperand, hdims, numOfDims]

/-- **One of the three operands of a slice**, found as it was converted. -/
theorem extendOperand_spec (hrank : 1 ≤ rank ∧ rank ≤ 4)
    (hoperand : c.operands operandIdx = some operand) (hvalue : HasValue model operandIdx values)
    (hbuffer : operand.buffer = some values) (hlen : values.length = rank)
    (hnumber : operand.dims.number = rank) (neutral mask : ℤ) :
    ∃ c' moved, extendOperand operandIdx neutral mask c = .ok (c', moved) ∧
      Touches c c' operandIdx ∧
      OperandRewritten model c' rank operandIdx neutral mask moved := by
  obtain ⟨placed, moved, hextend, hplaced, hmoved⟩ :=
    extendRankToFour_spec hrank hbuffer hlen neutral mask
  refine ⟨setOperand c operandIdx { operand with
      buffer := some placed, dims := { operand.dims with number := 4 } }, moved, ?_,
    touches_setOperand c operandIdx _, values, placed, hvalue, ?_, hplaced, hmoved⟩
  · rw [extendOperand, operandAt_eq hoperand, ok_bind, hnumber, hextend]
    rfl
  · exact ⟨_, Function.update_self _ _ _, rfl⟩

/-- A slice's operand that another change leaves alone. -/
theorem OperandRewritten.frame {c c' : Rewriting} {neutral mask moved : ℤ}
    (h : OperandRewritten model c rank operandIdx neutral mask moved)
    (hsame : c'.operands operandIdx = c.operands operandIdx) :
    OperandRewritten model c' rank operandIdx neutral mask moved := by
  obtain ⟨values, placed, hvalue, hholds, hrest⟩ := h
  exact ⟨values, placed, hvalue, hholds.frame hsame, hrest⟩

/-- **The case of a slice**, with three operands that are not each other. -/
theorem adjustStridedSlice_spec {beginIdx endIdx stridesIdx : ℕ} (hrank : 1 ≤ rank ∧ rank ≤ 4)
    (hbe : beginIdx ≠ endIdx) (hbs : beginIdx ≠ stridesIdx) (hes : endIdx ≠ stridesIdx)
    {c c₁ : Rewriting}
    (hmade : ∀ j ∈ [beginIdx, endIdx, stridesIdx], ByAxis model rank j ∧ c.operands j = none ∧
      c₁.operands j = created model c j)
    (options : StridedSliceOptions) :
    ∃ c' moved, adjustStridedSlice beginIdx endIdx stridesIdx options c₁ = .ok (c', moved) ∧
      c'.operations = c₁.operations ∧
      (∀ j, j ∉ [beginIdx, endIdx, stridesIdx] → c'.operands j = c₁.operands j) ∧
      OperandRewritten model c' rank beginIdx 0 options.beginMask moved.beginMask ∧
      OperandRewritten model c' rank endIdx 1 options.endMask moved.endMask ∧
      OperandRewritten model c' rank stridesIdx 1 options.shrinkAxisMask
        moved.shrinkAxisMask := by
  have hfound : ∀ j ∈ [beginIdx, endIdx, stridesIdx], ∃ operand values,
      c₁.operands j = some operand ∧ HasValue model j values ∧ operand.buffer = some values ∧
      values.length = rank ∧ operand.dims.number = rank ∧ operand.numOfDims = 1 := by
    intro j hj
    obtain ⟨hby, hfresh, hsame⟩ := hmade j hj
    rw [hsame]
    exact created_byAxis hrank hby hfresh
  obtain ⟨ob, vb, hob, hvb, hbb, hlb, hnb, hdb⟩ := hfound beginIdx (by simp)
  obtain ⟨oe, ve, hoe, hve, hbe', hle, hne, hde⟩ := hfound endIdx (by simp)
  obtain ⟨os, vs, hos, hvs, hbs', hls, hns, hds⟩ := hfound stridesIdx (by simp)
  obtain ⟨c₂, beginMask, h₂, ht₂, hr₂⟩ :=
    extendOperand_spec hrank hob hvb hbb hlb hnb 0 options.beginMask
  obtain ⟨c₃, endMask, h₃, ht₃, hr₃⟩ := extendOperand_spec hrank
    ((ht₂.frame endIdx hbe.symm).trans hoe) hve hbe' hle hne 1 options.endMask
  obtain ⟨c₄, shrinkAxisMask, h₄, ht₄, hr₄⟩ := extendOperand_spec hrank
    (((ht₃.frame stridesIdx hes.symm).trans (ht₂.frame stridesIdx hbs.symm)).trans hos) hvs hbs'
    hls hns 1 options.shrinkAxisMask
  have hskip : ¬ (ob.numOfDims = 0 ∨ oe.numOfDims = 0 ∨ os.numOfDims = 0) := by
    rw [hdb, hde, hds]
    decide
  refine ⟨c₄, { options with beginMask, endMask, shrinkAxisMask }, ?_, ?_, fun j hj => ?_, ?_, ?_,
    hr₄⟩
  · rw [adjustStridedSlice, operandAt_eq hob, ok_bind, operandAt_eq hoe, ok_bind,
      operandAt_eq hos, ok_bind, if_neg hskip, h₂, ok_bind]
    simp only [h₃, h₄, ok_bind]
  · rw [ht₄.operations, ht₃.operations, ht₂.operations]
  · simp only [mem_cons, not_mem_nil, or_false, not_or] at hj
    rw [ht₄.frame j hj.2.2, ht₃.frame j hj.2.1, ht₂.frame j hj.1]
  · exact (hr₂.frame (ht₃.frame _ hbe)).frame (ht₄.frame _ hbs)
  · exact hr₃.frame (ht₄.frame _ hes)

/-! ## Paddings -/

/-- **The table of the paddings**, from the pairs of as many axes as the rank. -/
theorem paddingTable_spec (hrank : 1 ≤ rank ∧ rank ≤ 4) (hlen : values.length = 2 * rank) :
    ∃ placed, paddingTable (some values) (paddingRows rank) = .ok placed ∧
      PlacedPairs (padPosition rank) rank values placed := by
  match values with
  | [a, b] =>
    obtain rfl : rank = 1 := by simpa using hlen.symm
    refine ⟨[0, 0, 0, 0, 0, 0, a, b], rfl, rfl, fun x hx j hj => ?_, fun p hp hne j hj => ?_⟩
    · interval_cases x
      interval_cases j <;> rfl
    · have h0 := hne 0 (by decide)
      interval_cases p <;> first | exact absurd rfl h0 | (interval_cases j <;> rfl)
  | [a, b, d, e] =>
    obtain rfl : rank = 2 := by
      simp only [length_cons, length_nil] at hlen
      omega
    refine ⟨[0, 0, 0, 0, a, b, d, e], rfl, rfl, fun x hx j hj => ?_, fun p hp hne j hj => ?_⟩
    · interval_cases x <;> interval_cases j <;> rfl
    · have h0 := hne 0 (by decide)
      have h1 := hne 1 (by decide)
      interval_cases p <;>
        first | exact absurd rfl h0 | exact absurd rfl h1 | (interval_cases j <;> rfl)
  | [a, b, d, e, f, g] =>
    obtain rfl : rank = 3 := by
      simp only [length_cons, length_nil] at hlen
      omega
    refine ⟨[a, b, 0, 0, d, e, f, g], rfl, rfl, fun x hx j hj => ?_, fun p hp hne j hj => ?_⟩
    · interval_cases x <;> interval_cases j <;> rfl
    · have h0 := hne 0 (by decide)
      have h1 := hne 1 (by decide)
      have h2 := hne 2 (by decide)
      interval_cases p <;>
        first
        | exact absurd rfl h0
        | exact absurd rfl h1
        | exact absurd rfl h2
        | (interval_cases j <;> rfl)
  | [a, b, d, e, f, g, k, l] =>
    obtain rfl : rank = 4 := by
      simp only [length_cons, length_nil] at hlen
      omega
    refine ⟨[a, b, k, l, d, e, f, g], rfl, rfl, fun x hx j hj => ?_, fun p hp hne j hj => ?_⟩
    · interval_cases x <;> interval_cases j <;> rfl
    · have h0 := hne 0 (by decide)
      have h1 := hne 1 (by decide)
      have h2 := hne 2 (by decide)
      have h3 := hne 3 (by decide)
      interval_cases p
      · exact absurd rfl h0
      · exact absurd rfl h3
      · exact absurd rfl h1
      · exact absurd rfl h2
  | [] | [_] | [_, _, _] | [_, _, _, _, _] | [_, _, _, _, _, _, _] |
    _ :: _ :: _ :: _ :: _ :: _ :: _ :: _ :: _ :: _ =>
    simp only [length_cons, length_nil] at hlen
    omega

theorem adjustPadShape_spec (dim : ℕ) (h : ∃ operand, c.operands operandIdx = some operand) :
    ∃ c', adjustPadShape dim operandIdx c = .ok c' ∧ Touches c c' operandIdx := by
  obtain ⟨operand, hoperand⟩ := h
  refine ⟨_, ?_, touches_setOperand c operandIdx { operand with
    numOfDims := 4, dims := if dim = 1 then numberToWidth operand.dims else operand.dims }⟩
  rw [adjustPadShape, operandAt_eq hoperand, ok_bind]

/-- **The case of a padding**, with paddings that are no other operand of it. -/
theorem adjustPad_spec {inputIdx paddingsIdx outputIdx : ℕ} (hrank : 1 ≤ rank ∧ rank ≤ 4)
    (hinput : HasRank model inputIdx rank) (hvalue : HasValue model paddingsIdx values)
    (hlen : values.length = 2 * rank) (hpaddings : c.operands paddingsIdx = some operand)
    (hbuffer : operand.buffer = some values) (hpi : paddingsIdx ≠ inputIdx)
    (hpo : paddingsIdx ≠ outputIdx) (hin : ∃ operand, c.operands inputIdx = some operand)
    (hout : ∃ operand, c.operands outputIdx = some operand) :
    ∃ c', adjustPad model inputIdx paddingsIdx outputIdx [] c = .ok c' ∧
      c'.operations = c.operations ∧
      (∀ j, j ∉ [inputIdx, paddingsIdx, outputIdx] → c'.operands j = c.operands j) ∧
      PaddingsRewritten model c' inputIdx paddingsIdx := by
  obtain ⟨input, hinput', hdims⟩ := hinput
  obtain ⟨placed, htable, hplaced⟩ := paddingTable_spec hrank hlen
  obtain ⟨c₁, h₁, ht₁⟩ := adjustPadShape_spec rank hin
  obtain ⟨c₂, h₂, ht₂⟩ := adjustPadShape_spec rank (ht₁.isPresent hout)
  have hkept : c₂.operands paddingsIdx = some operand := by
    rw [ht₂.frame _ hpo, ht₁.frame _ hpi, hpaddings]
  refine ⟨setOperand c₂ paddingsIdx { operand with
      buffer := some placed, numOfDims := 4,
      dims := { operand.dims with height := 4, width := 2 } }, ?_, ?_, fun j hj => ?_, ?_⟩
  · rw [adjustPad, adjustPadValue, ok_bind, operandAt_eq hpaddings, ok_bind,
      elementAt_eq_ok.mpr hinput', ok_bind]
    simp only [hdims, hbuffer, h₁, h₂, htable, operandAt_eq hkept, ok_bind]
  · exact ht₂.operations.trans ht₁.operations
  · simp only [mem_cons, not_mem_nil, or_false, not_or] at hj
    rw [setOperand_of_ne _ hj.2.1, ht₂.frame j hj.2.2, ht₁.frame j hj.1]
  · exact ⟨rank, values, placed, ⟨input, hinput', hdims⟩, hvalue,
      ⟨_, Function.update_self _ _ _, rfl⟩, hplaced⟩

/-- The value to pad with comes first. -/
theorem adjustPad_value (model : ClientModel) (inputIdx paddingsIdx outputIdx : ℕ)
    {padvalueIdx : ℕ} (h : ∃ operand, c.operands padvalueIdx = some operand) :
    ∃ c₁, Touches c c₁ padvalueIdx ∧
      adjustPad model inputIdx paddingsIdx outputIdx [padvalueIdx] c =
        adjustPad model inputIdx paddingsIdx outputIdx [] c₁ := by
  obtain ⟨operand, hoperand⟩ := h
  refine ⟨_, touches_setOperand c padvalueIdx { operand with
    numOfDims := 1, dims := ⟨1, 1, 1, 1⟩ }, ?_⟩
  rw [adjustPad, adjustPadValue, operandAt_eq hoperand, ok_bind, ok_bind]
  rfl

/-! ## Operations -/

theorem created_known (h : Known model operandIdx) :
    ∃ operand, created model c operandIdx = some operand := by
  obtain ⟨operand, hoperand⟩ := h
  rw [created, hoperand]
  cases c.operands operandIdx with
  | none => exact ⟨_, rfl⟩
  | some found => exact ⟨found, rfl⟩

theorem HasRank.known (h : HasRank model operandIdx rank) :
    Known model operandIdx := by
  obtain ⟨operand, hoperand, -⟩ := h
  exact ⟨operand, hoperand⟩

theorem HasValue.known (h : HasValue model operandIdx values) :
    Known model operandIdx := by
  obtain ⟨operand, hoperand, -⟩ := h
  exact ⟨operand, hoperand⟩

theorem ByAxis.known (h : ByAxis model rank operandIdx) : Known model operandIdx := by
  obtain ⟨operand, -, hoperand, -⟩ := h
  exact ⟨operand, hoperand⟩

/-- Paddings that are converted for the first time. -/
theorem created_value (h : HasValue model operandIdx values)
    (hfresh : c.operands operandIdx = none) :
    ∃ operand, created model c operandIdx = some operand ∧ operand.buffer = some values := by
  obtain ⟨operand, hoperand, hvalues⟩ := h
  refine ⟨createEdenOperand model operand, ?_, hvalues⟩
  rw [created, hfresh, hoperand]
  rfl

/-- What is there once the operands of an operation are made. -/
theorem getEdenOperands_spec (names : List ℕ) (c : Rewriting)
    (hknown : ∀ j ∈ names, Known model j) :
    ∃ c₁, getEdenOperands model names c = .ok c₁ ∧ c₁.operations = c.operations ∧
      (∀ j ∈ names, c₁.operands j = created model c j) ∧
      (∀ j ∈ names, ∃ operand, c₁.operands j = some operand) ∧
      ∀ j, j ∉ names → c₁.operands j = c.operands j := by
  refine ⟨_, getEdenOperands_eq names c hknown, rfl, fun j hj => if_pos hj, fun j hj => ?_,
    fun j hj => if_neg hj⟩
  obtain ⟨operand, hoperand⟩ := created_known (c := c) (hknown j hj)
  exact ⟨operand, (if_pos hj).trans hoperand⟩

/-- Both paddings operations, from what is named on. -/
theorem convertPad_spec (extra : List ℕ) {inputIdx paddingsIdx outputIdx : ℕ}
    (hrank : 1 ≤ rank ∧ rank ≤ 4) (hinput : HasRank model inputIdx rank)
    (hpairs : PairsByAxis model rank paddingsIdx) (hout : Known model outputIdx)
    (hextra : extra = [] ∨ ∃ padvalueIdx, extra = [padvalueIdx] ∧ Known model padvalueIdx)
    (hfresh : c.operands paddingsIdx = none)
    (honce : (inputIdx :: paddingsIdx :: extra ++ [outputIdx]).count paddingsIdx = 1) :
    ∃ c₁ c', getEdenOperands model (inputIdx :: paddingsIdx :: extra ++ [outputIdx]) c = .ok c₁ ∧
      adjustPad model inputIdx paddingsIdx outputIdx extra c₁ = .ok c' ∧
      c'.operations = c.operations ∧
      (∀ j, j ∉ inputIdx :: paddingsIdx :: extra ++ [outputIdx] →
        c'.operands j = c.operands j) ∧
      PaddingsRewritten model c' inputIdx paddingsIdx := by
  obtain ⟨values, hvalue, hlen⟩ := hpairs
  generalize hnames : inputIdx :: paddingsIdx :: extra ++ [outputIdx] = names at honce ⊢
  have hknown : ∀ j ∈ names, Known model j := by
    subst hnames
    intro j hj
    simp only [cons_append, mem_cons, mem_append, not_mem_nil, or_false] at hj
    rcases hj with rfl | rfl | hj | rfl
    · exact hinput.known
    · exact hvalue.known
    · rcases hextra with rfl | ⟨padvalueIdx, rfl, hpadvalue⟩
      · exact absurd hj (not_mem_nil)
      · exact mem_singleton.mp hj ▸ hpadvalue
    · exact hout
  obtain ⟨c₁, hget, hoperations, hin, hpresent, hnot⟩ := getEdenOperands_spec names c hknown
  obtain ⟨operand, hmade, hbuffer⟩ := created_value hvalue hfresh
  have hmemi : inputIdx ∈ names := by simp [← hnames]
  have hmemp : paddingsIdx ∈ names := by simp [← hnames]
  have hmemo : outputIdx ∈ names := by simp [← hnames]
  have hpaddings : c₁.operands paddingsIdx = some operand := (hin _ hmemp).trans hmade
  -- the paddings stand in the list once, so nothing else of it is them
  have hpi : paddingsIdx ≠ inputIdx := by
    rintro rfl
    rw [← hnames] at honce
    simp [count_cons] at honce
  have hpo : paddingsIdx ≠ outputIdx := by
    rintro rfl
    rw [← hnames] at honce
    simp only [cons_append, count_cons, count_append, beq_self_eq_true, if_true] at honce
    omega
  have hpe : paddingsIdx ∉ extra := by
    intro hmem
    rw [← hnames] at honce
    have hpos := count_pos_iff.mpr hmem
    simp only [cons_append, count_cons, count_append, beq_self_eq_true, if_true] at honce
    omega
  rcases hextra with rfl | ⟨padvalueIdx, rfl, -⟩
  · obtain ⟨c', hadjust, hops, hframe, hrewritten⟩ := adjustPad_spec hrank hinput hvalue hlen
      hpaddings hbuffer hpi hpo (hpresent _ hmemi) (hpresent _ hmemo)
    refine ⟨c₁, c', hget, hadjust, hops.trans hoperations, fun j hj => ?_, hrewritten⟩
    rw [hframe j (by simpa [← hnames] using hj), hnot j hj]
  · have hmemv : padvalueIdx ∈ names := by simp [← hnames]
    obtain ⟨c₂, ht₂, heq⟩ := adjustPad_value model inputIdx paddingsIdx outputIdx
      (hpresent _ hmemv)
    have hpv : paddingsIdx ≠ padvalueIdx := fun h => hpe (h ▸ mem_singleton_self _)
    obtain ⟨c', hadjust, hops, hframe, hrewritten⟩ := adjustPad_spec hrank hinput hvalue hlen
      ((ht₂.frame _ hpv).trans hpaddings) hbuffer hpi hpo (ht₂.isPresent (hpresent _ hmemi))
      (ht₂.isPresent (hpresent _ hmemo))
    refine ⟨c₁, c', hget, heq.trans hadjust, hops.trans (ht₂.operations.trans hoperations),
      fun j hj => ?_, hrewritten⟩
    have hj' : j ≠ padvalueIdx := fun h => hj (h ▸ hmemv)
    rw [hframe j fun h => hj (by
      rw [← hnames]
      simp only [cons_append, nil_append, mem_cons, not_mem_nil, or_false] at h ⊢
      tauto), ht₂.frame j hj', hnot j hj]

theorem configStridedSlice_eq {beginMask endMask shrinkAxisMask : ℤ}
    (hlen : operation.inputs.length = 7) (h4 : getValue model operation 4 = some beginMask)
    (h5 : getValue model operation 5 = some endMask)
    (h6 : getValue model operation 6 = some shrinkAxisMask) :
    configStridedSlice model operation = .ok ⟨beginMask, endMask, 0, 0, shrinkAxisMask⟩ := by
  rw [configStridedSlice, if_neg (not_not.mpr hlen)]
  simp only [valueAt, h4, h5, h6, ok_bind]

/-- A slice, from what is named on. -/
theorem convertSlice_spec {inputIdx beginIdx endIdx stridesIdx outputIdx : ℕ}
    (hrank : 1 ≤ rank ∧ rank ≤ 4) (hinput : HasRank model inputIdx rank)
    (hout : Known model outputIdx) (hby : ∀ j ∈ [beginIdx, endIdx, stridesIdx], ByAxis model rank j)
    (hfresh : ∀ j ∈ [beginIdx, endIdx, stridesIdx], c.operands j = none)
    (honce : ∀ j ∈ [beginIdx, endIdx, stridesIdx],
      [inputIdx, beginIdx, endIdx, stridesIdx, outputIdx].count j = 1)
    (options : StridedSliceOptions) :
    ∃ c₁ c' moved,
      getEdenOperands model [inputIdx, beginIdx, endIdx, stridesIdx, outputIdx] c = .ok c₁ ∧
      adjustStridedSlice beginIdx endIdx stridesIdx options c₁ = .ok (c', moved) ∧
      c'.operations = c.operations ∧
      (∀ j, j ∉ [inputIdx, beginIdx, endIdx, stridesIdx, outputIdx] →
        c'.operands j = c.operands j) ∧
      OperandRewritten model c' rank beginIdx 0 options.beginMask moved.beginMask ∧
      OperandRewritten model c' rank endIdx 1 options.endMask moved.endMask ∧
      OperandRewritten model c' rank stridesIdx 1 options.shrinkAxisMask
        moved.shrinkAxisMask := by
  have hsub : ∀ j ∈ [beginIdx, endIdx, stridesIdx],
      j ∈ [inputIdx, beginIdx, endIdx, stridesIdx, outputIdx] := by
    intro j hj
    simp only [mem_cons, not_mem_nil, or_false] at hj ⊢
    tauto
  have hknown : ∀ j ∈ [inputIdx, beginIdx, endIdx, stridesIdx, outputIdx], Known model j := by
    intro j hj
    by_cases hthree : j ∈ [beginIdx, endIdx, stridesIdx]
    · exact (hby j hthree).known
    · simp only [mem_cons, not_mem_nil, or_false] at hj hthree
      rcases hj with rfl | hj | hj | hj | rfl
      · exact hinput.known
      · exact absurd (Or.inl hj) hthree
      · exact absurd (Or.inr (Or.inl hj)) hthree
      · exact absurd (Or.inr (Or.inr hj)) hthree
      · exact hout
  have hbe : beginIdx ≠ endIdx := by
    rintro rfl
    have hcount := honce beginIdx (by simp)
    simp only [count_cons, beq_self_eq_true, if_true] at hcount
    omega
  have hbs : beginIdx ≠ stridesIdx := by
    rintro rfl
    have hcount := honce beginIdx (by simp)
    simp only [count_cons, beq_self_eq_true, if_true] at hcount
    omega
  have hes : endIdx ≠ stridesIdx := by
    rintro rfl
    have hcount := honce endIdx (by simp)
    simp only [count_cons, beq_self_eq_true, if_true] at hcount
    omega
  obtain ⟨c₁, hget, hoperations, hin, -, hnot⟩ := getEdenOperands_spec _ c hknown
  obtain ⟨c', moved, hadjust, hops, hframe, hrewritten⟩ := adjustStridedSlice_spec hrank hbe hbs hes
    (fun j hj => ⟨hby j hj, hfresh j hj, hin j (hsub j hj)⟩) options
  refine ⟨c₁, c', moved, hget, hadjust, hops.trans hoperations, fun j hj => ?_, hrewritten⟩
  rw [hframe j fun h => hj (hsub j h), hnot j hj]

/-- **One operation.** It is converted, its values are rewritten once if its operands are
new, and only what it names is touched. -/
theorem createEdenOperation_spec (hwell : WellFormed model operation)
    (hfresh : ∀ j ∈ rewritten operation, c.operands j = none)
    (honce : ∀ j ∈ rewritten operation, (named operation).count j = 1) :
    ∃ c' options, createEdenOperation model operation c = .ok c' ∧
      c'.operations = c.operations ++ [(operation, options)] ∧
      Rewritten model c' (operation, options) ∧
      ∀ j, j ∉ named operation → c'.operands j = c.operands j := by
  obtain ⟨type, inputs, outputs⟩ := operation
  unfold WellFormed at hwell
  split at hwell
  · next inputIdx paddingsIdx outputIdx htype hinputs houtputs =>
    subst htype hinputs houtputs
    obtain ⟨rank, hrank, hinput, hpairs, hout⟩ := hwell
    obtain ⟨c₁, c', hget, hadjust, hops, hframe, hrewritten⟩ := convertPad_spec [] hrank
      hinput hpairs hout (Or.inl rfl) (hfresh _ (mem_singleton_self _))
      (honce _ (mem_singleton_self _))
    refine ⟨{ c' with operations := c'.operations ++ [_] }, none, ?_, congrArg (· ++ _) hops,
      hrewritten, hframe⟩
    simp only [nil_append, cons_append] at hget
    simp only [createEdenOperation, hget, hadjust, ok_bind]
  · next inputIdx paddingsIdx padvalueIdx outputIdx htype hinputs houtputs =>
    subst htype hinputs houtputs
    obtain ⟨rank, hrank, hinput, hpairs, hpadvalue, hout⟩ := hwell
    obtain ⟨c₁, c', hget, hadjust, hops, hframe, hrewritten⟩ := convertPad_spec
      [padvalueIdx] hrank hinput hpairs hout (Or.inr ⟨_, rfl, hpadvalue⟩)
      (hfresh _ (mem_singleton_self _)) (honce _ (mem_singleton_self _))
    refine ⟨{ c' with operations := c'.operations ++ [_] }, none, ?_, congrArg (· ++ _) hops,
      hrewritten, hframe⟩
    simp only [nil_append, cons_append] at hget
    simp only [createEdenOperation, hget, hadjust, ok_bind]
  · next inputIdx beginIdx endIdx stridesIdx mask4 mask5 mask6 outputIdx htype hinputs houtputs =>
    subst htype hinputs houtputs
    obtain ⟨rank, hrank, hinput, hbegin, hend, hstrides, hout, hmask4, hmask5, hmask6⟩ := hwell
    obtain ⟨beginMask, hmask4⟩ := Option.isSome_iff_exists.mp hmask4
    obtain ⟨endMask, hmask5⟩ := Option.isSome_iff_exists.mp hmask5
    obtain ⟨shrinkAxisMask, hmask6⟩ := Option.isSome_iff_exists.mp hmask6
    have hby : ∀ j ∈ [beginIdx, endIdx, stridesIdx], ByAxis model rank j := by
      simp only [mem_cons, not_mem_nil, or_false, forall_eq_or_imp, forall_eq]
      exact ⟨hbegin, hend, hstrides⟩
    obtain ⟨c₁, c', moved, hget, hadjust, hops, hframe, hb, he, hs⟩ := convertSlice_spec hrank
      hinput hout hby hfresh honce ⟨beginMask, endMask, 0, 0, shrinkAxisMask⟩
    refine ⟨{ c' with operations := c'.operations ++ [_] }, some moved, ?_,
      congrArg (· ++ _) hops, ?_, hframe⟩
    · have hconfig := configStridedSlice_eq rfl hmask4 hmask5 hmask6
      simp only [createEdenOperation, hconfig, hget, hadjust, ok_bind]
    · exact ⟨rank, beginMask, endMask, shrinkAxisMask, hinput, hmask4, hmask5, hmask6, hb, he, hs⟩
  · exact hwell.elim

/-! ## All of them -/

theorem mem_named_of_mem_rewritten (hwell : WellFormed model operation) :
    ∀ j ∈ rewritten operation, j ∈ named operation := by
  obtain ⟨type, inputs, outputs⟩ := operation
  unfold WellFormed at hwell
  split at hwell
  · next htype hinputs houtputs =>
    subst htype hinputs houtputs
    intro j hj
    simp only [rewritten, named, mem_cons, not_mem_nil, or_false] at hj ⊢
    exact Or.inr (Or.inl hj)
  · next htype hinputs houtputs =>
    subst htype hinputs houtputs
    intro j hj
    simp only [rewritten, named, mem_cons, not_mem_nil, or_false] at hj ⊢
    exact Or.inr (Or.inl hj)
  · next htype hinputs houtputs =>
    subst htype hinputs houtputs
    intro j hj
    simp only [rewritten, named, mem_cons, not_mem_nil, or_false] at hj ⊢
    tauto
  · exact hwell.elim

/-- What was rewritten stays so while its operands are left alone. -/
theorem Rewritten.frame {c c' : Rewriting} {entry : ClientOperation × Option StridedSliceOptions}
    (h : Rewritten model c entry)
    (hsame : ∀ j ∈ rewritten entry.1, c'.operands j = c.operands j) :
    Rewritten model c' entry := by
  obtain ⟨⟨type, inputs, outputs⟩, options⟩ := entry
  unfold Rewritten at h ⊢
  split at h
  · next htype hinputs _ =>
    subst htype hinputs
    obtain ⟨rank, values, placed, hrank, hvalue, hholds, hplaced⟩ := h
    exact ⟨rank, values, placed, hrank, hvalue,
      hholds.frame (hsame _ (mem_singleton_self _)), hplaced⟩
  · next htype hinputs _ =>
    subst htype hinputs
    obtain ⟨rank, values, placed, hrank, hvalue, hholds, hplaced⟩ := h
    exact ⟨rank, values, placed, hrank, hvalue,
      hholds.frame (hsame _ (mem_singleton_self _)), hplaced⟩
  · next beginIdx endIdx stridesIdx _ _ htype hinputs _ =>
    subst htype hinputs
    obtain ⟨rank, b, e, s, hrank, h4, h5, h6, hb, he, hs⟩ := h
    refine ⟨rank, b, e, s, hrank, h4, h5, h6, hb.frame (hsame _ ?_), he.frame (hsame _ ?_),
      hs.frame (hsame _ ?_)⟩ <;> simp [rewritten]
  · exact h.elim

/-- **The invariant of the run.** What was converted has its values rewritten once, and what
no converted operation names is not made yet. -/
structure RunInvariant (model : ClientModel) (done : List ClientOperation) (c : Rewriting) :
    Prop where
  names : c.operations.map Prod.fst = done
  once : ∀ entry ∈ c.operations, Rewritten model c entry
  fresh : ∀ j, j ∉ done.flatMap named → c.operands j = none

/-- **One more operation keeps the invariant**, if it names for the first time what it
rewrites, and nothing that was rewritten. -/
theorem RunInvariant.step {done rest : List ClientOperation}
    (hwell : ∀ o ∈ done ++ operation :: rest, WellFormed model o)
    (hunshared : Unshared (done ++ operation :: rest)) (h : RunInvariant model done c) :
    ∃ c', createEdenOperation model operation c = .ok c' ∧
      RunInvariant model (done ++ [operation]) c' := by
  have hcount : ∀ j, ((done ++ operation :: rest).flatMap named).count j =
      (done.flatMap named).count j + ((named operation).count j +
        (rest.flatMap named).count j) := by
    intro j
    rw [flatMap_append, flatMap_cons, count_append, count_append]
  have hmem : operation ∈ done ++ operation :: rest := by simp
  have hnamed : ∀ j ∈ rewritten operation, 1 ≤ (named operation).count j :=
    fun j hj => count_pos_iff.mpr (mem_named_of_mem_rewritten (hwell _ hmem) j hj)
  obtain ⟨c', options, hcreate, hops, hrewritten, hframe⟩ :=
    createEdenOperation_spec (hwell _ hmem)
      (fun j hj => h.fresh j fun hin => by
        have honce := hunshared _ hmem j hj
        have hone := hnamed j hj
        have hpos := count_pos_iff.mpr hin
        rw [hcount] at honce
        omega)
      (fun j hj => by
        have honce := hunshared _ hmem j hj
        have hone := hnamed j hj
        rw [hcount] at honce
        omega)
  refine ⟨c', hcreate, ?_, fun entry hentry => ?_, fun j hj => ?_⟩
  · rw [hops, map_append, h.names]
    rfl
  · rw [hops, mem_append, mem_singleton] at hentry
    rcases hentry with hentry | rfl
    · refine (h.once entry hentry).frame fun j hj => hframe j fun hin => ?_
      have hdone : entry.1 ∈ done := by
        rw [← h.names]
        exact mem_map_of_mem hentry
      have hall : entry.1 ∈ done ++ operation :: rest := mem_append_left _ hdone
      have honce := hunshared _ hall j hj
      have hpos : 1 ≤ (done.flatMap named).count j :=
        count_pos_iff.mpr (mem_flatMap.mpr
          ⟨entry.1, hdone, mem_named_of_mem_rewritten (hwell _ hall) j hj⟩)
      have hone := count_pos_iff.mpr hin
      rw [hcount] at honce
      omega
    · exact hrewritten
  · rw [flatMap_append, mem_append, not_or] at hj
    rw [hframe j (by simpa using hj.2), h.fresh j hj.1]

theorem convertOperations_invariant {total : List ClientOperation}
    (hwell : ∀ o ∈ total, WellFormed model o) (hunshared : Unshared total) :
    ∀ (rest done : List ClientOperation) (c : Rewriting), done ++ rest = total →
      RunInvariant model done c →
      ∃ c', convertOperations model rest c = .ok c' ∧ RunInvariant model total c' := by
  intro rest
  induction rest with
  | nil =>
    intro done c heq h
    rw [append_nil] at heq
    exact ⟨c, rfl, heq ▸ h⟩
  | cons operation rest ih =>
    intro done c heq h
    subst heq
    obtain ⟨c', hcreate, h'⟩ := h.step hwell hunshared
    obtain ⟨c'', hrest, h''⟩ := ih (done ++ [operation]) c' (by simp) h'
    refine ⟨c'', ?_, h''⟩
    rw [convertOperations, hcreate, ok_bind, hrest]

/-- **Every value is rewritten once**, in a model whose operations name once what they
rewrite: none of them reads outside of a buffer, and after all of them each table, begin, end
and strides has the original values at the positions of their axes. -/
theorem rewritten_of_unshared {operations : List ClientOperation}
    (hwell : ∀ operation ∈ operations, WellFormed model operation)
    (hunshared : Unshared operations) :
    ∃ c, convertOperations model operations Rewriting.start = .ok c ∧
      c.operations.map Prod.fst = operations ∧
      ∀ entry ∈ c.operations, Rewritten model c entry := by
  obtain ⟨c, hconvert, h⟩ := convertOperations_invariant hwell hunshared operations []
    Rewriting.start rfl ⟨rfl, fun _ hentry => absurd hentry not_mem_nil, fun _ _ => rfl⟩
  exact ⟨c, hconvert, h.names, h.once⟩

/-! ## Two operations -/

/-- The bytes of words. -/
def bytesOf (values : List ℕ) : List (BitVec 8) := values.flatMap (LittleEndian.encode 4)

/-- A constant of the model's own values. -/
def constant (dimensions : List ℕ) (offset length : ℕ) : ClientOperand :=
  { type := .tensorInt32, dimensions, lifetime := .constantCopy, location := { offset, length } }

def tensor (lifetime : OperandLifeTime) : ClientOperand :=
  { type := .tensorFloat32, dimensions := [1, 8, 8, 2], lifetime }

/-- Paddings, a begin, an end, strides and a mask. -/
def rewriteModel : ClientModel where
  operands := [tensor .modelInput, constant [4, 2] 0 32, tensor .temporaryVariable,
    constant [4] 32 16, constant [4] 48 16, constant [4] 64 16, constant [] 80 4,
    tensor .modelOutput]
  operations := []
  inputIndexes := [0]
  outputIndexes := [7]
  operandValues := bytesOf [0, 0, 1, 1, 2, 2, 3, 3, 0, 1, 2, 0, 1, 7, 6, 2, 1, 1, 2, 1, 6]

def padOperation : ClientOperation := { type := .pad, inputs := [0, 1], outputs := [2] }

def sliceOperation : ClientOperation :=
  { type := .stridedSlice, inputs := [2, 3, 4, 5, 6, 6, 6], outputs := [7] }

/-- A padding and a slice of what it makes. -/
theorem rewritten_padThenSlice :
    (∀ operation ∈ [padOperation, sliceOperation], WellFormed rewriteModel operation) ∧
      Unshared [padOperation, sliceOperation] ∧
      ∃ c, convertOperations rewriteModel [padOperation, sliceOperation] Rewriting.start =
          .ok c ∧
        c.operations.map Prod.fst = [padOperation, sliceOperation] ∧
        ∀ entry ∈ c.operations, Rewritten rewriteModel c entry := by
  have hwell : ∀ operation ∈ [padOperation, sliceOperation],
      WellFormed rewriteModel operation := by
    simp only [mem_cons, not_mem_nil, or_false, forall_eq_or_imp, forall_eq]
    refine ⟨⟨4, by decide, ⟨_, rfl, rfl⟩, ⟨[0, 0, 1, 1, 2, 2, 3, 3],
        ⟨_, rfl, by decide +kernel⟩, rfl⟩, ⟨_, rfl⟩⟩,
      ⟨4, by decide, ⟨_, rfl, rfl⟩, ⟨_, [0, 1, 2, 0], rfl, rfl, by decide +kernel, rfl⟩,
        ⟨_, [1, 7, 6, 2], rfl, rfl, by decide +kernel, rfl⟩,
        ⟨_, [1, 1, 2, 1], rfl, rfl, by decide +kernel, rfl⟩, ⟨_, rfl⟩, by decide +kernel,
        by decide +kernel, by decide +kernel⟩⟩
  have hunshared : Unshared [padOperation, sliceOperation] := by
    unfold Unshared
    decide
  exact ⟨hwell, hunshared, rewritten_of_unshared hwell hunshared⟩

def sharingOperation : ClientOperation := { type := .pad, inputs := [2, 1], outputs := [7] }

/-- **Two paddings that share their operand.** The second moves the pairs that the first has
moved: the height is padded by what the number of channels was. -/
theorem not_rewritten_shared :
    (convertOperations rewriteModel [padOperation, sharingOperation] Rewriting.start).map
        (fun c => (c.operands 1).bind EdenOperand.buffer) =
      .ok (some [0, 0, 2, 2, 3, 3, 1, 1]) ∧
    ¬ ∃ c, convertOperations rewriteModel [padOperation, sharingOperation] Rewriting.start =
        .ok c ∧ c.operations.map Prod.fst = [padOperation, sharingOperation] ∧
      ∀ entry ∈ c.operations, Rewritten rewriteModel c entry := by
  have hbuffer : (convertOperations rewriteModel [padOperation, sharingOperation]
      Rewriting.start).map (fun c => (c.operands 1).bind EdenOperand.buffer) =
      .ok (some [0, 0, 2, 2, 3, 3, 1, 1]) := by decide +kernel
  have hadded : (convertOperations rewriteModel [padOperation, sharingOperation]
      Rewriting.start).map Rewriting.operations =
      .ok [(padOperation, none), (sharingOperation, none)] := by decide +kernel
  refine ⟨hbuffer, ?_⟩
  rintro ⟨c, hconvert, -, hrewritten⟩
  rw [hconvert] at hbuffer hadded
  simp only [Except.map, Except.ok.injEq] at hbuffer hadded
  have hfirst := hrewritten (padOperation, none) (by simp [hadded])
  obtain ⟨rank, values, placed, ⟨input, hinput, hrank⟩, ⟨paddings, hpaddings, hvalues⟩,
    ⟨operand, hoperand, hplaced⟩, hlaw⟩ := hfirst
  cases hinput
  cases hpaddings
  have hwords : constantWords rewriteModel (constant [4, 2] 0 32) =
    some [0, 0, 1, 1, 2, 2, 3, 3] := by decide +kernel
  rw [hwords] at hvalues
  rw [hoperand, Option.bind_some, hplaced] at hbuffer
  cases hvalues
  cases hbuffer
  subst hrank
  exact absurd (hlaw.axis 1 (by decide) 0 (by decide)) (by decide)

end ExynosVendor.Eden.ValueRewrites
