import ExynosVendor.Ril.Util.Ussd
import Mathlib.Data.List.GetD

/-!
# Packing septets

`packing_gsm7bit` of `util/util.cpp` puts eight septets into seven bytes,
and `unpacking_gsm7bit` takes them out again. Byte `d` of the packed
string holds the upper bits of septet `d + d / 7` and the lower bits of
the one behind it (`septetByte`), so a byte leaves the reader with the
lower bits of the next septet in hand (`lowBits`): that is what its loop
carries from round to round.

The packing loop tests its source index before it skips the septet that
the byte before has taken along. After a whole group of eight it
therefore goes round once more, with the index one past the source, and
`packingRoundTrips_iff` is what this leaves of the round trip.
-/

namespace ExynosVendor.Ril

open List Option

/-! ## Packing -/

/-- The loop of `packing_gsm7bit`. -/
def packingLoop (src : List BYTE) (srcLen srcIdx destIdx : ℕ) (dest : List BYTE) :
    Option (List BYTE × ℕ) :=
  if srcIdx < srcLen then do
    -- the eighth septet of a group went into the byte before
    let idx := if srcIdx % 8 = 7 then srcIdx + 1 else srcIdx
    let shift := idx % 8
    let septet ← src[idx]?
    let dest ← Block.put dest destIdx (septet >>> shift)
    let dest ←
      if idx + 1 < srcLen then do
        let next ← src[idx + 1]?
        let cell ← dest[destIdx]?
        Block.put dest destIdx (cell ||| next <<< (7 - shift))
      else some dest
    packingLoop src srcLen (idx + 1) (destIdx + 1) dest
  else some (dest, destIdx)
termination_by srcLen - srcIdx
decreasing_by all_goals (split <;> omega)

/-- `packing_gsm7bit`, which faults when `src_len*7` leaves an `int`. -/
def packingGsm7bit (src : List BYTE) (srcLen : ℕ) (dest : List BYTE) :
    Option (List BYTE × ℕ) :=
  if srcLen * 7 < 2 ^ 31 then do
    let encLen := if srcLen % 8 = 0 then srcLen * 7 / 8 else srcLen * 7 / 8 + 1
    let (dest, destIdx) ← packingLoop src srcLen 0 0 dest
    let dest ←
      if srcLen % 8 = 7 then do
        -- seven bits of padding are a carriage return
        let cell ← dest[destIdx - 1]?
        Block.put dest (destIdx - 1) (cell ||| 0x1A)
      else some dest
    some (dest, encLen)
  else none

/-! ## What the packed bytes hold -/

/-- The bits of a septet below a position. -/
def lowBits (x : BYTE) (k : ℕ) : BYTE :=
  (x.setWidth k).setWidth 8

/-- The byte that ends septet `d + d / 7` and begins the next one. -/
def septetByte (t : ℕ → BYTE) (d : ℕ) : BYTE :=
  t (d + d / 7) >>> (d % 7) ||| t (d + d / 7 + 1) <<< (7 - d % 7)

/-- The bytes of so many septets, by the size `packing_gsm7bit` returns. -/
def packedLength (n : ℕ) : ℕ := n - n / 8

theorem encLen_eq (n : ℕ) :
    (if n % 8 = 0 then n * 7 / 8 else n * 7 / 8 + 1) = packedLength n := by
  rw [packedLength]
  split <;> omega

@[simp] theorem lowBits_zero (x : BYTE) : lowBits x 0 = 0 := by
  ext i hi
  simp [lowBits]

theorem lowBits_seven {x : BYTE} (hx : x.toNat < 128) : lowBits x 7 = x := by
  rw [lowBits]
  apply BitVec.eq_of_toNat_eq
  rw [BitVec.toNat_setWidth, BitVec.toNat_setWidth, Nat.mod_eq_of_lt (by omega : x.toNat < 2 ^ 7),
    Nat.mod_eq_of_lt x.isLt]

/-- The lower bits in hand and the upper ones of the next byte are the
septet. -/
theorem lowBits_or_shift {x y : BYTE} {k : ℕ} (hk : k < 7) (hx : x.toNat < 128) :
    lowBits x k ||| ((x >>> k ||| y <<< (7 - k)) <<< k &&& 0x7F) = x := by
  have hx7 : x[7] = false := by
    rw [← BitVec.getLsbD_eq_getElem]
    exact Nat.testBit_lt_two_pow hx
  ext i hi
  interval_cases k <;> interval_cases i <;> simp_all [lowBits]

/-- And what is left of the byte are the lower bits of the septet behind
it. -/
theorem shift_septet {x y : BYTE} {k : ℕ} (hk : k < 7) (hx : x.toNat < 128) :
    (x >>> k ||| y <<< (7 - k)) >>> (7 - k) = lowBits y (k + 1) := by
  have hx7 : x[7] = false := by
    rw [← BitVec.getLsbD_eq_getElem]
    exact Nat.testBit_lt_two_pow hx
  ext i hi
  interval_cases k <;> interval_cases i <;> simp_all [lowBits]

/-! ## The packing loop -/

/-- The septets of a source, and nothing behind them. -/
def septetsOf (src : List BYTE) (n k : ℕ) : BYTE :=
  if k < n then src.getD k 0 else 0

variable {n : ℕ} {t : ℕ → BYTE}

/-- One round, at the index the round before has left. -/
theorem packingLoop_round {src : List BYTE} {d : ℕ} (p : List BYTE) {c : BYTE} {r : List BYTE}
    (hp : p.length = d) (hn : n ≤ src.length) (hd : d + d / 7 < n) :
    packingLoop src n (d + (d - 1) / 7) d (p ++ c :: r) =
      packingLoop src n (d + 1 + d / 7) (d + 1)
        (p ++ [septetByte (septetsOf src n) d] ++ r) := by
  have hskip : (if (d + (d - 1) / 7) % 8 = 7 then d + (d - 1) / 7 + 1 else d + (d - 1) / 7) =
      d + d / 7 := by
    split <;> omega
  have hshift : (d + d / 7) % 8 = d % 7 := by omega
  have hread : src[d + d / 7]? = some (septetsOf src n (d + d / 7)) := by
    rw [septetsOf, if_pos hd, getD_eq_getElem _ _ (by omega), getElem?_eq_getElem (by omega)]
  have hput (b c : BYTE) : Block.put (p ++ c :: r) d b = some (p ++ b :: r) := Block.put_at hp
  have hcell (b : BYTE) : (p ++ b :: r)[d]? = some b := by
    subst hp
    simp
  have hstart : d + (d - 1) / 7 < n := by omega
  have hnext : d + d / 7 + 1 = d + 1 + d / 7 := by omega
  rw [packingLoop, if_pos hstart]
  simp only [hskip, hshift, hread, hput, bind_eq_bind, bind_some]
  by_cases hmore : d + d / 7 + 1 < n
  · have hread' : src[d + d / 7 + 1]? = some (septetsOf src n (d + d / 7 + 1)) := by
      rw [septetsOf, if_pos hmore, getD_eq_getElem _ _ (by omega), getElem?_eq_getElem (by omega)]
    simp only [if_pos hmore, hread', hcell, bind_some]
    rw [septetByte, ← hnext]
    simp
  · -- nothing is behind the last septet
    have hzero : septetsOf src n (d + d / 7 + 1) = 0 := by
      rw [septetsOf, if_neg hmore]
    simp only [if_neg hmore]
    rw [septetByte, hzero, ← hnext]
    simp

/-- The rounds of the whole bytes. -/
theorem packingLoop_rounds {src dest : List BYTE} {d : ℕ} (hn : n ≤ src.length)
    (hd : d ≤ packedLength n) (hdest : d ≤ dest.length) :
    packingLoop src n 0 0 dest =
      packingLoop src n (d + (d - 1) / 7) d
        ((List.range d).map (septetByte (septetsOf src n)) ++ dest.drop d) := by
  induction d with
  | zero => simp
  | succ d ih =>
      have hidx : d + d / 7 < n := by
        rw [packedLength] at hd
        omega
      have hdrop : dest.drop d = dest[d] :: dest.drop (d + 1) := drop_eq_getElem_cons (by omega)
      rw [ih (by omega) (by omega), hdrop,
        packingLoop_round _ (by rw [length_map, length_range]) hn hidx, range_succ, map_append]
      rfl

theorem packingLoop_eq {src dest : List BYTE} (hn : n ≤ src.length) (h8 : n = 0 ∨ n % 8 ≠ 0)
    (hdest : packedLength n ≤ dest.length) :
    packingLoop src n 0 0 dest =
      some ((List.range (packedLength n)).map (septetByte (septetsOf src n)) ++
        dest.drop (packedLength n), packedLength n) := by
  have hend : ¬ packedLength n + (packedLength n - 1) / 7 < n := by
    rw [packedLength]
    omega
  rw [packingLoop_rounds hn le_rfl hdest, packingLoop, if_neg hend]

/-- After a whole group it goes round once more, for a septet that is not
there. -/
theorem packingLoop_whole {src dest : List BYTE} (hn : n ≤ src.length) (hpos : n ≠ 0)
    (h8 : n % 8 = 0) (hdest : packedLength n ≤ dest.length) :
    packingLoop src n 0 0 dest = (do
      let septet ← src[n]?
      let dest ← Block.put ((List.range (packedLength n)).map (septetByte (septetsOf src n)) ++
        dest.drop (packedLength n)) (packedLength n) septet
      some (dest, packedLength n + 1)) := by
  have hstart : packedLength n + (packedLength n - 1) / 7 = n - 1 := by
    rw [packedLength]
    omega
  have hskip : (if (n - 1) % 8 = 7 then n - 1 + 1 else n - 1) = n := by
    rw [if_pos (by omega)]
    omega
  have hend : ¬ n + 1 < n := by omega
  rw [packingLoop_rounds hn le_rfl hdest, hstart, packingLoop, if_pos (by omega)]
  simp only [hskip, h8, BitVec.ushiftRight_zero, if_neg hend, bind_eq_bind]
  congr 1
  funext septet
  congr 1
  funext dest'
  rw [bind_some, packingLoop, if_neg hend]

/-- The septets the packed string stands for: a free seventh place of the
last byte is a carriage return. -/
def paddedSeptets (src : List BYTE) (n k : ℕ) : BYTE :=
  if k = n ∧ n % 8 = 7 then 0x0D else septetsOf src n k

/-- The padding is added to the last byte. -/
theorem map_septetByte_padded (src : List BYTE) (h : n % 8 = 7) :
    (List.range (packedLength n)).map (septetByte (paddedSeptets src n)) =
      (List.range (packedLength n - 1)).map (septetByte (septetsOf src n)) ++
        [septetByte (septetsOf src n) (packedLength n - 1) ||| 0x1A] := by
  obtain ⟨m, hm⟩ : ∃ m, packedLength n = m + 1 := ⟨packedLength n - 1, by
    rw [packedLength]
    omega⟩
  have hlast : m + m / 7 + 1 = n ∧ m % 7 = 6 := by
    rw [packedLength] at hm
    omega
  rw [hm, Nat.add_sub_cancel, range_succ, map_append]
  congr 1
  · refine map_congr_left fun d hd => ?_
    have hlt : d + d / 7 + 1 < n := by
      have := mem_range.mp hd
      omega
    have hne (k : ℕ) (hk : k < n) : paddedSeptets src n k = septetsOf src n k := by
      rw [paddedSeptets, if_neg (by omega)]
    rw [septetByte, septetByte, hne _ hlt, hne _ (by omega)]
  · have hback : septetsOf src n n = 0 := by rw [septetsOf, if_neg (lt_irrefl n)]
    have hcr : paddedSeptets src n n = 0x0D := by rw [paddedSeptets, if_pos ⟨rfl, h⟩]
    have hsame : paddedSeptets src n (m + m / 7) = septetsOf src n (m + m / 7) := by
      rw [paddedSeptets, if_neg (by omega)]
    simp only [map_cons, map_nil, septetByte, hlast.1, hlast.2, hback, hcr, hsame]
    simp

theorem paddedSeptets_eq (src : List BYTE) (h : n % 8 ≠ 7) :
    paddedSeptets src n = septetsOf src n := by
  funext k
  rw [paddedSeptets, if_neg (fun hk => h hk.2)]

/-- **What `packing_gsm7bit` writes** of a source whose last group is not
whole. -/
theorem packingGsm7bit_eq {src dest : List BYTE} (hint : n * 7 < 2 ^ 31) (hn : n ≤ src.length)
    (h8 : n = 0 ∨ n % 8 ≠ 0) (hdest : packedLength n ≤ dest.length) :
    packingGsm7bit src n dest =
      some ((List.range (packedLength n)).map (septetByte (paddedSeptets src n)) ++
        dest.drop (packedLength n), packedLength n) := by
  simp only [packingGsm7bit, if_pos hint, encLen_eq, packingLoop_eq hn h8 hdest,
    bind_eq_bind, bind_some]
  by_cases h7 : n % 8 = 7
  · -- the last byte gets the padding
    obtain ⟨m, hm⟩ : ∃ m, packedLength n = m + 1 := ⟨packedLength n - 1, by
      rw [packedLength]
      omega⟩
    have hlen : ((List.range m).map (septetByte (septetsOf src n))).length = m := by
      rw [length_map, length_range]
    rw [if_pos h7, map_septetByte_padded src h7, hm, Nat.add_sub_cancel, range_succ,
      map_append, append_assoc, append_assoc]
    generalize (List.range m).map (septetByte (septetsOf src n)) = p at hlen
    subst hlen
    simp [Block.put_eq_set]
  · rw [if_neg h7, paddedSeptets_eq src h7]

/-- **What it writes of whole groups**, when there is a cell behind the
source and one behind the destination: that cell too. -/
theorem packingGsm7bit_whole {src dest : List BYTE} (hint : n * 7 < 2 ^ 31) (hn : n < src.length)
    (hpos : n ≠ 0) (h8 : n % 8 = 0) (hdest : packedLength n < dest.length) :
    ∃ back, packingGsm7bit src n dest =
      some ((List.range (packedLength n)).map (septetByte (paddedSeptets src n)) ++ back,
        packedLength n) := by
  have h7 : n % 8 ≠ 7 := by omega
  have hdrop : dest.drop (packedLength n) =
      dest[packedLength n] :: dest.drop (packedLength n + 1) := drop_eq_getElem_cons hdest
  refine ⟨src[n] :: dest.drop (packedLength n + 1), ?_⟩
  simp only [packingGsm7bit, if_pos hint, encLen_eq, if_neg h7,
    packingLoop_whole (Nat.le_of_lt hn) hpos h8 (Nat.le_of_lt hdest),
    getElem?_eq_getElem hn, bind_eq_bind, bind_some]
  rw [paddedSeptets_eq src h7, hdrop, Block.put_at (by simp), bind_some, bind_some]

theorem packingGsm7bit_whole_eq_none {src dest : List BYTE} (hn : n = src.length) (hpos : n ≠ 0)
    (h8 : n % 8 = 0) (hdest : packedLength n ≤ dest.length) :
    packingGsm7bit src n dest = none := by
  have hread : src[n]? = none := getElem?_eq_none (Nat.le_of_eq hn.symm)
  rw [packingGsm7bit]
  split
  · simp only [packingLoop_whole (Nat.le_of_eq hn) hpos h8 hdest, hread, bind_eq_bind, bind_none]
  · rfl

/-! ## The unpacking loop -/

/-- The cells after so many bytes: the whole septets, and the lower bits
of the next one. -/
def unpackedCell (t : ℕ → BYTE) (j k : ℕ) : BYTE :=
  if k < j + j / 7 then t k
  else if k = j + j / 7 then lowBits (t k) (j % 7)
  else 0

theorem put_map_range {f g : ℕ → BYTE} {i : ℕ} {x : BYTE} (hi : i < n) (hx : g i = x)
    (hg : ∀ k, k ≠ i → g k = f k) :
    Block.put ((List.range n).map f) i x = some ((List.range n).map g) := by
  rw [Block.put_eq_set x (by simpa using hi), some.injEq]
  refine ext_getElem (by simp) fun k hk hk' => ?_
  rw [getElem_set]
  split_ifs with hik
  · subst hik
    simp [hx]
  · simp [hg k (Ne.symm hik)]

/-- **One byte is unpacked**: it completes a septet and begins the next. -/
theorem unpackingLoop_byte (ht : ∀ k, (t k).toNat < 128) (rest : List BYTE) {j room : ℕ}
    (hroom : j + j / 7 + 1 < room) :
    unpackingLoop (septetByte t j :: rest) j (j + j / 7)
        ((List.range room).map (unpackedCell t j)) =
      unpackingLoop rest (j + 1) (j + 1 + (j + 1) / 7)
        ((List.range room).map (unpackedCell t (j + 1))) := by
  have hshift : j % 7 < 7 := Nat.mod_lt _ (by decide)
  have hcell : ((List.range room).map (unpackedCell t j))[j + j / 7]? =
      some (lowBits (t (j + j / 7)) (j % 7)) := by
    simp [unpackedCell, show j + j / 7 < room by omega]
  -- the septet that ends in this byte
  have hput : Block.put ((List.range room).map (unpackedCell t j)) (j + j / 7)
      (lowBits (t (j + j / 7)) (j % 7) ||| (septetByte t j <<< (j % 7) &&& 0x7F)) =
      some ((List.range room).map fun k => if k = j + j / 7 then t k else unpackedCell t j k) := by
    refine put_map_range (by omega) ?_ fun k hk => by rw [if_neg hk]
    rw [if_pos rfl, septetByte, lowBits_or_shift hshift (ht _)]
  -- and the bits of the one that begins
  have hput' : Block.put
      ((List.range room).map fun k => if k = j + j / 7 then t k else unpackedCell t j k)
      (j + j / 7 + 1) (septetByte t j >>> (7 - j % 7)) =
      some ((List.range room).map (unpackedCell t (j + 1))) := by
    refine put_map_range hroom ?_ fun k hk => ?_
    · rw [septetByte, shift_septet hshift (ht _), unpackedCell]
      by_cases hsix : j % 7 = 6
      · rw [if_pos (by omega), hsix, lowBits_seven (ht _)]
      · rw [if_neg (by omega), if_pos (by omega)]
        congr 1
        omega
    · by_cases hnew : k = j + 1 + (j + 1) / 7
      · -- the byte was the seventh, and the next septet has not begun
        rw [unpackedCell, if_neg (by omega), if_pos hnew, unpackedCell, if_neg (by omega),
          if_neg (by omega), if_neg (by omega), show (j + 1) % 7 = 0 by omega, lowBits_zero]
      · rw [unpackedCell, unpackedCell]
        split_ifs <;> first | rfl | omega
  have hnext : (if 7 - j % 7 = 1 then j + j / 7 + 1 else j + j / 7) + 1 =
      j + 1 + (j + 1) / 7 := by
    split <;> omega
  simp only [unpackingLoop, hcell, hput, hput', hnext, bind_eq_bind, bind_some]

/-- So a packed string is unpacked byte by byte. -/
theorem unpackingLoop_bytes (ht : ∀ k, (t k).toNat < 128) {m j room : ℕ} (hj : j ≤ m)
    (hroom : m = 0 ∨ m - 1 + (m - 1) / 7 + 1 < room) :
    unpackingLoop ((List.range' j (m - j)).map (septetByte t)) j (j + j / 7)
        ((List.range room).map (unpackedCell t j)) =
      some ((List.range room).map (unpackedCell t m), m + m / 7) := by
  induction hrest : m - j generalizing j with
  | zero =>
      obtain rfl : j = m := by omega
      rfl
  | succ k ih =>
      have hfit : j + j / 7 + 1 < room := by omega
      rw [range'_succ, map_cons, unpackingLoop_byte ht _ hfit]
      exact ih (by omega) (by omega)

/-- **`unpacking_gsm7bit` into a zeroed buffer** returns the septets. -/
theorem unpackingGsm7bit_eq (ht : ∀ k, (t k).toNat < 128) {m room : ℕ}
    (hroom : m = 0 ∨ m - 1 + (m - 1) / 7 + 1 < room) :
    unpackingGsm7bit ((List.range m).map (septetByte t)) (List.replicate room 0) =
      some ((List.range room).map (unpackedCell t m), m + m / 7) := by
  have hzero : List.replicate room (0 : BYTE) = (List.range room).map (unpackedCell t 0) := by
    refine ext_getElem (by simp) fun k hk _ => ?_
    by_cases h : k = 0 <;> simp [unpackedCell, h]
  have hloop := unpackingLoop_bytes ht (Nat.zero_le m) hroom
  rw [Nat.sub_zero, ← range_eq_range'] at hloop
  rw [unpackingGsm7bit, hzero]
  exact hloop

theorem load_unpackedCell (t : ℕ → BYTE) {m room : ℕ} (h : m + m / 7 ≤ room) :
    Block.load ((List.range room).map (unpackedCell t m)) 0 (m + m / 7) =
      some ((List.range (m + m / 7)).map t) := by
  rw [Block.load_of_le (by simpa using h), some.injEq]
  refine ext_getElem (by simpa using h) fun k hk hk' => ?_
  have hlt : k < m + m / 7 := by simpa using hk'
  simp [unpackedCell, hlt]

/-! ## The round trip -/

/-- A septet string, and the carriage return that fills a last byte. -/
def withPadding (s : List BYTE) : List BYTE :=
  s ++ if s.length % 8 = 7 then [0x0D] else []

/-- **A septet string survives packing**: the packed bytes are as many as
returned, they are what is written of a destination that has room for
them, only the string is read, and unpacking them into zeroed cells, one
more than there are septets, returns the string with its padding. -/
def PackingRoundTrips (s : List BYTE) : Prop :=
  ∃ packed : List BYTE,
    (∀ dest, packed.length ≤ dest.length →
      packingGsm7bit s s.length dest = some (packed ++ dest.drop packed.length, packed.length)) ∧
    ∀ room, s.length < room → ∃ dest,
      unpackingGsm7bit packed (List.replicate room 0) = some (dest, (withPadding s).length) ∧
        Block.load dest 0 (withPadding s).length = some (withPadding s)

theorem paddedSeptets_lt {s : List BYTE} (hs : ∀ x ∈ s, x.toNat < 128) (k : ℕ) :
    (paddedSeptets s s.length k).toNat < 128 := by
  rw [paddedSeptets]
  split_ifs
  · decide
  · rw [septetsOf]
    split_ifs with hk
    · rw [getD_eq_getElem _ _ hk]
      exact hs _ (getElem_mem hk)
    · decide

/-- The string with its padding is as long as the packed bytes say. -/
theorem length_withPadding (s : List BYTE) :
    (withPadding s).length = packedLength s.length + packedLength s.length / 7 := by
  rw [withPadding, length_append, packedLength]
  split_ifs <;> simp only [length_cons, length_nil] <;> omega

/-- As many as the packed bytes hold, they are the string with its
padding. -/
theorem map_paddedSeptets (s : List BYTE) :
    (List.range (packedLength s.length + packedLength s.length / 7)).map
      (paddedSeptets s s.length) = withPadding s := by
  refine ext_getElem (by simp [length_withPadding]) fun k hk hk' => ?_
  rw [getElem_map, getElem_range]
  by_cases hlt : k < s.length
  · simp [withPadding, paddedSeptets, septetsOf, hlt, Nat.ne_of_lt hlt]
  · -- only the padding is behind the string
    have h7 : s.length % 8 = 7 := by
      by_contra h7
      simp only [withPadding, if_neg h7, append_nil] at hk'
      omega
    obtain rfl : k = s.length := by
      simp only [withPadding, if_pos h7, length_append, length_singleton] at hk'
      omega
    simp [withPadding, paddedSeptets, h7]

/-- **Which septet strings survive packing**: those whose last group is
not a whole one, as long as seven times their length is an `int`. -/
theorem packingRoundTrips_iff {s : List BYTE} (hs : ∀ x ∈ s, x.toNat < 128) :
    PackingRoundTrips s ↔ (s.length = 0 ∨ s.length % 8 ≠ 0) ∧ s.length * 7 < 2 ^ 31 := by
  constructor
  · rintro ⟨packed, hpack, -⟩
    have hint : s.length * 7 < 2 ^ 31 := by
      by_contra hlong
      have hfault := hpack (List.replicate packed.length 0) (by simp)
      rw [packingGsm7bit, if_neg hlong] at hfault
      exact absurd hfault (some_ne_none _).symm
    refine ⟨?_, hint⟩
    by_contra h8
    push Not at h8
    -- a destination with room for the packed string and for what is returned
    have hfault := hpack (List.replicate (packed.length + packedLength s.length) 0) (by simp)
    rw [packingGsm7bit_whole_eq_none rfl h8.1 h8.2 (by simp)] at hfault
    exact absurd hfault (some_ne_none _).symm
  · rintro ⟨h8, hint⟩
    refine ⟨(List.range (packedLength s.length)).map (septetByte (paddedSeptets s s.length)), ?_, ?_⟩
    · intro dest hdest
      rw [length_map, length_range] at hdest ⊢
      exact packingGsm7bit_eq hint le_rfl h8 hdest
    · intro room hroom
      have hfit : packedLength s.length = 0 ∨
          packedLength s.length - 1 + (packedLength s.length - 1) / 7 + 1 < room := by
        rw [packedLength]
        omega
      have hall : packedLength s.length + packedLength s.length / 7 ≤ room := by
        rw [packedLength]
        omega
      have hload := load_unpackedCell (paddedSeptets s s.length) hall
      rw [map_paddedSeptets] at hload
      rw [length_withPadding]
      exact ⟨_, unpackingGsm7bit_eq (paddedSeptets_lt hs) hfit, hload⟩

/-- Three septets. -/
theorem packingRoundTrips_three : PackingRoundTrips [0x41, 0x00, 0x7F] :=
  (packingRoundTrips_iff (by decide)).mpr (by decide)

/-- **Eight septets do not survive it**: the ninth is read. -/
theorem not_packingRoundTrips_eight : ¬ PackingRoundTrips (List.replicate 8 0x41) := by
  rintro ⟨packed, hpack, -⟩
  have hfault := hpack (List.replicate (packed.length + 7) 0) (by simp)
  rw [packingGsm7bit_whole_eq_none rfl (by decide) (by decide) (by simp [packedLength])] at hfault
  exact absurd hfault (some_ne_none _).symm

end ExynosVendor.Ril
