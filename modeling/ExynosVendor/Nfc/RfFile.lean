import ExynosVendor.Nfc.FwFile

/-!
# The file of the RF registers

`load_rf_binary` of `hal_selectImage.cc` with `nfc_hal_rf_get_reg` of
`hal_rfreg.cc`, which load a file into a buffer of 4 KiB behind a size, and
`hal_vs.cc`, which takes the version out of it and sends it in sections. The
sum of a section is made of whole words of an array on the stack, of which the
section may leave the last word unfinished.

The buffers hold anything before they are written; a copy that leaves one
faults. `works_iff` says which files are sent exactly.
-/

namespace ExynosVendor.Nfc.RfFile

open LittleEndian
open List Option

/-! ## The loader -/

/-- `prop_header_size`. -/
def propHeaderSize : ℕ := 5

/-- The size of the buffer of `nfc_hal_rf_get_reg`. -/
def regBufferSize : ℕ := 4 * 1024

def rfregMetaDataLength : ℕ := 16

def rfregMetaTargetInfor : ℕ := 12

def imageCodeSize : ℕ := 3

/-- `get_default_code`. -/
def defaultCode : List (BitVec 8) := [0x44, 0x45, 0x46]

/-- `get_binary_information`: `file_size`, which stays zero without a header. -/
def fileSize (file : List (BitVec 8)) : ℤ := if file.length < 18 then 0 else toInt file.length

/-- `set_id_to_rf_reg`, of registers behind the size. -/
def setIdToRfReg (binary : List (BitVec 8)) (size : ℤ) (id : Option (List (BitVec 8))) :
    Option (List (BitVec 8)) :=
  match id with
  | none => some binary
  | some id =>
      if size < rfregMetaDataLength then some binary
      else
        Block.store binary
          (propHeaderSize + (size.toNat - rfregMetaDataLength) + rfregMetaTargetInfor)
          (id.take imageCodeSize)

/-- `nfc_hal_rf_get_reg`. No `target_code` is set, so that there is no id. -/
def nfcHalRfGetReg (binary file : List (BitVec 8)) : Option (ℤ × List (BitVec 8)) := do
  let size := fileSize file
  let bytes := file.take (size % 2 ^ 64).toNat
  let binary ← Block.store binary propHeaderSize bytes
  if bytes.length ≠ (size % 2 ^ 64).toNat then some (-1, binary)
  else do
    let binary ← setIdToRfReg binary size none
    some (size, binary)

/-- `load_rf_binary`, into a new buffer. The image has a code where its name is
one of the old configuration. -/
def loadRfBinary (buffer file : List (BitVec 8)) (oldField : Bool) :
    Option (ℤ × List (BitVec 8)) := do
  let (binaryLength, binary) ← nfcHalRfGetReg buffer file
  if binaryLength < 0 then some (-1, [])
  else do
    let binary ← Block.store binary 1 (encode 4 (toUInt binaryLength))
    let binary ← Block.put binary 0 4
    let binary ← setIdToRfReg binary binaryLength (if oldField then some defaultCode else none)
    some (binaryLength, binary)

/-! ## The choice -/

/-- What is found outside. -/
structure Answers where
  /-- The name is one of the old configuration. -/
  oldField : Bool
  /-- The update is forced. -/
  force : Bool
  /-- `chip_rf_version`. -/
  chipRfVersion : List (BitVec 8)
  /-- `CFG_UPDATE_MODE`. -/
  updateMode : Option ℤ

def versionLenRf : ℕ := 5

/-- `get_image_version`. The length is unsigned. -/
def getImageVersion (binary : List (BitVec 8)) (binaryLength : ℤ) : Option (List (BitVec 8)) :=
  Block.load binary (propHeaderSize + toUInt (binaryLength - 16) + 5) versionLenRf

/-- `tNFC_HAL_VS_INFO`, of what belongs to the image. -/
structure VsImage where
  binary : List (BitVec 8)
  /-- `rfreg`, as an offset in the binary. -/
  rfreg : ℕ
  rfregSize : ℤ
  rfregImgVersion : List (BitVec 8)
  /-- `rfreg_img_number_version`, where it is set. -/
  rfregImgNumberVersion : Option (List (BitVec 8))
  deriving DecidableEq

/-- `nfc_rf_getver_from_image`: the last sixteen bytes, from which the versions
are taken. -/
def nfcRfGetverFromImage (binary : List (BitVec 8)) (rfreg : ℕ) (rfregSize : ℤ) :
    Option (List (BitVec 8)) :=
  if rfreg + (rfregSize - 16) < 0 then none
  else Block.load binary (rfreg + (rfregSize - 16)).toNat 16

/-- `hal_vs_get_rf_image`, with a binary. -/
def vsImageOf (bl : FwBlInfo) (binary : List (BitVec 8)) : Option VsImage := do
  let prefixSize ← Block.load binary 0 1
  let n := decode prefixSize
  if 4 < n then none
  else do
    let sizeBytes ← Block.load binary 1 n
    let rfregSize := toInt (decode sizeBytes)
    let value ← nfcRfGetverFromImage binary (n + 1) rfregSize
    some
      { binary := binary
        rfreg := n + 1
        rfregSize := rfregSize
        rfregImgVersion := slice value 5 5 ++ slice value 12 3
        rfregImgNumberVersion :=
          if bl.fromN74 then
            some [value.getD 0 0 >>> 4, value.getD 0 0 &&& 0x0F, value.getD 1 0, value.getD 11 0]
          else none }

/-- `hal_vs_get_rf_image`, of a file: the image, if the update goes on. -/
def halVsGetRfImage (ans : Answers) (bl : FwBlInfo) (buffer file : List (BitVec 8)) :
    Option (Option VsImage) := do
  let (binaryLength, binary) ← loadRfBinary buffer file ans.oldField
  if binaryLength < 0 then some none
  else if ans.force then (vsImageOf bl binary).map some
  else do
    let verImage ← getImageVersion binary binaryLength
    if updateWanted .rfReg ans.updateMode ans.chipRfVersion verImage then
      (vsImageOf bl binary).map some
    else some none

/-! ## The sections -/

/-- `rfregid` and `check_sum`. -/
structure Sending where
  rfregid : ℤ
  checkSum : BitVec 32
  deriving DecidableEq

/-- The loop over the words of the data, from a place on. -/
def checkSumLoop (data : List (BitVec 8)) : ℕ → ℕ → BitVec 32 → Option (BitVec 32)
  | 0, _, sum => some sum
  | turns + 1, i, sum => do
      let word ← Block.load data i 4
      checkSumLoop data turns (i + 4) (sum + BitVec.ofNat 32 (decode word))

/-- `hal_vs_rfreg_update`, with what is on the stack: the section that is sent,
if there is one. -/
def halVsRfregUpdate (img : VsImage) (stack : List (BitVec 8)) (s : Sending) :
    Option (Option (Sending × List (BitVec 8))) := do
  let next := toInt (s.rfregid * rfregSectionSize)
  if img.rfregSize ≤ next then some none
  else do
    let left := toInt (img.rfregSize - next)
    let size := if left < rfregSectionSize then left.toNat else rfregSectionSize
    let bytes ← Block.load img.binary (img.rfreg + next.toNat) size
    let data ← Block.store stack 1 bytes
    let checkSum ← checkSumLoop data ((size + 3) / 4) 1 s.checkSum
    let data ← Block.put data 0 (BitVec.ofInt 8 s.rfregid)
    let payload ← Block.load data 0 (size + 1)
    some (some (⟨s.rfregid + 1, checkSum⟩, payload))

/-- The calls of it, until it returns false. -/
def updates (img : VsImage) (stack : ℤ → List (BitVec 8)) :
    ℕ → Sending → Option (List (List (BitVec 8)) × Sending)
  | 0, _ => none
  | fuel + 1, s => do
      match ← halVsRfregUpdate img (stack s.rfregid) s with
      | none => some ([], s)
      | some (s, payload) => do
          let (sections, s) ← updates img stack fuel s
          some (payload :: sections, s)

/-! ## Sums of words -/

@[simp] theorem wordSum_nil : wordSum [] = 0 := rfl

theorem wordSum_short {l : List (BitVec 8)} (h : l.length < 4) :
    wordSum l = BitVec.ofNat 32 (decode l) := by
  match l, h with
  | [], _ => rfl
  | [_], _ => rfl
  | [_, _], _ => rfl
  | [_, _, _], _ => rfl

/-- One word in front. -/
theorem wordSum_word {w : List (BitVec 8)} (l : List (BitVec 8)) (h : w.length = 4) :
    wordSum (w ++ l) = BitVec.ofNat 32 (decode w) + wordSum l := by
  match w, h with
  | [_, _, _, _], _ => rfl

/-- **Whole words in front.** -/
theorem wordSum_append {n : ℕ} {a : List (BitVec 8)} (b : List (BitVec 8)) (h : a.length = 4 * n) :
    wordSum (a ++ b) = wordSum a + wordSum b := by
  induction n generalizing a with
  | zero =>
    obtain rfl : a = [] := length_eq_zero_iff.mp h
    rw [nil_append, wordSum_nil, zero_add]
  | succ n ih =>
    have hw : (a.take 4).length = 4 := by rw [length_take]; omega
    have hrest : (a.drop 4).length = 4 * n := by rw [length_drop]; omega
    calc wordSum (a ++ b)
        = wordSum (a.take 4 ++ (a.drop 4 ++ b)) := by
          rw [← append_assoc, take_append_drop]
      _ = BitVec.ofNat 32 (decode (a.take 4)) +
            (wordSum (a.drop 4) + wordSum b) := by rw [wordSum_word _ hw, ih hrest]
      _ = wordSum (a.take 4 ++ a.drop 4) + wordSum b := by
          rw [wordSum_word _ hw, BitVec.add_assoc]
      _ = wordSum a + wordSum b := by rw [take_append_drop]

/-- How many bytes the last word lacks. -/
def lack (n : ℕ) : ℕ := (4 - n % 4) % 4

/-- **Padding that is not zero is in the sum.** -/
theorem wordSum_padded_ne {l : List (BitVec 8)} (h : l.length % 4 ≠ 0) :
    wordSum (l ++ List.replicate (lack l.length) 1) ≠ wordSum l := by
  obtain ⟨front, last, rfl, hfront, hlast⟩ : ∃ front last, l = front ++ last ∧
      front.length = 4 * (l.length / 4) ∧ last.length = l.length % 4 := by
    refine ⟨l.take (4 * (l.length / 4)), l.drop (4 * (l.length / 4)),
      (take_append_drop _ _).symm, ?_, ?_⟩
    · rw [length_take]
      omega
    · rw [length_drop]
      omega
  generalize hn : (front ++ last).length = n at hfront hlast h ⊢
  have hlack : lack n = 4 - last.length := by
    unfold lack
    omega
  have hlastPos : last.length ≠ 0 ∧ last.length < 4 := by omega
  set pad : List (BitVec 8) := List.replicate (lack n) 1 with hpad
  have hpadLen : pad.length = 4 - last.length := by rw [hpad, length_replicate, hlack]
  have hwhole : (last ++ pad).length = 4 := by
    rw [length_append]
    omega
  have hsum : wordSum (last ++ pad) = BitVec.ofNat 32 (decode (last ++ pad)) := by
    have hword := wordSum_word [] hwhole
    rwa [append_nil, wordSum_nil, add_zero] at hword
  rw [append_assoc, wordSum_append _ hfront, wordSum_append _ hfront, hsum,
    wordSum_short hlastPos.2]
  intro heq
  have hdec := (BitVec.add_right_inj _).mp heq
  have hlt : decode (last ++ pad) < 2 ^ 32 := by
    have := decode_lt (last ++ pad)
    rw [hwhole] at this
    exact this
  have hpadPos : 0 < decode pad := by
    obtain ⟨k, hk⟩ : ∃ k, lack n = k + 1 := ⟨lack n - 1, by omega⟩
    rw [hpad, hk, replicate_succ, decode_cons]
    exact Nat.lt_of_lt_of_le (by decide : 0 < (1 : BitVec 8).toNat) (Nat.le_add_right _ _)
  have happ := decode_append last pad
  have hpos : 0 < 256 ^ last.length * decode pad :=
    Nat.mul_pos (Nat.pow_pos (by decide)) hpadPos
  have hnat := congrArg BitVec.toNat hdec
  rw [BitVec.toNat_ofNat, BitVec.toNat_ofNat, Nat.mod_eq_of_lt hlt,
    Nat.mod_eq_of_lt (by omega)] at hnat
  omega

/-! ## A section -/

theorem checkSumLoop_eq {data : List (BitVec 8)} {turns i : ℕ} (h : i + 4 * turns ≤ data.length)
    (sum : BitVec 32) :
    checkSumLoop data turns i sum = some (sum + wordSum ((data.drop i).take (4 * turns))) := by
  induction turns generalizing i sum with
  | zero => rw [checkSumLoop, Nat.mul_zero, take_zero, wordSum_nil, add_zero]
  | succ turns ih =>
    have hword : ((data.drop i).take 4).length = 4 := by
      rw [length_take, length_drop]
      omega
    have hsplit : (data.drop i).take (4 * (turns + 1)) =
        (data.drop i).take 4 ++ (data.drop (i + 4)).take (4 * turns) := by
      rw [Nat.mul_succ, Nat.add_comm (4 * turns), take_add, drop_drop]
    rw [checkSumLoop, Block.load_of_le (by omega), bind_eq_bind, bind_some,
      ih (by omega), hsplit, wordSum_word _ hword, add_assoc]

/-- **Registers in an image**: so many bytes in its binary. -/
structure VsImage.Holds (img : VsImage) (image : List (BitVec 8)) : Prop where
  size : img.rfregSize = image.length
  small : image.length ≤ regBufferSize
  bytes : ∃ front back, img.binary = front ++ image ++ back ∧ front.length = img.rfreg

/-- What a call finds on the stack behind a section of so many bytes. -/
def padding (stack : List (BitVec 8)) (n : ℕ) : List (BitVec 8) :=
  (stack.drop (n + 1)).take (lack n)

variable {img : VsImage} {image : List (BitVec 8)}

variable {stack : List (BitVec 8)}

/-- **A section is sent.** The word that it leaves unfinished is finished by the
stack. -/
theorem halVsRfregUpdate_eq {k n : ℕ} (h : img.Holds image)
    (hstack : stack.length = rfregSectionSize + 1) (hk : k * rfregSectionSize < image.length)
    (hn : n = min rfregSectionSize (image.length - k * rfregSectionSize)) (c : BitVec 32) :
    halVsRfregUpdate img stack ⟨k, c⟩ = some (some
      (⟨k + 1, c + wordSum ((image.drop (k * rfregSectionSize)).take n ++ padding stack n)⟩,
        BitVec.ofNat 8 k :: (image.drop (k * rfregSectionSize)).take n)) := by
  obtain ⟨front, back, hbinary, hfront⟩ := h.bytes
  have hsmall := h.small
  unfold rfregSectionSize at hstack hk hn ⊢
  unfold regBufferSize at hsmall
  set bytes := (image.drop (k * 252)).take n with hbytes
  have hlen : bytes.length = n := by
    rw [hbytes, length_take, length_drop]
    omega
  have hnext : toInt ((k : ℤ) * (252 : ℕ)) = (k * 252 : ℕ) := by
    rw [toInt_of_lt (by omega) (by omega)]
    rfl
  have hleft : toInt ((image.length : ℤ) - (k * 252 : ℕ)) = (image.length - k * 252 : ℕ) := by
    rw [toInt_of_lt (by omega) (by omega)]
    omega
  have hsize : (if ((image.length - k * 252 : ℕ) : ℤ) < (252 : ℕ) then
      ((image.length - k * 252 : ℕ) : ℤ).toNat else 252) = n := by
    split <;> omega
  have hload : Block.load img.binary (img.rfreg + k * 252) n = some bytes := by
    rw [Block.load_of_le (by rw [hbinary, length_append, length_append]; omega), hbinary, ← hfront,
      append_assoc, ← drop_drop, drop_left, drop_append_of_le_length (by omega),
      take_append_of_le_length (by rw [length_drop]; omega)]
  obtain ⟨x, rest, rfl⟩ := exists_cons_of_length_eq_add_one hstack
  have hrest : rest.length = 252 := by
    rw [length_cons] at hstack
    omega
  have hstore : Block.store (x :: rest) 1 bytes = some (x :: (bytes ++ rest.drop n)) := by
    have hbehind := Block.store_behind (p := [x]) (by omega : bytes.length ≤ rest.length)
    rw [hlen] at hbehind
    simpa using hbehind
  have hpad : padding (x :: rest) n = (rest.drop n).take (lack n) := by
    rw [padding, drop_succ_cons]
  have hturns : 4 * ((n + 3) / 4) = n + lack n := by
    unfold lack
    omega
  have hwords : ((x :: (bytes ++ rest.drop n)).drop 1).take (4 * ((n + 3) / 4)) =
      bytes ++ padding (x :: rest) n := by
    rw [hturns, drop_one, tail_cons, take_append, hlen,
      take_of_length_le (by omega), Nat.add_sub_cancel_left, hpad]
  have hroom : 1 + 4 * ((n + 3) / 4) ≤ (x :: (bytes ++ rest.drop n)).length := by
    rw [length_cons, length_append, length_drop]
    unfold lack at hturns
    omega
  have hsum := checkSumLoop_eq hroom c
  rw [hwords] at hsum
  have hput : ∀ id, Block.put (x :: (bytes ++ rest.drop n)) 0 id =
      some (id :: (bytes ++ rest.drop n)) := fun id =>
    Block.put_at (p := []) rfl
  have hpayload : ∀ id, Block.load (id :: (bytes ++ rest.drop n)) 0 (n + 1) =
      some (id :: bytes) := by
    intro id
    rw [Block.load_of_le (by rw [length_cons, length_append]; omega), drop_zero, take_succ_cons,
      take_append_of_le_length (by omega), take_of_length_le (by omega)]
  unfold halVsRfregUpdate
  unfold rfregSectionSize
  dsimp only
  rw [hnext, h.size, if_neg (by omega), hleft, hsize, Int.toNat_natCast, hload]
  simp only [bind_eq_bind, bind_some, hstore, hsum, hput, hpayload]
  rfl

/-- Behind the last section there is none. -/
theorem halVsRfregUpdate_end (stack : List (BitVec 8)) {k : ℕ} (h : img.Holds image)
    (hk : image.length ≤ k * rfregSectionSize) (hsmall : k * rfregSectionSize < 2 ^ 31)
    (c : BitVec 32) :
    halVsRfregUpdate img stack ⟨k, c⟩ = some none := by
  have hnext : toInt ((k : ℤ) * rfregSectionSize) = (k * rfregSectionSize : ℕ) := by
    rw [toInt_of_lt (by omega) (by omega)]
    rfl
  unfold halVsRfregUpdate
  dsimp only
  rw [hnext, h.size, if_pos (by omega)]

theorem halUpdateSleepTimer_info (r : HalRun) : (halUpdateSleepTimer r).2.info = r.info := by
  change (ite _ _ _ : HalM Unit) r |>.2.info = r.info
  split
  · rfl
  · split <;> rfl

theorem halVsNciSend_vs (oid : BitVec 8) (data : List (BitVec 8)) (r : HalRun) :
    (halVsNciSend oid data r).2.info.vs = r.info.vs := by
  change (halUpdateSleepTimer r).2.info.vs = r.info.vs
  rw [halUpdateSleepTimer_info]

/-- **The step of the task is this call**, where the sections leave no word unfinished. -/
theorem halVsRfregUpdate_task {r : HalRun} (h : img.Holds r.info.vs.rfreg)
    (hstack : stack.length = rfregSectionSize + 1) (hwords : 4 ∣ r.info.vs.rfreg.length)
    (hsmall : r.info.vs.rfregid * rfregSectionSize < 2 ^ 31) :
    halVsRfregUpdate img stack ⟨r.info.vs.rfregid, r.info.vs.checkSum⟩ =
      some (if (Nfc.halVsRfregUpdate r).1 then
          some (⟨(Nfc.halVsRfregUpdate r).2.info.vs.rfregid,
              (Nfc.halVsRfregUpdate r).2.info.vs.checkSum⟩,
            BitVec.ofNat 8 r.info.vs.rfregid ::
              (r.info.vs.rfreg.drop (r.info.vs.rfregid * rfregSectionSize)).take rfregSectionSize)
        else none) := by
  set k := r.info.vs.rfregid with hk
  set left := r.info.vs.rfreg.drop (k * rfregSectionSize) with hleft
  have hlen : left.length = r.info.vs.rfreg.length - k * rfregSectionSize := length_drop
  by_cases hend : r.info.vs.rfreg.length ≤ k * rfregSectionSize
  · have hstep : Nfc.halVsRfregUpdate r = (false, r) := by
      change (ite _ _ _ : HalM Bool) r = (false, r)
      rw [if_pos hend]
      rfl
    rw [halVsRfregUpdate_end stack h hend hsmall, hstep]
    rfl
  · have hstep : (Nfc.halVsRfregUpdate r).1 = true ∧ (Nfc.halVsRfregUpdate r).2.info.vs =
        { r.info.vs with
          checkSum := r.info.vs.checkSum + wordSum (left.take rfregSectionSize)
          rfregid := k + 1 } := by
      change ((ite _ _ _ : HalM Bool) r).1 = true ∧ ((ite _ _ _ : HalM Bool) r).2.info.vs = _
      rw [if_neg hend]
      exact ⟨rfl, halVsNciSend_vs _ _ _⟩
    have hwhole : lack (min rfregSectionSize left.length) = 0 := by
      unfold lack rfregSectionSize at *
      omega
    rw [halVsRfregUpdate_eq h hstack (Nat.lt_of_not_le hend) rfl, ← hlen, padding, hwhole,
      take_zero, append_nil, ← take_eq_take_min, hstep.1, hstep.2]
    rfl

/-! ## A run -/

/-- What the calls from a section on have sent. -/
structure Sends (stack : ℤ → List (BitVec 8)) (rest : List (BitVec 8)) (start : Sending)
    (sections : List (List (BitVec 8))) (last : Sending) : Prop where
  ids : sections.map (fun payload => payload.head?.map BitVec.toNat) =
    (List.range' start.rfregid.toNat sections.length).map some
  data : (sections.map List.tail).flatten = rest
  checkSum : ∃ id n, n + 1 + lack rest.length ≤ rfregSectionSize + 1 ∧
    last.checkSum =
      start.checkSum + wordSum (rest ++ ((stack id).drop (n + 1)).take (lack rest.length))

section Run

variable {img : VsImage} {image : List (BitVec 8)} {stack : ℤ → List (BitVec 8)}

theorem updates_end (h : img.Holds image) {k : ℕ} (hk : image.length ≤ k * rfregSectionSize)
    (hsmall : k * rfregSectionSize < 2 ^ 31) (fuel : ℕ) (c : BitVec 32) :
    updates img stack (fuel + 1) ⟨k, c⟩ = some ([], ⟨k, c⟩) := by
  rw [updates, halVsRfregUpdate_end (stack k) h hk hsmall]
  rfl

theorem updates_succ (h : img.Holds image)
    (hstack : ∀ id, (stack id).length = rfregSectionSize + 1) {k n fuel : ℕ}
    (hk : k * rfregSectionSize < image.length)
    (hn : n = min rfregSectionSize (image.length - k * rfregSectionSize)) {c : BitVec 32}
    {sections : List (List (BitVec 8))} {s : Sending}
    (hrest : updates img stack fuel ⟨(k + 1 : ℕ),
      c + wordSum ((image.drop (k * rfregSectionSize)).take n ++ padding (stack k) n)⟩ =
        some (sections, s)) :
    updates img stack (fuel + 1) ⟨k, c⟩ =
      some ((BitVec.ofNat 8 k :: (image.drop (k * rfregSectionSize)).take n) :: sections, s) := by
  rw [Nat.cast_succ] at hrest
  rw [updates, halVsRfregUpdate_eq h (hstack k) hk hn c]
  simp only [bind_eq_bind, bind_some, hrest]

/-- More fuel changes nothing. -/
theorem updates_unique {fuel fuel' : ℕ} {s : Sending} {r r' : List (List (BitVec 8)) × Sending}
    (h : updates img stack fuel s = some r) (h' : updates img stack fuel' s = some r') :
    r = r' := by
  induction fuel generalizing fuel' s r r' with
  | zero => rw [updates] at h; contradiction
  | succ fuel ih =>
    rcases fuel' with _ | fuel'
    · rw [updates] at h'
      contradiction
    · rw [updates] at h h'
      obtain ⟨next, hnext, h⟩ := bind_eq_some_iff.mp h
      rw [hnext, bind_eq_bind, bind_some] at h'
      rcases next with _ | ⟨s', payload⟩
      · exact some.inj (h.symm.trans h')
      · obtain ⟨a, ha, hr⟩ := bind_eq_some_iff.mp h
        obtain ⟨a', ha', hr'⟩ := bind_eq_some_iff.mp h'
        obtain rfl := ih ha ha'
        exact some.inj (hr.symm.trans hr')

/-- The last section. -/
theorem updates_last (h : img.Holds image) (hstack : ∀ id, (stack id).length = rfregSectionSize + 1)
    {k : ℕ} (hk : k * rfregSectionSize ≤ image.length)
    (hlast : image.length - k * rfregSectionSize < rfregSectionSize) (c : BitVec 32) :
    ∃ fuel sections s, updates img stack fuel ⟨k, c⟩ = some (sections, s) ∧
      Sends stack (image.drop (k * rfregSectionSize)) ⟨k, c⟩ sections s := by
  have hsmall := h.small
  unfold regBufferSize at hsmall
  set rest := image.drop (k * rfregSectionSize) with hrest
  have hlen : rest.length = image.length - k * rfregSectionSize := by rw [hrest, length_drop]
  by_cases hend : image.length = k * rfregSectionSize
  · have hnil : rest = [] := eq_nil_of_length_eq_zero (by omega)
    refine ⟨1, [], ⟨k, c⟩, updates_end h hend.le (by omega) 0 c, rfl, hnil.symm, 0, 0, ?_, ?_⟩
    · rw [hnil]
      decide
    · rw [hnil]
      exact (add_zero c).symm
  · have htake : rest.take rest.length = rest := take_length
    have hsecond : image.length ≤ (k + 1) * rfregSectionSize := by rw [Nat.succ_mul]; omega
    have hword : (k + 1) * rfregSectionSize < 2 ^ 31 := by
      unfold rfregSectionSize at hlast hk hlen ⊢
      omega
    have hrun := updates_succ h hstack (by omega) (by rw [hlen, Nat.min_eq_right (by omega)])
      (updates_end h hsecond hword 0
        (c + wordSum (rest.take rest.length ++ padding (stack k) rest.length)))
    rw [← hrest, htake] at hrun
    refine ⟨2, _, _, hrun, ?_, ?_, k, rest.length, ?_, rfl⟩
    · have hbyte : k < 256 := by
        unfold rfregSectionSize at hk
        omega
      show [some (BitVec.ofNat 8 k).toNat] = [some k]
      rw [BitVec.toNat_ofNat, Nat.mod_eq_of_lt hbyte]
    · exact append_nil rest
    · unfold lack rfregSectionSize at *
      omega

/-- **The calls send the image**, from a section on. By induction on the whole
sections that are left, which leave no word unfinished. -/
theorem updates_sends (h : img.Holds image)
    (hstack : ∀ id, (stack id).length = rfregSectionSize + 1) {m k : ℕ}
    (hk : k * rfregSectionSize ≤ image.length)
    (hm : (image.length - k * rfregSectionSize) / rfregSectionSize = m) (c : BitVec 32) :
    ∃ fuel sections s, updates img stack fuel ⟨k, c⟩ = some (sections, s) ∧
      Sends stack (image.drop (k * rfregSectionSize)) ⟨k, c⟩ sections s := by
  have hsmall := h.small
  unfold regBufferSize at hsmall
  induction m generalizing k c with
  | zero =>
    refine updates_last h hstack hk ?_ c
    unfold rfregSectionSize at *
    omega
  | succ m ih =>
    have hfull : rfregSectionSize ≤ image.length - k * rfregSectionSize := by
      unfold rfregSectionSize at *
      omega
    have hpos : 0 < rfregSectionSize := by decide
    have hmul : (k + 1) * rfregSectionSize = k * rfregSectionSize + rfregSectionSize :=
      Nat.succ_mul ..
    have hm' : (image.length - (k + 1) * rfregSectionSize) / rfregSectionSize = m := by
      have hdiv := Nat.div_eq_sub_div hpos hfull
      rw [hmul, Nat.sub_add_eq]
      omega
    set rest := image.drop (k * rfregSectionSize) with hrest
    have hlen : rest.length = image.length - k * rfregSectionSize := by rw [hrest, length_drop]
    have hpad : padding (stack k) rfregSectionSize = [] := by
      rw [padding, (by decide : lack rfregSectionSize = 0), take_zero]
    have hwhole : (rest.take rfregSectionSize).length = 4 * 63 := by
      rw [length_take, Nat.min_eq_left (by omega)]
      rfl
    have hnext : image.drop ((k + 1) * rfregSectionSize) = rest.drop rfregSectionSize := by
      rw [hmul, hrest, drop_drop]
    have hsplit : rest.take rfregSectionSize ++ rest.drop rfregSectionSize = rest :=
      take_append_drop _ _
    obtain ⟨fuel, sections, s, hrun, hids, hdata, id, n, hn, hsum⟩ :=
      ih (k := k + 1) (by omega) hm'
        (c + wordSum (rest.take rfregSectionSize ++ padding (stack k) rfregSectionSize))
    have hlack : lack (rest.drop rfregSectionSize).length = lack rest.length := by
      rw [length_drop]
      unfold lack rfregSectionSize at *
      omega
    rw [hnext] at hdata hn hsum
    rw [hlack] at hn hsum
    refine ⟨fuel + 1, _, _, updates_succ h hstack (by omega) (by omega) hrun, ?_, ?_, id, n, hn, ?_⟩
    · have hbyte : k < 256 := by
        unfold rfregSectionSize at hfull
        omega
      rw [Int.toNat_natCast] at hids
      rw [map_cons, hids, length_cons, range'_succ, Int.toNat_natCast, map_cons]
      show some (BitVec.ofNat 8 k).toNat :: _ = _
      rw [BitVec.toNat_ofNat, Nat.mod_eq_of_lt hbyte]
    · rw [map_cons, flatten_cons, hdata]
      exact hsplit
    · show s.checkSum = c + wordSum (rest ++ _)
      rw [hsum, hpad, append_nil, add_assoc, ← wordSum_append _ hwhole, ← append_assoc, hsplit]

end Run

/-! ## What is loaded -/

theorem fileSize_range (file : List (BitVec 8)) :
    -2 ^ 31 ≤ fileSize file ∧ fileSize file < 2 ^ 31 ∧ fileSize file ≤ file.length := by
  unfold fileSize toInt
  split
  · omega
  · rw [Int.bmod_def]
    split <;> omega

theorem le_length_of_fileSize_neg {file : List (BitVec 8)} (h : fileSize file < 0) :
    2 ^ 31 ≤ file.length := by
  unfold fileSize toInt at h
  split at h
  · omega
  · rw [Int.bmod_def] at h
    split at h <;> omega

/-- **A file that the buffer does not hold** is written over its end. -/
theorem loadRfBinary_eq_none {buffer file : List (BitVec 8)} (oldField : Bool)
    (hbuffer : buffer.length = propHeaderSize + regBufferSize)
    (h : fileSize file < 0 ∨ (regBufferSize : ℤ) < fileSize file) :
    loadRfBinary buffer file oldField = none := by
  obtain ⟨hlow, hhigh, hle⟩ := fileSize_range file
  have hlong : regBufferSize < (file.take (fileSize file % 2 ^ 64).toNat).length := by
    rw [length_take, Nat.lt_min]
    unfold regBufferSize at h ⊢
    rcases h with hneg | hover
    · have := le_length_of_fileSize_neg hneg
      omega
    · omega
  unfold loadRfBinary nfcHalRfGetReg
  dsimp only
  rw [Block.store_eq_none (by omega)]
  rfl

/-- The code goes into the last four bytes of registers. -/
theorem setIdToRfReg_code {header : List (BitVec 8)} (hheader : header.length = propHeaderSize)
    (image rest : List (BitVec 8))
    (id : Option (List (BitVec 8))) (hid : ∀ code ∈ id, code.length = imageCodeSize) :
    ∃ image', setIdToRfReg (header ++ image ++ rest) image.length id =
        some (header ++ image' ++ rest) ∧
      image'.length = image.length ∧
      image'.take (image.length - 4) = image.take (image.length - 4) := by
  rcases id with _ | code
  · exact ⟨image, rfl, rfl, rfl⟩
  · by_cases hsmall : (image.length : ℤ) < rfregMetaDataLength
    · exact ⟨image, if_pos hsmall, rfl, rfl⟩
    · have hcode := hid code rfl
      have hlarge : 16 ≤ image.length := by
        unfold rfregMetaDataLength at hsmall
        omega
      unfold imageCodeSize at hcode
      set front := image.take (image.length - 4) with hfront
      have hlen : front.length = image.length - 4 := by
        rw [hfront, length_take]
        omega
      refine ⟨front ++ code ++ image.drop (image.length - 1), ?_, ?_, ?_⟩
      · have hat : propHeaderSize + ((image.length : ℤ).toNat - rfregMetaDataLength) +
            rfregMetaTargetInfor = (header ++ front).length := by
          rw [length_append, hlen, hheader]
          unfold rfregMetaDataLength rfregMetaTargetInfor
          omega
        have hwhole : header ++ image ++ rest =
            (header ++ front) ++ (image.drop (image.length - 4) ++ rest) := by
          have hparts : image = front ++ image.drop (image.length - 4) :=
            (take_append_drop _ _).symm
          conv_lhs => rw [hparts]
          simp only [append_assoc]
        have hfit : code.length ≤ (image.drop (image.length - 4) ++ rest).length := by
          rw [length_append, length_drop]
          omega
        have hstore := Block.store_behind (p := header ++ front) hfit
        have hdrop : (image.drop (image.length - 4) ++ rest).drop code.length =
            image.drop (image.length - 1) ++ rest := by
          rw [drop_append_of_le_length (by rw [length_drop]; omega), drop_drop, hcode]
          congr 2
          omega
        unfold setIdToRfReg
        dsimp only
        rw [if_neg hsmall, hat, hwhole, take_of_length_le (by rw [hcode]; decide), hstore, hdrop]
        simp only [append_assoc]
      · rw [length_append, length_append, hlen, length_drop]
        omega
      · rw [append_assoc, ← hlen, take_left]

/-- **A file that it does** is behind its own size. -/
theorem loadRfBinary_eq {buffer file : List (BitVec 8)} (oldField : Bool) {n : ℕ}
    (hbuffer : buffer.length = propHeaderSize + regBufferSize) (hn : fileSize file = n)
    (hfit : n ≤ regBufferSize) :
    ∃ image rest, loadRfBinary buffer file oldField =
        some ((n : ℤ), 4 :: encode 4 n ++ image ++ rest) ∧
      image.length = n ∧ image.take (n - 4) = file.take (n - 4) ∧
      rest.length = regBufferSize - n := by
  obtain ⟨-, -, hle⟩ := fileSize_range file
  unfold propHeaderSize regBufferSize at hbuffer
  unfold regBufferSize at hfit
  set bytes := file.take n with hbytes
  have hlen : bytes.length = n := by
    rw [hbytes, length_take]
    omega
  have hword : ((n : ℤ) % 2 ^ 64).toNat = n := by omega
  obtain ⟨x, front, room, rfl, hfront⟩ : ∃ x front room,
      buffer = x :: front ++ room ∧ front.length = 4 := by
    match buffer, hbuffer with
    | x :: x1 :: x2 :: x3 :: x4 :: room, _ => exact ⟨x, [x1, x2, x3, x4], room, rfl, rfl⟩
  have hheader : (x :: front).length = propHeaderSize := by
    rw [length_cons, hfront]
    rfl
  have hroom : room.length = 4096 := by
    rw [length_append, hheader] at hbuffer
    exact Nat.add_left_cancel hbuffer
  set rest := room.drop n with hrest
  have hfill : Block.store (x :: front ++ room) propHeaderSize bytes =
      some (x :: front ++ bytes ++ rest) := by
    have hbehind := Block.store_behind (p := x :: front) (by omega : bytes.length ≤ room.length)
    rwa [hheader, hlen] at hbehind
  have hget : nfcHalRfGetReg (x :: front ++ room) file =
      some ((n : ℤ), x :: front ++ bytes ++ rest) := by
    unfold nfcHalRfGetReg
    dsimp only
    rw [hn, hword, ← hbytes, hfill, bind_eq_bind, bind_some, if_neg (not_not.mpr hlen)]
    rfl
  have hsize : Block.store (x :: front ++ bytes ++ rest) 1 (encode 4 n) =
      some (x :: encode 4 n ++ bytes ++ rest) := by
    have hfits : (encode 4 n).length ≤ (front ++ (bytes ++ rest)).length := by
      rw [length_encode, length_append]
      omega
    have hbehind := Block.store_behind (p := [x]) hfits
    rw [length_encode, drop_left' hfront] at hbehind
    simpa using hbehind
  have hput : Block.put (x :: encode 4 n ++ bytes ++ rest) 0 (4 : BitVec 8) =
      some (4 :: encode 4 n ++ bytes ++ rest) := Block.put_at (p := []) rfl
  have hheader' : ((4 : BitVec 8) :: encode 4 n).length = propHeaderSize := by
    rw [length_cons, length_encode]
    rfl
  obtain ⟨image, hset, himage, htake⟩ := setIdToRfReg_code hheader' bytes rest
    (if oldField then some defaultCode else none) (by cases oldField <;> decide)
  rw [hlen] at hset himage htake
  refine ⟨image, rest, ?_, himage, ?_, ?_⟩
  · unfold loadRfBinary
    rw [hget]
    simp only [bind_eq_bind, bind_some]
    rw [if_neg (Int.not_lt.mpr (Int.natCast_nonneg n)), toUInt_of_lt (by omega), hsize]
    simp only [bind_some, hput, hset]
  · rw [htake, hbytes, take_take, Nat.min_eq_left (by omega)]
  · rw [hrest, length_drop, hroom]
    rfl

section Loaded

variable {image rest : List (BitVec 8)} {n : ℕ}

/-- What has been loaded: registers behind their size. -/
theorem load_registers (himage : image.length = n) {i m : ℕ} (h : i + m ≤ n) :
    Block.load (4 :: encode 4 n ++ image ++ rest) (propHeaderSize + i) m =
      some ((image.drop i).take m) := by
  have hheader : ((4 : BitVec 8) :: encode 4 n).length = propHeaderSize := by
    rw [length_cons, length_encode]
    rfl
  rw [Block.load_of_le (by rw [length_append, length_append, hheader]; omega), append_assoc,
    ← drop_drop, drop_left' hheader, drop_append_of_le_length (by omega),
    take_append_of_le_length (by rw [length_drop]; omega)]

/-- **The version in front of the registers**: a length below sixteen wraps. -/
theorem getImageVersion_eq_none (himage : image.length = n)
    (hrest : rest.length = regBufferSize - n) (hfit : n ≤ regBufferSize) (h : n < 16) :
    getImageVersion (4 :: encode 4 n ++ image ++ rest) n = none := by
  have hwrap : 2 ^ 32 - 16 ≤ toUInt ((n : ℤ) - 16) := by
    unfold toUInt
    omega
  unfold getImageVersion
  rw [Block.load_eq_none]
  rw [length_append, length_append, length_cons, length_encode]
  unfold regBufferSize at hrest hfit
  omega

theorem getImageVersion_eq (himage : image.length = n) (hfit : n ≤ regBufferSize) (h : 16 ≤ n) :
    getImageVersion (4 :: encode 4 n ++ image ++ rest) n =
      some ((image.drop (n - 11)).take 5) := by
  unfold regBufferSize at hfit
  have hplace : toUInt ((n : ℤ) - 16) = n - 16 := by
    unfold toUInt
    omega
  unfold getImageVersion versionLenRf
  rw [hplace, add_assoc, (by omega : n - 16 + 5 = n - 11), load_registers himage (by omega)]

/-- The size in front is read back, and the versions are the last sixteen bytes. -/
theorem vsImageOf_loaded (bl : FwBlInfo) (hfit : n ≤ regBufferSize) :
    vsImageOf bl (4 :: encode 4 n ++ image ++ rest) =
      (nfcRfGetverFromImage (4 :: encode 4 n ++ image ++ rest) 5 n).map fun value =>
        { binary := 4 :: encode 4 n ++ image ++ rest
          rfreg := 5
          rfregSize := n
          rfregImgVersion := slice value 5 5 ++ slice value 12 3
          rfregImgNumberVersion :=
            if bl.fromN74 then
              some [value.getD 0 0 >>> 4, value.getD 0 0 &&& 0x0F, value.getD 1 0, value.getD 11 0]
            else none } := by
  unfold regBufferSize at hfit
  have hstarts : Block.load ((4 : BitVec 8) :: encode 4 n ++ image ++ rest) 0 1 =
      some [4] :=
    Block.load_of_le (by rw [length_append, length_append, length_cons]; omega)
  have hsize : Block.load ((4 : BitVec 8) :: encode 4 n ++ image ++ rest) 1 4 =
      some (encode 4 n) := by
    have hlen := length_encode 4 n
    rw [Block.load_of_le (by rw [length_append, length_append, length_cons]; omega),
      append_assoc, cons_append, drop_one, tail_cons, take_left' hlen]
  have hint : toInt (decode (encode 4 n)) = n := by
    rw [decode_encode_of_lt (by omega), toInt_of_lt (by omega) (by omega)]
  unfold vsImageOf
  rw [hstarts, bind_eq_bind, bind_some]
  dsimp only
  rw [(by decide : decode [(4 : BitVec 8)] = 4), if_neg (by omega), hsize,
    bind_some, hint, map_eq_bind]
  rfl

theorem vsImageOf_eq_none (bl : FwBlInfo) (hfit : n ≤ regBufferSize) (h : n < 11) :
    vsImageOf bl (4 :: encode 4 n ++ image ++ rest) = none := by
  rw [vsImageOf_loaded bl hfit, nfcRfGetverFromImage, if_pos (by omega)]
  rfl

variable (rest) in
theorem vsImageOf_eq (bl : FwBlInfo) (himage : image.length = n) (hfit : n ≤ regBufferSize)
    (h : 11 ≤ n) :
    ∃ img, vsImageOf bl (4 :: encode 4 n ++ image ++ rest) = some img ∧
      img.Holds image := by
  have hplace : ((5 : ℕ) + ((n : ℤ) - 16)).toNat + 16 = n + 5 := by omega
  have hlen := length_encode 4 n
  rw [vsImageOf_loaded bl hfit, nfcRfGetverFromImage, if_neg (by omega), Block.load_of_le (by
    rw [hplace, length_append, length_append, length_cons]
    omega)]
  exact ⟨_, rfl, by rw [himage], by omega, 4 :: encode 4 n, rest, rfl, by
    rw [length_cons, hlen]⟩

end Loaded

/-! ## What is sent -/

/-- The registers of an image. -/
def VsImage.registers (img : VsImage) : List (BitVec 8) :=
  (img.binary.drop img.rfreg).take img.rfregSize.toNat

theorem VsImage.Holds.registers_eq (h : img.Holds image) :
    img.registers = image := by
  obtain ⟨front, back, hbinary, hfront⟩ := h.bytes
  rw [VsImage.registers, h.size, hbinary, append_assoc, drop_left' hfront,
    Int.toNat_natCast, take_left]

/-- What is in memory before it is written: the buffer of the loader, and the
array of each call on the stack. -/
structure Unwritten where
  buffer : List (BitVec 8)
  length_buffer : buffer.length = propHeaderSize + regBufferSize
  stack : ℤ → List (BitVec 8)
  length_stack : ∀ id, (stack id).length = rfregSectionSize + 1

/-- **The registers are sent exactly**: the calls end, the sections count up
from zero and make up the registers, and the sum is that of their words. -/
def VsImage.SentExactly (img : VsImage) (stack : ℤ → List (BitVec 8)) : Prop :=
  ∃ fuel sections s, updates img stack fuel ⟨0, 0⟩ = some (sections, s) ∧
    sections.map (fun payload => payload.head?.map BitVec.toNat) =
      (List.range sections.length).map some ∧
    (sections.map List.tail).flatten = img.registers ∧
    (img.registers.length : ℤ) = img.rfregSize ∧
    s.checkSum = wordSum img.registers

/-- **The file is sent**: no copy leaves its buffer, whatever is in memory, and
an image that is chosen is sent exactly. -/
def Works (ans : Answers) (bl : FwBlInfo) (file : List (BitVec 8)) : Prop :=
  ∀ mem : Unwritten, ∃ chosen, halVsGetRfImage ans bl mem.buffer file = some chosen ∧
    ∀ img ∈ chosen, img.SentExactly mem.stack

/-- The version in the file. -/
def fileVersion (file : List (BitVec 8)) : List (BitVec 8) :=
  (file.drop ((fileSize file).toNat - 11)).take versionLenRf

/-- **Whole words are sent exactly.** -/
theorem VsImage.Holds.sentExactly (h : img.Holds image) (hdvd : 4 ∣ image.length)
    {stack : ℤ → List (BitVec 8)} (hstack : ∀ id, (stack id).length = rfregSectionSize + 1) :
    img.SentExactly stack := by
  obtain ⟨fuel, sections, s, hrun, hids, hdata, id, n, -, hsum⟩ :=
    updates_sends (k := 0) h hstack (by omega) rfl 0
  rw [Nat.zero_mul, drop_zero] at hdata hsum
  have hlack : lack image.length = 0 := by
    unfold lack
    omega
  rw [hlack, take_zero, append_nil] at hsum
  refine ⟨fuel, sections, s, hrun, ?_, ?_, ?_, ?_⟩
  · rw [hids, range_eq_range']
    rfl
  · rw [hdata, h.registers_eq]
  · rw [h.registers_eq, h.size]
  · rw [hsum, h.registers_eq]
    exact zero_add _

/-- **The rest of a word is summed up too**: with a stack of ones the sum is
not that of the words. -/
theorem VsImage.Holds.not_sentExactly (h : img.Holds image) (hdvd : ¬ 4 ∣ image.length) :
    ¬ img.SentExactly fun _ => List.replicate (rfregSectionSize + 1) 1 := by
  rintro ⟨fuel', sections', s', hrun', -, -, -, hsum'⟩
  set stack : ℤ → List (BitVec 8) := fun _ => List.replicate (rfregSectionSize + 1) 1
  have hstack : ∀ id, (stack id).length = rfregSectionSize + 1 := fun _ => length_replicate
  obtain ⟨fuel, sections, s, hrun, -, -, id, n, hn, hsum⟩ :=
    updates_sends (k := 0) h hstack (by omega) rfl 0
  rw [Nat.zero_mul, drop_zero] at hn hsum
  obtain rfl : s = s' := congrArg Prod.snd (updates_unique hrun hrun')
  have hpad : ((List.replicate (rfregSectionSize + 1) (1 : BitVec 8)).drop (n + 1)).take
      (lack image.length) = List.replicate (lack image.length) 1 := by
    rw [drop_replicate, take_replicate, Nat.min_eq_left (by omega)]
  rw [h.registers_eq, hsum, hpad] at hsum'
  refine wordSum_padded_ne (l := image) (by omega) ?_
  rw [← hsum']
  exact (zero_add _).symm

/-- The least size of which the versions are in the binary. -/
def leastSize (force : Bool) : ℕ := if force then 11 else 16

/-- The registers are chosen. -/
def chosen (ans : Answers) (file : List (BitVec 8)) : Bool :=
  ans.force || updateWanted .rfReg ans.updateMode ans.chipRfVersion (fileVersion file)

section Choice

variable {ans : Answers} {file : List (BitVec 8)} {n : ℕ}

theorem halVsGetRfImage_short (bl : FwBlInfo) (mem : Unwritten) (hn : fileSize file = n)
    (hfit : n ≤ regBufferSize) (hshort : n < leastSize ans.force) :
    halVsGetRfImage ans bl mem.buffer file = none := by
  obtain ⟨image, rest, hload, himage, -, hrest⟩ :=
    loadRfBinary_eq ans.oldField mem.length_buffer hn hfit
  unfold halVsGetRfImage
  rw [hload, bind_eq_bind, bind_some]
  dsimp only
  rw [if_neg (Int.not_lt.mpr (Int.natCast_nonneg n))]
  unfold leastSize at hshort
  by_cases hforce : ans.force
  · rw [if_pos hforce] at hshort ⊢
    rw [vsImageOf_eq_none bl hfit hshort]
    rfl
  · rw [if_neg hforce] at hshort ⊢
    rw [getImageVersion_eq_none himage hrest hfit hshort]
    rfl

/-- A file that is long enough is chosen, or not, without a fault. -/
theorem halVsGetRfImage_long (bl : FwBlInfo) (mem : Unwritten) (hn : fileSize file = n)
    (hfit : n ≤ regBufferSize) (hlong : leastSize ans.force ≤ n) :
    if chosen ans file then
      ∃ img image, halVsGetRfImage ans bl mem.buffer file = some (some img) ∧
        image.length = n ∧ img.Holds image
    else halVsGetRfImage ans bl mem.buffer file = some none := by
  obtain ⟨image, rest, hload, himage, htake, -⟩ :=
    loadRfBinary_eq ans.oldField mem.length_buffer hn hfit
  have hleast : 11 ≤ leastSize ans.force := by
    unfold leastSize
    split <;> omega
  obtain ⟨img, himg, hholds⟩ := vsImageOf_eq rest bl himage hfit (by omega)
  unfold leastSize at hlong
  unfold halVsGetRfImage chosen
  rw [hload, bind_eq_bind, bind_some]
  dsimp only
  rw [if_neg (Int.not_lt.mpr (Int.natCast_nonneg n))]
  by_cases hforce : ans.force
  · rw [if_pos (by rw [hforce]; rfl), if_pos hforce, himg]
    exact ⟨img, image, rfl, himage, hholds⟩
  · rw [if_neg hforce] at hlong ⊢
    -- The version lies in front of the code.
    have hcut : ∀ l : List (BitVec 8),
        (l.drop (n - 11)).take 5 = ((l.take (n - 4)).drop (n - 11)).take 5 := by
      intro l
      rw [drop_take, take_take, Nat.min_eq_left (by omega)]
    have hversion : (image.drop (n - 11)).take 5 = fileVersion file := by
      rw [hcut, htake, ← hcut, fileVersion, hn, Int.toNat_natCast]
      rfl
    rw [getImageVersion_eq himage hfit hlong, hversion, himg, Bool.eq_false_iff.mpr hforce,
      Bool.false_or]
    split
    · rename_i hwanted
      exact ⟨img, image, if_pos hwanted, himage, hholds⟩
    · rename_i hkept
      exact if_neg hkept

end Choice

/-- Ones everywhere. -/
def Unwritten.ones : Unwritten where
  buffer := List.replicate (propHeaderSize + regBufferSize) 1
  length_buffer := length_replicate
  stack _ := List.replicate (rfregSectionSize + 1) 1
  length_stack _ := length_replicate

/-- **The file is sent exactly when** it fits the buffer, its last bytes with
the versions are in the binary, and registers that are chosen are whole words. -/
theorem works_iff (ans : Answers) (bl : FwBlInfo) (file : List (BitVec 8)) :
    Works ans bl file ↔
      leastSize ans.force ≤ fileSize file ∧ fileSize file ≤ regBufferSize ∧
        (chosen ans file → 4 ∣ fileSize file) := by
  by_cases hfit : 0 ≤ fileSize file ∧ fileSize file ≤ regBufferSize
  · obtain ⟨n, hn⟩ := Int.eq_ofNat_of_zero_le hfit.1
    have hfitN : n ≤ regBufferSize := by omega
    by_cases hlong : leastSize ans.force ≤ n
    · by_cases hchosen : chosen ans file
      · have hload := fun mem => halVsGetRfImage_long bl mem hn hfitN hlong
        simp only [if_pos hchosen] at hload
        constructor
        · intro hworks
          refine ⟨by omega, hfit.2, fun _ => ?_⟩
          obtain ⟨img, image, himg, himage, hholds⟩ := hload Unwritten.ones
          obtain ⟨found, hfound, hsent⟩ := hworks Unwritten.ones
          obtain rfl := some.inj (hfound.symm.trans himg)
          by_contra hdvd
          exact hholds.not_sentExactly (by omega) (hsent img rfl)
        · rintro ⟨-, -, hdvd⟩ mem
          obtain ⟨img, image, himg, himage, hholds⟩ := hload mem
          refine ⟨some img, himg, fun img' himg' => ?_⟩
          obtain rfl := some.inj himg'
          have := hdvd hchosen
          exact hholds.sentExactly (by omega) mem.length_stack
      · have hload := fun mem => halVsGetRfImage_long bl mem hn hfitN hlong
        simp only [if_neg hchosen] at hload
        refine ⟨fun _ => ⟨by omega, hfit.2, fun hc => absurd hc hchosen⟩, fun _ mem => ?_⟩
        exact ⟨none, hload mem, fun img himg => nomatch himg⟩
    · refine ⟨fun hworks => ?_, fun h => absurd h.1 (by omega)⟩
      obtain ⟨found, hfound, -⟩ := hworks Unwritten.ones
      rw [halVsGetRfImage_short bl Unwritten.ones hn hfitN (by omega)] at hfound
      contradiction
  · refine ⟨fun hworks => ?_, fun h => absurd h (by omega)⟩
    obtain ⟨found, hfound, -⟩ := hworks Unwritten.ones
    rw [halVsGetRfImage, loadRfBinary_eq_none _ Unwritten.ones.length_buffer (by omega)] at hfound
    contradiction

/-- **Not every file is sent exactly**: one of a byte more than the buffer is
written over its end. -/
theorem not_works : ∃ ans bl file, ¬ Works ans bl file := by
  refine ⟨⟨false, true, [], none⟩, ⟨0, [], 0, 0⟩, List.replicate 4097 0, fun hworks => ?_⟩
  obtain ⟨found, hfound, -⟩ := hworks Unwritten.ones
  have hsize : fileSize (List.replicate 4097 0) = 4097 := by
    rw [fileSize, length_replicate, if_neg (by omega), toInt_of_lt (by omega) (by omega)]
    rfl
  rw [halVsGetRfImage, loadRfBinary_eq_none _ Unwritten.ones.length_buffer
    (.inr (by rw [hsize]; decide))] at hfound
  contradiction

end ExynosVendor.Nfc.RfFile
