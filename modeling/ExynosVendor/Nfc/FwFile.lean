import ExynosVendor.Nfc.HalInfo

/-!
# The firmware file

`load_fw_binary` and `nfc_hal_get_update_image` of `hal_selectImage.cc`, and
`nfc_fw_get_image` of `hal_fw.cc`, which takes six numbers out of the file for
places in it. The length of the file does not come along, and the test of the
data's length is made of a product that has been cut to 32 bits before.

A read outside the file faults. `getImage_safe_iff` says when the places are in
the file, and `Accepted.loaded` that the download is then one of the image.
-/

namespace ExynosVendor.Nfc

/-! ## Versions -/

/-- `tIMAGE_TYPE`. -/
inductive ImageType where
  | fw
  | rfReg
  deriving DecidableEq

/-- `exception_version_index`: the customer key. -/
def exceptionVersionIndex (type : ImageType) (index : ℕ) : Prop := type = .fw ∧ index = 1

instance (type : ImageType) (index : ℕ) : Decidable (exceptionVersionIndex type index) :=
  inferInstanceAs (Decidable (_ ∧ _))

/-- `version_compare`. -/
def versionCompare (type : ImageType) (ver1 ver2 : List (BitVec 8)) : ℤ :=
  let indices := (List.range ver1.length).filter fun i => ¬ exceptionVersionIndex type i
  let differences := indices.map fun i => ((ver1.getD i 0).toNat - (ver2.getD i 0).toNat : ℤ)
  (differences.find? (· ≠ 0)).getD 0

/-- `check_update`, behind the versions, with `CFG_UPDATE_MODE`. -/
def updateWanted (type : ImageType) (mode : Option ℤ) (verChip verImage : List (BitVec 8)) : Bool :=
  let updateMode := mode.getD 0
  if 2 ≤ updateMode then true
  else if updateMode = 0 then versionCompare type verChip verImage ≠ 0
  else versionCompare type verChip verImage < 0

namespace FwFile

/-- What is found outside. -/
structure Answers where
  /-- `malloc` of the binary. -/
  binaryAllocated : Bool
  /-- `fread` of it. -/
  readsWhole : Bool
  /-- `malloc` of the hash. -/
  hashAllocated : Bool
  /-- `chip_fw_version`. -/
  chipFwVersion : List (BitVec 8)
  /-- `CFG_UPDATE_MODE`. -/
  updateMode : Option ℤ
  sha1 : List (BitVec 8) → List (BitVec 8)
  sha256 : List (BitVec 8) → List (BitVec 8)

/-- Everything succeeds. -/
def Answers.plain : Answers where
  binaryAllocated := true
  readsWhole := true
  hashAllocated := true
  chipFwVersion := []
  updateMode := none
  sha1 _ := List.replicate 20 0
  sha256 _ := List.replicate 32 0

/-! ## The file -/

section Image

variable (ans : Answers)

/-- `load_fw_binary`. The length is an `int`. -/
def loadFwBinary (file : List (BitVec 8)) : Option (List (BitVec 8)) :=
  let binaryLength := toInt file.length
  if binaryLength ≤ 0 then none
  else if ans.binaryAllocated ∧ ans.readsWhole then some (file.take binaryLength.toNat)
  else none

def versionLenFw : ℕ := 3

/-- `get_image_version`. -/
def getImageVersion (binary : List (BitVec 8)) : Option (List (BitVec 8)) :=
  Block.load binary 0x10 versionLenFw

/-- `check_update`. -/
def checkUpdate (binary : List (BitVec 8)) : Option Bool := do
  let verImage ← getImageVersion binary
  some (updateWanted .fw ans.updateMode ans.chipFwVersion verImage)

/-- `nfc_hal_get_update_image`, with the binary that was loaded. Where there is
none it is looked at all the same when an update is forced. -/
def nfcHalGetUpdateImage (image : Option (List (BitVec 8))) (force : Bool) :
    Option (Option (List (BitVec 8))) :=
  match image, force with
  | none, true => none
  | none, false => some none
  | some binary, true => some (some binary)
  | some binary, false => do
      let update ← checkUpdate ans binary
      some (if update then some binary else none)

end Image

/-! ## The image -/

/-- The header of the file. -/
structure Header where
  releaseVer : List (BitVec 8)
  fwVer : List (BitVec 8)
  sigAddr : ℕ
  sigSize : ℕ
  imgAddr : ℕ
  sectorNum : ℕ
  customSigAddr : ℕ
  customSigSize : ℕ
  deriving DecidableEq

namespace Header

/-- Its size. -/
def size : ℕ := 44

/-- A number of it. -/
def field (binary : List (BitVec 8)) (i : ℕ) : ℕ := LittleEndian.decode ((binary.drop i).take 4)

/-- The header in these bytes. -/
def of (binary : List (BitVec 8)) : Header where
  releaseVer := binary.take 12
  fwVer := (binary.drop 12).take 8
  sigAddr := field binary 20
  sigSize := field binary 24
  imgAddr := field binary 28
  sectorNum := field binary 32
  customSigAddr := field binary 36
  customSigSize := field binary 40

/-- `memcpy(&header, img->binary, sizeof(header))`. -/
def read (binary : List (BitVec 8)) : Option Header := (Block.load binary 0 size).map of

/-- The address of the signature for a key. -/
def signature (h : Header) (keyType : BitVec 8) : ℕ :=
  if keyType = 0 then h.sigAddr else h.customSigAddr

/-- And its size. -/
def signatureLen (h : Header) (keyType : BitVec 8) : ℕ :=
  if keyType = 0 then h.sigSize else h.customSigSize

theorem field_lt (binary : List (BitVec 8)) (i : ℕ) : field binary i < 2 ^ 32 := by
  have hlt := LittleEndian.decode_lt ((binary.drop i).take 4)
  have hlen : ((binary.drop i).take 4).length ≤ 4 := List.length_take_le _ _
  have hpow : 256 ^ ((binary.drop i).take 4).length ≤ 256 ^ 4 := Nat.pow_le_pow_right (by decide) hlen
  exact lt_of_lt_of_le hlt hpow

theorem signatureLen_lt (binary : List (BitVec 8)) (keyType : BitVec 8) :
    (of binary).signatureLen keyType < 2 ^ 32 := by
  unfold signatureLen
  split
  · exact field_lt binary 24
  · exact field_lt binary 40

/-- The header is read where the file has one. -/
theorem read_of_le {binary : List (BitVec 8)} (h : size ≤ binary.length) :
    read binary = some (of binary) := by
  have hload : Block.load binary 0 size = some (binary.take size) :=
    Block.load_of_le (by simpa using h)
  have hfield : ∀ i, i + 4 ≤ size → field (binary.take size) i = field binary i := by
    intro i hi
    rw [field, field, List.drop_take, List.take_take, Nat.min_eq_left (by omega)]
  have hof : of (binary.take size) = of binary := by
    simp only [of]
    congr 1
    · rw [List.take_take]
      rfl
    · rw [List.drop_take, List.take_take]
      rfl
    · exact hfield 20 (by decide)
    · exact hfield 24 (by decide)
    · exact hfield 28 (by decide)
    · exact hfield 32 (by decide)
    · exact hfield 36 (by decide)
    · exact hfield 40 (by decide)
  rw [read, hload, Option.map_some, hof]

theorem read_eq_none {binary : List (BitVec 8)} (h : binary.length < size) : read binary = none := by
  rw [read, Block.load_eq_none (by simpa using h)]
  rfl

end Header

/-- `tNFC_HAL_FW_IMAGE_INFO`, the pointers into the binary as offsets. -/
structure ImageInfo where
  binary : Option (List (BitVec 8))
  signature : ℕ
  signatureLen : ℕ
  hashCode : Option (List (BitVec 8))
  hashCodeLen : ℕ
  rawData : ℕ
  rawDataLen : ℕ
  cur : ℕ
  deriving DecidableEq

/-- `memset(img, 0, sizeof(tNFC_HAL_FW_IMAGE_INFO))`. -/
def ImageInfo.cleared : ImageInfo := ⟨none, 0, 0, none, 0, 0, 0, 0⟩

/-- So many bytes from a place in the binary. Nothing is read of none. -/
def region (binary : List (BitVec 8)) (i n : ℕ) : Option (List (BitVec 8)) :=
  if n = 0 then some [] else Block.load binary i n

/-- **A region of the file**: each of its bytes is a byte of the file. -/
def Within (binary : List (BitVec 8)) (i n : ℕ) : Prop := ∀ j, i ≤ j → j < i + n → j < binary.length

variable {binary : List (BitVec 8)}

theorem within_iff {i n : ℕ} :
    Within binary i n ↔ n = 0 ∨ i + n ≤ binary.length := by
  constructor
  · intro h
    rcases Nat.eq_zero_or_pos n with hn | hn
    · exact .inl hn
    · have := h (i + n - 1) (by omega) (by omega)
      exact .inr (by omega)
  · rintro (rfl | h) j hi hj
    · omega
    · omega

instance (binary : List (BitVec 8)) (i n : ℕ) : Decidable (Within binary i n) :=
  decidable_of_iff _ within_iff.symm

theorem region_of_within {i n : ℕ} (h : Within binary i n) :
    ∃ bytes, region binary i n = some bytes ∧ bytes.length = n := by
  unfold region
  split
  · exact ⟨[], rfl, by rw [List.length_nil]; omega⟩
  · rename_i hn
    have hle := (within_iff.mp h).resolve_left hn
    refine ⟨_, Block.load_of_le hle, ?_⟩
    rw [List.length_take, List.length_drop]
    omega

theorem region_eq_none {i n : ℕ} (h : ¬ Within binary i n) :
    region binary i n = none := by
  rw [within_iff, not_or] at h
  rw [region, if_neg h.1, Block.load_eq_none (by omega)]

section GetImage

variable (ans : Answers) (bl : FwBlInfo) (img : ImageInfo) (keyType : BitVec 8)

/-- `nfc_fw_get_image`, with a binary: what it returns, `image_info`, and
`image_ver` where it is set. -/
def imageOf (binary : List (BitVec 8)) : Option (Bool × ImageInfo × Option (List (BitVec 8))) := do
  let header ← Header.read binary
  let dataLen := toUInt (header.sectorNum * bl.sectorSize.toNat : ℕ)
  if 0xFFFFFFFF < dataLen then some (false, .cleared, none)
  else if ans.hashAllocated then do
    let data ← region binary header.imgAddr dataLen
    some (true,
      { img with
        binary := some binary
        signature := header.signature keyType
        signatureLen := header.signatureLen keyType
        hashCode := some (if bl.fromN74 then ans.sha256 data else ans.sha1 data)
        hashCodeLen := if bl.fromN74 then 32 else 20
        rawData := header.imgAddr
        rawDataLen := dataLen },
      some (header.fwVer.drop 4))
  else some (false, .cleared, none)

/-- `nfc_fw_get_image`. -/
def nfcFwGetImage (image : Option (List (BitVec 8))) (force : Bool) :
    Option (Bool × ImageInfo × Option (List (BitVec 8))) := do
  match ← nfcHalGetUpdateImage ans image force with
  | none => some (false, { img with binary := none }, none)
  | some binary => imageOf ans bl img keyType binary

end GetImage

/-! ## Safe images -/

/-- **The image is one of the file**: the header, the signature and the data lie
in it, the data are whole sectors, and the signature fits in a frame or none is
sent of it. -/
structure Accepted (bl : FwBlInfo) (keyType : BitVec 8) (binary : List (BitVec 8))
    (img : ImageInfo) : Prop where
  kept : img.binary = some binary
  header : Header.size ≤ binary.length
  signature : img.signature = (Header.of binary).signature keyType ∧
    img.signatureLen = (Header.of binary).signatureLen keyType
  signatureWithin : Within binary img.signature img.signatureLen
  rawData : img.rawData = (Header.of binary).imgAddr
  rawDataWithin : Within binary img.rawData img.rawDataLen
  rawDataLen : img.rawDataLen = (Header.of binary).sectorNum * bl.sectorSize.toNat
  frame : img.signatureLen ≤ fwDataPayloadMax ∨ ∀ written fw load,
    ∃ ret fw', nfcFwSendData written fw load (toInt img.signatureLen) = some (ret, fw', [])

/-- **The function is safe**: it does not read outside the file, and it accepts
an image of the file or leaves none. -/
def Safe (bl : FwBlInfo) (keyType : BitVec 8) (binary : List (BitVec 8)) :
    Option (Bool × ImageInfo × Option (List (BitVec 8))) → Prop
  | none => False
  | some (true, img, _) => Accepted bl keyType binary img
  | some (false, img, _) => img.binary = none

/-- The regions of a header lie in the file, over the natural numbers. -/
def Header.Fits (h : Header) (bl : FwBlInfo) (keyType : BitVec 8) (binary : List (BitVec 8)) : Prop :=
  Within binary (h.signature keyType) (h.signatureLen keyType) ∧
    Within binary h.imgAddr (h.sectorNum * bl.sectorSize.toNat)

instance (h : Header) (bl : FwBlInfo) (keyType : BitVec 8) (binary : List (BitVec 8)) :
    Decidable (h.Fits bl keyType binary) := inferInstanceAs (Decidable (_ ∧ _))

/-- **When the file is sound**: a version is there to be compared where the
update is not forced, and where the update goes on, the header is, and its
regions are unless there is no memory for the hash. -/
def Sound (ans : Answers) (bl : FwBlInfo) (keyType : BitVec 8) (force : Bool)
    (binary : List (BitVec 8)) : Prop :=
  (force = true ∨ 0x10 + versionLenFw ≤ binary.length) ∧
    (force = true ∨ checkUpdate ans binary = some true →
      Header.size ≤ binary.length ∧
        (ans.hashAllocated = true → (Header.of binary).Fits bl keyType binary))

instance (ans : Answers) (bl : FwBlInfo) (keyType : BitVec 8) (force : Bool)
    (binary : List (BitVec 8)) : Decidable (Sound ans bl keyType force binary) :=
  inferInstanceAs (Decidable ((_ ∨ _) ∧ (_ → _ ∧ (_ → _))))

/-- **A signature that does not fit is refused.** -/
theorem nfcFwSendData_large {n : ℕ} (hn : n < 2 ^ 32) (hlarge : fwDataPayloadMax < n)
    (written : ℕ → ℕ) (fw : FwInfo) (load : ℕ → Option (List (BitVec 8))) :
    ∃ ret fw', nfcFwSendData written fw load (toInt n) = some (ret, fw', []) := by
  have hlen : fwDataPayloadMax < (toInt n % 2 ^ 64).toNat := by
    rcases Nat.lt_or_ge n (2 ^ 31) with h | h
    · rw [toInt_of_lt (by omega) (by omega)]
      omega
    · have hneg : toInt n = n - 2 ^ 32 := by
        rw [toInt, Int.bmod_def]
        split <;> omega
      rw [hneg]
      unfold fwDataPayloadMax
      omega
  unfold nfcFwSendData sendToBootloader
  rw [if_pos hlen]
  exact ⟨_, _, rfl⟩

theorem toUInt_lt (n : ℤ) : toUInt n < 2 ^ 32 := by
  unfold toUInt
  omega

section

variable {ans : Answers} {bl : FwBlInfo} {img : ImageInfo} {keyType : BitVec 8}
  {binary : List (BitVec 8)}

variable (img keyType) in
/-- The image where the header and the data can be read. -/
theorem imageOf_of_within (hsize : Header.size ≤ binary.length) (hhash : ans.hashAllocated = true)
    (hdata : Within binary (Header.of binary).imgAddr
      (toUInt ((Header.of binary).sectorNum * bl.sectorSize.toNat : ℕ))) :
    ∃ img' ver, imageOf ans bl img keyType binary = some (true, img', ver) ∧
      img'.binary = some binary ∧
      img'.signature = (Header.of binary).signature keyType ∧
      img'.signatureLen = (Header.of binary).signatureLen keyType ∧
      img'.rawData = (Header.of binary).imgAddr ∧
      img'.rawDataLen = toUInt ((Header.of binary).sectorNum * bl.sectorSize.toNat : ℕ) := by
  obtain ⟨data, hregion, -⟩ := region_of_within hdata
  have hlt := toUInt_lt ((Header.of binary).sectorNum * bl.sectorSize.toNat : ℕ)
  unfold imageOf
  rw [Header.read_of_le hsize, Option.bind_eq_bind, Option.bind_some, if_neg (by omega),
    if_pos hhash, hregion]
  exact ⟨_, _, rfl, rfl, rfl, rfl, rfl, rfl⟩

/-- **Behind the choice of the file**, safe is what has a header and regions in
the file. -/
theorem safe_imageOf_iff (hlen : binary.length < 2 ^ 31) :
    Safe bl keyType binary (imageOf ans bl img keyType binary) ↔
      Header.size ≤ binary.length ∧
        (ans.hashAllocated = true → (Header.of binary).Fits bl keyType binary) := by
  by_cases hsize : Header.size ≤ binary.length
  swap
  · unfold imageOf
    rw [Header.read_eq_none (Nat.not_le.mp hsize)]
    exact iff_of_false id fun h => hsize h.1
  rw [and_iff_right hsize]
  cases hhash : ans.hashAllocated with
  | false =>
    have hlt := toUInt_lt ((Header.of binary).sectorNum * bl.sectorSize.toNat : ℕ)
    unfold imageOf
    rw [Header.read_of_le hsize, Option.bind_eq_bind, Option.bind_some, if_neg (by omega),
      if_neg (by rw [hhash]; exact Bool.false_ne_true)]
    exact iff_of_true rfl fun h => absurd h Bool.false_ne_true
  | true =>
    by_cases hdata : Within binary (Header.of binary).imgAddr
        (toUInt ((Header.of binary).sectorNum * bl.sectorSize.toNat : ℕ))
    · obtain ⟨img', ver, himg, hkept, hsig, hsigLen, hraw, hrawLen⟩ :=
        imageOf_of_within img keyType hsize hhash hdata
      rw [himg]
      constructor
      · intro (haccepted : Accepted bl keyType binary img') _
        refine ⟨?_, ?_⟩
        · rw [← hsig, ← hsigLen]
          exact haccepted.signatureWithin
        · rw [← haccepted.rawDataLen, hrawLen]
          exact hdata
      · intro hfits
        obtain ⟨hsigWithin, hrawWithin⟩ := hfits rfl
        have hproduct : toUInt ((Header.of binary).sectorNum * bl.sectorSize.toNat : ℕ) =
            (Header.of binary).sectorNum * bl.sectorSize.toNat := by
          refine toUInt_of_lt ?_
          rcases within_iff.mp hrawWithin with hzero | hle
          · omega
          · omega
        refine ⟨hkept, hsize, ⟨hsig, hsigLen⟩, ?_, hraw, ?_, hrawLen.trans hproduct, ?_⟩
        · rw [hsig, hsigLen]
          exact hsigWithin
        · rw [hraw, hrawLen]
          exact hdata
        · rcases Nat.lt_or_ge fwDataPayloadMax img'.signatureLen with hlarge | hfitsFrame
          · have hlt : img'.signatureLen < 2 ^ 32 := by
              rw [hsigLen]
              exact Header.signatureLen_lt binary keyType
            exact .inr fun written fw load => nfcFwSendData_large hlt hlarge written fw load
          · exact .inl hfitsFrame
    · have hlt := toUInt_lt ((Header.of binary).sectorNum * bl.sectorSize.toNat : ℕ)
      have hnone : imageOf ans bl img keyType binary = none := by
        unfold imageOf
        rw [Header.read_of_le hsize, Option.bind_eq_bind, Option.bind_some, if_neg (by omega),
          if_pos hhash, region_eq_none hdata]
        rfl
      rw [hnone]
      refine iff_of_false id fun hfits => hdata ?_
      have hrawWithin := (hfits rfl).2
      rcases within_iff.mp hrawWithin with hzero | hle
      · rw [hzero]
        exact within_iff.mpr (.inl rfl)
      · rw [toUInt_of_lt (by omega)]
        exact hrawWithin

/-- A file that is accepted has a length. -/
theorem length_of_loadFwBinary {file : List (BitVec 8)} (h : loadFwBinary ans file = some binary) :
    0 < binary.length ∧ binary.length < 2 ^ 31 := by
  unfold loadFwBinary at h
  have hbound : toInt file.length < 2 ^ 31 := by
    rw [toInt, Int.bmod_def]
    split <;> omega
  have hle : toInt file.length ≤ file.length := by
    rw [toInt, Int.bmod_def]
    split <;> omega
  dsimp only at h
  split_ifs at h with hpos
  rw [Option.some_inj] at h
  rw [← h, List.length_take]
  omega

theorem checkUpdate_eq_none (h : binary.length < 0x10 + versionLenFw) :
    checkUpdate ans binary = none := by
  rw [checkUpdate, getImageVersion, Block.load_eq_none h]
  rfl

variable (ans) in
theorem checkUpdate_isSome (h : 0x10 + versionLenFw ≤ binary.length) :
    ∃ update, checkUpdate ans binary = some update := by
  rw [checkUpdate, getImageVersion, Block.load_of_le h]
  exact ⟨_, rfl⟩

end

/-- **When the image is parsed safely**, for every file that is accepted, every
key and every size of the sectors. -/
theorem getImage_safe_iff (ans : Answers) (bl : FwBlInfo) (img : ImageInfo) (keyType : BitVec 8)
    (force : Bool) {file binary : List (BitVec 8)} (hload : loadFwBinary ans file = some binary) :
    Safe bl keyType binary (nfcFwGetImage ans bl img keyType (loadFwBinary ans file) force) ↔
      Sound ans bl keyType force binary := by
  have hlen := (length_of_loadFwBinary hload).2
  rw [hload]
  unfold Sound
  cases force with
  | true =>
    have hget : nfcFwGetImage ans bl img keyType (some binary) true =
        imageOf ans bl img keyType binary := rfl
    rw [hget, safe_imageOf_iff hlen]
    simp
  | false =>
    by_cases hversion : 0x10 + versionLenFw ≤ binary.length
    · obtain ⟨update, hupdate⟩ := checkUpdate_isSome ans hversion
      have hget : nfcFwGetImage ans bl img keyType (some binary) false =
          if update then imageOf ans bl img keyType binary
          else some (false, { img with binary := none }, none) := by
        simp only [nfcFwGetImage, nfcHalGetUpdateImage, hupdate]
        cases update with
        | true => rfl
        | false => rfl
      rw [hget]
      cases update with
      | true =>
        rw [if_pos rfl, safe_imageOf_iff hlen]
        simp [hversion, hupdate]
      | false =>
        rw [if_neg Bool.false_ne_true]
        refine iff_of_true rfl ⟨.inr hversion, fun h => ?_⟩
        rw [hupdate] at h
        exact absurd h (by simp)
    · have hget : nfcFwGetImage ans bl img keyType (some binary) false = none := by
        simp only [nfcFwGetImage, nfcHalGetUpdateImage,
          checkUpdate_eq_none (Nat.not_le.mp hversion)]
        rfl
      rw [hget]
      refine iff_of_false id fun h => hversion ?_
      exact h.1.resolve_left Bool.false_ne_true

/-- A file of two sectors of two bytes, with a signature of one. -/
def twoSectors : List (BitVec 8) :=
  List.replicate 20 0 ++ LittleEndian.encode 4 44 ++ LittleEndian.encode 4 1 ++
    LittleEndian.encode 4 45 ++ LittleEndian.encode 4 2 ++ List.replicate 8 0 ++ [9, 1, 2, 3, 4]

/-- A bootloader with sectors of two bytes. -/
def twoByteSectors : FwBlInfo := { product := 0x74, version := [], sectorSize := 2, baseAddress := 0 }

theorem getImage_safe_twoSectors :
    Safe twoByteSectors 0 twoSectors (nfcFwGetImage .plain twoByteSectors .cleared 0
      (loadFwBinary .plain twoSectors) true) := by
  have hload : loadFwBinary .plain twoSectors = some twoSectors := by decide
  exact (getImage_safe_iff .plain twoByteSectors .cleared 0 true hload).mpr (by decide)

/-- So many sectors that the product is cut to zero. -/
def wrappedSectors : List (BitVec 8) :=
  List.replicate 32 0 ++ [0, 0, 0, 0x80] ++ List.replicate 8 0

/-- **A length that wraps** is taken for one that is small enough. -/
theorem not_getImage_safe :
    ¬ ∀ (keyType : BitVec 8) (force : Bool) (file binary : List (BitVec 8)),
      loadFwBinary .plain file = some binary →
        Safe twoByteSectors keyType binary (nfcFwGetImage .plain twoByteSectors .cleared keyType
          (loadFwBinary .plain file) force) := by
  intro hall
  have hload : loadFwBinary .plain wrappedSectors = some wrappedSectors := by decide
  have hsafe := hall 0 true wrappedSectors wrappedSectors hload
  rw [hload] at hsafe
  change Safe twoByteSectors 0 wrappedSectors
    (imageOf .plain twoByteSectors .cleared 0 wrappedSectors) at hsafe
  have hraw := ((safe_imageOf_iff (by decide)).mp hsafe).2 rfl
  exact absurd hraw.2 (by decide)

/-! ## The download of it -/

/-- The image as the download has it. -/
def ImageInfo.fwImage (img : ImageInfo) (binary : List (BitVec 8)) : FwImage where
  binary := img.binary.isSome
  signature := (binary.drop img.signature).take img.signatureLen
  hashCode := img.hashCode.getD []
  rawData := (binary.drop img.rawData).take img.rawDataLen
  rawDataLen := img.rawDataLen
  cur := img.cur

/-- **What is accepted is an image of whole sectors**, which is what the
download asks for. -/
theorem Accepted.loaded {bl : FwBlInfo} {keyType : BitVec 8} {img : ImageInfo}
    (h : Accepted bl keyType binary img) (hlen : binary.length < 2 ^ 31)
    (hsector : 0 < bl.sectorSize.toNat) {fw : FwInfo} (hbl : fw.bl = bl)
    (himage : fw.image = img.fwImage binary) : fw.Loaded (Header.of binary).sectorNum := by
  have hwithin := within_iff.mp h.rawDataWithin
  have hrawLen := h.rawDataLen
  refine ⟨?_, ?_, ?_, ?_⟩
  · rw [hbl]
    exact hsector
  · rw [hbl, ← hrawLen]
    omega
  · rw [hbl, himage, ← hrawLen]
    show ((binary.drop img.rawData).take img.rawDataLen).length = img.rawDataLen
    rw [List.length_take, List.length_drop]
    omega
  · rw [hbl, himage]
    exact hrawLen

end FwFile

end ExynosVendor.Nfc
