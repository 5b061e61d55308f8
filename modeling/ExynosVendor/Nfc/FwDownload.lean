import ExynosVendor.Common.Block
import ExynosVendor.Common.LittleEndian
import ExynosVendor.Common.Word
import Mathlib.Data.List.Basic

/-!
# The firmware download

The bootloader states of `nfc_hal_fw_sm` in `hal_task.cc`, and the frames
`hal_fw.cc` sends for them. Each response moves the download one frame on:
behind the signature the sectors are selected one after the other, and the
data of each follows in frames of at most `FW_DATA_PAYLOAD_MAX` bytes.

A read outside the image faults, so that a download that does not answer
`none` has stayed inside.
-/

namespace ExynosVendor.Nfc

open List

def fwHdrSize : ℕ := 4

def fwDataPayloadMax : ℕ := 256

/-- `eNFC_FW_BLTYPE`. -/
inductive FwBlType where
  | cmd
  | rsp
  | data
  deriving DecidableEq

/-- Its number. -/
def FwBlType.toByte : FwBlType → BitVec 8
  | .cmd => 0
  | .rsp => 1
  | .data => 2

/-- `eNFC_FW_BLCMD`. -/
inductive FwBlCmd where
  | reset
  | getBootinfo
  | enterUpdatemode
  | updatePage
  | updateSect
  | completeUpdateMode
  deriving DecidableEq

/-- Its number. -/
def FwBlCmd.toByte : FwBlCmd → BitVec 8
  | .reset => 0
  | .getBootinfo => 1
  | .enterUpdatemode => 2
  | .updatePage => 3
  | .updateSect => 4
  | .completeUpdateMode => 5

/-- `tNFC_FW_PKT`, as it is sent. -/
structure FwPkt where
  type : BitVec 8
  code : BitVec 8
  len : ℕ
  payload : List (BitVec 8)
  deriving DecidableEq

/-- `eNFC_HAL_FW_STATE`; `none` is its 0. -/
inductive FwState where
  | none
  | enterUpdateMode
  | w4EnterUpdatemodeRsp
  | w4HashDataRsp
  | w4SignDataRsp
  | w4UpdateSectRsp
  | w4FwDataRsp
  | w4CompleteRsp
  | w4NciPropFwCfg
  | w4NciResetRsp
  | w4NciInitRsp
  | w4NciResetVtsRsp
  | w4NciInitVtsRsp
  deriving DecidableEq

/-- `tNFC_HAL_FW_IMAGE_INFO`. -/
structure FwImage where
  /-- Whether there is a `binary`. -/
  binary : Bool
  /-- `signature`, of `signatureLen` bytes. -/
  signature : List (BitVec 8)
  /-- `hashCode`, of `hashCodeLen` bytes. -/
  hashCode : List (BitVec 8)
  /-- `rawData`. -/
  rawData : List (BitVec 8)
  /-- `rawDataLen`. -/
  rawDataLen : ℕ
  /-- `cur`. -/
  cur : ℕ
  deriving DecidableEq

/-- The image as `nfc_fw_free_image` leaves it. -/
def FwImage.free : FwImage := ⟨false, [], [], [], 0, 0⟩

/-- `tNFC_HAL_FW_BL_INFO`. -/
structure FwBlInfo where
  /-- `product`. -/
  product : ℕ
  /-- `version`. -/
  version : List (BitVec 8)
  /-- `sector_size`. -/
  sectorSize : BitVec 16
  /-- `base_address`. -/
  baseAddress : BitVec 16
  deriving DecidableEq

/-- `tNFC_HAL_FW_INFO`. -/
structure FwInfo where
  /-- `image_info`. -/
  image : FwImage
  /-- `bl_info`. -/
  bl : FwBlInfo
  /-- `state`. -/
  state : FwState
  /-- `target_sector`. -/
  targetSector : ℤ
  /-- `seq_no`. -/
  seqNo : BitVec 8
  deriving DecidableEq

section Send

variable (written : ℕ → ℕ) (fw : FwInfo)

/-- `__send_to_bootloader`. `load` reads so many bytes of the data, and
`written` is how many of a frame the device takes. -/
def sendToBootloader (type : FwBlType) (code : BitVec 8) (load : ℕ → Option (List (BitVec 8)))
    (len : ℕ) : Option (ℕ × FwInfo × List FwPkt) :=
  if fwDataPayloadMax < len then some (2 ^ 64 - 1, fw, [])
  else do
    let payload ← load len
    some (written (fwHdrSize + len), { fw with seqNo := fw.seqNo ^^^ 0x80 },
      [⟨fw.seqNo ||| type.toByte, code, len, payload⟩])

def nfcFwSendCmd (cmd : FwBlCmd) (param : List (BitVec 8)) :
    Option (ℕ × FwInfo × List FwPkt) := do
  let (ret, fw, sent) ←
    sendToBootloader written fw .cmd cmd.toByte (Block.load param 0) param.length
  some (if ret > fwHdrSize then ret - fwHdrSize else ret, fw, sent)

def nfcFwSendData (load : ℕ → Option (List (BitVec 8))) (len : ℤ) :
    Option (ℤ × FwInfo × List FwPkt) := do
  let (ret, fw, sent) ← sendToBootloader written fw .data 0 load (len % 2 ^ 64).toNat
  some (toInt (if ret > fwHdrSize then ret - fwHdrSize else ret : ℕ), fw, sent)

def nfcFwCalNextFrameLength (max : ℤ) : ℤ :=
  let len := toInt (toInt ((fw.targetSector + 1) * fw.bl.sectorSize.toNat) - fw.image.cur)
  if len < 0 then len else if len > max then max else len

/-- The next frame of the sector. -/
def sendFrame : Option (FwInfo × List FwPkt) := do
  let len := nfcFwCalNextFrameLength fw fwDataPayloadMax
  let (ret, fw', sent) ← nfcFwSendData written fw (Block.load fw.image.rawData fw.image.cur) len
  some ({ fw' with image := { fw'.image with cur := toUInt (fw'.image.cur + ret) } }, sent)

/-- `TO_LITTLE_ARRY` of the address of the sector, and its selection. -/
def sendUpdateSect : Option (FwInfo × List FwPkt) := do
  let address := fw.bl.baseAddress.toNat + fw.targetSector * fw.bl.sectorSize.toNat
  let (_, fw, sent) ← nfcFwSendCmd written fw .updateSect (LittleEndian.encode 4 (toUInt address))
  some ({ fw with state := .w4UpdateSectRsp }, sent)

/-- The bootloader states of `nfc_hal_fw_sm`, on a response of success. -/
def nfcHalFwDownload : Option (FwInfo × List FwPkt) :=
  match fw.state with
  | .enterUpdateMode =>
      if fw.image.binary then do
        let param := LittleEndian.encode 2 fw.image.hashCode.length ++
          LittleEndian.encode 2 fw.image.signature.length
        let (_, fw, sent) ← nfcFwSendCmd written fw .enterUpdatemode param
        some ({ fw with state := .w4EnterUpdatemodeRsp }, sent)
      else some (fw, [])
  | .w4EnterUpdatemodeRsp => do
      let (_, fw, sent) ← nfcFwSendData written fw (Block.load fw.image.hashCode 0)
        fw.image.hashCode.length
      some ({ fw with state := .w4HashDataRsp }, sent)
  | .w4HashDataRsp => do
      let (_, fw, sent) ← nfcFwSendData written fw (Block.load fw.image.signature 0)
        fw.image.signature.length
      some ({ fw with state := .w4SignDataRsp }, sent)
  | .w4SignDataRsp =>
      sendUpdateSect written { fw with image := { fw.image with cur := 0 }, targetSector := 0 }
  | .w4UpdateSectRsp => do
      let (fw, sent) ← sendFrame written fw
      some ({ fw with state := .w4FwDataRsp }, sent)
  | .w4FwDataRsp =>
      if fw.image.cur = fw.image.rawDataLen then do
        let (_, fw, sent) ← nfcFwSendCmd written fw .completeUpdateMode []
        some ({ fw with state := .w4CompleteRsp }, sent)
      else if fw.image.cur < toUInt ((fw.targetSector + 1) * fw.bl.sectorSize.toNat) then
        sendFrame written fw
      else sendUpdateSect written { fw with targetSector := fw.targetSector + 1 }
  | _ => some (fw, [])

end Send

/-! ## Runs of the download -/

/-- Responses of success one after the other, each write complete. -/
def downloads : ℕ → FwInfo → Option (FwInfo × List FwPkt)
  | 0, fw => some (fw, [])
  | m + 1, fw => do
      let (fw, sent) ← nfcHalFwDownload id fw
      let (fw, rest) ← downloads m fw
      some (fw, sent ++ rest)

/-- A frame without its number. -/
structure FwMsg where
  type : FwBlType
  code : BitVec 8
  payload : List (BitVec 8)
  deriving DecidableEq

/-- A frame under a sequence number. -/
def FwMsg.frame (m : FwMsg) (seqNo : BitVec 8) : FwPkt :=
  ⟨seqNo ||| m.type.toByte, m.code, m.payload.length, m.payload⟩

/-- Frames numbered from a sequence number on. -/
def numbered : BitVec 8 → List FwMsg → List FwPkt
  | _, [] => []
  | seqNo, m :: msgs => m.frame seqNo :: numbered (seqNo ^^^ 0x80) msgs

/-- The number behind them. -/
def seqAfter : BitVec 8 → List FwMsg → BitVec 8
  | seqNo, [] => seqNo
  | seqNo, _ :: msgs => seqAfter (seqNo ^^^ 0x80) msgs

theorem numbered_append (seqNo : BitVec 8) (msgs msgs' : List FwMsg) :
    numbered seqNo (msgs ++ msgs') =
      numbered seqNo msgs ++ numbered (seqAfter seqNo msgs) msgs' := by
  induction msgs generalizing seqNo with
  | nil => rfl
  | cons m msgs ih => exact congrArg (m.frame seqNo :: ·) (ih _)

theorem seqAfter_append (seqNo : BitVec 8) (msgs msgs' : List FwMsg) :
    seqAfter seqNo (msgs ++ msgs') = seqAfter (seqAfter seqNo msgs) msgs' := by
  induction msgs generalizing seqNo with
  | nil => rfl
  | cons m msgs ih => exact ih _

/-- The bit of a frame that is its number. -/
def FwPkt.seqBit (p : FwPkt) : Bool := p.type.getLsbD 7

theorem FwMsg.seqBit_frame (m : FwMsg) (seqNo : BitVec 8) :
    (m.frame seqNo).seqBit = seqNo.getLsbD 7 := by
  unfold FwPkt.seqBit FwMsg.frame
  rw [BitVec.getLsbD_or]
  have htype : m.type.toByte.getLsbD 7 = false := by
    cases m.type with
    | cmd => rfl
    | rsp => rfl
    | data => rfl
  rw [htype, Bool.or_false]

/-- **Numbered frames alternate.** -/
theorem isChain_numbered (seqNo : BitVec 8) (msgs : List FwMsg) :
    (numbered seqNo msgs).IsChain fun p q => q.seqBit = !p.seqBit := by
  induction msgs generalizing seqNo with
  | nil => exact .nil
  | cons m msgs ih =>
    cases msgs with
    | nil => exact .singleton _
    | cons m' msgs =>
      refine .cons_cons ?_ (ih _)
      rw [FwMsg.seqBit_frame, FwMsg.seqBit_frame, BitVec.getLsbD_xor]
      exact Bool.xor_true _

/-! ## A sector -/

/-- The selection of a sector. -/
def sectMsg (base s k : ℕ) : FwMsg :=
  ⟨.cmd, FwBlCmd.updateSect.toByte, LittleEndian.encode 4 (base + k * s)⟩

/-- A frame of data. -/
def dataMsg (bytes : List (BitVec 8)) : FwMsg := ⟨.data, 0, bytes⟩

/-- The end of the download. -/
def completeMsg : FwMsg := ⟨.cmd, FwBlCmd.completeUpdateMode.toByte, []⟩

/-- The download at a sector, with so many bytes sent. -/
def FwInfo.place (fw : FwInfo) (k c : ℕ) (state : FwState) (seqNo : BitVec 8) : FwInfo :=
  { fw with
    image := { fw.image with cur := c }
    state := state
    targetSector := k
    seqNo := seqNo }

/-- **An image of `n` sectors.** -/
structure FwInfo.Loaded (fw : FwInfo) (n : ℕ) : Prop where
  sector : 0 < fw.bl.sectorSize.toNat
  size : n * fw.bl.sectorSize.toNat < 2 ^ 31
  data : fw.image.rawData.length = n * fw.bl.sectorSize.toNat
  len : fw.image.rawDataLen = n * fw.bl.sectorSize.toNat

section Sector

variable {fw : FwInfo} {n k c : ℕ} {state : FwState} {seqNo : BitVec 8}

theorem FwInfo.Loaded.sector_le (_ : fw.Loaded n) (hk : k < n) :
    (k + 1) * fw.bl.sectorSize.toNat ≤ n * fw.bl.sectorSize.toNat :=
  Nat.mul_le_mul_right _ hk

/-- The length of the next frame of a sector. -/
def FwInfo.frameLen (fw : FwInfo) (k c : ℕ) : ℕ :=
  min fwDataPayloadMax ((k + 1) * fw.bl.sectorSize.toNat - c)

/-- The next frame. -/
def FwInfo.frame (fw : FwInfo) (k c : ℕ) : List (BitVec 8) :=
  (fw.image.rawData.drop c).take (fw.frameLen k c)

/-- **The length of the next frame** is never zero inside a sector. -/
theorem nfcFwCalNextFrameLength_place (state : FwState) (seqNo : BitVec 8) (h : fw.Loaded n)
    (hk : k < n) (hc : c < (k + 1) * fw.bl.sectorSize.toNat) :
    nfcFwCalNextFrameLength (fw.place k c state seqNo) fwDataPayloadMax =
      (fw.frameLen k c : ℕ) := by
  have hsize := h.size
  have hend := h.sector_le hk
  unfold nfcFwCalNextFrameLength FwInfo.place FwInfo.frameLen fwDataPayloadMax
  dsimp only
  have hproduct : ((k : ℤ) + 1) * (fw.bl.sectorSize.toNat : ℤ) =
      (((k + 1) * fw.bl.sectorSize.toNat : ℕ) : ℤ) := by
    push_cast
    rfl
  rw [hproduct]
  generalize (k + 1) * fw.bl.sectorSize.toNat = e at hc hend
  rw [toInt_of_lt (n := (e : ℤ)) (by omega) (by omega), toInt_of_lt (by omega) (by omega)]
  split_ifs <;> omega

variable {load : ℕ → Option (List (BitVec 8))} {payload : List (BitVec 8)}

/-- A frame that is sent is numbered. -/
theorem sendToBootloader_eq {type : FwBlType} {code : BitVec 8}
    (hlen : payload.length ≤ fwDataPayloadMax) (hload : load payload.length = some payload) :
    sendToBootloader id fw type code load payload.length =
      some (fwHdrSize + payload.length, { fw with seqNo := fw.seqNo ^^^ 0x80 },
        [(FwMsg.mk type code payload).frame fw.seqNo]) := by
  unfold sendToBootloader
  rw [if_neg (by omega), hload]
  rfl

theorem nfcFwSendCmd_eq (fw : FwInfo) (cmd : FwBlCmd) {param : List (BitVec 8)}
    (hlen : param.length ≤ fwDataPayloadMax) :
    ∃ ret, nfcFwSendCmd id fw cmd param =
      some (ret, { fw with seqNo := fw.seqNo ^^^ 0x80 },
        [(FwMsg.mk .cmd cmd.toByte param).frame fw.seqNo]) := by
  have hload : Block.load param 0 param.length = some param := by
    rw [Block.load_of_le (by omega), drop_zero, take_length]
  unfold nfcFwSendCmd
  rw [sendToBootloader_eq hlen hload]
  exact ⟨_, rfl⟩

/-- And data that is not empty is counted. -/
theorem nfcFwSendData_eq (fw : FwInfo) (hpos : 0 < payload.length)
    (hlen : payload.length ≤ fwDataPayloadMax) (hload : load payload.length = some payload) :
    nfcFwSendData id fw load payload.length =
      some ((payload.length : ℤ), { fw with seqNo := fw.seqNo ^^^ 0x80 },
        [(dataMsg payload).frame fw.seqNo]) := by
  have hint : ((payload.length : ℤ) % 2 ^ 64).toNat = payload.length := by
    unfold fwDataPayloadMax at hlen
    omega
  have hret : (if fwHdrSize + payload.length > fwHdrSize then
      fwHdrSize + payload.length - fwHdrSize else fwHdrSize + payload.length) = payload.length := by
    rw [if_pos (by omega), Nat.add_sub_cancel_left]
  unfold nfcFwSendData
  rw [hint, sendToBootloader_eq hlen hload]
  simp only [Option.bind_eq_bind, Option.bind_some, hret]
  rw [toInt_of_lt (by omega) (by unfold fwDataPayloadMax at hlen; omega)]
  rfl

theorem FwInfo.frameLen_spec (hc : c < (k + 1) * fw.bl.sectorSize.toNat) :
    0 < fw.frameLen k c ∧ fw.frameLen k c ≤ fwDataPayloadMax ∧
      c + fw.frameLen k c ≤ (k + 1) * fw.bl.sectorSize.toNat := by
  unfold FwInfo.frameLen fwDataPayloadMax
  omega

theorem FwInfo.Loaded.length_frame (h : fw.Loaded n) (hk : k < n)
    (hc : c < (k + 1) * fw.bl.sectorSize.toNat) : (fw.frame k c).length = fw.frameLen k c := by
  have hdata := h.data
  have hend := h.sector_le hk
  obtain ⟨-, -, hle⟩ := fw.frameLen_spec hc
  unfold FwInfo.frame
  rw [length_take, length_drop]
  omega

/-- **A frame is sent** of what comes next of the sector. -/
theorem sendFrame_place (state : FwState) (seqNo : BitVec 8) (h : fw.Loaded n) (hk : k < n)
    (hc : c < (k + 1) * fw.bl.sectorSize.toNat) :
    sendFrame id (fw.place k c state seqNo) =
      some (fw.place k (c + fw.frameLen k c) state (seqNo ^^^ 0x80),
        [(dataMsg (fw.frame k c)).frame seqNo]) := by
  have hsize := h.size
  have hdata := h.data
  have hend := h.sector_le hk
  have hlength := h.length_frame hk hc
  have hcal := nfcFwCalNextFrameLength_place state seqNo h hk hc
  obtain ⟨hpos, hmax, hle⟩ := fw.frameLen_spec hc
  have hload : Block.load fw.image.rawData c (fw.frame k c).length = some (fw.frame k c) := by
    rw [hlength]
    exact Block.load_of_le (by omega)
  have hsend := nfcFwSendData_eq (fw.place k c state seqNo) (by omega) (by omega) hload
  rw [hlength] at hsend
  have hcur : toUInt ((c : ℤ) + (fw.frameLen k c : ℤ)) = c + fw.frameLen k c :=
    toUInt_of_lt (n := c + fw.frameLen k c) (by omega)
  unfold sendFrame
  rw [hcal]
  simp only [FwInfo.place] at hsend ⊢
  rw [hsend]
  simp only [Option.bind_eq_bind, Option.bind_some, hcur]

/-- **A sector is selected** by its address. -/
theorem sendUpdateSect_place (c : ℕ) (state : FwState) (seqNo : BitVec 8) (h : fw.Loaded n)
    (hk : k < n) :
    sendUpdateSect id (fw.place k c state seqNo) =
      some (fw.place k c .w4UpdateSectRsp (seqNo ^^^ 0x80),
        [(sectMsg fw.bl.baseAddress.toNat fw.bl.sectorSize.toNat k).frame seqNo]) := by
  have hsize := h.size
  have hend := h.sector_le hk
  have hbase := fw.bl.baseAddress.isLt
  have hk' : k * fw.bl.sectorSize.toNat ≤ (k + 1) * fw.bl.sectorSize.toNat :=
    Nat.mul_le_mul_right _ (Nat.le_succ k)
  have haddress : toUInt ((fw.bl.baseAddress.toNat : ℤ) + (k : ℤ) * (fw.bl.sectorSize.toNat : ℤ)) =
      fw.bl.baseAddress.toNat + k * fw.bl.sectorSize.toNat :=
    toUInt_of_lt (n := fw.bl.baseAddress.toNat + k * fw.bl.sectorSize.toNat) (by omega)
  have hparam : (LittleEndian.encode 4 (fw.bl.baseAddress.toNat +
      k * fw.bl.sectorSize.toNat)).length ≤ fwDataPayloadMax := by
    rw [LittleEndian.length_encode]
    decide
  obtain ⟨ret, hsend⟩ := nfcFwSendCmd_eq (fw.place k c state seqNo) .updateSect hparam
  unfold sendUpdateSect
  simp only [FwInfo.place] at hsend ⊢
  rw [haddress, hsend]
  rfl

/-! ## The responses -/

variable {written : ℕ → ℕ}

theorem nfcHalFwDownload_w4SignDataRsp (h : fw.state = .w4SignDataRsp) :
    nfcHalFwDownload written fw = sendUpdateSect written
      { fw with image := { fw.image with cur := 0 }, targetSector := 0 } := by
  unfold nfcHalFwDownload
  rw [h]

theorem nfcHalFwDownload_w4UpdateSectRsp (h : fw.state = .w4UpdateSectRsp) :
    nfcHalFwDownload written fw =
      (sendFrame written fw).map fun r => ({ r.1 with state := .w4FwDataRsp }, r.2) := by
  unfold nfcHalFwDownload
  rw [h]
  cases sendFrame written fw with
  | none => rfl
  | some r => rfl

theorem nfcHalFwDownload_complete (h : fw.state = .w4FwDataRsp)
    (hcur : fw.image.cur = fw.image.rawDataLen) :
    nfcHalFwDownload written fw =
      (nfcFwSendCmd written fw .completeUpdateMode []).map fun r =>
        ({ r.2.1 with state := .w4CompleteRsp }, r.2.2) := by
  unfold nfcHalFwDownload
  rw [h]
  dsimp only
  rw [if_pos hcur]
  cases nfcFwSendCmd written fw .completeUpdateMode [] with
  | none => rfl
  | some r => rfl

theorem nfcHalFwDownload_more (h : fw.state = .w4FwDataRsp)
    (hcur : fw.image.cur ≠ fw.image.rawDataLen)
    (hend : fw.image.cur < toUInt ((fw.targetSector + 1) * fw.bl.sectorSize.toNat)) :
    nfcHalFwDownload written fw = sendFrame written fw := by
  unfold nfcHalFwDownload
  rw [h]
  dsimp only
  rw [if_neg hcur, if_pos hend]

theorem nfcHalFwDownload_sector (h : fw.state = .w4FwDataRsp)
    (hcur : fw.image.cur ≠ fw.image.rawDataLen)
    (hend : ¬ fw.image.cur < toUInt ((fw.targetSector + 1) * fw.bl.sectorSize.toNat)) :
    nfcHalFwDownload written fw =
      sendUpdateSect written { fw with targetSector := fw.targetSector + 1 } := by
  unfold nfcHalFwDownload
  rw [h]
  dsimp only
  rw [if_neg hcur, if_neg hend]

/-- **The signature is accepted**: the first sector is selected. -/
theorem download_sign (h : fw.Loaded n) (hn : 0 < n) (hstate : fw.state = .w4SignDataRsp) :
    nfcHalFwDownload id fw =
      some (fw.place 0 0 .w4UpdateSectRsp (fw.seqNo ^^^ 0x80),
        [(sectMsg fw.bl.baseAddress.toNat fw.bl.sectorSize.toNat 0).frame fw.seqNo]) := by
  rw [nfcHalFwDownload_w4SignDataRsp hstate]
  exact sendUpdateSect_place 0 fw.state fw.seqNo h hn

/-- **A sector is selected**: its first frame follows. -/
theorem download_first (seqNo : BitVec 8) (h : fw.Loaded n) (hk : k < n)
    (hc : c < (k + 1) * fw.bl.sectorSize.toNat) :
    nfcHalFwDownload id (fw.place k c .w4UpdateSectRsp seqNo) =
      some (fw.place k (c + fw.frameLen k c) .w4FwDataRsp (seqNo ^^^ 0x80),
        [(dataMsg (fw.frame k c)).frame seqNo]) := by
  rw [nfcHalFwDownload_w4UpdateSectRsp rfl, sendFrame_place .w4UpdateSectRsp seqNo h hk hc]
  rfl

/-- **A frame is written inside the sector**: the next follows. -/
theorem download_more (seqNo : BitVec 8) (h : fw.Loaded n) (hk : k < n)
    (hc : c < (k + 1) * fw.bl.sectorSize.toNat) :
    nfcHalFwDownload id (fw.place k c .w4FwDataRsp seqNo) =
      some (fw.place k (c + fw.frameLen k c) .w4FwDataRsp (seqNo ^^^ 0x80),
        [(dataMsg (fw.frame k c)).frame seqNo]) := by
  have hsize := h.size
  have hlen := h.len
  have hend := h.sector_le hk
  have hproduct : toUInt (((k : ℤ) + 1) * (fw.bl.sectorSize.toNat : ℤ)) =
      (k + 1) * fw.bl.sectorSize.toNat :=
    toUInt_of_lt (n := (k + 1) * fw.bl.sectorSize.toNat) (by omega)
  have hne : c ≠ fw.image.rawDataLen := by omega
  have hbelow : c < toUInt (((k : ℤ) + 1) * (fw.bl.sectorSize.toNat : ℤ)) := by omega
  rw [nfcHalFwDownload_more rfl hne hbelow]
  exact sendFrame_place .w4FwDataRsp seqNo h hk hc

/-- **The sector is written**: the next is selected. -/
theorem download_next (h : fw.Loaded n) (hk : k + 1 < n) :
    nfcHalFwDownload id (fw.place k ((k + 1) * fw.bl.sectorSize.toNat) .w4FwDataRsp seqNo) =
      some (fw.place (k + 1) ((k + 1) * fw.bl.sectorSize.toNat) .w4UpdateSectRsp (seqNo ^^^ 0x80),
        [(sectMsg fw.bl.baseAddress.toNat fw.bl.sectorSize.toNat (k + 1)).frame seqNo]) := by
  have hsize := h.size
  have hlen := h.len
  have hsector := h.sector
  have hend := h.sector_le hk
  have hsum : (k + 1 + 1) * fw.bl.sectorSize.toNat =
      (k + 1) * fw.bl.sectorSize.toNat + fw.bl.sectorSize.toNat := Nat.succ_mul _ _
  have hproduct : toUInt (((k : ℤ) + 1) * (fw.bl.sectorSize.toNat : ℤ)) =
      (k + 1) * fw.bl.sectorSize.toNat :=
    toUInt_of_lt (n := (k + 1) * fw.bl.sectorSize.toNat) (by omega)
  have hne : (k + 1) * fw.bl.sectorSize.toNat ≠ fw.image.rawDataLen := by omega
  have hend' : ¬ (k + 1) * fw.bl.sectorSize.toNat <
      toUInt (((k : ℤ) + 1) * (fw.bl.sectorSize.toNat : ℤ)) := by omega
  rw [nfcHalFwDownload_sector rfl hne hend']
  exact sendUpdateSect_place _ .w4FwDataRsp seqNo h hk

/-- **The last sector is written**: the download is complete. -/
theorem download_last (h : fw.Loaded n) :
    nfcHalFwDownload id (fw.place k (n * fw.bl.sectorSize.toNat) .w4FwDataRsp seqNo) =
      some (fw.place k (n * fw.bl.sectorSize.toNat) .w4CompleteRsp (seqNo ^^^ 0x80),
        [completeMsg.frame seqNo]) := by
  have hparam : ([] : List (BitVec 8)).length ≤ fwDataPayloadMax := Nat.zero_le _
  obtain ⟨ret, hsend⟩ := nfcFwSendCmd_eq
    (fw.place k (n * fw.bl.sectorSize.toNat) .w4FwDataRsp seqNo) .completeUpdateMode hparam
  rw [nfcHalFwDownload_complete rfl h.len.symm, hsend]
  rfl

/-! ## The whole download -/

/-- Responses lead from one place to another, and these frames are sent,
whatever the number of the first. -/
def Sends (place : BitVec 8 → FwInfo) (msgs : List FwMsg)
    (place' : BitVec 8 → FwInfo) : Prop :=
  ∀ seqNo, ∃ m, downloads m (place seqNo) =
    some (place' (seqAfter seqNo msgs), numbered seqNo msgs)

theorem downloads_add {m m' : ℕ} {fw fw' fw'' : FwInfo} {sent sent' : List FwPkt}
    (h : downloads m fw = some (fw', sent)) (h' : downloads m' fw' = some (fw'', sent')) :
    downloads (m + m') fw = some (fw'', sent ++ sent') := by
  induction m generalizing fw sent with
  | zero =>
    obtain ⟨rfl, rfl⟩ := Prod.mk.inj (Option.some.inj h)
    rw [Nat.zero_add]
    exact h'
  | succ m ih =>
    obtain ⟨⟨fw₁, sent₁⟩, hstep, hrest⟩ := Option.bind_eq_some_iff.mp h
    obtain ⟨⟨fw₂, sent₂⟩, hrun, heq⟩ := Option.bind_eq_some_iff.mp hrest
    obtain ⟨rfl, rfl⟩ := Prod.mk.inj (Option.some.inj heq)
    rw [Nat.succ_add, downloads, hstep]
    dsimp only [Option.bind_eq_bind, Option.bind_some]
    rw [ih hrun, append_assoc]
    rfl

theorem Sends.refl (place : BitVec 8 → FwInfo) : Sends place [] place :=
  fun _ => ⟨0, rfl⟩

theorem Sends.single {place place' : BitVec 8 → FwInfo} {m : FwMsg}
    (h : ∀ seqNo, nfcHalFwDownload id (place seqNo) =
      some (place' (seqNo ^^^ 0x80), [m.frame seqNo])) : Sends place [m] place' := by
  intro seqNo
  refine ⟨1, ?_⟩
  unfold downloads
  rw [h seqNo]
  rfl

theorem Sends.trans {place place' place'' : BitVec 8 → FwInfo} {msgs msgs' : List FwMsg}
    (h : Sends place msgs place') (h' : Sends place' msgs' place'') :
    Sends place (msgs ++ msgs') place'' := by
  intro seqNo
  obtain ⟨m, hm⟩ := h seqNo
  obtain ⟨m', hm'⟩ := h' (seqAfter seqNo msgs)
  refine ⟨m + m', ?_⟩
  rw [numbered_append, seqAfter_append]
  exact downloads_add hm hm'

/-- **Frames that data is cut into**: none is empty, and none too long. -/
def CutsInto (data : List (BitVec 8)) (frames : List (List (BitVec 8))) : Prop :=
  frames.flatten = data ∧ ∀ f ∈ frames, 1 ≤ f.length ∧ f.length ≤ fwDataPayloadMax

/-- The bytes of the image from one place to another. -/
def FwInfo.bytes (fw : FwInfo) (c e : ℕ) : List (BitVec 8) :=
  (fw.image.rawData.drop c).take (e - c)

/-- The next frame, and the frames of what is behind it. -/
theorem FwInfo.Loaded.cutsInto_cons {frames : List (List (BitVec 8))} (h : fw.Loaded n) (hk : k < n)
    (hc : c < (k + 1) * fw.bl.sectorSize.toNat)
    (hcut : CutsInto (fw.bytes (c + fw.frameLen k c) ((k + 1) * fw.bl.sectorSize.toNat)) frames) :
    CutsInto (fw.bytes c ((k + 1) * fw.bl.sectorSize.toNat)) (fw.frame k c :: frames) := by
  obtain ⟨hpos, hmax, hle⟩ := fw.frameLen_spec hc
  refine ⟨?_, fun f hf => ?_⟩
  · have hsplit : (k + 1) * fw.bl.sectorSize.toNat - c =
        fw.frameLen k c + ((k + 1) * fw.bl.sectorSize.toNat - (c + fw.frameLen k c)) := by omega
    rw [flatten_cons, hcut.1]
    unfold FwInfo.bytes FwInfo.frame
    rw [hsplit, take_add, drop_drop]
  · rcases mem_cons.mp hf with rfl | hf
    · have hlength := h.length_frame hk hc
      omega
    · exact hcut.2 f hf

/-- **The rest of a sector is sent**, by induction on how much it is. -/
theorem sends_rest (h : fw.Loaded n) (hk : k < n) :
    ∀ rest c, c + rest = (k + 1) * fw.bl.sectorSize.toNat →
      ∃ frames, CutsInto (fw.bytes c ((k + 1) * fw.bl.sectorSize.toNat)) frames ∧
        Sends (fw.place k c .w4FwDataRsp) (frames.map dataMsg)
          (fw.place k ((k + 1) * fw.bl.sectorSize.toNat) .w4FwDataRsp) := by
  intro rest
  induction rest using Nat.strongRecOn with
  | ind rest ih =>
    intro c hc
    by_cases hrest : rest = 0
    · obtain rfl : c = (k + 1) * fw.bl.sectorSize.toNat := by omega
      refine ⟨[], ⟨?_, fun f hf => absurd hf not_mem_nil⟩, Sends.refl _⟩
      rw [FwInfo.bytes, Nat.sub_self]
      rfl
    · have hbelow : c < (k + 1) * fw.bl.sectorSize.toNat := by omega
      obtain ⟨hpos, hmax, hle⟩ := fw.frameLen_spec hbelow
      obtain ⟨frames, hcut, hsends⟩ :=
        ih (rest - fw.frameLen k c) (by omega) (c + fw.frameLen k c) (by omega)
      refine ⟨fw.frame k c :: frames, h.cutsInto_cons hk hbelow hcut, ?_⟩
      have hfirst : Sends (fw.place k c .w4FwDataRsp) [dataMsg (fw.frame k c)]
          (fw.place k (c + fw.frameLen k c) .w4FwDataRsp) :=
        Sends.single fun seqNo => download_more seqNo h hk hbelow
      exact hfirst.trans hsends

/-- **A sector that is selected is sent.** -/
theorem sends_sector (h : fw.Loaded n) (hk : k < n) :
    ∃ frames, CutsInto (fw.bytes (k * fw.bl.sectorSize.toNat) ((k + 1) * fw.bl.sectorSize.toNat))
        frames ∧
      Sends (fw.place k (k * fw.bl.sectorSize.toNat) .w4UpdateSectRsp) (frames.map dataMsg)
        (fw.place k ((k + 1) * fw.bl.sectorSize.toNat) .w4FwDataRsp) := by
  have hsector := h.sector
  have hsum : (k + 1) * fw.bl.sectorSize.toNat =
      k * fw.bl.sectorSize.toNat + fw.bl.sectorSize.toNat := Nat.succ_mul _ _
  have hbelow : k * fw.bl.sectorSize.toNat < (k + 1) * fw.bl.sectorSize.toNat := by omega
  obtain ⟨hpos, hmax, hle⟩ := fw.frameLen_spec hbelow
  obtain ⟨frames, hcut, hsends⟩ :=
    sends_rest h hk (fw.bl.sectorSize.toNat - fw.frameLen k (k * fw.bl.sectorSize.toNat))
      (k * fw.bl.sectorSize.toNat + fw.frameLen k (k * fw.bl.sectorSize.toNat)) (by omega)
  refine ⟨fw.frame k (k * fw.bl.sectorSize.toNat) :: frames, h.cutsInto_cons hk hbelow hcut, ?_⟩
  have hfirst : Sends (fw.place k (k * fw.bl.sectorSize.toNat) .w4UpdateSectRsp)
      [dataMsg (fw.frame k (k * fw.bl.sectorSize.toNat))] (fw.place k
        (k * fw.bl.sectorSize.toNat + fw.frameLen k (k * fw.bl.sectorSize.toNat)) .w4FwDataRsp) :=
    Sends.single fun seqNo => download_first seqNo h hk hbelow
  exact hfirst.trans hsends

/-- The frames of sectors, each behind its selection. -/
def sectorMsgs (base s : ℕ) (frames : ℕ → List (List (BitVec 8))) (ks : List ℕ) : List FwMsg :=
  ks.flatMap fun k => sectMsg base s k :: (frames k).map dataMsg

theorem sectorMsgs_cons (base s : ℕ) (frames : ℕ → List (List (BitVec 8))) (k : ℕ) (ks : List ℕ) :
    sectorMsgs base s frames (k :: ks) =
      sectMsg base s k :: ((frames k).map dataMsg ++ sectorMsgs base s frames ks) :=
  flatMap_cons

/-- **The rest of an image is sent**, by induction on the sectors behind the
one that is selected. -/
theorem sends_image (h : fw.Loaded n) {frames : ℕ → List (List (BitVec 8))}
    (hframes : ∀ k < n, Sends (fw.place k (k * fw.bl.sectorSize.toNat) .w4UpdateSectRsp)
      ((frames k).map dataMsg) (fw.place k ((k + 1) * fw.bl.sectorSize.toNat) .w4FwDataRsp)) :
    ∀ j k, k + 1 + j = n →
      Sends (fw.place k (k * fw.bl.sectorSize.toNat) .w4UpdateSectRsp)
        ((frames k).map dataMsg ++ (sectorMsgs fw.bl.baseAddress.toNat fw.bl.sectorSize.toNat
          frames (List.range' (k + 1) j) ++ [completeMsg]))
        (fw.place (n - 1) (n * fw.bl.sectorSize.toNat) .w4CompleteRsp) := by
  intro j
  induction j with
  | zero =>
    intro k hk
    obtain rfl : k + 1 = n := hk
    refine (hframes k (Nat.lt_succ_self k)).trans ?_
    exact Sends.single fun seqNo => download_last h
  | succ j ih =>
    intro k hk
    have hnext : Sends (fw.place k ((k + 1) * fw.bl.sectorSize.toNat) .w4FwDataRsp)
        [sectMsg fw.bl.baseAddress.toNat fw.bl.sectorSize.toNat (k + 1)]
        (fw.place (k + 1) ((k + 1) * fw.bl.sectorSize.toNat) .w4UpdateSectRsp) :=
      Sends.single fun seqNo => download_next h (by omega)
    have hrest := (hframes k (by omega)).trans (hnext.trans (ih (k + 1) (by omega)))
    rw [range'_succ, sectorMsgs_cons]
    simpa only [append_assoc, cons_append, nil_append] using hrest

end Sector

/-- **The download sends the image exactly.** From the response to the
signature on, each response of success sends one frame: for each sector in
turn its selection and frames that its bytes are cut into, and then the end.
No read leaves the image, and the sequence bit alternates. -/
theorem downloadsImage (fw : FwInfo) (n : ℕ) (hstate : fw.state = .w4SignDataRsp)
    (hsector : 0 < fw.bl.sectorSize.toNat) (hn : 0 < n)
    (hsize : n * fw.bl.sectorSize.toNat < 2 ^ 31)
    (hdata : fw.image.rawData.length = n * fw.bl.sectorSize.toNat)
    (hlen : fw.image.rawDataLen = n * fw.bl.sectorSize.toNat) :
    ∃ m fw' sent frames, downloads m fw = some (fw', sent) ∧ fw'.state = .w4CompleteRsp ∧
      (∀ k < n, CutsInto (fw.bytes (k * fw.bl.sectorSize.toNat)
        ((k + 1) * fw.bl.sectorSize.toNat)) (frames k)) ∧
      sent = numbered fw.seqNo (sectorMsgs fw.bl.baseAddress.toNat fw.bl.sectorSize.toNat frames
        (List.range n) ++ [completeMsg]) ∧
      sent.IsChain fun p q => q.seqBit = !p.seqBit := by
  have h : fw.Loaded n := ⟨hsector, hsize, hdata, hlen⟩
  have hsectors : ∀ k, ∃ frames, k < n →
      CutsInto (fw.bytes (k * fw.bl.sectorSize.toNat) ((k + 1) * fw.bl.sectorSize.toNat)) frames ∧
      Sends (fw.place k (k * fw.bl.sectorSize.toNat) .w4UpdateSectRsp) (frames.map dataMsg)
        (fw.place k ((k + 1) * fw.bl.sectorSize.toNat) .w4FwDataRsp) := by
    intro k
    by_cases hk : k < n
    · obtain ⟨frames, hframes⟩ := sends_sector h hk
      exact ⟨frames, fun _ => hframes⟩
    · exact ⟨[], fun hk' => absurd hk' hk⟩
  choose frames hframes using hsectors
  obtain ⟨m, hm⟩ := sends_image h (fun k hk => (hframes k hk).2) (n - 1) 0 (by omega)
    (fw.seqNo ^^^ 0x80)
  rw [Nat.zero_mul] at hm
  have hfirst : downloads 1 fw = some (fw.place 0 0 .w4UpdateSectRsp (fw.seqNo ^^^ 0x80),
      [(sectMsg fw.bl.baseAddress.toNat fw.bl.sectorSize.toNat 0).frame fw.seqNo]) := by
    unfold downloads
    rw [download_sign h hn hstate]
    rfl
  have hrange : List.range n = 0 :: List.range' (0 + 1) (n - 1) := by
    obtain ⟨j, rfl⟩ : ∃ j, n = j + 1 := ⟨n - 1, by omega⟩
    rw [range_eq_range', range'_succ, Nat.add_sub_cancel]
  have hmsgs : sectorMsgs fw.bl.baseAddress.toNat fw.bl.sectorSize.toNat frames (List.range n) ++
      [completeMsg] = sectMsg fw.bl.baseAddress.toNat fw.bl.sectorSize.toNat 0 ::
        ((frames 0).map dataMsg ++ (sectorMsgs fw.bl.baseAddress.toNat fw.bl.sectorSize.toNat frames
          (List.range' (0 + 1) (n - 1)) ++ [completeMsg])) := by
    rw [hrange, sectorMsgs_cons, cons_append, append_assoc]
  refine ⟨1 + m, _, _, frames, downloads_add hfirst hm, rfl,
    fun k hk => (hframes k hk).1, ?_, ?_⟩
  · rw [hmsgs]
    rfl
  · exact isChain_numbered fw.seqNo (_ :: _)

/-- An image of two sectors of three bytes. -/
def twoSectors : FwInfo where
  image := ⟨true, [], [], [10, 11, 12, 20, 21, 22], 6, 0⟩
  bl := ⟨0x80, [0x80, 0, 0, 0], 3, 0x5000⟩
  state := .w4SignDataRsp
  targetSector := 0
  seqNo := 0

theorem downloadsImage_two :
    ∃ m fw' sent frames, downloads m twoSectors = some (fw', sent) ∧ fw'.state = .w4CompleteRsp ∧
      (∀ k < 2, CutsInto (twoSectors.bytes (k * 3) ((k + 1) * 3)) (frames k)) ∧
      sent = numbered 0 (sectorMsgs 0x5000 3 frames (List.range 2) ++ [completeMsg]) ∧
      sent.IsChain fun p q => q.seqBit = !p.seqBit :=
  downloadsImage twoSectors 2 rfl (by decide) (by decide) (by decide) rfl rfl

end ExynosVendor.Nfc
