import ExynosVendor.Nfc.FwDownload
import ExynosVendor.Nfc.HalMsg
import ExynosVendor.Nfc.OsiTimer

/-!
# The context of the HAL

`nfc_hal_info` of `hal.h`, and the functions of `hal.cc`, `hal_nci.cc`,
`hal_fw.cc` and `hal_vs.cc` that the state machines are made of. What they
compute is in the context; what they do to the device, to the stack and to the
messages is noted as an effect, for a thread to carry out one after the other.
-/

namespace ExynosVendor.Nfc

/-! ## Products -/

def snfcUnknown : ℕ := 0x10

def snfcN7 : ℕ := 0x70

def snfcN74 : ℕ := 0x74

def snfcN8 : ℕ := 0x80

/-- `_n3_bl_ver_list`: four bytes of version, the product, and the high byte of
the base address. -/
def n3BlVerList : List (List (BitVec 8) × ℕ × BitVec 8) :=
  [([0x00, 0x00, 0x00, 0x00], snfcUnknown, 0x80), ([0x05, 0x00, 0x03, 0x00], 0x30, 0x80)]

/-- `_n5_bl_ver_list`, `_n7_bl_ver_list` and `_n8_bl_ver_list`, of which the
third byte is the customer key and is not compared. -/
def blVerLists : List (List (BitVec 8) × ℕ × BitVec 8) :=
  [([0x00, 0x00, 0x00, 0x00], snfcUnknown, 0x50), ([0x05, 0x00, 0x00, 0x00], 0x51, 0x50),
    ([0x05, 0x00, 0x00, 0x01], 0x52, 0x30), ([0x05, 0x00, 0x00, 0x02], 0x53, 0x30),
    ([0x05, 0x00, 0x00, 0x03], 0x61, 0x30), ([0x05, 0x00, 0x00, 0x05], 0x62, 0x30),
    ([0x05, 0x00, 0x00, 0x07], 0x63, 0x30),
    ([0x00, 0x00, 0x00, 0x00], snfcUnknown, 0x30), ([0x07, 0x00, 0x00, 0x00], snfcN7, 0x30),
    ([0x07, 0x00, 0x00, 0x00], 0x71, 0x30), ([0x74, 0x00, 0x00, 0x00], snfcN74, 0x20),
    ([0x00, 0x00, 0x00, 0x00], snfcUnknown, 0x00), ([0x80, 0x00, 0x00, 0x00], snfcN8, 0x00),
    ([0x81, 0x00, 0x00, 0x00], 0x81, 0x00), ([0x82, 0x00, 0x00, 0x00], 0x82, 0x00)]

/-- `product_map`, and the base address it stores. -/
def productMap (ver : List (BitVec 8)) : ℕ × Option (BitVec 16) :=
  match n3BlVerList.find? fun e => e.1 = ver with
  | some (_, product, base) => (product, some (base ++ (0 : BitVec 8)))
  | none =>
      match blVerLists.find? fun e => e.1.eraseIdx 2 = ver.eraseIdx 2 with
      | some (_, product, base) => (product, some (base ++ (0 : BitVec 8)))
      | none => (snfcUnknown, none)

/-! ## The context -/

/-- `eNFC_DEV_MODE`. -/
inductive DevMode where
  | off
  | on
  | bootloader
  deriving DecidableEq

/-- `eHAL_STATE`. -/
inductive HalState where
  | init
  | deinit
  | open
  | fw
  | vs
  | postinit
  | service
  | granted
  | close
  | powercycle
  deriving DecidableEq

/-- `eNFC_HAL_VS_STATE`. -/
inductive VsState where
  | init
  | w4GetRfregVerRsp
  | w4SetRfregVerRsp
  | w4StartRfregRsp
  | w4StopRfregRsp
  | w4FileRfregRsp
  | w4CfgRfregRsp
  | w4PropRsp
  | w4Complete
  deriving DecidableEq

/-- `tNFC_HAL_VS_INFO`. -/
structure VsInfo where
  state : VsState
  rfregid : ℕ
  /-- `rfreg_version`. -/
  rfregVersion : List (BitVec 8)
  /-- `check_sum`. -/
  checkSum : BitVec 32
  /-- `rfreg`, of `rfreg_size` bytes. -/
  rfreg : List (BitVec 8)
  deriving DecidableEq

/-- The events of the stack. -/
inductive StackEvent where
  | openCplt
  | closeCplt
  | postInitCplt
  | releaseControl
  | error
  deriving DecidableEq

/-- Their statuses. -/
inductive StackStatus where
  | ok
  | failed
  | errTransport
  deriving DecidableEq

/-- The timers of the HAL. -/
inductive HalTimer where
  | nci
  | sleep
  deriving DecidableEq

/-- `nfc_hal_info`, and the variables beside it. -/
structure HalInfo where
  state : HalState
  fw : FwInfo
  vs : VsInfo
  /-- `count`, of `nfc_hal_vs_sm`. -/
  count : ℕ
  /-- `fw_update_state`. -/
  fwUpdateState : BitVec 8
  flag : BitVec 32
  /-- `nci_last_pkt`. -/
  nciLastPkt : Option (List (BitVec 8))
  /-- `dev_state`. -/
  devState : DevMode
  /-- `cfg.sleep_timeout`. -/
  sleepTimeout : ℕ
  /-- `cfg.override_timeout`. -/
  overrideTimeout : ℕ
  deriving DecidableEq

/-- What a state machine does to others than the context. -/
inductive HalEffect where
  /-- `device_set_mode`. -/
  | setMode (mode : DevMode)
  /-- `device_write` of a packet. -/
  | write (data : List (BitVec 8))
  /-- `device_write` of a frame. -/
  | frame (pkt : FwPkt)
  /-- `OSI_timer_start`. -/
  | timerStart (timer : HalTimer) (timeout : ℕ) (callback : TimerCallback)
  /-- `OSI_timer_stop`. -/
  | timerStop (timer : HalTimer)
  /-- `nfc_stack_cback`. -/
  | stack (event : StackEvent) (status : StackStatus)
  /-- `nfc_data_callback`. -/
  | data (data : List (BitVec 8))
  /-- `nfc_hal_state_switch`, with the event of the message. -/
  | stateSwitch (event : HalEvent) (state : HalState)
  /-- `device_close` and `device_open`. -/
  | deviceClose
  | deviceOpen
  /-- A read outside the image, or a call of no function. -/
  | fault
  deriving DecidableEq

/-- What the functions of the HAL find outside. -/
structure HalAnswers where
  /-- How many bytes of so many the device takes. -/
  written : ℕ → ℕ
  /-- The image that `nfc_fw_get_image` finds. -/
  fwImage : Option FwImage
  /-- The RF registers that `hal_vs_get_rf_image` finds. -/
  rfImage : Option (List (BitVec 8))
  /-- `CFG_FW_BASE_ADDRESS`. -/
  baseAddress : Option (BitVec 16)
  /-- `CFG_UPDATE_MODE`, or 0. -/
  updateMode : ℕ
  /-- `check_force_fw_update_mode`. -/
  forceMode : ℕ
  /-- The clock configuration of `get_clock_info`. -/
  clock : List (BitVec 8)
  /-- `CFG_SLEEP_TIMEOUT`. -/
  sleepTimeout : Option ℕ
  /-- Whether `device_open` succeeds. -/
  opens : Bool

/-- A device that takes everything, and no images. -/
def HalAnswers.plain : HalAnswers where
  written size := size
  fwImage := none
  rfImage := none
  baseAddress := none
  updateMode := 0
  forceMode := 0
  clock := []
  sleepTimeout := none
  opens := true

/-- The context, and what has been done. -/
structure HalRun where
  info : HalInfo
  out : List HalEffect

/-- A function of the HAL. -/
abbrev HalM := StateM HalRun

/-- Something is done outside. -/
def emit (e : HalEffect) : HalM Unit := modify fun s => { s with out := s.out ++ [e] }

/-- The context. -/
def getInfo : HalM HalInfo := do return (← get).info

/-- A change of it. -/
def modifyInfo (f : HalInfo → HalInfo) : HalM Unit := modify fun s => { s with info := f s.info }

/-! ## Flags -/

def halFlagMaskUsingTimer : BitVec 32 := 0x000F

def halFlagW4CoreResetRsp : BitVec 32 := 0x0001

def halFlagW4CoreInitRsp : BitVec 32 := 0x0002

def halFlagPropReset : BitVec 32 := 0x0010

def halFlagClkSet : BitVec 32 := 0x0020

def halFlagPropOneTimer : BitVec 32 := 0x0040

def halFlagAlreadyReset : BitVec 32 := 0x0100

def halFlagAlreadyInit : BitVec 32 := 0x0200

def halFlagForceFwUpdate : BitVec 32 := 0x1000

def halFlagNtfTrnsError : BitVec 32 := 0x2000

def halFlagRetryTrns : BitVec 32 := 0x4000

/-- `nfc_hal_info.flag & mask`. -/
def HalInfo.has (h : HalInfo) (mask : BitVec 32) : Prop := h.flag &&& mask ≠ 0

instance (h : HalInfo) (mask : BitVec 32) : Decidable (h.has mask) :=
  inferInstanceAs (Decidable (_ ≠ _))

/-- `nfc_hal_info.flag |= mask`. -/
def setFlag (mask : BitVec 32) : HalM Unit :=
  modifyInfo fun h => { h with flag := h.flag ||| mask }

/-- `nfc_hal_info.flag &= ~mask`. -/
def clearFlag (mask : BitVec 32) : HalM Unit :=
  modifyInfo fun h => { h with flag := h.flag &&& ~~~mask }

/-! ## The device -/

def deviceSetMode (mode : DevMode) : HalM Unit := do
  emit (.setMode mode)
  modifyInfo fun h =>
    { h with
      fw := if mode = .bootloader ∧ mode ≠ h.devState then { h.fw with seqNo := 0 } else h.fw
      devState := mode }

def nfcStackCback (event : StackEvent) (status : StackStatus) : HalM Unit :=
  emit (.stack event status)

def nfcDataCallback (pkt : NciPkt) : HalM Unit := emit (.data pkt.bytes)

def nfcHalStateSwitch (event : HalEvent) (state : HalState) : HalM Unit :=
  emit (.stateSwitch event state)

def halUpdateSleepTimer : HalM Unit := do
  let h ← getInfo
  if h.has halFlagMaskUsingTimer then return
  else if h.has halFlagPropOneTimer then emit (.timerStart .sleep h.overrideTimeout .halSleep)
  else emit (.timerStart .sleep h.sleepTimeout .halSleep)

/-- `__send_to_device`, and the copy in `nci_last_pkt`. -/
def sendToDevice (data : List (BitVec 8)) : HalM Unit := do
  halUpdateSleepTimer
  modifyInfo fun h =>
    { h with nciLastPkt := h.nciLastPkt.map fun last => data ++ last.drop data.length }
  emit (.write data)

def halNciSend (pkt : NciPkt) : HalM Unit := sendToDevice pkt.bytes

def halNciSendReset : HalM Unit := halNciSend ⟨nciMtCmd ||| nciGidCore, nciCoreReset, 1, [1]⟩

def halNciSendInit : HalM Unit := halNciSend ⟨nciMtCmd ||| nciGidCore, nciCoreInit, 0, []⟩

def halNciSendClearLmrt : HalM Unit := halNciSend ⟨nciMtCmd ||| nciGidRfManage, 0x01, 2, [0, 0]⟩

/-- `hal_nci_send_prop_fw_cfg`. The product is a byte here. -/
def halNciSendPropFwCfg (ans : HalAnswers) (product : ℕ) : HalM Unit :=
  let group := product % 256 / 16 * 16
  let len := if group = snfcN7 ∨ group = snfcN8 then 1 else 3
  halNciSend ⟨nciMtCmd ||| nciGidProp, nciPropFwCfg, len, ans.clock⟩

def halVsNciSend (oid : BitVec 8) (data : List (BitVec 8)) : HalM Unit :=
  halNciSend ⟨nciMtCmd ||| nciGidProp, oid, BitVec.ofNat 8 data.length, data⟩

/-! ## The bootloader -/

/-- The frames of a part of the download, unless it reads outside the image. -/
def sendFrames (sent : Option (FwInfo × List FwPkt)) : HalM Unit :=
  match sent with
  | none => emit .fault
  | some (fw, pkts) => do
      modifyInfo fun h => { h with fw := fw }
      modify fun s => { s with out := s.out ++ pkts.map .frame }

/-- `nfc_fw_send_cmd`. -/
def fwSendCmd (ans : HalAnswers) (cmd : FwBlCmd) (param : List (BitVec 8)) : HalM Unit := do
  let h ← getInfo
  sendFrames ((nfcFwSendCmd ans.written h.fw cmd param).map (·.2))

def nfcFwFreeImage : HalM Unit :=
  modifyInfo fun h => { h with fw := { h.fw with image := FwImage.free } }

/-- `fw->state = state`. -/
def setFwState (state : FwState) : HalM Unit :=
  modifyInfo fun h => { h with fw := { h.fw with state := state } }

/-- `nfc_hal_info.state = state`. -/
def setState (state : HalState) : HalM Unit := modifyInfo fun h => { h with state := state }

def nfcFwGetImage (ans : HalAnswers) : HalM Bool := do
  match ans.fwImage with
  | some image => do
      modifyInfo fun h => { h with fw := { h.fw with image := image } }
      return true
  | none => do
      modifyInfo fun h => { h with fw := { h.fw with image := { h.fw.image with binary := false } } }
      return false

def fwForceUpdate (ans : HalAnswers) : HalM Unit := do
  deviceSetMode .bootloader
  let found ← nfcFwGetImage ans
  if found then do
    let h ← getInfo
    fwSendCmd ans .enterUpdatemode
      (LittleEndian.encode 2 h.fw.image.hashCode.length ++
        LittleEndian.encode 2 h.fw.image.signature.length)
    setFwState .w4EnterUpdatemodeRsp
    setFlag halFlagForceFwUpdate
    setState .fw
  else return

def fwUpdateStatusStart : BitVec 8 := 1

def fwUpdateStatusCompleted : BitVec 8 := 2

def fwUpdateStatusError : BitVec 8 := 3

def nfcHalFwSendFwStatus (status : BitVec 8) : HalM Unit := do
  modifyInfo fun h => { h with fwUpdateState := status }
  nfcDataCallback ⟨0x6F, 0xFF, 1, [status]⟩

/-! ## RF registers -/

/-- `SNFC_N74 <= bl->version[0]`. -/
def FwBlInfo.fromN74 (bl : FwBlInfo) : Prop := snfcN74 ≤ (bl.version.getD 0 0).toNat

instance (bl : FwBlInfo) : Decidable bl.fromN74 := inferInstanceAs (Decidable (_ ≤ _))

/-- So many bytes from a place on, as `memcpy` reads them. -/
def slice (data : List (BitVec 8)) (i n : ℕ) : List (BitVec 8) :=
  (List.range n).map fun j => data.getD (i + j) 0

def halVsSetRfregVersion (pkt : NciPkt) : HalM Unit :=
  modifyInfo fun h =>
    { h with vs := { h.vs with
        rfregVersion :=
          if h.fw.bl.fromN74 then slice pkt.payload 5 5 ++ slice pkt.payload 12 3
          else slice pkt.payload 1 8 } }

/-- `hal_vs_check_rfreg_update`. The version of an image is in its last
sixteen bytes. -/
def halVsCheckRfregUpdate (ans : HalAnswers) : HalM Bool := do
  match ans.rfImage with
  | none => return false
  | some rfreg => do
      let last := rfreg.drop (rfreg.length - 16)
      modifyInfo fun h =>
        { h with vs := { h.vs with
            rfreg := rfreg
            rfregVersion := slice last 5 5 ++ slice last 12 3 } }
      return true

def rfregSectionSize : ℕ := 252

/-- The sum of the words, the last one padded with zeros. -/
def wordSum : List (BitVec 8) → BitVec 32
  | a :: b :: c :: d :: rest => BitVec.ofNat 32 (LittleEndian.decode [a, b, c, d]) + wordSum rest
  | rest => BitVec.ofNat 32 (LittleEndian.decode rest)

/-- `hal_vs_rfreg_update`: whether there was a section left to send. Of the registers as they lie
in their file it is `RfFile.halVsRfregUpdate`. -/
def halVsRfregUpdate : HalM Bool := do
  let h ← getInfo
  let next := h.vs.rfregid * rfregSectionSize
  if h.vs.rfreg.length ≤ next then return false
  else do
    let data := (h.vs.rfreg.drop next).take rfregSectionSize
    modifyInfo fun h =>
      { h with vs := { h.vs with
          checkSum := h.vs.checkSum + wordSum data
          rfregid := h.vs.rfregid + 1 } }
    halVsNciSend nciPropSetRfreg (BitVec.ofNat 8 h.vs.rfregid :: data)
    return true

/-- `vs->state = state`. -/
def setVsState (state : VsState) : HalM Unit :=
  modifyInfo fun h => { h with vs := { h.vs with state := state } }

/-! ## The stack's packets -/

def setSleepTimeout (ans : HalAnswers) (option timeout : ℕ) : HalM Unit :=
  modifyInfo fun h =>
    let h := { h with flag := h.flag &&& ~~~halFlagPropOneTimer, overrideTimeout := 0 }
    if option = 0 then { h with sleepTimeout := ans.sleepTimeout.getD timeout }
    else if option = 1 then
      { h with overrideTimeout := timeout, flag := h.flag ||| halFlagPropOneTimer }
    else if option = 2 then { h with sleepTimeout := timeout }
    else h

/-- The timeout that `NCI_PROP_SET_SLEEP_TIME` asks for. -/
def sleepTimeOf (pkt : NciPkt) : ℕ :=
  (pkt.payload.getD 0 0).toNat * 1000 +
    if pkt.len.toNat > 1 then (pkt.payload.getD 1 0).toNat * 1000 * 60 else 0

/-- `nfc_hal_prehandler`, on a notification. -/
def prehandleNtf (pkt : NciPkt) : HalM Bool := do
  let h ← getInfo
  if pkt.gid = nciGidProp then
    if pkt.nciOid = nciCoreReset then do
      nfcStackCback .error .errTransport
      return false
    else if pkt.nciOid = nciPropAgain then
      match h.nciLastPkt with
      | some last => do
          halUpdateSleepTimer
          emit (.write (last.take ((last.getD 2 0).toNat + nciHdrSize)))
          return false
      | none => return true
    else return true
  else return true

/-- `nfc_hal_prehandler`, on a command. -/
def prehandleCmd (ans : HalAnswers) (pkt : NciPkt) : HalM Bool := do
  if pkt.gid = nciGidProp then
    if pkt.nciOid = nciPropWrReset then do
      halNciSendReset
      setFlag halFlagPropReset
      return false
    else if pkt.nciOid = nciPropSetSleepTime then do
      (if pkt.len = 0 then setSleepTimeout ans 0 5000
      else
        setSleepTimeout ans (if pkt.len.toNat > 2 then (pkt.payload.getD 2 0).toNat else 1)
          (sleepTimeOf pkt))
      halUpdateSleepTimer
      nfcDataCallback ⟨nciMtRsp ||| nciGidProp, pkt.nciOid, 1, [nciStatusOk]⟩
      return false
    else return true
  else return true

/-- `nfc_hal_prehandler`: the packet that goes on, if any. -/
def nfcHalPrehandler (ans : HalAnswers) (pkt : NciPkt) : HalM (Option NciPkt) := do
  if pkt.mt = nciMtNtf then do
    let goes ← prehandleNtf pkt
    return if goes then some pkt else none
  else if pkt.mt = nciMtCmd then do
    let goes ← prehandleCmd ans pkt
    return if goes then some pkt else none
  else if pkt.mt = nciMtRsp ∧ pkt.gid = nciGidCore ∧ pkt.nciOid = nciCoreReset then
    return some { pkt with oct0 := nciMtRsp ||| nciGidProp, oid := nciPropWrReset }
  else return some pkt

end ExynosVendor.Nfc
