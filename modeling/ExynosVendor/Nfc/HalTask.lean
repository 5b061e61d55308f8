import ExynosVendor.Nfc.HalInfo

/-!
# The HAL task

The state machines of `hal_task.cc` and `hal_vs.cc`. Each handles one message.
Where it reads the payload of a packet it does so before it looks at anything
else, so that `HalInfo.reads` says what is read and the machines are given the
message with the payload in it. `HalInfo.requeues` says where one puts the
message itself back into the queue.
-/

namespace ExynosVendor.Nfc

/-! ## What is read -/

/-- `fw->state & FW_W4_FW_RSP`. -/
def FwState.w4FwRsp : FwState → Bool
  | .w4EnterUpdatemodeRsp | .w4HashDataRsp | .w4SignDataRsp | .w4UpdateSectRsp | .w4FwDataRsp
  | .w4CompleteRsp => true
  | _ => false

/-- `fw->state & FW_W4_NCI_RSP`. -/
def FwState.w4NciRsp : FwState → Bool
  | .w4NciPropFwCfg | .w4NciResetRsp | .w4NciInitRsp | .w4NciResetVtsRsp | .w4NciInitVtsRsp => true
  | _ => false

/-- `fw_read_payload` and `nci_read_payload`. -/
inductive PayloadKind where
  | fw
  | nci
  deriving DecidableEq

/-- **Which payload is read** for an event. -/
def HalInfo.reads (h : HalInfo) (event : HalEvent) : Option PayloadKind :=
  match h.state with
  | .init | .deinit | .open => if event = .read then some .fw else none
  | .fw =>
      if event = .read ∨ event = .coreInit then
        if h.fw.state.w4FwRsp then some .fw
        else if h.fw.state.w4NciRsp then some .nci
        else none
      else none
  | .vs => if event = .read ∧ h.vs.state ≠ .init then some .nci else none
  | .postinit | .service | .granted => if event = .read then some .nci else none
  | .close | .powercycle => none

/-- **Whether the message is put back**: `nfc_hal_vs_sm` does so with the end of
the initialisation, which is for a later state. -/
def HalInfo.requeues (h : HalInfo) (event : HalEvent) : Prop := h.state = .vs ∧ event = .coreInit

instance (h : HalInfo) (event : HalEvent) : Decidable (h.requeues event) :=
  inferInstanceAs (Decidable (_ ∧ _))

variable (ans : HalAnswers)

/-! ## Open -/

def fwRetSuccess : BitVec 8 := 0

def fwUpdateByForceVer : ℕ := 2

/-- The bootloader information of a response. -/
def readBootinfo (msg : HalMsg) : HalM Unit :=
  modifyInfo fun h =>
    let version := [msg.fwByte 0, msg.fwByte 1, msg.fwByte 2, msg.fwByte 3]
    { h with fw := { h.fw with bl :=
      { product := (productMap version).1
        version := version
        sectorSize := msg.fwHalf 4
        baseAddress := (productMap version).2.getD h.fw.bl.baseAddress } } }

/-- `bl->base_address = base`. -/
def setBaseAddress (base : BitVec 16) : HalM Unit :=
  modifyInfo fun h => { h with fw := { h.fw with bl := { h.fw.bl with baseAddress := base } } }

/-- `nfc_hal_open_sm`, behind the base address: the controller is started, by
an update of its firmware or without. -/
def openStart : HalM Unit := do
  setState .postinit
  clearFlag halFlagForceFwUpdate
  if ans.updateMode ≥ fwUpdateByForceVer ∨ ans.forceMode = 1 then fwForceUpdate ans
  else do
    deviceSetMode .on
    let h ← getInfo
    if h.fw.bl.product < snfcN7 then do
      halNciSendReset
      emit (.timerStart .nci 1000 .fwForceUpdate)
    else do
      setState .fw
      setFwState .w4NciPropFwCfg
      setFlag halFlagClkSet
      halNciSendPropFwCfg ans h.fw.bl.product
      emit (.timerStart .nci 1000 .fwForceUpdate)

/-- `nfc_hal_open_sm`, on a response. -/
def openRead (msg : HalMsg) : HalM Unit := do
  if msg.fwCode ≠ fwRetSuccess then nfcStackCback .openCplt .failed
  else do
    readBootinfo msg
    let h ← getInfo
    match if h.fw.bl.product = snfcUnknown then ans.baseAddress else some h.fw.bl.baseAddress with
    | none => nfcHalStateSwitch .completeFailed .open
    | some base => do
        setBaseAddress (if h.fw.bl.fromN74 then msg.fwHalf 12 else base)
        openStart ans

def nfcHalOpenSm (msg : HalMsg) : HalM Unit :=
  match msg.event with
  | .open => do
      deviceSetMode .bootloader
      fwSendCmd ans .getBootinfo []
  | .read => openRead ans msg
  | .complete => do
      deviceSetMode .on
      setState .postinit
      nfcStackCback .openCplt .ok
  | .completeFailed => do
      deviceSetMode .off
      nfcStackCback .openCplt .failed
  | _ => return

/-! ## Initialisation -/

/-- `nfc_hal_postinit_sm`, at `complete`. -/
def postinitComplete : HalM Unit := do
  setFlag (halFlagNtfTrnsError ||| halFlagRetryTrns)
  setState .service
  nfcStackCback .postInitCplt .ok

/-- `nfc_hal_postinit_sm`, on a packet of the stack. -/
def postinitWrite (pkt : NciPkt) : HalM Unit := do
  let h ← getInfo
  if pkt.gid = nciGidCore then
    if pkt.nciOid = nciCoreReset ∧ pkt.len = 1 then
      if h.has halFlagAlreadyReset then postinitComplete
      else do
        setFlag halFlagW4CoreResetRsp
        emit (.timerStart .nci 1000 .fwForceUpdate)
        halNciSend pkt
    else if pkt.nciOid = nciCoreInit ∧ (pkt.len = 0 ∨ pkt.len = 2) then
      if h.has halFlagAlreadyInit then postinitComplete
      else do
        setFlag halFlagW4CoreInitRsp
        emit (.timerStart .nci 1000 .nciInitTimeout)
        halNciSend pkt
    else halNciSend pkt
  else halNciSend pkt

/-- Whether a packet has the version of the RF registers. -/
def FwBlInfo.versionOf (bl : FwBlInfo) (pkt : NciPkt) : Prop :=
  pkt.gid = nciGidProp ∧
    pkt.nciOid = if bl.fromN74 then nciPropGetOptionMetaOid else nciPropGetRfregVer

instance (bl : FwBlInfo) (pkt : NciPkt) : Decidable (bl.versionOf pkt) :=
  inferInstanceAs (Decidable (_ ∧ _))

/-- `nfc_hal_postinit_sm`, on that version: the firmware is updated, or the RF
registers are. -/
def postinitVersion (pkt : NciPkt) : HalM Unit := do
  halVsSetRfregVersion pkt
  let h ← getInfo
  let found ← (if h.has halFlagForceFwUpdate then return false else nfcFwGetImage ans)
  if found then do
    deviceSetMode .bootloader
    setFwState .enterUpdateMode
    nfcHalStateSwitch .read .fw
  else do
    setVsState .init
    nfcHalStateSwitch .read .vs

/-- `nfc_hal_postinit_sm`, on a packet of the controller. -/
def postinitRead (pkt : NciPkt) : HalM Unit := do
  let h ← getInfo
  if h.fw.bl.versionOf pkt then postinitVersion ans pkt
  else do
    (if pkt.gid = nciGidCore then do
      (if pkt.nciOid = nciCoreReset then do
        clearFlag halFlagW4CoreResetRsp
        setFlag halFlagAlreadyReset
      else if pkt.nciOid = nciCoreInit then do
        clearFlag halFlagW4CoreInitRsp
        setFlag halFlagAlreadyInit
      else return)
      emit (.timerStop .nci)
    else return)
    nfcDataCallback pkt

def nfcHalPostinitSm (msg : HalMsg) : HalM Unit :=
  match msg.event with
  | .coreInit => do
      let h ← getInfo
      halVsNciSend (if h.fw.bl.fromN74 then nciPropGetOptionMetaOid else nciPropGetRfregVer) []
  | .write => postinitWrite msg.nciPacket
  | .read => postinitRead ans msg.nciPacket
  | .complete => postinitComplete
  | .completeFailed => nfcStackCback .postInitCplt .failed
  | .powerCycle => do
      emit .deviceClose
      nfcHalStateSwitch .powerCycle .powercycle
  | _ => return

/-! ## Firmware -/

/-- `FW_W4_NCI_PROP_FW_CFG`: the statuses that are accepted. -/
def fwCfgAccepted (status : BitVec 8) : Prop :=
  status = nciStatusOk ∨ status = nciStatusESyntax ∨ status = nciClockStatusSyntaxError ∨
    status = nciClockStatusMismatched ∨ status = nciClockStatusFull

instance (status : BitVec 8) : Decidable (fwCfgAccepted status) :=
  inferInstanceAs (Decidable (_ ∨ _))

/-- `(flag & HAL_FLAG_FORCE_FW_UPDATE) && !(flag & (HAL_FLAG_W4_CORE_RESET_RSP |
HAL_FLAG_W4_CORE_INIT_RSP))`: the firmware is updated before a reset. -/
def HalInfo.forcedFirst (h : HalInfo) : Prop :=
  h.has halFlagForceFwUpdate ∧ ¬ h.has (halFlagW4CoreResetRsp ||| halFlagW4CoreInitRsp)

instance (h : HalInfo) : Decidable h.forcedFirst := inferInstanceAs (Decidable (_ ∧ _))

/-- `FW_W4_NCI_PROP_FW_CFG`, behind an accepted status. -/
def fwCfgRsp (event : HalEvent) (status : BitVec 8) : HalM Unit := do
  (if status = nciStatusESyntax then nfcHalFwSendFwStatus fwUpdateStatusError else return)
  let h ← getInfo
  if snfcN7 ≤ h.fw.bl.product then
    if status = nciClockStatusFull then do
      nfcHalStateSwitch event .fw
      fwForceUpdate ans
    else if status = nciClockStatusMismatched then do
      deviceSetMode .off
      deviceSetMode .on
      nfcHalStateSwitch event .fw
      setFwState .w4NciPropFwCfg
      halNciSendPropFwCfg ans h.fw.bl.product
    else do
      halNciSendReset
      setFwState (if h.has halFlagClkSet ∨ h.forcedFirst then .w4NciResetVtsRsp
        else .w4NciResetRsp)
  else if h.forcedFirst then nfcHalStateSwitch .complete .open
  else do
    halNciSendReset
    setFwState .w4NciResetRsp

/-- `FW_W4_NCI_PROP_FW_CFG`. -/
def fwPropFwCfg (event : HalEvent) (pkt : NciPkt) : HalM Unit :=
  if ¬ pkt.answers nciGidProp nciPropFwCfg then fwForceUpdate ans
  else if ¬ fwCfgAccepted pkt.status then return
  else fwCfgRsp ans event pkt.status

/-- `FW_W4_NCI_RESET_RSP`. The flag that is tested has just been cleared. -/
def fwNciReset (pkt : NciPkt) : HalM Unit :=
  if ¬ (pkt.answers nciGidCore nciCoreReset ∧ pkt.status = nciStatusOk) then
    nfcStackCback .postInitCplt .failed
  else do
    clearFlag halFlagW4CoreResetRsp
    let h ← getInfo
    if h.has halFlagW4CoreResetRsp then do
      setState .postinit
      nfcDataCallback pkt
    else do
      emit (.timerStop .nci)
      setFwState .w4NciInitRsp
      emit (.timerStart .nci 1000 .nciInitTimeout)
      halNciSendInit

/-- `FW_W4_NCI_INIT_RSP`. -/
def fwNciInit (event : HalEvent) (pkt : NciPkt) : HalM Unit :=
  if ¬ (pkt.answers nciGidCore nciCoreInit ∧ pkt.status = nciStatusOk) then
    nfcStackCback .postInitCplt .failed
  else do
    clearFlag halFlagW4CoreInitRsp
    nfcDataCallback pkt
    let h ← getInfo
    if h.has halFlagW4CoreInitRsp then setState .postinit
    else do
      setFwState .none
      setVsState .init
      nfcHalStateSwitch event .vs

/-- The notification of a fatal error. -/
def NciPkt.isFatal (p : NciPkt) : Prop :=
  p.mt = nciMtNtf ∧ p.gid = nciGidProp ∧ p.nciOid = 0x3F ∧ p.len = 1 ∧ p.status = 0x07

instance (p : NciPkt) : Decidable p.isFatal := inferInstanceAs (Decidable (_ ∧ _))

/-- `FW_W4_NCI_RESET_VTS_RSP`. -/
def fwNciResetVts (pkt : NciPkt) : HalM Unit :=
  if pkt.isFatal then do
    deviceSetMode .off
    fwForceUpdate ans
  else if ¬ (pkt.answers nciGidCore nciCoreReset ∧ pkt.status = nciStatusOk) then
    nfcStackCback .postInitCplt .failed
  else do
    setFwState .w4NciInitVtsRsp
    emit (.timerStart .nci 1000 .nciInitTimeout)
    halNciSendInit

/-- `FW_W4_NCI_INIT_VTS_RSP`. A failure is reported, and the open goes on. -/
def fwNciInitVts (pkt : NciPkt) : HalM Unit := do
  (if ¬ (pkt.answers nciGidCore nciCoreInit ∧ pkt.status = nciStatusOk) then
    nfcStackCback .postInitCplt .failed
  else return)
  nfcHalStateSwitch .complete .open
  clearFlag halFlagClkSet

/-- `nfc_hal_fw_sm`, on a response of the bootloader that is a success, or in
the state before the first. -/
def fwDownload : HalM Unit := do
  let h ← getInfo
  (if h.fw.state = .w4EnterUpdatemodeRsp then nfcHalFwSendFwStatus fwUpdateStatusStart else return)
  if h.fw.state = .w4CompleteRsp then do
    nfcFwFreeImage
    deviceSetMode .off
    deviceSetMode .on
    halNciSendPropFwCfg ans h.fw.bl.product
    setFwState .w4NciPropFwCfg
  else sendFrames (nfcHalFwDownload ans.written h.fw)

/-- `nfc_hal_fw_sm`, by its state. -/
def fwByState (msg : HalMsg) : HalM Unit := do
  let h ← getInfo
  match h.fw.state with
  | .w4NciPropFwCfg => fwPropFwCfg ans msg.event msg.nciPacket
  | .w4NciResetRsp => fwNciReset msg.nciPacket
  | .w4NciInitRsp => fwNciInit msg.event msg.nciPacket
  | .w4NciResetVtsRsp => fwNciResetVts ans msg.nciPacket
  | .w4NciInitVtsRsp => fwNciInitVts msg.nciPacket
  | .none => return
  | _ => fwDownload ans

def nfcHalFwSm (msg : HalMsg) : HalM Unit := do
  if msg.event = .read ∨ msg.event = .coreInit then do
    (if msg.event = .coreInit then deviceSetMode .bootloader else return)
    emit (.timerStop .nci)
    let h ← getInfo
    (if h.fw.state.w4FwRsp then emit (.timerStart .nci 5000 .nfcHalFwTimeout) else return)
    if h.fw.state.w4FwRsp ∧ msg.fwCode ≠ fwRetSuccess then do
      nfcFwFreeImage
      nfcHalFwSendFwStatus fwUpdateStatusError
    else fwByState ans msg
  else return

/-! ## RF registers -/

/-- `nfc_hal_vs_sm`, at `vs_work_around`. -/
def vsWorkAround : HalM Unit := do
  let h ← getInfo
  (if h.fwUpdateState = fwUpdateStatusStart then nfcHalFwSendFwStatus fwUpdateStatusError
  else return)
  halNciSendClearLmrt
  setVsState .w4Complete

/-- The registers are sent from the first on. -/
def vsRestart : HalM Unit :=
  modifyInfo fun h => { h with vs := { h.vs with rfregid := 0, checkSum := 0 } }

/-- `VS_W4_FILE_RFREG_RSP`. -/
def vsFileRfreg (pkt : NciPkt) : HalM Unit := do
  if ¬ (pkt.answers nciGidProp nciPropSetRfreg ∧ pkt.status = nciStatusOk) ∧
      pkt.nciOid ≠ nciPropStartRfreg then do
    halVsNciSend nciPropStopRfreg []
    setVsState .w4StopRfregRsp
  else do
    let continues ← halVsRfregUpdate
    if continues then return
    else do
      let h ← getInfo
      halVsNciSend nciPropSetRfregVer h.vs.rfregVersion
      setVsState .w4SetRfregVerRsp

/-- `VS_W4_STOP_RFREG_RSP`. -/
def vsStopRfreg (pkt : NciPkt) : HalM Unit := do
  let h ← getInfo
  if ¬ (pkt.answers nciGidProp nciPropStopRfreg ∧ pkt.status = nciStatusOk) then
    if h.count < 2 then do
      vsRestart
      halVsNciSend nciPropStartRfreg []
      setVsState .w4StartRfregRsp
      modifyInfo fun h => { h with count := h.count + 1 }
    else vsWorkAround
  else do
    (if h.fwUpdateState = fwUpdateStatusStart then nfcHalFwSendFwStatus fwUpdateStatusCompleted
    else return)
    vsWorkAround

/-- `nfc_hal_vs_sm`, by its state. -/
def vsByState (pkt : NciPkt) : HalM Unit := do
  let h ← getInfo
  match h.vs.state with
  | .init => do
      vsRestart
      let update ← halVsCheckRfregUpdate ans
      if update then do
        halVsNciSend nciPropStartRfreg []
        setVsState .w4StartRfregRsp
      else vsWorkAround
  | .w4StartRfregRsp =>
      if ¬ (pkt.answers nciGidProp nciPropStartRfreg ∧ pkt.status = nciStatusOk) then vsWorkAround
      else do
        setVsState .w4FileRfregRsp
        vsFileRfreg pkt
  | .w4FileRfregRsp => vsFileRfreg pkt
  | .w4SetRfregVerRsp => do
      halVsNciSend nciPropStopRfreg (LittleEndian.encode 2 (h.vs.checkSum &&& 0xFFFF).toNat)
      setVsState .w4StopRfregRsp
  | .w4StopRfregRsp => vsStopRfreg pkt
  | .w4Complete => nfcHalStateSwitch .complete .postinit
  | _ => return

def nfcHalVsSm (msg : HalMsg) : HalM Unit :=
  match msg.event with
  | .read => vsByState ans msg.nciPacket
  | _ => return

/-! ## Service -/

def nfcHalServiceSm (msg : HalMsg) : HalM Unit :=
  match msg.event with
  | .coreInit => do
      setVsState .init
      nfcHalStateSwitch .coreInit .vs
  | .write => do
      match ← nfcHalPrehandler ans msg.nciPacket with
      | some pkt => halNciSend pkt
      | none => return
  | .read => do
      halUpdateSleepTimer
      match ← nfcHalPrehandler ans msg.nciPacket with
      | some pkt => nfcDataCallback pkt
      | none => return
  | .controlGranted => nfcHalStateSwitch .controlGranted .granted
  | _ => return

/-- `nfc_hal_grant_sm`. Nothing is put into `nci_q`, and there is no
`grant_cback`. -/
def nfcHalGrantSm (msg : HalMsg) : HalM Unit :=
  match msg.event with
  | .read => emit .fault
  | .controlGranted => do
      nfcStackCback .releaseControl .ok
      setState .service
  | _ => return

def nfcHalPowerSm (msg : HalMsg) : HalM Unit :=
  match msg.event with
  | .powerCycle =>
      if ans.opens then do
        emit .deviceOpen
        deviceSetMode .bootloader
        nfcHalStateSwitch .open .open
      else return
  | _ => return

/-- `nfc_hal_task`, on a message. -/
def nfcHalTask (msg : HalMsg) : HalM Unit := do
  let h ← getInfo
  match h.state with
  | .init | .deinit | .open => nfcHalOpenSm ans msg
  | .fw => nfcHalFwSm ans msg
  | .vs => nfcHalVsSm ans msg
  | .postinit => nfcHalPostinitSm ans msg
  | .service => nfcHalServiceSm ans msg
  | .granted => nfcHalGrantSm msg
  | .powercycle => nfcHalPowerSm ans msg
  | .close => return

/-- The context behind a message, and what is done for it. -/
def HalInfo.handle (h : HalInfo) (msg : HalMsg) : HalInfo × List HalEffect :=
  let run := (nfcHalTask ans msg ⟨h, []⟩).2
  (run.info, run.out)

end ExynosVendor.Nfc
