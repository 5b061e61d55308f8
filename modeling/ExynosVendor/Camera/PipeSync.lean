import ExynosVendor.Common.Run
import Mathlib.Data.List.Perm.Basic
import Mathlib.Data.Int.Notation

/-!
# The sync pipe of two cameras

`ExynosCameraPipeSync`. The frames of the master and of the slave come in one
input queue. A frame that finds its pair in the queue of the other camera goes
out with it, one that finds none waits in the queue of its own. What waits too
long is cleaned, by its age or by count, and goes out as well.

A frame is an object of its own, known by `id`. What `m_run` has popped and
what `stop` has released from the input queue are kept beside the queues.
-/

namespace ExynosVendor.Camera

/-- `frame_type_t`. -/
inductive FrameType where
  | base
  | others
  | preview
  | previewFront
  | reprocessing
  | vision
  | internal
  | previewSlave
  | previewDualMaster
  | previewDualSlave
  | reprocessingSlave
  | reprocessingDualMaster
  | reprocessingDualSlave
  | internalSlave
  | transition
  | transitionSlave
  | internalSensorTransition
  | reprocessingSensorTransition
  | reprocessingInternalSensorTransition
  deriving DecidableEq

/-- `frame_status_t`. -/
inductive FrameState where
  | ready
  | running
  | complete
  | skipped
  | invalid
  deriving DecidableEq

inductive DualOperationMode where
  | none
  | master
  | slave
  | sync
  deriving DecidableEq

/-- `sync_type_t`. -/
inductive SyncType where
  | init
  | fifo
  | frameCount
  | timeStamp
  | max
  deriving DecidableEq

inductive MakeFrameType where
  | oneMaster
  | pair
  deriving DecidableEq

/-- The pipes of this class. -/
inductive SyncPipeId where
  | sync
  | syncReprocessing
  | bayerSync
  deriving DecidableEq

/-- What a master frame keeps of its slave: the metadata in its second node,
or the pair frame. -/
structure SlaveOf where
  id : ℕ
  cameraId : ℤ
  timeStampBoot : ℕ
  deriving DecidableEq

/-- `ExynosCameraFrame`, as the sync pipe reads and writes it. -/
structure PipeFrame where
  id : ℕ
  cameraId : ℤ
  frameType : FrameType
  frameState : FrameState
  dualOperationMode : DualOperationMode
  frameCount : ℕ
  /-- In nanoseconds. -/
  timeStampBoot : ℕ
  maxFrameIndex : ℤ
  /-- The source buffers of this pipe, negative where there is none, and
  whether they were set to `ENTITY_BUFFER_STATE_ERROR`. -/
  srcBuffer : ℤ
  srcBuffer2 : ℤ
  srcBufferError : Bool
  /-- `getRequest(PIPE_HWFC_JPEG_DST_REPROCESSING)`. -/
  hwfcRequest : Bool
  /-- Whether `setDstBufferState` finds the entity of this pipe. -/
  dstEntity : Bool
  dstBuffer : Option ℤ
  dstBuffer2 : Option ℤ
  slaveOf : Option SlaveOf
  deriving DecidableEq

namespace PipeFrame

/-- `ns2ms(getTimeStampBoot())`. -/
def ms (f : PipeFrame) : ℕ := f.timeStampBoot / 1000000

/-- What of a frame no cleaning changes. -/
def core (f : PipeFrame) : ℕ × ℤ × ℕ × Option SlaveOf :=
  (f.id, f.cameraId, f.timeStampBoot, f.slaveOf)

/-- As its master keeps it. -/
def asSlave (f : PipeFrame) : SlaveOf := ⟨f.id, f.cameraId, f.timeStampBoot⟩

end PipeFrame

def m_setFrameState (pipeId : SyncPipeId) (f : PipeFrame) (state : FrameState) : PipeFrame :=
  if pipeId = .bayerSync then f else { f with frameState := state }

/-- The output queue, and what is remembered of the last output. -/
structure SyncOutput where
  outputFrameQ : List PipeFrame
  lastTimeStamp : ℕ
  lastFrameCount : ℕ
  lastFrameType : FrameType

/-- The types whose time stamps are not remembered. -/
def FrameType.isSlaveType : FrameType → Bool
  | .previewDualSlave | .reprocessingDualSlave | .internalSlave => true
  | _ => false

def m_pushFrameToOutputQ (pipeId : SyncPipeId) (o : SyncOutput) (f : PipeFrame) : SyncOutput :=
  match f.frameState with
  | .skipped | .invalid => { o with outputFrameQ := o.outputFrameQ ++ [f] }
  | .ready | .running | .complete =>
      if f.frameType.isSlaveType then { o with outputFrameQ := o.outputFrameQ ++ [f] }
      else if o.lastTimeStamp > f.timeStampBoot then
        -- detected reversed frame
        { o with outputFrameQ := o.outputFrameQ ++ [m_setFrameState pipeId f .skipped] }
      else
        { outputFrameQ := o.outputFrameQ ++ [f]
          lastTimeStamp := f.timeStampBoot
          lastFrameCount := f.frameCount
          lastFrameType := f.frameType }

/-- The loop of the cleaning functions: the first `n` frames are popped, and
each goes out or to the end of its queue. -/
def cleanLoop (pipeId : SyncPipeId) (flagClean : PipeFrame → Bool)
    (mark : PipeFrame → PipeFrame) : ℕ → SyncOutput × List PipeFrame → SyncOutput × List PipeFrame
  | 0, r => r
  | _ + 1, (o, []) => (o, [])
  | n + 1, (o, tempFrame :: rest) =>
      if flagClean tempFrame then
        cleanLoop pipeId flagClean mark n (m_pushFrameToOutputQ pipeId o (mark tempFrame), rest)
      else cleanLoop pipeId flagClean mark n (o, rest ++ [tempFrame])

/-- The two queues. -/
inductive SyncSide where
  | master
  | slave
  deriving DecidableEq

def SyncSide.other : SyncSide → SyncSide
  | .master => .slave
  | .slave => .master

/-- The pipe. -/
structure PipeSync where
  pipeId : SyncPipeId
  reprocessing : Bool
  makeFrameType : MakeFrameType
  syncType : SyncType
  inputFrameQ : List PipeFrame
  masterFrameQ : List PipeFrame
  slaveFrameQ : List PipeFrame
  output : SyncOutput
  masterMultiFrameCapture : Bool
  slaveMultiFrameCapture : Bool
  availableSyncCountChange : Bool
  /-- In milliseconds. -/
  syncTimestampMinCalbTime : ℕ
  syncTimestampMaxCalbTime : ℕ
  syncCalbTimeThreshold : ℕ
  syncLastTimeStamp : ℤ → ℕ
  needMaxCalbTime : ℤ → Bool
  /-- What came into the input queue, what `m_run` has popped from it and what
  `stop` has released. -/
  arrived : List PipeFrame
  popped : List PipeFrame
  released : List PipeFrame

namespace PipeSync

def syncTimestampCalbTimeMargin : ℕ := 2
def syncTimestampCalbTimeDefault : ℕ := 30
def syncRemoveTimestampDiff : ℕ := 120
def syncWaitingCount : ℕ := 2
def cameraIdMax : ℤ := 12

/-- A frame queue. -/
def frameQ (s : PipeSync) : SyncSide → List PipeFrame
  | .master => s.masterFrameQ
  | .slave => s.slaveFrameQ

def setFrameQ (s : PipeSync) (side : SyncSide) (q : List PipeFrame) : PipeSync :=
  match side with
  | .master => { s with masterFrameQ := q }
  | .slave => { s with slaveFrameQ := q }

def pushOutput (s : PipeSync) (f : PipeFrame) : PipeSync :=
  { s with output := m_pushFrameToOutputQ s.pipeId s.output f }

/-- A pass of the cleaning loop over a queue. -/
def cleanPass (s : PipeSync) (side : SyncSide) (flagClean : PipeFrame → Bool)
    (mark : PipeFrame → PipeFrame) (n : ℕ) : PipeSync :=
  let r := cleanLoop s.pipeId flagClean mark n (s.output, s.frameQ side)
  { s with output := r.1 }.setFrameQ side r.2

/-- A frame that is cleaned is an error to whoever takes it. -/
def markCleaned (s : PipeSync) (f : PipeFrame) : PipeFrame :=
  match s.makeFrameType with
  | .pair => { f with srcBufferError := true }
  | .oneMaster => m_setFrameState s.pipeId f .skipped

/-- A frame that is saved is one of its camera alone. -/
def saveFrame (f : PipeFrame) : PipeFrame :=
  match f.frameType with
  | .previewDualMaster => { f with frameType := .preview }
  | .previewDualSlave => { f with frameType := .previewSlave }
  | .reprocessingDualMaster => { f with frameType := .reprocessing }
  | .reprocessingDualSlave => { f with frameType := .reprocessingSlave }
  | _ => f

/-- Whether a frame is older than the base frame. -/
def olderThan (baseFrame : Option PipeFrame) (syncType : SyncType) (tempFrame : PipeFrame) : Bool :=
  match baseFrame with
  | none => true
  | some base =>
      match syncType with
      | .fifo => false
      | .frameCount => tempFrame.frameCount < base.frameCount
      | .timeStamp => tempFrame.ms < base.ms
      | .init | .max => true

def m_cleanFrameBySyncType (s : PipeSync) (side : SyncSide) (baseFrame : Option PipeFrame)
    (syncType : SyncType) (flagSaveFrame : Bool) : PipeSync :=
  s.cleanPass side (olderThan baseFrame syncType)
    (if flagSaveFrame then saveFrame else s.markCleaned) (s.frameQ side).length

def m_cleanFrameByMinCount (s : PipeSync) (side : SyncSide) (minCount : ℤ) : PipeSync :=
  if minCount < 0 then s
  else if minCount ≥ (s.frameQ side).length then s
  else s.cleanPass side (fun _ => true) s.markCleaned ((s.frameQ side).length - minCount.toNat)

def m_cleanFrameByTimeStamp (s : PipeSync) (side : SyncSide) (removeTimeStamp : ℕ) : PipeSync :=
  s.cleanPass side (fun tempFrame => tempFrame.ms ≤ removeTimeStamp) s.markCleaned
    (s.frameQ side).length

/-- `m_makeOneMasterFrame`, giving the master frame and the slave frame. -/
def m_makeOneMasterFrame (s : PipeSync) (masterFrame slaveFrame : PipeFrame) :
    PipeFrame × PipeFrame :=
  let r :=
    if slaveFrame.srcBuffer < 0 then
      (m_setFrameState s.pipeId masterFrame .skipped, m_setFrameState s.pipeId slaveFrame .skipped)
    else if masterFrame.dstEntity then
      ({ masterFrame with
          dstBuffer := some slaveFrame.srcBuffer
          slaveOf := some slaveFrame.asSlave }, slaveFrame)
    else (masterFrame, slaveFrame)
  if s.reprocessing ∧ slaveFrame.hwfcRequest ∧ 0 ≤ slaveFrame.srcBuffer2 ∧ masterFrame.dstEntity then
    ({ r.1 with dstBuffer2 := some slaveFrame.srcBuffer2 }, r.2)
  else r

def m_makePairFrame (masterFrame slaveFrame : PipeFrame) : PipeFrame × PipeFrame :=
  ({ masterFrame with slaveOf := some slaveFrame.asSlave }, slaveFrame)

/-- The pair of frames, as `m_makeFrameType` has it. -/
def makeFrame (s : PipeSync) (masterFrame slaveFrame : PipeFrame) : PipeFrame × PipeFrame :=
  match s.makeFrameType with
  | .oneMaster => s.m_makeOneMasterFrame masterFrame slaveFrame
  | .pair => m_makePairFrame masterFrame slaveFrame

/-- The difference of two time stamps in milliseconds. -/
def diffMs (t t' : ℕ) : ℕ := (t - t') + (t' - t)

/-- The calibration time of frames of two cameras. -/
def syncCalbTime (s : PipeSync) (hwSync : Bool) (cameraId pairCameraId : ℤ) : ℕ :=
  if hwSync = false ∧ s.needMaxCalbTime cameraId ∧ s.needMaxCalbTime pairCameraId then
    s.syncTimestampMaxCalbTime
  else s.syncTimestampMinCalbTime

/-- `iamFound`, of a frame in the queue of the pair. -/
def iamFound (s : PipeSync) (hwSync : Bool) (newFrame pairFrame : PipeFrame) : Bool :=
  match s.syncType with
  | .fifo => true
  | .frameCount => pairFrame.frameCount = newFrame.frameCount
  | .timeStamp =>
      diffMs newFrame.ms pairFrame.ms ≤ s.syncCalbTime hwSync newFrame.cameraId pairFrame.cameraId
  -- invalid syncType
  | .init | .max => false

/-- The queue of a frame. `m_syncFrame` is called with the three types of the
master here and with those of the slave. -/
def FrameType.side : FrameType → SyncSide
  | .internal | .previewDualMaster | .reprocessingDualMaster => .master
  | _ => .slave

/-- The frames of a pair go out: the slave frame first, and the master frame is
the final one. -/
def pairOut (s : PipeSync) (masterFrame slaveFrame : PipeFrame) : PipeSync :=
  let r := s.makeFrame masterFrame slaveFrame
  -- return useless slave frame
  (s.pushOutput r.2).pushOutput r.1

/-- The frames that are older than a pair are cleaned, in the queue of the new
frame and in the other. -/
def clearOld (s : PipeSync) (side : SyncSide) (newFrame pairFrame : PipeFrame) : PipeSync :=
  -- can save master frame only cause of service buffer
  let saving := s.output.lastFrameType = .preview
  let s' := s.m_cleanFrameBySyncType side (some newFrame) s.syncType (saving ∧ side = .master)
  s'.m_cleanFrameBySyncType side.other (some pairFrame) s.syncType (saving ∧ side = .slave)

/-- The new frame goes out with the pair it has found. -/
def syncWith (s : PipeSync) (side : SyncSide) (newFrame pairFrame : PipeFrame) : PipeSync :=
  let s := s.clearOld side newFrame pairFrame
  match side with
  | .master => s.pairOut newFrame pairFrame
  | .slave => s.pairOut pairFrame newFrame

/-- `m_syncFrame`, and the push of the final frame by `m_run`. -/
def m_syncFrame (s : PipeSync) (hwSync : Bool) (newFrame : PipeFrame) : PipeSync :=
  let side := FrameType.side newFrame.frameType
  let pairFrameQ := s.frameQ side.other
  match pairFrameQ.find? (s.iamFound hwSync newFrame) with
  | none => s.setFrameQ side (s.frameQ side ++ [newFrame])
  | some pairFrame =>
      let s := s.setFrameQ side.other (pairFrameQ.eraseP (s.iamFound hwSync newFrame))
      s.syncWith side newFrame pairFrame

/-- Both queues are cleaned of what is older, and the frame goes out. -/
def passThrough (s : PipeSync) (newFrame : PipeFrame) : PipeSync :=
  let s := s.m_cleanFrameBySyncType .slave (some newFrame) s.syncType false
  let s := s.m_cleanFrameBySyncType .master (some newFrame) s.syncType false
  s.pushOutput newFrame

/-- The frames of the master are saved, those of the slave are not. -/
def passSaving (s : PipeSync) (newFrame : PipeFrame) : PipeSync :=
  let s := s.m_cleanFrameBySyncType .master (some newFrame) s.syncType true
  let s := s.m_cleanFrameBySyncType .slave (some newFrame) s.syncType false
  s.pushOutput newFrame

/-- An internal frame of a burst marks its camera, in reprocessing. -/
def markMultiFrame (s : PipeSync) (newFrame : PipeFrame) : PipeSync :=
  if s.reprocessing ∧ newFrame.maxFrameIndex > 1 then
    match newFrame.frameType with
    | .internal => { s with masterMultiFrameCapture := true }
    | .internalSlave => { s with slaveMultiFrameCapture := true }
    | _ => s
  else s

/-- The frame by its type. -/
def runByType (s : PipeSync) (hwSync : Bool) (newFrame : PipeFrame) : PipeSync :=
  match newFrame.frameType with
  | .internal | .internalSlave =>
      match newFrame.dualOperationMode with
      | .sync => (s.markMultiFrame newFrame).m_syncFrame hwSync newFrame
      -- I can't save internal frame cause of no service buffer
      | .none | .master | .slave => s.passThrough newFrame
  | .preview | .reprocessing => s.passSaving newFrame
  | .previewSlave | .reprocessingSlave => s.passThrough newFrame
  | .previewDualMaster | .reprocessingDualMaster | .previewDualSlave | .reprocessingDualSlave =>
      s.m_syncFrame hwSync newFrame
  -- invalid frameType
  | .base | .others | .previewFront | .vision | .transition | .transitionSlave
  | .internalSensorTransition | .reprocessingSensorTransition
  | .reprocessingInternalSensorTransition => s

/-- A burst has its frames of both cameras. -/
def changeSyncCount (s : PipeSync) (newFrame : PipeFrame) : PipeSync :=
  if newFrame.frameType = .reprocessingDualMaster ∧ newFrame.maxFrameIndex > 1 then
    if s.slaveMultiFrameCapture ∨ s.availableSyncCountChange then
      { s with masterMultiFrameCapture := false, availableSyncCountChange := true }
    else s
  else if newFrame.frameType = .reprocessingDualSlave ∧ newFrame.maxFrameIndex > 1 then
    if s.masterMultiFrameCapture ∨ s.availableSyncCountChange then
      { s with slaveMultiFrameCapture := false, availableSyncCountChange := true }
    else s
  else s

/-- Both queues keep so many frames. -/
def cleanByCount (s : PipeSync) (count : ℤ) : PipeSync :=
  (s.m_cleanFrameByMinCount .slave count).m_cleanFrameByMinCount .master count

/-- Both queues keep what is younger. -/
def cleanByAge (s : PipeSync) (removeTimeStamp : ℕ) : PipeSync :=
  if s.syncType = .fifo then s
  else
    (s.m_cleanFrameByTimeStamp .slave removeTimeStamp).m_cleanFrameByTimeStamp .master
      removeTimeStamp

/-- How many frames may wait. -/
def waitingCount (s : PipeSync) (newFrame : PipeFrame) : ℤ :=
  if s.masterMultiFrameCapture ∨ s.slaveMultiFrameCapture then newFrame.maxFrameIndex
  else syncWaitingCount

def keepSyncCount (s : PipeSync) : PipeSync :=
  if s.masterMultiFrameCapture ∨ s.slaveMultiFrameCapture then s
  else { s with availableSyncCountChange := false }

/-- Behind `p_exit`. -/
def cleanOld (s : PipeSync) (newFrame : PipeFrame) : PipeSync :=
  let s := s.keepSyncCount.cleanByCount (s.waitingCount newFrame)
  -- remove under this timestamp in master, slaveQ
  let s := s.cleanByAge (newFrame.ms - syncRemoveTimestampDiff)
  { s with syncLastTimeStamp := Function.update s.syncLastTimeStamp newFrame.cameraId newFrame.ms }

/-- The frame duration of a camera selects its calibration time. -/
def selectCalbTime (s : PipeSync) (hwSync : Bool) (newFrame : PipeFrame) : PipeSync :=
  if s.syncType = .timeStamp ∧ hwSync = false then
    { s with
      needMaxCalbTime :=
        Function.update s.needMaxCalbTime newFrame.cameraId
          (diffMs newFrame.ms (s.syncLastTimeStamp newFrame.cameraId) > s.syncCalbTimeThreshold) }
  else s

/-- A frame whose state says that there is nothing in it. -/
def isInvalid (f : PipeFrame) : Bool := f.frameState = .invalid ∨ f.frameState = .skipped

/-- `m_run`, with a frame. -/
def runFrame (s : PipeSync) (hwSync : Bool) (newFrame : PipeFrame) : PipeSync :=
  if newFrame.cameraId < 0 ∨ newFrame.cameraId ≥ cameraIdMax then s
  else
    let s := s.selectCalbTime hwSync newFrame
    let s :=
      if isInvalid newFrame then s.passThrough (m_setFrameState s.pipeId newFrame .skipped)
      else (s.runByType hwSync newFrame).changeSyncCount newFrame
    s.cleanOld newFrame

def m_run (s : PipeSync) (hwSync : Bool) : PipeSync :=
  match s.inputFrameQ with
  | [] => s
  | newFrame :: rest =>
      { s with inputFrameQ := rest, popped := s.popped ++ [newFrame] }.runFrame hwSync newFrame

/-- All that waits goes out. -/
def cleanAll (s : PipeSync) : PipeSync := s.cleanByCount 0

/-- `m_run`, when nothing comes. -/
def runTimedOut (s : PipeSync) (dualOperationMode : DualOperationMode) : PipeSync :=
  if dualOperationMode = .sync then s else if s.reprocessing then s else s.cleanAll

/-- `start`, with the range of the preview's frame rate. -/
def start (s : PipeSync) (minFps maxFps : ℕ) : PipeSync :=
  let s := s.cleanAll
  { s with
    masterMultiFrameCapture := false
    slaveMultiFrameCapture := false
    availableSyncCountChange := false
    output := { s.output with lastTimeStamp := 0, lastFrameCount := 0 }
    syncTimestampMinCalbTime := 1000 / maxFps / 2 + syncTimestampCalbTimeMargin
    syncTimestampMaxCalbTime := 1000 / minFps / 2 + syncTimestampCalbTimeMargin
    syncCalbTimeThreshold := 1000 / maxFps + syncTimestampCalbTimeMargin
    syncLastTimeStamp := fun _ => 0
    needMaxCalbTime := fun _ => false }

/-- `stop`. The input queue is released with the thread. -/
def stop (s : PipeSync) : PipeSync :=
  let s := { s with inputFrameQ := [], released := s.released ++ s.inputFrameQ }.cleanAll
  { s with
    masterMultiFrameCapture := false
    slaveMultiFrameCapture := false
    availableSyncCountChange := false
    output := { s.output with lastTimeStamp := 0, lastFrameCount := 0 }
    syncTimestampMinCalbTime := syncTimestampCalbTimeDefault
    syncTimestampMaxCalbTime := syncTimestampCalbTimeDefault }

/-- A new pipe, with a sync type. -/
def initial (pipeId : SyncPipeId) (reprocessing : Bool) (makeFrameType : MakeFrameType)
    (syncType : SyncType) : PipeSync where
  pipeId := pipeId
  reprocessing := reprocessing
  makeFrameType := makeFrameType
  syncType := syncType
  inputFrameQ := []
  masterFrameQ := []
  slaveFrameQ := []
  output := ⟨[], 0, 0, .base⟩
  masterMultiFrameCapture := false
  slaveMultiFrameCapture := false
  availableSyncCountChange := false
  syncTimestampMinCalbTime := syncTimestampCalbTimeDefault
  syncTimestampMaxCalbTime := syncTimestampCalbTimeDefault
  syncCalbTimeThreshold := syncTimestampCalbTimeDefault
  syncLastTimeStamp := fun _ => 0
  needMaxCalbTime := fun _ => false
  arrived := []
  popped := []
  released := []

/-- `create`, of a new pipe. -/
def create (pipeId : SyncPipeId) (reprocessing : Bool) (makeFrameType : MakeFrameType) : PipeSync :=
  initial pipeId reprocessing makeFrameType (if reprocessing then .fifo else .timeStamp)

end PipeSync

/-- What happens to the pipe. -/
inductive SyncEvent where
  /-- A frame comes into the input queue. -/
  | push (f : PipeFrame)
  /-- `m_run`, with what `getDualHwSyncOn` says in it. -/
  | run (hwSync : Bool)
  /-- `m_run`, when its wait times out. -/
  | timeOut (dualOperationMode : DualOperationMode)
  | start (minFps maxFps : ℕ)
  | stop

namespace PipeSync

/-- One step. -/
def step (s : PipeSync) : SyncEvent → PipeSync
  | .push f => { s with inputFrameQ := s.inputFrameQ ++ [f], arrived := s.arrived ++ [f] }
  | .run hwSync => s.m_run hwSync
  | .timeOut dualOperationMode => s.runTimedOut dualOperationMode
  | .start minFps maxFps => s.start minFps maxFps
  | .stop => s.stop

end PipeSync

end ExynosVendor.Camera
