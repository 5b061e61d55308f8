import ExynosVendor.Nfc.HalTask
import ExynosVendor.Nfc.OsiMemory
import ExynosVendor.Nfc.OsiQueue

/-!
# The HAL as a system

The threads around `msg_q` and the pool of buffers: the stack in the functions
of `hal.cc`, `read_thread` of `device.cc`, and `nfc_hal_task`. A step is one
section under the OSI lock, one read of the device, or one stretch of code
between these. What a state machine computes it computes in one step, and what
it does it does in steps of their own.

The timers do not fire here.
-/

namespace ExynosVendor.Nfc

/-- A packet as the controller sends it: one of `hal_msg.h` with a header of
three bytes, or a frame of the bootloader whose payload starts with the high
byte of its length. -/
structure CtrlPacket where
  kind : PayloadKind
  oct0 : BitVec 8
  oid : BitVec 8
  len : BitVec 8
  payload : List (BitVec 8)
  size : payload.length = match kind with
    | .nci => len.toNat
    | .fw => 1 + (len.toNat + 256 * (payload.getD 0 0).toNat)

namespace CtrlPacket

/-- What the read thread reads of it. -/
def header (p : CtrlPacket) : List (BitVec 8) := [p.oct0, p.oid, p.len]

/-- All of it. -/
def bytes (p : CtrlPacket) : List (BitVec 8) := p.header ++ p.payload

/-- It is a response, and not the first part of one. -/
def isRsp (p : CtrlPacket) : Prop := p.kind = .nci ∧ p.oct0 >>> 4 = 4

instance (p : CtrlPacket) : Decidable p.isRsp := inferInstanceAs (Decidable (_ ∧ _))

/-- The command it answers. -/
def command (p : CtrlPacket) : BitVec 8 × BitVec 8 := (p.oct0 &&& 0x0F, p.oid &&& 0x3F)

end CtrlPacket

/-- The stack in a function of the HAL. -/
inductive ApiThread where
  /-- `nfc_hal_write`, behind the test of `sending_nci_packet`. -/
  | write (data : List (BitVec 8))
  /-- With its message, and in front of the setting of the flag. -/
  | writeFilled (msg : Option ℕ) (command : Bool)
  /-- And in front of the queue. -/
  | writePut (msg : Option ℕ)
  /-- The other functions, in front of `OSI_mem_get`, and of the queue. -/
  | post (event : HalEvent) (param : List (BitVec 8))
  | put (event : HalEvent) (msg : ℕ)
  /-- `nfc_hal_close`, waiting for the threads. -/
  | closing
  deriving DecidableEq

inductive ReadThread where
  | selecting
  /-- With a header. -/
  | header (data : List (BitVec 8))
  /-- With a message. -/
  | holding (msg : ℕ)
  | ended
  deriving DecidableEq

/-- What the task does for a message. -/
inductive TaskAction where
  | effect (e : HalEffect)
  /-- The second half of `nfc_hal_state_switch`, with the new message. -/
  | switched (event : HalEvent) (state : HalState) (newMsg : ℕ)
  /-- `OSI_queue_put` of the message itself. -/
  | requeue
  deriving DecidableEq

/-- `nfc_hal_task`. -/
inductive TaskThread where
  | waiting
  /-- With a message. -/
  | got (msg : ℕ)
  /-- With its payload. -/
  | read (msg : ℕ)
  /-- With so much to do for it. -/
  | doing (msg : ℕ) (rest : List TaskAction)
  | ended
  deriving DecidableEq

/-- The HAL, its threads and the controller. -/
structure HalSystem where
  info : HalInfo
  /-- The slot of `nci_last_pkt`. -/
  lastSlot : Option ℕ
  /-- `sending_nci_packet`. -/
  sending : Bool
  /-- Whether there is a `data_cback`. -/
  dataCback : Bool
  mem : OsiMem
  /-- The messages in the buffers. -/
  buffer : ℕ → HalMsg
  msgQ : OsiQueue
  task : TaskThread
  reader : ReadThread
  api : List ApiThread
  /-- The bytes of the controller that have not been read. -/
  stream : List (BitVec 8)
  /-- The commands the controller has to answer. -/
  unanswered : List (BitVec 8 × BitVec 8)
  /-- How often a buffer was freed since it was handed out. -/
  frees : ℕ → ℕ
  /-- The packets the controller sent. -/
  sent : List CtrlPacket
  /-- The headers the read thread has read. -/
  headers : List (List (BitVec 8))
  /-- The packets that were handled. -/
  delivered : List (List (BitVec 8))
  /-- The messages of the read thread whose payload has not been read. -/
  fresh : List ℕ

/-- A pointer to a buffer. -/
def slotPtr (slot : ℕ) : Ptr := BitVec.ofNat 64 (slot + 1)

/-- The buffer of a pointer that is not null. -/
def ptrSlot (p : Ptr) : ℕ := p.toNat - 1

/-- `&p->nci_packet` of a packet of the stack: it is a command. -/
def isCommand (data : List (BitVec 8)) : Bool := data.getD 0 0 >>> 4 = 2

/-- The context as `memset` leaves it. -/
def HalInfo.zero : HalInfo where
  state := .init
  fw :=
    { image := FwImage.free
      bl := { product := 0, version := [], sectorSize := 0, baseAddress := 0 }
      state := .none
      targetSector := 0
      seqNo := 0 }
  vs := { state := .init, rfregid := 0, rfregVersion := [], checkSum := 0, rfreg := [] }
  count := 0
  fwUpdateState := 0
  flag := 0
  nciLastPkt := none
  devState := .off
  sleepTimeout := 0
  overrideTimeout := 0

namespace HalSystem

/-! ## Buffers and the queue -/

/-- `OSI_mem_get`, and its clearing of the buffer. -/
def memGet (s : HalSystem) : Option ℕ × HalSystem :=
  match s.mem.get with
  | (none, _) => (none, s)
  | (some slot, mem) =>
      (some slot, { s with
        mem := mem
        buffer := Function.update s.buffer slot ⟨.open, []⟩
        frees := Function.update s.frees slot 0 })

/-- `OSI_mem_free`. -/
def memFree (s : HalSystem) (slot : ℕ) : HalSystem :=
  { s with
    mem := s.mem.free slot
    frees := Function.update s.frees slot (s.frees slot + 1) }

/-- A message is written into its buffer, and over its state; what is behind that is left out. -/
def fill (s : HalSystem) (slot : ℕ) (msg : HalMsg) : HalSystem :=
  { s with
    buffer := Function.update s.buffer slot msg
    mem := if msg.param.length > halMsgRoom then s.mem.set slot (msg.byte halMsgRoom) else s.mem }

/-- `OSI_queue_put`, into `msg_q`. -/
def put (s : HalSystem) (p : Ptr) : HalSystem := { s with msgQ := (s.msgQ.osiQueuePut p).1 }

/-! ## The stack -/

/-- `nfc_hal_init`. -/
def init (s : HalSystem) (ans : HalAnswers) : HalSystem :=
  let s :=
    { s with
      lastSlot := none
      mem := OsiMem.init
      frees := fun _ => 0
      msgQ := OsiQueue.fresh.initialized "msg_q"
      sending := false
      dataCback := false
      fresh := []
      info := { HalInfo.zero with
        count := s.info.count
        fwUpdateState := s.info.fwUpdateState
        nciLastPkt := some []
        sleepTimeout := ans.sleepTimeout.getD 5000 } }
  let (slot, s) := s.memGet
  { s with lastSlot := slot }

/-- `nfc_hal_open`, up to the message it posts. The controller starts anew, and
threads that still run go on. -/
def apiOpen (s : HalSystem) (ans : HalAnswers) (dataCback : Bool) : HalSystem :=
  if s.info.state = .postinit then s
  else
    let s := s.init ans
    if ans.opens then
      { s with
        info := { s.info with state := .open, devState := .bootloader }
        dataCback := dataCback
        task := if s.task = .ended then .waiting else s.task
        reader := if s.reader = .ended then .selecting else s.reader
        api := s.api ++ [.post .open []]
        stream := []
        unanswered := []
        sent := []
        headers := []
        delivered := [] }
    else s

/-- `nfc_hal_write`, up to its test. -/
def apiWrite (s : HalSystem) (data : List (BitVec 8)) : HalSystem :=
  if s.sending ∧ isCommand data then s else { s with api := s.api ++ [.write data] }

/-- `nfc_hal_core_initialized`, up to its test. -/
def apiCoreInitialized (s : HalSystem) (params : List (BitVec 8)) : HalSystem :=
  let pkt := (HalMsg.mk .coreInit params).nciPacket
  if pkt.answers nciGidCore nciCoreInit ∧ pkt.status = nciStatusOk then
    { s with api := s.api ++ [.post .coreInit (params.take (pkt.len.toNat + nciHdrSize))] }
  else s

/-- `nfc_hal_control_granted`. -/
def apiControlGranted (s : HalSystem) : HalSystem :=
  { s with api := s.api ++ [.post .controlGranted []] }

/-- `nfc_hal_power_cycle`. -/
def apiPowerCycle (s : HalSystem) : HalSystem :=
  if s.info.state = .close then s else { s with api := s.api ++ [.post .powerCycle []] }

/-- `nfc_hal_close`. -/
def apiClose (s : HalSystem) : HalSystem :=
  if s.info.state = .close then s else { s with api := s.api ++ [.post .terminate []] }

/-- What is left of a function behind its message. -/
def behindPost : HalEvent → List ApiThread
  | .terminate => [.closing]
  | _ => []

/-- The threads of the stack with one of them gone on. -/
def goesOn (s : HalSystem) (n : ℕ) (rest : List ApiThread) : HalSystem :=
  { s with api := s.api.eraseIdx n ++ rest }

/-- `OSI_mem_get` for so many bytes behind the event. -/
def memGetFor (s : HalSystem) (size : ℕ) : Option ℕ × HalSystem :=
  if size + 1 > osiMemPoolSize then (none, s) else s.memGet

/-- A thread of the stack goes on. -/
def apiStep (s : HalSystem) (n : ℕ) : ApiThread → HalSystem
  | .write data =>
      match s.memGetFor data.length with
      | (none, s) => s.goesOn n [.writeFilled none (isCommand data)]
      | (some slot, s) =>
          (s.fill slot ⟨.write, data⟩).goesOn n [.writeFilled (some slot) (isCommand data)]
  | .writeFilled msg command =>
      { s.goesOn n [.writePut msg] with sending := s.sending || (command && msg.isSome) }
  | .writePut msg =>
      let ret := (s.msgQ.osiQueuePut (msg.elim 0 slotPtr)).2
      { (s.put (msg.elim 0 slotPtr)).goesOn n [] with
        sending := s.sending && decide (ret ≠ -1) }
  | .post event param =>
      match s.memGetFor param.length with
      | (none, s) => s.goesOn n (behindPost event)
      | (some slot, s) => (s.fill slot ⟨event, param⟩).goesOn n [.put event slot]
  | .put event msg => (s.put (slotPtr msg)).goesOn n (behindPost event)
  | .closing =>
      if s.task = .ended ∧ (s.reader = .selecting ∨ s.reader = .ended) then
        { s.goesOn n [] with info := { s.info with state := .close }, reader := .ended }
      else s

theorem apiStep_write (s : HalSystem) (n : ℕ) (data : List (BitVec 8)) :
    s.apiStep n (.write data) = match s.memGetFor data.length with
      | (none, s) => s.goesOn n [.writeFilled none (isCommand data)]
      | (some slot, s) =>
          (s.fill slot ⟨.write, data⟩).goesOn n [.writeFilled (some slot) (isCommand data)] :=
  rfl

theorem apiStep_post (s : HalSystem) (n : ℕ) (event : HalEvent) (param : List (BitVec 8)) :
    s.apiStep n (.post event param) = match s.memGetFor param.length with
      | (none, s) => s.goesOn n (behindPost event)
      | (some slot, s) => (s.fill slot ⟨event, param⟩).goesOn n [.put event slot] :=
  rfl

/-! ## The read thread -/

/-- `device_read`, of at most so many bytes. -/
def deviceRead (s : HalSystem) (len limit : ℕ) : List (BitVec 8) × HalSystem :=
  (s.stream.take (min len limit), { s with stream := s.stream.drop (min len limit) })

/-- `read_thread` reads a header. -/
def readHeader (s : HalSystem) (limit : ℕ) : HalSystem :=
  if s.reader = .selecting then
    let (data, s) := s.deviceRead nciHdrSize limit
    if data.length = nciHdrSize then
      { s with reader := .header data, headers := s.headers ++ [data] }
    else s
  else s

/-- It gets a message for it. -/
def readerGet (s : HalSystem) : HalSystem :=
  match s.reader with
  | .header data =>
      match s.memGet with
      | (none, s) => { s with reader := .ended }
      | (some slot, s) =>
          { s.fill slot ⟨.read, data⟩ with reader := .holding slot, fresh := s.fresh ++ [slot] }
  | _ => s

/-- It posts the message. -/
def readerPut (s : HalSystem) : HalSystem :=
  match s.reader with
  | .holding slot => { s.put (slotPtr slot) with reader := .selecting }
  | _ => s

/-! ## The task -/

/-- `OSI_queue_get_wait`. -/
def taskTake (s : HalSystem) : HalSystem :=
  match s.task with
  | .waiting =>
      let (msgQ, p) := s.msgQ.queueGet
      let s := { s with msgQ := msgQ }
      if p = 0 then s
      else if (s.buffer (ptrSlot p)).event = .terminate then { s with task := .ended }
      else { s with task := .got (ptrSlot p) }
  | _ => s

/-- What is read of a payload, and whether it is all. -/
def readData (s : HalSystem) (kind : PayloadKind) (msg : HalMsg) (limit : ℕ) :
    List (BitVec 8) × Bool × HalSystem :=
  match kind with
  | .nci =>
      let (data, s) := s.deviceRead (msg.byte 2).toNat limit
      (data, decide (data.length = (msg.byte 2).toNat), s)
  | .fw =>
      let (high, s) := s.deviceRead 1 limit
      if high.length = 1 then
        -- `fw_pkt->len += len_high << 8`
        let len := (msg.fwLen + 256 * (high.getD 0 0).toNat) % 2 ^ 16
        let (data, s) := s.deviceRead len (limit - 1)
        (high ++ data, decide (data.length = len), s)
      else (high, false, s)

/-- The message with its payload: behind a header that the read thread read,
or over what the message has there. -/
def withPayload (msg : HalMsg) (data : List (BitVec 8)) : HalMsg :=
  { msg with param := [msg.byte 0, msg.byte 1, msg.byte 2] ++ data ++ msg.param.drop (3 + data.length) }

/-- The state machine reads the payload, and frees the message when it fails. -/
def taskRead (s : HalSystem) (limit : ℕ) : HalSystem :=
  match s.task with
  | .got slot =>
      let msg := s.buffer slot
      match s.info.reads msg.event with
      | none => { s with task := .read slot }
      | some kind =>
          let (data, whole, s) := s.readData kind msg limit
          let s := s.fill slot (withPayload msg data)
          let s := { s with
            task := .read slot
            fresh := s.fresh.erase slot
            delivered := s.delivered ++ [[msg.byte 0, msg.byte 1, msg.byte 2] ++ data] }
          if whole then s else s.memFree slot
  | _ => s

/-- The state machine computes. -/
def taskHandle (s : HalSystem) (ans : HalAnswers) : HalSystem :=
  match s.task with
  | .read slot =>
      let msg := s.buffer slot
      let (info, out) := s.info.handle ans msg
      let back := if s.info.requeues msg.event then [TaskAction.requeue] else []
      { s with info := info, task := .doing slot (out.map .effect ++ back) }
  | _ => s

/-- `nfc_data_callback`. -/
def dataCallback (s : HalSystem) (data : List (BitVec 8)) : HalSystem :=
  if s.dataCback ∧ data.getD 0 0 >>> 4 = 4 then { s with sending := false } else s

/-- `device_write`: a command that the device takes whole is to be answered. -/
def deviceWrite (s : HalSystem) (data : List (BitVec 8)) (whole : Bool) : HalSystem :=
  if whole ∧ isCommand data then
    { s with unanswered := s.unanswered ++ [(data.getD 0 0 &&& 0x0F, data.getD 1 0 &&& 0x3F)] }
  else s

/-- One effect of a message. -/
def perform (s : HalSystem) (slot : ℕ) (rest : List TaskAction) (whole : Bool) :
    HalEffect → HalSystem
  | .write data => { s.deviceWrite data whole with task := .doing slot rest }
  | .data data => { s.dataCallback data with task := .doing slot rest }
  | .stateSwitch event state =>
      match s.memGet with
      | (none, s) => { s with task := .doing slot rest }
      | (some newMsg, s) => { s with task := .doing slot (.switched event state newMsg :: rest) }
  | .deviceClose =>
      -- `device_close` waits for the read thread.
      if s.reader = .selecting ∨ s.reader = .ended then
        { s with reader := .ended, task := .doing slot rest }
      else s
  | .deviceOpen =>
      { s with
        reader := if s.reader = .ended then .selecting else s.reader
        task := .doing slot rest }
  | .fault => { s with task := .ended }
  | _ => { s with task := .doing slot rest }

theorem perform_stateSwitch (s : HalSystem) (slot : ℕ) (rest : List TaskAction) (whole : Bool)
    (event : HalEvent) (state : HalState) :
    s.perform slot rest whole (.stateSwitch event state) = match s.memGet with
      | (none, s) => { s with task := .doing slot rest }
      | (some newMsg, s) => { s with task := .doing slot (.switched event state newMsg :: rest) } :=
  rfl

/-- The task does what comes next for its message, and frees it in the end. -/
def taskAct (s : HalSystem) (whole : Bool) : HalSystem :=
  match s.task with
  | .doing slot (.effect e :: rest) => s.perform slot rest whole e
  | .doing slot (.switched event state newMsg :: rest) =>
      let msg := { (s.buffer slot).copied with event := event }
      { (s.fill newMsg msg).put (slotPtr newMsg) with
        info := { s.info with state := state }
        task := .doing slot rest }
  | .doing slot (.requeue :: rest) => { s.put (slotPtr slot) with task := .doing slot rest }
  | .doing slot [] => { s.memFree slot with task := .waiting }
  | _ => s

end HalSystem

/-- A step of a thread, or of the controller. -/
inductive HalStep where
  | apiOpen (ans : HalAnswers) (dataCback : Bool)
  | apiWrite (data : List (BitVec 8))
  | apiCoreInitialized (params : List (BitVec 8))
  | apiControlGranted
  | apiPowerCycle
  | apiClose
  /-- The so-manieth thread of the stack. -/
  | api (n : ℕ)
  | readHeader (limit : ℕ)
  | readerGet
  | readerPut
  | taskTake
  | taskRead (limit : ℕ)
  | taskHandle (ans : HalAnswers)
  | taskAct (whole : Bool)
  | controller (p : CtrlPacket)

namespace HalSystem

/-- One step. -/
def step (s : HalSystem) : HalStep → HalSystem
  | .apiOpen ans dataCback => s.apiOpen ans dataCback
  | .apiWrite data => s.apiWrite data
  | .apiCoreInitialized params => s.apiCoreInitialized params
  | .apiControlGranted => s.apiControlGranted
  | .apiPowerCycle => s.apiPowerCycle
  | .apiClose => s.apiClose
  | .api n => (s.api[n]?).elim s (s.apiStep n)
  | .readHeader limit => s.readHeader limit
  | .readerGet => s.readerGet
  | .readerPut => s.readerPut
  | .taskTake => s.taskTake
  | .taskRead limit => s.taskRead limit
  | .taskHandle ans => s.taskHandle ans
  | .taskAct whole => s.taskAct whole
  | .controller p =>
      { s with
        stream := s.stream ++ p.bytes
        sent := s.sent ++ [p]
        unanswered := if p.isRsp then s.unanswered.erase p.command else s.unanswered }

/-- Before `nfc_hal_open`. -/
def initial : HalSystem where
  info := HalInfo.zero
  lastSlot := none
  sending := false
  dataCback := false
  mem := []
  buffer := fun _ => ⟨.open, []⟩
  msgQ := OsiQueue.fresh
  task := .ended
  reader := .ended
  api := []
  stream := []
  unanswered := []
  frees := fun _ => 0
  sent := []
  headers := []
  delivered := []
  fresh := []

end HalSystem

end ExynosVendor.Nfc
