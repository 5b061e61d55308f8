import ExynosVendor.Telephony.Rfs.Nv

/-!
# Processing a packet

`ProcessMessage` of the three classes and the transfers it starts and
continues. A command is answered at once and settled by the modem's own
status later; between the two, `mLastIo` says which one is pending.
-/

namespace ExynosVendor.Rfs

open Ril (BYTE)
open Descriptor

variable (md5 : List BYTE → List BYTE)

namespace Machine

/-! ## Transfers -/

/-- `Read`: the next frame of the transfer. -/
def read (w : Outcome) (m : Machine) : Machine :=
  let length := min m.obj.mReadLength framePayloadSize
  let allocLen := headerSize + readSize + length
  let result := m.sys.read m.obj.mFd length w.readLimit
  let data := result.2.getD []
  if data = [] then ({ m with sys := result.1 } : Machine).status statusReadFail
  else
    let missing := length - data.length
    let frame : ReadFrame :=
      { tid := m.obj.mTransaction
        len := allocLen - headerSize - missing
        file := m.obj.mId
        offset := m.obj.mReadOffset
        length := data.length
        data := data
        allocated := allocLen
        sent := allocLen - missing }
    { obj := { m.obj with
        mReadLength := m.obj.mReadLength - data.length
        mReadOffset := (m.obj.mReadOffset + data.length) % 2 ^ 32 }
      sys := result.1
      sent := m.sent ++ [.read frame] }

/-- The position `lseek` returns is kept in an `int`. -/
def seeks (m : Machine) (offset : U32) : Prop :=
  m.sys.Live m.obj.mFd ∧ 0 ≤ offset.toInt

instance (m : Machine) (offset : U32) : Decidable (m.seeks offset) :=
  inferInstanceAs (Decidable (_ ∧ _))

/-- The request of a read is saved, and the position moved. -/
def aimRead (m : Machine) (offset length : U32) : Machine :=
  { m with
    obj := { m.obj with mReadLength := length.toNat, mReadOffset := offset.toNat }
    sys := m.sys.seek m.obj.mFd offset.toNat }

def readRequest (w : Outcome) (m : Machine) (offset length : U32) : Machine :=
  if m.seeks offset then ((m.aimRead offset length).setIo .read).read w
  else (m.aimRead offset length).status statusReadFail

def readResponse (w : Outcome) (m : Machine) (status file : U32) : Machine :=
  if m.obj.mLastIo ≠ .read then m.status statusInvalidParam
  else if m.obj.mId ≠ file then m.status statusInvalidParam
  else if status ≠ statusSuccess then m.setIo .none
  else if m.obj.mReadLength ≠ 0 then m.read w
  else m.setIo .none

/-- The frame that asks for the next bytes of a write. -/
def askWrite (m : Machine) : Machine :=
  m.send (.write m.obj.mTransaction m.obj.mId m.obj.mWriteOffset
    (min m.obj.mWriteLength framePayloadSize))

/-- The request of a write is saved, and the position moved. -/
def aimWrite (m : Machine) (offset length : U32) : Machine :=
  { m with
    obj := { m.obj with mWriteLength := length.toNat, mWriteOffset := offset.toNat }
    sys := m.sys.seek m.obj.mFd offset.toNat }

def writeRequest (m : Machine) (offset length : U32) : Machine :=
  if m.seeks offset then ((m.aimWrite offset length).setIo .write).askWrite
  else (m.aimWrite offset length).status statusWriteFail

/-- What remains of a write after some bytes. -/
def advance (m : Machine) (length : ℕ) : Machine :=
  { m with obj := { m.obj with
      mWriteLength := m.obj.mWriteLength - length
      mWriteOffset := (m.obj.mWriteOffset + length) % 2 ^ 32 } }

/-- The bytes of a write response are all in the file: what is left of the
transfer is asked for, or the transfer ends. -/
def written (w : Outcome) (m : Machine) (length : ℕ) : Machine :=
  if (m.advance length).obj.mWriteLength ≠ 0 then (m.advance length).askWrite
  else (((m.advance length).setIo .none).onWriteDone md5 w).status statusSuccess

def writeResponse (w : Outcome) (m : Machine) (status file : U32) (data : List BYTE) : Machine :=
  if m.obj.mLastIo ≠ .write then m.status statusInvalidParam
  else if m.obj.mId ≠ file then m.status statusInvalidParam
  else if status ≠ statusSuccess then m.setIo .none
  else if m.obj.mWriteLength < data.length then m.status statusInvalidParam
  else
    let result := m.sys.write 0 m.obj.mFd data w.writeLimit
    let m : Machine := { m with sys := result.1 }
    if result.2 = some data.length then m.written md5 w data.length
    else m.status statusWriteFail

/-! ## Opening and closing -/

/-- `CRfsFile::Open`. A file that is not there is created, and opened to
append to it. -/
def openFile (w : Outcome) (m : Machine) (file : U32) (name : Name) : Machine :=
  if m.obj.mId ≠ file then m.status statusInvalidParam
  else
    let m := m.setIo .openFile
    if ¬ w.opens then m.dropFd.status statusOpenFail
    else match m.sys.files name with
      | some _ => (m.openAs name true false).status statusSuccess
      | none =>
          (({ m with sys := m.sys.store name [] } : Machine).openAs name true true).status
            statusSuccess

/-- `CNvFile::Open`, and `CNvProtectedFile::Open`, which opens to read. -/
def openNvFile (w : Outcome) (m : Machine) (file : U32) (writable : Bool) : Machine :=
  if m.obj.mId ≠ file then m.status statusInvalidParam
  else
    let m := (m.setIo .openFile).openNv w writable
    if m.obj.mFd = none then m.status statusOpenFail else m.setSize.status statusSuccess

/-- `CRfsFile::Close`. -/
def closeFile (m : Machine) (file : U32) : Machine :=
  if m.obj.mId ≠ file then m.status statusInvalidParam
  else (m.closeFd.setIo .closeFile).status statusSuccess

/-- `CNvProtectedFile::Close`. -/
def closeNvProtected (m : Machine) (file : U32) : Machine :=
  if m.obj.mId ≠ file then m.status statusInvalidParam
  else (m.closeFd.dropFd.setIo .closeFile).status statusSuccess

/-- `Unprotect`. -/
def unprotectNv (w : Outcome) (m : Machine) (file : U32) : Machine :=
  if m.obj.mId ≠ file then m.status statusInvalidParam
  else
    let m := (m.setIo .nvUnprotect).closeFd.openNv w true
    if m.obj.mFd = none then m.status statusOpenFail else m.setSize.status statusSuccess

/-- `Protect` by a command. -/
def protectNv (w : Outcome) (m : Machine) (file : U32) : Machine :=
  if m.obj.mId ≠ file then m.status statusInvalidParam
  else
    let m := (m.setIo .nvProtect).closeFd.openNv w false
    if m.obj.mFd = none then m.status statusOpenFail else m.status statusSuccess

/-! ## `ProcessMessage` -/

/-- Behind the `switch`: an object that is closed and idle is not needed. -/
def finish (m : Machine) : Machine × Response :=
  (m, if m.obj.mState = .closed ∧ m.obj.mLastIo = .none then .deleteNow else .keep)

/-- A refusal with the packet's own transaction. -/
def refuse (m : Machine) (tid : BitVec 16) : Machine × Response :=
  (m.statusOf tid statusInvalidParam, .keep)

/-- The commands that are let through while one is pending. -/
def answers : Body → Bool
  | .read .. | .write .. | .opStatus .. => true
  | _ => false

/-- The check of the transaction, and the one for pending I/O: the packet
comes while another command is pending. -/
def blocked (m : Machine) (p : Packet) : Prop :=
  m.obj.mLastIo ≠ .none ∧
    ((m.obj.mTransaction ≠ p.tid ∧ ∀ status file, p.body ≠ .opStatus status file) ∨
      answers p.body = false)

/-- Whether a command is `RFS_OP_STATUS`. -/
def isOpStatus : Body → Bool
  | .opStatus .. => true
  | _ => false

instance (m : Machine) (p : Packet) : Decidable (m.blocked p) :=
  decidable_of_iff (m.obj.mLastIo ≠ .none ∧
      ((m.obj.mTransaction ≠ p.tid ∧ isOpStatus p.body = false) ∨ answers p.body = false)) <| by
    unfold blocked
    cases p.body <;> simp [isOpStatus]

/-- `RFS_OP_STATUS`: the modem settles the pending command. `settled` is
the state a successful command leads to. -/
def opStatus (m : Machine) (tid : BitVec 16) (status file : U32)
    (settled : Io → Option FileState) : Machine × Response :=
  if m.obj.mId ≠ file then m.refuse tid
  else if m.obj.mTransaction ≠ tid then m.finish
  else
    let m' := if status = statusSuccess then
        (settled m.obj.mLastIo).elim m m.setState else m
    (m'.setIo .none).finish

/-- `RFS_IO_REQUEST` behind the check of the file, by the kind of I/O. -/
def ioRequest (w : Outcome) (m : Machine) (tid : BitVec 16) (offset length io : U32) :
    Machine × Response :=
  if io = ioRead then (m.readRequest w offset length).finish
  else if io = ioWrite then (m.writeRequest offset length).finish
  else m.refuse tid

/-- The same for an NV file, which does not grow. The sum is a `u32`. -/
def ioRequestWithin (w : Outcome) (m : Machine) (tid : BitVec 16) (offset length io : U32) :
    Machine × Response :=
  if m.obj.mSize < (offset + length).toNat then m.refuse tid
  else m.ioRequest w tid offset length io

/-- How a state takes a request for I/O, behind the check of the file. -/
abbrev Request := Outcome → Machine → BitVec 16 → U32 → U32 → U32 → Machine × Response

/-- The open state of `CRfsFile` and of `CNvFile`. -/
def openedFile (request : Request) (w : Outcome) (m : Machine) (p : Packet) :
    Machine × Response :=
  match p.body with
  | .closeFile file => ((m.setTransaction p.tid).closeFile file).finish
  | .ioRequest file offset length io =>
      let m := m.setTransaction p.tid
      if m.obj.mId ≠ file then m.refuse p.tid else request w m p.tid offset length io
  | .read status file => (m.readResponse w status file).finish
  | .write status file data => (m.writeResponse md5 w status file data).finish
  | .opStatus status file =>
      m.opStatus p.tid status file fun io => if io = .closeFile then some .closed else none
  | _ => m.refuse p.tid

/-- The closed state of `CRfsFile`. -/
def closedRfsFile (w : Outcome) (m : Machine) (p : Packet) : Machine × Response :=
  match p.body with
  | .openFile file name => ((m.setTransaction p.tid).openFile w file name).finish
  | .opStatus status file =>
      m.opStatus p.tid status file fun io => if io = .openFile then some .opened else none
  | _ => m.refuse p.tid

/-- `CRfsFile::ProcessMessage`, behind the checks. -/
def processRfsFile (w : Outcome) (m : Machine) (p : Packet) : Machine × Response :=
  if m.obj.mState = .closed then m.closedRfsFile w p else m.openedFile md5 ioRequest w p

/-- A request for I/O on an NV file that is closed: it is opened, and no
command stays pending for it. -/
def openForRequest (w : Outcome) (m : Machine) (tid : BitVec 16) (offset length io : U32)
    (writable : Bool) (state : FileState) : Machine × Response :=
  let m := m.openNv w writable
  if m.obj.mFd = none then (m.status statusOpenFail, .keep)
  else (m.setState state).setSize.ioRequestWithin w tid offset length io

/-- The closed state of `CNvFile`. -/
def closedNvFile (w : Outcome) (m : Machine) (p : Packet) : Machine × Response :=
  match p.body with
  | .openFile file _ => ((m.setTransaction p.tid).openNvFile w file true).finish
  | .ioRequest file offset length io =>
      let m := m.setTransaction p.tid
      if m.obj.mId ≠ file then m.refuse p.tid
      else m.openForRequest w p.tid offset length io true .opened
  | .opStatus status file =>
      m.opStatus p.tid status file fun io => if io = .openFile then some .opened else none
  | _ => m.refuse p.tid

/-- `CNvFile::ProcessMessage`, behind the checks. -/
def processNvFile (w : Outcome) (m : Machine) (p : Packet) : Machine × Response :=
  if m.obj.mState = .closed then m.closedNvFile w p else m.openedFile md5 ioRequestWithin w p

/-- The closed state of `CNvProtectedFile`. Only a read may open the file. -/
def closedNvProtectedFile (w : Outcome) (m : Machine) (p : Packet) : Machine × Response :=
  match p.body with
  | .openFile file _ => ((m.setTransaction p.tid).openNvFile w file false).finish
  | .nvUnprotect file => ((m.setTransaction p.tid).unprotectNv w file).finish
  | .ioRequest file offset length io =>
      let m := m.setTransaction p.tid
      if io ≠ ioRead then m.refuse p.tid
      else if m.obj.mId ≠ file then m.refuse p.tid
      else m.openForRequest w p.tid offset length io false .openedProtected
  | .opStatus status file =>
      m.opStatus p.tid status file fun io =>
        if io = .openFile then some .openedProtected
        else if io = .nvUnprotect then some .openedUnprotected else none
  | _ => m.refuse p.tid

/-- The protected state. -/
def protectedState (w : Outcome) (m : Machine) (p : Packet) : Machine × Response :=
  match p.body with
  | .closeFile file => ((m.setTransaction p.tid).closeNvProtected file).finish
  | .nvUnprotect file => ((m.setTransaction p.tid).unprotectNv w file).finish
  | .read status file => (m.readResponse w status file).finish
  | .opStatus status file =>
      m.opStatus p.tid status file fun io =>
        if io = .nvUnprotect then some .openedUnprotected
        else if io = .closeFile then some .closed else none
  | _ => m.refuse p.tid

/-- The open state of `CNvProtectedFile`. -/
def unprotectedState (w : Outcome) (m : Machine) (p : Packet) : Machine × Response :=
  match p.body with
  | .nvProtect file => ((m.setTransaction p.tid).protectNv w file).finish
  | .ioRequest file offset length io =>
      let m := m.setTransaction p.tid
      if m.obj.mId ≠ file then m.refuse p.tid
      else m.ioRequestWithin w p.tid offset length io
  | .read status file => (m.readResponse w status file).finish
  | .write status file data => (m.writeResponse md5 w status file data).finish
  | .opStatus status file =>
      m.opStatus p.tid status file fun io =>
        if io = .nvProtect then some .openedProtected else none
  | .nvUnprotect file => ((m.setTransaction p.tid).unprotectNv w file).finish
  | _ => m.refuse p.tid

/-- `CNvProtectedFile::ProcessMessage`, behind the checks. -/
def processNvProtectedFile (w : Outcome) (m : Machine) (p : Packet) : Machine × Response :=
  if m.obj.mState = .closed then m.closedNvProtectedFile w p
  else if m.obj.mState = .openedProtected then m.protectedState w p
  else m.unprotectedState md5 w p

/-- **`ProcessMessage`.** The backup comes before every check; only the
protected file has one. -/
def processMessage (w : Outcome) (m : Machine) (p : Packet) : Machine × Response :=
  match p.body with
  | .nvBackup _ =>
      (if m.obj.cls = .nvProtectedFile then (m.backup md5 w).1 else m, .keep)
  | _ =>
      if m.blocked p then m.refuse p.tid
      else match m.obj.cls with
        | .rfsFile => m.processRfsFile md5 w p
        | .nvFile => m.processNvFile md5 w p
        | .nvProtectedFile => m.processNvProtectedFile md5 w p

/-- The class's own rules are for what asks for no backup. -/
theorem processMessage_of_ne {w : Outcome} {m : Machine} {p : Packet}
    (hb : ∀ file, p.body ≠ .nvBackup file) :
    m.processMessage md5 w p =
      if m.blocked p then m.refuse p.tid
      else match m.obj.cls with
        | .rfsFile => m.processRfsFile md5 w p
        | .nvFile => m.processNvFile md5 w p
        | .nvProtectedFile => m.processNvProtectedFile md5 w p := by
  unfold processMessage
  split
  · rename_i file hbody
    exact absurd hbody (hb file)
  · rfl

end Machine

/-! ## The service's entry for a file -/

/-- The destructors. -/
def destroy (m : Machine) : System Name BYTE :=
  match m.obj.cls, m.obj.mState with
  | _, .closed => m.sys
  | _, _ => m.sys.close m.obj.mFd

/-- An entry of `mFiles`, with the system and what was sent for it. -/
structure Slot where
  file : Option RfsFile
  sys : System Name BYTE
  sent : List Message

/-- What reaches an entry: a packet, with the system's answers, or
`FreeFile` when the service ends. -/
inductive Input where
  | packet (p : Packet) (w : Outcome)
  | free

namespace Slot

/-- An entry nothing was done with. -/
def start (files : Name → Option (List BYTE)) : Slot := ⟨none, ⟨files, [], [], []⟩, []⟩

/-- An entry before the first packet: without an object, or with the one
that `CheckNvFiles` has made, which knows the size of its NV data. -/
def begun (id : U32) (nvSize : Option ℕ) (files : Name → Option (List BYTE)) : Slot :=
  { start files with file := nvSize.map fun size => { allocFile id with mNvSize := size } }

/-- The object that takes the next packet: `AllocFile` where there is none. -/
def machine (id : U32) (s : Slot) : Machine := ⟨s.file.getD (allocFile id), s.sys, s.sent⟩

theorem machine_begun (id : U32) (nvSize : Option ℕ) (files : Name → Option (List BYTE)) :
    (begun id nvSize files).machine id =
      ⟨{ allocFile id with mNvSize := nvSize.getD 0 }, ⟨files, [], [], []⟩, []⟩ := by
  cases nvSize <;> rfl

def freeFile (s : Slot) : Slot :=
  match s.file with
  | none => s
  | some o => { file := none, sys := destroy ⟨o, s.sys, s.sent⟩, sent := s.sent }

/-- The entry an object is at work in. -/
def of (m : Machine) : Slot := ⟨some m.obj, m.sys, m.sent⟩

/-- What the service does with the object after `ProcessMessage`. -/
def settle (r : Machine × Response) : Slot :=
  if r.2 = .deleteNow then (of r.1).freeFile else of r.1

/-- The end of `ProcessRfsPacket`, for the id of the packet's file. -/
def processRfsPacket (id : U32) (s : Slot) (p : Packet) (w : Outcome) : Slot :=
  settle ((s.machine id).processMessage md5 w p)

/-- One input. -/
def step (id : U32) (s : Slot) : Input → Slot
  | .packet p w => s.processRfsPacket md5 id p w
  | .free => s.freeFile

end Slot

end ExynosVendor.Rfs
