import ExynosVendor.Common.Guarded
import ExynosVendor.Telephony.Rfs.Service

/-!
# Packets in the read buffer

The same service, with a packet as the bytes that were received. A field
is read where the code reads it, and a read behind the bytes received is a
fault, and so is an index behind `mFiles`. `yields_processRfsPacketAt` is
the relation to the service that takes its packets apart: under which
condition there is no fault, and that the two then do the same.
-/

namespace ExynosVendor.Rfs

open Ril (BYTE)
open Descriptor Guarded

variable (md5 : List BYTE → List BYTE)

/-- What goes wrong. -/
inductive Fault where
  /-- A read behind the bytes received. -/
  | behind
  /-- An index behind `mFiles`. -/
  | handle (id : U32)
  deriving DecidableEq

/-- `RFS_MAX_READ_BUFFER`. -/
def maxReadBuffer : ℕ := 2048 + 64

/-- `RFS_BAD_HANDLE`, as a `u32`. -/
def badHandle : U32 := BitVec.allOnes 32

/-! ## Fields -/

/-- The `u32` at an offset, where there is one. -/
def word32 (bytes : List BYTE) (a : ℕ) : U32 :=
  BitVec.ofNat 32 (LittleEndian.decode (slice 0 bytes a 4))

/-- The `u16` there. -/
def word16 (bytes : List BYTE) (a : ℕ) : BitVec 16 :=
  BitVec.ofNat 16 (LittleEndian.decode (slice 0 bytes a 2))

def u32At (bytes : List BYTE) (a : ℕ) : Except Fault U32 :=
  (fun b => BitVec.ofNat 32 (LittleEndian.decode b)) <$> read .behind bytes a 4

def u16At (bytes : List BYTE) (a : ℕ) : Except Fault (BitVec 16) :=
  (fun b => BitVec.ofNat 16 (LittleEndian.decode b)) <$> read .behind bytes a 2

/-- `enum rfs_command`, as a packet has it. -/
inductive Command where
  | read | write | opStatus | openFile | closeFile | ioRequest | nvUnprotect | nvProtect | nvBackup
  | other
  deriving DecidableEq

namespace Command

/-- `pHeader->cmd`. -/
def ofCode (cmd : BitVec 16) : Command :=
  if cmd = 1 then .read
  else if cmd = 2 then .write
  else if cmd = 3 then .opStatus
  else if cmd = 4 then .openFile
  else if cmd = 5 then .closeFile
  else if cmd = 6 then .ioRequest
  else if cmd = 7 then .nvUnprotect
  else if cmd = 8 then .nvProtect
  else if cmd = 257 then .nvBackup
  else .other

/-- The commands that are let through while one is pending. -/
def answers : Command → Bool
  | .read | .write | .opStatus => true
  | _ => false

end Command

/-! ## `GetFileId` -/

/-- A sum of `size_t`, which has so many bits. -/
def sizeAdd (bits a b : ℕ) : ℕ := (a + b) % 2 ^ bits

/-- A difference of `size_t`. -/
def sizeSub (bits a b : ℕ) : ℕ := (a + 2 ^ bits - b) % 2 ^ bits

/-- Whether `strcasecmp` finds the text behind an offset. -/
def strcasecmp (bytes : List BYTE) (a : ℕ) (name : Name) : Except Fault Bool :=
  matchFront .behind ((name ++ [0]).map lower) ((bytes.drop a).map lower)

def getFileId (bits : ℕ) (bytes : List BYTE) : Except Fault U32 := do
  let cmd ← u16At bytes 0
  match Command.ofCode cmd with
  | .read | .write | .opStatus => u32At bytes 12
  | .openFile => do
      let nameLen ← u32At bytes 12
      let len ← u32At bytes 4
      if sizeSub bits len.toNat 8 < nameLen.toNat then return badHandle
      else do
        let id ← u32At bytes 8
        if id = nvNormal ∨ id = nvUser ∨ id = nvProtected then do
          let same ← strcasecmp bytes 16 (nvFileName id)
          return if same then id else badHandle
        else return id
  | .other => return badHandle
  | _ => u32At bytes 8

/-! ## `ProcessMessage` -/

namespace Machine

/-- The check of the transaction, and the one for pending I/O. -/
def blockedAt (m : Machine) (cmd : Command) (tid : BitVec 16) : Prop :=
  m.obj.mLastIo ≠ .none ∧
    ((m.obj.mTransaction ≠ tid ∧ cmd ≠ .opStatus) ∨ cmd.answers = false)

instance (m : Machine) (cmd : Command) (tid : BitVec 16) : Decidable (m.blockedAt cmd tid) :=
  inferInstanceAs (Decidable (_ ∧ _))

/-- A command of which only the file is read. -/
def fileAt (bytes : List BYTE) (f : U32 → Machine) : Except Fault (Machine × Response) := do
  let file ← u32At bytes 8
  return (f file).finish

/-- `CRfsFile::Open`. The name is appended up to its end. -/
def openFileAt (w : Outcome) (m : Machine) (bytes : List BYTE) : Except Fault Machine := do
  let file ← u32At bytes 8
  if m.obj.mId ≠ file then return m.status statusInvalidParam
  else do
    let name ← readUntil .behind 0 (bytes.drop 16)
    return m.openFile w file name

/-- `ReadResponse`. -/
def readResponseAt (w : Outcome) (m : Machine) (bytes : List BYTE) : Except Fault Machine :=
  if m.obj.mLastIo ≠ .read then return m.status statusInvalidParam
  else do
    let file ← u32At bytes 12
    if m.obj.mId ≠ file then return m.status statusInvalidParam
    else do
      let status ← u32At bytes 8
      return m.readResponse w status file

/-- `WriteResponse`. -/
def writeResponseAt (w : Outcome) (m : Machine) (bytes : List BYTE) : Except Fault Machine :=
  if m.obj.mLastIo ≠ .write then return m.status statusInvalidParam
  else do
    let file ← u32At bytes 12
    if m.obj.mId ≠ file then return m.status statusInvalidParam
    else do
      let status ← u32At bytes 8
      if status ≠ statusSuccess then return m.setIo .none
      else do
        let length ← u32At bytes 16
        if m.obj.mWriteLength < length.toNat then return m.status statusInvalidParam
        else do
          let data ← Guarded.read .behind bytes 20 length.toNat
          return m.writeResponse md5 w status file data

/-- `RFS_OP_STATUS`. -/
def opStatusAt (m : Machine) (tid : BitVec 16) (bytes : List BYTE)
    (settled : Io → Option FileState) : Except Fault (Machine × Response) := do
  let file ← u32At bytes 12
  if m.obj.mId ≠ file then return m.refuse tid
  else if m.obj.mTransaction ≠ tid then return m.finish
  else do
    let status ← u32At bytes 8
    return m.opStatus tid status file settled

/-- The fields of a request for I/O behind the file. One that exceeds the
file is logged with its kind. -/
def requestAt (request : Request) (w : Outcome) (m : Machine) (tid : BitVec 16)
    (bytes : List BYTE) : Except Fault (Machine × Response) := do
  let io ← u32At bytes 20
  let offset ← u32At bytes 12
  let length ← u32At bytes 16
  return request w m tid offset length io

/-- A request on an NV file that is closed. -/
def openForRequestAt (w : Outcome) (m : Machine) (tid : BitVec 16) (bytes : List BYTE)
    (writable : Bool) (state : FileState) : Except Fault (Machine × Response) :=
  let m := m.openNv w writable
  if m.obj.mFd = none then return (m.status statusOpenFail, .keep)
  else requestAt ioRequestWithin w (m.setState state).setSize tid bytes

/-- The open state of `CRfsFile` and of `CNvFile`. -/
def openedFileAt (request : Request) (w : Outcome) (m : Machine) (cmd : Command)
    (tid : BitVec 16) (bytes : List BYTE) : Except Fault (Machine × Response) :=
  match cmd with
  | .closeFile => fileAt bytes (m.setTransaction tid).closeFile
  | .ioRequest => do
      let m := m.setTransaction tid
      let file ← u32At bytes 8
      if m.obj.mId ≠ file then return m.refuse tid else requestAt request w m tid bytes
  | .read => finish <$> m.readResponseAt w bytes
  | .write => finish <$> m.writeResponseAt md5 w bytes
  | .opStatus =>
      m.opStatusAt tid bytes fun io => if io = .closeFile then some .closed else none
  | _ => return m.refuse tid

/-- The closed state of `CRfsFile`. -/
def closedRfsFileAt (w : Outcome) (m : Machine) (cmd : Command) (tid : BitVec 16)
    (bytes : List BYTE) : Except Fault (Machine × Response) :=
  match cmd with
  | .openFile => finish <$> (m.setTransaction tid).openFileAt w bytes
  | .opStatus =>
      m.opStatusAt tid bytes fun io => if io = .openFile then some .opened else none
  | _ => return m.refuse tid

/-- The closed state of `CNvFile`. -/
def closedNvFileAt (w : Outcome) (m : Machine) (cmd : Command) (tid : BitVec 16)
    (bytes : List BYTE) : Except Fault (Machine × Response) :=
  match cmd with
  | .openFile => fileAt bytes fun file => (m.setTransaction tid).openNvFile w file true
  | .ioRequest => do
      let m := m.setTransaction tid
      let file ← u32At bytes 8
      if m.obj.mId ≠ file then return m.refuse tid
      else m.openForRequestAt w tid bytes true .opened
  | .opStatus =>
      m.opStatusAt tid bytes fun io => if io = .openFile then some .opened else none
  | _ => return m.refuse tid

/-- The closed state of `CNvProtectedFile`, which looks at the kind of a
request first. -/
def closedNvProtectedFileAt (w : Outcome) (m : Machine) (cmd : Command) (tid : BitVec 16)
    (bytes : List BYTE) : Except Fault (Machine × Response) :=
  match cmd with
  | .openFile => fileAt bytes fun file => (m.setTransaction tid).openNvFile w file false
  | .nvUnprotect => fileAt bytes ((m.setTransaction tid).unprotectNv w)
  | .ioRequest => do
      let m := m.setTransaction tid
      let io ← u32At bytes 20
      if io ≠ ioRead then return m.refuse tid
      else do
        let file ← u32At bytes 8
        if m.obj.mId ≠ file then return m.refuse tid
        else m.openForRequestAt w tid bytes false .openedProtected
  | .opStatus =>
      m.opStatusAt tid bytes fun io =>
        if io = .openFile then some .openedProtected
        else if io = .nvUnprotect then some .openedUnprotected else none
  | _ => return m.refuse tid

/-- The protected state. -/
def protectedStateAt (w : Outcome) (m : Machine) (cmd : Command) (tid : BitVec 16)
    (bytes : List BYTE) : Except Fault (Machine × Response) :=
  match cmd with
  | .closeFile => fileAt bytes (m.setTransaction tid).closeNvProtected
  | .nvUnprotect => fileAt bytes ((m.setTransaction tid).unprotectNv w)
  | .read => finish <$> m.readResponseAt w bytes
  | .opStatus =>
      m.opStatusAt tid bytes fun io =>
        if io = .nvUnprotect then some .openedUnprotected
        else if io = .closeFile then some .closed else none
  | _ => return m.refuse tid

/-- The open state of `CNvProtectedFile`. -/
def unprotectedStateAt (w : Outcome) (m : Machine) (cmd : Command) (tid : BitVec 16)
    (bytes : List BYTE) : Except Fault (Machine × Response) :=
  match cmd with
  | .nvProtect => fileAt bytes ((m.setTransaction tid).protectNv w)
  | .ioRequest => do
      let m := m.setTransaction tid
      let file ← u32At bytes 8
      if m.obj.mId ≠ file then return m.refuse tid
      else requestAt ioRequestWithin w m tid bytes
  | .read => finish <$> m.readResponseAt w bytes
  | .write => finish <$> m.writeResponseAt md5 w bytes
  | .opStatus =>
      m.opStatusAt tid bytes fun io => if io = .nvProtect then some .openedProtected else none
  | .nvUnprotect => fileAt bytes ((m.setTransaction tid).unprotectNv w)
  | _ => return m.refuse tid

/-- The three `ProcessMessage`, behind the checks. -/
def dispatchAt (w : Outcome) (m : Machine) (cmd : Command) (tid : BitVec 16)
    (bytes : List BYTE) : Except Fault (Machine × Response) :=
  match m.obj.cls with
  | .rfsFile =>
      if m.obj.mState = .closed then m.closedRfsFileAt w cmd tid bytes
      else m.openedFileAt md5 ioRequest w cmd tid bytes
  | .nvFile =>
      if m.obj.mState = .closed then m.closedNvFileAt w cmd tid bytes
      else m.openedFileAt md5 ioRequestWithin w cmd tid bytes
  | .nvProtectedFile =>
      if m.obj.mState = .closed then m.closedNvProtectedFileAt w cmd tid bytes
      else if m.obj.mState = .openedProtected then m.protectedStateAt w cmd tid bytes
      else m.unprotectedStateAt md5 w cmd tid bytes

/-- **`ProcessMessage`.** -/
def processMessageAt (w : Outcome) (m : Machine) (bytes : List BYTE) :
    Except Fault (Machine × Response) := do
  let code ← u16At bytes 0
  let tid ← u16At bytes 2
  let cmd := Command.ofCode code
  if cmd = .nvBackup then
    return (if m.obj.cls = .nvProtectedFile then (m.backup md5 w).1 else m, .keep)
  else if m.blockedAt cmd tid then return m.refuse tid
  else m.dispatchAt md5 w cmd tid bytes

end Machine

namespace Service

/-- `mFiles[index]`, with the object allocated if there is none. The vector
has `RFS_MAX_HANDLES` entries. -/
def entryAt (sv : Service) (index : U32) : Except Fault Machine :=
  if index.toNat < maxHandles then return sv.machine index else throw (.handle index)

/-- **`ProcessRfsPacket`**, with nothing for a return of -1. -/
def processRfsPacketAt (bits : ℕ) (sv : Service) (bytes : List BYTE) (w : Outcome) :
    Except Fault (Option Service) :=
  let dataSize := bytes.length % 2 ^ 32
  if dataSize < headerSize then return none
  else do
    let len ← u32At bytes 4
    if dataSize < sizeAdd bits headerSize len.toNat then return none
    else do
      let file ← getFileId bits bytes
      if maxHandles < file.toNat then return none
      else do
        let m ← sv.entryAt file
        let r ← m.processMessageAt md5 w bytes
        return some (sv.put file (Slot.settle r))

end Service

/-! ## What the bytes say -/

/-- The command of a packet. -/
def command (bytes : List BYTE) : Command := Command.ofCode (word16 bytes 0)

/-- Its transaction. -/
def transaction (bytes : List BYTE) : BitVec 16 := word16 bytes 2

namespace Command

/-- The fields of a command. -/
def body (bytes : List BYTE) : Command → Body
  | .read => .read (word32 bytes 8) (word32 bytes 12)
  | .write => .write (word32 bytes 8) (word32 bytes 12) (slice 0 bytes 20 (word32 bytes 16).toNat)
  | .opStatus => .opStatus (word32 bytes 8) (word32 bytes 12)
  | .openFile => .openFile (word32 bytes 8) ((bytes.drop 16).takeWhile (· ≠ 0))
  | .closeFile => .closeFile (word32 bytes 8)
  | .ioRequest =>
      .ioRequest (word32 bytes 8) (word32 bytes 12) (word32 bytes 16) (word32 bytes 20)
  | .nvUnprotect => .nvUnprotect (word32 bytes 8)
  | .nvProtect => .nvProtect (word32 bytes 8)
  | .nvBackup => .nvBackup (word32 bytes 8)
  | .other => .other

/-- Where the fields end that `GetFileId` reads. -/
def fileEnd : Command → ℕ
  | .read | .write | .opStatus | .openFile => 16
  | .other => 8
  | _ => 12

end Command

/-- The name of a file is said to go on behind the packet. -/
def Truncated (bits : ℕ) (bytes : List BYTE) : Prop :=
  sizeSub bits (word32 bytes 4).toNat 8 < (word32 bytes 12).toNat

instance (bits : ℕ) (bytes : List BYTE) : Decidable (Truncated bits bytes) :=
  inferInstanceAs (Decidable (_ < _))

/-- The packet. -/
def packet (bits : ℕ) (bytes : List BYTE) : Packet :=
  ⟨transaction bytes,
    if command bytes = .openFile ∧ Truncated bits bytes then .other
    else (command bytes).body bytes⟩

/-! ## What is read of them -/

namespace Machine

/-- What of a packet has to be inside the bytes behind the file, if it is
looked at: a request, the data of a response, the name of a file. -/
def Inside (m : Machine) (bytes : List BYTE) (request data name : Prop) : Command → Prop
  | .ioRequest => request → 24 ≤ bytes.length
  | .write => data → 20 ≤ bytes.length ∧ ((word32 bytes 16).toNat ≤ m.obj.mWriteLength →
      20 + (word32 bytes 16).toNat ≤ bytes.length)
  | .openFile => name → 0 ∈ bytes.drop 16
  | _ => True

/-- An object that has nothing pending looks at a request on a file. A
closed file has to be opened before; the protected one looks at the kind
first. -/
def LooksAtRequest (m : Machine) (w : Outcome) (file : U32) : Prop :=
  m.obj.mLastIo = .none ∧ match m.obj.cls with
    | .rfsFile => m.obj.mState ≠ .closed ∧ m.obj.mId = file
    | .nvFile => m.obj.mId = file ∧
        (m.obj.mState = .closed → w.opens ∧ m.sys.files m.nvName ≠ none)
    | .nvProtectedFile => m.obj.mState = .closed ∨
        m.obj.mState ≠ .openedProtected ∧ m.obj.mId = file

/-- An object takes the data of a response. -/
def LooksAtData (m : Machine) (status file : U32) : Prop :=
  m.obj.mLastIo = .write ∧ m.obj.mId = file ∧ status = statusSuccess

/-- Its state has a case for them. -/
def TakesData (m : Machine) : Prop :=
  m.obj.mState ≠ .closed ∧ (m.obj.cls = .nvProtectedFile → m.obj.mState ≠ .openedProtected)

/-- An object appends the name to its path. -/
def LooksAtName (m : Machine) (file : U32) : Prop :=
  m.obj.mLastIo = .none ∧ m.obj.cls = .rfsFile ∧ m.obj.mState = .closed ∧ m.obj.mId = file

/-- **What an object looks at is inside the bytes.** -/
def Covered (m : Machine) (w : Outcome) (bytes : List BYTE) : Prop :=
  m.Inside bytes (m.LooksAtRequest w (word32 bytes 8))
    (m.obj.mTransaction = transaction bytes ∧ m.TakesData ∧
      m.LooksAtData (word32 bytes 8) (word32 bytes 12))
    (m.LooksAtName (word32 bytes 8)) (command bytes)

end Machine

section Fields

variable {bytes : List BYTE} {a : ℕ}

theorem yields_u32At (bytes : List BYTE) (a : ℕ) :
    Yields (u32At bytes a) (a + 4 ≤ bytes.length) (word32 bytes a) :=
  (yields_read Fault.behind 0 bytes a 4).map _

theorem u32At_of_le (h : a + 4 ≤ bytes.length) : u32At bytes a = .ok (word32 bytes a) :=
  (yields_u32At bytes a).ok h

theorem u16At_of_le (h : a + 2 ≤ bytes.length) : u16At bytes a = .ok (word16 bytes a) :=
  ((yields_read Fault.behind 0 bytes a 2).map _).ok h

end Fields

namespace Machine

section Spec

variable {m : Machine} {bytes : List BYTE} {tid : BitVec 16} {w : Outcome}

theorem fileAt_eq (h : 12 ≤ bytes.length) (f : U32 → Machine) :
    fileAt bytes f = .ok (f (word32 bytes 8)).finish := by
  unfold fileAt
  rw [u32At_of_le h]
  rfl

theorem opStatusAt_eq (h : 16 ≤ bytes.length) (m : Machine) (tid : BitVec 16)
    (settled : Io → Option FileState) : m.opStatusAt tid bytes settled =
      .ok (m.opStatus tid (word32 bytes 8) (word32 bytes 12) settled) := by
  unfold opStatusAt
  rw [u32At_of_le h, u32At_of_le (by omega : 8 + 4 ≤ bytes.length)]
  unfold opStatus
  dsimp only [bind, Except.bind]
  split_ifs <;> rfl

theorem readResponseAt_eq (h : 16 ≤ bytes.length) (w : Outcome) (m : Machine) :
    m.readResponseAt w bytes = .ok (m.readResponse w (word32 bytes 8) (word32 bytes 12)) := by
  unfold readResponseAt
  rw [u32At_of_le h, u32At_of_le (by omega : 8 + 4 ≤ bytes.length)]
  by_cases hio : m.obj.mLastIo ≠ .read
  · rw [if_pos hio, readResponse, if_pos hio]
    rfl
  · rw [if_neg hio]
    by_cases hfile : m.obj.mId ≠ word32 bytes 12
    · rw [readResponse, if_neg hio, if_pos hfile]
      exact if_pos hfile
    · exact if_neg hfile

/-- **The fields of a request.** -/
theorem yields_requestAt (request : Request) (w : Outcome) (m : Machine) (tid : BitVec 16)
    (bytes : List BYTE) : Yields (requestAt request w m tid bytes) (24 ≤ bytes.length)
      (request w m tid (word32 bytes 12) (word32 bytes 16) (word32 bytes 20)) := by
  refine ((yields_u32At bytes 20).bind (d := True) fun h => ?_).congr (iff_of_eq (and_true _))
  refine .of_eq ?_ trivial
  rw [u32At_of_le (by omega : 12 + 4 ≤ bytes.length),
    u32At_of_le (by omega : 16 + 4 ≤ bytes.length)]
  rfl

/-- **The data of a response.** -/
theorem yields_writeResponseAt (h : 16 ≤ bytes.length) (w : Outcome) (m : Machine) :
    Yields (m.writeResponseAt md5 w bytes)
      (m.Inside bytes False (m.LooksAtData (word32 bytes 8) (word32 bytes 12)) False .write)
      (m.writeResponse md5 w (word32 bytes 8) (word32 bytes 12)
        (slice 0 bytes 20 (word32 bytes 16).toNat)) := by
  unfold writeResponseAt Inside LooksAtData
  rw [u32At_of_le h, u32At_of_le (by omega : 8 + 4 ≤ bytes.length)]
  by_cases hio : m.obj.mLastIo ≠ .write
  · rw [if_pos hio, writeResponse, if_pos hio]
    exact .of_eq rfl fun hlooks => absurd hlooks.1 hio
  rw [if_neg hio]
  by_cases hfile : m.obj.mId ≠ word32 bytes 12
  · rw [writeResponse, if_neg hio, if_pos hfile]
    exact .of_eq (if_pos hfile) fun hlooks => absurd hlooks.2.1 hfile
  dsimp only [bind, Except.bind]
  rw [if_neg hfile]
  by_cases hstatus : word32 bytes 8 ≠ statusSuccess
  · rw [writeResponse, if_neg hio, if_neg hfile, if_pos hstatus, if_pos hstatus]
    exact .of_eq rfl fun hlooks => absurd hlooks.2.2 hstatus
  rw [if_neg hstatus]
  have hlooks : m.obj.mLastIo = .write ∧ m.obj.mId = word32 bytes 12 ∧
      word32 bytes 8 = statusSuccess := ⟨not_not.mp hio, not_not.mp hfile, not_not.mp hstatus⟩
  refine ((yields_u32At bytes 16).bind (d := (word32 bytes 16).toNat ≤ m.obj.mWriteLength →
    20 + (word32 bytes 16).toNat ≤ bytes.length) fun _ => ?_).congr
      ⟨fun hinside _ => hinside, fun hinside => hinside hlooks⟩
  by_cases hlength : m.obj.mWriteLength < (word32 bytes 16).toNat
  · rw [if_pos hlength, writeResponse, if_neg hio, if_neg hfile, if_neg hstatus,
      length_slice, if_pos hlength]
    exact .of_eq rfl fun hle => absurd hle (Nat.not_le.mpr hlength)
  · rw [if_neg hlength]
    refine ((yields_read Fault.behind 0 bytes 20 (word32 bytes 16).toNat).map _).congr ?_
    exact ⟨fun hinside _ => hinside, fun hinside => hinside (Nat.not_lt.mp hlength)⟩

/-- **The name of a file.** -/
theorem yields_openFileAt (h : 12 ≤ bytes.length) (w : Outcome) (m : Machine) :
    Yields (m.openFileAt w bytes) (m.obj.mId = word32 bytes 8 → 0 ∈ bytes.drop 16)
      (m.openFile w (word32 bytes 8) ((bytes.drop 16).takeWhile (· ≠ 0))) := by
  unfold openFileAt
  rw [u32At_of_le h]
  by_cases hfile : m.obj.mId ≠ word32 bytes 8
  · rw [openFile, if_pos hfile]
    exact .of_eq (if_pos hfile) fun heq => absurd heq hfile
  · dsimp only [bind, Except.bind]
    rw [if_neg hfile]
    refine ((yields_readUntil Fault.behind 0 (bytes.drop 16)).map _).congr ?_
    exact ⟨fun hmem _ => hmem, fun hmem => hmem (not_not.mp hfile)⟩

theorem openNv_mFd_eq_none (w : Outcome) (m : Machine) (writable : Bool) :
    (m.openNv w writable).obj.mFd = none ↔ ¬ (w.opens ∧ m.sys.files m.nvName ≠ none) := by
  unfold openNv
  split
  · next hopen => exact iff_of_false (Option.some_ne_none _) (not_not.mpr hopen)
  · next hopen => exact iff_of_true rfl hopen

theorem yields_openForRequestAt (w : Outcome) (m : Machine) (tid : BitVec 16)
    (bytes : List BYTE) (writable : Bool) (state : FileState) :
    Yields (m.openForRequestAt w tid bytes writable state)
      (w.opens ∧ m.sys.files m.nvName ≠ none → 24 ≤ bytes.length)
      (m.openForRequest w tid (word32 bytes 12) (word32 bytes 16) (word32 bytes 20) writable
        state) := by
  have hnone := openNv_mFd_eq_none w m writable
  unfold openForRequestAt openForRequest
  dsimp only
  by_cases hfd : (m.openNv w writable).obj.mFd = none
  · rw [if_pos hfd, if_pos hfd]
    exact .of_eq rfl fun hopen => absurd hopen (hnone.mp hfd)
  · rw [if_neg hfd, if_neg hfd]
    refine (yields_requestAt ioRequestWithin w _ tid bytes).congr ?_
    exact ⟨fun h _ => h, fun h => h (not_not.mp fun hopen => hfd (hnone.mpr hopen))⟩

/-- A request for another file is refused unseen. -/
theorem yields_requestOf (h : 12 ≤ bytes.length) {c : Prop} (m : Machine) (tid : BitVec 16)
    {x : Except Fault (Machine × Response)} {r : Machine × Response} (hx : Yields x c r) :
    Yields (do
        let file ← u32At bytes 8
        if m.obj.mId ≠ file then return m.refuse tid else x)
      (m.obj.mId = word32 bytes 8 → c)
      (if m.obj.mId ≠ word32 bytes 8 then m.refuse tid else r) := by
  rw [u32At_of_le h]
  dsimp only [bind, Except.bind]
  by_cases hfile : m.obj.mId ≠ word32 bytes 8
  · rw [if_pos hfile, if_pos hfile]
    exact .of_eq rfl fun heq => absurd heq hfile
  · rw [if_neg hfile, if_neg hfile]
    exact hx.congr ⟨fun hc _ => hc, fun hc => hc (not_not.mp hfile)⟩

/-! ### By the state -/

variable {cmd : Command}

theorem yields_openedFileAt (h : cmd.fileEnd ≤ bytes.length) (request : Request) (w : Outcome)
    (m : Machine) (tid : BitVec 16) :
    Yields (m.openedFileAt md5 request w cmd tid bytes)
      (m.Inside bytes (m.obj.mId = word32 bytes 8)
        (m.LooksAtData (word32 bytes 8) (word32 bytes 12)) False cmd)
      (m.openedFile md5 request w ⟨tid, cmd.body bytes⟩) := by
  cases cmd with
  | closeFile => exact .of_eq (fileAt_eq h _) trivial
  | ioRequest => exact yields_requestOf h (m.setTransaction tid) tid (yields_requestAt ..)
  | read => exact .of_eq (congrArg (finish <$> ·) (readResponseAt_eq h w m)) trivial
  | write => exact (yields_writeResponseAt md5 h w m).map finish
  | opStatus => exact .of_eq (opStatusAt_eq h m tid _) trivial
  | openFile => exact .of_eq rfl False.elim
  | nvUnprotect | nvProtect | nvBackup | other => exact .of_eq rfl trivial

theorem yields_closedRfsFileAt (h : cmd.fileEnd ≤ bytes.length) (w : Outcome) (m : Machine)
    (tid : BitVec 16) :
    Yields (m.closedRfsFileAt w cmd tid bytes)
      (m.Inside bytes False False (m.obj.mId = word32 bytes 8) cmd)
      (m.closedRfsFile w ⟨tid, cmd.body bytes⟩) := by
  cases cmd with
  | openFile =>
    exact (yields_openFileAt (Nat.le_trans (by decide) h) w (m.setTransaction tid)).map finish
  | opStatus => exact .of_eq (opStatusAt_eq h m tid _) trivial
  | ioRequest | write => exact .of_eq rfl False.elim
  | read | closeFile | nvUnprotect | nvProtect | nvBackup | other => exact .of_eq rfl trivial

theorem yields_closedNvFileAt (h : cmd.fileEnd ≤ bytes.length) (w : Outcome) (m : Machine)
    (tid : BitVec 16) :
    Yields (m.closedNvFileAt w cmd tid bytes)
      (m.Inside bytes (m.obj.mId = word32 bytes 8 ∧ w.opens ∧ m.sys.files m.nvName ≠ none)
        False False cmd)
      (m.closedNvFile w ⟨tid, cmd.body bytes⟩) := by
  cases cmd with
  | openFile => exact .of_eq (fileAt_eq (Nat.le_trans (by decide) h) _) False.elim
  | opStatus => exact .of_eq (opStatusAt_eq h m tid _) trivial
  | ioRequest =>
    refine (yields_requestOf h (m.setTransaction tid) tid
      (yields_openForRequestAt w (m.setTransaction tid) tid bytes true .opened)).congr ?_
    exact ⟨fun hinside hlooks => hinside hlooks.1 hlooks.2,
      fun hinside hid hopen => hinside ⟨hid, hopen⟩⟩
  | write => exact .of_eq rfl False.elim
  | read | closeFile | nvUnprotect | nvProtect | nvBackup | other => exact .of_eq rfl trivial

theorem yields_closedNvProtectedFileAt (h : cmd.fileEnd ≤ bytes.length) (w : Outcome) (m : Machine)
    (tid : BitVec 16) :
    Yields (m.closedNvProtectedFileAt w cmd tid bytes) (m.Inside bytes True False False cmd)
      (m.closedNvProtectedFile w ⟨tid, cmd.body bytes⟩) := by
  cases cmd with
  | openFile => exact .of_eq (fileAt_eq (Nat.le_trans (by decide) h) _) False.elim
  | opStatus => exact .of_eq (opStatusAt_eq h m tid _) trivial
  | nvUnprotect => exact .of_eq (fileAt_eq h _) trivial
  | ioRequest =>
    -- the kind comes last in the packet, so that all of it is inside
    refine ((yields_u32At bytes 20).bind (d := True) fun hio => ?_).congr
      ⟨fun hboth _ => hboth.1, fun hinside => ⟨hinside trivial, trivial⟩⟩
    have hopen := (yields_openForRequestAt w (m.setTransaction tid) tid bytes false
      .openedProtected).congr (iff_true_intro fun _ => hio)
    have hof := (yields_requestOf h (m.setTransaction tid) tid hopen).congr
      (iff_true_intro fun _ => trivial)
    by_cases hkind : word32 bytes 20 ≠ ioRead
    · have hrefuse : m.closedNvProtectedFile w ⟨tid, Command.body bytes .ioRequest⟩ =
          (m.setTransaction tid).refuse tid := if_pos hkind
      rw [if_pos hkind, hrefuse]
      exact .of_eq rfl trivial
    · rw [if_neg hkind]
      exact hof.value fun _ => (if_neg hkind).symm
  | write => exact .of_eq rfl False.elim
  | read | closeFile | nvProtect | nvBackup | other => exact .of_eq rfl trivial

theorem yields_protectedStateAt (h : cmd.fileEnd ≤ bytes.length) (w : Outcome) (m : Machine)
    (tid : BitVec 16) :
    Yields (m.protectedStateAt w cmd tid bytes) (m.Inside bytes False False False cmd)
      (m.protectedState w ⟨tid, cmd.body bytes⟩) := by
  cases cmd with
  | closeFile | nvUnprotect => exact .of_eq (fileAt_eq h _) trivial
  | read => exact .of_eq (congrArg (finish <$> ·) (readResponseAt_eq h w m)) trivial
  | opStatus => exact .of_eq (opStatusAt_eq h m tid _) trivial
  | openFile | ioRequest | write => exact .of_eq rfl False.elim
  | nvProtect | nvBackup | other => exact .of_eq rfl trivial

theorem yields_unprotectedStateAt (h : cmd.fileEnd ≤ bytes.length) (w : Outcome) (m : Machine)
    (tid : BitVec 16) :
    Yields (m.unprotectedStateAt md5 w cmd tid bytes)
      (m.Inside bytes (m.obj.mId = word32 bytes 8)
        (m.LooksAtData (word32 bytes 8) (word32 bytes 12)) False cmd)
      (m.unprotectedState md5 w ⟨tid, cmd.body bytes⟩) := by
  cases cmd with
  | nvProtect | nvUnprotect => exact .of_eq (fileAt_eq h _) trivial
  | ioRequest => exact yields_requestOf h (m.setTransaction tid) tid (yields_requestAt ..)
  | read => exact .of_eq (congrArg (finish <$> ·) (readResponseAt_eq h w m)) trivial
  | write => exact (yields_writeResponseAt md5 h w m).map finish
  | opStatus => exact .of_eq (opStatusAt_eq h m tid _) trivial
  | openFile => exact .of_eq rfl False.elim
  | closeFile | nvBackup | other => exact .of_eq rfl trivial

theorem inside_congr {request request' data data' name name' : Prop}
    (hrequest : cmd = .ioRequest → (request ↔ request')) (hdata : cmd = .write → (data ↔ data'))
    (hname : cmd = .openFile → (name ↔ name')) :
    m.Inside bytes request data name cmd ↔ m.Inside bytes request' data' name' cmd := by
  cases cmd with
  | ioRequest => exact imp_congr_left (hrequest rfl)
  | write => exact imp_congr_left (hdata rfl)
  | openFile => exact imp_congr_left (hname rfl)
  | read | opStatus | closeFile | nvUnprotect | nvProtect | nvBackup | other => exact Iff.rfl

/-- The state of an object that has a case for what it looks at. -/
theorem yields_dispatchAt (h : cmd.fileEnd ≤ bytes.length)
    (hidle : cmd.answers = false → m.obj.mLastIo = .none) (w : Outcome) (tid : BitVec 16) :
    Yields (m.dispatchAt md5 w cmd tid bytes)
      (m.Inside bytes (m.LooksAtRequest w (word32 bytes 8))
        (m.TakesData ∧ m.LooksAtData (word32 bytes 8) (word32 bytes 12))
        (m.LooksAtName (word32 bytes 8)) cmd)
      (match m.obj.cls with
        | .rfsFile => m.processRfsFile md5 w ⟨tid, cmd.body bytes⟩
        | .nvFile => m.processNvFile md5 w ⟨tid, cmd.body bytes⟩
        | .nvProtectedFile => m.processNvProtectedFile md5 w ⟨tid, cmd.body bytes⟩) := by
  have hrequest : cmd = .ioRequest → m.obj.mLastIo = .none := fun hcmd => hidle (hcmd ▸ rfl)
  have hname : cmd = .openFile → m.obj.mLastIo = .none := fun hcmd => hidle (hcmd ▸ rfl)
  unfold dispatchAt processRfsFile processNvFile processNvProtectedFile LooksAtRequest TakesData
    LooksAtName
  cases hcls : m.obj.cls with
  | rfsFile =>
    by_cases hstate : m.obj.mState = .closed
    · simp only [hstate, if_true]
      refine (yields_closedRfsFileAt h w m tid).congr (inside_congr ?_ ?_ ?_)
      · simp
      · simp
      · intro hcmd
        simp [hname hcmd]
    · simp only [hstate, if_false]
      refine (yields_openedFileAt md5 h ioRequest w m tid).congr (inside_congr ?_ ?_ ?_)
      · intro hcmd
        simp [hrequest hcmd, hstate]
      · simp [hstate]
      · simp
  | nvFile =>
    by_cases hstate : m.obj.mState = .closed
    · simp only [hstate, if_true]
      refine (yields_closedNvFileAt h w m tid).congr (inside_congr ?_ ?_ ?_)
      · intro hcmd
        simp [hrequest hcmd]
      · simp
      · simp
    · simp only [hstate, if_false]
      refine (yields_openedFileAt md5 h ioRequestWithin w m tid).congr (inside_congr ?_ ?_ ?_)
      · intro hcmd
        simp [hrequest hcmd]
      · simp [hstate]
      · simp
  | nvProtectedFile =>
    by_cases hstate : m.obj.mState = .closed
    · simp only [hstate, if_true]
      refine (yields_closedNvProtectedFileAt h w m tid).congr (inside_congr ?_ ?_ ?_)
      · intro hcmd
        simp [hrequest hcmd]
      · simp
      · simp
    by_cases hprotected : m.obj.mState = .openedProtected
    · simp only [hprotected, if_true]
      refine (yields_protectedStateAt h w m tid).congr (inside_congr ?_ ?_ ?_)
      · simp
      · simp
      · simp
    · simp only [hstate, hprotected, if_false]
      refine (yields_unprotectedStateAt md5 h w m tid).congr (inside_congr ?_ ?_ ?_)
      · intro hcmd
        simp [hrequest hcmd, hprotected]
      · simp [hstate, hprotected]
      · simp

theorem blockedAt_iff :
    m.blocked ⟨tid, cmd.body bytes⟩ ↔ m.blockedAt cmd tid := by
  unfold blocked blockedAt
  cases cmd <;> simp [Command.body, answers, Command.answers]

/-- **`ProcessMessage`**, of a packet whose file was read. -/
theorem yields_processMessageAt (hheader : headerSize ≤ bytes.length)
    (h : (command bytes).fileEnd ≤ bytes.length) (w : Outcome) (m : Machine) :
    Yields (m.processMessageAt md5 w bytes) (m.Covered w bytes)
      (m.processMessage md5 w ⟨transaction bytes, (command bytes).body bytes⟩) := by
  rw [headerSize] at hheader
  unfold processMessageAt Covered
  rw [u16At_of_le (by omega : 0 + 2 ≤ bytes.length), u16At_of_le (by omega : 2 + 2 ≤ bytes.length)]
  dsimp only [bind, Except.bind]
  have hcmd : Command.ofCode (word16 bytes 0) = command bytes := rfl
  have htid : word16 bytes 2 = transaction bytes := rfl
  rw [hcmd, htid]
  clear hcmd htid
  generalize command bytes = cmd at h ⊢
  generalize transaction bytes = tid
  by_cases hbackup : cmd = .nvBackup
  · subst hbackup
    exact .of_eq (if_pos rfl) trivial
  have hne : ∀ file, cmd.body bytes ≠ .nvBackup file := by
    cases cmd <;> simp [Command.body] at hbackup ⊢
  rw [if_neg hbackup, processMessage_of_ne md5 hne]
  by_cases hblocked : m.blockedAt cmd tid
  · rw [if_pos hblocked, if_pos (blockedAt_iff.mpr hblocked)]
    refine .of_eq rfl ?_
    obtain ⟨hpending, hblocked⟩ := hblocked
    cases cmd with
    | ioRequest => exact fun hlooks => absurd hlooks.1 hpending
    | openFile => exact fun hlooks => absurd hlooks.1 hpending
    | write =>
      rcases hblocked with htid | hanswers
      · exact fun hlooks => absurd hlooks.1 htid.1
      · exact Bool.noConfusion hanswers
    | read | opStatus | closeFile | nvUnprotect | nvProtect | nvBackup | other => trivial
  · rw [if_neg hblocked, if_neg (mt blockedAt_iff.mp hblocked)]
    have hidle : cmd.answers = false → m.obj.mLastIo = .none := fun hanswers =>
      not_not.mp fun hpending => hblocked ⟨hpending, Or.inr hanswers⟩
    refine (yields_dispatchAt md5 h hidle w tid).congr (inside_congr (fun _ => Iff.rfl) ?_
      fun _ => Iff.rfl)
    rintro rfl
    -- a response of another transaction was refused
    refine ⟨fun hlooks => ⟨?_, hlooks⟩, fun hlooks => hlooks.2⟩
    by_contra htid
    have hpending : m.obj.mLastIo ≠ .none := by simp [hlooks.2.1]
    exact hblocked ⟨hpending, Or.inl ⟨htid, by decide⟩⟩

end Spec

end Machine

/-! ## The file of a packet -/

/-- **The name of an NV file is told apart inside the bytes**: what there is
of it is no beginning of the file's own. -/
def Compared (bits : ℕ) (bytes : List BYTE) : Prop :=
  command bytes = .openFile → ¬ Truncated bits bytes →
    word32 bytes 8 = nvNormal ∨ word32 bytes 8 = nvUser ∨ word32 bytes 8 = nvProtected →
      ¬ ((bytes.drop 16).map lower <+: (nvFileName (word32 bytes 8) ++ [0]).map lower ∧
        (bytes.drop 16).length < (nvFileName (word32 bytes 8) ++ [0]).length)

section FileId

variable {bits : ℕ} {bytes : List BYTE}

theorem lower_eq_zero {b : BYTE} : lower b = 0 ↔ b = 0 := by
  unfold lower
  split
  · next h =>
    constructor
    · intro hzero
      bv_omega
    · rintro rfl
      exact absurd h.1 (by decide)
  · exact Iff.rfl

theorem takeWhile_map_lower (b : List BYTE) :
    (b.map lower).takeWhile (· ≠ 0) = (b.takeWhile (· ≠ 0)).map lower := by
  rw [List.takeWhile_map]
  have hpred : ((fun x : BYTE => decide (x ≠ 0)) ∘ lower) = fun x => decide (x ≠ 0) :=
    funext fun x => decide_eq_decide.mpr (not_congr lower_eq_zero)
  rw [hpred]

theorem zero_notMem_nvFileName (id : U32) : (0 : BYTE) ∉ (nvFileName id).map lower := by
  unfold nvFileName
  split_ifs <;> decide

/-- **`strcasecmp` with the name of an NV file.** -/
theorem yields_strcasecmp (bytes : List BYTE) (id : U32) :
    Yields (strcasecmp bytes 16 (nvFileName id))
      (¬ ((bytes.drop 16).map lower <+: (nvFileName id ++ [0]).map lower ∧
        (bytes.drop 16).length < (nvFileName id ++ [0]).length))
      (decide (((bytes.drop 16).takeWhile (· ≠ 0)).map lower = (nvFileName id).map lower)) := by
  have hmatch := yields_matchFront Fault.behind ((nvFileName id ++ [0]).map lower)
    ((bytes.drop 16).map lower)
  rw [List.length_map, List.length_map] at hmatch
  refine hmatch.value fun hinside => decide_eq_decide.mpr ?_
  have hlower : (nvFileName id ++ [0]).map lower = (nvFileName id).map lower ++ [0] := by
    rw [List.map_append]
    rfl
  have hinside' : ¬ ((bytes.drop 16).map lower <+: (nvFileName id).map lower ++ [0] ∧
      ((bytes.drop 16).map lower).length < ((nvFileName id).map lower ++ [0]).length) := by
    rw [← hlower, List.length_map, List.length_map]
    exact hinside
  rw [hlower, prefix_iff_takeWhile (zero_notMem_nvFileName id) hinside', takeWhile_map_lower]

/-- **`GetFileId`.** -/
theorem yields_getFileId (hheader : headerSize ≤ bytes.length) :
    Yields (getFileId bits bytes) ((command bytes).fileEnd ≤ bytes.length ∧ Compared bits bytes)
      ((fileId (packet bits bytes).body).getD badHandle) := by
  rw [headerSize] at hheader
  unfold getFileId packet Compared
  rw [u16At_of_le (by omega : 0 + 2 ≤ bytes.length)]
  dsimp only [bind, Except.bind]
  have hcmd : Command.ofCode (word16 bytes 0) = command bytes := rfl
  rw [hcmd]
  clear hcmd
  generalize command bytes = cmd
  -- all but `RFS_OPEN` read the one field
  have hfield : ∀ {a n : ℕ} {c : Prop}, a + 4 = n → c →
      Yields (u32At bytes a) (n ≤ bytes.length ∧ c) (word32 bytes a) := by
    rintro a n c rfl hc
    exact (yields_u32At bytes a).congr (and_iff_left hc).symm
  cases cmd with
  | read | write | opStatus => exact hfield rfl fun hopen => by cases hopen
  | closeFile | ioRequest | nvUnprotect | nvProtect | nvBackup =>
    exact hfield rfl fun hopen => by cases hopen
  | other => exact .of_eq rfl ⟨hheader, fun hopen => by cases hopen⟩
  | openFile =>
    refine (yields_u32At bytes 12).bind fun h => ?_
    rw [u32At_of_le (by omega : 4 + 4 ≤ bytes.length), u32At_of_le (by omega : 8 + 4 ≤ bytes.length)]
    by_cases htruncated : Truncated bits bytes
    · rw [if_pos ⟨rfl, htruncated⟩]
      exact .of_eq (if_pos htruncated) fun _ hnot => absurd htruncated hnot
    · rw [if_neg fun hboth => htruncated hboth.2]
      dsimp only
      rw [if_neg (show ¬ sizeSub bits _ _ < _ from htruncated)]
      dsimp only [Command.body, fileId]
      by_cases hnv : word32 bytes 8 = nvNormal ∨ word32 bytes 8 = nvUser ∨
          word32 bytes 8 = nvProtected
      · rw [if_pos hnv, if_pos hnv]
        have hsame := yields_strcasecmp bytes (word32 bytes 8)
        generalize strcasecmp bytes 16 (nvFileName (word32 bytes 8)) = compared at hsame ⊢
        refine ((hsame.map fun same =>
          if same then word32 bytes 8 else badHandle).congr ?_).value fun _ => ?_
        · exact ⟨fun hinside _ _ _ => hinside, fun hinside => hinside rfl htruncated hnv⟩
        · by_cases hname : ((bytes.drop 16).takeWhile (· ≠ 0)).map lower =
              (nvFileName (word32 bytes 8)).map lower
          · rw [if_pos (decide_eq_true hname), if_pos hname]
            rfl
          · rw [if_neg (mt of_decide_eq_true hname), if_neg hname]
            rfl
      · rw [if_neg hnv, if_neg hnv]
        exact .of_eq rfl fun _ _ hnv' => absurd hnv' hnv

end FileId

/-! ## The service -/

namespace Service

/-- **The condition on the bytes that are taken for a packet.** The field
with the file is there, and the name it is compared with; there is an
entry for the file; and what its object looks at is there. -/
def Contained (bits : ℕ) (sv : Service) (bytes : List BYTE) (w : Outcome) : Prop :=
  ((command bytes).fileEnd ≤ bytes.length ∧ Compared bits bytes) ∧
    ∀ id, fileId (packet bits bytes).body = some id → id.toNat ≠ maxHandles ∧
      (id.toNat < maxHandles → (sv.machine id).Covered w bytes)

/-- The bytes are taken for a packet: the header is there, and as many
bytes as it says. -/
def Accepted (bits : ℕ) (bytes : List BYTE) : Prop :=
  headerSize ≤ bytes.length ∧ sizeAdd bits headerSize (word32 bytes 4).toNat ≤ bytes.length

instance (bits : ℕ) (bytes : List BYTE) : Decidable (Accepted bits bytes) :=
  inferInstanceAs (Decidable (_ ∧ _))

section Spec

variable {bits : ℕ} {bytes : List BYTE}

/-- What is not taken for a packet is rejected. -/
theorem processRfsPacketAt_of_not (hn : bytes.length ≤ maxReadBuffer)
    (h : ¬ Accepted bits bytes) (sv : Service) (w : Outcome) :
    sv.processRfsPacketAt md5 bits bytes w = .ok none := by
  rw [maxReadBuffer] at hn
  unfold processRfsPacketAt
  rw [Nat.mod_eq_of_lt (by omega)]
  dsimp only
  by_cases hheader : bytes.length < headerSize
  · rw [if_pos hheader]
    rfl
  · rw [if_neg hheader]
    rw [headerSize] at hheader
    rw [u32At_of_le (by omega : 4 + 4 ≤ bytes.length)]
    have hlen : bytes.length < sizeAdd bits headerSize (word32 bytes 4).toNat :=
      Nat.not_le.mp fun hle => h ⟨Nat.not_lt.mp hheader, hle⟩
    exact if_pos hlen

theorem processRfsPacket_some {sv : Service} {p : Packet} {id : U32} (w : Outcome)
    (hid : fileId p.body = some id) (h : id.toNat ≤ maxHandles) :
    sv.processRfsPacket md5 p w =
      sv.put id (Slot.settle ((sv.machine id).processMessage md5 w p)) := by
  unfold processRfsPacket
  rw [hid]
  exact if_neg (Nat.not_lt.mpr h)

/-- The packet has a case for a file. -/
def Addressed (bits : ℕ) (bytes : List BYTE) : Prop :=
  ∃ id, fileId (packet bits bytes).body = some id ∧ id.toNat ≤ maxHandles

/-- **`ProcessRfsPacket`** does with the bytes what the service does with
the packet, where the condition holds. -/
theorem yields_processRfsPacketAt (hn : bytes.length ≤ maxReadBuffer)
    (h : Accepted bits bytes) (sv : Service) (w : Outcome) [Decidable (Addressed bits bytes)] :
    Yields (sv.processRfsPacketAt md5 bits bytes w) (sv.Contained bits bytes w)
      (if Addressed bits bytes then some (sv.processRfsPacket md5 (packet bits bytes) w)
        else none) := by
  obtain ⟨hheader, hlen⟩ := h
  rw [maxReadBuffer] at hn
  unfold processRfsPacketAt
  rw [Nat.mod_eq_of_lt (by omega), u32At_of_le (by rw [headerSize] at hheader; omega)]
  dsimp only [bind, Except.bind]
  rw [if_neg (Nat.not_lt.mpr hheader), if_neg (Nat.not_lt.mpr hlen)]
  refine (yields_getFileId hheader).bind fun hfile => ?_
  cases hid : fileId (packet bits bytes).body with
  | none =>
    have hnot : ¬ Addressed bits bytes := fun ⟨id, hid', _⟩ =>
      Option.some_ne_none id (hid'.symm.trans hid)
    rw [if_neg hnot]
    exact .of_eq (if_pos (by decide)) fun id hid' => absurd hid'.symm (Option.some_ne_none id)
  | some id =>
    have hforall : ∀ q : U32 → Prop, (∀ id', some id = some id' → q id') ↔ q id := fun q =>
      ⟨fun hq => hq id rfl, fun hq id' hid' => Option.some.inj hid' ▸ hq⟩
    refine Yields.congr ?_ (hforall _).symm
    rw [Option.getD_some]
    by_cases hlarge : maxHandles < id.toNat
    · have hnot : ¬ Addressed bits bytes := fun ⟨id', hid', hle⟩ => by
        obtain rfl := Option.some.inj (hid.symm.trans hid')
        exact Nat.not_lt.mpr hle hlarge
      rw [if_pos hlarge, if_neg hnot]
      exact .of_eq rfl ⟨Nat.ne_of_gt hlarge, fun hlt => absurd hlt (Nat.lt_asymm hlarge)⟩
    have hle := Nat.not_lt.mp hlarge
    rw [if_neg hlarge, if_pos ⟨id, hid, hle⟩, processRfsPacket_some md5 w hid hle]
    unfold entryAt
    by_cases hentry : id.toNat < maxHandles
    · have hpacket : packet bits bytes = ⟨transaction bytes, (command bytes).body bytes⟩ := by
        unfold packet at hid ⊢
        by_cases htruncated : command bytes = .openFile ∧ Truncated bits bytes
        · rw [if_pos htruncated] at hid
          exact absurd hid.symm (Option.some_ne_none id)
        · rw [if_neg htruncated]
      rw [if_pos hentry, hpacket]
      refine ((Machine.yields_processMessageAt md5 hheader hfile.1 w (sv.machine id)).map _).congr ?_
      exact ⟨fun h => ⟨Nat.ne_of_lt hentry, fun _ => h⟩, fun h => h.2 hentry⟩
    · -- the entry behind the last
      rw [if_neg hentry]
      exact ⟨fun h => absurd (Nat.le_antisymm hle (Nat.not_lt.mp hentry)) h.1,
        fun _ => ⟨.handle id, rfl⟩⟩

end Spec

end Service

end ExynosVendor.Rfs
