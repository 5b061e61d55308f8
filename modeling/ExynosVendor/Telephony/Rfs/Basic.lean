import ExynosVendor.Common.Descriptor
import ExynosVendor.Ril.Basic

/-!
# The modem's remote files

The modem keeps its files on the application processor and works on them
through packets of `rfs.h`. Here are the packets, the messages sent back,
and the object that serves one file. Its three classes share the record:
`CRfsFile` for any file, `CNvFile` and `CNvProtectedFile` for the NV data.

A packet holds the fields of its command; of a write response the length
field is that of its data.
-/

namespace ExynosVendor.Rfs

open Ril (BYTE)
open Descriptor

abbrev U32 := BitVec 32

/-- A name under `RFS_FILE_PATH`. -/
abbrev Name := List BYTE

/-- The bytes of a text. -/
def text (s : String) : List BYTE := s.toList.map fun c => BitVec.ofNat 8 c.toNat

/-- `RFS_FRAME_DATA_PAYLOAD_SIZE`. -/
def framePayloadSize : ℕ := 2012

/-- `sizeof(struct rfs_header)`. -/
def headerSize : ℕ := 8

/-- `sizeof(struct rfs_read)`. -/
def readSize : ℕ := 12

/-- `RFS_NV_NORMAL`. -/
def nvNormal : U32 := 1

/-- `RFS_NV_USER`. -/
def nvUser : U32 := 2

/-- `RFS_NV_PROTECTED`. -/
def nvProtected : U32 := 3

/-- `rfs_nv_file_names`, by the id less one. -/
def nvFileName (id : U32) : Name :=
  if id = nvNormal then text "nv_normal.bin"
  else if id = nvUser then text "nv_user.bin"
  else text "nv_protected.bin"

/-- `toc_section_names`, by the id less one. -/
def tocSectionName (id : U32) : List BYTE :=
  if id = nvNormal then text "NV_NORM"
  else if id = nvUser then text "NONE"
  else text "NV_PROT"

/-- The name of a file's checksum, with `RFS_NV_CSUM_FILEEXT`. -/
def csumName (name : Name) : Name := name ++ text ".md5"

/-- `RFS_BACKUP_FILE_PATH` with `RFS_NV_BACKUP_FILEEXT`. -/
def backupName : Name := text "backup/nv_protected.bak"

/-- `RFS_STATUS_SUCCESS`. -/
def statusSuccess : U32 := 0

/-- `RFS_STATUS_OPEN_FAIL`. -/
def statusOpenFail : U32 := 1

/-- `RFS_STATUS_READ_FAIL`. -/
def statusReadFail : U32 := 3

/-- `RFS_STATUS_WRITE_FAIL`. -/
def statusWriteFail : U32 := 4

/-- `RFS_STATUS_INVALID_PARAM`. -/
def statusInvalidParam : U32 := 6

/-- `RFS_IO_READ`. -/
def ioRead : U32 := 1

/-- `RFS_IO_WRITE`. -/
def ioWrite : U32 := 2

/-- `enum rfs_command`, as far as it is kept in `mLastIo`. `RFS_OPEN` and
`RFS_CLOSE` have names Lean allows. -/
inductive Io where
  | none | read | write | openFile | closeFile | nvUnprotect | nvProtect
  deriving DecidableEq

/-- `enum rfs_file_state`. -/
inductive FileState where
  | closed | opened | openedProtected | openedUnprotected
  deriving DecidableEq

/-- What a packet holds behind its header, by its command. -/
inductive Body where
  | read (status file : U32)
  | write (status file : U32) (data : List BYTE)
  | opStatus (status file : U32)
  | openFile (file : U32) (name : Name)
  | closeFile (file : U32)
  | ioRequest (file offset length io : U32)
  | nvUnprotect (file : U32)
  | nvProtect (file : U32)
  | nvBackup (file : U32)
  /-- Any command there is no case for. -/
  | other
  deriving DecidableEq

/-- A packet of the modem. -/
structure Packet where
  tid : BitVec 16
  body : Body
  deriving DecidableEq

/-- An `RFS_READ` frame, with the size of the block it was put together in
and the size of what was sent of it. -/
structure ReadFrame where
  tid : BitVec 16
  len : ℕ
  file : U32
  offset : ℕ
  length : ℕ
  data : List BYTE
  allocated : ℕ
  sent : ℕ
  deriving DecidableEq

/-- A message to the modem. -/
inductive Message where
  | read (frame : ReadFrame)
  | write (tid : BitVec 16) (file : U32) (offset length : ℕ)
  | status (tid : BitVec 16) (file error : U32)
  deriving DecidableEq

/-- The class of an object. -/
inductive FileClass where
  | rfsFile | nvFile | nvProtectedFile
  deriving DecidableEq

/-- The object that serves a file: `CRfsFile`, and what the two other
classes add. -/
structure RfsFile where
  cls : FileClass
  mId : U32
  mFd : Option ℕ
  mNvSize : ℕ
  mState : FileState
  mLastIo : Io
  mTransaction : BitVec 16
  mWriteLength : ℕ
  mWriteOffset : ℕ
  mReadLength : ℕ
  mReadOffset : ℕ
  mSize : ℕ
  mBackupFlag : Bool
  deriving DecidableEq

/-- The class `AllocFile` takes for an id. -/
def fileClass (id : U32) : FileClass :=
  if id = nvNormal ∨ id = nvUser then .nvFile
  else if id = nvProtected then .nvProtectedFile
  else .rfsFile

/-- The constructor, as `AllocFile` calls it. -/
def allocFile (id : U32) : RfsFile where
  cls := fileClass id
  mId := id
  mFd := none
  mNvSize := 0
  mState := .closed
  mLastIo := .none
  mTransaction := 0
  mWriteLength := 0
  mWriteOffset := 2 ^ 32 - 1
  mReadLength := 0
  mReadOffset := 2 ^ 32 - 1
  mSize := 0
  mBackupFlag := false

/-- How the system answers while a packet is processed: whether files that
exist or may be created can be opened, how much a `read` gives and a
`write` takes at most, and what is in memory nobody has written. -/
structure Outcome where
  opens : Bool
  readLimit : Option ℕ
  writeLimit : Option ℕ
  heap : ℕ → BYTE

/-- An object at work: itself, the system, and what was sent. -/
structure Machine where
  obj : RfsFile
  sys : System Name BYTE
  sent : List Message

/-- What `ProcessMessage` returns. -/
inductive Response where
  | keep | deleteNow
  deriving DecidableEq

namespace Machine

/-- `mIoChannel->Write`. -/
def send (m : Machine) (msg : Message) : Machine := { m with sent := m.sent ++ [msg] }

/-- `Status` with a transaction. -/
def statusOf (m : Machine) (tid : BitVec 16) (error : U32) : Machine :=
  m.send (.status tid m.obj.mId error)

/-- `Status` with the current transaction. -/
def status (m : Machine) (error : U32) : Machine := m.statusOf m.obj.mTransaction error

def setIo (m : Machine) (io : Io) : Machine := { m with obj := { m.obj with mLastIo := io } }

def setState (m : Machine) (state : FileState) : Machine :=
  { m with obj := { m.obj with mState := state } }

def setTransaction (m : Machine) (tid : BitVec 16) : Machine :=
  { m with obj := { m.obj with mTransaction := tid } }

/-- `mFd = open(...)`, that succeeds. -/
def openAs (m : Machine) (name : Name) (writable append : Bool) : Machine :=
  { m with
    obj := { m.obj with mFd := some m.sys.opened.length }
    sys := m.sys.openFile name writable append }

/-- `mFd = -1`. -/
def dropFd (m : Machine) : Machine := { m with obj := { m.obj with mFd := none } }

/-- `close(mFd)`. -/
def closeFd (m : Machine) : Machine := { m with sys := m.sys.close m.obj.mFd }

/-- `mSize = Size()`. -/
def setSize (m : Machine) : Machine :=
  match m.sys.find m.obj.mFd with
  | none => { m with obj := { m.obj with mSize := 2 ^ 32 - 1 } }
  | some e =>
      let size := (m.sys.content e).length
      { m with obj := { m.obj with mSize := size % 2 ^ 32 }, sys := m.sys.seek m.obj.mFd size }

/-- The name of the object's NV file. -/
def nvName (m : Machine) : Name := nvFileName m.obj.mId

/-- `open` of the NV file in a mode, into `mFd`, after the size is dropped. -/
def openNv (w : Outcome) (m : Machine) (writable : Bool) : Machine :=
  if w.opens ∧ m.sys.files m.nvName ≠ none then m.openAs m.nvName writable false else m.dropFd

end Machine

end ExynosVendor.Rfs
