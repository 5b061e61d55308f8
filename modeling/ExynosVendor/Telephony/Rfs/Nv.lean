import ExynosVendor.Common.LittleEndian
import ExynosVendor.Telephony.Rfs.Basic

/-!
# The NV files

What the classes `CNvFile` and `CNvProtectedFile` do beside the transfers:
the checksum the NV data carry and the MD5 file beside them, the backup
and its way back, and `Touch`, which looks at all of it when the service
starts. MD5 is a parameter, from the bytes to the digits in the file.

Streams and `CsumCalc` read and write in full; where `opens` is false the
first `open` of a function fails.
-/

namespace ExynosVendor.Rfs

open Ril (BYTE)
open Descriptor

/-! ## The checksum in the data -/

/-- The two bytes at an address, as the processor takes them. -/
def word (mem : ℕ → BYTE) (a : ℕ) : BitVec 16 := mem (a + 1) ++ mem a

def palRegistryDataCheckCalc (mem : ℕ → BYTE) (len : ℕ) : BitVec 16 :=
  let check := ((List.range (len / 2)).map fun i => word mem (2 * i)).sum
  if len % 2 = 1 then check + (word mem (len - 1) ||| 0xff00) else check

/-- `sizeof(pal_RegFlashHeader_t)`. -/
def nvHeaderSize : ℕ := 16

/-- `NV_header->TotalSize`. -/
def totalSize (mem : ℕ → BYTE) : ℕ := LittleEndian.decode ((List.range 4).map fun i => mem (8 + i))

/-- `CsumCheckForData`. It reads where the header says, also behind the
buffer. -/
def csumCheckForData (mem : ℕ → BYTE) (nvSize : ℕ) : Bool :=
  let total := totalSize mem
  if total = 2 ^ 32 - 1 then true
  else if nvSize < total ∨ 1024 * 1024 < nvSize then false
  else
    let check := palRegistryDataCheckCalc (fun i => mem (nvHeaderSize + i)) total
    check == word mem (nvHeaderSize + total + total % 2)

/-- A buffer of `new char[nvSize]` that a file was read into. -/
def fileBuffer (content : List BYTE) (nvSize : ℕ) (heap : ℕ → BYTE) : ℕ → BYTE :=
  fun k => if k < nvSize then content.getD k (heap k) else heap k

/-- `CsumCheckForFileAndForceCrash`, without the crash that is not compiled
in. -/
def csumCheckForFile (w : Outcome) (content : Option (List BYTE)) (nvSize : ℕ) : Bool :=
  if nvSize = 0 then false
  else match content with
    | none => false
    | some bytes => w.opens && csumCheckForData (fileBuffer bytes nvSize w.heap) nvSize

/-! ## The checksum beside the data -/

/-- `RFS_NV_CSUM_LENGTH`. -/
def nvCsumLength : ℕ := 32

def signatureSit : List BYTE := text "Samsung_SIT_RIL"

def signatureSmi : List BYTE := text "Samsung_SMI_RIL"

variable (md5 : List BYTE → List BYTE)

/-- The digits `CsumCalc` computes from bytes and a signature. -/
def csum (bytes signature : List BYTE) : List BYTE := md5 (bytes ++ signature)

/-- What an MD5 file says about the bytes: `IsCsumCorrect` and
`IsBackupCsumCorrect`. -/
def csumMatches (bytes : List BYTE) (csumFile : Option (List BYTE)) : Bool :=
  match csumFile with
  | none => false
  | some digits =>
      nvCsumLength ≤ digits.length &&
        (digits.take nvCsumLength == (csum md5 bytes signatureSit).take nvCsumLength ||
          digits.take nvCsumLength == (csum md5 bytes signatureSmi).take nvCsumLength)

namespace Machine

def csumUpdate (w : Outcome) (m : Machine) : Machine :=
  match m.obj.mFd with
  | none =>
      match m.sys.files m.nvName with
      | none => m
      | some bytes =>
          if w.opens then
            { m with sys := m.sys.store (csumName m.nvName) (csum md5 bytes signatureSit) }
          else m
  | some _ =>
      match m.sys.find m.obj.mFd with
      -- the first read fails, and the digits stay zero
      | none =>
          let sys := { m.sys with stray := m.obj.mFd :: m.sys.stray }
          { m with sys := if w.opens then
              sys.store (csumName m.nvName) (List.replicate nvCsumLength 0) else sys }
      | some e =>
          let bytes := m.sys.content e
          let sys := m.sys.seek m.obj.mFd bytes.length
          { m with sys := if w.opens then
              sys.store (csumName m.nvName) (csum md5 bytes signatureSit) else sys }

def checkAndUpdateCsum (w : Outcome) (m : Machine) : Machine :=
  if csumCheckForFile w (m.sys.files m.nvName) m.obj.mNvSize then m.csumUpdate md5 w else m

/-- `Protect` without a command. -/
def protect (w : Outcome) (m : Machine) : Machine :=
  let m := (m.closeFd.openNv w false)
  if m.obj.mFd = none then m else m.setState .openedProtected

def onWriteDone (w : Outcome) (m : Machine) : Machine :=
  match m.obj.cls with
  | .rfsFile => m
  | .nvFile => m.checkAndUpdateCsum md5 w
  | .nvProtectedFile => (m.protect w).checkAndUpdateCsum md5 w

/-! ## The backup -/

/-- `Backup`, and whether it returned 0. -/
def backup (w : Outcome) (m : Machine) : Machine × Bool :=
  if m.obj.mWriteLength ≠ 0 then
    ({ m with obj := { m.obj with mBackupFlag := true } }, false)
  else if ¬ w.opens then (m, false)
  else match m.sys.files m.nvName with
    | none => (m, false)
    | some bytes =>
        match w.writeLimit with
        | none => ({ m with sys := m.sys.store backupName [] }, false)
        | some limit =>
            let data := (bytes.take (bytes.length % 2 ^ 32)).take limit
            let sys := (m.sys.store backupName data).store (csumName backupName)
              (csum md5 data signatureSit)
            let nvCsum := sys.files (csumName (nvFileName nvProtected))
            ({ m with sys := sys },
              csumMatches md5 data (sys.files (csumName backupName)) &&
                (nvCsum.map (List.take nvCsumLength) ==
                  (sys.files (csumName backupName)).map (List.take nvCsumLength)))

/-- **What a backup does**: of the object it changes the flag, and of the
files the backup and its checksum. -/
theorem backup_eq (w : Outcome) (m : Machine) : ∃ flag files, (m.backup md5 w).1 =
      ⟨{ m.obj with mBackupFlag := flag }, { m.sys with files := files }, m.sent⟩ ∧
    ∀ name, name ≠ backupName → name ≠ csumName backupName → files name = m.sys.files name := by
  have hnothing : ∃ flag files, m =
      ⟨{ m.obj with mBackupFlag := flag }, { m.sys with files := files }, m.sent⟩ ∧
      ∀ name, name ≠ backupName → name ≠ csumName backupName → files name = m.sys.files name :=
    ⟨m.obj.mBackupFlag, m.sys.files, rfl, fun _ _ _ => rfl⟩
  unfold backup
  split
  · exact ⟨true, m.sys.files, rfl, fun _ _ _ => rfl⟩
  split
  · exact hnothing
  split
  · exact hnothing
  split
  · exact ⟨m.obj.mBackupFlag, _, rfl, fun name hne _ => System.files_store_ne _ hne _⟩
  · refine ⟨m.obj.mBackupFlag, _, rfl, fun name hne hne' => ?_⟩
    exact (System.files_store_ne _ hne' _).trans (System.files_store_ne _ hne _)

/-- `Restore`, and whether it returned 0. -/
def restore (w : Outcome) (m : Machine) : Machine × Bool :=
  if m.obj.mReadLength ≠ 0 ∨ m.obj.mWriteLength ≠ 0 then (m, false)
  else match m.sys.files backupName with
    | none => (m, false)
    | some bytes =>
        if w.opens ∧ csumMatches md5 bytes (m.sys.files (csumName backupName)) then
          let data := bytes.take (bytes.length % 2 ^ 32)
          (({ m with sys := m.sys.store m.nvName data }).csumUpdate md5 w, true)
        else (m, false)

end Machine

/-! ## `Touch` -/

/-- A record of the table of contents in the modem's image. -/
structure TocRecord where
  name : List BYTE
  size : U32
  deriving DecidableEq

/-- The size an NV file is to have, by the first record of its section.
There is none in a table that is broken, nor without a record, nor in a
record that says 0. -/
def tocSize (toc : List TocRecord) (id : U32) : Option ℕ :=
  if toc.head?.map TocRecord.name ≠ some (text "TOC") then none
  else match toc.find? fun r => r.name == tocSectionName id with
    | none => none
    | some r => if r.size = 0 then none else some r.size.toNat

/-- `memset` of a new file's bytes. -/
def blank (size : ℕ) : List BYTE := List.replicate size 0xff

namespace Machine

variable (toc : List TocRecord)

/-- `mNvSize = tocSize`. -/
def setNvSize (m : Machine) (size : ℕ) : Machine := { m with obj := { m.obj with mNvSize := size } }

/-- Another content of the NV file. -/
def storeNv (m : Machine) (bytes : List BYTE) : Machine :=
  { m with sys := m.sys.store m.nvName bytes }

/-- The NV file is opened to append, and expanded. -/
def expandNv (m : Machine) (tailroom : ℕ) : Machine :=
  m.storeNv ((m.sys.files m.nvName).getD [] ++ blank tailroom)

/-- Whether `IsCsumCorrect` returns 0. The digits are those of what the
object's descriptor reads, if it has one. -/
def isCsumCorrect (w : Outcome) (m : Machine) : Bool :=
  match m.obj.mFd with
  | none =>
      match m.sys.files m.nvName with
      | none => false
      | some bytes => w.opens && csumMatches md5 bytes (m.sys.files (csumName m.nvName))
  | some _ =>
      match m.sys.find m.obj.mFd with
      -- the first read fails, and `strncmp` compares no digits
      | none => w.opens && (m.sys.files (csumName m.nvName)).any fun digits =>
          nvCsumLength ≤ digits.length && digits.head? == some 0
      | some e => w.opens && csumMatches md5 (m.sys.content e) (m.sys.files (csumName m.nvName))

/-- Where `IsCsumCorrect` leaves that descriptor. -/
def csumCalc (m : Machine) : Machine :=
  match m.obj.mFd with
  | none => m
  | some _ =>
      match m.sys.find m.obj.mFd with
      | none => { m with sys := { m.sys with stray := m.obj.mFd :: m.obj.mFd :: m.sys.stray } }
      | some e => { m with sys := m.sys.seek m.obj.mFd (m.sys.content e).length }

/-- The file is created anew, and whether that was possible. -/
def createNv (w : Outcome) (m : Machine) (size : ℕ) : Machine × Bool :=
  if w.opens then (m.storeNv (blank size), true) else (m, false)

/-- `CNvFile::Touch`, and whether it returned 0. -/
def touchNvFile (w : Outcome) (m : Machine) : Machine × Bool :=
  match tocSize toc m.obj.mId with
  | none => (m, false)
  | some size =>
      let m := m.setNvSize size
      match m.sys.files m.nvName with
      | none => m.createNv w size
      | some bytes =>
          if m.isCsumCorrect md5 w then
            let m := m.csumCalc
            let m := if csumCheckForData (fileBuffer bytes size w.heap) size then m
              else m.storeNv (blank size)
            -- `tellg` is -1 behind a read that fell short
            let pos := if bytes.length < size then 2 ^ 32 - 1 else size
            (if pos < size then m.expandNv (size - pos) else m, true)
          else m.csumCalc.createNv w size

/-- The end of `CNvProtectedFile::Touch`: the data are checked, and
restored if they do not pass. -/
def checkNvData (w : Outcome) (m : Machine) (size : ℕ) : Machine × Bool :=
  match m.sys.files m.nvName with
  | none => (m, false)
  | some bytes =>
      if ¬ w.opens then (m, false)
      else if csumCheckForData (fileBuffer bytes size w.heap) size then (m, true)
      else ((m.restore md5 w).1, true)

/-- `CNvProtectedFile::Touch`, and whether it returned 0. -/
def touchNvProtectedFile (w : Outcome) (m : Machine) : Machine × Bool :=
  match tocSize toc m.obj.mId with
  | none => (m, false)
  | some size =>
      let m := m.setNvSize size
      if m.isCsumCorrect md5 w then
        let m := m.csumCalc
        match m.sys.files m.nvName with
        | none => m.checkNvData md5 w size
        | some bytes =>
            let length := bytes.length % 2 ^ 32
            if length < size then
              ((m.expandNv (size - length)).csumUpdate md5 w).checkNvData md5 w size
            else m.checkNvData md5 w size
      else
        let m := m.csumCalc
        let restored := m.restore md5 w
        if restored.2 then (restored.1, true)
        else
          let created := m.createNv w size
          if created.2 then created.1.checkNvData md5 w size else created

end Machine

end ExynosVendor.Rfs
