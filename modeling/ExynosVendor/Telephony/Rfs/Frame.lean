import ExynosVendor.Telephony.Rfs.Session

/-!
# What the commands of an NV file leave as it is

All but a backup and the responses of a write leave every file as it was,
and open no file but the object's own: `Steady`. All but the request of a
write leave the bytes outstanding as they were as well: `Undisturbed`.
-/

namespace ExynosVendor.Rfs

open Ril (BYTE)
open Descriptor Machine

variable (md5 : List BYTE → List BYTE)

/-- The object's descriptor is one of its NV file. -/
def Machine.Own (m : Machine) : Prop := m.sys.Names m.obj.mFd m.nvName

/-- The files are as they were, and what was opened since is the object's
NV file. -/
structure Steady (m m' : Machine) : Prop where
  mId : m'.obj.mId = m.obj.mId
  files : m'.sys.files = m.sys.files
  grows : System.Grows m.nvName m.sys m'.sys
  own : m.Own → m'.Own
  bound : m.Own → m.sys.Bound → m'.sys.Bound

/-- So are the bytes outstanding. -/
structure Undisturbed (m m' : Machine) : Prop extends Steady m m' where
  mWriteLength : m'.obj.mWriteLength = m.obj.mWriteLength

section Frame

variable {m m' m'' : Machine}

theorem nvName_of_mId (h : m'.obj.mId = m.obj.mId) : m'.nvName = m.nvName := congrArg nvFileName h

theorem steady_of_eq (hid : m'.obj.mId = m.obj.mId) (hfiles : m'.sys.files = m.sys.files)
    (hnames : m'.sys.names = m.sys.names)
    (hfd : m'.obj.mFd = m.obj.mFd ∨ m'.obj.mFd = none)
    (hclosed : m'.sys.closed = m.sys.closed ∨
      m'.sys.closed = m.obj.mFd.toList ++ m.sys.closed) : Steady m m' := by
  refine ⟨hid, hfiles, System.grows_of_eq hnames, fun h d hd => ?_, fun h hbound d hd => ?_⟩
  · rcases hfd with hfd | hfd
    · rw [hnames, nvName_of_mId hid]
      exact h d (hfd.symm.trans hd)
    · exact absurd (hfd.symm.trans hd) (Option.some_ne_none d).symm
  · rw [hnames]
    rcases hclosed with hclosed | hclosed
    · exact hbound d (hclosed ▸ hd)
    · rw [hclosed] at hd
      rcases List.mem_append.mp hd with hmem | hmem
      · exact (List.getElem?_eq_some_iff.mp (h d (Option.mem_toList.mp hmem))).1
      · exact hbound d hmem

theorem Steady.trans (h : Steady m m') (h' : Steady m' m'') : Steady m m'' := by
  have hgrows := h'.grows
  rw [nvName_of_mId h.mId] at hgrows
  exact ⟨h'.mId.trans h.mId, h'.files.trans h.files, h.grows.trans hgrows,
    fun ho => h'.own (h.own ho), fun ho hb => h'.bound (h.own ho) (h.bound ho hb)⟩

theorem undisturbed_of_eq (hid : m'.obj.mId = m.obj.mId)
    (hlen : m'.obj.mWriteLength = m.obj.mWriteLength) (hfiles : m'.sys.files = m.sys.files)
    (hnames : m'.sys.names = m.sys.names)
    (hfd : m'.obj.mFd = m.obj.mFd ∨ m'.obj.mFd = none)
    (hclosed : m'.sys.closed = m.sys.closed ∨
      m'.sys.closed = m.obj.mFd.toList ++ m.sys.closed) : Undisturbed m m' :=
  ⟨steady_of_eq hid hfiles hnames hfd hclosed, hlen⟩

/-- An answer, or another state. -/
theorem undisturbed_of_sys (h : (m'.sys, m'.obj.mId, m'.obj.mWriteLength, m'.obj.mFd) =
    (m.sys, m.obj.mId, m.obj.mWriteLength, m.obj.mFd)) : Undisturbed m m' := by
  obtain ⟨hsys, hid, hlen, hfd⟩ := by simpa only [Prod.mk.injEq] using h
  exact undisturbed_of_eq hid hlen (by rw [hsys]) (by rw [hsys]) (Or.inl hfd)
    (Or.inl (by rw [hsys]))

theorem steady_of_sys (h : (m'.sys, m'.obj.mId, m'.obj.mWriteLength, m'.obj.mFd) =
    (m.sys, m.obj.mId, m.obj.mWriteLength, m.obj.mFd)) : Steady m m' :=
  (undisturbed_of_sys h).toSteady

theorem Undisturbed.trans (h : Undisturbed m m') (h' : Undisturbed m' m'') :
    Undisturbed m m'' :=
  ⟨h.toSteady.trans h'.toSteady, h'.mWriteLength.trans h.mWriteLength⟩

/-! ## Commands -/

theorem undisturbed_openNv (w : Outcome) (m : Machine) (writable : Bool) :
    Undisturbed m (m.openNv w writable) := by
  unfold Machine.openNv
  split
  · have hgrows : System.Grows m.nvName m.sys (m.openAs m.nvName writable false).sys :=
      ⟨1, System.names_openFile m.sys m.nvName writable false⟩
    refine ⟨⟨rfl, rfl, hgrows, fun _ => ?_, fun _ hbound d hd => ?_⟩, rfl⟩
    · exact System.names_opened m.sys m.nvName writable false
    · exact Nat.lt_of_lt_of_le (hbound d hd) hgrows.length_le
  · exact undisturbed_of_eq rfl rfl rfl rfl (Or.inr rfl) (Or.inl rfl)

theorem undisturbed_setSize (m : Machine) : Undisturbed m m.setSize := by
  unfold Machine.setSize
  split
  · exact undisturbed_of_sys rfl
  · exact undisturbed_of_eq rfl rfl (System.files_seek _ _ _) (System.names_seek _ _ _)
      (Or.inl rfl) (Or.inl (System.closed_seek _ _ _))

theorem undisturbed_read (w : Outcome) (m : Machine) : Undisturbed m (m.read w) := by
  unfold Machine.read
  dsimp only
  split
  · exact undisturbed_of_eq rfl rfl (System.files_read _ _ _ _) (System.names_read _ _ _ _)
      (Or.inl rfl) (Or.inl (System.closed_read _ _ _ _))
  · exact undisturbed_of_eq rfl rfl (System.files_read _ _ _ _) (System.names_read _ _ _ _)
      (Or.inl rfl) (Or.inl (System.closed_read _ _ _ _))

theorem undisturbed_readRequest (w : Outcome) (m : Machine) (offset length : U32) :
    Undisturbed m (m.readRequest w offset length) := by
  have haim : Undisturbed m ((m.aimRead offset length).setIo .read) :=
    undisturbed_of_eq rfl rfl (System.files_seek _ _ _) (System.names_seek _ _ _) (Or.inl rfl)
      (Or.inl (System.closed_seek _ _ _))
  unfold Machine.readRequest
  split
  · exact haim.trans (undisturbed_read w _)
  · exact undisturbed_of_eq rfl rfl (System.files_seek _ _ _) (System.names_seek _ _ _)
      (Or.inl rfl) (Or.inl (System.closed_seek _ _ _))

theorem steady_writeRequest (m : Machine) (offset length : U32) :
    Steady m (m.writeRequest offset length) := by
  unfold Machine.writeRequest
  split
  · exact steady_of_eq rfl (System.files_seek _ _ _) (System.names_seek _ _ _) (Or.inl rfl)
      (Or.inl (System.closed_seek _ _ _))
  · exact steady_of_eq rfl (System.files_seek _ _ _) (System.names_seek _ _ _) (Or.inl rfl)
      (Or.inl (System.closed_seek _ _ _))

theorem undisturbed_readResponse (w : Outcome) (m : Machine) (status file : U32) :
    Undisturbed m (m.readResponse w status file) := by
  unfold Machine.readResponse
  split_ifs
  · exact undisturbed_of_sys rfl
  · exact undisturbed_of_sys rfl
  · exact undisturbed_of_sys rfl
  · exact undisturbed_read w m
  · exact undisturbed_of_sys rfl

/-- Behind an `openNv`: the status, and the size if there is a file. -/
theorem undisturbed_answerOpen (m : Machine) :
    Undisturbed m (if m.obj.mFd = none then m.status statusOpenFail
      else m.setSize.status statusSuccess) := by
  split
  · exact undisturbed_of_sys rfl
  · exact (undisturbed_setSize m).trans (undisturbed_of_sys rfl)

theorem undisturbed_openNvFile (w : Outcome) (m : Machine) (file : U32) (writable : Bool) :
    Undisturbed m (m.openNvFile w file writable) := by
  have hio : Undisturbed m (m.setIo .openFile) := undisturbed_of_sys rfl
  unfold Machine.openNvFile
  split
  · exact undisturbed_of_sys rfl
  · exact (hio.trans (undisturbed_openNv w _ writable)).trans (undisturbed_answerOpen _)

theorem undisturbed_closeFile (m : Machine) (file : U32) : Undisturbed m (m.closeFile file) := by
  unfold Machine.closeFile
  split
  · exact undisturbed_of_sys rfl
  · exact undisturbed_of_eq rfl rfl rfl rfl (Or.inl rfl) (Or.inr rfl)

theorem undisturbed_closeNvProtected (m : Machine) (file : U32) :
    Undisturbed m (m.closeNvProtected file) := by
  unfold Machine.closeNvProtected
  split
  · exact undisturbed_of_sys rfl
  · exact undisturbed_of_eq rfl rfl rfl rfl (Or.inr rfl) (Or.inr rfl)

theorem undisturbed_unprotectNv (w : Outcome) (m : Machine) (file : U32) :
    Undisturbed m (m.unprotectNv w file) := by
  have hclose : Undisturbed m (m.setIo .nvUnprotect).closeFd :=
    undisturbed_of_eq rfl rfl rfl rfl (Or.inl rfl) (Or.inr rfl)
  unfold Machine.unprotectNv
  split
  · exact undisturbed_of_sys rfl
  · exact (hclose.trans (undisturbed_openNv w _ true)).trans (undisturbed_answerOpen _)

theorem undisturbed_protectNv (w : Outcome) (m : Machine) (file : U32) :
    Undisturbed m (m.protectNv w file) := by
  have hclose : Undisturbed m (m.setIo .nvProtect).closeFd :=
    undisturbed_of_eq rfl rfl rfl rfl (Or.inl rfl) (Or.inr rfl)
  have hopen := hclose.trans (undisturbed_openNv w _ false)
  unfold Machine.protectNv
  dsimp only
  split
  · exact undisturbed_of_sys rfl
  split
  · exact hopen.trans (undisturbed_of_sys rfl)
  · exact hopen.trans (undisturbed_of_sys rfl)

theorem undisturbed_protect (w : Outcome) (m : Machine) : Undisturbed m (m.protect w) := by
  have hclose : Undisturbed m m.closeFd :=
    undisturbed_of_eq rfl rfl rfl rfl (Or.inl rfl) (Or.inr rfl)
  have hopen := hclose.trans (undisturbed_openNv w _ false)
  unfold Machine.protect
  dsimp only
  split
  · exact hopen
  · exact hopen.trans (undisturbed_of_sys rfl)

theorem undisturbed_ioRequestWithin (w : Outcome) (m : Machine) (tid : BitVec 16)
    (offset length : U32) {io : U32} (hio : io ≠ ioWrite) :
    Undisturbed m (m.ioRequestWithin w tid offset length io).1 := by
  unfold Machine.ioRequestWithin Machine.ioRequest
  split
  · exact undisturbed_of_sys rfl
  split
  · exact undisturbed_readRequest w m offset length
  · exact undisturbed_of_sys rfl

/-- A request on a closed file opens it. -/
theorem undisturbed_openForRequest (w : Outcome) (m : Machine) (tid : BitVec 16)
    (offset length : U32) (writable : Bool) (state : FileState) {io : U32} (hio : io ≠ ioWrite) :
    Undisturbed m (m.openForRequest w tid offset length io writable state).1 := by
  have hopen := undisturbed_openNv w m writable
  have hstate : Undisturbed m ((m.openNv w writable).setState state) :=
    hopen.trans (undisturbed_of_sys rfl)
  unfold Machine.openForRequest
  dsimp only
  split
  · exact hopen.trans (undisturbed_of_sys rfl)
  · exact (hstate.trans (undisturbed_setSize _)).trans
      (undisturbed_ioRequestWithin w _ tid offset length hio)

theorem undisturbed_opStatus (m : Machine) (tid : BitVec 16) (status file : U32)
    (settled : Io → Option FileState) :
    Undisturbed m (m.opStatus tid status file settled).1 := by
  by_cases hid : m.obj.mId = file
  · by_cases htid : m.obj.mTransaction = tid
    · rw [opStatus_eq settled hid htid]
      exact undisturbed_of_sys rfl
    · unfold Machine.opStatus
      rw [if_neg (not_not.mpr hid), if_pos htid]
      exact undisturbed_of_sys rfl
  · unfold Machine.opStatus
    rw [if_pos hid]
    exact undisturbed_of_sys rfl

/-- **What an NV file serves** without a byte written to it. -/
theorem undisturbed_processMessage (w : Outcome) {m : Machine} (hcls : m.obj.cls ≠ .rfsFile)
    {tid : BitVec 16} {body : Body} (hwrite : ∀ status file data, body ≠ .write status file data)
    (hbackup : ∀ file, body ≠ .nvBackup file)
    (hrequest : ∀ file offset length, body ≠ .ioRequest file offset length ioWrite) :
    Undisturbed m (m.processMessage md5 w ⟨tid, body⟩).1 := by
  have htid : Undisturbed m (m.setTransaction tid) := undisturbed_of_sys rfl
  have h := handles_processMessage md5 (m := m) w tid hbackup
  generalize m.processMessage md5 w ⟨tid, body⟩ = r at h ⊢
  cases h with
  | refuse | refuseRequest => exact undisturbed_of_sys rfl
  | openFile file name hio hrfs => exact absurd hrfs hcls
  | openNvFile file => exact htid.trans (undisturbed_openNvFile w _ file _)
  | unprotectNv file => exact htid.trans (undisturbed_unprotectNv w _ file)
  | protectNv file => exact htid.trans (undisturbed_protectNv w _ file)
  | closeFile file => exact htid.trans (undisturbed_closeFile _ file)
  | closeNvProtected file => exact htid.trans (undisturbed_closeNvProtected _ file)
  | ioRequest file offset length io hio hrfs => exact absurd hrfs hcls
  | ioRequestWithin file offset length io =>
    refine htid.trans (undisturbed_ioRequestWithin w _ tid offset length ?_)
    exact fun hio => hrequest file offset length (hio ▸ rfl)
  | openForRequest file offset length io =>
    refine htid.trans (undisturbed_openForRequest w _ tid offset length _ _ ?_)
    exact fun hio => hrequest file offset length (hio ▸ rfl)
  | readResponse status file => exact undisturbed_readResponse w m status file
  | writeResponse status file data => exact absurd rfl (hwrite status file data)
  | opStatus status file settled => exact undisturbed_opStatus m tid status file settled

/-! ## A packet -/

theorem steady_refuse (m : Machine) (tid : BitVec 16) : Steady m (m.refuse tid).1 :=
  steady_of_sys rfl

theorem steady_ioRequestWithin (w : Outcome) (m : Machine) (tid : BitVec 16)
    (offset length io : U32) : Steady m (m.ioRequestWithin w tid offset length io).1 := by
  unfold Machine.ioRequestWithin Machine.ioRequest
  split
  · exact steady_refuse m tid
  split
  · exact (undisturbed_readRequest w m offset length).toSteady
  split
  · exact steady_writeRequest m offset length
  · exact steady_refuse m tid

theorem steady_openForRequest (w : Outcome) (m : Machine) (tid : BitVec 16)
    (offset length io : U32) (writable : Bool) (state : FileState) :
    Steady m (m.openForRequest w tid offset length io writable state).1 := by
  have hopen := (undisturbed_openNv w m writable).toSteady
  have hstate : Steady m ((m.openNv w writable).setState state) :=
    hopen.trans (steady_of_sys rfl)
  unfold Machine.openForRequest
  dsimp only
  split
  · exact hopen.trans (steady_of_sys rfl)
  · exact (hstate.trans (undisturbed_setSize _).toSteady).trans
      (steady_ioRequestWithin w _ tid offset length io)

/-- **A packet that is no response of a write and no backup** leaves the
files as they were. -/
theorem steady_processMessage (w : Outcome) (hcls : m.obj.cls ≠ .rfsFile) {p : Packet}
    (hwrite : ∀ status file data, p.body ≠ .write status file data)
    (hbackup : ∀ file, p.body ≠ .nvBackup file) : Steady m (m.processMessage md5 w p).1 := by
  obtain ⟨tid, body⟩ := p
  by_cases hrequest : ∃ file offset length, body = .ioRequest file offset length ioWrite
  · obtain ⟨file, offset, length, rfl⟩ := hrequest
    have htid : Steady m (m.setTransaction tid) := steady_of_sys rfl
    have h := handles_processMessage md5 (m := m) w tid hbackup
    generalize m.processMessage md5 w _ = r at h ⊢
    cases h with
    | refuse => exact steady_refuse m tid
    | refuseRequest => exact htid.trans (steady_refuse _ tid)
    | ioRequest file offset length io hio hrfs => exact absurd hrfs hcls
    | ioRequestWithin => exact htid.trans (steady_ioRequestWithin w _ tid offset length _)
    | openForRequest => exact htid.trans (steady_openForRequest w _ tid offset length _ _ _)
  · exact (undisturbed_processMessage md5 w hcls hwrite hbackup
      fun file offset length hb => hrequest ⟨file, offset, length, hb⟩).toSteady

/-- A response of a write is refused, or taken. -/
theorem processMessage_response (w : Outcome) (tid : BitVec 16) (status file : U32)
    (data : List BYTE) :
    m.processMessage md5 w ⟨tid, .write status file data⟩ = m.refuse tid ∨
      ¬ m.blocked ⟨tid, .write status file data⟩ ∧
        m.processMessage md5 w ⟨tid, .write status file data⟩ =
          (m.writeResponse md5 w status file data).finish := by
  have hbackup : ∀ f, Body.write status file data ≠ .nvBackup f := by simp
  have h := handles_processMessage md5 (m := m) w tid hbackup
  generalize m.processMessage md5 w _ = r at h ⊢
  cases h with
  | refuse => exact Or.inl rfl
  | writeResponse _ _ _ hp => exact Or.inr ⟨hp, rfl⟩

/-! ## The checksum -/

/-- The checksum is in a file of its own. -/
theorem csumUpdate_keeps (w : Outcome) (m : Machine) :
    (m.csumUpdate md5 w).sys.names = m.sys.names ∧ ∀ other, other ≠ csumName m.nvName →
      (m.csumUpdate md5 w).sys.files other = m.sys.files other := by
  unfold Machine.csumUpdate
  cases hfd : m.obj.mFd with
  | none =>
    dsimp only
    split
    · exact ⟨rfl, fun _ _ => rfl⟩
    split
    · exact ⟨rfl, fun other hother => System.files_store_ne _ hother _⟩
    · exact ⟨rfl, fun _ _ => rfl⟩
  | some d =>
    dsimp only
    split
    · split
      · exact ⟨rfl, fun other hother => System.files_store_ne _ hother _⟩
      · exact ⟨rfl, fun _ _ => rfl⟩
    · next e he =>
      have hseek : ∀ other, (m.sys.seek (some d) (m.sys.content e).length).files other =
          m.sys.files other := congrFun (System.files_seek _ _ _)
      split
      · refine ⟨System.names_seek _ _ _, fun other hother => ?_⟩
        exact (System.files_store_ne _ hother _).trans (hseek other)
      · exact ⟨System.names_seek _ _ _, fun other _ => hseek other⟩

theorem checkAndUpdateCsum_keeps (w : Outcome) (m : Machine) :
    (m.checkAndUpdateCsum md5 w).sys.names = m.sys.names ∧ ∀ other, other ≠ csumName m.nvName →
      (m.checkAndUpdateCsum md5 w).sys.files other = m.sys.files other := by
  unfold Machine.checkAndUpdateCsum
  split
  · exact csumUpdate_keeps md5 w m
  · exact ⟨rfl, fun _ _ => rfl⟩

theorem csumUpdate_closed (w : Outcome) (m : Machine) :
    (m.csumUpdate md5 w).sys.closed = m.sys.closed := by
  unfold Machine.csumUpdate
  split
  · split
    · rfl
    · split <;> rfl
  · split
    · dsimp only
      split <;> rfl
    · dsimp only
      split
      · exact System.closed_seek _ _ _
      · exact System.closed_seek _ _ _

theorem bound_checkAndUpdateCsum (w : Outcome) (h : m.sys.Bound) :
    (m.checkAndUpdateCsum md5 w).sys.Bound := by
  refine System.bound_of_eq (checkAndUpdateCsum_keeps md5 w m).1 ?_ h
  unfold Machine.checkAndUpdateCsum
  split
  · exact csumUpdate_closed md5 w m
  · rfl

theorem own_of_eq (hobj : m'.obj = m.obj) (hnames : m'.sys.names = m.sys.names) (h : m.Own) :
    m'.Own := by
  unfold Machine.Own System.Names Machine.nvName
  rw [hobj, hnames]
  exact h

theorem own_afterWrite (h : m.Own) (w : Outcome) (data : List BYTE) :
    (⟨m.obj, afterWrite m w data, m.sent⟩ : Machine).Own :=
  own_of_eq (m := m) rfl (System.names_write _ _ _ _ _) h

theorem own_checkAndUpdateCsum (w : Outcome) (h : m.Own) : (m.checkAndUpdateCsum md5 w).Own :=
  own_of_eq (checkAndUpdateCsum_obj md5 w m) (checkAndUpdateCsum_keeps md5 w m).1 h

/-- **An update takes the checksum of what the file holds**, unless the
descriptor is one that was closed. -/
theorem csumUpdate_csum {w : Outcome} (hw : w.opens) (hown : m.Own)
    (hfd : m.sys.Live m.obj.mFd ∨ m.obj.mFd = none) {bytes : List BYTE}
    (hbytes : m.sys.files m.nvName = some bytes) :
    (m.csumUpdate md5 w).sys.files (csumName m.nvName) = some (csum md5 bytes signatureSit) := by
  unfold Machine.csumUpdate
  cases hd : m.obj.mFd with
  | none =>
    dsimp only
    rw [hbytes]
    dsimp only
    rw [if_pos hw]
    exact System.files_store_self _ _ _
  | some d =>
    rw [hd] at hfd
    obtain ⟨e, he⟩ := (hfd.resolve_right (Option.some_ne_none d)).exists_find
    have hname : e.name = m.nvName := (hd ▸ hown : m.sys.Names (some d) m.nvName).of_find he
    have hcontent : m.sys.content e = bytes := by
      unfold System.content
      rw [hname, hbytes]
      rfl
    rw [he]
    dsimp only
    rw [if_pos hw, hcontent]
    exact System.files_store_self _ _ _

/-- `CheckAndUpdateCsum`, by what the data say. -/
theorem checkAndUpdateCsum_csum (w : Outcome) (hown : m.Own)
    (hfd : m.sys.Live m.obj.mFd ∨ m.obj.mFd = none) {bytes : List BYTE}
    (hbytes : m.sys.files m.nvName = some bytes) :
    (m.checkAndUpdateCsum md5 w).sys.files (csumName m.nvName) =
      if csumCheckForFile w (some bytes) m.obj.mNvSize then some (csum md5 bytes signatureSit)
      else m.sys.files (csumName m.nvName) := by
  unfold Machine.checkAndUpdateCsum
  rw [hbytes]
  split
  · next hcheck =>
    have hw : w.opens = true := by
      unfold csumCheckForFile at hcheck
      split at hcheck
      · exact absurd hcheck Bool.false_ne_true
      · exact (Bool.and_eq_true_iff.mp hcheck).1
    exact csumUpdate_csum md5 hw hown hfd hbytes
  · rfl

/-! ## A response of a write -/

/-- A response that does not end its write reports no success, and writes
to the object's file at most. -/
theorem writeResponse_cases (w : Outcome) (m : Machine) (status file : U32) (data : List BYTE) :
    EndsWrite m w status file data ∨
      ∃ o k messages, m.writeResponse md5 w status file data = ⟨o, k, m.sent ++ messages⟩ ∧
        o.mId = m.obj.mId ∧ o.mFd = m.obj.mFd ∧ (k = m.sys ∨ k = afterWrite m w data) ∧
        ∀ tid id, Message.status tid id statusSuccess ∉ messages := by
  have hinvalid : ∀ tid id tid' id', Message.status tid id statusSuccess ∉
      [Message.status tid' id' statusInvalidParam] := by
    simp [statusSuccess, statusInvalidParam]
  unfold Machine.writeResponse
  by_cases hio : m.obj.mLastIo ≠ .write
  · rw [if_pos hio]
    exact Or.inr ⟨_, _, _, rfl, rfl, rfl, Or.inl rfl, fun tid id => hinvalid tid id _ _⟩
  rw [if_neg hio]
  by_cases hid : m.obj.mId ≠ file
  · rw [if_pos hid]
    exact Or.inr ⟨_, _, _, rfl, rfl, rfl, Or.inl rfl, fun tid id => hinvalid tid id _ _⟩
  rw [if_neg hid]
  by_cases hstatus : status ≠ statusSuccess
  · rw [if_pos hstatus]
    have hnothing : m.setIo .none = ⟨(m.setIo .none).obj, m.sys, m.sent ++ []⟩ := by
      rw [List.append_nil]
      rfl
    exact Or.inr ⟨_, _, [], hnothing, rfl, rfl, Or.inl rfl, by simp⟩
  rw [if_neg hstatus]
  by_cases hlen : m.obj.mWriteLength < data.length
  · rw [if_pos hlen]
    exact Or.inr ⟨_, _, _, rfl, rfl, rfl, Or.inl rfl, fun tid id => hinvalid tid id _ _⟩
  rw [if_neg hlen]
  dsimp only
  by_cases hres : (m.sys.write 0 m.obj.mFd data w.writeLimit).2 = some data.length
  · rw [if_pos hres]
    by_cases hdone : m.obj.mWriteLength = data.length
    · exact Or.inl ⟨not_not.mp hio, not_not.mp hid, not_not.mp hstatus, hdone, hres⟩
    · have hmore : ((⟨m.obj, (m.sys.write 0 m.obj.mFd data w.writeLimit).1, m.sent⟩ :
          Machine).advance data.length).obj.mWriteLength ≠ 0 := by
        show m.obj.mWriteLength - data.length ≠ 0
        omega
      unfold Machine.written
      rw [if_pos hmore]
      exact Or.inr ⟨_, _, _, rfl, rfl, rfl, Or.inr rfl, by simp⟩
  · rw [if_neg hres]
    exact Or.inr ⟨_, _, _, rfl, rfl, rfl, Or.inr rfl, by simp [statusSuccess, statusWriteFail]⟩

/-- A `write` that took bytes had a descriptor that is open. -/
theorem live_of_written {k : System Name BYTE} {fd : Option ℕ} {data : List BYTE}
    {limit : Option ℕ} {n : ℕ} (h : (k.write 0 fd data limit).2 = some n) : k.Live fd := by
  unfold System.Live
  unfold System.write at h
  split at h
  · exact absurd h (by simp)
  · next he => rw [he]; rfl
  · next he => rw [he]; rfl

/-! ## A deleted object -/

/-- A deleted object leaves the files as they are. -/
theorem destroy_files (m : Machine) : (destroy m).files = m.sys.files := by
  unfold destroy
  split <;> rfl

theorem destroy_names (m : Machine) : (destroy m).names = m.sys.names := by
  unfold destroy
  split <;> rfl

theorem bound_destroy (h : m.Own) (hbound : m.sys.Bound) : (destroy m).Bound := by
  have hclose : Steady m m.closeFd := steady_of_eq rfl rfl rfl (Or.inl rfl) (Or.inr rfl)
  unfold destroy
  split
  · exact hbound
  · exact hclose.bound h hbound

/-- The object that takes the next packet is the one that took this, or is
allocated anew. -/
theorem settle_cases (r : Machine × Response) (id : U32) :
    (Slot.settle r).machine id = r.1 ∨
      (Slot.settle r).machine id = ⟨allocFile id, destroy r.1, r.1.sent⟩ := by
  cases hr : r.2 with
  | keep =>
    rw [settle_keep hr]
    exact Or.inl rfl
  | deleteNow =>
    have hfree : Slot.settle r = (Slot.of r.1).freeFile := if_pos hr
    rw [hfree]
    exact Or.inr rfl

theorem settle_sys (r : Machine × Response) :
    (Slot.settle r).sys = r.1.sys ∨ (Slot.settle r).sys = destroy r.1 := by
  rcases settle_cases r 0 with heq | heq
  · exact Or.inl (congrArg Machine.sys heq)
  · exact Or.inr (congrArg Machine.sys heq)

theorem settle_files (r : Machine × Response) : (Slot.settle r).sys.files = r.1.sys.files := by
  rcases settle_sys r with heq | heq
  · rw [heq]
  · rw [heq, destroy_files]

theorem settle_names (r : Machine × Response) : (Slot.settle r).sys.names = r.1.sys.names := by
  rcases settle_sys r with heq | heq
  · rw [heq]
  · rw [heq, destroy_names]

theorem settle_sent (r : Machine × Response) : (Slot.settle r).sent = r.1.sent := by
  rcases settle_cases r 0 with heq | heq
  · exact congrArg Machine.sent heq
  · exact congrArg Machine.sent heq

end Frame

end ExynosVendor.Rfs
