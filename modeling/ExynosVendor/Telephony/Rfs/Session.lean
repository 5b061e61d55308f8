import ExynosVendor.Common.Run
import ExynosVendor.Telephony.Rfs.Commands

/-!
# What an object was allocated with

Packets change neither the class and the id of an object nor the size it
knows of its NV file: they are what the object was allocated with, over
any run. A session is the part of a run from an `RFS_OPEN` on, as long as
the object is there; in it a file is served through one descriptor, opened
as `Open` has found the file.
-/

namespace ExynosVendor.Rfs

open Ril (BYTE)
open Descriptor

variable (md5 : List BYTE → List BYTE)

namespace Machine

/-- The class, the id, and the size of the NV file. -/
def ident (m : Machine) : FileClass × U32 × ℕ := (m.obj.cls, m.obj.mId, m.obj.mNvSize)

/-- The class and the id. -/
def kind (m : Machine) : FileClass × U32 := (m.obj.cls, m.obj.mId)

theorem kind_of_ident {m m' : Machine} (h : m'.ident = m.ident) : m'.kind = m.kind :=
  congrArg (fun i => (i.1, i.2.1)) h

variable (m : Machine)

/-! ## The setters -/

@[simp] theorem ident_send (msg : Message) : (m.send msg).ident = m.ident := rfl

@[simp] theorem ident_statusOf (tid : BitVec 16) (error : U32) :
    (m.statusOf tid error).ident = m.ident := rfl

@[simp] theorem ident_status (error : U32) : (m.status error).ident = m.ident := rfl

@[simp] theorem ident_setIo (io : Io) : (m.setIo io).ident = m.ident := rfl

@[simp] theorem ident_setState (state : FileState) : (m.setState state).ident = m.ident := rfl

@[simp] theorem ident_setTransaction (tid : BitVec 16) :
    (m.setTransaction tid).ident = m.ident := rfl

@[simp] theorem ident_openAs (name : Name) (writable append : Bool) :
    (m.openAs name writable append).ident = m.ident := rfl

@[simp] theorem ident_dropFd : m.dropFd.ident = m.ident := rfl

@[simp] theorem ident_closeFd : m.closeFd.ident = m.ident := rfl

@[simp] theorem ident_askWrite : m.askWrite.ident = m.ident := rfl

@[simp] theorem ident_aimRead (offset length : U32) :
    (m.aimRead offset length).ident = m.ident := rfl

@[simp] theorem ident_aimWrite (offset length : U32) :
    (m.aimWrite offset length).ident = m.ident := rfl

@[simp] theorem ident_advance (length : ℕ) : (m.advance length).ident = m.ident := rfl

@[simp] theorem ident_setSize : m.setSize.ident = m.ident := by
  unfold setSize
  split <;> rfl

@[simp] theorem ident_openNv (w : Outcome) (writable : Bool) :
    (m.openNv w writable).ident = m.ident := by
  unfold openNv
  split <;> rfl

@[simp] theorem ident_finish : m.finish.1.ident = m.ident := rfl

@[simp] theorem ident_refuse (tid : BitVec 16) : (m.refuse tid).1.ident = m.ident := rfl

/-! ## The transfers and the commands -/

@[simp] theorem ident_read (w : Outcome) : (m.read w).ident = m.ident := by
  unfold read
  dsimp only
  split <;> rfl

@[simp] theorem ident_readRequest (w : Outcome) (offset length : U32) :
    (m.readRequest w offset length).ident = m.ident := by
  unfold readRequest
  split <;> simp

@[simp] theorem ident_readResponse (w : Outcome) (status file : U32) :
    (m.readResponse w status file).ident = m.ident := by
  unfold readResponse
  split_ifs <;> simp

@[simp] theorem ident_writeRequest (offset length : U32) :
    (m.writeRequest offset length).ident = m.ident := by
  unfold writeRequest
  split <;> simp

@[simp] theorem ident_checkAndUpdateCsum (w : Outcome) :
    (m.checkAndUpdateCsum md5 w).ident = m.ident := by
  unfold ident
  rw [checkAndUpdateCsum_obj]

@[simp] theorem ident_protect (w : Outcome) : (m.protect w).ident = m.ident := by
  unfold protect
  dsimp only
  split <;> simp

@[simp] theorem ident_onWriteDone (w : Outcome) : (m.onWriteDone md5 w).ident = m.ident := by
  unfold onWriteDone
  split <;> simp

@[simp] theorem ident_written (w : Outcome) (length : ℕ) :
    (m.written md5 w length).ident = m.ident := by
  unfold written
  split <;> simp

@[simp] theorem ident_writeResponse (w : Outcome) (status file : U32) (data : List BYTE) :
    (m.writeResponse md5 w status file data).ident = m.ident := by
  have hafter : ∀ sys : System Name BYTE, (⟨m.obj, sys, m.sent⟩ : Machine).ident = m.ident :=
    fun _ => rfl
  unfold writeResponse
  dsimp only
  split_ifs <;> simp [hafter]

@[simp] theorem ident_backup (w : Outcome) : (m.backup md5 w).1.ident = m.ident := by
  obtain ⟨flag, files, heq, -⟩ := m.backup_eq md5 w
  rw [heq]
  rfl

@[simp] theorem ident_openFile (w : Outcome) (file : U32) (name : Name) :
    (m.openFile w file name).ident = m.ident := by
  unfold openFile
  dsimp only
  split
  · rfl
  · split
    · rfl
    · split <;> rfl

@[simp] theorem ident_openNvFile (w : Outcome) (file : U32) (writable : Bool) :
    (m.openNvFile w file writable).ident = m.ident := by
  unfold openNvFile
  dsimp only
  split_ifs <;> simp

@[simp] theorem ident_closeFile (file : U32) : (m.closeFile file).ident = m.ident := by
  unfold closeFile
  split <;> rfl

@[simp] theorem ident_closeNvProtected (file : U32) :
    (m.closeNvProtected file).ident = m.ident := by
  unfold closeNvProtected
  split <;> rfl

@[simp] theorem ident_unprotectNv (w : Outcome) (file : U32) :
    (m.unprotectNv w file).ident = m.ident := by
  unfold unprotectNv
  dsimp only
  split_ifs <;> simp

@[simp] theorem ident_protectNv (w : Outcome) (file : U32) :
    (m.protectNv w file).ident = m.ident := by
  unfold protectNv
  dsimp only
  split_ifs <;> simp

/-! ## A packet -/

@[simp] theorem ident_opStatus (tid : BitVec 16) (status file : U32)
    (settled : Io → Option FileState) :
    (m.opStatus tid status file settled).1.ident = m.ident := by
  unfold opStatus
  dsimp only
  split_ifs
  · rfl
  · rfl
  · cases settled m.obj.mLastIo <;> rfl
  · rfl

@[simp] theorem ident_ioRequest (w : Outcome) (tid : BitVec 16) (offset length io : U32) :
    (m.ioRequest w tid offset length io).1.ident = m.ident := by
  unfold ioRequest
  split_ifs <;> simp

@[simp] theorem ident_ioRequestWithin (w : Outcome) (tid : BitVec 16) (offset length io : U32) :
    (m.ioRequestWithin w tid offset length io).1.ident = m.ident := by
  unfold ioRequestWithin
  split <;> simp

@[simp] theorem ident_openForRequest (w : Outcome) (tid : BitVec 16) (offset length io : U32)
    (writable : Bool) (state : FileState) :
    (m.openForRequest w tid offset length io writable state).1.ident = m.ident := by
  unfold openForRequest
  dsimp only
  split <;> simp

/-- **A packet keeps what the object was allocated with.** -/
theorem ident_processMessage (w : Outcome) (p : Packet) :
    (m.processMessage md5 w p).1.ident = m.ident := by
  have hopened : ∀ request : Request, (∀ w m tid offset length io,
      (request w m tid offset length io).1.ident = m.ident) →
        (m.openedFile md5 request w p).1.ident = m.ident := by
    intro request hrequest
    unfold openedFile
    split
    case h_2 =>
      dsimp only
      split
      · simp
      · rw [hrequest, ident_setTransaction]
    all_goals simp
  have hrfs : (m.processRfsFile md5 w p).1.ident = m.ident := by
    unfold processRfsFile closedRfsFile
    split_ifs
    · split <;> simp
    · exact hopened _ fun w m => m.ident_ioRequest w
  have hnv : (m.processNvFile md5 w p).1.ident = m.ident := by
    unfold processNvFile closedNvFile
    split_ifs
    · split
      case h_2 =>
        dsimp only
        split <;> simp
      all_goals simp
    · exact hopened _ fun w m => m.ident_ioRequestWithin w
  have hprotected : (m.processNvProtectedFile md5 w p).1.ident = m.ident := by
    unfold processNvProtectedFile closedNvProtectedFile protectedState unprotectedState
    split_ifs
    · split
      case h_3 =>
        dsimp only
        split_ifs <;> simp
      all_goals simp
    · split <;> simp
    · split
      case h_2 =>
        dsimp only
        split <;> simp
      all_goals simp
  unfold processMessage
  split
  · dsimp only
    split <;> simp
  · split
    · simp
    · split
      · exact hrfs
      · exact hnv
      · exact hprotected

end Machine

open Machine

/-! ## A run -/

theorem keep_of_file {r : Machine × Response} (h : (Slot.settle r).file ≠ none) : r.2 = .keep := by
  cases hr : r.2 with
  | keep => rfl
  | deleteNow =>
    have hfree : Slot.settle r = (Slot.of r.1).freeFile := if_pos hr
    rw [hfree] at h
    exact absurd rfl h

/-- An object in an entry is the one allocated there. -/
theorem ident_step (id : U32) (s : Slot) (i : Input) (hi : (s.step md5 id i).file ≠ none) :
    ((s.step md5 id i).machine id).ident = (s.machine id).ident := by
  cases i with
  | free =>
    obtain ⟨file, sys, sent⟩ := s
    cases file with
    | none => exact absurd rfl hi
    | some o => exact absurd rfl hi
  | packet p w =>
    have hstep : s.step md5 id (.packet p w) = .of ((s.machine id).processMessage md5 w p).1 :=
      settle_keep (keep_of_file hi)
    rw [hstep]
    exact ident_processMessage md5 _ w p

/-- An entry the service has come to, with the object's next packet ahead. -/
def Reached (id : U32) (s : Slot) : Prop :=
  ∃ files inputs, List.foldl (Slot.step md5 id) (Slot.start files) inputs = s

/-- **What takes the next packet** was allocated for the id. -/
theorem Reached.ident {id : U32} {s : Slot} (h : Reached md5 id s) :
    (s.machine id).ident = (fileClass id, id, 0) := by
  obtain ⟨files, inputs, rfl⟩ := h
  have hrun : ∀ s : Slot, (s.machine id).ident = (fileClass id, id, 0) →
      ((inputs.foldl (Slot.step md5 id) s).machine id).ident = (fileClass id, id, 0) := by
    induction inputs with
    | nil => exact fun s hs => hs
    | cons i inputs ih =>
      intro s hs
      refine ih _ ?_
      by_cases hi : (s.step md5 id i).file = none
      · unfold Slot.machine
        rw [hi]
        rfl
      · exact (ident_step md5 id s i hi).trans hs
  exact hrun _ rfl

/-- **A session.** An object that is closed and idle takes an `RFS_OPEN`,
and is there until now. -/
structure Session (id : U32) (name : Name) (s₀ s : Slot) : Prop where
  reached : Reached md5 id s₀
  closed : (s₀.machine id).obj.mState = .closed
  idle : (s₀.machine id).obj.mLastIo = .none
  run : ∃ tid w inputs,
    let begun := s₀.step md5 id (.packet ⟨tid, .openFile id name⟩ w)
    Run.Always (Slot.step md5 id) (fun s => s.file ≠ none) begun inputs ∧
      inputs.foldl (Slot.step md5 id) begun = s

/-- **The invariant of a session**: while the opening is not settled it is
pending, and the descriptor is the one of the opening. -/
structure Serving (id : U32) (name : Name) (created : Bool) (m : Machine) : Prop where
  ident : m.ident = (.rfsFile, id, 0)
  opening : m.obj.mState = .closed → m.obj.mLastIo = .openFile
  fd : ∀ d, m.obj.mFd = some d →
    m.sys.OpenedAs d name created true ∧ m.sys.files name ≠ none

/-- The object has the same state and descriptor, and what it was opened
for is there. -/
structure SameFile (m m' : Machine) : Prop where
  mState : m'.obj.mState = m.obj.mState
  mFd : m'.obj.mFd = m.obj.mFd
  opened : ∀ {d name append writable}, m.sys.OpenedAs d name append writable →
    m'.sys.OpenedAs d name append writable
  files : ∀ {name}, m.sys.files name ≠ none → m'.sys.files name ≠ none

section SameFile

variable {m m' m'' : Machine}

theorem sameFile_of_eq (hs : m'.obj.mState = m.obj.mState) (hfd : m'.obj.mFd = m.obj.mFd)
    (hopened : m'.sys.opened = m.sys.opened) (hfiles : m'.sys.files = m.sys.files) :
    SameFile m m' := by
  refine ⟨hs, hfd, fun h => ?_, fun h => ?_⟩
  · unfold System.OpenedAs
    rw [hopened]
    exact h
  · rw [hfiles]
    exact h

theorem SameFile.trans (h : SameFile m m') (h' : SameFile m' m'') : SameFile m m'' :=
  ⟨h'.mState.trans h.mState, h'.mFd.trans h.mFd, fun ho => h'.opened (h.opened ho),
    fun hf => h'.files (h.files hf)⟩

theorem sameFile_seek (m : Machine) {m' : Machine} (hs : m'.obj.mState = m.obj.mState)
    (hfd : m'.obj.mFd = m.obj.mFd) {fd : Option ℕ} {pos : ℕ} (hsys : m'.sys = m.sys.seek fd pos) :
    SameFile m m' := by
  refine ⟨hs, hfd, fun h => ?_, fun h => ?_⟩
  · rw [hsys]
    exact h.seek fd pos
  · rw [hsys, System.files_seek]
    exact h

theorem sameFile_read (w : Outcome) (m : Machine) : SameFile m (m.read w) := by
  have hread : ∀ o sent, o.mState = m.obj.mState → o.mFd = m.obj.mFd → SameFile m
      ⟨o, (m.sys.read m.obj.mFd (min m.obj.mReadLength framePayloadSize) w.readLimit).1, sent⟩ := by
    intro o sent hs hfd
    refine ⟨hs, hfd, fun h => h.read _ _ _, fun h => ?_⟩
    rw [System.files_read]
    exact h
  unfold Machine.read
  dsimp only
  split
  · exact hread _ _ rfl rfl
  · exact hread _ _ rfl rfl

theorem sameFile_readRequest (w : Outcome) (m : Machine) (offset length : U32) :
    SameFile m (m.readRequest w offset length) := by
  have haim : ∀ m' : Machine, m'.obj.mState = m.obj.mState → m'.obj.mFd = m.obj.mFd →
      m'.sys = (m.aimRead offset length).sys → SameFile m m' := fun m' hs hfd hsys =>
    sameFile_seek m hs hfd hsys
  unfold Machine.readRequest
  split
  · exact (haim ((m.aimRead offset length).setIo .read) rfl rfl rfl).trans (sameFile_read w _)
  · exact haim _ rfl rfl rfl

theorem sameFile_writeRequest (m : Machine) (offset length : U32) :
    SameFile m (m.writeRequest offset length) := by
  unfold Machine.writeRequest
  split
  · exact sameFile_seek m rfl rfl rfl
  · exact sameFile_seek m rfl rfl rfl

theorem sameFile_readResponse (w : Outcome) (m : Machine) (status file : U32) :
    SameFile m (m.readResponse w status file) := by
  unfold Machine.readResponse
  split_ifs
  · exact sameFile_of_eq rfl rfl rfl rfl
  · exact sameFile_of_eq rfl rfl rfl rfl
  · exact sameFile_of_eq rfl rfl rfl rfl
  · exact sameFile_read w m
  · exact sameFile_of_eq rfl rfl rfl rfl

theorem written_rfsFile (w : Outcome) (hcls : m.obj.cls = .rfsFile) (length : ℕ) :
    m.written md5 w length =
      if m.obj.mWriteLength - length ≠ 0 then (m.advance length).askWrite
      else ((m.advance length).setIo .none).status statusSuccess := by
  have hdone : ((m.advance length).setIo .none).onWriteDone md5 w =
      (m.advance length).setIo .none := by
    unfold Machine.onWriteDone
    rw [show ((m.advance length).setIo .none).obj.cls = .rfsFile from hcls]
  unfold Machine.written
  rw [hdone]
  rfl

theorem sameFile_writeResponse (w : Outcome) (hcls : m.obj.cls = .rfsFile) (status file : U32)
    (data : List BYTE) : SameFile m (m.writeResponse md5 w status file data) := by
  have hwrite : ∀ o sent, o.mState = m.obj.mState → o.mFd = m.obj.mFd → SameFile m
      ⟨o, (m.sys.write 0 m.obj.mFd data w.writeLimit).1, sent⟩ := fun o sent hs hfd =>
    ⟨hs, hfd, fun h => h.write _ _ _ _, fun h => System.files_write_ne_none h _ _ _ _⟩
  unfold Machine.writeResponse
  split
  · exact sameFile_of_eq rfl rfl rfl rfl
  split
  · exact sameFile_of_eq rfl rfl rfl rfl
  split
  · exact sameFile_of_eq rfl rfl rfl rfl
  split
  · exact sameFile_of_eq rfl rfl rfl rfl
  dsimp only
  split
  · rw [written_rfsFile md5 w (m := ⟨m.obj, (m.sys.write 0 m.obj.mFd data w.writeLimit).1, m.sent⟩)
      hcls]
    split
    · exact hwrite _ _ rfl rfl
    · exact hwrite _ _ rfl rfl
  · exact hwrite _ _ rfl rfl

theorem sameFile_closeFile (m : Machine) (file : U32) : SameFile m (m.closeFile file) := by
  unfold Machine.closeFile
  split
  · exact sameFile_of_eq rfl rfl rfl rfl
  · exact sameFile_of_eq rfl rfl rfl rfl

/-- The packets an opened file serves, but for the modem's status. -/
theorem sameFile_openedFile (w : Outcome) (hcls : m.obj.cls = .rfsFile) {p : Packet}
    (hp : isOpStatus p.body = false) :
    SameFile m (m.openedFile md5 ioRequest w p).1 := by
  obtain ⟨tid, body⟩ := p
  have htid : SameFile m (m.setTransaction tid) := sameFile_of_eq rfl rfl rfl rfl
  unfold Machine.openedFile
  cases body with
  | opStatus => exact absurd hp (by simp [isOpStatus])
  | closeFile file => exact htid.trans (sameFile_closeFile _ file)
  | ioRequest file offset length io =>
    dsimp only
    unfold Machine.ioRequest
    split
    · exact sameFile_of_eq rfl rfl rfl rfl
    split
    · exact htid.trans (sameFile_readRequest w _ offset length)
    split
    · exact htid.trans (sameFile_writeRequest _ offset length)
    · exact sameFile_of_eq rfl rfl rfl rfl
  | read status file => exact sameFile_readResponse w m status file
  | write status file data => exact sameFile_writeResponse md5 w hcls status file data
  | openFile | nvUnprotect | nvProtect | nvBackup | other => exact sameFile_of_eq rfl rfl rfl rfl

end SameFile

/-- The system does all it is asked for. -/
def willing : Outcome := ⟨true, some framePayloadSize, some framePayloadSize, fun _ => 0⟩

section Session

variable {id : U32} {name : Name} {created : Bool} {m : Machine}

theorem Serving.same (h : Serving id name created m) {m' : Machine} (hident : m'.ident = m.ident)
    (hsame : SameFile m m') (hopening : m.obj.mState = .closed → m'.obj.mLastIo = .openFile) :
    Serving id name created m' := by
  refine ⟨hident.trans h.ident, fun hs => hopening (hsame.mState.symm.trans hs), fun d hd => ?_⟩
  obtain ⟨hopened, hfiles⟩ := h.fd d (hsame.mFd.symm.trans hd)
  exact ⟨hsame.opened hopened, hsame.files hfiles⟩

theorem Serving.refuse (h : Serving id name created m) (tid : BitVec 16) :
    Serving id name created (m.refuse tid).1 :=
  h.same rfl (sameFile_of_eq rfl rfl rfl rfl) h.opening

/-- **A packet keeps the session's invariant**, as long as the object is
there. -/
theorem Serving.processMessage (h : Serving id name created m) {p : Packet} {w : Outcome}
    (hkeep : (m.processMessage md5 w p).2 = .keep) :
    Serving id name created (m.processMessage md5 w p).1 := by
  have hcls : m.obj.cls = .rfsFile := congrArg Prod.fst h.ident
  have hident := ident_processMessage md5 m w p
  obtain ⟨tid, body⟩ := p
  by_cases hstatus : isOpStatus body = true
  · cases body with
    | opStatus status file =>
      obtain ⟨settled, -, heq⟩ :=
        exists_processMessage_opStatus (m := m) md5 w tid status file
      rw [heq] at hkeep ⊢
      by_cases hid : m.obj.mId = file
      · by_cases htid : m.obj.mTransaction = tid
        · rw [opStatus_eq settled hid htid] at hkeep ⊢
          refine ⟨h.ident, fun hs => ?_, h.fd⟩
          rw [finish, if_pos ⟨hs, rfl⟩] at hkeep
          exact Response.noConfusion hkeep
        · unfold Machine.opStatus
          rw [if_neg (not_not.mpr hid), if_pos htid]
          exact h
      · unfold Machine.opStatus
        rw [if_pos hid]
        exact h.refuse tid
    | _ => exact absurd hstatus (by simp [isOpStatus])
  by_cases hbackup : ∃ file, body = .nvBackup file
  · obtain ⟨file, rfl⟩ := hbackup
    unfold Machine.processMessage
    dsimp only
    rw [if_neg (by simp [hcls])]
    exact h
  have hbody : ∀ file, (⟨tid, body⟩ : Packet).body ≠ .nvBackup file := fun file hb =>
    hbackup ⟨file, hb⟩
  by_cases hp : m.blocked ⟨tid, body⟩
  · rw [processMessage_blocked md5 hp hbody]
    exact h.refuse tid
  have hprocess : m.processMessage md5 w ⟨tid, body⟩ = m.processRfsFile md5 w ⟨tid, body⟩ := by
    rw [processMessage_unblocked md5 hp hbody, hcls]
  rw [hprocess] at hident ⊢
  unfold Machine.processRfsFile at hident ⊢
  by_cases hs : m.obj.mState = .closed
  · -- the opening is pending, and nothing else is taken
    rw [if_pos hs]
    unfold Machine.closedRfsFile
    cases body with
    | openFile file name' =>
      exact absurd (h.opening hs) (by simp [idle_of_not_blocked hp rfl])
    | opStatus => exact absurd rfl hstatus
    | closeFile | ioRequest | read | write | nvUnprotect | nvProtect | nvBackup | other =>
      exact h.refuse tid
  · rw [if_neg hs] at hident ⊢
    exact h.same hident (sameFile_openedFile md5 w hcls (by simpa using hstatus))
      fun hs' => absurd hs' hs

/-- **An opening begins a session.** -/
theorem Serving.begun {s : Slot} (hs : (s.machine id).obj.mState = .closed)
    (hio : (s.machine id).obj.mLastIo = .none) (hident : (s.machine id).ident = (.rfsFile, id, 0))
    (tid : BitVec 16) (w : Outcome) (name : Name) :
    ∃ m, s.step md5 id (.packet ⟨tid, .openFile id name⟩ w) = .of m ∧
      Serving id name (s.sys.files name).isNone m := by
  have hcls : (s.machine id).obj.cls = .rfsFile := congrArg Prod.fst hident
  have hid : ((s.machine id).setTransaction tid).obj.mId = id := congrArg (·.2.1) hident
  have hprocess : (s.machine id).processMessage md5 w ⟨tid, .openFile id name⟩ =
      (((s.machine id).setTransaction tid).openFile w id name).finish := by
    rw [processMessage_unblocked md5 (fun hp => hp.1 hio) (by simp), hcls]
    exact if_pos hs
  have hserving : ∀ {o sent} {k : System Name BYTE}, (o.cls, o.mId, o.mNvSize) = (.rfsFile, id, 0) →
      o.mLastIo = .openFile → (∀ d, o.mFd = some d →
        k.OpenedAs d name (s.sys.files name).isNone true ∧ k.files name ≠ none) →
      (⟨o, k, sent⟩ : Machine).finish.2 = .keep ∧
        Serving id name (s.sys.files name).isNone (⟨o, k, sent⟩ : Machine).finish.1 := by
    intro o sent k ho hopen hfd
    refine ⟨if_neg fun hc => ?_, ho, fun _ => hopen, hfd⟩
    exact absurd hc.2 (by simp [hopen])
  have hbegun : (((s.machine id).setTransaction tid).openFile w id name).finish.2 = .keep ∧
      Serving id name (s.sys.files name).isNone
        (((s.machine id).setTransaction tid).openFile w id name).finish.1 := by
    unfold Machine.openFile
    rw [if_neg (not_not.mpr hid)]
    dsimp only
    by_cases hw : ¬ w.opens
    · rw [if_pos hw]
      exact hserving hident rfl fun d hd => absurd hd (Option.some_ne_none d).symm
    · rw [if_neg hw]
      cases hfile : s.sys.files name with
      | some bytes =>
        have hsome : (((s.machine id).setTransaction tid).setIo .openFile).sys.files name =
            some bytes := hfile
        rw [hsome]
        rw [hfile] at hserving
        refine hserving hident rfl fun d hd => ?_
        obtain rfl := Option.some.inj hd
        have hne : s.sys.files name ≠ none := by simp [hfile]
        exact ⟨⟨0, List.getElem?_concat_length⟩, hne⟩
      | none =>
        have hnone : (((s.machine id).setTransaction tid).setIo .openFile).sys.files name =
            none := hfile
        rw [hnone]
        rw [hfile] at hserving
        refine hserving hident rfl fun d hd => ?_
        obtain rfl := Option.some.inj hd
        have hne : (s.sys.store name []).files name ≠ none := by simp [System.store]
        exact ⟨⟨0, List.getElem?_concat_length⟩, hne⟩
  refine ⟨_, ?_, hbegun.2⟩
  show Slot.settle ((s.machine id).processMessage md5 w _) = _
  rw [hprocess]
  exact settle_keep hbegun.1

/-- **The run of a session.** -/
theorem Session.serving {s₀ s : Slot} (hgeneric : fileClass id = .rfsFile)
    (h : Session md5 id name s₀ s) :
    ∃ m, s = .of m ∧ Serving id name (s₀.sys.files name).isNone m := by
  have hident := h.reached.ident
  rw [hgeneric] at hident
  obtain ⟨tid, w, inputs, halways, rfl⟩ := h.run
  obtain ⟨m, hm, hserving⟩ := Serving.begun md5 h.closed h.idle hident tid w name
  rw [hm] at halways ⊢
  clear hm h
  induction inputs generalizing m with
  | nil => exact ⟨m, rfl, hserving⟩
  | cons i inputs ih =>
    obtain ⟨-, hrest⟩ := halways
    have hfile := hrest.head
    cases i with
    | free => exact absurd rfl hfile
    | packet p w =>
      have hkeep := keep_of_file hfile
      have hstep : Slot.step md5 id (.of m) (.packet p w) = .of (m.processMessage md5 w p).1 :=
        settle_keep hkeep
      rw [hstep] at hrest
      rw [List.foldl_cons, hstep]
      exact ih _ hrest (hserving.processMessage md5 hkeep)

end Session

end ExynosVendor.Rfs
