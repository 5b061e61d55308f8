import ExynosVendor.Telephony.Rfs.Backup

/-!
# The mode of the protected file

`CNvProtectedFile` opens its file for writing when the modem asks, and
makes it read-only again behind a write, behind the modem's own command
and when the object is deleted. `Vault` keeps the file's mode beside the
object; what does not change it is the object's own affair. `Sealed` says
what is to hold of the mode, and `Bolted` what that takes of a packet.
-/

namespace ExynosVendor.Rfs

open Ril (BYTE)
open Descriptor Machine

variable (md5 : List BYTE → List BYTE)

/-! ## The object and the mode -/

/-- How the system answers, and whether the mode of a file that exists can
be changed. -/
structure Answers extends Outcome where
  chmods : Bool

/-- The object of the protected file, and whether its file may be
written. -/
structure Vault where
  machine : Machine
  writable : Bool

namespace Vault

/-- The object alone goes on. -/
def put (v : Vault) (m : Machine) : Vault := { v with machine := m }

/-- The same with what `ProcessMessage` returned. -/
def take (v : Vault) (r : Machine × Response) : Vault × Response := (v.put r.1, r.2)

/-- `chmod` of the NV file. -/
def chmod (a : Answers) (v : Vault) (writable : Bool) : Vault :=
  if a.chmods ∧ v.machine.sys.files v.machine.nvName ≠ none then { v with writable := writable }
  else v

/-- Behind the `switch`. -/
def finish (v : Vault) : Vault × Response := v.take v.machine.finish

/-- What the destructor does to the file. -/
def delete (a : Answers) (v : Vault) : Vault :=
  if v.machine.obj.mState = .openedUnprotected then v.chmod a false else v

/-- `Unprotect`. -/
def unprotectNv (a : Answers) (v : Vault) (file : U32) : Vault :=
  if v.machine.obj.mId ≠ file then v.put (v.machine.status statusInvalidParam)
  else
    let v := (v.put (v.machine.setIo .nvUnprotect).closeFd).chmod a true
    let m := v.machine.openNv a.toOutcome true
    v.put (if m.obj.mFd = none then m.status statusOpenFail else m.setSize.status statusSuccess)

/-- `Protect` by a command. -/
def protectNv (a : Answers) (v : Vault) (file : U32) : Vault :=
  if v.machine.obj.mId ≠ file then v.put (v.machine.status statusInvalidParam)
  else
    let v := (v.put (v.machine.setIo .nvProtect).closeFd).chmod a false
    let m := v.machine.openNv a.toOutcome false
    v.put (if m.obj.mFd = none then m.status statusOpenFail else m.status statusSuccess)

/-- `Protect` without a command. -/
def protect (a : Answers) (v : Vault) : Vault :=
  let v := (v.put v.machine.closeFd).chmod a false
  let m := v.machine.openNv a.toOutcome false
  v.put (if m.obj.mFd = none then m else m.setState .openedProtected)

def onWriteDone (a : Answers) (v : Vault) : Vault :=
  let v := v.protect a
  v.put (v.machine.checkAndUpdateCsum md5 a.toOutcome)

/-- The bytes of a write response are all in the file. -/
def written (a : Answers) (v : Vault) (length : ℕ) : Vault :=
  let m := v.machine.advance length
  if m.obj.mWriteLength ≠ 0 then v.put m.askWrite
  else
    let v := (v.put (m.setIo .none)).onWriteDone md5 a
    v.put (v.machine.status statusSuccess)

def writeResponse (a : Answers) (v : Vault) (status file : U32) (data : List BYTE) : Vault :=
  let m := v.machine
  if m.obj.mLastIo ≠ .write then v.put (m.status statusInvalidParam)
  else if m.obj.mId ≠ file then v.put (m.status statusInvalidParam)
  else if status ≠ statusSuccess then v.put (m.setIo .none)
  else if m.obj.mWriteLength < data.length then v.put (m.status statusInvalidParam)
  else
    let result := m.sys.write 0 m.obj.mFd data a.writeLimit
    let m : Machine := { m with sys := result.1 }
    if result.2 = some data.length then (v.put m).written md5 a data.length
    else v.put (m.status statusWriteFail)

/-- The states in which nothing is written. -/
def shut (m : Machine) : Prop := m.obj.mState = .closed ∨ m.obj.mState = .openedProtected

instance (m : Machine) : Decidable (shut m) := inferInstanceAs (Decidable (_ ∨ _))

/-- **`CNvProtectedFile::ProcessMessage`**, with the mode. The commands that
may change it are those that are let through and have a case in the
object's state. -/
def processMessage (a : Answers) (v : Vault) (p : Packet) : Vault × Response :=
  let m := v.machine
  if m.blocked p then v.take (m.processMessage md5 a.toOutcome p)
  else match p.body with
    | .nvUnprotect file => ((v.put (m.setTransaction p.tid)).unprotectNv a file).finish
    | .nvProtect file =>
        if shut m then v.take (m.refuse p.tid)
        else ((v.put (m.setTransaction p.tid)).protectNv a file).finish
    | .write status file data =>
        if shut m then v.take (m.refuse p.tid)
        else (v.writeResponse md5 a status file data).finish
    | _ => v.take (m.processMessage md5 a.toOutcome p)

end Vault

/-- The entry of the protected file, with the mode. -/
structure Entry where
  slot : Slot
  writable : Bool

namespace Entry

/-- The object that takes the next packet. -/
def vault (e : Entry) : Vault := ⟨e.slot.machine nvProtected, e.writable⟩

/-- What the service does with the object after `ProcessMessage`. -/
def settle (a : Answers) (r : Vault × Response) : Entry where
  slot := Slot.settle (r.1.machine, r.2)
  writable := if r.2 = .deleteNow then (r.1.delete a).writable else r.1.writable

/-- A packet. -/
def next (e : Entry) (i : Packet × Answers) : Entry :=
  settle i.2 (e.vault.processMessage md5 i.2 i.1)

/-- Before the first packet the file is protected. -/
def start (nvSize : Option ℕ) (files : Name → Option (List BYTE)) : Entry :=
  ⟨Slot.begun nvProtected nvSize files, false⟩

end Entry

/-! ## What is to hold -/

/-- **Of every state**: with no command pending, and without an object, the
file may be written in the unprotected state only. -/
def Sealed (v : Vault) : Prop :=
  v.machine.obj.mLastIo = .none → v.writable = true →
    v.machine.obj.mState = .openedUnprotected

/-- A packet that completes a write. -/
def CompletesWrite (m : Machine) (w : Outcome) (p : Packet) : Prop :=
  match p.body with
  | .write status file data => ¬ m.blocked p ∧ ¬ Vault.shut m ∧ EndsWrite m w status file data
  | _ => False

/-- **Of every packet**: it writes nothing to a file that is closed or
protected, and if it completes a write the file is protected behind it. -/
structure Guards (v : Vault) (p : Packet) (a : Answers) (v' : Vault) : Prop where
  unwritten : Vault.shut v.machine →
    v'.machine.sys.files protectedName = v.machine.sys.files protectedName
  completed : CompletesWrite v.machine a.toOutcome p →
    v'.writable = false ∧ v'.machine.obj.mState = .openedProtected

/-- **The condition on a packet.** While the file may be written, the modem
confirms an opening for writing, and it confirms no protection; and at the
end of a write the mode can be changed, if it is not changed already, and
the file opened again. -/
def Bolted (v : Vault) (p : Packet) (a : Answers) : Prop :=
  match p.body with
  | .opStatus status file =>
      v.machine.obj.mId = file → v.machine.obj.mTransaction = p.tid → v.writable = true →
        (v.machine.obj.mLastIo = .nvUnprotect → v.machine.obj.mState ≠ .openedUnprotected →
          status = statusSuccess) ∧
        (v.machine.obj.mLastIo = .nvProtect → v.machine.obj.mState = .openedUnprotected →
          status ≠ statusSuccess)
  | .write _ _ data =>
      CompletesWrite v.machine a.toOutcome p →
        (a.chmods = true ∨ v.writable = false) ∧ a.opens = true ∧
          (afterWrite v.machine a.toOutcome data).files v.machine.nvName ≠ none
  | _ => True

/-! ## Without the mode -/

namespace Vault

variable (a : Answers) {v : Vault}

@[simp] theorem put_machine (v : Vault) (m : Machine) : (v.put m).machine = m := rfl

@[simp] theorem chmod_machine (v : Vault) (writable : Bool) :
    (v.chmod a writable).machine = v.machine := by
  unfold chmod
  split <;> rfl

theorem chmod_writable (v : Vault) (writable : Bool) :
    (v.chmod a writable).writable =
      if a.chmods ∧ v.machine.sys.files v.machine.nvName ≠ none then writable else v.writable := by
  unfold chmod
  split <;> rfl

@[simp] theorem unprotectNv_machine (v : Vault) (file : U32) :
    (v.unprotectNv a file).machine = v.machine.unprotectNv a.toOutcome file := by
  unfold unprotectNv Machine.unprotectNv
  split
  · rfl
  · simp

@[simp] theorem protectNv_machine (v : Vault) (file : U32) :
    (v.protectNv a file).machine = v.machine.protectNv a.toOutcome file := by
  unfold protectNv Machine.protectNv
  split
  · rfl
  · simp

@[simp] theorem protect_machine (v : Vault) :
    (v.protect a).machine = v.machine.protect a.toOutcome := by
  simp [protect, Machine.protect]

theorem written_machine (v : Vault) (hcls : v.machine.obj.cls = .nvProtectedFile) (length : ℕ) :
    (v.written md5 a length).machine = v.machine.written md5 a.toOutcome length := by
  unfold written Machine.written
  dsimp only
  split
  · rfl
  · have hdone : ((v.machine.advance length).setIo .none).obj.cls = .nvProtectedFile := hcls
    simp [onWriteDone, onWriteDone_protected md5 hdone]

theorem writeResponse_machine (hcls : v.machine.obj.cls = .nvProtectedFile)
    (status file : U32) (data : List BYTE) :
    (v.writeResponse md5 a status file data).machine =
      v.machine.writeResponse md5 a.toOutcome status file data := by
  unfold writeResponse Machine.writeResponse
  dsimp only
  split_ifs
  · rfl
  · rfl
  · rfl
  · rfl
  · -- the bytes are in the file
    exact written_machine md5 a
      (v.put ⟨v.machine.obj, afterWrite v.machine a.toOutcome data, v.machine.sent⟩) hcls data.length
  · rfl

theorem ite_shut {α : Type} (m : Machine) (x y : α) :
    (if shut m then x else y) =
      if m.obj.mState = .closed then x else if m.obj.mState = .openedProtected then x else y := by
  by_cases hs : m.obj.mState = .closed
  · have hshut : shut m := Or.inl hs
    rw [if_pos hs, if_pos hshut]
  by_cases hs' : m.obj.mState = .openedProtected
  · have hshut : shut m := Or.inr hs'
    rw [if_neg hs, if_pos hs', if_pos hshut]
  · have hopen : ¬ shut m := not_or.mpr ⟨hs, hs'⟩
    rw [if_neg hs, if_neg hs', if_neg hopen]

/-- **The object with the mode is the object.** -/
theorem processMessage_machine (hcls : v.machine.obj.cls = .nvProtectedFile) (p : Packet) :
    (v.processMessage md5 a p).1.machine = (v.machine.processMessage md5 a.toOutcome p).1 ∧
      (v.processMessage md5 a p).2 = (v.machine.processMessage md5 a.toOutcome p).2 := by
  obtain ⟨tid, body⟩ := p
  unfold processMessage
  dsimp only
  by_cases hblocked : v.machine.blocked ⟨tid, body⟩
  · rw [if_pos hblocked]
    exact ⟨rfl, rfl⟩
  rw [if_neg hblocked]
  have hbody : ∀ {body' : Body}, body' = body → (∀ file, body' ≠ .nvBackup file) →
      v.machine.processMessage md5 a.toOutcome ⟨tid, body⟩ =
        v.machine.processNvProtectedFile md5 a.toOutcome ⟨tid, body⟩ := by
    rintro body' rfl hne
    rw [processMessage_unblocked md5 hblocked hne, hcls]
  cases body with
  | nvUnprotect file =>
    rw [hbody rfl nofun]
    unfold Machine.processNvProtectedFile Machine.closedNvProtectedFile Machine.protectedState
      Machine.unprotectedState
    dsimp only
    split_ifs <;> exact ⟨unprotectNv_machine a _ file, by simp [finish, take]⟩
  | nvProtect file =>
    have heq : v.machine.processNvProtectedFile md5 a.toOutcome ⟨tid, .nvProtect file⟩ =
        if shut v.machine then v.machine.refuse tid
        else ((v.machine.setTransaction tid).protectNv a.toOutcome file).finish :=
      (ite_shut _ _ _).symm
    rw [hbody rfl nofun, heq]
    dsimp only
    split
    · exact ⟨rfl, rfl⟩
    · exact ⟨protectNv_machine a _ file, by simp [finish, take]⟩
  | write status file data =>
    have heq : v.machine.processNvProtectedFile md5 a.toOutcome ⟨tid, .write status file data⟩ =
        if shut v.machine then v.machine.refuse tid
        else (v.machine.writeResponse md5 a.toOutcome status file data).finish :=
      (ite_shut _ _ _).symm
    rw [hbody rfl nofun, heq]
    dsimp only
    split
    · exact ⟨rfl, rfl⟩
    · have hmachine := writeResponse_machine md5 a hcls status file data
      exact ⟨hmachine, by simp [finish, take, hmachine]⟩
  | openFile | closeFile | ioRequest | read | opStatus | nvBackup | other => exact ⟨rfl, rfl⟩

end Vault

/-! ## State and pending command -/

/-- The modem has asked to write, and the object has not gone back. -/
def Loose (m : Machine) : Prop :=
  m.obj.mState = .openedUnprotected ∨ m.obj.mLastIo = .nvUnprotect

/-- A packet that asks for no other mode. -/
structure Calm (m m' : Machine) : Prop where
  loose : Loose m → Loose m'
  state : m.obj.mState ≠ .opened → m'.obj.mState ≠ .opened

/-- An object to be deleted is closed and idle. -/
def Tidy (r : Machine × Response) : Prop :=
  r.2 = .deleteNow → r.1.obj.mState = .closed ∧ r.1.obj.mLastIo = .none

section Calm

variable {m m' : Machine}

theorem Calm.refl (m : Machine) : Calm m m := ⟨id, id⟩

theorem calm_of_state (hs : m'.obj.mState = m.obj.mState)
    (hio : m.obj.mLastIo = .nvUnprotect → m'.obj.mLastIo = .nvUnprotect) : Calm m m' := by
  refine ⟨fun h => ?_, fun h => hs ▸ h⟩
  rcases h with h | h
  · exact Or.inl (hs.trans h)
  · exact Or.inr (hio h)

theorem calm_of_idle (hs : m'.obj.mState = m.obj.mState) (hio : m.obj.mLastIo = .none) :
    Calm m m' :=
  calm_of_state hs fun h => Io.noConfusion (hio.symm.trans h)

theorem calm_readResponse (w : Outcome) (m : Machine) (status file : U32) :
    Calm m (m.readResponse w status file) := by
  refine calm_of_state (sameFile_readResponse w m status file).mState fun h => ?_
  have hne : m.obj.mLastIo ≠ .read := by simp [h]
  unfold Machine.readResponse
  rw [if_pos hne]
  exact h

theorem state_ioRequestWithin (w : Outcome) (m : Machine) (tid : BitVec 16)
    (offset length io : U32) :
    (m.ioRequestWithin w tid offset length io).1.obj.mState = m.obj.mState := by
  unfold Machine.ioRequestWithin Machine.ioRequest
  split
  · rfl
  split
  · exact (sameFile_readRequest w m offset length).mState
  split
  · exact (sameFile_writeRequest m offset length).mState
  · rfl

theorem state_openForRequest (w : Outcome) (m : Machine) (tid : BitVec 16)
    (offset length io : U32) (writable : Bool) (state : FileState) :
    (m.openForRequest w tid offset length io writable state).1.obj.mState = m.obj.mState ∨
      (m.openForRequest w tid offset length io writable state).1.obj.mState = state := by
  unfold Machine.openForRequest
  dsimp only
  split
  · exact Or.inl (openNv_eq m w writable).1
  · rw [state_ioRequestWithin, (setSize_eq _).1]
    exact Or.inr rfl

theorem state_openNvFile (w : Outcome) (m : Machine) (file : U32) (writable : Bool) :
    (m.openNvFile w file writable).obj.mState = m.obj.mState := by
  unfold Machine.openNvFile
  split
  · rfl
  · exact (answerOpen_eq _).1.trans (openNv_eq (m.setIo .openFile) w writable).1

theorem state_closeNvProtected (m : Machine) (file : U32) :
    (m.closeNvProtected file).obj.mState = m.obj.mState := by
  unfold Machine.closeNvProtected
  split <;> rfl

theorem unprotectNv_eq (w : Outcome) (m : Machine) (file : U32) :
    (m.unprotectNv w file).obj.mState = m.obj.mState ∧
      (m.unprotectNv w file).obj.mLastIo =
        if m.obj.mId = file then .nvUnprotect else m.obj.mLastIo := by
  unfold Machine.unprotectNv
  by_cases hid : m.obj.mId = file
  · have hopen := openNv_eq (m.setIo .nvUnprotect).closeFd w true
    rw [if_neg (not_not.mpr hid), if_pos hid]
    exact ⟨(answerOpen_eq _).1.trans hopen.1, (answerOpen_eq _).2.trans hopen.2.1⟩
  · rw [if_pos hid, if_neg hid]
    exact ⟨rfl, rfl⟩

theorem state_protectNv (w : Outcome) (m : Machine) (file : U32) :
    (m.protectNv w file).obj.mState = m.obj.mState := by
  have hopen := openNv_eq (m.setIo .nvProtect).closeFd w false
  unfold Machine.protectNv
  dsimp only
  split
  · rfl
  split
  · exact hopen.1
  · exact hopen.1

/-- The packets whose effect on mode and state is the object's own. -/
def settles : Body → Bool
  | .opStatus .. | .write .. | .nvUnprotect .. | .nvProtect .. => true
  | _ => false

/-- **A packet that settles nothing** leaves a file that may be written
where it was. -/
theorem calm_processMessage (w : Outcome) (hcls : m.obj.cls = .nvProtectedFile) {p : Packet}
    (hp : settles p.body = false ∨ m.blocked p) : Calm m (m.processMessage md5 w p).1 := by
  by_cases hbackup : ∃ file, p.body = .nvBackup file
  · obtain ⟨file, hbody⟩ := hbackup
    obtain ⟨flag, files, hobj, -⟩ := m.backup_eq md5 w
    have heq : m.processMessage md5 w p = ((m.backup md5 w).1, .keep) := by
      unfold Machine.processMessage
      rw [hbody]
      dsimp only
      rw [if_pos hcls]
    rw [heq, hobj]
    exact calm_of_state rfl fun h => h
  have hbody : ∀ file, p.body ≠ .nvBackup file := fun file hb => hbackup ⟨file, hb⟩
  by_cases hblocked : m.blocked p
  · rw [processMessage_blocked md5 hblocked hbody]
    exact calm_of_state rfl id
  replace hp := hp.resolve_right hblocked
  obtain ⟨tid, body⟩ := p
  have h := handles_processMessage md5 (m := m) w tid hbody
  generalize m.processMessage md5 w ⟨tid, body⟩ = r at h ⊢
  cases h with
  | refuse | refuseRequest => exact calm_of_state rfl id
  | openFile _ _ _ hrfs | ioRequest _ _ _ _ _ hrfs => exact absurd (hrfs.symm.trans hcls) nofun
  | closeFile _ _ hne => exact absurd hcls hne
  | openNvFile file name writable hio =>
    exact calm_of_idle (state_openNvFile w _ file writable) hio
  | closeNvProtected file hio => exact calm_of_idle (state_closeNvProtected _ file) hio
  | ioRequestWithin file offset length io hio =>
    exact calm_of_idle (state_ioRequestWithin w _ tid offset length io) hio
  | openForRequest file offset length io writable state hio _ hs hread =>
    obtain ⟨-, rfl⟩ := hread hcls
    refine ⟨fun h => ?_, fun h => ?_⟩
    · rcases h with h | h
      · exact FileState.noConfusion (hs.symm.trans h)
      · exact Io.noConfusion (hio.symm.trans h)
    · rcases state_openForRequest w (m.setTransaction tid) tid offset length io writable
        .openedProtected with hsame | hprotected
      · exact fun hc => h (hsame.symm.trans hc)
      · exact fun hc => FileState.noConfusion (hprotected.symm.trans hc)
  | readResponse status file => exact calm_readResponse w m status file
  | unprotectNv | protectNv | writeResponse | opStatus => exact Bool.noConfusion hp

@[simp] theorem tidy_finish (m : Machine) : Tidy m.finish := by
  intro hr
  by_contra hnot
  have hkeep : m.finish.2 = .keep := if_neg hnot
  exact Response.noConfusion (hkeep.symm.trans hr)

@[simp] theorem tidy_keep (m : Machine) : Tidy (m, .keep) := nofun

@[simp] theorem tidy_refuse (m : Machine) (tid : BitVec 16) : Tidy (m.refuse tid) := nofun

@[simp] theorem tidy_opStatus (m : Machine) (tid : BitVec 16) (status file : U32)
    (settled : Io → Option FileState) : Tidy (m.opStatus tid status file settled) := by
  unfold Machine.opStatus
  dsimp only
  split_ifs <;> simp

@[simp] theorem tidy_ioRequestWithin (w : Outcome) (m : Machine) (tid : BitVec 16)
    (offset length io : U32) : Tidy (m.ioRequestWithin w tid offset length io) := by
  unfold Machine.ioRequestWithin Machine.ioRequest
  split_ifs <;> simp

@[simp] theorem tidy_openForRequest (w : Outcome) (m : Machine) (tid : BitVec 16)
    (offset length io : U32) (writable : Bool) (state : FileState) :
    Tidy (m.openForRequest w tid offset length io writable state) := by
  unfold Machine.openForRequest
  dsimp only
  split <;> simp

theorem tidy_processMessage (w : Outcome) (p : Packet) : Tidy (m.processMessage md5 w p) := by
  obtain ⟨tid, body⟩ := p
  by_cases hbackup : ∃ file, body = .nvBackup file
  · obtain ⟨file, rfl⟩ := hbackup
    exact tidy_keep _
  have h := handles_processMessage md5 (m := m) w tid fun file hb => hbackup ⟨file, hb⟩
  generalize m.processMessage md5 w ⟨tid, body⟩ = r at h ⊢
  cases h with
  | ioRequest file offset length io =>
    unfold Machine.ioRequest
    split_ifs <;> simp
  | _ => simp

/-- What a status of the modem leads to, in each state. -/
def protectedSettled (state : FileState) (io : Io) : Option FileState :=
  match state with
  | .closed => if io = .openFile then some .openedProtected
      else if io = .nvUnprotect then some .openedUnprotected else none
  | .openedProtected => if io = .nvUnprotect then some .openedUnprotected
      else if io = .closeFile then some .closed else none
  | _ => if io = .nvProtect then some .openedProtected else none

theorem processMessage_opStatus (w : Outcome) (hcls : m.obj.cls = .nvProtectedFile)
    (tid : BitVec 16) (status file : U32) :
    m.processMessage md5 w ⟨tid, .opStatus status file⟩ =
      m.opStatus tid status file (protectedSettled m.obj.mState) := by
  have hblocked : ¬ m.blocked ⟨tid, .opStatus status file⟩ := by
    rintro ⟨-, ⟨-, hp⟩ | hp⟩
    · exact hp status file rfl
    · exact Bool.noConfusion hp
  rw [processMessage_unblocked md5 hblocked fun _ => Body.noConfusion, hcls]
  dsimp only
  unfold Machine.processNvProtectedFile
  cases hs : m.obj.mState <;> rfl

theorem state_protect (w : Outcome) (m : Machine) :
    (m.protect w).obj.mState = (if w.opens ∧ m.sys.files m.nvName ≠ none then .openedProtected
      else m.obj.mState) ∧ (m.protect w).obj.mLastIo = m.obj.mLastIo := by
  by_cases hw : w.opens ∧ m.sys.files m.nvName ≠ none
  · rw [if_pos hw]
    unfold Machine.protect
    rw [openNv_of_opens (m := m.closeFd) hw]
    exact ⟨rfl, rfl⟩
  · rw [if_neg hw, Machine.protect_eq m hw]
    exact ⟨rfl, rfl⟩

end Calm

namespace Vault

variable (a : Answers) {v : Vault}

theorem unprotectNv_writable {file : U32} (hid : v.machine.obj.mId ≠ file) :
    (v.unprotectNv a file).writable = v.writable := by
  unfold unprotectNv
  rw [if_pos hid]
  rfl

/-- A response that does not end its write. -/
theorem calm_writeResponse {status file : U32} {data : List BYTE}
    (h : ¬ EndsWrite v.machine a.toOutcome status file data) :
    Calm v.machine (v.writeResponse md5 a status file data).machine ∧
      (v.writeResponse md5 a status file data).writable = v.writable := by
  unfold writeResponse
  dsimp only
  by_cases hio : v.machine.obj.mLastIo ≠ .write
  · rw [if_pos hio]
    exact ⟨calm_of_state rfl id, rfl⟩
  rw [if_neg hio]
  have hne : v.machine.obj.mLastIo ≠ .nvUnprotect := by simp [not_not.mp hio]
  by_cases hid : v.machine.obj.mId ≠ file
  · rw [if_pos hid]
    exact ⟨calm_of_state rfl id, rfl⟩
  rw [if_neg hid]
  by_cases hstatus : status ≠ statusSuccess
  · rw [if_pos hstatus]
    exact ⟨calm_of_state rfl fun hc => absurd hc hne, rfl⟩
  rw [if_neg hstatus]
  by_cases hlen : v.machine.obj.mWriteLength < data.length
  · rw [if_pos hlen]
    exact ⟨calm_of_state rfl id, rfl⟩
  rw [if_neg hlen]
  by_cases hres : (v.machine.sys.write 0 v.machine.obj.mFd data a.writeLimit).2 = some data.length
  · -- what is left of the transfer is asked for
    have hmore : v.machine.obj.mWriteLength - data.length ≠ 0 := by
      intro hdone
      exact h ⟨not_not.mp hio, not_not.mp hid, not_not.mp hstatus, by omega, hres⟩
    rw [if_pos hres]
    unfold written
    dsimp only
    rw [if_pos (by exact hmore)]
    exact ⟨calm_of_state rfl id, rfl⟩
  · rw [if_neg hres]
    exact ⟨calm_of_state rfl id, rfl⟩

/-- **The response that ends a write** changes the mode if it can, and the
state if it can open the file. -/
theorem writeResponse_ends {status file : U32} {data : List BYTE}
    (h : EndsWrite v.machine a.toOutcome status file data) :
    (v.writeResponse md5 a status file data).machine.obj.mLastIo = .none ∧
      (v.writeResponse md5 a status file data).writable =
        (if a.chmods ∧ (afterWrite v.machine a.toOutcome data).files v.machine.nvName ≠ none
          then false else v.writable) ∧
      (v.writeResponse md5 a status file data).machine.obj.mState =
        (if a.opens ∧ (afterWrite v.machine a.toOutcome data).files v.machine.nvName ≠ none
          then .openedProtected else v.machine.obj.mState) := by
  let after : Machine := ⟨v.machine.obj, afterWrite v.machine a.toOutcome data, v.machine.sent⟩
  let done : Machine := (after.advance data.length).setIo .none
  have hdone : v.writeResponse md5 a status file data =
      ((v.put done).onWriteDone md5 a).put
        (((v.put done).onWriteDone md5 a).machine.status statusSuccess) := by
    obtain ⟨hio, hid, hstatus, hlen, hres⟩ := h
    unfold writeResponse
    dsimp only
    rw [if_neg (not_not.mpr hio), if_neg (not_not.mpr hid), if_neg (not_not.mpr hstatus),
      if_neg (by omega), if_pos hres]
    unfold written
    dsimp only
    rw [if_neg (by simp [Machine.advance, hlen])]
    rfl
  have hprotect := state_protect a.toOutcome done
  have hobj : ((v.put done).onWriteDone md5 a).machine.obj = (done.protect a.toOutcome).obj := by
    unfold onWriteDone
    dsimp only
    rw [put_machine, checkAndUpdateCsum_obj, protect_machine, put_machine]
  rw [hdone]
  refine ⟨?_, ?_, ?_⟩
  · exact (congrArg RfsFile.mLastIo hobj).trans hprotect.2
  · exact chmod_writable a _ false
  · exact (congrArg RfsFile.mState hobj).trans hprotect.1

end Vault

/-! ## The invariant -/

/-- **The invariant.** The file may be written only if the modem has asked
for it. -/
structure Locked (v : Vault) : Prop where
  cls : v.machine.obj.cls = .nvProtectedFile
  state : v.machine.obj.mState ≠ .opened
  mode : v.writable = true → Loose v.machine

section Locked

variable {v : Vault} {p : Packet} {a : Answers}

theorem Locked.sealed (h : Locked v) : Sealed v := fun hio hw =>
  (h.mode hw).resolve_right fun hun => Io.noConfusion (hio.symm.trans hun)

theorem Locked.opened_of_not_shut (h : Locked v) (hs : ¬ Vault.shut v.machine) :
    v.machine.obj.mState = .openedUnprotected := by
  cases hstate : v.machine.obj.mState with
  | closed => exact absurd (Or.inl hstate) hs
  | openedProtected => exact absurd (Or.inr hstate) hs
  | opened => exact absurd hstate h.state
  | openedUnprotected => rfl

/-- What a packet does to mode and state: the condition says when the
object is sealed behind it and a completed write has protected the file,
and then the invariant is kept. -/
structure Bolts (v : Vault) (p : Packet) (a : Answers) (v' : Vault) : Prop where
  locked : Bolted v p a → Locked v'
  completed : Bolted v p a → CompletesWrite v.machine a.toOutcome p →
    v'.writable = false ∧ v'.machine.obj.mState = .openedProtected
  bolted : Sealed v' → (CompletesWrite v.machine a.toOutcome p →
    v'.writable = false ∧ v'.machine.obj.mState = .openedProtected) → Bolted v p a

theorem bolts_of_locked {v' : Vault} (h : Locked v') (hb : Bolted v p a)
    (hc : ¬ CompletesWrite v.machine a.toOutcome p) : Bolts v p a v' :=
  ⟨fun _ => h, fun _ hcomplete => absurd hcomplete hc, fun _ _ => hb⟩

theorem Locked.calm (h : Locked v) {v' : Vault} (hident : v'.machine.ident = v.machine.ident)
    (hcalm : Calm v.machine v'.machine) (hw : v'.writable = v.writable) : Locked v' :=
  ⟨(congrArg Prod.fst hident).trans h.cls, hcalm.state h.state, fun hw' => hcalm.loose (h.mode (hw ▸ hw'))⟩

theorem calm_opStatus {m : Machine} {tid : BitVec 16} {status file : U32}
    {settled : Io → Option FileState} (h : ¬ (m.obj.mId = file ∧ m.obj.mTransaction = tid)) :
    Calm m (m.opStatus tid status file settled).1 := by
  unfold Machine.opStatus
  by_cases hid : m.obj.mId = file
  · rw [if_neg (not_not.mpr hid), if_pos fun htid => h ⟨hid, htid⟩]
    exact Calm.refl m
  · rw [if_pos hid]
    exact calm_of_state rfl id

theorem settledState_ne_opened {m : Machine} (hs : m.obj.mState ≠ .opened) (status : U32) :
    settledState m status (protectedSettled m.obj.mState) ≠ .opened := by
  unfold settledState protectedSettled
  split
  · cases hstate : m.obj.mState with
    | opened => exact absurd hstate hs
    | closed | openedProtected | openedUnprotected => dsimp only; split_ifs <;> nofun
  · exact hs

/-- **A settling status** leaves a file that may be written in the
unprotected state exactly if the condition holds. -/
theorem Locked.settledState_iff (h : Locked v) (hw : v.writable = true) (status : U32) :
    settledState v.machine status (protectedSettled v.machine.obj.mState) = .openedUnprotected ↔
      (v.machine.obj.mLastIo = .nvUnprotect → v.machine.obj.mState ≠ .openedUnprotected →
        status = statusSuccess) ∧
      (v.machine.obj.mLastIo = .nvProtect → v.machine.obj.mState = .openedUnprotected →
        status ≠ statusSuccess) := by
  unfold settledState
  cases hs : v.machine.obj.mState with
  | opened => exact absurd hs h.state
  | openedUnprotected =>
    by_cases hstatus : status = statusSuccess
    · by_cases hio : v.machine.obj.mLastIo = .nvProtect
      · simp [hstatus, hio, protectedSettled]
      · simp [hstatus, hio, protectedSettled]
    · simp [hstatus]
  | closed | openedProtected =>
    have hio : v.machine.obj.mLastIo = .nvUnprotect :=
      (h.mode hw).resolve_left fun hun => FileState.noConfusion (hs.symm.trans hun)
    simp [hio, protectedSettled]

/-- **A status.** -/
theorem Locked.opStatus (h : Locked v) (tid : BitVec 16) (status file : U32) :
    Bolts v ⟨tid, .opStatus status file⟩ a
      (v.put (v.machine.opStatus tid status file (protectedSettled v.machine.obj.mState)).1) := by
  have hident : ((v.machine.opStatus tid status file
      (protectedSettled v.machine.obj.mState)).1).ident = v.machine.ident := by simp
  by_cases hmine : v.machine.obj.mId = file ∧ v.machine.obj.mTransaction = tid
  swap
  · exact bolts_of_locked (h.calm hident (calm_opStatus hmine) rfl)
      (fun hid htid => absurd ⟨hid, htid⟩ hmine) id
  obtain ⟨hid, htid⟩ := hmine
  rw [opStatus_eq _ hid htid] at hident ⊢
  have hiff := h.settledState_iff
  refine ⟨fun hb => ⟨(congrArg Prod.fst hident).trans h.cls,
      settledState_ne_opened h.state status, fun hw => ?_⟩,
    fun _ hc => absurd hc id, fun hsealed _ _ _ hw => ?_⟩
  · exact Or.inl ((hiff hw status).mpr (hb hid htid hw))
  · exact (hiff hw status).mp (hsealed rfl hw)

/-- **`RFS_NV_UNPROTECT`.** -/
theorem Locked.unprotectNv (h : Locked v) (tid : BitVec 16) (file : U32) :
    Locked ((v.put (v.machine.setTransaction tid)).unprotectNv a file) := by
  have hmachine := Vault.unprotectNv_machine a (v.put (v.machine.setTransaction tid)) file
  obtain ⟨hs, hio⟩ := unprotectNv_eq a.toOutcome (v.machine.setTransaction tid) file
  refine ⟨?_, ?_, fun hw => ?_⟩
  · rw [hmachine]
    exact (congrArg Prod.fst (ident_unprotectNv _ _ _)).trans h.cls
  · rw [hmachine]
    exact fun hc => h.state (hs.symm.trans hc)
  · rw [hmachine]
    by_cases hid : v.machine.obj.mId = file
    · exact Or.inr (hio.trans (if_pos hid))
    · rw [Vault.unprotectNv_writable a (v := v.put (v.machine.setTransaction tid)) hid] at hw
      rcases h.mode hw with hloose | hloose
      · exact Or.inl (hs.trans hloose)
      · exact Or.inr ((hio.trans (if_neg hid)).trans hloose)

/-- **`RFS_NV_PROTECT`.** -/
theorem Locked.protectNv (h : Locked v) (hopen : v.machine.obj.mState = .openedUnprotected)
    (tid : BitVec 16) (file : U32) :
    Locked ((v.put (v.machine.setTransaction tid)).protectNv a file) := by
  have hmachine := Vault.protectNv_machine a (v.put (v.machine.setTransaction tid)) file
  have hs := (state_protectNv a.toOutcome (v.machine.setTransaction tid) file).trans hopen
  refine ⟨?_, ?_, fun _ => ?_⟩
  · rw [hmachine]
    exact (congrArg Prod.fst (ident_protectNv _ _ _)).trans h.cls
  · rw [hmachine]
    exact fun hc => FileState.noConfusion (hs.symm.trans hc)
  · rw [hmachine]
    exact Or.inl hs

/-- **A write response.** -/
theorem Locked.writeResponse (h : Locked v) {tid : BitVec 16} {status file : U32}
    {data : List BYTE} (hblocked : ¬ v.machine.blocked ⟨tid, .write status file data⟩)
    (hshut : ¬ Vault.shut v.machine) :
    Bolts v ⟨tid, .write status file data⟩ a (v.writeResponse md5 a status file data) := by
  have hident : (v.writeResponse md5 a status file data).machine.ident = v.machine.ident := by
    rw [Vault.writeResponse_machine md5 a h.cls]
    exact ident_writeResponse md5 _ _ _ _ _
  have hopen := h.opened_of_not_shut hshut
  by_cases hends : EndsWrite v.machine a.toOutcome status file data
  swap
  · obtain ⟨hcalm, hw⟩ := Vault.calm_writeResponse md5 a hends
    exact bolts_of_locked (h.calm hident hcalm hw) (fun hc => absurd hc.2.2 hends)
      fun hc => hends hc.2.2
  have hcompletes : CompletesWrite v.machine a.toOutcome ⟨tid, .write status file data⟩ :=
    ⟨hblocked, hshut, hends⟩
  obtain ⟨hio, hw, hs⟩ := Vault.writeResponse_ends md5 a hends
  have hdone : Bolted v ⟨tid, .write status file data⟩ a →
      (v.writeResponse md5 a status file data).writable = false ∧
        (v.writeResponse md5 a status file data).machine.obj.mState = .openedProtected := by
    intro hb
    obtain ⟨hmode, hopens, hfile⟩ := hb hcompletes
    refine ⟨?_, hs.trans (if_pos ⟨hopens, hfile⟩)⟩
    rw [hw]
    rcases hmode with hchmods | hro
    · exact if_pos ⟨hchmods, hfile⟩
    · rw [hro]
      exact ite_self false
  refine ⟨fun hb => ?_, fun hb _ => hdone hb, fun _ hc _ => ?_⟩
  · obtain ⟨hro, hstate⟩ := hdone hb
    refine ⟨(congrArg Prod.fst hident).trans h.cls, ?_, fun hw' => ?_⟩
    · rw [hstate]
      nofun
    · exact Bool.noConfusion (hro.symm.trans hw')
  · obtain ⟨hro, hstate⟩ := hc hcompletes
    rw [hw] at hro
    rw [hs, hopen] at hstate
    have hopens : a.opens = true ∧
        (afterWrite v.machine a.toOutcome data).files v.machine.nvName ≠ none := by
      by_contra hnot
      rw [if_neg hnot] at hstate
      exact FileState.noConfusion hstate
    refine ⟨?_, hopens⟩
    by_cases hchmods : a.chmods = true
    · exact Or.inl hchmods
    · rw [if_neg fun hc => hchmods hc.1] at hro
      exact Or.inr hro

/-- **The step lemma.** -/
theorem Locked.processMessage (h : Locked v) (a : Answers) (p : Packet) :
    Bolts v p a (v.processMessage md5 a p).1 := by
  obtain ⟨tid, body⟩ := p
  have hcalm : settles body = false ∨ v.machine.blocked ⟨tid, body⟩ →
      Locked (v.put (v.machine.processMessage md5 a.toOutcome ⟨tid, body⟩).1) := fun hbody =>
    h.calm (ident_processMessage md5 _ _ _) (calm_processMessage md5 a.toOutcome h.cls hbody) rfl
  have hrefuse : Locked (v.put (v.machine.refuse tid).1) :=
    h.calm rfl (calm_of_state rfl id) rfl
  unfold Vault.processMessage
  dsimp only
  by_cases hblocked : v.machine.blocked ⟨tid, body⟩
  · rw [if_pos hblocked]
    cases body with
    | opStatus status file =>
      have heq := processMessage_opStatus md5 (m := v.machine) a.toOutcome h.cls tid status file
      show Bolts v _ a (v.put _)
      rw [heq]
      exact h.opStatus tid status file
    | write status file data =>
      exact bolts_of_locked (hcalm (Or.inr hblocked)) (fun hc => absurd hblocked hc.1)
        fun hc => hc.1 hblocked
    | _ => exact bolts_of_locked (hcalm (Or.inr hblocked)) trivial id
  rw [if_neg hblocked]
  cases body with
  | opStatus status file =>
    have heq := processMessage_opStatus md5 (m := v.machine) a.toOutcome h.cls tid status file
    show Bolts v _ a (v.put _)
    rw [heq]
    exact h.opStatus tid status file
  | nvUnprotect file => exact bolts_of_locked (h.unprotectNv tid file) trivial id
  | nvProtect file =>
    dsimp only
    split
    · exact bolts_of_locked hrefuse trivial id
    · next hshut => exact bolts_of_locked (h.protectNv (h.opened_of_not_shut hshut) tid file) trivial id
  | write status file data =>
    dsimp only
    split
    · next hshut =>
      exact bolts_of_locked hrefuse (fun hc => absurd hshut hc.2.1) fun hc => hc.2.1 hshut
    · next hshut => exact h.writeResponse md5 hblocked hshut
  | openFile | closeFile | ioRequest | read | nvBackup | other =>
    exact bolts_of_locked (hcalm (Or.inl rfl)) trivial id

/-- A backup is in files of its own. -/
theorem files_backup (w : Outcome) (m : Machine) :
    (m.backup md5 w).1.sys.files protectedName = m.sys.files protectedName := by
  obtain ⟨-, -, hbackup, hcsum, -⟩ := names_apart
  obtain ⟨flag, files, heq, hfiles⟩ := m.backup_eq md5 w
  rw [heq]
  exact hfiles _ hbackup hcsum

/-- **Nothing is written** while the file is closed or protected. -/
theorem Locked.unwritten (h : Locked v) (hshut : Vault.shut v.machine) (a : Answers) (p : Packet) :
    (v.processMessage md5 a p).1.machine.sys.files protectedName =
      v.machine.sys.files protectedName := by
  by_cases hwrite : ∃ status file data, p.body = .write status file data
  · obtain ⟨status, file, data, hbody⟩ := hwrite
    unfold Vault.processMessage
    dsimp only
    split
    · next hblocked =>
      have heq := processMessage_blocked md5 (w := a.toOutcome) hblocked
        (fun file => by rw [hbody]; exact Body.noConfusion)
      rw [heq]
      rfl
    · rw [hbody]
      dsimp only
      rfl
  rw [(Vault.processMessage_machine md5 a h.cls p).1]
  by_cases hbackup : ∃ file, p.body = .nvBackup file
  · obtain ⟨file, hbody⟩ := hbackup
    unfold Machine.processMessage
    rw [hbody]
    dsimp only
    rw [if_pos h.cls]
    exact files_backup md5 _ _
  · have hcls : v.machine.obj.cls ≠ .rfsFile := by simp [h.cls]
    have hsteady := steady_processMessage md5 a.toOutcome hcls (p := p)
      (fun status file data hb => hwrite ⟨status, file, data, hb⟩) fun file hb => hbackup ⟨file, hb⟩
    rw [hsteady.files]

end Locked

/-! ## Runs -/

section Runs

variable {a : Answers} {r : Vault × Response}

/-- An object that is kept is in the entry; one that is deleted is closed,
and leaves the mode as it is. -/
theorem settle_vault (ht : Tidy (r.1.machine, r.2)) :
    (Entry.settle a r).vault = r.1 ∨
      r.1.machine.obj.mState = .closed ∧ r.1.machine.obj.mLastIo = .none ∧
        (Entry.settle a r).vault =
          ⟨⟨allocFile nvProtected, destroy r.1.machine, r.1.machine.sent⟩, r.1.writable⟩ := by
  unfold Entry.settle Entry.vault
  cases hr : r.2 with
  | keep =>
    rw [settle_keep rfl]
    exact Or.inl rfl
  | deleteNow =>
    obtain ⟨hs, hio⟩ := ht hr
    refine Or.inr ⟨hs, hio, ?_⟩
    have hmode : r.1.delete a = r.1 := by
      unfold Vault.delete
      rw [if_neg (by rw [hs]; exact FileState.noConfusion)]
    rw [hmode]
    rfl

theorem locked_settle (ht : Tidy (r.1.machine, r.2)) (h : Locked r.1) :
    Locked (Entry.settle a r).vault := by
  rcases settle_vault (a := a) ht with heq | ⟨hs, hio, heq⟩
  · rw [heq]
    exact h
  · rw [heq]
    refine ⟨rfl, nofun, fun hw => ?_⟩
    have hopen := h.sealed hio hw
    exact FileState.noConfusion (hs.symm.trans hopen)

theorem sealed_settle (ht : Tidy (r.1.machine, r.2)) (h : Sealed (Entry.settle a r).vault) :
    Sealed r.1 := by
  rcases settle_vault (a := a) ht with heq | ⟨hs, hio, heq⟩
  · rwa [heq] at h
  · rw [heq] at h
    intro _ hw
    exact FileState.noConfusion (h rfl hw)

/-- **What the service keeps of the step lemma.** -/
theorem Locked.next {e : Entry} (h : Locked e.vault) (i : Packet × Answers) :
    (Bolted e.vault i.1 i.2 → Locked (e.next md5 i).vault ∧
      Guards e.vault i.1 i.2 (e.next md5 i).vault) ∧
    (Sealed (e.next md5 i).vault → Guards e.vault i.1 i.2 (e.next md5 i).vault →
      Bolted e.vault i.1 i.2) := by
  obtain ⟨p, a⟩ := i
  have hbolts := h.processMessage md5 a p
  obtain ⟨hmachine, hresponse⟩ := Vault.processMessage_machine md5 a h.cls p
  have ht : Tidy ((e.vault.processMessage md5 a p).1.machine, (e.vault.processMessage md5 a p).2) := by
    rw [hmachine, hresponse]
    exact tidy_processMessage md5 a.toOutcome p
  have hfiles : (e.next md5 (p, a)).vault.machine.sys.files =
      (e.vault.processMessage md5 a p).1.machine.sys.files := settle_files _
  have hunwritten := fun hshut => h.unwritten md5 hshut a p
  constructor
  · intro hb
    refine ⟨locked_settle ht (hbolts.locked hb), fun hshut => ?_, fun hc => ?_⟩
    · rw [hfiles]
      exact hunwritten hshut
    · have hdone := hbolts.completed hb hc
      rcases settle_vault (a := a) ht with heq | ⟨hs, -, -⟩
      · exact heq ▸ hdone
      · exact FileState.noConfusion (hs.symm.trans hdone.2)
  · intro hsealed hguards
    refine hbolts.bolted (sealed_settle ht hsealed) fun hc => ?_
    have hdone := hguards.completed hc
    rcases settle_vault (a := a) ht with heq | ⟨-, -, heq⟩
    · exact heq ▸ hdone
    · have hclosed : (e.next md5 (p, a)).vault.machine.obj.mState = .closed :=
        congrArg (fun v : Vault => v.machine.obj.mState) heq
      exact FileState.noConfusion (hclosed.symm.trans hdone.2)

end Runs

/-- **When the protected file stays protected.** For every run of packets,
from any files, with any answers of the system: every state is sealed and
every packet guards the file exactly if the condition holds of every
packet. -/
theorem sealed_iff (nvSize : Option ℕ) (files : Name → Option (List BYTE))
    (inputs : List (Packet × Answers)) :
    Run.Always (Entry.next md5) (fun e => Sealed e.vault) (Entry.start nvSize files) inputs ∧
      Run.Throughout (Entry.next md5)
        (fun e i => Guards e.vault i.1 i.2 (e.next md5 i).vault) (Entry.start nvSize files) inputs ↔
    Run.Throughout (Entry.next md5) (fun e i => Bolted e.vault i.1 i.2) (Entry.start nvSize files)
      inputs := by
  refine Run.Always.and_throughout_iff (I := fun e => Locked e.vault) (fun _ h => h.sealed)
    (fun _ i h hb => (h.next md5 i).1 hb) (fun _ i h hs hg => (h.next md5 i).2 hs hg) ?_
  rw [Entry.vault, Entry.start, Slot.machine_begun]
  exact ⟨rfl, nofun, fun hw => Bool.noConfusion hw⟩

/-- The system does all it is asked for. -/
def obliging : Answers := { willing with chmods := true }

/-- An opening for writing that the modem does not confirm. -/
def unprotectRefused : List (Packet × Answers) :=
  [(⟨1, .nvUnprotect nvProtected⟩, obliging), (⟨1, .opStatus statusReadFail nvProtected⟩, obliging)]

/-- **There the object is deleted, and the file may be written.** -/
theorem not_sealed_unprotectRefused :
    ¬ (Run.Always (Entry.next id) (fun e => Sealed e.vault) (Entry.start none twoBytes)
        unprotectRefused ∧
      Run.Throughout (Entry.next id)
        (fun e i => Guards e.vault i.1 i.2 (e.next id i).vault) (Entry.start none twoBytes)
        unprotectRefused) := by
  rintro ⟨h, -⟩
  have hlast := h.last
  exact absurd (hlast (by decide) (by decide)) (by decide)

end ExynosVendor.Rfs
