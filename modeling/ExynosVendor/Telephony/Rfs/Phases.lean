import ExynosVendor.Telephony.Rfs.File

/-!
# Who owns a descriptor

The object opens and closes at once, but believes it only when the modem
has said so: `mState` follows `mFd` with a message in between. `Sound`
says what is to hold nevertheless, `Settled` what that takes, and `Owned`
which descriptor is open in each phase. The transfers keep it.
-/

namespace ExynosVendor.Rfs

open Ril (BYTE)
open Descriptor

variable (md5 : List BYTE → List BYTE)

/-! ## What is to hold -/

/-- **What is to hold of an entry.** Nothing that is not open was read or
written, no descriptor was closed twice, an object with no command pending
is in an opened state exactly when its descriptor is open, and what an
entry without an object has opened was closed, once. -/
structure Sound (s : Slot) : Prop where
  stray : s.sys.stray = []
  once : ∀ d, s.sys.closed.count d ≤ 1
  idle : ∀ o, s.file = some o → o.mLastIo = .none →
    (o.mState ≠ .closed ↔ s.sys.Live o.mFd)
  freed : s.file = none → ∀ d, d < s.sys.opened.length → s.sys.closed.count d = 1

/-- The system after the `write` of a response. -/
def afterWrite (m : Machine) (w : Outcome) (data : List BYTE) : System Name BYTE :=
  (m.sys.write 0 m.obj.mFd data w.writeLimit).1

/-- A write response that ends its transfer. -/
def EndsWrite (m : Machine) (w : Outcome) (status file : U32) (data : List BYTE) : Prop :=
  m.obj.mLastIo = .write ∧ m.obj.mId = file ∧ status = statusSuccess ∧
    m.obj.mWriteLength = data.length ∧
    (m.sys.write 0 m.obj.mFd data w.writeLimit).2 = some data.length

/-- The modem confirms an opening exactly when the file was opened, it
confirms every closing, and a file whose mode it settles was opened again. -/
def SettledStatus (m : Machine) (status : U32) : Prop :=
  (m.obj.mState = .closed → m.obj.mLastIo = .openFile ∨ m.obj.mLastIo = .nvUnprotect →
    (status = statusSuccess ↔ m.obj.mFd ≠ none)) ∧
  (m.obj.mState ≠ .closed → m.obj.mLastIo = .nvProtect ∨ m.obj.mLastIo = .nvUnprotect →
    m.obj.mFd ≠ none) ∧
  (m.obj.mLastIo = .closeFile → status = statusSuccess)

/-- **The condition on a packet.** A status is one that settles its
command; and a protected file can be opened again after a write. -/
def SettledPacket (m : Machine) (p : Packet) (w : Outcome) : Prop :=
  match p.body with
  | .opStatus status file =>
      m.obj.mId = file → m.obj.mTransaction = p.tid → SettledStatus m status
  | .write status file data =>
      m.obj.cls = .nvProtectedFile → ¬ m.blocked p →
      m.obj.mState ≠ .closed → m.obj.mState ≠ .openedProtected →
      EndsWrite m w status file data → w.opens ∧ (afterWrite m w data).files m.nvName ≠ none
  | _ => True

/-- **The condition.** And the service does not end while an opening that
succeeded is pending, nor, unless the file is the protected one, while a
closing is. -/
def Settled (id : U32) (s : Slot) : Input → Prop
  | .packet p w => SettledPacket (s.machine id) p w
  | .free => ∀ o, s.file = some o →
      (o.mState = .closed → ¬ s.sys.Live o.mFd) ∧
        (o.cls ≠ .nvProtectedFile → o.mState ≠ .closed → o.mLastIo ≠ .closeFile)

/-! ## The phases of an object -/

/-- **The phases.** Which descriptor is open, by the state and the command
that is pending. -/
inductive Phase (o : RfsFile) (k : System Name BYTE) : Prop where
  | closed (hs : o.mState = .closed) (hio : o.mLastIo = .none) (hfd : ¬ k.Live o.mFd)
      (hnone : o.cls = .nvProtectedFile → o.mFd = none)
  | opening (hs : o.mState = .closed)
      (hio : o.mLastIo = .openFile ∨ o.mLastIo = .nvUnprotect ∧ o.cls = .nvProtectedFile)
      (hfd : k.Live o.mFd ∨ o.mFd = none)
  | opened (hs : o.mState ≠ .closed)
      (hio : o.mLastIo = .none ∨ o.mLastIo = .read ∨ o.mLastIo = .write) (hfd : k.Live o.mFd)
  | reopening (hs : o.mState ≠ .closed)
      (hio : o.mLastIo = .nvProtect ∨ o.mLastIo = .nvUnprotect)
      (hfd : k.Live o.mFd ∨ o.mFd = none)
  | closing (hs : o.mState ≠ .closed) (hio : o.mLastIo = .closeFile)
      (hcls : o.cls ≠ .nvProtectedFile) (hfd : ∃ d, o.mFd = some d ∧ d ∈ k.closed)
  | closingProtected (hs : o.mState = .openedProtected) (hio : o.mLastIo = .closeFile)
      (hcls : o.cls = .nvProtectedFile) (hfd : o.mFd = none)

/-- What holds of the descriptors in every phase: the object's is the only
one that may be open. -/
structure Table (m : Machine) : Prop where
  stray : m.sys.stray = []
  once : m.sys.closed.Nodup
  bound : ∀ d ∈ m.sys.closed, d < m.sys.opened.length
  only : ∀ d, m.sys.Live (some d) → m.obj.mFd = some d

/-- **The invariant.** -/
structure Owned (m : Machine) : Prop where
  table : Table m
  phase : Phase m.obj m.sys

/-! ## What touches no descriptor -/

/-- What the invariant sees of a machine is the same. -/
structure SameOwner (m m' : Machine) : Prop where
  cls : m'.obj.cls = m.obj.cls
  mFd : m'.obj.mFd = m.obj.mFd
  sys : System.SameTable m.sys m'.sys

namespace SameOwner

variable {m m' m'' : Machine}

theorem refl (m : Machine) : SameOwner m m := ⟨rfl, rfl, System.SameTable.refl _⟩

theorem trans (h : SameOwner m m') (h' : SameOwner m' m'') : SameOwner m m'' :=
  ⟨h'.cls.trans h.cls, h'.mFd.trans h.mFd, h.sys.trans h'.sys⟩

theorem live_iff (h : SameOwner m m') :
    m'.sys.Live m'.obj.mFd ↔ m.sys.Live m.obj.mFd := by
  rw [h.mFd]
  exact h.sys.live_iff _

theorem table (h : SameOwner m m') (ht : Table m) : Table m' where
  stray := h.sys.stray.trans ht.stray
  once := h.sys.closed ▸ ht.once
  bound := by
    rw [h.sys.closed, h.sys.opened]
    exact ht.bound
  only d hd := by
    rw [h.mFd]
    exact ht.only d ((h.sys.live_iff _).mp hd)

/-- The phase stays with the state and the command. -/
theorem phase (h : SameOwner m m') (hs : m'.obj.mState = m.obj.mState)
    (hio : m'.obj.mLastIo = m.obj.mLastIo) (hp : Phase m.obj m.sys) : Phase m'.obj m'.sys := by
  have hlive := h.live_iff
  cases hp with
  | closed hs' hio' hfd hnone =>
    exact .closed (hs.trans hs') (hio.trans hio') (mt hlive.mp hfd)
      fun hcls => h.mFd.trans (hnone (h.cls.symm.trans hcls))
  | opening hs' hio' hfd =>
    exact .opening (hs.trans hs') (by rw [hio, h.cls]; exact hio')
      (hfd.imp hlive.mpr h.mFd.trans)
  | opened hs' hio' hfd =>
    exact .opened (by rw [hs]; exact hs') (by rw [hio]; exact hio') (hlive.mpr hfd)
  | reopening hs' hio' hfd =>
    exact .reopening (by rw [hs]; exact hs') (by rw [hio]; exact hio')
      (hfd.imp hlive.mpr h.mFd.trans)
  | closing hs' hio' hcls hfd =>
    exact .closing (by rw [hs]; exact hs') (hio.trans hio') (by rw [h.cls]; exact hcls)
      (by rw [h.mFd, h.sys.closed]; exact hfd)
  | closingProtected hs' hio' hcls hfd =>
    exact .closingProtected (hs.trans hs') (hio.trans hio') (h.cls.trans hcls) (h.mFd.trans hfd)

theorem owned (h : SameOwner m m') (hs : m'.obj.mState = m.obj.mState)
    (hio : m'.obj.mLastIo = m.obj.mLastIo) (ho : Owned m) : Owned m' :=
  ⟨h.table ho.table, h.phase hs hio ho.phase⟩

end SameOwner

namespace Table

variable {m : Machine}

theorem not_live (h : Table m) (hfd : ¬ m.sys.Live m.obj.mFd) (d : ℕ) :
    ¬ m.sys.Live (some d) := by
  intro hd
  rw [h.only d hd] at hfd
  exact hfd hd

theorem length_not_mem (h : Table m) : m.sys.opened.length ∉ m.sys.closed := fun hd =>
  Nat.lt_irrefl _ (h.bound _ hd)

theorem dropFd (h : Table m) (hfd : ¬ m.sys.Live m.obj.mFd) : Table m.dropFd where
  stray := h.stray
  once := h.once
  bound := h.bound
  only d hd := absurd hd (h.not_live hfd d)

/-- Opening when nothing is open. -/
theorem openAs (h : Table m) (hfd : ¬ m.sys.Live m.obj.mFd) (name : Name)
    (writable append : Bool) :
    Table (m.openAs name writable append) ∧
      (m.openAs name writable append).sys.Live (m.openAs name writable append).obj.mFd := by
  have hlive := System.live_openFile h.length_not_mem name writable append
  refine ⟨⟨h.stray, h.once, fun d hd => ?_, fun d hd => ?_⟩, (hlive _).mpr (Or.inr rfl)⟩
  · show d < (m.sys.opened ++ [_]).length
    have := h.bound d hd
    rw [List.length_append]
    omega
  · rcases (hlive d).mp hd with hd | rfl
    · exact absurd hd (h.not_live hfd d)
    · rfl

/-- Closing what is open, or nothing. -/
theorem closeFd (h : Table m) (hfd : m.sys.Live m.obj.mFd ∨ m.obj.mFd = none) :
    Table m.closeFd ∧ ¬ m.closeFd.sys.Live m.closeFd.obj.mFd := by
  rcases hfd with hfd | hfd
  · cases hd : m.obj.mFd with
    | none => exact absurd (hd ▸ hfd) (System.not_live_none _)
    | some d =>
      rw [hd, System.live_some] at hfd
      have hclosed : m.closeFd.sys.closed = d :: m.sys.closed := by
        show m.obj.mFd.toList ++ m.sys.closed = _
        rw [hd]
        rfl
      refine ⟨⟨h.stray, hclosed ▸ List.nodup_cons.mpr ⟨hfd.2, h.once⟩, ?_, fun d' hd' => ?_⟩, ?_⟩
      · intro d' hd'
        rw [hclosed] at hd'
        rcases List.mem_cons.mp hd' with rfl | hd'
        · exact hfd.1
        · exact h.bound d' hd'
      · exact h.only d' ((System.live_close _ _ _).mp hd').1
      · show ¬ (m.sys.close m.obj.mFd).Live m.obj.mFd
        rw [hd, System.live_close]
        exact fun hl => hl.2 rfl
  · have hsame : SameOwner m m.closeFd := by
      refine ⟨rfl, rfl, rfl, ?_, rfl⟩
      show m.obj.mFd.toList ++ m.sys.closed = _
      rw [hfd]
      rfl
    refine ⟨hsame.table h, ?_⟩
    rw [hsame.live_iff, hfd]
    exact System.not_live_none _

/-- Opening the NV file when nothing is open: it is open afterwards, or
there is no descriptor. -/
theorem openNv (h : Table m) (hfd : ¬ m.sys.Live m.obj.mFd) (w : Outcome) (writable : Bool) :
    Table (m.openNv w writable) ∧
      ((m.openNv w writable).sys.Live (m.openNv w writable).obj.mFd ∨
        (m.openNv w writable).obj.mFd = none) := by
  unfold Machine.openNv
  split_ifs
  · exact ⟨(h.openAs hfd _ _ _).1, Or.inl (h.openAs hfd _ _ _).2⟩
  · exact ⟨h.dropFd hfd, Or.inr rfl⟩

end Table

namespace Machine

variable {m : Machine}

/-- With no command pending, the state and the descriptor are all there is
to agree. -/
theorem owned_of_idle (ht : Table m) (hio : m.obj.mLastIo = .none)
    (h : m.obj.mState ≠ .closed ↔ m.sys.Live m.obj.mFd)
    (hnone : m.obj.mState = .closed → m.obj.cls = .nvProtectedFile → m.obj.mFd = none) :
    Owned m := by
  refine ⟨ht, ?_⟩
  by_cases hs : m.obj.mState = .closed
  · exact .closed hs hio (fun hl => h.mpr hl hs) (hnone hs)
  · exact .opened hs (Or.inl hio) (h.mp hs)

variable {w : Outcome}

theorem openNv_of_opens {writable : Bool} (h : w.opens ∧ m.sys.files m.nvName ≠ none) :
    m.openNv w writable = m.openAs m.nvName writable false := if_pos h

theorem openNv_of_not_opens {writable : Bool} (h : ¬ (w.opens ∧ m.sys.files m.nvName ≠ none)) :
    m.openNv w writable = m.dropFd := if_neg h

theorem sameOwner_setSize (m : Machine) : SameOwner m m.setSize := by
  unfold setSize
  split
  · exact ⟨rfl, rfl, System.SameTable.refl _⟩
  · exact ⟨rfl, rfl, System.sameTable_seek _ _ _⟩

theorem sameOwner_setIo (m : Machine) (io : Io) : SameOwner m (m.setIo io) :=
  ⟨rfl, rfl, System.SameTable.refl _⟩

theorem sameOwner_statusOf (m : Machine) (tid : BitVec 16) (error : U32) :
    SameOwner m (m.statusOf tid error) := ⟨rfl, rfl, System.SameTable.refl _⟩

theorem sameOwner_setTransaction (m : Machine) (tid : BitVec 16) :
    SameOwner m (m.setTransaction tid) := ⟨rfl, rfl, System.SameTable.refl _⟩

theorem sameOwner_backup (w : Outcome) (m : Machine) : SameOwner m (m.backup md5 w).1 := by
  obtain ⟨flag, files, heq, -⟩ := m.backup_eq md5 w
  rw [heq]
  exact ⟨rfl, rfl, rfl, rfl, rfl⟩

/-- The checksum is taken through the object's descriptor if it has one. -/
theorem sameOwner_csumUpdate (w : Outcome)
    (hfd : m.sys.Live m.obj.mFd ∨ m.obj.mFd = none) : SameOwner m (m.csumUpdate md5 w) := by
  unfold csumUpdate
  cases hd : m.obj.mFd with
  | none =>
    dsimp only
    split
    · exact SameOwner.refl m
    · split
      · exact ⟨rfl, rfl, System.sameTable_store _ _ _⟩
      · exact SameOwner.refl m
  | some d =>
    rw [hd] at hfd
    obtain ⟨e, he⟩ := (hfd.resolve_right (Option.some_ne_none d)).exists_find
    rw [he]
    refine ⟨rfl, rfl, ?_⟩
    dsimp only
    split
    · exact (System.sameTable_seek _ _ _).trans (System.sameTable_store _ _ _)
    · exact System.sameTable_seek _ _ _

theorem sameOwner_checkAndUpdateCsum (w : Outcome)
    (hfd : m.sys.Live m.obj.mFd ∨ m.obj.mFd = none) :
    SameOwner m (m.checkAndUpdateCsum md5 w) := by
  unfold checkAndUpdateCsum
  split
  · exact sameOwner_csumUpdate md5 w hfd
  · exact SameOwner.refl m

theorem csumUpdate_obj (w : Outcome) (m : Machine) : (m.csumUpdate md5 w).obj = m.obj := by
  unfold csumUpdate
  cases hd : m.obj.mFd with
  | none =>
    dsimp only
    split
    · rfl
    · split <;> rfl
  | some d =>
    dsimp only
    split <;> rfl

theorem checkAndUpdateCsum_obj (w : Outcome) (m : Machine) :
    (m.checkAndUpdateCsum md5 w).obj = m.obj := by
  unfold checkAndUpdateCsum
  split
  · exact csumUpdate_obj md5 w m
  · rfl

/-! ## Transfers -/

/-- The object has a file open and no opening or closing pending. -/
structure Held (m : Machine) : Prop where
  table : Table m
  state : m.obj.mState ≠ .closed
  io : m.obj.mLastIo = .none ∨ m.obj.mLastIo = .read ∨ m.obj.mLastIo = .write
  live : m.sys.Live m.obj.mFd

theorem Held.owned (h : Held m) : Owned m := ⟨h.table, .opened h.state h.io h.live⟩

theorem Held.same {m' : Machine} (h : Held m) (hsame : SameOwner m m')
    (hs : m'.obj.mState = m.obj.mState)
    (hio : m'.obj.mLastIo = .none ∨ m'.obj.mLastIo = .read ∨ m'.obj.mLastIo = .write) :
    Held m' :=
  ⟨hsame.table h.table, hs ▸ h.state, hio, hsame.live_iff.mpr h.live⟩

theorem Held.setIo {io : Io} (h : Held m) (hio : io = .none ∨ io = .read ∨ io = .write) :
    Held (m.setIo io) := h.same (sameOwner_setIo m io) rfl hio

theorem Held.read (h : Held m) (w : Outcome) : Held (m.read w) := by
  have hsys := System.sameTable_read h.live (min m.obj.mReadLength framePayloadSize) w.readLimit
  unfold Machine.read
  dsimp only
  split_ifs
  · exact h.same ⟨rfl, rfl, hsys⟩ rfl h.io
  · exact h.same ⟨rfl, rfl, hsys⟩ rfl h.io

/-- `Protect` closes the file and opens it again, where that is possible. -/
theorem Held.protect (h : Held m) (hw : w.opens ∧ m.sys.files m.nvName ≠ none) :
    Held (m.protect w) := by
  have hclose := h.table.closeFd (Or.inl h.live)
  have hopen := hclose.1.openAs hclose.2 m.nvName false false
  have heq : m.protect w = (m.closeFd.openAs m.nvName false false).setState .openedProtected := by
    unfold Machine.protect
    rw [openNv_of_opens (m := m.closeFd) hw]
    exact if_neg (Option.some_ne_none _)
  have hsame : SameOwner (m.closeFd.openAs m.nvName false false)
      ((m.closeFd.openAs m.nvName false false).setState .openedProtected) :=
    ⟨rfl, rfl, System.SameTable.refl _⟩
  rw [heq]
  exact ⟨hsame.table hopen.1, fun hs => FileState.noConfusion hs, h.io, hopen.2⟩

theorem protect_eq (m : Machine) (hw : ¬ (w.opens ∧ m.sys.files m.nvName ≠ none)) :
    m.protect w = m.closeFd.dropFd := by
  unfold Machine.protect
  rw [openNv_of_not_opens (m := m.closeFd) hw]
  exact if_pos rfl

theorem Held.onWriteDone (h : Held m)
    (hw : m.obj.cls = .nvProtectedFile → w.opens ∧ m.sys.files m.nvName ≠ none) :
    Held (m.onWriteDone md5 w) := by
  have hcsum : ∀ {m' : Machine}, Held m' → Held (m'.checkAndUpdateCsum md5 w) := by
    intro m' h'
    refine h'.same (sameOwner_checkAndUpdateCsum md5 w (Or.inl h'.live)) ?_ ?_
    · rw [checkAndUpdateCsum_obj]
    · rw [checkAndUpdateCsum_obj]
      exact h'.io
  unfold Machine.onWriteDone
  cases hcls : m.obj.cls with
  | rfsFile => exact h
  | nvFile => exact hcsum h
  | nvProtectedFile => exact hcsum (h.protect (hw hcls))

theorem Held.written (h : Held m) {length : ℕ}
    (hw : m.obj.cls = .nvProtectedFile → m.obj.mWriteLength = length →
      w.opens ∧ m.sys.files m.nvName ≠ none)
    (hle : length ≤ m.obj.mWriteLength) :
    Held (m.written md5 w length) := by
  unfold Machine.written
  split_ifs with hrest
  · exact h.same ⟨rfl, rfl, System.SameTable.refl _⟩ rfl h.io
  · have hdone : m.obj.mWriteLength = length := by
      have : m.obj.mWriteLength - length = 0 := not_not.mp hrest
      omega
    have hidle : Held ((m.advance length).setIo .none) :=
      h.same ⟨rfl, rfl, System.SameTable.refl _⟩ rfl (Or.inl rfl)
    have hend := hidle.onWriteDone md5 (w := w) fun hcls => hw hcls hdone
    exact hend.same (sameOwner_statusOf _ _ _) rfl hend.io

theorem Held.readRequest (h : Held m) (w : Outcome) (offset length : U32) :
    Held (m.readRequest w offset length) := by
  have haim : Held (m.aimRead offset length) :=
    h.same ⟨rfl, rfl, System.sameTable_seek _ _ _⟩ rfl h.io
  unfold Machine.readRequest
  split_ifs
  · exact (haim.setIo (Or.inr (Or.inl rfl))).read w
  · exact haim.same (sameOwner_statusOf _ _ _) rfl haim.io

theorem Held.writeRequest (h : Held m) (offset length : U32) :
    Held (m.writeRequest offset length) := by
  have haim : Held (m.aimWrite offset length) :=
    h.same ⟨rfl, rfl, System.sameTable_seek _ _ _⟩ rfl h.io
  unfold Machine.writeRequest
  split_ifs
  · exact (haim.setIo (Or.inr (Or.inr rfl))).same ⟨rfl, rfl, System.SameTable.refl _⟩ rfl
      (Or.inr (Or.inr rfl))
  · exact haim.same (sameOwner_statusOf _ _ _) rfl haim.io

/-- The only object with a read or a write pending is one with its file
open. -/
theorem held_of_transfer (h : Owned m) (hio : m.obj.mLastIo = .read ∨ m.obj.mLastIo = .write) :
    Held m := by
  have hnot : ∀ io, m.obj.mLastIo = io → io = .read ∨ io = .write := by
    rintro io rfl
    exact hio
  cases h.phase with
  | closed hs hio' hfd hnone => simpa using hnot _ hio'
  | opening hs hio' hfd =>
    rcases hio' with hio' | ⟨hio', -⟩
    · simpa using hnot _ hio'
    · simpa using hnot _ hio'
  | opened hs hio' hfd => exact ⟨h.table, hs, hio', hfd⟩
  | reopening hs hio' hfd =>
    rcases hio' with hio' | hio'
    · simpa using hnot _ hio'
    · simpa using hnot _ hio'
  | closing hs hio' hcls hfd => simpa using hnot _ hio'
  | closingProtected hs hio' hcls hfd => simpa using hnot _ hio'

end Machine

open Machine

variable {m : Machine}

theorem Owned.status (h : Owned m) (error : U32) : Owned (m.status error) :=
  (sameOwner_statusOf m _ error).owned rfl rfl h

theorem Owned.readResponse (h : Owned m) (w : Outcome) (status file : U32) :
    Owned (m.readResponse w status file) := by
  unfold Machine.readResponse
  split_ifs with hio
  · exact h.status _
  · exact h.status _
  · exact ((held_of_transfer h (Or.inl (not_not.mp hio))).setIo (Or.inl rfl)).owned
  · exact ((held_of_transfer h (Or.inl (not_not.mp hio))).read w).owned
  · exact ((held_of_transfer h (Or.inl (not_not.mp hio))).setIo (Or.inl rfl)).owned

theorem Owned.writeResponse (h : Owned m) {w : Outcome} {status file : U32} {data : List BYTE}
    (hw : m.obj.cls = .nvProtectedFile → EndsWrite m w status file data →
      w.opens ∧ (afterWrite m w data).files m.nvName ≠ none) :
    Owned (m.writeResponse md5 w status file data) := by
  unfold Machine.writeResponse
  by_cases hio : m.obj.mLastIo ≠ .write
  · rw [if_pos hio]
    exact h.status _
  rw [if_neg hio]
  have hheld := held_of_transfer h (Or.inr (not_not.mp hio))
  by_cases hid : m.obj.mId ≠ file
  · rw [if_pos hid]
    exact h.status _
  rw [if_neg hid]
  by_cases hstatus : status ≠ statusSuccess
  · rw [if_pos hstatus]
    exact (hheld.setIo (Or.inl rfl)).owned
  rw [if_neg hstatus]
  by_cases hlen : m.obj.mWriteLength < data.length
  · rw [if_pos hlen]
    exact h.status _
  rw [if_neg hlen]
  have hsys := System.sameTable_write hheld.live (0 : BYTE) data w.writeLimit
  have hheld' : Held ⟨m.obj, (m.sys.write 0 m.obj.mFd data w.writeLimit).1, m.sent⟩ :=
    hheld.same ⟨rfl, rfl, hsys⟩ rfl hheld.io
  dsimp only
  by_cases hres : (m.sys.write 0 m.obj.mFd data w.writeLimit).2 = some data.length
  · rw [if_pos hres]
    refine (hheld'.written md5 (fun hcls hdone => ?_) (Nat.le_of_not_lt hlen)).owned
    exact hw hcls ⟨not_not.mp hio, not_not.mp hid, not_not.mp hstatus, hdone, hres⟩
  · rw [if_neg hres]
    exact hheld'.owned.status _

end ExynosVendor.Rfs
