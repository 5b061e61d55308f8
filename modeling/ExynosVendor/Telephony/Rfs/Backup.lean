import ExynosVendor.Telephony.Rfs.Frame

/-!
# The backup of the protected file

A backup is made at once unless a write is under way. Then it is noted in
a flag, and no exit of the write looks at the flag; and what is under way
is told by the bytes outstanding, which an aborted write leaves behind.
`Watched` follows whether a backup was asked for, `Unharmed` is what a
packet must not do, and `backedUp` that nothing is lost then.
-/

namespace ExynosVendor.Rfs

open Ril (BYTE)
open Descriptor Machine

variable (md5 : List BYTE → List BYTE)

/-! ## What is to hold -/

/-- The protected NV file. -/
def protectedName : Name := nvFileName nvProtected

/-- An entry without an object, or whose object has no command pending. -/
def Idle (s : Slot) : Prop := (s.machine nvProtected).obj.mLastIo = .none

instance (s : Slot) : Decidable (Idle s) := inferInstanceAs (Decidable (_ = _))

/-- Whether a command is `RFS_NV_BACKUP`. -/
def isBackup : Body → Bool
  | .nvBackup _ => true
  | _ => false

/-- The entry of the protected file, and whether a backup was asked for
that no idle state has come after. -/
structure Watched where
  slot : Slot
  wanted : Bool

namespace Watched

/-- A packet. A state without a command pending is the last to answer for
the backups asked for before it. -/
def next (t : Watched) (i : Packet × Outcome) : Watched where
  slot := t.slot.processRfsPacket md5 nvProtected i.1 i.2
  wanted := isBackup i.1.body || (t.wanted && !decide (Idle t.slot))

/-- Before the first packet. -/
def start (nvSize : Option ℕ) (files : Name → Option (List BYTE)) : Watched :=
  ⟨Slot.begun nvProtected nvSize files, false⟩

end Watched

/-- **What is to hold of a state**: when nothing is pending, a backup that
was asked for is there, and no write stands in the way of `Backup` and
`Restore`. -/
structure BackedUp (t : Watched) : Prop where
  backup : t.wanted = true → Idle t.slot →
    t.slot.sys.files backupName = t.slot.sys.files protectedName
  free : Idle t.slot → (t.slot.machine nvProtected).obj.mWriteLength = 0

/-- **The condition on a packet.** No backup is asked for while bytes are
outstanding, and one that is takes the whole file; no write that has some
is given up, and none is requested at an offset that cannot be reached. -/
def Unharmed (w : Outcome) (m : Machine) (p : Packet) : Prop :=
  match p.body with
  | .nvBackup _ => m.obj.mWriteLength = 0 ∧
      ∀ bytes, m.sys.files protectedName = some bytes →
        bytes.length < 2 ^ 32 ∧ ∃ limit, w.writeLimit = some limit ∧ bytes.length ≤ limit
  | .opStatus _ file => m.obj.mLastIo = .write → p.tid = m.obj.mTransaction →
      file = m.obj.mId → m.obj.mWriteLength = 0
  | .write status file _ => m.obj.mLastIo = .write → p.tid = m.obj.mTransaction →
      file = m.obj.mId → status ≠ statusSuccess → m.obj.mWriteLength = 0
  | .ioRequest file offset length io => io = ioWrite → m.obj.mLastIo = .none →
      file = m.obj.mId → m.obj.mState ≠ .closed → m.obj.mState ≠ .openedProtected →
      (offset + length).toNat ≤ m.obj.mSize → m.seeks offset ∨ length = 0
  | _ => True

/-! ## The invariant -/

/-- **The invariant.** Bytes are outstanding only while a write is
pending. -/
structure Guarded (m : Machine) : Prop where
  kind : m.kind = (.nvProtectedFile, nvProtected)
  own : m.Own
  present : m.sys.files protectedName ≠ none
  pending : m.obj.mLastIo ≠ .write → m.obj.mWriteLength = 0

/-- The backup is what the file is, and no byte is on its way to it. -/
structure Current (m : Machine) : Prop where
  backup : m.sys.files backupName = m.sys.files protectedName
  mWriteLength : m.obj.mWriteLength = 0

section Guarded

variable {m m' : Machine}

theorem Guarded.cls (h : Guarded m) : m.obj.cls = .nvProtectedFile := congrArg Prod.fst h.kind

theorem Guarded.nvName (h : Guarded m) : m.nvName = protectedName :=
  congrArg (fun i : FileClass × U32 => nvFileName i.2) h.kind

theorem Guarded.undisturbed (h : Guarded m) (hu : Undisturbed m m') (hident : m'.ident = m.ident)
    (hpending : m.obj.mLastIo = .write → m'.obj.mLastIo = .write ∨ m.obj.mWriteLength = 0) :
    Guarded m' := by
  refine ⟨(kind_of_ident hident).trans h.kind, hu.own h.own, ?_, fun hio => ?_⟩
  · rw [hu.files]
    exact h.present
  · rw [hu.mWriteLength]
    by_cases hwrite : m.obj.mLastIo = .write
    · exact (hpending hwrite).resolve_left hio
    · exact h.pending hwrite

theorem Current.undisturbed (h : Current m) (hu : Undisturbed m m') : Current m' := by
  refine ⟨?_, hu.mWriteLength.trans h.mWriteLength⟩
  rw [hu.files]
  exact h.backup

theorem names_apart : protectedName ≠ csumName protectedName ∧
    backupName ≠ csumName protectedName ∧ protectedName ≠ backupName ∧
    protectedName ≠ csumName backupName ∧ backupName ≠ csumName backupName := by decide

/-- The checksum and the mode at the end of a write. -/
theorem Guarded.onWriteDone (h : Guarded m) (hlen : m.obj.mWriteLength = 0) (w : Outcome) :
    Guarded (m.onWriteDone md5 w) ∧ (Current m → Current (m.onWriteDone md5 w)) := by
  have hprotect := undisturbed_protect w m
  have hguarded : Guarded (m.protect w) :=
    h.undisturbed hprotect (ident_protect m w) fun _ => Or.inr hlen
  obtain ⟨-, hfiles⟩ := checkAndUpdateCsum_keeps md5 w (m.protect w)
  rw [hguarded.nvName] at hfiles
  obtain ⟨hfile, hbackup, -⟩ := names_apart
  rw [onWriteDone_protected md5 h.cls]
  have hzero : ((m.protect w).checkAndUpdateCsum md5 w).obj.mWriteLength = 0 := by
    rw [checkAndUpdateCsum_obj, hprotect.mWriteLength]
    exact hlen
  refine ⟨⟨?_, own_checkAndUpdateCsum md5 w hguarded.own, ?_, fun _ => hzero⟩,
    fun hcurrent => ⟨?_, hzero⟩⟩
  · exact (kind_of_ident (ident_checkAndUpdateCsum md5 _ w)).trans hguarded.kind
  · rw [hfiles _ hfile]
    exact hguarded.present
  · rw [hfiles _ hbackup, hfiles _ hfile]
    exact (hcurrent.undisturbed hprotect).backup

/-- Bytes were written. -/
theorem Guarded.written (h : Guarded m) (hio : m.obj.mLastIo = .write) (w : Outcome) (length : ℕ) :
    Guarded (m.written md5 w length) ∧ (Current m → Current (m.written md5 w length)) := by
  unfold Machine.written
  split
  · refine ⟨⟨h.kind, h.own, h.present, fun hne => absurd hio hne⟩, fun hcurrent => ?_⟩
    refine ⟨hcurrent.backup, ?_⟩
    show m.obj.mWriteLength - length = 0
    rw [hcurrent.mWriteLength]
    exact Nat.zero_sub length
  · next hdone =>
    have hzero : ((m.advance length).setIo .none).obj.mWriteLength = 0 := not_not.mp hdone
    have hguarded : Guarded ((m.advance length).setIo .none) :=
      ⟨h.kind, h.own, h.present, fun _ => hzero⟩
    obtain ⟨hend, hkeep⟩ := hguarded.onWriteDone md5 hzero w
    have hstatus : Undisturbed (((m.advance length).setIo .none).onWriteDone md5 w)
        ((((m.advance length).setIo .none).onWriteDone md5 w).status statusSuccess) :=
      undisturbed_of_eq rfl rfl rfl rfl (Or.inl rfl) (Or.inl rfl)
    refine ⟨hend.undisturbed hstatus rfl fun hwrite => Or.inl hwrite, fun hcurrent => ?_⟩
    exact (hkeep ⟨hcurrent.backup, hzero⟩).undisturbed hstatus

/-- **A write response.** If it is not one that gives the write up with
bytes outstanding, it keeps the invariant; and with none outstanding it
writes none. -/
theorem Guarded.writeResponse (h : Guarded m) (w : Outcome) {status file : U32}
    (hstatus : m.obj.mLastIo = .write → m.obj.mId = file → status ≠ statusSuccess →
      m.obj.mWriteLength = 0) (data : List BYTE) :
    Guarded (m.writeResponse md5 w status file data) ∧
      (Current m → Current (m.writeResponse md5 w status file data)) := by
  have hsame : ∀ m' : Machine, m'.sys = m.sys → m'.ident = m.ident →
      m'.obj.mFd = m.obj.mFd → m'.obj.mWriteLength = m.obj.mWriteLength →
      (m.obj.mLastIo = .write → m'.obj.mLastIo = .write ∨ m.obj.mWriteLength = 0) →
      Guarded m' ∧ (Current m → Current m') := by
    intro m' hsys hident hfd hlen hio
    have hid : m'.obj.mId = m.obj.mId := congrArg (·.2.1) hident
    have hu : Undisturbed m m' :=
      undisturbed_of_eq hid hlen (by rw [hsys]) (by rw [hsys]) (Or.inl hfd) (Or.inl (by rw [hsys]))
    exact ⟨h.undisturbed hu hident hio, fun hcurrent => hcurrent.undisturbed hu⟩
  unfold Machine.writeResponse
  by_cases hio : m.obj.mLastIo ≠ .write
  · rw [if_pos hio]
    exact hsame _ rfl rfl rfl rfl fun hwrite => Or.inl hwrite
  rw [if_neg hio]
  by_cases hid : m.obj.mId ≠ file
  · rw [if_pos hid]
    exact hsame _ rfl rfl rfl rfl fun hwrite => Or.inl hwrite
  rw [if_neg hid]
  by_cases hsuccess : status ≠ statusSuccess
  · rw [if_pos hsuccess]
    exact hsame _ rfl rfl rfl rfl fun hwrite => Or.inr (hstatus hwrite (not_not.mp hid) hsuccess)
  rw [if_neg hsuccess]
  by_cases hlen : m.obj.mWriteLength < data.length
  · rw [if_pos hlen]
    exact hsame _ rfl rfl rfl rfl fun hwrite => Or.inl hwrite
  rw [if_neg hlen]
  have hafter : Guarded ⟨m.obj, (m.sys.write 0 m.obj.mFd data w.writeLimit).1, m.sent⟩ :=
    ⟨h.kind, own_afterWrite h.own w data, System.files_write_ne_none h.present _ _ _ _, h.pending⟩
  have hcurrent : Current m →
      Current ⟨m.obj, (m.sys.write 0 m.obj.mFd data w.writeLimit).1, m.sent⟩ := by
    intro hc
    have hnil : data = [] := by
      refine List.eq_nil_of_length_eq_zero ?_
      have hzero := hc.mWriteLength
      omega
    have hpresent : ∀ e, m.sys.find m.obj.mFd = some e → m.sys.files e.name ≠ none := by
      intro e he
      rw [h.own.of_find he, h.nvName]
      exact h.present
    refine ⟨?_, hc.mWriteLength⟩
    show (m.sys.write 0 m.obj.mFd data w.writeLimit).1.files backupName = _
    rw [hnil, System.files_write_nil hpresent]
    exact hc.backup
  dsimp only
  split
  · obtain ⟨hend, hkeep⟩ := hafter.written md5 (not_not.mp hio) w data.length
    exact ⟨hend, fun hc => hkeep (hcurrent hc)⟩
  · have hfail : Undisturbed ⟨m.obj, (m.sys.write 0 m.obj.mFd data w.writeLimit).1, m.sent⟩
        ((⟨m.obj, (m.sys.write 0 m.obj.mFd data w.writeLimit).1, m.sent⟩ : Machine).status
          statusWriteFail) := undisturbed_of_eq rfl rfl rfl rfl (Or.inl rfl) (Or.inl rfl)
    exact ⟨hafter.undisturbed hfail rfl fun hwrite => Or.inl hwrite,
      fun hc => (hcurrent hc).undisturbed hfail⟩

variable {w : Outcome}

/-- **A backup that is not refused.** -/
theorem Guarded.backup (h : Guarded m) (hw : w.opens) (hlen : m.obj.mWriteLength = 0)
    (hsize : ∀ bytes, m.sys.files protectedName = some bytes →
      bytes.length < 2 ^ 32 ∧ ∃ limit, w.writeLimit = some limit ∧ bytes.length ≤ limit) :
    Guarded (m.backup md5 w).1 ∧ Current (m.backup md5 w).1 := by
  obtain ⟨bytes, hbytes⟩ := Option.ne_none_iff_exists'.mp h.present
  obtain ⟨-, -, hfile, hfile', hbackup⟩ := names_apart
  obtain ⟨hlt, limit, hlimit, hle⟩ := hsize bytes hbytes
  have htake : (bytes.take (bytes.length % 2 ^ 32)).take limit = bytes := by
    rw [Nat.mod_eq_of_lt hlt, List.take_length, List.take_of_length_le hle]
  have heq : (m.backup md5 w).1 = ⟨m.obj, (m.sys.store backupName bytes).store
      (csumName backupName) (csum md5 bytes signatureSit), m.sent⟩ := by
    unfold Machine.backup
    rw [if_neg (not_not.mpr hlen), if_neg (not_not.mpr hw), h.nvName, hbytes, hlimit]
    dsimp only
    rw [htake]
  have hkept : ((m.sys.store backupName bytes).store (csumName backupName)
      (csum md5 bytes signatureSit)).files protectedName = m.sys.files protectedName :=
    (System.files_store_ne _ hfile' _).trans (System.files_store_ne _ hfile _)
  have hmade : ((m.sys.store backupName bytes).store (csumName backupName)
      (csum md5 bytes signatureSit)).files backupName = some bytes :=
    (System.files_store_ne _ hbackup _).trans (System.files_store_self _ _ _)
  rw [heq]
  refine ⟨⟨h.kind, own_of_eq rfl rfl h.own, ?_, h.pending⟩, ?_, hlen⟩
  · show System.files _ protectedName ≠ none
    rw [hkept]
    exact h.present
  · show System.files _ backupName = System.files _ protectedName
    rw [hmade, hkept, hbytes]

/-- A write request, where the offset can be reached. -/
theorem Guarded.writeRequest (h : Guarded m) {offset length : U32}
    (hseeks : m.seeks offset ∨ length = 0) : Guarded (m.writeRequest offset length) := by
  have hsteady := steady_writeRequest m offset length
  refine ⟨(kind_of_ident (ident_writeRequest m offset length)).trans h.kind, hsteady.own h.own, ?_, ?_⟩
  · rw [hsteady.files]
    exact h.present
  · unfold Machine.writeRequest
    split
    · exact fun hne => absurd rfl hne
    · next hfar =>
      intro _
      show length.toNat = 0
      rw [hseeks.resolve_left hfar]
      rfl

/-- While a write is pending only its own packets do anything. -/
theorem pending_kept {tid : BitVec 16} {body : Body} (hp : Unharmed w m ⟨tid, body⟩)
    (hwrite : ∀ status file data, body ≠ .write status file data)
    (hbackup : ∀ file, body ≠ .nvBackup file) (hio : m.obj.mLastIo = .write) :
    (m.processMessage md5 w ⟨tid, body⟩).1.obj.mLastIo = .write ∨ m.obj.mWriteLength = 0 := by
  have h := handles_processMessage md5 (m := m) w tid hbackup
  generalize m.processMessage md5 w ⟨tid, body⟩ = r at h ⊢
  cases h with
  | refuse | refuseRequest => exact Or.inl hio
  | readResponse status file =>
    have hresponse : m.readResponse w status file = m.status statusInvalidParam :=
      if_pos (by simp [hio])
    rw [hresponse]
    exact Or.inl hio
  | writeResponse status file data => exact absurd rfl (hwrite status file data)
  | opStatus status file settled =>
    unfold Machine.opStatus
    by_cases hid : m.obj.mId = file
    · by_cases htid : m.obj.mTransaction = tid
      · exact Or.inr (hp hio htid.symm hid.symm)
      · rw [if_neg (not_not.mpr hid), if_pos htid]
        exact Or.inl hio
    · rw [if_pos hid]
      exact Or.inl hio
  | openFile _ _ hnone | openNvFile _ _ _ hnone | unprotectNv _ hnone | protectNv _ hnone
  | closeFile _ hnone | closeNvProtected _ hnone | ioRequest _ _ _ _ hnone
  | ioRequestWithin _ _ _ _ hnone | openForRequest _ _ _ _ _ _ hnone =>
    exact absurd (hnone.symm.trans hio) nofun

/-- **The step lemma.** -/
theorem Guarded.processMessage (h : Guarded m) {p : Packet} (hw : w.opens) (hp : Unharmed w m p) :
    Guarded (m.processMessage md5 w p).1 ∧
      (isBackup p.body = true ∨ m.obj.mLastIo ≠ .none ∧ Current m →
        Current (m.processMessage md5 w p).1) := by
  have hident := ident_processMessage md5 m w p
  obtain ⟨tid, body⟩ := p
  by_cases hbackup : ∃ file, body = .nvBackup file
  · obtain ⟨file, rfl⟩ := hbackup
    have heq : m.processMessage md5 w ⟨tid, .nvBackup file⟩ = ((m.backup md5 w).1, .keep) := by
      unfold Machine.processMessage
      dsimp only
      rw [if_pos h.cls]
    rw [heq]
    obtain ⟨hguarded, hcurrent⟩ := h.backup md5 hw hp.1 hp.2
    exact ⟨hguarded, fun _ => hcurrent⟩
  have hbody : ∀ file, body ≠ .nvBackup file := fun file hb => hbackup ⟨file, hb⟩
  have hnot : isBackup body = true → False := by
    intro hb
    cases body with
    | nvBackup file => exact hbody file rfl
    | _ => exact Bool.noConfusion hb
  have hcalm : ∀ {m' : Machine}, Undisturbed m m' → m'.ident = m.ident →
      (m.obj.mLastIo = .write → m'.obj.mLastIo = .write ∨ m.obj.mWriteLength = 0) →
      Guarded m' ∧ (isBackup body = true ∨ m.obj.mLastIo ≠ .none ∧ Current m → Current m') := by
    intro m' hu hi hio
    refine ⟨h.undisturbed hu hi hio, ?_⟩
    rintro (hb | ⟨-, hcurrent⟩)
    · exact absurd hb hnot
    · exact hcurrent.undisturbed hu
  have hrefuse : Guarded (m.refuse tid).1 ∧
      (isBackup body = true ∨ m.obj.mLastIo ≠ .none ∧ Current m → Current (m.refuse tid).1) :=
    hcalm (undisturbed_of_sys rfl) rfl Or.inl
  have hcls : m.obj.cls ≠ .rfsFile := by simp [h.cls]
  by_cases hwrite : ∃ status file data, body = .write status file data
  · obtain ⟨status, file, data, rfl⟩ := hwrite
    rcases processMessage_response md5 w tid status file data with heq | ⟨hblocked, heq⟩
    · rw [heq]
      exact hrefuse
    · have hstatus : m.obj.mLastIo = .write → m.obj.mId = file → status ≠ statusSuccess →
          m.obj.mWriteLength = 0 := by
        intro hio hid hs
        by_cases htid : m.obj.mTransaction = tid
        · exact hp hio htid.symm hid.symm hs
        · exact absurd ⟨by simp [hio], Or.inl ⟨htid, by simp⟩⟩ hblocked
      rw [heq]
      obtain ⟨hguarded, hkeep⟩ := h.writeResponse md5 w hstatus data
      refine ⟨hguarded, ?_⟩
      rintro (hb | ⟨-, hcurrent⟩)
      · exact absurd hb hnot
      · exact hkeep hcurrent
  by_cases hrequest : ∃ file offset length, body = .ioRequest file offset length ioWrite
  · obtain ⟨file, offset, length, rfl⟩ := hrequest
    by_cases hblocked : m.blocked ⟨tid, .ioRequest file offset length ioWrite⟩
    · rw [processMessage_blocked md5 hblocked hbody]
      exact hrefuse
    rw [processMessage_unblocked md5 hblocked hbody, h.cls]
    dsimp only
    -- the object is idle, so no backup is waited for
    have hidle : m.obj.mLastIo = .none := idle_of_not_blocked hblocked rfl
    refine ⟨?_, ?_⟩
    · have hclosed : m.closedNvProtectedFile w ⟨tid, .ioRequest file offset length ioWrite⟩ =
          (m.setTransaction tid).refuse tid := by
        have hne : ioWrite ≠ ioRead := by decide
        unfold Machine.closedNvProtectedFile
        dsimp only
        rw [if_pos hne]
      have htid : Guarded (m.setTransaction tid) := ⟨h.kind, own_of_eq rfl rfl h.own, h.present, h.pending⟩
      have hrefuse' : Guarded ((m.setTransaction tid).refuse tid).1 :=
        ⟨h.kind, own_of_eq rfl rfl h.own, h.present, h.pending⟩
      unfold Machine.processNvProtectedFile
      split
      · rw [hclosed]
        exact hrefuse'
      split
      · exact hrefuse.1
      · next hs hs' =>
        unfold Machine.unprotectedState Machine.ioRequestWithin Machine.ioRequest
        dsimp only
        split
        · exact hrefuse'
        split
        · exact hrefuse'
        · next hid hsize =>
          rw [if_neg (by decide), if_pos rfl]
          exact htid.writeRequest
            (hp rfl hidle (not_not.mp hid).symm hs hs' (Nat.le_of_not_lt hsize))
    · rintro (hb | ⟨hio, -⟩)
      · exact absurd hb hnot
      · exact absurd hidle hio
  · have hwrite' : ∀ status file data, body ≠ .write status file data :=
      fun status file data hb => hwrite ⟨status, file, data, hb⟩
    exact hcalm (undisturbed_processMessage md5 w hcls hwrite' hbody fun file offset length hb =>
      hrequest ⟨file, offset, length, hb⟩) hident fun hio => pending_kept md5 hp hwrite' hbody hio

/-- The object allocated after a deleted one has no byte outstanding. -/
theorem Guarded.settle {r : Machine × Response} (h : Guarded r.1) :
    Guarded ((Slot.settle r).machine nvProtected) ∧
      (Current r.1 → Current ((Slot.settle r).machine nvProtected)) := by
  rcases settle_cases r nvProtected with heq | heq
  · rw [heq]
    exact ⟨h, fun hcurrent => hcurrent⟩
  · have hfiles := destroy_files r.1
    rw [heq]
    refine ⟨⟨rfl, fun d hd => absurd hd (Option.some_ne_none d).symm, ?_, fun _ => rfl⟩,
      fun hcurrent => ⟨?_, rfl⟩⟩
    · show (destroy r.1).files protectedName ≠ none
      rw [hfiles]
      exact h.present
    · show (destroy r.1).files backupName = (destroy r.1).files protectedName
      rw [hfiles]
      exact hcurrent.backup

end Guarded

/-! ## Runs -/

/-- The invariant, and what a backup that is waited for has. -/
structure Watched.Kept (t : Watched) : Prop where
  guarded : Guarded (t.slot.machine nvProtected)
  current : t.wanted = true → Current (t.slot.machine nvProtected)

theorem Watched.Kept.next {t : Watched} (h : t.Kept) {i : Packet × Outcome} (hw : i.2.opens)
    (hi : Unharmed i.2 (t.slot.machine nvProtected) i.1) : (t.next md5 i).Kept := by
  obtain ⟨hguarded, hcurrent⟩ := h.guarded.processMessage md5 hw hi
  obtain ⟨hslot, hkeep⟩ := hguarded.settle
  refine ⟨hslot, fun hwanted => hkeep (hcurrent ?_)⟩
  have hcases : isBackup i.1.body = true ∨ t.wanted = true ∧ ¬ Idle t.slot := by
    simpa [Watched.next] using hwanted
  rcases hcases with hbackup | ⟨hbefore, hidle⟩
  · exact Or.inl hbackup
  · exact Or.inr ⟨hidle, h.current hbefore⟩

/-- **When no backup is lost.** For every run of packets on the protected
file, from any files it is among, with any answers of the system that let
files be opened: where the condition holds of every packet, every state
has the backups that were asked for. -/
theorem backedUp {nvSize : Option ℕ} {files : Name → Option (List BYTE)} (hfile : files protectedName ≠ none)
    {inputs : List (Packet × Outcome)} (hopens : ∀ i ∈ inputs, i.2.opens = true)
    (h : Run.Throughout (Watched.next md5)
      (fun t i => Unharmed i.2 (t.slot.machine nvProtected) i.1) (Watched.start nvSize files)
      inputs) :
    Run.Always (Watched.next md5) BackedUp (Watched.start nvSize files) inputs := by
  have hstart : (Watched.start nvSize files).Kept := by
    refine ⟨?_, fun hwanted => Bool.noConfusion hwanted⟩
    rw [Watched.start, Slot.machine_begun]
    exact ⟨rfl, fun d hd => absurd hd (Option.some_ne_none d).symm, hfile, fun _ => rfl⟩
  have hkept : Run.Always (Watched.next md5) Watched.Kept (Watched.start nvSize files) inputs :=
    Run.Always.of_invariant
      (fun t i ht hi => ht.next md5 hi.2 hi.1) hstart (h.and (Run.Throughout.of_forall _ hopens))
  refine hkept.mono fun t ht => ⟨fun hwanted _ => (ht.current hwanted).backup, fun hidle => ?_⟩
  refine ht.guarded.pending fun hwrite => ?_
  have hnone : (t.slot.machine nvProtected).obj.mLastIo = .none := hidle
  rw [hwrite] at hnone
  exact Io.noConfusion hnone

/-- The protected file of two bytes. -/
def twoBytes : Name → Option (List BYTE) := fun name =>
  if name = protectedName then some [1, 2] else none

/-- The file is unprotected, its first byte written, and a backup made. -/
def backupAfterWrite : List (Packet × Outcome) :=
  [(⟨1, .nvUnprotect nvProtected⟩, willing), (⟨1, .opStatus statusSuccess nvProtected⟩, willing),
    (⟨2, .ioRequest nvProtected 0 1 ioWrite⟩, willing),
    (⟨2, .write statusSuccess nvProtected [9]⟩, willing), (⟨3, .nvBackup nvProtected⟩, willing)]

theorem backedUp_backupAfterWrite :
    Run.Always (Watched.next id) BackedUp (Watched.start none twoBytes) backupAfterWrite := by
  have hopens : ∀ i ∈ backupAfterWrite, i.2.opens = true := by decide
  refine @backedUp id none _ (by decide) _ hopens ⟨trivial, ?_, ?_, ?_, ⟨by decide, ?_⟩, trivial⟩
  · exact fun hio => absurd hio (by decide)
  · exact fun _ _ _ _ _ _ => Or.inl (by decide)
  · exact fun _ _ _ hstatus => absurd rfl hstatus
  · intro bytes hbytes
    have hnow : some [9, 2] = some bytes := hbytes
    rw [← Option.some.inj hnow]
    decide

/-- The same with the backup asked for while the write is under way. -/
def backupDuringWrite : List (Packet × Outcome) :=
  [(⟨1, .nvUnprotect nvProtected⟩, willing), (⟨1, .opStatus statusSuccess nvProtected⟩, willing),
    (⟨2, .ioRequest nvProtected 0 1 ioWrite⟩, willing), (⟨3, .nvBackup nvProtected⟩, willing),
    (⟨2, .write statusSuccess nvProtected [9]⟩, willing)]

/-- **There the backup is never made.** -/
theorem not_backedUp_backupDuringWrite :
    ¬ Run.Always (Watched.next id) BackedUp (Watched.start none twoBytes) backupDuringWrite := by
  rintro ⟨-, -, -, -, -, h⟩
  have hbackup := h.backup (by decide) (by decide)
  exact absurd hbackup (by decide)

end ExynosVendor.Rfs
