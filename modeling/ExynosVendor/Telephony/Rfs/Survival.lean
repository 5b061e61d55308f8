import ExynosVendor.Telephony.Rfs.Ownership
import ExynosVendor.Telephony.Rfs.Restart

/-!
# What survives a restart

The checksum file is written at the end of a write, if the data pass the
check of their size; an object knows that size only if the service has
allocated it at its start. `Logged` follows which files were written well
since, `Measured` is the condition on a packet, and `safe` says what a
restart leaves.
-/

namespace ExynosVendor.Rfs

open Ril (BYTE)
open Descriptor Machine

variable (md5 : List BYTE → List BYTE)

/-! ## What is to hold -/

/-- The file of an id holds an image of the size in the table of contents. -/
def HasImage (sv : Service) (id : U32) : Prop :=
  ∃ size bytes, tocSize sv.toc id = some size ∧ sv.sys.files (nvFileName id) = some bytes ∧
    Image size bytes

/-- A packet ends a write of a file with `RFS_STATUS_SUCCESS`. -/
def Completes (id : U32) (p : Packet) (sv sv' : Service) : Prop :=
  (∃ status data, p.body = .write status id data) ∧
    Message.status p.tid id statusSuccess ∈ sv'.sent.drop sv.sent.length

/-- The service, and the files that hold what a write has left in them that
ended with success and left an image. -/
structure Logged where
  service : Service
  saved : U32 → Prop

namespace Logged

def next (number : ℕ → ℕ) (t : Logged) (i : Packet × Outcome) : Logged :=
  let sv := t.service.serve md5 number i
  { service := sv
    saved := fun id => Completes id i.1 t.service sv ∧ HasImage sv id ∨
      t.saved id ∧ sv.sys.files (nvFileName id) = t.service.sys.files (nvFileName id) }

/-- Behind `CheckNvFiles`. -/
def start (toc : List TocRecord) (w : Outcome) (files : Name → Option (List BYTE)) : Logged :=
  ⟨Service.boot md5 toc w files, fun _ => False⟩

end Logged

/-- **What is to hold of a file**: its checksum file agrees with it, and a
service that starts now leaves it as it is. -/
structure Survives (sv : Service) (id : U32) : Prop where
  csum : ∃ bytes, sv.sys.files (nvFileName id) = some bytes ∧
    csumMatches md5 bytes (sv.sys.files (csumName (nvFileName id))) = true
  restart : ∀ w : Outcome, w.opens = true →
    (Service.boot md5 sv.toc w sv.sys.files).sys.files (nvFileName id) =
      sv.sys.files (nvFileName id)

/-- **What is to hold of a state.** -/
def Safe (t : Logged) : Prop := ∀ id, Checked id → t.saved id → Survives md5 t.service id

/-- **The condition on a packet.** The object that ends a write with an
image in the file knows the size of the file; and a protected file has a
size that fits a `u32`. -/
def Measured (sv : Service) (p : Packet) (w : Outcome) : Prop :=
  ∀ id status data, p.body = .write status id data → Checked id →
    ¬ (sv.machine id).blocked p → EndsWrite (sv.machine id) w status id data →
    ∀ size bytes, tocSize sv.toc id = some size →
      (afterWrite (sv.machine id) w data).files (nvFileName id) = some bytes → Image size bytes →
      (sv.machine id).obj.mNvSize ≠ 0 ∧ (id = nvProtected → bytes.length < 2 ^ 32)

/-! ## A packet -/

/-- **What a packet leaves of the system.** Only the object's file is
opened, and its checksum file changes to the checksum of what it holds. -/
structure Served (m m' : Machine) : Prop where
  grows : System.Grows m.nvName m.sys m'.sys
  own : m'.Own
  bound : m'.sys.Bound
  other : ∀ name, name ≠ m.nvName → name ≠ csumName m.nvName → name ≠ backupName →
    name ≠ csumName backupName → m'.sys.files name = m.sys.files name
  csum : m'.sys.files (csumName m.nvName) = m.sys.files (csumName m.nvName) ∨
    ∃ bytes, m'.sys.files m.nvName = some bytes ∧
      m'.sys.files (csumName m.nvName) = some (csum md5 bytes signatureSit)

section Packet

variable {m m' : Machine}

theorem served_of_steady (h : Steady m m') (hown : m.Own) (hbound : m.sys.Bound) :
    Served md5 m m' := by
  refine ⟨h.grows, h.own hown, h.bound hown hbound, fun name _ _ _ _ => ?_, Or.inl ?_⟩
  · rw [h.files]
  · rw [h.files]

/-- A backup is in files of its own. -/
theorem served_backup (w : Outcome) (hown : m.Own) (hbound : m.sys.Bound) :
    Served md5 m (m.backup md5 w).1 := by
  obtain ⟨-, -, -, hcsum, hcsum'⟩ := nvNames_own m.obj.mId
  obtain ⟨flag, files, heq, hfiles⟩ := m.backup_eq md5 w
  rw [heq]
  exact ⟨System.grows_of_eq rfl, hown, hbound, fun name _ _ hne hne' => hfiles name hne hne',
    Or.inl (hfiles _ hcsum hcsum')⟩

/-- **The end of a write.** The checksum is taken of what the file holds,
if the data pass the check of the size the object knows. -/
structure Digested (w : Outcome) (m m' : Machine) (bytes : List BYTE) : Prop where
  grows : System.Grows m.nvName m.sys m'.sys
  own : m'.Own
  bound : m'.sys.Bound
  other : ∀ name, name ≠ csumName m.nvName → m'.sys.files name = m.sys.files name
  csum : m'.sys.files (csumName m.nvName) =
    if csumCheckForFile w (some bytes) m.obj.mNvSize then some (csum md5 bytes signatureSit)
    else m.sys.files (csumName m.nvName)

theorem digested_checkAndUpdateCsum (w : Outcome) (hown : m.Own) (hbound : m.sys.Bound)
    (hfd : m.sys.Live m.obj.mFd ∨ m.obj.mFd = none) {bytes : List BYTE}
    (hbytes : m.sys.files m.nvName = some bytes) :
    Digested md5 w m (m.checkAndUpdateCsum md5 w) bytes where
  grows := System.grows_of_eq (checkAndUpdateCsum_keeps md5 w m).1
  own := own_checkAndUpdateCsum md5 w hown
  bound := bound_checkAndUpdateCsum md5 w hbound
  other := (checkAndUpdateCsum_keeps md5 w m).2
  csum := checkAndUpdateCsum_csum md5 w hown hfd hbytes

/-- What `Protect` leaves in `mFd` is open, if there is anything in it. -/
theorem live_protect (w : Outcome) (hown : m.Own) (hbound : m.sys.Bound) :
    (m.protect w).sys.Live (m.protect w).obj.mFd ∨ (m.protect w).obj.mFd = none := by
  have hclose : Steady m m.closeFd := steady_of_eq rfl rfl rfl (Or.inl rfl) (Or.inr rfl)
  have hopen : (m.closeFd.openNv w false).sys.Live (m.closeFd.openNv w false).obj.mFd ∨
      (m.closeFd.openNv w false).obj.mFd = none := by
    unfold Machine.openNv
    split
    · exact Or.inl (System.live_opened (hclose.bound hown hbound) _ _ _)
    · exact Or.inr rfl
  unfold Machine.protect
  dsimp only
  split
  · exact hopen
  · exact hopen

theorem digested_onWriteDone (w : Outcome) (hcls : m.obj.cls ≠ .rfsFile) (hown : m.Own)
    (hbound : m.sys.Bound) (hlive : m.sys.Live m.obj.mFd) {bytes : List BYTE}
    (hbytes : m.sys.files m.nvName = some bytes) :
    Digested md5 w m (m.onWriteDone md5 w) bytes := by
  cases hc : m.obj.cls with
  | rfsFile => exact absurd hc hcls
  | nvFile =>
    have hdone : m.onWriteDone md5 w = m.checkAndUpdateCsum md5 w := by
      unfold Machine.onWriteDone
      rw [hc]
    rw [hdone]
    exact digested_checkAndUpdateCsum md5 w hown hbound (Or.inl hlive) hbytes
  | nvProtectedFile =>
    have hprotect := (undisturbed_protect w m).toSteady
    have hname : (m.protect w).nvName = m.nvName := nvName_of_mId hprotect.mId
    have hsize : (m.protect w).obj.mNvSize = m.obj.mNvSize :=
      congrArg (·.2.2) (ident_protect m w)
    have hfile : (m.protect w).sys.files (m.protect w).nvName = some bytes := by
      rw [hprotect.files, hname, hbytes]
    have hend := digested_checkAndUpdateCsum md5 w (hprotect.own hown)
      (hprotect.bound hown hbound) (live_protect w hown hbound) hfile
    rw [onWriteDone_protected md5 hc]
    refine ⟨?_, hend.own, hend.bound, fun name hne => ?_, ?_⟩
    · have hgrows := hend.grows
      rw [hname] at hgrows
      exact hprotect.grows.trans hgrows
    · rw [hend.other name (hname ▸ hne), hprotect.files]
    · have hcsum := hend.csum
      rw [hname, hsize, hprotect.files] at hcsum
      exact hcsum

/-- A response that ends its write leaves the bytes, and the checksum of
them if they pass. -/
theorem digested_writeResponse (w : Outcome) (hcls : m.obj.cls ≠ .rfsFile) (hown : m.Own)
    (hbound : m.sys.Bound) {status file : U32} {data : List BYTE}
    (h : EndsWrite m w status file data) :
    ∃ bytes, (afterWrite m w data).files m.nvName = some bytes ∧
      Digested md5 w ⟨m.obj, afterWrite m w data, m.sent⟩ (m.writeResponse md5 w status file data)
        bytes := by
  have hres := h.2.2.2.2
  obtain ⟨bytes, hbytes⟩ := Option.ne_none_iff_exists'.mp (hown.files_written hres)
  have hlive : (afterWrite m w data).Live m.obj.mFd :=
    (System.sameTable_write (live_of_written hres) 0 data w.writeLimit).live_iff _ |>.mpr
      (live_of_written hres)
  have hbound' : (afterWrite m w data).Bound :=
    System.bound_of_eq (System.names_write _ _ _ _ _) (System.closed_write _ _ _ _ _) hbound
  have hend := digested_onWriteDone md5 w
    (m := ((⟨m.obj, afterWrite m w data, m.sent⟩ : Machine).advance data.length).setIo .none)
    hcls (own_afterWrite hown w data) hbound' hlive hbytes
  refine ⟨bytes, hbytes, ?_⟩
  rw [writeResponse_of_ends md5 h,
    written_of_done md5 (m := ⟨m.obj, afterWrite m w data, m.sent⟩) h.2.2.2.1]
  exact ⟨hend.grows, hend.own, hend.bound, hend.other, hend.csum⟩

theorem served_writeResponse (w : Outcome) (hcls : m.obj.cls ≠ .rfsFile) (hown : m.Own)
    (hbound : m.sys.Bound) (status file : U32) (data : List BYTE) :
    Served md5 m (m.writeResponse md5 w status file data) := by
  have hnames : (afterWrite m w data).names = m.sys.names := System.names_write _ _ _ _ _
  have hclosed : (afterWrite m w data).closed = m.sys.closed := System.closed_write _ _ _ _ _
  have hother : ∀ name, name ≠ m.nvName → (afterWrite m w data).files name = m.sys.files name :=
    fun name hne => hown.files_write hne 0 data w.writeLimit
  obtain ⟨hcsum, -⟩ := nvNames_own m.obj.mId
  rcases writeResponse_cases md5 w m status file data with
    hend | ⟨o, k, messages, heq, hid, hfd, hk, -⟩
  · obtain ⟨bytes, hbytes, hdigested⟩ := digested_writeResponse md5 w hcls hown hbound hend
    refine ⟨(System.grows_of_eq hnames).trans hdigested.grows, hdigested.own, hdigested.bound,
      fun name hne hne' _ _ => (hdigested.other name hne').trans (hother name hne), ?_⟩
    have hdigits := hdigested.csum
    by_cases hcheck : csumCheckForFile w (some bytes) m.obj.mNvSize = true
    · rw [if_pos hcheck] at hdigits
      exact Or.inr ⟨bytes, (hdigested.other _ hcsum).trans hbytes, hdigits⟩
    · rw [if_neg hcheck] at hdigits
      exact Or.inl (hdigits.trans (hother _ hcsum.symm))
  · have hname : nvFileName o.mId = m.nvName := congrArg nvFileName hid
    rw [heq]
    rcases hk with rfl | rfl
    · exact served_of_steady md5 (steady_of_eq hid rfl rfl (Or.inl hfd) (Or.inl rfl)) hown hbound
    · refine ⟨System.grows_of_eq hnames, ?_, System.bound_of_eq hnames hclosed hbound,
        fun name hne _ _ _ => hother name hne, Or.inl (hother _ hcsum.symm)⟩
      intro d hd
      show (afterWrite m w data).names[d]? = some (nvFileName o.mId)
      rw [hnames, hname]
      exact hown d (hfd.symm.trans hd)

/-- **A packet leaves the system so.** -/
theorem served_processMessage (w : Outcome) (hcls : m.obj.cls ≠ .rfsFile) (hown : m.Own)
    (hbound : m.sys.Bound) (p : Packet) : Served md5 m (m.processMessage md5 w p).1 := by
  obtain ⟨tid, body⟩ := p
  by_cases hbackup : ∃ file, body = .nvBackup file
  · obtain ⟨file, rfl⟩ := hbackup
    unfold Machine.processMessage
    dsimp only
    split
    · exact served_backup md5 w hown hbound
    · exact served_of_steady md5 (steady_of_eq rfl rfl rfl (Or.inl rfl) (Or.inl rfl)) hown hbound
  by_cases hwrite : ∃ status file data, body = .write status file data
  · obtain ⟨status, file, data, rfl⟩ := hwrite
    rcases processMessage_response md5 w tid status file data with heq | ⟨-, heq⟩
    · rw [heq]
      exact served_of_steady md5 (steady_refuse m tid) hown hbound
    · rw [heq]
      exact served_writeResponse md5 w hcls hown hbound status file data
  · exact served_of_steady md5 (steady_processMessage md5 w hcls
      (fun status file data hb => hwrite ⟨status, file, data, hb⟩)
      fun file hb => hbackup ⟨file, hb⟩) hown hbound

end Packet

/-! ## What holds between packets -/

/-- The checksum file agrees with the file, which a restart then leaves. -/
def Matching (sv : Service) (id : U32) : Prop :=
  ∃ size bytes, tocSize sv.toc id = some size ∧ sv.sys.files (nvFileName id) = some bytes ∧
    Image size bytes ∧ (id = nvProtected → bytes.length < 2 ^ 32) ∧
    sv.sys.files (csumName (nvFileName id)) = some (csum md5 bytes signatureSit)

/-- **The invariant of the service.** An object knows no size but the one
in the table of contents, and its descriptor is one of its file. -/
structure Orderly (sv : Service) : Prop where
  ident : ∀ id, IsNv id → ∃ size, (sv.machine id).ident = (fileClass id, id, size) ∧
    (size = 0 ∨ tocSize sv.toc id = some size)
  own : ∀ id, IsNv id → (sv.machine id).Own
  bound : sv.sys.Bound

section Orderly

variable {sv : Service} {id j : U32} {p : Packet} {w : Outcome}

theorem IsNv.cls (h : IsNv id) : fileClass id ≠ .rfsFile := by
  rcases h with rfl | rfl | rfl <;> decide

theorem IsNv.le_maxHandles (h : IsNv id) : ¬ maxHandles < id.toNat := by
  rcases h with rfl | rfl | rfl <;> decide

theorem Orderly.nvName (h : Orderly sv) (hid : IsNv id) :
    (sv.machine id).nvName = nvFileName id := by
  obtain ⟨size, hident, -⟩ := h.ident id hid
  exact congrArg nvFileName (congrArg (·.2.1) hident)

theorem Orderly.cls (h : Orderly sv) (hid : IsNv id) : (sv.machine id).obj.cls ≠ .rfsFile := by
  obtain ⟨size, hident, -⟩ := h.ident id hid
  have hcls : (sv.machine id).obj.cls = fileClass id := congrArg Prod.fst hident
  rw [hcls]
  exact hid.cls

/-- An object that knows a size knows the one in the table. -/
theorem Orderly.mNvSize (h : Orderly sv) (hid : IsNv id) {size : ℕ}
    (hsize : tocSize sv.toc id = some size) (hne : (sv.machine id).obj.mNvSize ≠ 0) :
    (sv.machine id).obj.mNvSize = size := by
  obtain ⟨known, hident, hknown⟩ := h.ident id hid
  have heq : (sv.machine id).obj.mNvSize = known := congrArg (·.2.2) hident
  rw [heq] at hne ⊢
  exact Option.some.inj ((hknown.resolve_left hne).symm.trans hsize)

theorem processRfsPacket_eq (hid : IsNv j) (hfile : fileId p.body = some j) :
    sv.processRfsPacket md5 p w =
      sv.put j (Slot.settle ((sv.machine j).processMessage md5 w p)) := by
  unfold Service.processRfsPacket
  rw [hfile]
  exact if_neg hid.le_maxHandles

/-- Another entry of an NV file, if it is one of the file. -/
theorem Orderly.put (h : Orderly sv) {s : Slot} (hident : ∃ size,
      (s.machine j).ident = (fileClass j, j, size) ∧ (size = 0 ∨ tocSize sv.toc j = some size))
    (hown : (s.machine j).Own) (hbound : s.sys.Bound)
    (hgrows : System.Grows (nvFileName j) sv.sys s.sys) : Orderly (sv.put j s) := by
  refine ⟨fun id hid => ?_, fun id hid => ?_, hbound⟩
  · by_cases hne : id = j
    · subst hne
      rw [machine_put_self]
      exact hident
    · rw [machine_put_ne hne]
      exact h.ident id hid
  · by_cases hne : id = j
    · subst hne
      rw [machine_put_self]
      exact hown
    · rw [machine_put_ne hne]
      exact (h.own id hid).grows hgrows

/-- **The step lemma.** -/
theorem Orderly.settle (h : Orderly sv) (hj : IsNv j) (w : Outcome) (p : Packet) :
    Orderly (sv.put j (Slot.settle ((sv.machine j).processMessage md5 w p))) := by
  have hserved := served_processMessage md5 w (h.cls hj) (h.own j hj) h.bound p
  have hident := ident_processMessage md5 (sv.machine j) w p
  generalize (sv.machine j).processMessage md5 w p = r at hserved hident ⊢
  have hgrows := hserved.grows
  rw [h.nvName hj] at hgrows
  refine h.put ?_ ?_ ?_ (hgrows.trans (System.grows_of_eq (settle_names r)))
  · rcases settle_cases r j with heq | heq
    · rw [heq, hident]
      exact h.ident j hj
    · rw [heq]
      exact ⟨0, rfl, Or.inl rfl⟩
  · rcases settle_cases r j with heq | heq
    · rw [heq]
      exact hserved.own
    · rw [heq]
      exact fun d hd => absurd hd (Option.some_ne_none d).symm
  · rcases settle_sys r with heq | heq
    · rw [heq]
      exact hserved.bound
    · rw [heq]
      exact bound_destroy hserved.own hserved.bound

theorem Orderly.processRfsPacket (h : Orderly sv) (w : Outcome)
    (hp : ∀ id, fileId p.body = some id → IsNv id) :
    Orderly (sv.processRfsPacket md5 p w) := by
  cases hfile : fileId p.body with
  | none =>
    unfold Service.processRfsPacket
    rw [hfile]
    exact h
  | some j =>
    rw [processRfsPacket_eq md5 (hp j hfile) hfile]
    exact h.settle md5 (hp j hfile) w p

theorem toc_processRfsPacket (sv : Service) (p : Packet) (w : Outcome) :
    (sv.processRfsPacket md5 p w).toc = sv.toc := by
  unfold Service.processRfsPacket
  split
  · rfl
  · split <;> rfl

/-- The checksum file goes with a file that stays. -/
theorem Orderly.csum_kept (h : Orderly sv) (w : Outcome)
    (hp : ∀ id, fileId p.body = some id → IsNv id) (hid : IsNv id) {bytes : List BYTE}
    (hbytes : (sv.processRfsPacket md5 p w).sys.files (nvFileName id) = some bytes)
    (hcsum : sv.sys.files (csumName (nvFileName id)) = some (csum md5 bytes signatureSit)) :
    (sv.processRfsPacket md5 p w).sys.files (csumName (nvFileName id)) =
      some (csum md5 bytes signatureSit) := by
  cases hfile : fileId p.body with
  | none =>
    unfold Service.processRfsPacket
    rw [hfile]
    exact hcsum
  | some j =>
    have hj := hp j hfile
    have hserved := served_processMessage md5 w (h.cls hj) (h.own j hj) h.bound p
    have hfiles : (sv.processRfsPacket md5 p w).sys.files =
        ((sv.machine j).processMessage md5 w p).1.sys.files := by
      rw [processRfsPacket_eq md5 hj hfile]
      exact settle_files _
    rw [hfiles] at hbytes ⊢
    by_cases hne : id = j
    · subst hne
      have hdigits := hserved.csum
      rw [h.nvName hid] at hdigits
      rcases hdigits with hdigits | ⟨bytes', hbytes', hdigits⟩
      · exact hdigits.trans hcsum
      · obtain rfl := Option.some.inj (hbytes'.symm.trans hbytes)
        exact hdigits
    · obtain ⟨-, -, hfile', hcsum'⟩ := nvNames_apart hid hj hne
      obtain ⟨-, -, -, hbackup, hbackup'⟩ := nvNames_own id
      rw [← h.nvName hj] at hfile' hcsum'
      exact (hserved.other _ hfile' hcsum' hbackup hbackup').trans hcsum

/-- **What a packet that ends a write with success has done.** -/
theorem write_ends (hid : IsNv id)
    (hdone : Completes id p sv (sv.processRfsPacket md5 p w)) :
    ∃ status data, p.body = .write status id data ∧ ¬ (sv.machine id).blocked p ∧
      EndsWrite (sv.machine id) w status id data ∧
      (sv.processRfsPacket md5 p w).sys.files =
        ((sv.machine id).writeResponse md5 w status id data).sys.files := by
  obtain ⟨⟨status, data, hbody⟩, hsuccess⟩ := hdone
  have hsv : sv.processRfsPacket md5 p w =
      sv.put id (Slot.settle ((sv.machine id).processMessage md5 w p)) :=
    processRfsPacket_eq md5 hid (by rw [hbody]; rfl)
  have hsent : (sv.processRfsPacket md5 p w).sent =
      ((sv.machine id).processMessage md5 w p).1.sent := by
    rw [hsv]
    exact settle_sent _
  have hfiles : (sv.processRfsPacket md5 p w).sys.files =
      ((sv.machine id).processMessage md5 w p).1.sys.files := by
    rw [hsv]
    exact settle_files _
  obtain ⟨tid, body⟩ := p
  obtain rfl : body = .write status id data := hbody
  rw [hsent] at hsuccess
  rw [hfiles]
  rcases processMessage_response md5 w tid status id data with heq | ⟨hblocked, heq⟩
  · -- a refusal is no success
    rw [heq] at hsuccess
    have hlast : (sv.sent ++ [Message.status tid (sv.machine id).obj.mId statusInvalidParam]).drop
        sv.sent.length = [Message.status tid (sv.machine id).obj.mId statusInvalidParam] :=
      List.drop_left
    have hmem : Message.status tid id statusSuccess ∈
        (sv.sent ++ [Message.status tid (sv.machine id).obj.mId statusInvalidParam]).drop
          sv.sent.length := hsuccess
    rw [hlast, List.mem_singleton] at hmem
    exact absurd (Message.status.inj hmem).2.2 (by decide)
  rw [heq] at hsuccess ⊢
  refine ⟨status, data, rfl, hblocked, ?_, rfl⟩
  rcases writeResponse_cases md5 w (sv.machine id) status id data with
    hend | ⟨o, k, messages, hres, -, -, -, hnone⟩
  · exact hend
  · have hmem : Message.status tid id statusSuccess ∈
        ((sv.machine id).writeResponse md5 w status id data).sent.drop sv.sent.length := hsuccess
    rw [hres] at hmem
    have hdrop : ((sv.machine id).sent ++ messages).drop sv.sent.length = messages :=
      List.drop_left
    rw [hdrop] at hmem
    exact absurd hmem (hnone tid id)

theorem csumCheckForFile_image (hw : w.opens) {size : ℕ} {bytes : List BYTE} (hne : size ≠ 0)
    (himage : Image size bytes) : csumCheckForFile w (some bytes) size = true := by
  unfold csumCheckForFile
  rw [if_neg hne]
  dsimp only
  rw [hw, himage.check w.heap]
  rfl

/-- **A write that ends where the size is known** leaves a checksum that
agrees. -/
theorem Orderly.matching (h : Orderly sv) (hw : w.opens) (hid : Checked id)
    (hmeasured : Measured sv p w) (hdone : Completes id p sv (sv.processRfsPacket md5 p w))
    (himage : HasImage (sv.processRfsPacket md5 p w) id) :
    Matching md5 (sv.processRfsPacket md5 p w) id := by
  obtain ⟨size, bytes, hsize, hbytes, himage⟩ := himage
  obtain ⟨status, data, hbody, hblocked, hend, hfiles⟩ := write_ends md5 hid.isNv hdone
  obtain ⟨bytes', hbytes', hdigested⟩ :=
    digested_writeResponse md5 w (h.cls hid.isNv) (h.own id hid.isNv) h.bound hend
  have hname := h.nvName hid.isNv
  have hother := hdigested.other (nvFileName id) (by
    show nvFileName id ≠ csumName (sv.machine id).nvName
    rw [hname]
    exact (nvNames_own id).1)
  have hcsum := hdigested.csum
  change _ = if csumCheckForFile w (some bytes') (sv.machine id).obj.mNvSize then _ else _ at hcsum
  have hnv : (⟨(sv.machine id).obj, afterWrite (sv.machine id) w data,
      (sv.machine id).sent⟩ : Machine).nvName = nvFileName id := hname
  rw [hname] at hbytes'
  rw [hnv] at hcsum
  rw [hfiles] at hbytes
  obtain rfl : bytes' = bytes := by
    rw [hother] at hbytes
    exact Option.some.inj (hbytes'.symm.trans hbytes)
  rw [toc_processRfsPacket] at hsize
  obtain ⟨hknown, hfits⟩ :=
    hmeasured id status data hbody hid hblocked hend size bytes' hsize hbytes' himage
  have heq := h.mNvSize hid.isNv hsize hknown
  rw [if_pos (by rw [heq]; exact csumCheckForFile_image hw (heq ▸ hknown) himage)] at hcsum
  refine ⟨size, bytes', ?_, ?_, himage, hfits, ?_⟩
  · rw [toc_processRfsPacket]
    exact hsize
  · rw [hfiles]
    exact hbytes
  · rw [hfiles]
    exact hcsum

/-- An object that was looked at knows the size in the table. -/
theorem Orderly.touched (h : Orderly sv) (hj : IsNv j) (hfd : (sv.machine j).obj.mFd = none)
    {m' : Machine} (ht : Touched sv.toc (sv.machine j) m') : Orderly (sv.put j (.of m')) := by
  obtain ⟨known, hident, hknown⟩ := h.ident j hj
  have hid : (sv.machine j).obj.mId = j := congrArg (·.2.1) hident
  have hcls : (sv.machine j).obj.cls = fileClass j := congrArg Prod.fst hident
  refine h.put ?_ (fun d hd => ?_) (System.bound_of_eq ht.names ht.closed h.bound)
    (System.grows_of_eq ht.names)
  · show ∃ size, (m'.obj.cls, m'.obj.mId, m'.obj.mNvSize) = (fileClass j, j, size) ∧ _
    rcases ht.obj with hobj | ⟨size, hsize, hobj⟩
    · rw [hobj]
      exact ⟨known, hident, hknown⟩
    · rw [hobj]
      exact ⟨size, Prod.ext hcls (Prod.ext hid rfl), Or.inr (hid ▸ hsize)⟩
  · have hnone : m'.obj.mFd = none := by
      rcases ht.obj with hobj | ⟨size, -, hobj⟩
      · rw [hobj, hfd]
      · rw [hobj]
        exact hfd
    exact absurd (hnone.symm.trans hd) (Option.some_ne_none d).symm

/-- **A service that has started** is in order. -/
theorem orderly_boot (toc : List TocRecord) (w : Outcome) (files : Name → Option (List BYTE)) :
    Orderly (Service.boot md5 toc w files) := by
  have hempty : Orderly ⟨toc, fun _ => none, ⟨files, [], [], []⟩, []⟩ :=
    ⟨fun id _ => ⟨0, rfl, Or.inl rfl⟩, fun id _ d hd => absurd hd (Option.some_ne_none d).symm,
      fun d hd => absurd hd (by simp)⟩
  have hnormal := hempty.touched (Or.inl rfl) rfl (touched_touchNvFile md5 _ w _)
  have hne : nvProtected ≠ nvNormal := by decide
  unfold Service.boot Service.checkNvFiles
  dsimp only
  split
  · refine hnormal.touched (Or.inr (Or.inr rfl)) ?_ (touched_touchNvProtectedFile md5 _ w _)
    rw [machine_put_ne hne]
    rfl
  · exact hnormal

/-- **What agrees survives a restart.** -/
theorem Matching.survives (hmd5 : ∀ bytes, (md5 bytes).length = nvCsumLength) (hid : Checked id)
    (h : Matching md5 sv id) : Survives md5 sv id := by
  obtain ⟨size, bytes, hsize, hbytes, himage, hfits, hcsum⟩ := h
  have hdigits : csumMatches md5 bytes (sv.sys.files (csumName (nvFileName id))) = true := by
    rw [hcsum]
    exact csumMatches_csum md5 hmd5 bytes
  exact ⟨⟨bytes, hbytes, hdigits⟩, fun w hw =>
    boot_kept md5 hid hw hsize hbytes hdigits himage hfits⟩

end Orderly

/-! ## Runs -/

/-- The invariant, and what a write that is not overwritten has left. -/
structure Logged.Kept (t : Logged) : Prop where
  orderly : Orderly t.service
  matching : ∀ id, Checked id → t.saved id → Matching md5 t.service id

theorem Logged.Kept.next {number : ℕ → ℕ} {t : Logged} (h : t.Kept md5) {i : Packet × Outcome}
    (hw : i.2.opens) (hp : ∀ id, fileId i.1.body = some id → IsNv id)
    (hi : Measured t.service i.1 i.2) (hheld : t.service.Holds number i.1) :
    (t.next md5 number i).Kept md5 := by
  unfold Logged.next
  rw [Service.serve_eq md5 hheld]
  refine ⟨h.orderly.processRfsPacket md5 i.2 hp, fun id hid hsaved => ?_⟩
  rcases hsaved with ⟨hdone, himage⟩ | ⟨hsaved, hsame⟩
  · exact h.orderly.matching md5 hw hid hi hdone himage
  · obtain ⟨size, bytes, hsize, hbytes, himage, hfits, hcsum⟩ := h.matching id hid hsaved
    refine ⟨size, bytes, ?_, hsame.trans hbytes, himage, hfits,
      h.orderly.csum_kept md5 i.2 hp hid.isNv (hsame.trans hbytes) hcsum⟩
    exact (congrArg (tocSize · id) (toc_processRfsPacket md5 t.service i.1 i.2)).trans hsize

/-- **When NV data survive a restart.** From any files and any table of
contents, for every run of packets on the NV files behind `CheckNvFiles`,
whatever numbers the kernel gives: where the conditions hold of every packet,
every state is one in which a file that was written with success, and holds
an image, survives. -/
theorem safe (hmd5 : ∀ bytes, (md5 bytes).length = nvCsumLength) (number : ℕ → ℕ)
    (toc : List TocRecord) (w₀ : Outcome) (files : Name → Option (List BYTE))
    {inputs : List (Packet × Outcome)} (hopens : ∀ i ∈ inputs, i.2.opens = true)
    (hnv : ∀ i ∈ inputs, ∀ id, fileId i.1.body = some id → IsNv id)
    (h : Run.Throughout (Logged.next md5 number)
      (fun t i => Measured t.service i.1 i.2 ∧ t.service.Holds number i.1)
      (Logged.start md5 toc w₀ files) inputs) :
    Run.Always (Logged.next md5 number) (Safe md5) (Logged.start md5 toc w₀ files) inputs := by
  have hstart : (Logged.start md5 toc w₀ files).Kept md5 :=
    ⟨orderly_boot md5 toc w₀ files, fun _ _ hsaved => hsaved.elim⟩
  have hkept : Run.Always (Logged.next md5 number) (Logged.Kept md5)
      (Logged.start md5 toc w₀ files) inputs :=
    Run.Always.of_invariant
      (fun t i ht hi => ht.next md5 hi.2.1 hi.2.2 hi.1.1 hi.1.2) hstart
      (h.and ((Run.Throughout.of_forall _ hopens).and (Run.Throughout.of_forall _ hnv)))
  exact hkept.mono fun t ht id hid hsaved => (ht.matching id hid hsaved).survives md5 hmd5 hid

variable {sv : Service}

theorem not_survives_of_none (size : ℕ) (hsize : tocSize sv.toc nvNormal = some size)
    (hcsum : sv.sys.files (csumName (nvFileName nvNormal)) = none)
    (hbytes : sv.sys.files (nvFileName nvNormal) ≠ some (blank size)) :
    ¬ Survives md5 sv nvNormal := by
  intro h
  have hanew : (Service.boot md5 sv.toc willing sv.sys.files).sys.files (nvFileName nvNormal) =
      some (blank size) := boot_anew md5 rfl hsize fun bytes _ => by rw [hcsum]; rfl
  exact hbytes ((h.restart willing rfl).symm.trans hanew)

/-- A table of contents with NV files of sixteen bytes. -/
def smallToc : List TocRecord :=
  [⟨text "TOC", 0⟩, ⟨text "NV_NORM", 16⟩, ⟨text "NV_PROT", 16⟩]

/-- The digits of the one file that is written here. -/
def fewDigits (bytes : List BYTE) : List BYTE :=
  if bytes = 0 :: blank 15 ++ signatureSit then text "ddeb3a41a85bb751658a2620cdc83467"
  else List.replicate nvCsumLength 48

theorem length_fewDigits (bytes : List BYTE) : (fewDigits bytes).length = nvCsumLength := by
  unfold fewDigits
  split
  · decide
  · exact List.length_replicate

/-- The normal file is opened. -/
def openNormal (tid : BitVec 16) : List (Packet × Outcome) :=
  [(⟨tid, .openFile nvNormal (text "nv_normal.bin")⟩, willing),
    (⟨tid, .opStatus statusSuccess nvNormal⟩, willing)]

/-- Its first byte is written. -/
def writeNormal (tid : BitVec 16) : List (Packet × Outcome) :=
  [(⟨tid, .ioRequest nvNormal 0 1 ioWrite⟩, willing),
    (⟨tid, .write statusSuccess nvNormal [0]⟩, willing)]

/-- It is closed, and the object is deleted. -/
def closeNormal (tid : BitVec 16) : List (Packet × Outcome) :=
  [(⟨tid, .closeFile nvNormal⟩, willing), (⟨tid, .opStatus statusSuccess nvNormal⟩, willing)]

theorem measured_of_ne {p : Packet} {w : Outcome}
    (h : ∀ status id data, p.body ≠ .write status id data) : Measured sv p w :=
  fun id status data hbody => absurd hbody (h status id data)

/-- Where every `open` gives a number of its own. -/
theorem holds_id (sv : Service) (p : Packet) : sv.Holds id p := by
  rintro j - - ⟨d, d', -, hclosed, hlive, rfl⟩
  exact hclosed hlive

theorem safe_firstSession :
    Run.Always (Logged.next fewDigits id) (Safe fewDigits)
      (Logged.start fewDigits smallToc willing fun _ => none)
      (openNormal 1 ++ writeNormal 2 ++ closeNormal 3) := by
  have hopens : ∀ i ∈ openNormal 1 ++ writeNormal 2 ++ closeNormal 3, i.2.opens = true := by decide
  have hnv : ∀ i ∈ openNormal 1 ++ writeNormal 2 ++ closeNormal 3, ∀ id,
      fileId i.1.body = some id → IsNv id := by
    have hnormal : ∀ i ∈ openNormal 1 ++ writeNormal 2 ++ closeNormal 3,
        fileId i.1.body = some nvNormal := by decide
    intro i hi id hid
    exact Or.inl (Option.some.inj (hid.symm.trans (hnormal i hi)))
  refine safe fewDigits length_fewDigits id smallToc willing (fun _ => none) hopens hnv
    ⟨⟨measured_of_ne (by simp), holds_id _ _⟩, ⟨measured_of_ne (by simp), holds_id _ _⟩,
      ⟨measured_of_ne (by simp), holds_id _ _⟩, ⟨?_, holds_id _ _⟩,
      ⟨measured_of_ne (by simp), holds_id _ _⟩, ⟨measured_of_ne (by simp), holds_id _ _⟩, trivial⟩
  intro id status data hbody _ _ _ _ _ _ _ _
  obtain ⟨-, rfl, -⟩ := Body.write.inj hbody
  exact ⟨by decide, fun hid => absurd hid (by decide)⟩

theorem image_firstByte : Image 16 (0 :: blank 15) := by
  refine ⟨by decide, fun heap => ?_⟩
  have htotal : totalSize (fileBuffer (0 :: blank 15) 16 heap) = 2 ^ 32 - 1 := by
    simp [totalSize, fileBuffer, blank, List.range_succ, LittleEndian.decode]
  unfold csumCheckForData
  exact if_pos htotal

set_option maxRecDepth 2000 in
/-- **After the file was closed once** the checksum is not taken, and a
restart makes the file anew. -/
theorem not_safe_secondSession :
    ¬ Run.Always (Logged.next fewDigits id) (Safe fewDigits)
      (Logged.start fewDigits smallToc willing fun _ => none)
      (openNormal 1 ++ closeNormal 2 ++ (openNormal 3 ++ writeNormal 4)) := by
  rintro ⟨-, -, -, -, -, -, -, -, h⟩
  have hsaved := h nvNormal (Or.inl rfl) (Or.inl ⟨⟨⟨_, _, rfl⟩, by decide⟩,
    16, 0 :: blank 15, by decide, by decide, image_firstByte⟩)
  exact not_survives_of_none fewDigits 16 (by decide) (by decide) (by decide) hsaved

/-! ## The files of others -/

/-- The files the object of an id has a hand in: its own, the backup, and their checksums. -/
def ownFiles (id : U32) : List Name :=
  [nvFileName id, csumName (nvFileName id), backupName, csumName backupName]

theorem Orderly.others_kept {p : Packet} (h : Orderly sv) (w : Outcome)
    (hp : ∀ id, fileId p.body = some id → IsNv id) {name : Name}
    (hname : ∀ id, fileId p.body = some id → name ∉ ownFiles id) :
    (sv.processRfsPacket md5 p w).sys.files name = sv.sys.files name := by
  cases hfile : fileId p.body with
  | none =>
    unfold Service.processRfsPacket
    rw [hfile]
  | some j =>
    have hj := hp j hfile
    have hserved := served_processMessage md5 w (h.cls hj) (h.own j hj) h.bound p
    have hout := hname j hfile
    simp only [ownFiles, List.mem_cons, List.not_mem_nil, or_false, not_or] at hout
    obtain ⟨hnv, hcsum, hbackup, hbackup'⟩ := hout
    rw [← h.nvName hj] at hnv hcsum
    rw [processRfsPacket_eq md5 hj hfile]
    exact (congrFun (settle_files _) name).trans (hserved.other name hnv hcsum hbackup hbackup')

/-- `CheckNvFiles` has a hand in the files it looks at. -/
theorem others_boot (toc : List TocRecord) (w : Outcome) (files : Name → Option (List BYTE))
    {name : Name} (hname : ∀ id, Checked id → name ∉ ownFiles id) :
    (Service.boot md5 toc w files).sys.files name = files name := by
  have hapart : ∀ id, Checked id → name ≠ nvFileName id ∧ name ≠ csumName (nvFileName id) := by
    intro id hid
    have hout := hname id hid
    simp only [ownFiles, List.mem_cons, not_or] at hout
    exact ⟨hout.1, hout.2.1⟩
  obtain ⟨hnv, hcsum⟩ := hapart nvNormal (Or.inl rfl)
  obtain ⟨hnv', hcsum'⟩ := hapart nvProtected (Or.inr rfl)
  have hnormal := (touched_touchNvFile md5 toc w ((unbooted toc files).machine nvNormal)).files
    name hnv hcsum
  unfold Service.boot Service.checkNvFiles
  dsimp only
  split
  · refine ((touched_touchNvProtectedFile md5 toc w _).files name ?_ ?_).trans ?_
    · rw [machine_put_ne (by decide)]
      exact hnv'
    · rw [machine_put_ne (by decide)]
      exact hcsum'
    · rw [machine_put_ne (by decide)]
      exact hnormal
  · exact hnormal

/-- **The packets of a file have a hand in its own files only.** From any files and any table
of contents, `CheckNvFiles` and every run of packets on the NV files behind it, whatever the
modem and the system answer, leave each file as it was that is none of the addressed ids',
where no packet meets a number given again. -/
theorem others_untouched (number : ℕ → ℕ) (toc : List TocRecord) (w₀ : Outcome)
    (files : Name → Option (List BYTE)) {inputs : List (Packet × Outcome)}
    (hnv : ∀ i ∈ inputs, ∀ id, fileId i.1.body = some id → IsNv id)
    (hheld : Run.Throughout (Service.serve md5 number) (fun sv i => sv.Holds number i.1)
      (Service.boot md5 toc w₀ files) inputs) :
    (∀ name, (∀ id, Checked id → name ∉ ownFiles id) →
        (Service.boot md5 toc w₀ files).sys.files name = files name) ∧
      ∀ name, (∀ i ∈ inputs, ∀ id, fileId i.1.body = some id → name ∉ ownFiles id) →
        (inputs.foldl (Service.serve md5 number)
            (Service.boot md5 toc w₀ files)).sys.files name =
          (Service.boot md5 toc w₀ files).sys.files name := by
  refine ⟨fun name hname => others_boot md5 toc w₀ files hname, fun name hname => ?_⟩
  have hstart := orderly_boot md5 toc w₀ files
  generalize Service.boot md5 toc w₀ files = sv at hstart hheld ⊢
  induction inputs generalizing sv with
  | nil => rfl
  | cons i inputs ih =>
    obtain ⟨hi, hrest⟩ := List.forall_mem_cons.mp hnv
    obtain ⟨hthis, hothers⟩ := List.forall_mem_cons.mp hname
    obtain ⟨hholds, hlater⟩ := hheld
    rw [Service.serve_eq md5 hholds] at hlater
    rw [List.foldl_cons, Service.serve_eq md5 hholds]
    exact (ih hrest hothers _ (hstart.processRfsPacket md5 i.2 hi) hlater).trans
      (hstart.others_kept md5 i.2 hi hthis)

/-- A protected file of four bytes. -/
def protectedFour : Name → Option (List BYTE) := fun name =>
  if name = nvFileName nvProtected then some [1, 2, 3, 4] else none

/-- A session of the normal file leaves it. -/
theorem others_untouched_normal :
    ((openNormal 1 ++ closeNormal 2).foldl (Service.serve fewDigits id)
        (Service.boot fewDigits smallToc willing protectedFour)).sys.files (nvFileName nvProtected) =
      (Service.boot fewDigits smallToc willing protectedFour).sys.files (nvFileName nvProtected) :=
  have hnormal : ∀ i ∈ openNormal 1 ++ closeNormal 2, ∀ id, fileId i.1.body = some id →
      id = nvNormal := by
    have hids : ∀ i ∈ openNormal 1 ++ closeNormal 2, fileId i.1.body = some nvNormal := by decide
    intro i hi id hid
    exact Option.some.inj (hid.symm.trans (hids i hi))
  (others_untouched fewDigits id smallToc willing protectedFour
    (fun i hi id hid => Or.inl (hnormal i hi id hid))
    (Run.Throughout.of_all _ _ fun sv i => holds_id sv i.1)).2 _
    fun i hi id hid => hnormal i hi id hid ▸ (by decide)

end ExynosVendor.Rfs
