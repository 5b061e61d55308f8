import ExynosVendor.Common.Run
import ExynosVendor.Telephony.Rfs.Commands

/-!
# Descriptors over a run

The phases lifted to `ProcessMessage` and to the entry of the service that
allocates and frees the object. `alwaysSound_iff` says which runs keep
every descriptor in order.
-/

namespace ExynosVendor.Rfs

open Ril (BYTE)
open Descriptor Machine

variable (md5 : List BYTE → List BYTE) {m : Machine}

/-! ## A packet -/

theorem Machine.Held.ioRequest (h : Held m) (w : Outcome) (tid : BitVec 16) (offset length io : U32) :
    Kept (m.ioRequest w tid offset length io) := by
  unfold Machine.ioRequest
  split_ifs
  · exact (h.readRequest w offset length).owned.finish
  · exact (h.writeRequest offset length).owned.finish
  · exact h.owned.refuse tid

theorem Machine.Held.ioRequestWithin (h : Held m) (w : Outcome) (tid : BitVec 16)
    (offset length io : U32) : Kept (m.ioRequestWithin w tid offset length io) := by
  unfold Machine.ioRequestWithin
  split_ifs
  · exact h.owned.refuse tid
  · exact h.ioRequest w tid offset length io

theorem Owned.openForRequest (h : Owned m) (hs : m.obj.mState = .closed)
    (hio : m.obj.mLastIo = .none) (w : Outcome) (tid : BitVec 16) (offset length io : U32)
    (writable : Bool) {state : FileState} (hstate : state ≠ .closed) :
    Kept (m.openForRequest w tid offset length io writable state) := by
  have hfd := h.not_live hs hio
  have hopen := h.table.openNv hfd w writable
  have heq := openNv_eq m w writable
  unfold Machine.openForRequest
  dsimp only
  split_ifs with hnone
  · have hdead : ¬ (m.openNv w writable).sys.Live (m.openNv w writable).obj.mFd :=
      hnone ▸ System.not_live_none _
    have hidle : Owned (m.openNv w writable) :=
      owned_of_idle hopen.1 (heq.2.1.trans hio)
        (iff_of_false (fun hc => hc (heq.1.trans hs)) hdead) fun _ _ => hnone
    exact ⟨hidle.status _, fun hr => Response.noConfusion hr⟩
  · have hheld : Held ((m.openNv w writable).setState state) := by
      have hsame : SameOwner (m.openNv w writable) ((m.openNv w writable).setState state) :=
        ⟨rfl, rfl, System.SameTable.refl _⟩
      exact ⟨hsame.table hopen.1, hstate, Or.inl (heq.2.1.trans hio),
        hsame.live_iff.mpr (hopen.2.resolve_right hnone)⟩
    have hsize := setSize_eq ((m.openNv w writable).setState state)
    have hheld' := hheld.same (sameOwner_setSize _) hsize.1 (hsize.2.symm ▸ hheld.io)
    exact hheld'.ioRequestWithin w tid offset length io

/-- **A packet keeps the invariant**, where the condition holds. -/
theorem Owned.processMessage (h : Owned m) {p : Packet} {w : Outcome}
    (hw : SettledPacket m p w) : Kept (m.processMessage md5 w p) := by
  obtain ⟨tid, body⟩ := p
  by_cases hb : ∃ file, body = .nvBackup file
  · obtain ⟨file, rfl⟩ := hb
    unfold Machine.processMessage
    dsimp only
    split_ifs
    · have hsame := sameOwner_backup md5 w m
      obtain ⟨flag, files, heq, -⟩ := m.backup_eq md5 w
      rw [heq] at hsame ⊢
      exact ⟨hsame.owned rfl rfl h, fun hr => Response.noConfusion hr⟩
    · exact ⟨h, fun hr => Response.noConfusion hr⟩
  have h' := h.setTransaction tid
  have hh := handles_processMessage md5 (m := m) w tid fun file hf => hb ⟨file, hf⟩
  generalize m.processMessage md5 w ⟨tid, body⟩ = r at hh ⊢
  cases hh with
  | refuse => exact h.refuse tid
  | refuseRequest => exact h'.refuse tid
  | openFile file name hio _ hs => exact (h'.openFile hs hio w file name).finish
  | openNvFile file name writable hio _ hs =>
    exact (h'.openNvFile hs hio w file writable).finish
  | unprotectNv file _ hcls => exact (h'.unprotectNv hcls w file).finish
  | protectNv file _ hcls hs => exact (h'.protectNv hs hcls w file).finish
  | closeFile file hio hcls hs => exact (h'.closeFile hs hio hcls file).finish
  | closeNvProtected file _ hcls hs => exact (h'.closeNvProtected hs hcls file).finish
  | ioRequest file offset length io hio _ hs =>
    exact (h'.held hs hio).ioRequest w tid offset length io
  | ioRequestWithin file offset length io hio _ hs =>
    exact (h'.held hs hio).ioRequestWithin w tid offset length io
  | openForRequest file offset length io writable state hio _ hs _ hstate =>
    exact h'.openForRequest hs hio w tid offset length io writable hstate
  | readResponse status file => exact (h.readResponse w status file).finish
  | writeResponse status file data hp hs hs' =>
    exact (h.writeResponse md5 fun hcls hend => hw hcls hp hs (hs' hcls) hend).finish
  | opStatus status file settled hset => exact h.opStatus hset hw

/-! ## The entry -/

theorem owned_allocFile (ht : Table m) (hfd : ¬ m.sys.Live m.obj.mFd) (id : U32)
    (sent : List Message) : Owned ⟨allocFile id, m.sys, sent⟩ where
  table := ⟨ht.stray, ht.once, ht.bound, fun d hd => absurd hd (ht.not_live hfd d)⟩
  phase := .closed rfl rfl (System.not_live_none _) fun _ => rfl

theorem owned_begun (files : Name → Option (List BYTE)) (id : U32) (nvSize : Option ℕ) :
    Owned ((Slot.begun id nvSize files).machine id) := by
  rw [Slot.machine_begun]
  exact ⟨⟨rfl, List.nodup_nil, nofun, fun d hd =>
      absurd ((System.live_some _ d).mp hd).1 (Nat.not_lt_zero d)⟩,
    .closed rfl rfl (System.not_live_none _) fun _ => rfl⟩

theorem destroy_closed (hs : m.obj.mState = .closed) : destroy m = m.sys := by
  unfold destroy
  rw [hs]

theorem destroy_opened (hs : m.obj.mState ≠ .closed) : destroy m = m.closeFd.sys := by
  unfold destroy
  cases h : m.obj.mState with
  | closed => exact absurd h hs
  | opened | openedProtected | openedUnprotected => rfl

theorem settle_deleteNow {r : Machine × Response} (h : r.2 = .deleteNow)
    (hs : r.1.obj.mState = .closed) : Slot.settle r = ⟨none, r.1.sys, r.1.sent⟩ := by
  unfold Slot.settle
  rw [if_pos h]
  show (⟨none, destroy r.1, r.1.sent⟩ : Slot) = _
  rw [destroy_closed hs]

/-- The invariant at the end of `ProcessRfsPacket`. -/
theorem Kept.owned_slot {r : Machine × Response} (h : Kept r) (id : U32) :
    Owned ((Slot.settle r).machine id) := by
  cases hr : r.2 with
  | keep =>
    rw [settle_keep hr]
    exact h.owned
  | deleteNow =>
    obtain ⟨hs, hio⟩ := h.response hr
    rw [settle_deleteNow hr hs]
    exact owned_allocFile h.owned.table (h.owned.not_live hs hio) id _

/-- **The step lemma.** -/
theorem owned_step {id : U32} {s : Slot} {i : Input} (h : Owned (s.machine id))
    (hi : Settled id s i) : Owned ((s.step md5 id i).machine id) := by
  cases i with
  | packet p w => exact (h.processMessage md5 hi).owned_slot id
  | free =>
    obtain ⟨file, sys, sent⟩ := s
    cases file with
    | none => exact h
    | some o =>
      obtain ⟨hopening, hclosing⟩ := hi o rfl
      have ho : Owned ⟨o, sys, sent⟩ := h
      show Owned ⟨allocFile id, destroy ⟨o, sys, sent⟩, sent⟩
      by_cases hs : o.mState = .closed
      · rw [destroy_closed hs]
        exact owned_allocFile ho.table (hopening hs) id sent
      · rw [destroy_opened hs]
        have hfd : sys.Live o.mFd ∨ o.mFd = none := by
          cases ho.phase with
          | closed hs' _ _ _ => exact absurd hs' hs
          | opening hs' _ _ => exact absurd hs' hs
          | opened _ _ hfd => exact Or.inl hfd
          | reopening _ _ hfd => exact hfd
          | closing _ hio hcls _ => exact absurd hio (hclosing hcls hs)
          | closingProtected _ _ _ hfd => exact Or.inr hfd
        have hclose := ho.table.closeFd hfd
        exact owned_allocFile hclose.1 hclose.2 id sent

/-- The invariant says what is to hold. -/
theorem Owned.sound {id : U32} {s : Slot} (h : Owned (s.machine id)) : Sound s where
  stray := h.table.stray
  once := List.nodup_iff_count_le_one.mp h.table.once
  idle o ho hio := by
    have hm : s.machine id = ⟨o, s.sys, s.sent⟩ := by
      unfold Slot.machine
      rw [ho]
      rfl
    rw [hm] at h
    constructor
    · intro hs
      exact (h.held hs hio).live
    · intro hl hs
      exact h.not_live hs hio hl
  freed ho d hd := by
    have hm : s.machine id = ⟨allocFile id, s.sys, s.sent⟩ := by
      unfold Slot.machine
      rw [ho]
      rfl
    rw [hm] at h
    have hdead := h.table.not_live (System.not_live_none _) d
    rw [System.live_some, not_and, not_not] at hdead
    exact List.count_eq_one_of_mem h.table.once (hdead hd)

/-! ## Where the condition is needed -/

theorem writeResponse_of_ends {w : Outcome} {status file : U32} {data : List BYTE}
    (h : EndsWrite m w status file data) :
    m.writeResponse md5 w status file data =
      (⟨m.obj, afterWrite m w data, m.sent⟩ : Machine).written md5 w data.length := by
  obtain ⟨hio, hid, rfl, hlen, hres⟩ := h
  exact writeResponse_of_taken md5 hio hid (Nat.le_of_eq hlen.symm) hres

/-- A protected file that cannot be opened again after a write leaves its
object without a descriptor. -/
theorem written_without_file {w : Outcome} {length : ℕ} (hcls : m.obj.cls = .nvProtectedFile)
    (hlen : m.obj.mWriteLength = length) (hw : ¬ (w.opens ∧ m.sys.files m.nvName ≠ none)) :
    (m.written md5 w length).obj =
      ((m.advance length).setIo .none).closeFd.dropFd.obj := by
  rw [written_of_done md5 hlen, onWriteDone_protected md5 (m := (m.advance length).setIo .none) hcls,
    Machine.protect_eq ((m.advance length).setIo .none) hw]
  exact Machine.checkAndUpdateCsum_obj md5 w _

/-- A status that settles a command otherwise leaves state and descriptor
apart, or a descriptor behind. -/
theorem settledStatus_of_sound {id : U32} {s : Slot} {tid : BitVec 16} {status file : U32}
    {w : Outcome} (h : Owned (s.machine id)) (hid : (s.machine id).obj.mId = file)
    (htid : (s.machine id).obj.mTransaction = tid)
    (hs : Sound (s.step md5 id (.packet ⟨tid, .opStatus status file⟩ w))) :
    SettledStatus (s.machine id) status := by
  obtain ⟨settled, hset, hprocess⟩ :=
    exists_processMessage_opStatus (m := s.machine id) md5 w tid status file
  rw [settledStatus_iff h hset]
  have hstep : s.step md5 id (.packet ⟨tid, .opStatus status file⟩ w) =
      Slot.settle (((s.machine id).setState
        (settledState (s.machine id) status settled)).setIo .none).finish := by
    rw [← opStatus_eq settled hid htid, ← hprocess]
    rfl
  rw [hstep] at hs
  by_cases hclosed : settledState (s.machine id) status settled = .closed
  · -- the object is deleted, and every descriptor is to be closed
    rw [settle_deleteNow (if_pos ⟨hclosed, rfl⟩) hclosed] at hs
    refine iff_of_false (not_not.mpr hclosed) fun hl => ?_
    cases hfd : (s.machine id).obj.mFd with
    | none => exact System.not_live_none _ (hfd ▸ hl)
    | some d =>
      rw [hfd, System.live_some] at hl
      have hcount : (s.machine id).sys.closed.count d = 1 := hs.freed rfl d hl.1
      rw [List.count_eq_zero_of_not_mem hl.2] at hcount
      exact Nat.zero_ne_one hcount
  · -- the object is idle
    rw [settle_keep (if_neg fun hc => hclosed hc.1)] at hs
    exact hs.idle _ rfl rfl

/-- A write to a protected file that cannot be opened again leaves an idle
object in an open state without a descriptor. -/
theorem reopens_of_sound {id : U32} {s : Slot} {p : Packet} {w : Outcome} {status file : U32}
    {data : List BYTE} (hbody : p.body = .write status file data)
    (hcls : (s.machine id).obj.cls = .nvProtectedFile) (hp : ¬ (s.machine id).blocked p)
    (hclosed : (s.machine id).obj.mState ≠ .closed)
    (hprotected : (s.machine id).obj.mState ≠ .openedProtected)
    (hend : EndsWrite (s.machine id) w status file data)
    (hs : Sound (s.step md5 id (.packet p w))) :
    w.opens ∧ (afterWrite (s.machine id) w data).files (s.machine id).nvName ≠ none := by
  by_contra hw
  have hprocess : (s.machine id).processMessage md5 w p =
      ((s.machine id).writeResponse md5 w status file data).finish := by
    unfold Machine.processMessage Machine.processNvProtectedFile Machine.unprotectedState
    rw [hbody, hcls]
    dsimp only
    rw [if_neg hp, if_neg hclosed, if_neg hprotected]
  have hobj : ((⟨(s.machine id).obj, afterWrite (s.machine id) w data,
      (s.machine id).sent⟩ : Machine).written md5 w data.length).obj = _ :=
    written_without_file md5 hcls hend.2.2.2.1 hw
  rw [← writeResponse_of_ends md5 hend] at hobj
  have hstep : s.step md5 id (.packet p w) =
      Slot.settle ((s.machine id).writeResponse md5 w status file data).finish :=
    congrArg Slot.settle hprocess
  have hstate : ((s.machine id).writeResponse md5 w status file data).obj.mState ≠ .closed := by
    rw [hobj]
    exact hclosed
  rw [hstep, settle_keep (if_neg fun hc => hstate hc.1)] at hs
  have hlive := (hs.idle _ rfl (by rw [Machine.finish, hobj]; rfl)).mp hstate
  rw [Machine.finish, hobj] at hlive
  exact System.not_live_none _ hlive

/-- **Where the condition fails, so does what is to hold.** -/
theorem settled_of_sound {id : U32} {s : Slot} {i : Input} (h : Owned (s.machine id))
    (hs : Sound (s.step md5 id i)) : Settled id s i := by
  cases i with
  | free =>
    obtain ⟨file, sys, sent⟩ := s
    rintro o rfl
    have hfree : (⟨none, destroy ⟨o, sys, sent⟩, sent⟩ : Slot) =
      Slot.step md5 id ⟨some o, sys, sent⟩ .free := rfl
    rw [← hfree] at hs
    have ho : Owned ⟨o, sys, sent⟩ := h
    constructor
    · intro hclosed hl
      rw [destroy_closed hclosed] at hs
      cases hfd : o.mFd with
      | none => exact System.not_live_none _ (hfd ▸ hl)
      | some d =>
        rw [hfd, System.live_some] at hl
        have hcount : sys.closed.count d = 1 := hs.freed rfl d hl.1
        rw [List.count_eq_zero_of_not_mem hl.2] at hcount
        exact Nat.zero_ne_one hcount
    · intro hcls hclosed hio
      rw [destroy_opened hclosed] at hs
      cases ho.phase with
      | closed hs' _ _ _ => exact hclosed hs'
      | opening hs' _ _ => exact hclosed hs'
      | opened _ hio' _ => simp [hio] at hio'
      | reopening _ hio' _ => simp [hio] at hio'
      | closing _ _ _ hfd =>
        obtain ⟨d, hd, hmem⟩ := hfd
        have hcount : (o.mFd.toList ++ sys.closed).count d ≤ 1 := hs.once d
        rw [hd, Option.toList_some, List.singleton_append, List.count_cons_self] at hcount
        have hpos : 0 < sys.closed.count d := List.count_pos_iff.mpr hmem
        omega
      | closingProtected _ _ hcls' _ => exact hcls hcls'
  | packet p w =>
    show SettledPacket (s.machine id) p w
    unfold SettledPacket
    cases hbody : p.body with
    | opStatus status file =>
      obtain ⟨tid, body⟩ := p
      obtain rfl : body = .opStatus status file := hbody
      exact fun hid htid => settledStatus_of_sound md5 h hid htid hs
    | write status file data =>
      exact fun hcls hp hclosed hprotected hend =>
        reopens_of_sound md5 hbody hcls hp hclosed hprotected hend hs
    | _ => trivial

/-! ## Runs -/

/-- **When the descriptors are kept in order.** For an entry of any class
and every run of packets, answers of the system and the end of the
service: what is to hold does so in every state exactly when the condition
holds of every input. -/
theorem alwaysSound_iff (id : U32) (nvSize : Option ℕ) (files : Name → Option (List BYTE))
    (inputs : List Input) :
    Run.Always (Slot.step md5 id) Sound (Slot.begun id nvSize files) inputs ↔
      Run.Throughout (Slot.step md5 id) (Settled id) (Slot.begun id nvSize files) inputs := by
  have hrun : ∀ (inputs : List Input) (s : Slot), Owned (s.machine id) →
      (Run.Always (Slot.step md5 id) Sound s inputs ↔
        Run.Throughout (Slot.step md5 id) (Settled id) s inputs) := by
    intro inputs
    induction inputs with
    | nil => exact fun s h => iff_of_true h.sound trivial
    | cons i inputs ih =>
      intro s h
      constructor
      · rintro ⟨-, hrest⟩
        have hi := settled_of_sound md5 h hrest.head
        exact ⟨hi, (ih _ (owned_step md5 h hi)).mp hrest⟩
      · rintro ⟨hi, hrest⟩
        exact ⟨h.sound, (ih _ (owned_step md5 h hi)).mpr hrest⟩
  exact hrun inputs _ (owned_begun files id nvSize)

/-- A file is created and opened, and the modem refuses it. -/
def openingRefused : List Input :=
  let w : Outcome := ⟨true, none, none, fun _ => 0⟩
  [.packet ⟨1, .openFile 5 (text "a")⟩ w, .packet ⟨1, .opStatus statusOpenFail 5⟩ w]

/-- **The descriptor of a refused opening is left behind.** The object is
deleted, and nothing closes what it had opened. -/
theorem not_sound_openingRefused :
    ¬ Run.Always (Slot.step id 5) Sound (Slot.start fun _ => none) openingRefused := by
  rintro ⟨-, -, hs⟩
  have hcount := hs.freed (by rfl) 0 (by decide)
  exact absurd hcount (by decide)

end ExynosVendor.Rfs
