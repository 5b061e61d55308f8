import ExynosVendor.Telephony.Rfs.Phases

/-!
# The commands that open and close

Each leads from an idle object to the phase in which it waits for the
modem's status. `settledStatus_iff` says of that status when it brings
state and descriptor together again.
-/

namespace ExynosVendor.Rfs

open Ril (BYTE)
open Descriptor Machine

variable (md5 : List BYTE → List BYTE) {m : Machine}

/-! ## Opening and closing -/

variable {p : Packet} {tid : BitVec 16} {settled : Io → Option FileState} {w : Outcome}
variable {body : Body}

theorem idle_of_not_blocked (h : ¬ m.blocked p) (hp : answers p.body = false) :
    m.obj.mLastIo = .none := by
  by_contra hio
  exact h ⟨hio, Or.inr hp⟩

theorem Owned.not_live (h : Owned m) (hs : m.obj.mState = .closed) (hio : m.obj.mLastIo = .none) :
    ¬ m.sys.Live m.obj.mFd := by
  cases h.phase with
  | closed _ _ hfd _ => exact hfd
  | opening _ hio' _ => simp [hio] at hio'
  | opened hs' _ _ => exact absurd hs hs'
  | reopening hs' _ _ => exact absurd hs hs'
  | closing hs' _ _ _ => exact absurd hs hs'
  | closingProtected _ hio' _ _ => simp [hio] at hio'

theorem Owned.held (h : Owned m) (hs : m.obj.mState ≠ .closed) (hio : m.obj.mLastIo = .none) :
    Held m := by
  cases h.phase with
  | closed hs' _ _ _ => exact absurd hs' hs
  | opening hs' _ _ => exact absurd hs' hs
  | opened _ hio' hfd => exact ⟨h.table, hs, hio', hfd⟩
  | reopening _ hio' _ => simp [hio] at hio'
  | closing _ hio' _ _ => simp [hio] at hio'
  | closingProtected _ hio' _ _ => simp [hio] at hio'

theorem Owned.setTransaction (h : Owned m) (tid : BitVec 16) : Owned (m.setTransaction tid) :=
  (sameOwner_setTransaction m tid).owned rfl rfl h

theorem Owned.openFile (h : Owned m) (hs : m.obj.mState = .closed) (hio : m.obj.mLastIo = .none)
    (w : Outcome) (file : U32) (name : Name) : Owned (m.openFile w file name) := by
  have hfd := h.not_live hs hio
  have htable : Table (m.setIo .openFile) := (sameOwner_setIo m _).table h.table
  unfold Machine.openFile
  by_cases hid : m.obj.mId ≠ file
  · rw [if_pos hid]
    exact h.status _
  rw [if_neg hid]
  by_cases ho : ¬ w.opens
  · rw [if_pos ho]
    exact ⟨(sameOwner_statusOf _ _ _).table (htable.dropFd hfd),
      .opening hs (Or.inl rfl) (Or.inr rfl)⟩
  · rw [if_neg ho]
    split
    · have hopen := htable.openAs hfd name true false
      exact ⟨(sameOwner_statusOf _ _ _).table hopen.1,
        .opening hs (Or.inl rfl) (Or.inl hopen.2)⟩
    · have hstore : SameOwner (m.setIo .openFile)
          ⟨(m.setIo .openFile).obj, (m.setIo .openFile).sys.store name [], m.sent⟩ :=
        ⟨rfl, rfl, System.sameTable_store _ _ _⟩
      have hopen := (hstore.table htable).openAs (mt hstore.live_iff.mp hfd) name true true
      exact ⟨(sameOwner_statusOf _ _ _).table hopen.1,
        .opening hs (Or.inl rfl) (Or.inl hopen.2)⟩

/-- Behind an `openNv`: the status, and the size if there is a file. -/
theorem sameOwner_answerOpen (m : Machine) :
    SameOwner m (if m.obj.mFd = none then m.status statusOpenFail
      else m.setSize.status statusSuccess) := by
  split_ifs
  · exact sameOwner_statusOf m _ _
  · exact (sameOwner_setSize m).trans (sameOwner_statusOf _ _ _)

theorem setSize_eq (m : Machine) : m.setSize.obj.mState = m.obj.mState ∧
    m.setSize.obj.mLastIo = m.obj.mLastIo := by
  unfold Machine.setSize
  split <;> exact ⟨rfl, rfl⟩

theorem answerOpen_eq (m : Machine) :
    (if m.obj.mFd = none then m.status statusOpenFail
      else m.setSize.status statusSuccess).obj.mState = m.obj.mState ∧
    (if m.obj.mFd = none then m.status statusOpenFail
      else m.setSize.status statusSuccess).obj.mLastIo = m.obj.mLastIo := by
  split_ifs
  · exact ⟨rfl, rfl⟩
  · exact setSize_eq m

theorem openNv_eq (m : Machine) (w : Outcome) (writable : Bool) :
    (m.openNv w writable).obj.mState = m.obj.mState ∧
    (m.openNv w writable).obj.mLastIo = m.obj.mLastIo ∧
    (m.openNv w writable).obj.cls = m.obj.cls := by
  unfold Machine.openNv
  split_ifs <;> exact ⟨rfl, rfl, rfl⟩

theorem Owned.openNvFile (h : Owned m) (hs : m.obj.mState = .closed)
    (hio : m.obj.mLastIo = .none) (w : Outcome) (file : U32) (writable : Bool) :
    Owned (m.openNvFile w file writable) := by
  unfold Machine.openNvFile
  split_ifs with hid
  · exact h.status _
  · have htable : Table (m.setIo .openFile) := (sameOwner_setIo m _).table h.table
    have hopen := htable.openNv (h.not_live hs hio) w writable
    have heq := openNv_eq (m.setIo .openFile) w writable
    refine (sameOwner_answerOpen _).owned (answerOpen_eq _).1 (answerOpen_eq _).2
      ⟨hopen.1, .opening (heq.1.trans hs) (Or.inl heq.2.1) hopen.2⟩

theorem Owned.live_or_none (h : Owned m) (hcls : m.obj.cls = .nvProtectedFile) :
    m.sys.Live m.obj.mFd ∨ m.obj.mFd = none := by
  cases h.phase with
  | closed _ _ _ hnone => exact Or.inr (hnone hcls)
  | opening _ _ hfd => exact hfd
  | opened _ _ hfd => exact Or.inl hfd
  | reopening _ _ hfd => exact hfd
  | closing _ _ hcls' _ => exact absurd hcls hcls'
  | closingProtected _ _ _ hfd => exact Or.inr hfd

theorem Owned.unprotectNv (h : Owned m) (hcls : m.obj.cls = .nvProtectedFile) (w : Outcome) (file : U32) :
    Owned (m.unprotectNv w file) := by
  unfold Machine.unprotectNv
  split_ifs with hid
  · exact h.status _
  · have htable : Table (m.setIo .nvUnprotect) := (sameOwner_setIo m _).table h.table
    have hclose := htable.closeFd (h.live_or_none hcls)
    have hopen := hclose.1.openNv hclose.2 w true
    have heq := openNv_eq (m.setIo .nvUnprotect).closeFd w true
    refine (sameOwner_answerOpen _).owned (answerOpen_eq _).1 (answerOpen_eq _).2
      ⟨hopen.1, ?_⟩
    by_cases hs : m.obj.mState = .closed
    · exact .opening (heq.1.trans hs) (Or.inr ⟨heq.2.1, heq.2.2.trans hcls⟩) hopen.2
    · exact .reopening (heq.1.symm ▸ hs) (Or.inr heq.2.1) hopen.2

theorem Owned.protectNv (h : Owned m) (hs : m.obj.mState ≠ .closed)
    (hcls : m.obj.cls = .nvProtectedFile) (w : Outcome) (file : U32) : Owned (m.protectNv w file) := by
  unfold Machine.protectNv
  split_ifs with hid
  · exact h.status _
  · have htable : Table (m.setIo .nvProtect) := (sameOwner_setIo m _).table h.table
    have hclose := htable.closeFd (h.live_or_none hcls)
    have hopen := hclose.1.openNv hclose.2 w false
    have heq := openNv_eq (m.setIo .nvProtect).closeFd w false
    have howned : Owned ((m.setIo .nvProtect).closeFd.openNv w false) :=
      ⟨hopen.1, .reopening (heq.1.symm ▸ hs) (Or.inl heq.2.1) hopen.2⟩
    dsimp only
    split_ifs
    · exact howned.status _
    · exact howned.status _

theorem Owned.closeFile (h : Owned m) (hs : m.obj.mState ≠ .closed)
    (hio : m.obj.mLastIo = .none) (hcls : m.obj.cls ≠ .nvProtectedFile) (file : U32) :
    Owned (m.closeFile file) := by
  unfold Machine.closeFile
  split_ifs with hid
  · exact h.status _
  · have hlive := (h.held hs hio).live
    have hclose := h.table.closeFd (Or.inl hlive)
    have hfd : ∃ d, m.obj.mFd = some d ∧ d ∈ m.closeFd.sys.closed := by
      cases hd : m.obj.mFd with
      | none => exact absurd (hd ▸ hlive) (System.not_live_none _)
      | some d =>
        refine ⟨d, rfl, ?_⟩
        show d ∈ m.obj.mFd.toList ++ m.sys.closed
        rw [hd]
        exact List.mem_append_left _ (List.mem_singleton.mpr rfl)
    exact ⟨(sameOwner_statusOf _ _ _).table ((sameOwner_setIo _ _).table hclose.1),
      .closing hs rfl hcls hfd⟩

theorem Owned.closeNvProtected (h : Owned m) (hs : m.obj.mState = .openedProtected)
    (hcls : m.obj.cls = .nvProtectedFile) (file : U32) :
    Owned (m.closeNvProtected file) := by
  unfold Machine.closeNvProtected
  split_ifs with hid
  · exact h.status _
  · have hclose := h.table.closeFd (h.live_or_none hcls)
    exact ⟨(sameOwner_statusOf _ _ _).table
        ((sameOwner_setIo _ _).table (hclose.1.dropFd hclose.2)),
      .closingProtected hs rfl hcls rfl⟩

/-! ## The modem's status -/

/-- The state a status leads to. -/
def settledState (m : Machine) (status : U32) (settled : Io → Option FileState) : FileState :=
  if status = statusSuccess then (settled m.obj.mLastIo).getD m.obj.mState else m.obj.mState

/-- Which states the commands of a state lead to. -/
structure SettlesTo (m : Machine) (settled : Io → Option FileState) : Prop where
  idle : settled .none = none
  opening : m.obj.mState = .closed →
    ∀ io, io = .openFile ∨ io = .nvUnprotect ∧ m.obj.cls = .nvProtectedFile →
      ∃ state, settled io = some state ∧ state ≠ .closed
  closing : m.obj.mState ≠ .closed →
    (m.obj.cls = .nvProtectedFile → m.obj.mState = .openedProtected) →
      settled .closeFile = some .closed
  kept : ∀ io, io ≠ .closeFile → settled io ≠ some .closed

theorem settlesTo_closed (hs : m.obj.mState = .closed) (hcls : m.obj.cls ≠ .nvProtectedFile) :
    SettlesTo m fun io => if io = .openFile then some .opened else none := by
  refine ⟨rfl, ?_, fun hc => absurd hs hc, fun io hio => ?_⟩
  · rintro - io (rfl | ⟨rfl, hc⟩)
    · exact ⟨.opened, rfl, nofun⟩
    · exact absurd hc hcls
  · split_ifs <;> exact nofun

theorem settlesTo_opened (hs : m.obj.mState ≠ .closed) :
    SettlesTo m fun io => if io = .closeFile then some .closed else none := by
  refine ⟨rfl, fun hc => absurd hc hs, fun _ _ => rfl, fun io hio => ?_⟩
  rw [if_neg hio]
  exact nofun

theorem settlesTo_closedProtected (hs : m.obj.mState = .closed) :
    SettlesTo m fun io => if io = .openFile then some .openedProtected
      else if io = .nvUnprotect then some .openedUnprotected else none := by
  refine ⟨rfl, ?_, fun hc => absurd hs hc, fun io hio => ?_⟩
  · rintro - io (rfl | ⟨rfl, -⟩)
    · exact ⟨.openedProtected, rfl, nofun⟩
    · exact ⟨.openedUnprotected, rfl, nofun⟩
  · split_ifs <;> exact nofun

theorem settlesTo_protected (hs : m.obj.mState ≠ .closed) :
    SettlesTo m fun io => if io = .nvUnprotect then some .openedUnprotected
      else if io = .closeFile then some .closed else none := by
  refine ⟨rfl, fun hc => absurd hc hs, fun _ _ => rfl, fun io hio => ?_⟩
  split_ifs <;> exact nofun

theorem settlesTo_unprotected (hs : m.obj.mState ≠ .closed)
    (hs' : m.obj.mState ≠ .openedProtected) (hcls : m.obj.cls = .nvProtectedFile) :
    SettlesTo m fun io => if io = .nvProtect then some .openedProtected else none := by
  refine ⟨rfl, fun hc => absurd hc hs, fun _ hc => absurd (hc hcls) hs', fun io hio => ?_⟩
  split_ifs <;> exact nofun

/-- A status of the object's transaction, by the state it leads to. -/
theorem opStatus_eq {status file : U32} (settled : Io → Option FileState) (hid : m.obj.mId = file)
    (htid : m.obj.mTransaction = tid) :
    m.opStatus tid status file settled =
      ((m.setState (settledState m status settled)).setIo .none).finish := by
  unfold Machine.opStatus settledState
  rw [if_neg (not_not.mpr hid), if_neg (not_not.mpr htid)]
  dsimp only
  by_cases hstatus : status = statusSuccess
  · rw [if_pos hstatus, if_pos hstatus]
    cases settled m.obj.mLastIo <;> rfl
  · rw [if_neg hstatus, if_neg hstatus]
    rfl

/-- An opened file stays so unless a closing succeeds. -/
theorem settledState_ne (h : SettlesTo m settled) (hs : m.obj.mState ≠ .closed)
    (hio : m.obj.mLastIo ≠ .closeFile) (status : U32) :
    settledState m status settled ≠ .closed := by
  have hkept := h.kept _ hio
  unfold settledState
  split_ifs
  · cases hsome : settled m.obj.mLastIo with
    | none => exact hs
    | some state =>
      rintro rfl
      exact hkept hsome
  · exact hs

/-- **What the condition on a status is for.** It is met exactly when the
state the status leads to is the one of the descriptor. -/
theorem settledStatus_iff (ho : Owned m) (h : SettlesTo m settled) (status : U32) :
    SettledStatus m status ↔
      (settledState m status settled ≠ .closed ↔ m.sys.Live m.obj.mFd) := by
  unfold SettledStatus
  cases ho.phase with
  | closed hs hio hfd hnone =>
    have hstate : settledState m status settled = .closed := by
      unfold settledState
      rw [hio, h.idle, hs]
      exact ite_self _
    rw [hstate, hio]
    simp [hfd]
  | opening hs hio hfd =>
    obtain ⟨state, hsome, hne⟩ := h.opening hs _ hio
    have hopen : settledState m status settled ≠ .closed ↔ status = statusSuccess := by
      unfold settledState
      rw [hsome, hs]
      split_ifs with hstatus
      · exact iff_of_true hne hstatus
      · exact iff_of_false (fun hc => hc rfl) hstatus
    have hlive : m.sys.Live m.obj.mFd ↔ m.obj.mFd ≠ none := by
      constructor
      · intro hl hn
        exact System.not_live_none _ (hn ▸ hl)
      · exact hfd.resolve_right
    have hio' : m.obj.mLastIo = .openFile ∨ m.obj.mLastIo = .nvUnprotect :=
      hio.imp_right And.left
    have hclose : m.obj.mLastIo ≠ .closeFile := by
      rcases hio' with hio' | hio' <;> simp [hio']
    rw [hopen, hlive]
    simp only [hs, hio', hclose, ne_eq, not_true_eq_false, forall_const, false_implies, and_true]
  | opened hs hio hfd =>
    have hne : m.obj.mLastIo ≠ .closeFile := by
      rcases hio with hio | hio | hio <;> simp [hio]
    refine iff_of_true ⟨fun hc => absurd hc hs, fun _ hio' => ?_, fun hc => absurd hc hne⟩
      (iff_of_true (settledState_ne h hs hne status) hfd)
    rintro hn
    exact System.not_live_none _ (hn ▸ hfd)
  | reopening hs hio hfd =>
    have hne : m.obj.mLastIo ≠ .closeFile := by
      rcases hio with hio | hio <;> simp [hio]
    have hlive : m.sys.Live m.obj.mFd ↔ m.obj.mFd ≠ none := by
      constructor
      · intro hl hn
        exact System.not_live_none _ (hn ▸ hl)
      · exact hfd.resolve_right
    rw [iff_true_left (settledState_ne h hs hne status), hlive]
    constructor
    · rintro ⟨-, hopen, -⟩
      exact hopen hs hio
    · intro hn
      exact ⟨fun hc => absurd hc hs, fun _ _ => hn, fun hc => absurd hc hne⟩
  | closing hs hio hcls hfd =>
    obtain ⟨d, hd, hmem⟩ := hfd
    have hdead : ¬ m.sys.Live m.obj.mFd := by
      rw [hd, System.live_some]
      exact fun hl => hl.2 hmem
    have hsome := h.closing hs fun hc => absurd hc hcls
    rw [iff_false_right hdead, not_not]
    unfold settledState
    rw [hio, hsome]
    split_ifs with hstatus
    · simp [hstatus, hs]
    · simp [hstatus, hs]
  | closingProtected hs hio hcls hfd =>
    have hdead : ¬ m.sys.Live m.obj.mFd := hfd ▸ System.not_live_none _
    have hs' : m.obj.mState ≠ .closed := by simp [hs]
    have hsome := h.closing hs' fun _ => hs
    rw [iff_false_right hdead, not_not]
    unfold settledState
    rw [hio, hsome]
    split_ifs with hstatus
    · simp [hstatus, hs]
    · simp [hstatus, hs]

/-- A status is processed in every state, by one rule or another. -/
theorem exists_processMessage_opStatus (w : Outcome) (tid : BitVec 16) (status file : U32) :
    ∃ settled, SettlesTo m settled ∧
      m.processMessage md5 w ⟨tid, .opStatus status file⟩ = m.opStatus tid status file settled := by
  have hblocked : ¬ m.blocked ⟨tid, .opStatus status file⟩ := by
    rintro ⟨-, ⟨-, hp⟩ | hp⟩
    · exact hp status file rfl
    · exact Bool.noConfusion hp
  rw [Machine.processMessage_of_ne md5 fun _ => Body.noConfusion, if_neg hblocked]
  by_cases hs : m.obj.mState = .closed
  · cases hcls : m.obj.cls with
    | rfsFile => exact ⟨_, settlesTo_closed hs (by simp [hcls]), if_pos hs⟩
    | nvFile => exact ⟨_, settlesTo_closed hs (by simp [hcls]), if_pos hs⟩
    | nvProtectedFile => exact ⟨_, settlesTo_closedProtected hs, if_pos hs⟩
  · cases hcls : m.obj.cls with
    | rfsFile => exact ⟨_, settlesTo_opened hs, if_neg hs⟩
    | nvFile => exact ⟨_, settlesTo_opened hs, if_neg hs⟩
    | nvProtectedFile =>
      by_cases hs' : m.obj.mState = .openedProtected
      · exact ⟨_, settlesTo_protected hs, (if_neg hs).trans (if_pos hs')⟩
      · exact ⟨_, settlesTo_unprotected hs hs' hcls, (if_neg hs).trans (if_neg hs')⟩

/-! ## A write response -/

/-- A write response whose bytes the system takes. -/
theorem writeResponse_of_taken {file : U32} {data : List BYTE} (hio : m.obj.mLastIo = .write)
    (hid : m.obj.mId = file) (hlen : data.length ≤ m.obj.mWriteLength)
    (hres : (m.sys.write 0 m.obj.mFd data w.writeLimit).2 = some data.length) :
    m.writeResponse md5 w statusSuccess file data =
      (⟨m.obj, afterWrite m w data, m.sent⟩ : Machine).written md5 w data.length := by
  unfold Machine.writeResponse
  rw [if_neg (not_not.mpr hio), if_neg (not_not.mpr hid), if_neg (not_not.mpr rfl),
    if_neg (Nat.not_lt_of_le hlen)]
  exact if_pos hres

theorem writeResponse_of_not_taken {file : U32} {data : List BYTE} (hio : m.obj.mLastIo = .write)
    (hid : m.obj.mId = file) (hlen : data.length ≤ m.obj.mWriteLength)
    (hres : (m.sys.write 0 m.obj.mFd data w.writeLimit).2 ≠ some data.length) :
    m.writeResponse md5 w statusSuccess file data =
      (⟨m.obj, afterWrite m w data, m.sent⟩ : Machine).status statusWriteFail := by
  unfold Machine.writeResponse
  rw [if_neg (not_not.mpr hio), if_neg (not_not.mpr hid), if_neg (not_not.mpr rfl),
    if_neg (Nat.not_lt_of_le hlen)]
  exact if_neg hres

theorem written_of_done {length : ℕ} (h : m.obj.mWriteLength = length) :
    m.written md5 w length =
      (((m.advance length).setIo .none).onWriteDone md5 w).status statusSuccess := by
  have hdone : (m.advance length).obj.mWriteLength = 0 := by
    show m.obj.mWriteLength - length = 0
    omega
  unfold Machine.written
  rw [if_neg (not_not.mpr hdone)]

theorem onWriteDone_protected (h : m.obj.cls = .nvProtectedFile) :
    m.onWriteDone md5 w = (m.protect w).checkAndUpdateCsum md5 w := by
  unfold Machine.onWriteDone
  rw [h]

/-! ## What `ProcessMessage` decides -/

theorem finish_opened (hs : m.obj.mState ≠ .closed) : m.finish = (m, .keep) := by
  unfold Machine.finish
  rw [if_neg fun hc => hs hc.1]

/-- A packet that comes while another command is pending is refused. -/
theorem processMessage_blocked (hp : m.blocked p) (hbody : ∀ file, p.body ≠ .nvBackup file) :
    m.processMessage md5 w p = m.refuse p.tid := by
  unfold Machine.processMessage
  cases hb : p.body with
  | nvBackup file => exact absurd hb (hbody file)
  | _ => exact if_pos hp

/-- And any other reaches the object's class. -/
theorem processMessage_unblocked (hp : ¬ m.blocked p) (hbody : ∀ file, p.body ≠ .nvBackup file) :
    m.processMessage md5 w p =
      match m.obj.cls with
      | .rfsFile => m.processRfsFile md5 w p
      | .nvFile => m.processNvFile md5 w p
      | .nvProtectedFile => m.processNvProtectedFile md5 w p := by
  unfold Machine.processMessage
  cases hb : p.body with
  | nvBackup file => exact absurd hb (hbody file)
  | _ => exact if_neg hp

/-- **What an object does for a packet** that is no backup: it refuses it, or
calls what its class and state have for it. A command finds it idle. -/
inductive Handles (m : Machine) (w : Outcome) (tid : BitVec 16) : Body → Machine × Response → Prop
  | refuse (body : Body) : Handles m w tid body (m.refuse tid)
  | refuseRequest (file offset length io : U32) :
      Handles m w tid (.ioRequest file offset length io) ((m.setTransaction tid).refuse tid)
  | openFile (file : U32) (name : Name) (hio : m.obj.mLastIo = .none)
      (hcls : m.obj.cls = .rfsFile) (hs : m.obj.mState = .closed) :
      Handles m w tid (.openFile file name) ((m.setTransaction tid).openFile w file name).finish
  | openNvFile (file : U32) (name : Name) (writable : Bool) (hio : m.obj.mLastIo = .none)
      (hcls : m.obj.cls ≠ .rfsFile) (hs : m.obj.mState = .closed) :
      Handles m w tid (.openFile file name)
        ((m.setTransaction tid).openNvFile w file writable).finish
  | unprotectNv (file : U32) (hio : m.obj.mLastIo = .none)
      (hcls : m.obj.cls = .nvProtectedFile) :
      Handles m w tid (.nvUnprotect file) ((m.setTransaction tid).unprotectNv w file).finish
  | protectNv (file : U32) (hio : m.obj.mLastIo = .none) (hcls : m.obj.cls = .nvProtectedFile)
      (hs : m.obj.mState ≠ .closed) :
      Handles m w tid (.nvProtect file) ((m.setTransaction tid).protectNv w file).finish
  | closeFile (file : U32) (hio : m.obj.mLastIo = .none) (hcls : m.obj.cls ≠ .nvProtectedFile)
      (hs : m.obj.mState ≠ .closed) :
      Handles m w tid (.closeFile file) ((m.setTransaction tid).closeFile file).finish
  | closeNvProtected (file : U32) (hio : m.obj.mLastIo = .none)
      (hcls : m.obj.cls = .nvProtectedFile) (hs : m.obj.mState = .openedProtected) :
      Handles m w tid (.closeFile file) ((m.setTransaction tid).closeNvProtected file).finish
  | ioRequest (file offset length io : U32) (hio : m.obj.mLastIo = .none)
      (hcls : m.obj.cls = .rfsFile) (hs : m.obj.mState ≠ .closed) :
      Handles m w tid (.ioRequest file offset length io)
        ((m.setTransaction tid).ioRequest w tid offset length io)
  | ioRequestWithin (file offset length io : U32) (hio : m.obj.mLastIo = .none)
      (hcls : m.obj.cls ≠ .rfsFile) (hs : m.obj.mState ≠ .closed) :
      Handles m w tid (.ioRequest file offset length io)
        ((m.setTransaction tid).ioRequestWithin w tid offset length io)
  | openForRequest (file offset length io : U32) (writable : Bool) (state : FileState)
      (hio : m.obj.mLastIo = .none) (hcls : m.obj.cls ≠ .rfsFile) (hs : m.obj.mState = .closed)
      (hread : m.obj.cls = .nvProtectedFile → io = ioRead ∧ state = .openedProtected)
      (hstate : state ≠ .closed) :
      Handles m w tid (.ioRequest file offset length io)
        ((m.setTransaction tid).openForRequest w tid offset length io writable state)
  | readResponse (status file : U32) :
      Handles m w tid (.read status file) (m.readResponse w status file).finish
  | writeResponse (status file : U32) (data : List BYTE)
      (hp : ¬ m.blocked ⟨tid, .write status file data⟩) (hs : m.obj.mState ≠ .closed)
      (hs' : m.obj.cls = .nvProtectedFile → m.obj.mState ≠ .openedProtected) :
      Handles m w tid (.write status file data) (m.writeResponse md5 w status file data).finish
  | opStatus (status file : U32) (settled : Io → Option FileState)
      (hset : SettlesTo m settled) :
      Handles m w tid (.opStatus status file) (m.opStatus tid status file settled)

theorem handles_openedFile {request : Request} (hp : ¬ m.blocked ⟨tid, body⟩)
    (hs : m.obj.mState ≠ .closed) (hcls : m.obj.cls ≠ .nvProtectedFile)
    (hrequest : ∀ file offset length io, m.obj.mLastIo = .none → Handles md5 m w tid
      (.ioRequest file offset length io) (request w (m.setTransaction tid) tid offset length io)) :
    Handles md5 m w tid body (m.openedFile md5 request w ⟨tid, body⟩) := by
  have hidle := idle_of_not_blocked hp
  unfold Machine.openedFile
  cases body with
  | closeFile file => exact .closeFile file (hidle rfl) hcls hs
  | ioRequest file offset length io =>
    dsimp only
    split
    · exact .refuseRequest file offset length io
    · exact hrequest file offset length io (hidle rfl)
  | read status file => exact .readResponse status file
  | write status file data => exact .writeResponse status file data hp hs fun hc => absurd hc hcls
  | opStatus status file => exact .opStatus status file _ (settlesTo_opened hs)
  | openFile | nvUnprotect | nvProtect | nvBackup | other => exact .refuse _

theorem handles_processNvProtectedFile (hp : ¬ m.blocked ⟨tid, body⟩)
    (hcls : m.obj.cls = .nvProtectedFile) :
    Handles md5 m w tid body (m.processNvProtectedFile md5 w ⟨tid, body⟩) := by
  have hidle := idle_of_not_blocked hp
  have hnv : m.obj.cls ≠ .rfsFile := by simp [hcls]
  unfold Machine.processNvProtectedFile
  split
  · next hs =>
    unfold Machine.closedNvProtectedFile
    cases body with
    | openFile file name => exact .openNvFile file name false (hidle rfl) hnv hs
    | nvUnprotect file => exact .unprotectNv file (hidle rfl) hcls
    | ioRequest file offset length io =>
      dsimp only
      split
      · exact .refuseRequest file offset length io
      next hread =>
      split
      · exact .refuseRequest file offset length io
      · exact .openForRequest file offset length io false _ (hidle rfl) hnv hs
          (fun _ => ⟨not_not.mp hread, rfl⟩) nofun
    | opStatus status file => exact .opStatus status file _ (settlesTo_closedProtected hs)
    | closeFile | read | write | nvProtect | nvBackup | other => exact .refuse _
  next hs =>
  split
  · next hs' =>
    unfold Machine.protectedState
    cases body with
    | closeFile file => exact .closeNvProtected file (hidle rfl) hcls hs'
    | nvUnprotect file => exact .unprotectNv file (hidle rfl) hcls
    | read status file => exact .readResponse status file
    | opStatus status file => exact .opStatus status file _ (settlesTo_protected hs)
    | openFile | ioRequest | write | nvProtect | nvBackup | other => exact .refuse _
  · next hs' =>
    unfold Machine.unprotectedState
    cases body with
    | nvProtect file => exact .protectNv file (hidle rfl) hcls hs
    | ioRequest file offset length io =>
      dsimp only
      split
      · exact .refuseRequest file offset length io
      · exact .ioRequestWithin file offset length io (hidle rfl) hnv hs
    | read status file => exact .readResponse status file
    | write status file data => exact .writeResponse status file data hp hs fun _ => hs'
    | opStatus status file => exact .opStatus status file _ (settlesTo_unprotected hs hs' hcls)
    | nvUnprotect file => exact .unprotectNv file (hidle rfl) hcls
    | openFile | closeFile | nvBackup | other => exact .refuse _

/-- **Each packet is handled so.** -/
theorem handles_processMessage (w : Outcome) (tid : BitVec 16)
    (hbody : ∀ file, body ≠ .nvBackup file) :
    Handles md5 m w tid body (m.processMessage md5 w ⟨tid, body⟩) := by
  by_cases hp : m.blocked ⟨tid, body⟩
  · rw [processMessage_blocked md5 hp hbody]
    exact .refuse body
  rw [processMessage_unblocked md5 hp hbody]
  have hidle := idle_of_not_blocked hp
  cases hcls : m.obj.cls with
  | rfsFile =>
    have hne : m.obj.cls ≠ .nvProtectedFile := by simp [hcls]
    dsimp only
    unfold Machine.processRfsFile
    split
    · next hs =>
      unfold Machine.closedRfsFile
      cases body with
      | openFile file name => exact .openFile file name (hidle rfl) hcls hs
      | opStatus status file => exact .opStatus status file _ (settlesTo_closed hs hne)
      | closeFile | ioRequest | read | write | nvUnprotect | nvProtect | nvBackup | other =>
        exact .refuse _
    · next hs =>
      exact handles_openedFile md5 hp hs hne fun file offset length io hio =>
        .ioRequest file offset length io hio hcls hs
  | nvFile =>
    have hne : m.obj.cls ≠ .nvProtectedFile := by simp [hcls]
    have hnv : m.obj.cls ≠ .rfsFile := by simp [hcls]
    dsimp only
    unfold Machine.processNvFile
    split
    · next hs =>
      unfold Machine.closedNvFile
      cases body with
      | openFile file name => exact .openNvFile file name true (hidle rfl) hnv hs
      | ioRequest file offset length io =>
        dsimp only
        split
        · exact .refuseRequest file offset length io
        · exact .openForRequest file offset length io true _ (hidle rfl) hnv hs
            (fun hc => absurd hc hne) nofun
      | opStatus status file => exact .opStatus status file _ (settlesTo_closed hs hne)
      | closeFile | read | write | nvUnprotect | nvProtect | nvBackup | other => exact .refuse _
    · next hs =>
      exact handles_openedFile md5 hp hs hne fun file offset length io hio =>
        .ioRequestWithin file offset length io hio hnv hs
  | nvProtectedFile => exact handles_processNvProtectedFile md5 hp hcls

theorem settle_keep {r : Machine × Response} (h : r.2 = .keep) : Slot.settle r = .of r.1 := by
  unfold Slot.settle
  rw [h]
  exact if_neg nofun

/-- What `ProcessMessage` is to return: the invariant, and a closed and
idle object when it is not needed any more. -/
structure Kept (r : Machine × Response) : Prop where
  owned : Owned r.1
  response : r.2 = .deleteNow → r.1.obj.mState = .closed ∧ r.1.obj.mLastIo = .none

theorem Owned.finish (h : Owned m) : Kept m.finish := by
  refine ⟨h, fun hr => ?_⟩
  by_contra hn
  have : m.finish.2 = .keep := if_neg hn
  rw [this] at hr
  exact Response.noConfusion hr

theorem Owned.refuse (h : Owned m) (tid : BitVec 16) : Kept (m.refuse tid) :=
  ⟨(sameOwner_statusOf m tid _).owned rfl rfl h, fun hr => Response.noConfusion hr⟩

theorem Owned.opStatus (h : Owned m) (hset : SettlesTo m settled) {status file : U32}
    (hw : m.obj.mId = file → m.obj.mTransaction = tid → SettledStatus m status) :
    Kept (m.opStatus tid status file settled) := by
  by_cases hid : m.obj.mId = file
  · by_cases htid : m.obj.mTransaction = tid
    · rw [opStatus_eq settled hid htid]
      have hiff := (settledStatus_iff h hset status).mp (hw hid htid)
      have hsame : SameOwner m
          ((m.setState (settledState m status settled)).setIo .none) :=
        ⟨rfl, rfl, System.SameTable.refl _⟩
      refine (Machine.owned_of_idle (hsame.table h.table) rfl hiff fun hs hcls => ?_).finish
      have hdead : ¬ m.sys.Live m.obj.mFd := fun hl => hiff.mpr hl hs
      exact (h.live_or_none hcls).resolve_left hdead
    · unfold Machine.opStatus
      rw [if_neg (not_not.mpr hid), if_pos htid]
      exact h.finish
  · unfold Machine.opStatus
    rw [if_pos hid]
    exact h.refuse tid

end ExynosVendor.Rfs
