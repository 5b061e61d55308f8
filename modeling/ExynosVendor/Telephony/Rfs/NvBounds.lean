import ExynosVendor.Telephony.Rfs.Survival

/-!
# The bounds of an NV file

An NV file does not grow: a request is checked against the size that the
file had when it was opened, and the responses of a write against what is
left of the request. The sum that is checked is a `u32`; and the bytes of
a response go where the descriptor stands, which is not where the request
has come to once the system has taken a part of a response. `Unwrapped`
and `InPlace` are the conditions on a packet, and `staysWithin_iff` that
these are the runs that stay within.
-/

namespace ExynosVendor.Rfs

open Ril (BYTE)
open Descriptor Machine

variable (md5 : List BYTE → List BYTE)

namespace Machine

/-! ## What is to hold -/

/-- What the NV file of the object holds. -/
def nvContent (m : Machine) : List BYTE := (m.sys.files m.nvName).getD []

/-- **A packet whose data reach `write`**: a response to the write that is
pending, in a state that takes one, of no more bytes than are left. -/
structure Delivers (m : Machine) (p : Packet) (data : List BYTE) : Prop where
  body : p.body = .write statusSuccess m.obj.mId data
  tid : m.obj.mTransaction = p.tid
  pending : m.obj.mLastIo = .write
  state : m.obj.mState ≠ .closed
  unprotected : m.obj.cls = .nvProtectedFile → m.obj.mState ≠ .openedProtected
  length : data.length ≤ m.obj.mWriteLength

/-- **Where they go**: the system takes so many of them, at a position. -/
def Stores (m : Machine) (w : Outcome) (data : List BYTE) (pos n : ℕ) : Prop :=
  ∃ e, m.sys.find m.obj.mFd = some e ∧ e.writable = true ∧ pos = m.sys.start e ∧
    ∃ l, w.writeLimit = some l ∧ n = min l data.length

/-- A request was accepted: the transfer has begun. -/
def Began (m : Machine) : Prop := m.obj.mLastIo = .read ∨ m.obj.mLastIo = .write

/-- **What is to hold of a packet**: a request that is accepted lies in the
file, of the size taken when it was opened, and so do the bytes of a
response. -/
structure WithinBounds (m : Machine) (p : Packet) (w : Outcome) : Prop where
  accepted : ∀ file offset length io, p.body = .ioRequest file offset length io →
    m.obj.mLastIo = .none → (m.processMessage md5 w p).1.Began →
      offset.toNat + length.toNat ≤ (m.processMessage md5 w p).1.obj.mSize
  written : ∀ data, m.Delivers p data → ∀ pos n, m.Stores w data pos n →
    ∀ k, pos ≤ k → k < pos + n → k < m.obj.mSize

/-- The size a request is checked against: that of the file, where the
request opens it. -/
def checkedSize (m : Machine) : ℕ :=
  if m.obj.mState = .closed then m.nvContent.length % 2 ^ 32 else m.obj.mSize

/-- The object serves a request of a kind, from an offset. -/
def Serves (m : Machine) (w : Outcome) (offset io : U32) : Prop :=
  0 ≤ offset.toInt ∧ (io = ioRead ∨ io = ioWrite) ∧
    if m.obj.mState = .closed then
      (w.opens ∧ m.sys.files m.nvName ≠ none) ∧ (m.obj.cls = .nvProtectedFile → io = ioRead)
    else m.sys.Live m.obj.mFd ∧ (m.obj.cls = .nvProtectedFile → m.obj.mState ≠ .openedProtected)

/-- **A request does not pass the check by its overflow.** -/
def Unwrapped (m : Machine) (p : Packet) (w : Outcome) : Prop :=
  ∀ offset length io, p.body = .ioRequest m.obj.mId offset length io → m.obj.mLastIo = .none →
    m.Serves w offset io → (offset + length).toNat ≤ m.checkedSize →
      offset.toNat + length.toNat < 2 ^ 32

/-- **A response goes where the request has come to**; or, where the system
has taken a part of one before, it takes no more than there is room for from
where the descriptor stands. -/
def InPlace (m : Machine) (p : Packet) (w : Outcome) : Prop :=
  ∀ data, m.Delivers p data → ∀ pos n, m.Stores w data pos n →
    pos ≠ m.obj.mWriteOffset → n ≤ m.obj.mSize - pos

/-! ## A request -/

section Request

variable {m : Machine}

theorem read_obj (w : Outcome) (m : Machine) :
    (m.read w).obj.mLastIo = m.obj.mLastIo ∧ (m.read w).obj.mSize = m.obj.mSize := by
  unfold Machine.read
  dsimp only
  split <;> exact ⟨rfl, rfl⟩

/-- A write that has begun is the one requested. -/
def Aimed (m : Machine) (offset length : U32) : Prop :=
  m.obj.mLastIo = .write → m.obj.mWriteOffset = offset.toNat ∧ m.obj.mWriteLength = length.toNat

/-- **A request on an open file.** -/
theorem ioRequestWithin_spec (hidle : m.obj.mLastIo = .none) (w : Outcome) (tid : BitVec 16)
    (offset length io : U32) :
    let r := (m.ioRequestWithin w tid offset length io).1
    r.obj.mSize = m.obj.mSize ∧ r.Aimed offset length ∧
      (r.obj.mLastIo = .none ∨ r.Began) ∧
      (r.Began ↔ (offset + length).toNat ≤ m.obj.mSize ∧ (io = ioRead ∨ io = ioWrite) ∧
        m.seeks offset) := by
  have hnot : ∀ r : Machine, r.obj.mLastIo = .none → ¬ r.Began := by
    rintro r hr (h | h) <;> simp [hr] at h
  have hrefused : ∀ r : Machine, r.obj.mSize = m.obj.mSize → r.obj.mLastIo = .none →
      ∀ c : Prop, ¬ c → r.obj.mSize = m.obj.mSize ∧ r.Aimed offset length ∧
        (r.obj.mLastIo = .none ∨ r.Began) ∧ (r.Began ↔ c) := by
    intro r hsize hr c hc
    refine ⟨hsize, fun h => ?_, Or.inl hr, iff_of_false (hnot r hr) hc⟩
    rw [hr] at h
    exact Io.noConfusion h
  unfold Machine.ioRequestWithin
  split
  · next hlarge => exact hrefused _ rfl hidle _ fun hc => absurd hc.1 (Nat.not_le.mpr hlarge)
  next hfits =>
  unfold Machine.ioRequest
  split
  · next hread =>
    unfold Machine.readRequest
    by_cases hseeks : m.seeks offset
    · rw [if_pos hseeks]
      obtain ⟨hio, hsize⟩ := read_obj w ((m.aimRead offset length).setIo .read)
      have hbegan : (((m.aimRead offset length).setIo .read).read w).Began := Or.inl hio
      refine ⟨hsize, fun h => ?_, Or.inr hbegan, iff_of_true hbegan ?_⟩
      · exact Io.noConfusion (hio.symm.trans h)
      · exact ⟨Nat.le_of_not_lt hfits, Or.inl hread, hseeks⟩
    · rw [if_neg hseeks]
      exact hrefused ((m.aimRead offset length).status statusReadFail) rfl hidle _
        fun hc : _ ∧ _ ∧ _ => hseeks hc.2.2
  next hread =>
  split
  · next hwrite =>
    unfold Machine.writeRequest
    by_cases hseeks : m.seeks offset
    · rw [if_pos hseeks]
      have hbegan : (((m.aimWrite offset length).setIo .write).askWrite).Began := Or.inr rfl
      refine ⟨rfl, fun _ => ⟨rfl, rfl⟩, Or.inr hbegan, iff_of_true hbegan ?_⟩
      exact ⟨Nat.le_of_not_lt hfits, Or.inr hwrite, hseeks⟩
    · rw [if_neg hseeks]
      exact hrefused ((m.aimWrite offset length).status statusWriteFail) rfl hidle _
        fun hc : _ ∧ _ ∧ _ => hseeks hc.2.2
  · next hwrite =>
    exact hrefused _ rfl hidle _ fun hc : _ ∧ _ ∧ _ => hc.2.1.elim hread hwrite

/-- What an `openNv` leaves in `mFd`. -/
theorem openNv_opened (hown : m.Own) (hbound : m.sys.Bound) (w : Outcome) (writable : Bool) :
    (∃ fd, (m.openNv w writable).obj = { m.obj with mFd := fd }) ∧
      ((m.openNv w writable).obj.mFd ≠ none ↔ w.opens ∧ m.sys.files m.nvName ≠ none) ∧
      ((m.openNv w writable).obj.mFd ≠ none →
        (m.openNv w writable).sys.Live (m.openNv w writable).obj.mFd) ∧
      (m.openNv w writable).Own ∧ (m.openNv w writable).nvContent = m.nvContent := by
  have hsteady := (undisturbed_openNv w m writable).toSteady
  have hcontent : (m.openNv w writable).nvContent = m.nvContent := by
    unfold nvContent
    rw [hsteady.files, nvName_of_mId hsteady.mId]
  by_cases h : w.opens ∧ m.sys.files m.nvName ≠ none
  · have hopen : m.openNv w writable = m.openAs m.nvName writable false := if_pos h
    refine ⟨?_, ?_, ?_, hsteady.own hown, hcontent⟩
    · rw [hopen]
      exact ⟨_, rfl⟩
    · rw [hopen]
      exact iff_of_true (Option.some_ne_none _) h
    · rw [hopen]
      exact fun _ => System.live_opened hbound _ _ _
  · have hopen : m.openNv w writable = m.dropFd := if_neg h
    refine ⟨?_, ?_, ?_, hsteady.own hown, hcontent⟩
    · rw [hopen]
      exact ⟨_, rfl⟩
    · rw [hopen]
      exact iff_of_false (not_not.mpr rfl) h
    · rw [hopen]
      exact fun hfd => absurd rfl hfd

/-- **The size is that of the file.** -/
theorem setSize_spec (hlive : m.sys.Live m.obj.mFd) (hown : m.Own) :
    m.setSize.obj = { m.obj with mSize := m.nvContent.length % 2 ^ 32 } ∧
      (m.setSize.sys.Live m.setSize.obj.mFd) := by
  obtain ⟨e, he⟩ := hlive.exists_find
  have hcontent : m.sys.content e = m.nvContent := by
    unfold System.content nvContent
    rw [hown.of_find he]
  have hset : m.setSize = { m with
      obj := { m.obj with mSize := (m.sys.content e).length % 2 ^ 32 }
      sys := m.sys.seek m.obj.mFd (m.sys.content e).length } := by
    unfold Machine.setSize
    rw [he]
  rw [hset, hcontent]
  exact ⟨rfl, ((System.sameTable_seek _ _ _).live_iff _).mpr hlive⟩

/-- **A request on a closed file.** -/
theorem openForRequest_spec (hidle : m.obj.mLastIo = .none) (hown : m.Own) (hbound : m.sys.Bound)
    (w : Outcome) (tid : BitVec 16) (offset length io : U32) (writable : Bool)
    (state : FileState) :
    let r := (m.openForRequest w tid offset length io writable state).1
    (r.obj.mSize = m.obj.mSize ∨ r.obj.mSize = m.nvContent.length % 2 ^ 32) ∧
      r.Aimed offset length ∧ (r.obj.mLastIo = .none ∨ r.Began) ∧
      (r.Began → r.obj.mSize = m.nvContent.length % 2 ^ 32) ∧
      (r.Began ↔ (offset + length).toNat ≤ m.nvContent.length % 2 ^ 32 ∧
        (io = ioRead ∨ io = ioWrite) ∧ 0 ≤ offset.toInt ∧
        w.opens ∧ m.sys.files m.nvName ≠ none) := by
  obtain ⟨⟨fd, hobj⟩, hfd, hlive, hown', hcontent⟩ := openNv_opened hown hbound w writable
  unfold Machine.openForRequest
  dsimp only
  split
  · next hnone =>
    have hidle' : ((m.openNv w writable).status statusOpenFail).obj.mLastIo = .none := by
      show (m.openNv w writable).obj.mLastIo = .none
      rw [hobj]
      exact hidle
    have hnot : ¬ ((m.openNv w writable).status statusOpenFail).Began := by
      rintro (h | h) <;> simp [hidle'] at h
    refine ⟨Or.inl (by show (m.openNv w writable).obj.mSize = _; rw [hobj]), fun h => ?_,
      Or.inl hidle', fun h => absurd h hnot, iff_of_false hnot fun hc => hfd.mpr hc.2.2.2 hnone⟩
    exact Io.noConfusion (hidle'.symm.trans h)
  · next hsome =>
    -- the descriptor is open, and the size is that of the file
    obtain ⟨hsize, hlive'⟩ := setSize_spec (m := (m.openNv w writable).setState state)
      (hlive hsome) hown'
    have hsize' : ((m.openNv w writable).setState state).setSize.obj.mSize =
        m.nvContent.length % 2 ^ 32 := by
      rw [hsize]
      exact congrArg (·.length % 2 ^ 32) hcontent
    have hidle' : ((m.openNv w writable).setState state).setSize.obj.mLastIo = .none := by
      rw [hsize]
      show (m.openNv w writable).obj.mLastIo = .none
      rw [hobj]
      exact hidle
    obtain ⟨hkept, haimed, hio, hbegan⟩ :=
      ioRequestWithin_spec hidle' w tid offset length io
    rw [hsize'] at hkept hbegan
    refine ⟨Or.inr hkept, haimed, hio, fun _ => hkept, hbegan.trans ?_⟩
    constructor
    · rintro ⟨hfits, hkind, -, hseeks⟩
      exact ⟨hfits, hkind, hseeks, hfd.mp hsome⟩
    · rintro ⟨hfits, hkind, hseeks, -⟩
      exact ⟨hfits, hkind, hlive', hseeks⟩

/-- **How a request was answered**: the transfer has begun where a
condition holds, and else nothing is pending. -/
structure Answered (m : Machine) (offset length : U32) (c : Prop) (r : Machine) : Prop where
  size : r.obj.mSize = m.obj.mSize ∨ r.obj.mSize = m.nvContent.length % 2 ^ 32
  aimed : r.Aimed offset length
  idle : r.obj.mLastIo = .none ∨ r.Began
  checked : r.Began → r.obj.mSize = m.checkedSize
  began : r.Began ↔ c

variable {r : Machine} {p : Packet} {data : List BYTE}

theorem answered_refused {offset length : U32} {c : Prop} (hsize : r.obj.mSize = m.obj.mSize)
    (hidle : r.obj.mLastIo = .none) (hc : ¬ c) :
    Answered m offset length c r := by
  have hnot : ¬ r.Began := by
    rintro (h | h) <;> simp [hidle] at h
  refine ⟨Or.inl hsize, fun h => ?_, Or.inl hidle, fun h => absurd h hnot, iff_of_false hnot hc⟩
  exact Io.noConfusion (hidle.symm.trans h)

/-- The request is one that the object serves, and passes the check. -/
def Admits (m : Machine) (w : Outcome) (file offset length io : U32) : Prop :=
  (offset + length).toNat ≤ m.checkedSize ∧ file = m.obj.mId ∧ m.Serves w offset io

/-- In an open state, -/
theorem answered_opened (hidle : m.obj.mLastIo = .none) (hs : m.obj.mState ≠ .closed)
    (hs' : m.obj.cls = .nvProtectedFile → m.obj.mState ≠ .openedProtected) {file : U32}
    (hid : m.obj.mId = file) (w : Outcome) (tid : BitVec 16) (offset length io : U32) :
    Answered m offset length (m.Admits w file offset length io)
      ((m.setTransaction tid).ioRequestWithin w tid offset length io).1 := by
  obtain ⟨hsize, haimed, hio, hbegan⟩ :=
    ioRequestWithin_spec (m := m.setTransaction tid) hidle w tid offset length io
  have hchecked : m.checkedSize = m.obj.mSize := if_neg hs
  refine ⟨Or.inl hsize, haimed, hio, fun _ => hsize.trans hchecked.symm, hbegan.trans ?_⟩
  unfold Admits Serves
  rw [hchecked, if_neg hs]
  constructor
  · rintro ⟨hfits, hkind, hlive, hseeks⟩
    exact ⟨hfits, hid.symm, hseeks, hkind, hlive, hs'⟩
  · rintro ⟨hfits, -, hseeks, hkind, hlive, -⟩
    exact ⟨hfits, hkind, hlive, hseeks⟩

/-- and in the closed one. -/
theorem answered_closed (hidle : m.obj.mLastIo = .none) (hown : m.Own) (hbound : m.sys.Bound)
    (hs : m.obj.mState = .closed) {io : U32} (hkind' : m.obj.cls = .nvProtectedFile → io = ioRead)
    {file : U32} (hid : m.obj.mId = file) (w : Outcome) (tid : BitVec 16) (offset length : U32)
    (writable : Bool) (state : FileState) :
    Answered m offset length (m.Admits w file offset length io)
      ((m.setTransaction tid).openForRequest w tid offset length io writable state).1 := by
  obtain ⟨hsize, haimed, hio, hsize', hbegan⟩ := openForRequest_spec (m := m.setTransaction tid)
    hidle hown hbound w tid offset length io writable state
  have hchecked : m.checkedSize = m.nvContent.length % 2 ^ 32 := if_pos hs
  refine ⟨hsize, haimed, hio, fun h => (hsize' h).trans hchecked.symm, hbegan.trans ?_⟩
  unfold Admits Serves
  rw [hchecked, if_pos hs]
  constructor
  · rintro ⟨hfits, hkind, hseeks, hfile⟩
    exact ⟨hfits, hid.symm, hseeks, hkind, hfile, hkind'⟩
  · rintro ⟨hfits, -, hseeks, hkind, hfile, -⟩
    exact ⟨hfits, hkind, hseeks, hfile⟩

/-- **What a request for I/O does.** -/
theorem request_spec (hcls : m.obj.cls ≠ .rfsFile) (hidle : m.obj.mLastIo = .none) (hown : m.Own)
    (hbound : m.sys.Bound) (w : Outcome) (tid : BitVec 16) (file offset length io : U32) :
    Answered m offset length (m.Admits w file offset length io)
      (m.processMessage md5 w ⟨tid, .ioRequest file offset length io⟩).1 := by
  have hblocked : ¬ m.blocked ⟨tid, .ioRequest file offset length io⟩ := fun hb => hb.1 hidle
  have hother : m.obj.mId ≠ file → Answered m offset length (m.Admits w file offset length io)
      ((m.setTransaction tid).refuse tid).1 :=
    fun hid => answered_refused rfl hidle fun h => hid h.2.1.symm
  rw [processMessage_unblocked md5 hblocked (by simp)]
  cases hc : m.obj.cls with
  | rfsFile => exact absurd hc hcls
  | nvFile =>
    have hne : m.obj.cls ≠ .nvProtectedFile := by simp [hc]
    dsimp only
    unfold Machine.processNvFile
    split
    · next hs =>
      unfold Machine.closedNvFile
      dsimp only
      split
      · next hid => exact hother hid
      · next hid =>
        exact answered_closed hidle hown hbound hs (fun h => absurd h hne) (not_not.mp hid) w tid
          offset length true .opened
    · next hs =>
      unfold Machine.openedFile
      dsimp only
      split
      · next hid => exact hother hid
      · next hid =>
        exact answered_opened hidle hs (fun h => absurd h hne) (not_not.mp hid) w tid offset
          length io
  | nvProtectedFile =>
    dsimp only
    unfold Machine.processNvProtectedFile
    split
    · next hs =>
      unfold Machine.closedNvProtectedFile
      dsimp only
      split
      · next hread =>
        refine answered_refused rfl hidle fun h => hread ?_
        have hserves := h.2.2.2.2
        rw [if_pos hs] at hserves
        exact hserves.2 hc
      split
      · next hid => exact hother hid
      · next hread hid =>
        exact answered_closed hidle hown hbound hs (fun _ => not_not.mp hread) (not_not.mp hid) w
          tid offset length false .openedProtected
    next hs =>
    split
    · next hs' =>
      refine answered_refused rfl hidle fun h => ?_
      have hserves := h.2.2.2.2
      rw [if_neg hs] at hserves
      exact hserves.2 hc hs'
    · next hs' =>
      unfold Machine.unprotectedState
      dsimp only
      split
      · next hid => exact hother hid
      · next hid =>
        exact answered_opened hidle hs (fun _ => hs') (not_not.mp hid) w tid offset length io

/-! ## The other packets -/

/-- **Nothing of a pending write has changed**, nor the size, unless to
that of the file. -/
structure Calm (m m' : Machine) : Prop where
  size : m'.obj.mSize = m.obj.mSize ∨ m'.obj.mSize = m.nvContent.length % 2 ^ 32
  pending : m'.obj.mLastIo = .write → m.obj.mLastIo = .write ∧
    m'.obj.mWriteOffset = m.obj.mWriteOffset ∧ m'.obj.mWriteLength = m.obj.mWriteLength ∧
    m'.obj.mSize = m.obj.mSize

variable {m' : Machine}

theorem calm_of_io (hsize : m'.obj.mSize = m.obj.mSize ∨
    m'.obj.mSize = m.nvContent.length % 2 ^ 32) {io : Io} (hio : m'.obj.mLastIo = io)
    (hne : io ≠ .write) : Calm m m' :=
  ⟨hsize, fun h => absurd (hio.symm.trans h) hne⟩

theorem calm_of_obj (h : m'.obj = m.obj) : Calm m m' := by
  refine ⟨Or.inl (by rw [h]), fun hio => ?_⟩
  rw [h] at hio ⊢
  exact ⟨hio, rfl, rfl, rfl⟩

theorem calm_setTransaction (tid : BitVec 16) (h : m'.obj = (m.setTransaction tid).obj) :
    Calm m m' := by
  refine ⟨Or.inl (by rw [h]; rfl), fun hio => ?_⟩
  rw [h] at hio ⊢
  exact ⟨hio, rfl, rfl, rfl⟩

/-- Behind an `openNv`: the status, and the size if there is a file. -/
theorem answerOpen_spec (hown : m.Own) (hbound : m.sys.Bound) (w : Outcome) (writable : Bool) :
    let r := m.openNv w writable
    let r' := if r.obj.mFd = none then r.status statusOpenFail else r.setSize.status statusSuccess
    (r'.obj.mSize = m.obj.mSize ∨ r'.obj.mSize = m.nvContent.length % 2 ^ 32) ∧
      r'.obj.mLastIo = m.obj.mLastIo := by
  obtain ⟨⟨fd, hobj⟩, -, hlive, hown', hcontent⟩ := openNv_opened hown hbound w writable
  dsimp only
  split
  · refine ⟨Or.inl ?_, ?_⟩
    · show (m.openNv w writable).obj.mSize = _
      rw [hobj]
    · show (m.openNv w writable).obj.mLastIo = _
      rw [hobj]
  · next hsome =>
    obtain ⟨hsize, -⟩ := setSize_spec (hlive hsome) hown'
    refine ⟨Or.inr ?_, ?_⟩
    · show (m.openNv w writable).setSize.obj.mSize = _
      rw [hsize, hcontent]
    · show (m.openNv w writable).setSize.obj.mLastIo = _
      rw [hsize, hobj]

theorem calm_openNvFile (hown : m.Own) (hbound : m.sys.Bound) (w : Outcome) (tid : BitVec 16)
    (file : U32) (writable : Bool) : Calm m ((m.setTransaction tid).openNvFile w file writable) := by
  unfold Machine.openNvFile
  split
  · exact calm_setTransaction tid rfl
  · obtain ⟨hsize, hio⟩ := answerOpen_spec (m := (m.setTransaction tid).setIo .openFile) hown
      hbound w writable
    exact calm_of_io hsize hio (by decide : Io.openFile ≠ .write)

theorem calm_unprotectNv (hown : m.Own) (hbound : m.sys.Bound) (w : Outcome) (tid : BitVec 16)
    (file : U32) : Calm m ((m.setTransaction tid).unprotectNv w file) := by
  have hclose : Steady m ((m.setTransaction tid).setIo .nvUnprotect).closeFd :=
    steady_of_eq rfl rfl rfl (Or.inl rfl) (Or.inr rfl)
  unfold Machine.unprotectNv
  split
  · exact calm_setTransaction tid rfl
  · obtain ⟨hsize, hio⟩ := answerOpen_spec (hclose.own hown) (hclose.bound hown hbound) w true
    exact calm_of_io hsize hio (by decide : Io.nvUnprotect ≠ .write)

theorem calm_protectNv (w : Outcome) (tid : BitVec 16) (file : U32) :
    Calm m ((m.setTransaction tid).protectNv w file) := by
  have hopen : ∀ r : Machine, (r.openNv w false).obj.mSize = r.obj.mSize := by
    intro r
    unfold Machine.openNv
    split <;> rfl
  unfold Machine.protectNv
  dsimp only
  split
  · exact calm_setTransaction tid rfl
  split
  · exact calm_of_io (Or.inl (hopen _)) (openNv_eq _ w false).2.1
      (by decide : Io.nvProtect ≠ .write)
  · exact calm_of_io (Or.inl (hopen _)) (openNv_eq _ w false).2.1
      (by decide : Io.nvProtect ≠ .write)

theorem calm_closeFile (tid : BitVec 16) (file : U32) :
    Calm m ((m.setTransaction tid).closeFile file) := by
  unfold Machine.closeFile
  split
  · exact calm_setTransaction tid rfl
  · exact calm_of_io (Or.inl rfl) rfl (by decide : Io.closeFile ≠ .write)

theorem calm_closeNvProtected (tid : BitVec 16) (file : U32) :
    Calm m ((m.setTransaction tid).closeNvProtected file) := by
  unfold Machine.closeNvProtected
  split
  · exact calm_setTransaction tid rfl
  · exact calm_of_io (Or.inl rfl) rfl (by decide : Io.closeFile ≠ .write)

theorem calm_readResponse (w : Outcome) (status file : U32) :
    Calm m (m.readResponse w status file) := by
  unfold Machine.readResponse
  split
  · exact calm_of_obj rfl
  next hio =>
  split
  · exact calm_of_obj rfl
  split
  · exact calm_of_io (Or.inl rfl) rfl (by decide : Io.none ≠ .write)
  split
  · obtain ⟨hkept, hsize⟩ := read_obj w m
    exact calm_of_io (Or.inl hsize) (hkept.trans (not_not.mp hio)) (by decide)
  · exact calm_of_io (Or.inl rfl) rfl (by decide : Io.none ≠ .write)

theorem calm_opStatus (tid : BitVec 16) (status file : U32) (settled : Io → Option FileState) :
    Calm m (m.opStatus tid status file settled).1 := by
  by_cases hid : m.obj.mId = file
  · by_cases htid : m.obj.mTransaction = tid
    · rw [opStatus_eq settled hid htid]
      exact calm_of_io (Or.inl rfl) rfl (by decide : Io.none ≠ .write)
    · unfold Machine.opStatus
      rw [if_neg (not_not.mpr hid), if_pos htid]
      exact calm_of_obj rfl
  · unfold Machine.opStatus
    rw [if_pos hid]
    exact calm_of_obj rfl

/-- **A packet that is no response of a write and no request.** -/
theorem calm_processMessage (hcls : m.obj.cls ≠ .rfsFile) (hown : m.Own) (hbound : m.sys.Bound)
    (w : Outcome) (hwrite : ∀ status file data, p.body ≠ .write status file data)
    (hbackup : ∀ file, p.body ≠ .nvBackup file)
    (hrequest : ∀ file offset length io, p.body ≠ .ioRequest file offset length io) :
    Calm m (m.processMessage md5 w p).1 := by
  obtain ⟨tid, body⟩ := p
  have h := handles_processMessage md5 (m := m) w tid hbackup
  generalize m.processMessage md5 w ⟨tid, body⟩ = r at h ⊢
  cases h with
  | refuse => exact calm_of_obj rfl
  | refuseRequest => exact calm_setTransaction tid rfl
  | openFile _ _ _ hrfs => exact absurd hrfs hcls
  | openNvFile file name writable => exact calm_openNvFile hown hbound w tid file writable
  | unprotectNv file => exact calm_unprotectNv hown hbound w tid file
  | protectNv file => exact calm_protectNv w tid file
  | closeFile file => exact calm_closeFile tid file
  | closeNvProtected file => exact calm_closeNvProtected tid file
  | ioRequest file offset length io | ioRequestWithin file offset length io
  | openForRequest file offset length io => exact absurd rfl (hrequest file offset length io)
  | readResponse status file => exact calm_readResponse w status file
  | writeResponse status file data => exact absurd rfl (hwrite status file data)
  | opStatus status file settled => exact calm_opStatus tid status file settled

/-! ## A response of a write -/

/-- A response is taken in a state that has the file open to write. -/
theorem processMessage_write (hcls : m.obj.cls ≠ .rfsFile) (w : Outcome) (tid : BitVec 16)
    (status file : U32) (data : List BYTE) :
    m.processMessage md5 w ⟨tid, .write status file data⟩ =
      if ¬ m.blocked ⟨tid, .write status file data⟩ ∧ m.obj.mState ≠ .closed ∧
          (m.obj.cls = .nvProtectedFile → m.obj.mState ≠ .openedProtected) then
        (m.writeResponse md5 w status file data).finish
      else m.refuse tid := by
  by_cases hblocked : m.blocked ⟨tid, .write status file data⟩
  · rw [if_neg fun h => h.1 hblocked]
    exact processMessage_blocked md5 hblocked (by simp)
  rw [processMessage_unblocked md5 hblocked (by simp)]
  cases hc : m.obj.cls with
  | rfsFile => exact absurd hc hcls
  | nvFile =>
    dsimp only
    unfold Machine.processNvFile
    split
    · next hs => exact (if_neg fun h => h.2.1 hs).symm
    · next hs => exact (if_pos ⟨hblocked, hs, fun h => FileClass.noConfusion h⟩).symm
  | nvProtectedFile =>
    dsimp only
    unfold Machine.processNvProtectedFile
    split
    · next hs => exact (if_neg fun h => h.2.1 hs).symm
    next hs =>
    split
    · next hs' => exact (if_neg fun h => h.2.2 rfl hs').symm
    · next hs' => exact (if_pos ⟨hblocked, hs, fun _ => hs'⟩).symm

/-- **What a response leaves** whose data do not reach `write`. -/
theorem calm_write (hcls : m.obj.cls ≠ .rfsFile) (w : Outcome) {status file : U32}
    (hbody : p.body = .write status file data) (hnot : ∀ data, ¬ m.Delivers p data) :
    Calm m (m.processMessage md5 w p).1 ∧ (m.processMessage md5 w p).1.sys = m.sys := by
  obtain ⟨tid, body⟩ := p
  obtain rfl : body = .write status file data := hbody
  rw [processMessage_write md5 hcls]
  split
  · next htaken =>
    obtain ⟨hblocked, hs, hs'⟩ := htaken
    unfold Machine.writeResponse
    split
    · exact ⟨calm_of_obj rfl, rfl⟩
    next hio =>
    split
    · exact ⟨calm_of_obj rfl, rfl⟩
    next hid =>
    split
    · exact ⟨calm_of_io (Or.inl rfl) rfl (by decide : Io.none ≠ .write), rfl⟩
    next hstatus =>
    split
    · exact ⟨calm_of_obj rfl, rfl⟩
    next hlen =>
    obtain rfl : m.obj.mId = file := not_not.mp hid
    obtain rfl : status = statusSuccess := not_not.mp hstatus
    have hpending : m.obj.mLastIo = .write := not_not.mp hio
    have htid : m.obj.mTransaction = tid := by
      by_contra hne
      refine hblocked ⟨by simp [hpending], Or.inl ⟨hne, by simp⟩⟩
    exact absurd ⟨rfl, htid, hpending, hs, hs', Nat.le_of_not_lt hlen⟩ (hnot data)
  · exact ⟨calm_of_obj rfl, rfl⟩

/-- **What a response leaves** whose data reach it. -/
structure Delivered (m : Machine) (w : Outcome) (data : List BYTE) (r : Machine) : Prop where
  size : r.obj.mSize = m.obj.mSize
  content : r.sys.files m.nvName = (afterWrite m w data).files m.nvName
  pending : r.obj.mLastIo = .write →
    r.obj.mWriteOffset = m.obj.mWriteOffset ∧ r.obj.mWriteLength = m.obj.mWriteLength ∨
      r.obj.mWriteOffset = (m.obj.mWriteOffset + data.length) % 2 ^ 32 ∧
        r.obj.mWriteLength = m.obj.mWriteLength - data.length

/-- What is done at the end of a write leaves the size and the file. -/
theorem onWriteDone_spec (hcls : m.obj.cls ≠ .rfsFile) (w : Outcome) :
    (m.onWriteDone md5 w).obj.mSize = m.obj.mSize ∧
      (m.onWriteDone md5 w).obj.mLastIo = m.obj.mLastIo ∧
      (m.onWriteDone md5 w).sys.files m.nvName = m.sys.files m.nvName := by
  obtain ⟨hcsum, -⟩ := nvNames_own m.obj.mId
  have hprotect : (m.protect w).obj.mSize = m.obj.mSize ∧
      (m.protect w).obj.mLastIo = m.obj.mLastIo := by
    unfold Machine.protect Machine.openNv
    dsimp only
    split_ifs <;> exact ⟨rfl, rfl⟩
  unfold Machine.onWriteDone
  cases hc : m.obj.cls with
  | rfsFile => exact absurd hc hcls
  | nvFile =>
    dsimp only
    rw [checkAndUpdateCsum_obj]
    exact ⟨rfl, rfl, (checkAndUpdateCsum_keeps md5 w m).2 _ hcsum⟩
  | nvProtectedFile =>
    have hsteady := (undisturbed_protect w m).toSteady
    dsimp only
    rw [checkAndUpdateCsum_obj]
    refine ⟨hprotect.1, hprotect.2, ?_⟩
    rw [(checkAndUpdateCsum_keeps md5 w (m.protect w)).2 _
      (by rw [nvName_of_mId hsteady.mId]; exact hcsum), hsteady.files]

theorem delivered (hcls : m.obj.cls ≠ .rfsFile) (w : Outcome) (h : m.Delivers p data) :
    Delivered m w data (m.processMessage md5 w p).1 := by
  obtain ⟨tid, body⟩ := p
  obtain rfl : body = .write statusSuccess m.obj.mId data := h.body
  have hblocked : ¬ m.blocked ⟨tid, .write statusSuccess m.obj.mId data⟩ := by
    rintro ⟨-, ⟨hne, -⟩ | hanswers⟩
    · exact hne h.tid
    · exact Bool.noConfusion hanswers
  rw [processMessage_write md5 hcls, if_pos ⟨hblocked, h.state, h.unprotected⟩]
  by_cases htaken : (m.sys.write 0 m.obj.mFd data w.writeLimit).2 = some data.length
  · rw [writeResponse_of_taken md5 h.pending rfl h.length htaken]
    unfold Machine.written
    split
    · exact ⟨rfl, rfl, fun _ => Or.inr ⟨rfl, rfl⟩⟩
    · obtain ⟨hsize, hio, hfile⟩ := onWriteDone_spec md5 (m := ((⟨m.obj, afterWrite m w data,
        m.sent⟩ : Machine).advance data.length).setIo .none) hcls w
      exact ⟨hsize, hfile, fun hwrite => Io.noConfusion (hio.symm.trans hwrite)⟩
  · rw [writeResponse_of_not_taken md5 h.pending rfl h.length htaken]
    exact ⟨rfl, rfl, fun _ => Or.inl ⟨rfl, rfl⟩⟩

/-! ## A packet -/

/-- **The invariant.** The size taken is no more than what the file has, and
what is left of a write lies below it. -/
structure Bounded (m : Machine) : Prop where
  size : m.obj.mSize ≤ m.nvContent.length
  small : m.obj.mSize < 2 ^ 32
  pending : m.obj.mLastIo = .write → m.obj.mWriteOffset + m.obj.mWriteLength ≤ m.obj.mSize

/-- A packet that leaves the file, and nothing new of a write. -/
theorem Bounded.calm (h : Bounded m) (hcalm : Calm m r) (hcontent : r.nvContent = m.nvContent) :
    Bounded r := by
  refine ⟨?_, ?_, fun hio => ?_⟩
  · rw [hcontent]
    rcases hcalm.size with hsize | hsize
    · rw [hsize]
      exact h.size
    · rw [hsize]
      exact Nat.mod_le _ _
  · rcases hcalm.size with hsize | hsize
    · rw [hsize]
      exact h.small
    · rw [hsize]
      exact Nat.mod_lt _ (by decide)
  · obtain ⟨hpending, hoffset, hlength, hsize⟩ := hcalm.pending hio
    rw [hoffset, hlength, hsize]
    exact h.pending hpending

/-- **Bytes below the size do not make the file grow.** -/
theorem length_afterWrite (h : Bounded m) (hown : m.Own) {w : Outcome}
    (hwithin : ∀ pos n, m.Stores w data pos n → ∀ k, pos ≤ k → k < pos + n → k < m.obj.mSize) :
    (((afterWrite m w data).files m.nvName).getD []).length = m.nvContent.length := by
  unfold afterWrite
  cases hfind : m.sys.find m.obj.mFd with
  | none =>
    unfold System.write
    rw [hfind]
    rfl
  | some e =>
    cases hlimit : w.writeLimit with
    | none =>
      unfold System.write
      rw [hfind]
      rfl
    | some l =>
      by_cases hw : e.writable = true
      · have hname : e.name = m.nvName := hown.of_find hfind
        have hcontent : m.sys.content e = m.nvContent := by
          unfold System.content nvContent
          rw [hname]
        have hfile : (m.sys.write 0 m.obj.mFd data (some l)).1.files m.nvName =
            some (File.write 0 m.nvContent (m.sys.start e) (data.take l)) := by
          rw [System.write_eq hfind hw, ← hcontent, ← hname]
          exact System.files_store_self _ _ _
        rw [hfile, Option.getD_some]
        by_cases hnil : data.take l = []
        · rw [hnil]
          exact congrArg List.length (if_pos rfl)
        · have hpos := List.length_pos_iff.mpr hnil
          have htake : (data.take l).length = min l data.length := List.length_take
          have hlast := hwithin _ _ ⟨e, hfind, hw, rfl, l, hlimit, rfl⟩
            (m.sys.start e + min l data.length - 1) (by omega) (by omega)
          have hsize := h.size
          rw [File.length_write 0 _ hnil]
          omega
      · unfold System.write
        rw [hfind]
        dsimp only
        rw [if_neg hw]
        rfl

theorem nvContent_of_files (hid : r.obj.mId = m.obj.mId)
    (hfile : r.sys.files m.nvName = m.sys.files m.nvName) : r.nvContent = m.nvContent := by
  unfold nvContent
  rw [nvName_of_mId hid, hfile]

/-- A backup is in files of its own. -/
theorem backup_spec (w : Outcome) (tid : BitVec 16) (file : U32) :
    Calm m (m.processMessage md5 w ⟨tid, .nvBackup file⟩).1 ∧
      (m.processMessage md5 w ⟨tid, .nvBackup file⟩).1.nvContent = m.nvContent := by
  obtain ⟨-, hbackup, hbackup', -⟩ := nvNames_own m.obj.mId
  unfold Machine.processMessage
  dsimp only
  by_cases hprotected : m.obj.cls = .nvProtectedFile
  · obtain ⟨flag, files, heq, hfiles⟩ := m.backup_eq md5 w
    rw [if_pos hprotected, heq]
    exact ⟨⟨Or.inl rfl, fun h => ⟨h, rfl, rfl, rfl⟩⟩,
      nvContent_of_files rfl (hfiles _ hbackup hbackup')⟩
  · rw [if_neg hprotected]
    exact ⟨⟨Or.inl rfl, fun h => ⟨h, rfl, rfl, rfl⟩⟩, rfl⟩

/-- **The step lemma.** A packet that stays within leaves the file as long
as it was, and keeps the invariant. -/
theorem Bounded.processMessage (h : Bounded m) (hcls : m.obj.cls ≠ .rfsFile) (hown : m.Own)
    (hbound : m.sys.Bound) {w : Outcome} (hwithin : m.WithinBounds md5 p w) :
    Bounded (m.processMessage md5 w p).1 ∧
      (m.processMessage md5 w p).1.nvContent.length = m.nvContent.length := by
  have hid : (m.processMessage md5 w p).1.obj.mId = m.obj.mId :=
    congrArg (·.2.1) (ident_processMessage md5 m w p)
  by_cases hwrite : ∃ status file data, p.body = .write status file data
  · obtain ⟨status, file, data, hbody⟩ := hwrite
    by_cases hdelivers : ∃ data, m.Delivers p data
    · obtain ⟨data, hdelivers⟩ := hdelivers
      obtain ⟨hsize, hfile, hpending⟩ := delivered md5 hcls w hdelivers
      have hcontent : (m.processMessage md5 w p).1.nvContent.length = m.nvContent.length := by
        have hlength := length_afterWrite h hown (hwithin.written data hdelivers)
        rw [← hfile] at hlength
        unfold nvContent
        rw [nvName_of_mId hid]
        exact hlength
      refine ⟨⟨?_, ?_, fun hio => ?_⟩, hcontent⟩
      · rw [hsize, hcontent]
        exact h.size
      · rw [hsize]
        exact h.small
      · -- what is left is below the size, and does not wrap
        have hleft := h.pending hdelivers.pending
        have hlength := hdelivers.length
        rw [hsize]
        rcases hpending hio with ⟨hoffset, hrest⟩ | ⟨hoffset, hrest⟩
        · omega
        · omega
    · obtain ⟨hcalm, hsys⟩ := calm_write md5 hcls w hbody fun data hd => hdelivers ⟨data, hd⟩
      have hcontent := nvContent_of_files (m := m) hid (by rw [hsys])
      exact ⟨h.calm hcalm hcontent, by rw [hcontent]⟩
  have hnowrite : ∀ status file data, p.body ≠ .write status file data :=
    fun status file data hb => hwrite ⟨status, file, data, hb⟩
  by_cases hbackup : ∃ file, p.body = .nvBackup file
  · obtain ⟨file, hbody⟩ := hbackup
    obtain ⟨tid, body⟩ := p
    obtain rfl : body = .nvBackup file := hbody
    obtain ⟨hcalm, hcontent⟩ := backup_spec md5 w tid file
    exact ⟨h.calm hcalm hcontent, by rw [hcontent]⟩
  have hnobackup : ∀ file, p.body ≠ .nvBackup file := fun file hb => hbackup ⟨file, hb⟩
  have hcontent := nvContent_of_files (m := m) hid
    (congrFun (steady_processMessage md5 w hcls hnowrite hnobackup).files _)
  refine ⟨?_, by rw [hcontent]⟩
  by_cases hrequest : (∃ file offset length io, p.body = .ioRequest file offset length io) ∧
      m.obj.mLastIo = .none
  · obtain ⟨⟨file, offset, length, io, hbody⟩, hidle⟩ := hrequest
    obtain ⟨tid, body⟩ := p
    obtain rfl : body = .ioRequest file offset length io := hbody
    have hanswered := request_spec md5 hcls hidle hown hbound w tid file offset length io
    refine ⟨?_, ?_, fun hio => ?_⟩
    · rw [hcontent]
      rcases hanswered.size with hsize | hsize
      · rw [hsize]
        exact h.size
      · rw [hsize]
        exact Nat.mod_le _ _
    · rcases hanswered.size with hsize | hsize
      · rw [hsize]
        exact h.small
      · rw [hsize]
        exact Nat.mod_lt _ (by decide)
    · obtain ⟨hoffset, hlength⟩ := hanswered.aimed hio
      rw [hoffset, hlength]
      exact hwithin.accepted file offset length io rfl hidle (Or.inr hio)
  · by_cases hbody : ∃ file offset length io, p.body = .ioRequest file offset length io
    · obtain ⟨file, offset, length, io, hbody⟩ := hbody
      have hblocked : m.blocked p := by
        refine ⟨fun hidle => hrequest ⟨⟨file, offset, length, io, hbody⟩, hidle⟩, Or.inr ?_⟩
        rw [hbody]
        rfl
      rw [processMessage_blocked md5 hblocked hnobackup] at hcontent ⊢
      exact h.calm (calm_of_obj rfl) hcontent
    · exact h.calm (calm_processMessage md5 hcls hown hbound w hnowrite hnobackup
        fun file offset length io hb => hbody ⟨file, offset, length, io, hb⟩) hcontent

theorem checkedSize_lt (h : Bounded m) : m.checkedSize < 2 ^ 32 := by
  unfold checkedSize
  split
  · exact Nat.mod_lt _ (by decide)
  · exact h.small

/-- **A packet stays within** where its request does not pass by overflow
and its bytes go where they should. -/
theorem Bounded.withinBounds_iff (h : Bounded m) (hcls : m.obj.cls ≠ .rfsFile) (hown : m.Own)
    (hbound : m.sys.Bound) (p : Packet) (w : Outcome) :
    m.WithinBounds md5 p w ↔ m.Unwrapped p w ∧ m.InPlace p w := by
  constructor
  · intro hwithin
    refine ⟨fun offset length io hbody hidle hserves hfits => ?_,
      fun data hdelivers pos n hstores _ => ?_⟩
    · obtain ⟨tid, body⟩ := p
      obtain rfl : body = .ioRequest m.obj.mId offset length io := hbody
      have hanswered := request_spec md5 hcls hidle hown hbound w tid m.obj.mId offset length io
      have hbegan := hanswered.began.mpr ⟨hfits, rfl, hserves⟩
      have hle := hwithin.accepted _ offset length io rfl hidle hbegan
      rw [hanswered.checked hbegan] at hle
      exact Nat.lt_of_le_of_lt hle (checkedSize_lt h)
    · rcases Nat.eq_zero_or_pos n with rfl | hn
      · exact Nat.zero_le _
      · have hlast := hwithin.written data hdelivers pos n hstores (pos + n - 1) (by omega)
          (by omega)
        omega
  · rintro ⟨hunwrapped, hinPlace⟩
    refine ⟨fun file offset length io hbody hidle hbegan => ?_,
      fun data hdelivers pos n hstores k hk hk' => ?_⟩
    · obtain ⟨tid, body⟩ := p
      obtain rfl : body = .ioRequest file offset length io := hbody
      have hanswered := request_spec md5 hcls hidle hown hbound w tid file offset length io
      obtain ⟨hfits, rfl, hserves⟩ := hanswered.began.mp hbegan
      have hsum := hunwrapped offset length io rfl hidle hserves hfits
      rw [hanswered.checked hbegan]
      rwa [BitVec.toNat_add, Nat.mod_eq_of_lt hsum] at hfits
    · by_cases hpos : pos = m.obj.mWriteOffset
      · -- what is left of the write lies below the size
        obtain ⟨e, -, -, -, l, -, hn⟩ := hstores
        have hleft := h.pending hdelivers.pending
        have hlength := hdelivers.length
        omega
      · have hroom := hinPlace data hdelivers pos n hstores hpos
        omega

end Request

end Machine

/-! ## Runs -/

/-- **What is to hold of a packet to the service**: it stays within the
file it is for, and no NV file is longer after it. -/
structure StaysWithin (sv : Service) (i : Packet × Outcome) : Prop where
  bounds : ∀ id, fileId i.1.body = some id → (sv.machine id).WithinBounds md5 i.1 i.2
  length : ∀ id, IsNv id →
    (((sv.processRfsPacket md5 i.1 i.2).sys.files (nvFileName id)).getD []).length =
      ((sv.sys.files (nvFileName id)).getD []).length

/-- **The condition on a packet.** -/
def Careful (sv : Service) (i : Packet × Outcome) : Prop :=
  ∀ id, fileId i.1.body = some id →
    (sv.machine id).Unwrapped i.1 i.2 ∧ (sv.machine id).InPlace i.1 i.2

/-- The packet is for an NV file, if it is for any. -/
def ForNv (i : Packet × Outcome) : Prop := ∀ id, fileId i.1.body = some id → IsNv id

/-- The invariant of the service. -/
structure Confined (sv : Service) : Prop where
  orderly : Orderly sv
  bounded : ∀ id, IsNv id → (sv.machine id).Bounded

section Runs

variable {sv : Service} {i : Packet × Outcome} {id j : U32}

theorem nvContent_machine (h : Orderly sv) (hid : IsNv id) :
    (sv.machine id).nvContent = (sv.sys.files (nvFileName id)).getD [] := by
  unfold Machine.nvContent
  rw [h.nvName hid]
  rfl

/-- What is done for one file leaves the others. -/
theorem files_of_other (h : Orderly sv) (hj : IsNv j) (hfile : fileId i.1.body = some j)
    (hid : IsNv id) (hne : id ≠ j) :
    (sv.processRfsPacket md5 i.1 i.2).sys.files (nvFileName id) =
      sv.sys.files (nvFileName id) := by
  have hserved := served_processMessage md5 i.2 (h.cls hj) (h.own j hj) h.bound i.1
  obtain ⟨happart, happart', -⟩ := nvNames_apart hid hj hne
  obtain ⟨-, hbackup, hbackup', -⟩ := nvNames_own id
  rw [processRfsPacket_eq md5 hj hfile]
  refine (congrFun (settle_files _) _).trans (hserved.other _ ?_ ?_ hbackup hbackup')
  · rw [h.nvName hj]
    exact happart
  · rw [h.nvName hj]
    exact happart'

/-- **The files stay as long as they are**, and the invariant holds. -/
theorem Confined.step (h : Confined sv) (hi : ForNv i)
    (hwithin : ∀ id, fileId i.1.body = some id → (sv.machine id).WithinBounds md5 i.1 i.2) :
    Confined (sv.processRfsPacket md5 i.1 i.2) ∧ StaysWithin md5 sv i := by
  have horderly := h.orderly.processRfsPacket md5 (p := i.1) i.2 hi
  cases hfile : fileId i.1.body with
  | none =>
    have hsame : sv.processRfsPacket md5 i.1 i.2 = sv := by
      unfold Service.processRfsPacket
      rw [hfile]
    rw [hsame]
    exact ⟨h, hwithin, fun id _ => by rw [hsame]⟩
  | some j =>
    have hj := hi j hfile
    obtain ⟨hbounded, hlength⟩ := (h.bounded j hj).processMessage md5 (h.orderly.cls hj)
      (h.orderly.own j hj) h.orderly.bound (hwithin j hfile)
    have hmachine : (sv.processRfsPacket md5 i.1 i.2).machine j =
        (Slot.settle ((sv.machine j).processMessage md5 i.2 i.1)).machine j := by
      rw [processRfsPacket_eq md5 hj hfile, machine_put_self]
    have hcontent : (((sv.processRfsPacket md5 i.1 i.2).sys.files (nvFileName j)).getD []).length =
        ((sv.sys.files (nvFileName j)).getD []).length := by
      have hid : ((sv.machine j).processMessage md5 i.2 i.1).1.nvName = nvFileName j := by
        rw [← h.orderly.nvName hj]
        exact nvName_of_mId (congrArg (·.2.1) (ident_processMessage md5 _ i.2 i.1))
      rw [← nvContent_machine h.orderly hj, ← hlength, processRfsPacket_eq md5 hj hfile]
      unfold Machine.nvContent
      rw [hid]
      exact congrArg (fun f => (Option.getD (f (nvFileName j)) []).length) (settle_files _)
    refine ⟨⟨horderly, fun id hid => ?_⟩, ⟨hwithin, fun id hid => ?_⟩⟩
    · by_cases hne : id = j
      · subst hne
        rw [hmachine]
        rcases settle_cases ((sv.machine id).processMessage md5 i.2 i.1) id with heq | heq
        · rw [heq]
          exact hbounded
        · rw [heq]
          exact ⟨Nat.zero_le _, (by decide : 0 < 2 ^ 32), fun hio => Io.noConfusion hio⟩
      · have hold := h.bounded id hid
        have hfiles := files_of_other md5 h.orderly hj hfile hid hne
        have hobj : ((sv.processRfsPacket md5 i.1 i.2).machine id).obj = (sv.machine id).obj := by
          rw [processRfsPacket_eq md5 hj hfile, machine_put_ne hne]
        have hkept : ((sv.processRfsPacket md5 i.1 i.2).machine id).nvContent =
            (sv.machine id).nvContent := by
          rw [nvContent_machine horderly hid, nvContent_machine h.orderly hid, hfiles]
        exact hold.calm (calm_of_obj hobj) hkept
    · by_cases hne : id = j
      · rw [hne]
        exact hcontent
      · rw [files_of_other md5 h.orderly hj hfile hid hne]

theorem Confined.within_iff_careful (h : Confined sv) (hi : ForNv i) :
    StaysWithin md5 sv i ↔ Careful sv i := by
  have hiff : ∀ id, fileId i.1.body = some id →
      ((sv.machine id).WithinBounds md5 i.1 i.2 ↔
        (sv.machine id).Unwrapped i.1 i.2 ∧ (sv.machine id).InPlace i.1 i.2) := fun id hfile =>
    (h.bounded id (hi id hfile)).withinBounds_iff md5 (h.orderly.cls (hi id hfile))
      (h.orderly.own id (hi id hfile)) h.orderly.bound i.1 i.2
  constructor
  · exact fun hwithin id hfile => (hiff id hfile).mp (hwithin.bounds id hfile)
  · exact fun hcareful => (h.step md5 hi fun id hfile => (hiff id hfile).mpr (hcareful id hfile)).2

/-- A service that has started has taken no size. -/
theorem confined_boot (toc : List TocRecord) (w : Outcome) (files : Name → Option (List BYTE)) :
    Confined (Service.boot md5 toc w files) := by
  have hempty : ∀ m : Machine, m.obj.mSize = 0 → m.obj.mLastIo = .none → m.Bounded := by
    intro m hsize hio
    refine ⟨by rw [hsize]; exact Nat.zero_le _, by rw [hsize]; decide, fun hwrite => ?_⟩
    exact Io.noConfusion (hio.symm.trans hwrite)
  have htouched : ∀ {m m' : Machine}, Touched toc m m' → m'.obj.mSize = m.obj.mSize ∧
      m'.obj.mLastIo = m.obj.mLastIo := by
    intro m m' ht
    rcases ht.obj with hobj | ⟨size, -, hobj⟩
    · rw [hobj]
      exact ⟨rfl, rfl⟩
    · rw [hobj]
      exact ⟨rfl, rfl⟩
  refine ⟨orderly_boot md5 toc w files, fun id _ => ?_⟩
  obtain ⟨hnormal, hnormal'⟩ :=
    htouched (touched_touchNvFile md5 toc w ((unbooted toc files).machine nvNormal))
  have hput : ∀ (sv : Service) (m : Machine), m.obj.mSize = 0 → m.obj.mLastIo = .none →
      ∀ j, (sv.machine id).obj.mSize = 0 ∧ (sv.machine id).obj.mLastIo = .none →
        ((sv.put j (.of m)).machine id).obj.mSize = 0 ∧
          ((sv.put j (.of m)).machine id).obj.mLastIo = .none := by
    intro sv m hsize hio j hold
    by_cases hne : id = j
    · subst hne
      rw [machine_put_self]
      exact ⟨hsize, hio⟩
    · rw [machine_put_ne hne]
      exact hold
  have hfirst := hput (unbooted toc files)
    (((unbooted toc files).machine nvNormal).touchNvFile md5 toc w).1 hnormal hnormal' nvNormal
    ⟨rfl, rfl⟩
  rw [boot_eq]
  split
  · obtain ⟨hprotected, hprotected'⟩ := htouched (touched_touchNvProtectedFile md5 toc w
      ⟨allocFile nvProtected, (((unbooted toc files).machine nvNormal).touchNvFile md5 toc w).1.sys,
        (((unbooted toc files).machine nvNormal).touchNvFile md5 toc w).1.sent⟩)
    have hsecond := hput _ _ hprotected hprotected' nvProtected hfirst
    exact hempty _ hsecond.1 hsecond.2
  · exact hempty _ hfirst.1 hfirst.2

/-- **When the NV files keep their bounds.** From any files and any table of
contents, with any answers of the system and whatever numbers the kernel
gives, for every run of packets on the NV files behind `CheckNvFiles` that
meets no number given again. -/
theorem staysWithin_iff (number : ℕ → ℕ) (toc : List TocRecord) (w₀ : Outcome)
    (files : Name → Option (List BYTE)) {inputs : List (Packet × Outcome)}
    (hnv : ∀ i ∈ inputs, ForNv i)
    (hheld : Run.Throughout (Service.serve md5 number) (fun sv i => sv.Holds number i.1)
      (Service.boot md5 toc w₀ files) inputs) :
    Run.Throughout (Service.serve md5 number)
        (fun sv i => StaysWithin md5 (sv.rebind number i.1) i)
        (Service.boot md5 toc w₀ files) inputs ↔
      Run.Throughout (Service.serve md5 number) Careful
        (Service.boot md5 toc w₀ files) inputs := by
  have hall := (Run.Throughout.of_forall (Service.boot md5 toc w₀ files) hnv).and hheld
  have hiff : Run.Throughout (Service.serve md5 number)
        (fun sv i => StaysWithin md5 (sv.rebind number i.1) i ∧ ForNv i ∧ sv.Holds number i.1)
        (Service.boot md5 toc w₀ files) inputs ↔
      Run.Throughout (Service.serve md5 number)
        (fun sv i => Careful sv i ∧ ForNv i ∧ sv.Holds number i.1)
        (Service.boot md5 toc w₀ files) inputs := by
    refine Run.Throughout.iff_of_invariant (P := Confined) (fun sv i h hi => ?_)
      (fun sv i h => and_congr_left fun hi => ?_) (confined_boot md5 toc w₀ files)
    · rw [Service.rebind_eq hi.2.2] at hi
      rw [Service.serve_eq md5 hi.2.2]
      exact (h.step md5 hi.2.1 hi.1.bounds).1
    · rw [Service.rebind_eq hi.2]
      exact h.within_iff_careful md5 hi.1
  constructor
  · exact fun h => (hiff.mp (h.and hall)).mono fun _ _ hi => hi.1
  · exact fun h => (hiff.mpr (h.and hall)).mono fun _ _ hi => hi.1

end Runs

theorem careful_of_ne {sv : Service} {i : Packet × Outcome}
    (hrequest : ∀ file offset length io, i.1.body ≠ .ioRequest file offset length io)
    (hwrite : ∀ status file data, i.1.body ≠ .write status file data) : Careful sv i :=
  fun _ _ => ⟨fun offset length io hbody => absurd hbody (hrequest _ offset length io),
    fun data hdelivers => absurd hdelivers.body (hwrite _ _ data)⟩

theorem forNv_of_normal {inputs : List (Packet × Outcome)}
    (h : ∀ i ∈ inputs, fileId i.1.body = some nvNormal) : ∀ i ∈ inputs, ForNv i := by
  intro i hi id hid
  exact Or.inl (Option.some.inj (hid.symm.trans (h i hi)))

set_option maxRecDepth 2000 in
/-- The normal file is opened, and a byte is written. -/
theorem staysWithin_firstByte :
    Run.Throughout (Service.serve fewDigits id)
      (fun sv i => StaysWithin fewDigits (sv.rebind id i.1) i)
      (Service.boot fewDigits smallToc willing fun _ => none) (openNormal 1 ++ writeNormal 2) := by
  refine (staysWithin_iff fewDigits id smallToc willing (fun _ => none)
    (forNv_of_normal (by decide)) (Run.Throughout.of_all _ _ fun sv i => holds_id sv i.1)).mpr
    ⟨careful_of_ne (by simp) (by simp), careful_of_ne (by simp) (by simp), ?_, ?_, trivial⟩
  · intro id hid
    refine ⟨fun offset length io hbody _ _ _ => ?_, fun data hdelivers => ?_⟩
    · obtain ⟨-, rfl, rfl, -⟩ := Body.ioRequest.inj hbody
      decide
    · exact absurd hdelivers.body (by simp)
  · intro id hid
    obtain rfl : nvNormal = id := Option.some.inj hid
    refine ⟨fun offset length io hbody => absurd hbody (by simp), fun data _ pos n hstores => ?_⟩
    obtain ⟨e, he, -, hpos, -⟩ := hstores
    have hfind : some (⟨text "nv_normal.bin", 0, false, true⟩ : Description Name) = some e := by
      rw [← he]
      decide
    obtain rfl := Option.some.inj hfind
    exact fun hne => absurd hpos hne

/-- A request from the end of the file, and a byte for it. -/
def wrappedRequest : List (Packet × Outcome) :=
  openNormal 1 ++ [(⟨2, .ioRequest nvNormal 16 0xFFFFFFF0 ioWrite⟩, willing),
    (⟨2, .write statusSuccess nvNormal [1]⟩, willing)]

set_option maxRecDepth 2000 in
/-- **A request of more than the file is accepted**, and the file grows. -/
theorem not_staysWithin_wrappedRequest :
    (∀ i ∈ wrappedRequest, ForNv i) ∧
      ¬ Run.Throughout (Service.serve fewDigits id)
        (fun sv i => StaysWithin fewDigits (sv.rebind id i.1) i)
        (Service.boot fewDigits smallToc willing fun _ => none) wrappedRequest := by
  refine ⟨forNv_of_normal (by decide), ?_⟩
  rintro ⟨-, -, -, h, -⟩
  exact absurd (h.length nvNormal (Or.inl rfl)) (by decide)

end ExynosVendor.Rfs
