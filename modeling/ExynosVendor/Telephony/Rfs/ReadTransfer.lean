import ExynosVendor.Common.Run
import ExynosVendor.Telephony.Rfs.Commands

/-!
# Reading a file

A request is answered by frames, each sent when the one before is
acknowledged, and whatever comes in between is to change nothing.
`Reading` is what holds while a frame is not acknowledged, and
`transfers_iff` says of which requests the modem gets the bytes.
-/

namespace ExynosVendor.Rfs

open Ril (BYTE)
open Descriptor Machine
open List

variable (md5 : List BYTE → List BYTE)

/-! ## What is to hold -/

/-- The header and the lengths of a frame. -/
structure ReadFrame.WellFormed (id : U32) (tid : BitVec 16) (f : ReadFrame) : Prop where
  tid : f.tid = tid
  file : f.file = id
  length : f.length = f.data.length
  len : f.len = readSize + f.data.length
  sent : f.sent = headerSize + f.len
  allocated : f.sent ≤ f.allocated
  pos : 0 < f.data.length
  payload : f.data.length ≤ framePayloadSize

/-- Frames of one transfer, each with the offset behind the one before;
`position` is how an offset stands in a frame. -/
def InOrder (position : ℕ → ℕ) (id : U32) (tid : BitVec 16) : ℕ → List ReadFrame → Prop
  | _, [] => True
  | offset, f :: frames =>
      f.WellFormed id tid ∧ f.offset = position offset ∧
        InOrder position id tid (offset + f.data.length) frames

/-- The frames among messages. -/
def framesOf (messages : List Message) : List ReadFrame :=
  messages.filterMap fun msg => match msg with
    | .read f => some f
    | _ => none

/-- The bytes that frames carry. -/
def payload (frames : List ReadFrame) : List BYTE := frames.flatMap ReadFrame.data

/-- The acknowledgement of a frame. -/
def Acknowledges (id : U32) (tid : BitVec 16) (p : Packet) : Prop :=
  p = ⟨tid, .read statusSuccess id⟩

instance (id : U32) (tid : BitVec 16) (p : Packet) : Decidable (Acknowledges id tid p) :=
  inferInstanceAs (Decidable (_ = _))

/-- The number of acknowledgements. -/
def acks (id : U32) (tid : BitVec 16) (inputs : List (Packet × Outcome)) : ℕ :=
  inputs.countP fun i => Acknowledges id tid i.1

/-- **What may come while a transfer is pending**: any packet but a status
of the transaction; of its frames, none is refused. -/
def Admissible (id : U32) (tid : BitVec 16) (p : Packet) : Prop :=
  match p.body with
  | .opStatus _ _ => p.tid ≠ tid
  | .read status file => p.tid = tid → file = id → status = statusSuccess
  | _ => True

/-- Reads give something. -/
def Reads (w : Outcome) : Prop := ∃ l, w.readLimit = some l ∧ 0 < l

/-- One packet. -/
def Slot.feed (id : U32) (s : Slot) (i : Packet × Outcome) : Slot :=
  s.processRfsPacket md5 id i.1 i.2

/-- A command is pending. -/
def Pending (s : Slot) : Prop := ∃ o, s.file = some o ∧ o.mLastIo ≠ .none

/-- A file opened for an object with no command pending. -/
structure Opened (s : Slot) (o : RfsFile) (e : Description Name) : Prop where
  file : s.file = some o
  mState : o.mState ≠ .closed
  mLastIo : o.mLastIo = .none
  find : s.sys.find o.mFd = some e
  name : o.cls = .nvProtectedFile → e.name = nvFileName o.mId

/-- **A read transfer as it is to be.** After the request and any packets
while it is pending, the frames are in order; when every frame was
acknowledged they carry the bytes and nothing is pending, and until then
one frame waits. -/
def Transfers (s : Slot) (id : U32) (content : List BYTE) (tid : BitVec 16)
    (offset length : U32) : Prop :=
  ∀ (w : Outcome) (inputs : List (Packet × Outcome)), Reads w →
    (∀ i ∈ inputs, Admissible id tid i.1 ∧ Reads i.2) →
    let requested := s.feed md5 id (⟨tid, .ioRequest id offset length ioRead⟩, w)
    Run.Throughout (Slot.feed md5 id) (fun s _ => Pending s) requested inputs →
    ∃ o, (inputs.foldl (Slot.feed md5 id) requested).file = some o ∧
      let sent := (inputs.foldl (Slot.feed md5 id) requested).sent
      let frames := framesOf (sent.drop s.sent.length)
      InOrder (fun a => a) id tid offset.toNat frames ∧
      if frames.length = acks id tid inputs then
        payload frames = File.load 0 content offset.toNat length.toNat ∧
          o.mLastIo = .none ∧ o.mReadLength = 0
      else o.mLastIo = .read ∧ frames.length = acks id tid inputs + 1 ∧
        acks id tid inputs < length.toNat

/-- The object takes a request for I/O: the file is not the protected one
in its protected state, and an NV file is asked for no more than its size
when it was opened. -/
def Takes (o : RfsFile) (offset length : U32) : Prop :=
  (o.cls = .nvProtectedFile → o.mState ≠ .openedProtected) ∧
    (o.cls ≠ .rfsFile → (offset + length).toNat ≤ o.mSize)

instance (o : RfsFile) (offset length : U32) : Decidable (Takes o offset length) :=
  inferInstanceAs (Decidable (_ ∧ _))

/-- **The condition.** Besides, the offset is one `lseek` can return in an
`int`, and no frame needs one beyond a `u32`. -/
def Serves (o : RfsFile) (offset length : U32) : Prop :=
  Takes o offset length ∧ offset.toNat < 2 ^ 31 ∧ offset.toNat + length.toNat ≤ 2 ^ 32

instance (o : RfsFile) (offset length : U32) : Decidable (Serves o offset length) :=
  inferInstanceAs (Decidable (_ ∧ _))

/-! ## Frames in order -/

theorem framesOf_append (a b : List Message) : framesOf (a ++ b) = framesOf a ++ framesOf b :=
  filterMap_append

theorem payload_append (a b : List ReadFrame) : payload (a ++ b) = payload a ++ payload b :=
  flatMap_append

theorem payload_singleton (f : ReadFrame) : payload [f] = f.data := append_nil _

section InOrder

variable {position : ℕ → ℕ} {id : U32} {tid : BitVec 16}

theorem inOrder_append (offset : ℕ) (frames : List ReadFrame) (f : ReadFrame) :
    InOrder position id tid offset (frames ++ [f]) ↔
      InOrder position id tid offset frames ∧ f.WellFormed id tid ∧
        f.offset = position (offset + (payload frames).length) := by
  induction frames generalizing offset with
  | nil => simp [InOrder, payload]
  | cons g frames ih =>
    have hlen : offset + (payload (g :: frames)).length =
        offset + g.data.length + (payload frames).length := by
      rw [show payload (g :: frames) = g.data ++ payload frames from rfl, length_append]
      omega
    simp only [cons_append, InOrder, ih, hlen, and_assoc]

variable {frames : List ReadFrame}

theorem length_le_payload {offset : ℕ} (h : InOrder position id tid offset frames) :
    frames.length ≤ (payload frames).length := by
  induction frames generalizing offset with
  | nil => exact Nat.le_refl _
  | cons f frames ih =>
    have hrest := ih h.2.2
    have hpos := h.1.pos
    rw [show payload (f :: frames) = f.data ++ payload frames from rfl, length_append, length_cons]
    omega

/-- The offsets stand in the frames as they are, when they all fit. -/
theorem InOrder.unwrapped {offset : ℕ} (h : InOrder (· % 2 ^ 32) id tid offset frames)
    (hle : offset + (payload frames).length ≤ 2 ^ 32) :
    InOrder (fun a => a) id tid offset frames := by
  induction frames generalizing offset with
  | nil => trivial
  | cons f frames ih =>
    obtain ⟨hf, hoffset, hrest⟩ := h
    have hpos := hf.pos
    rw [show payload (f :: frames) = f.data ++ payload frames from rfl, length_append] at hle
    refine ⟨hf, ?_, ih hrest (by omega)⟩
    rw [hoffset]
    exact Nat.mod_eq_of_lt (by omega)

end InOrder

/-! ## One frame -/

section Transfer

variable {id : U32} {tid : BitVec 16} {content : List BYTE} {offset length : ℕ} {before : ℕ}
variable {m : Machine}

/-- How many bytes the next frame carries. -/
def chunk (left limit : ℕ) : ℕ := min (min left framePayloadSize) limit

/-- The object's file, whose content and position are known. -/
structure At (content : List BYTE) (pos : ℕ) (m : Machine) : Prop where
  find : ∃ e, m.sys.find m.obj.mFd = some e ∧ m.sys.content e = content ∧ e.pos = pos ∧
    (m.obj.cls = .nvProtectedFile → e.name = nvFileName m.obj.mId)
  mState : m.obj.mState ≠ .closed

/-- **While the transfer is pending**: `done` bytes were sent, in `count`
frames. -/
structure Reading (id : U32) (tid : BitVec 16) (content : List BYTE) (offset length before : ℕ)
    (done count : ℕ) (m : Machine) : Prop where
  file : At content (offset + done) m
  mId : m.obj.mId = id
  mTransaction : m.obj.mTransaction = tid
  mLastIo : m.obj.mLastIo = .read
  mReadLength : m.obj.mReadLength + done = length
  mReadOffset : m.obj.mReadOffset = (offset + done) % 2 ^ 32
  sent : before ≤ m.sent.length
  inOrder : InOrder (· % 2 ^ 32) id tid offset (framesOf (m.sent.drop before))
  payload : payload (framesOf (m.sent.drop before)) = File.load 0 content offset done
  count : (framesOf (m.sent.drop before)).length = count

/-- **And when every byte was acknowledged.** -/
structure Done (id : U32) (tid : BitVec 16) (content : List BYTE) (offset length before : ℕ)
    (count : ℕ) (m : Machine) : Prop where
  mLastIo : m.obj.mLastIo = .none
  mReadLength : m.obj.mReadLength = 0
  inOrder : InOrder (· % 2 ^ 32) id tid offset (framesOf (m.sent.drop before))
  payload : payload (framesOf (m.sent.drop before)) = File.load 0 content offset length
  count : (framesOf (m.sent.drop before)).length = count

variable {w : Outcome}

/-- **The next frame.** -/
theorem read_spec {pos l : ℕ} (h : At content pos m) (hl : w.readLimit = some l) (hpos : 0 < l)
    (hleft : 0 < m.obj.mReadLength) (hle : pos + m.obj.mReadLength ≤ content.length) :
    ∃ f : ReadFrame, f.WellFormed m.obj.mId m.obj.mTransaction ∧ f.offset = m.obj.mReadOffset ∧
      f.data = File.load 0 content pos (chunk m.obj.mReadLength l) ∧
      (m.read w).sent = m.sent ++ [.read f] ∧
      (m.read w).obj = { m.obj with
        mReadLength := m.obj.mReadLength - chunk m.obj.mReadLength l
        mReadOffset := (m.obj.mReadOffset + chunk m.obj.mReadLength l) % 2 ^ 32 } ∧
      At content (pos + chunk m.obj.mReadLength l) (m.read w) := by
  obtain ⟨⟨e, hfind, hcontent, rfl, hname⟩, hstate⟩ := h
  have hchunk : 0 < chunk m.obj.mReadLength l ∧ chunk m.obj.mReadLength l ≤ m.obj.mReadLength ∧
      chunk m.obj.mReadLength l ≤ min m.obj.mReadLength framePayloadSize := by
    unfold chunk framePayloadSize
    omega
  have hdata : ((m.sys.content e).drop e.pos).take
      (min (min m.obj.mReadLength framePayloadSize) l) =
        File.load 0 content e.pos (chunk m.obj.mReadLength l) := by
    rw [hcontent, File.load_eq_take_drop 0 (by omega)]
    rfl
  have hread := System.read_eq hfind (min m.obj.mReadLength framePayloadSize) l
  rw [hdata, File.length_load] at hread
  have hne : File.load 0 content e.pos (chunk m.obj.mReadLength l) ≠ [] := by
    intro hnil
    have := File.length_load 0 content e.pos (chunk m.obj.mReadLength l)
    rw [hnil, length_nil] at this
    omega
  unfold Machine.read
  dsimp only
  rw [hl, hread]
  dsimp only [Option.getD_some]
  rw [if_neg hne, File.length_load]
  refine ⟨_, ⟨rfl, rfl, ?_, ?_, ?_, ?_, ?_, ?_⟩, rfl, rfl, rfl, rfl, ?_, hstate⟩
  · exact (File.length_load _ _ _ _).symm
  · show headerSize + readSize + min m.obj.mReadLength framePayloadSize - headerSize -
      (min m.obj.mReadLength framePayloadSize - chunk m.obj.mReadLength l) =
        readSize + (File.load 0 content e.pos (chunk m.obj.mReadLength l)).length
    rw [File.length_load]
    omega
  · show headerSize + readSize + min m.obj.mReadLength framePayloadSize -
      (min m.obj.mReadLength framePayloadSize - chunk m.obj.mReadLength l) =
        headerSize + (headerSize + readSize + min m.obj.mReadLength framePayloadSize -
          headerSize - (min m.obj.mReadLength framePayloadSize - chunk m.obj.mReadLength l))
    omega
  · exact Nat.sub_le _ _
  · show 0 < (File.load 0 content e.pos (chunk m.obj.mReadLength l)).length
    rw [File.length_load]
    exact hchunk.1
  · show (File.load 0 content e.pos (chunk m.obj.mReadLength l)).length ≤ framePayloadSize
    rw [File.length_load]
    omega
  · have hlive : m.sys.Live m.obj.mFd := by
      rw [System.Live, hfind]
      rfl
    exact ⟨_, System.find_describe hlive _, hcontent, rfl, hname⟩

/-! ## What changes nothing -/

/-- Nothing a transfer depends on has changed: the object, but for the
flag of a delayed backup, its file, and the frames sent. -/
structure Silent (m m' : Machine) : Prop where
  obj : ∃ flag, m'.obj = { m.obj with mBackupFlag := flag }
  opened : m'.sys.opened = m.sys.opened
  closed : m'.sys.closed = m.sys.closed
  files : ∀ name, (m.obj.cls = .nvProtectedFile → name = nvFileName m.obj.mId) →
    m'.sys.files name = m.sys.files name
  sent : ∃ messages, m'.sent = m.sent ++ messages ∧ framesOf messages = []

theorem silent_refl (m : Machine) : Silent m m :=
  ⟨⟨m.obj.mBackupFlag, rfl⟩, rfl, rfl, fun _ _ => rfl, [], (append_nil _).symm, rfl⟩

theorem silent_statusOf (m : Machine) (tid : BitVec 16) (error : U32) :
    Silent m (m.statusOf tid error) :=
  ⟨⟨m.obj.mBackupFlag, rfl⟩, rfl, rfl, fun _ _ => rfl, _, rfl, rfl⟩

theorem nvFileName_ne_backup (id : U32) :
    nvFileName id ≠ backupName ∧ nvFileName id ≠ csumName backupName := by
  unfold nvFileName
  split_ifs <;> decide

theorem silent_backup (w : Outcome) (hcls : m.obj.cls = .nvProtectedFile) :
    Silent m (m.backup md5 w).1 := by
  obtain ⟨flag, files, heq, hfiles⟩ := m.backup_eq md5 w
  obtain ⟨hbackup, hcsum⟩ := nvFileName_ne_backup m.obj.mId
  rw [heq]
  refine ⟨⟨flag, rfl⟩, rfl, rfl, fun name hname => ?_, [], (append_nil _).symm, rfl⟩
  rw [hname hcls]
  exact hfiles _ hbackup hcsum

theorem At.silent {pos : ℕ} {m' : Machine} (h : At content pos m) (hs : Silent m m') :
    At content pos m' := by
  obtain ⟨⟨e, hfind, hcontent, hpos, hname⟩, hstate⟩ := h
  obtain ⟨flag, hobj⟩ := hs.obj
  refine ⟨⟨e, ?_, ?_, hpos, by rw [hobj]; exact hname⟩, by rw [hobj]; exact hstate⟩
  · rw [← hfind, hobj]
    unfold System.find System.lookup
    rw [hs.opened, hs.closed]
  · rw [← hcontent]
    exact congrArg (Option.getD · []) (hs.files e.name hname)

theorem drop_append_frames {messages : List Message} (h : before ≤ m.sent.length) :
    framesOf ((m.sent ++ messages).drop before) =
      framesOf (m.sent.drop before) ++ framesOf messages := by
  rw [drop_append_of_le_length h, framesOf_append]

theorem Reading.silent {count done : ℕ} {m' : Machine}
    (h : Reading id tid content offset length before done count m) (hs : Silent m m') :
    Reading id tid content offset length before done count m' := by
  obtain ⟨flag, hobj⟩ := hs.obj
  obtain ⟨messages, hsent, hnone⟩ := hs.sent
  have hframes : framesOf (m'.sent.drop before) = framesOf (m.sent.drop before) := by
    rw [hsent, drop_append_frames h.sent, hnone, append_nil]
  refine ⟨h.file.silent hs, ?_, ?_, ?_, ?_, ?_, ?_, ?_, ?_, ?_⟩
  · rw [hobj]; exact h.mId
  · rw [hobj]; exact h.mTransaction
  · rw [hobj]; exact h.mLastIo
  · rw [hobj]; exact h.mReadLength
  · rw [hobj]; exact h.mReadOffset
  · rw [hsent, length_append]
    exact Nat.le_trans h.sent (Nat.le_add_right _ _)
  · rw [hframes]; exact h.inOrder
  · rw [hframes]; exact h.payload
  · rw [hframes]; exact h.count

/-! ## A packet while the transfer is pending -/

/-- An open object, whatever its class, continues a transfer. -/
theorem processMessage_read {status file : U32} (hs : m.obj.mState ≠ .closed)
    (htid : m.obj.mTransaction = tid) :
    m.processMessage md5 w ⟨tid, .read status file⟩ = (m.readResponse w status file).finish := by
  have hblocked : ¬ m.blocked ⟨tid, .read status file⟩ := by
    rintro ⟨-, ⟨hne, -⟩ | hp⟩
    · exact hne htid
    · exact Bool.noConfusion hp
  refine (if_neg hblocked).trans ?_
  cases m.obj.cls with
  | rfsFile => exact if_neg hs
  | nvFile => exact if_neg hs
  | nvProtectedFile =>
    refine (if_neg hs).trans ?_
    by_cases hs' : m.obj.mState = .openedProtected
    · exact if_pos hs'
    · exact if_neg hs'

/-- A write response to a transfer that is none is refused. -/
theorem processMessage_write {status file : U32} {data : List BYTE} (hs : m.obj.mState ≠ .closed)
    (hio : m.obj.mLastIo ≠ .write) (htid : m.obj.mTransaction = tid) :
    m.processMessage md5 w ⟨tid, .write status file data⟩ = m.refuse tid := by
  have hblocked : ¬ m.blocked ⟨tid, .write status file data⟩ := by
    rintro ⟨-, ⟨hne, -⟩ | hp⟩
    · exact hne htid
    · exact Bool.noConfusion hp
  have hresponse : (m.writeResponse md5 w status file data).finish = m.refuse tid := by
    unfold Machine.writeResponse
    rw [if_pos hio, finish_opened (m := m.status statusInvalidParam) hs]
    unfold Machine.status Machine.refuse
    rw [htid]
  refine (if_neg hblocked).trans ?_
  cases m.obj.cls with
  | rfsFile => exact (if_neg hs).trans hresponse
  | nvFile => exact (if_neg hs).trans hresponse
  | nvProtectedFile =>
    refine (if_neg hs).trans ?_
    by_cases hs' : m.obj.mState = .openedProtected
    · exact if_pos hs'
    · exact (if_neg hs').trans hresponse

/-- **What is no acknowledgement changes nothing.** -/
theorem processMessage_silent {p : Packet} (hs : m.obj.mState ≠ .closed)
    (hio : m.obj.mLastIo = .read) (hadm : Admissible m.obj.mId m.obj.mTransaction p)
    (hack : ¬ Acknowledges m.obj.mId m.obj.mTransaction p) :
    (m.processMessage md5 w p).2 = .keep ∧ Silent m (m.processMessage md5 w p).1 := by
  have hpending : m.obj.mLastIo ≠ .none := by simp [hio]
  have hrefuse : ∀ tid, (m.refuse tid).2 = .keep ∧ Silent m (m.refuse tid).1 := fun tid =>
    ⟨rfl, silent_statusOf m tid _⟩
  obtain ⟨tid, body⟩ := p
  cases body with
  | nvBackup file =>
    by_cases hcls : m.obj.cls = .nvProtectedFile
    · refine ⟨rfl, ?_⟩
      show Silent m (if m.obj.cls = .nvProtectedFile then (m.backup md5 w).1 else m)
      rw [if_pos hcls]
      exact silent_backup md5 w hcls
    · refine ⟨rfl, ?_⟩
      show Silent m (if m.obj.cls = .nvProtectedFile then (m.backup md5 w).1 else m)
      rw [if_neg hcls]
      exact silent_refl m
  | opStatus status file =>
    obtain ⟨settled, -, heq⟩ :=
      exists_processMessage_opStatus (m := m) md5 w tid status file
    have htid : m.obj.mTransaction ≠ tid := fun hc => hadm hc.symm
    rw [heq]
    unfold Machine.opStatus
    by_cases hfile : m.obj.mId ≠ file
    · rw [if_pos hfile]
      exact hrefuse tid
    · rw [if_neg hfile, if_pos htid, finish_opened hs]
      exact ⟨rfl, silent_refl m⟩
  | read status file =>
    by_cases htid : m.obj.mTransaction = tid
    · rw [processMessage_read md5 hs htid]
      by_cases hfile : m.obj.mId = file
      · have hstatus := hadm htid.symm hfile.symm
        exact absurd (by rw [hstatus, htid, hfile]; rfl) hack
      · have hresponse : m.readResponse w status file = m.status statusInvalidParam := by
          unfold Machine.readResponse
          rw [if_neg (not_not.mpr hio), if_pos hfile]
        rw [hresponse, finish_opened (m := m.status statusInvalidParam) hs]
        exact ⟨rfl, silent_statusOf m _ _⟩
    · rw [processMessage_blocked md5 ⟨hpending, Or.inl ⟨htid, by simp⟩⟩ (by simp)]
      exact hrefuse tid
  | write status file data =>
    by_cases htid : m.obj.mTransaction = tid
    · rw [processMessage_write md5 hs (by simp [hio]) htid]
      exact hrefuse tid
    · rw [processMessage_blocked md5 ⟨hpending, Or.inl ⟨htid, by simp⟩⟩ (by simp)]
      exact hrefuse tid
  | openFile | closeFile | ioRequest | nvUnprotect | nvProtect | other =>
    rw [processMessage_blocked md5 ⟨hpending, Or.inr rfl⟩ (by simp)]
    exact hrefuse tid

/-- **The step of a transfer.** -/
theorem Reading.read {count done l : ℕ}
    (h : Reading id tid content offset length before done count m) (hl : w.readLimit = some l)
    (hpos : 0 < l) (hleft : done < length) (hle : offset + length ≤ content.length) :
    Reading id tid content offset length before (done + chunk (length - done) l) (count + 1)
      (m.read w) := by
  have hlength := h.mReadLength
  have hleft' : m.obj.mReadLength = length - done := by omega
  obtain ⟨f, hf, hoffset, hdata, hsent, hobj, hfile⟩ :=
    read_spec h.file hl hpos (by omega) (by omega)
  have hchunk : chunk (length - done) l ≤ length - done := by
    unfold chunk
    omega
  have hframes : framesOf ((m.read w).sent.drop before) =
      framesOf (m.sent.drop before) ++ [f] := by
    rw [hsent, drop_append_frames h.sent]
    rfl
  have hsofar : (Rfs.payload (framesOf (m.sent.drop before))).length = done := by
    rw [h.payload, File.length_load]
  rw [hleft'] at hobj hfile hdata
  refine ⟨?_, ?_, ?_, ?_, ?_, ?_, ?_, ?_, ?_, ?_⟩
  · rw [← Nat.add_assoc]
    exact hfile
  · rw [hobj]
    exact h.mId
  · rw [hobj]
    exact h.mTransaction
  · rw [hobj]
    exact h.mLastIo
  · rw [hobj]
    show length - done - chunk (length - done) l + (done + chunk (length - done) l) = length
    omega
  · rw [hobj]
    show (m.obj.mReadOffset + chunk (length - done) l) % 2 ^ 32 = _
    rw [h.mReadOffset, Nat.mod_add_mod, Nat.add_assoc]
  · rw [hsent, length_append]
    exact Nat.le_trans h.sent (Nat.le_add_right _ _)
  · rw [hframes, inOrder_append, hsofar]
    exact ⟨h.inOrder, h.mId ▸ h.mTransaction ▸ hf, hoffset.trans h.mReadOffset⟩
  · rw [hframes, payload_append, payload_singleton, h.payload, hdata, File.load_add]
  · rw [hframes, length_append, h.count]
    rfl

/-- **An acknowledgement** brings the next frame, or the end. -/
theorem Reading.acknowledged {count done l : ℕ}
    (h : Reading id tid content offset length before done count m) (hl : w.readLimit = some l)
    (hpos : 0 < l) (hle : 0 < length → offset + length ≤ content.length) :
    (m.processMessage md5 w ⟨tid, .read statusSuccess id⟩).2 = .keep ∧
      if done < length then
        Reading id tid content offset length before (done + chunk (length - done) l) (count + 1)
          (m.processMessage md5 w ⟨tid, .read statusSuccess id⟩).1
      else Done id tid content offset length before count
        (m.processMessage md5 w ⟨tid, .read statusSuccess id⟩).1 := by
  have hlength := h.mReadLength
  have hstate := h.file.mState
  rw [processMessage_read md5 hstate h.mTransaction]
  unfold Machine.readResponse
  rw [if_neg (not_not.mpr h.mLastIo), if_neg (not_not.mpr h.mId), if_neg (not_not.mpr rfl)]
  by_cases hleft : done < length
  · have hread := h.read hl hpos hleft (hle (by omega))
    rw [if_pos (by omega), finish_opened hread.file.mState, if_pos hleft]
    exact ⟨rfl, hread⟩
  · have hall : done = length := by omega
    rw [if_neg (by omega), finish_opened (m := m.setIo .none) hstate, if_neg hleft]
    refine ⟨rfl, rfl, ?_, h.inOrder, hall ▸ h.payload, h.count⟩
    show m.obj.mReadLength = 0
    omega

theorem feed_of (id : U32) {p : Packet} (h : (m.processMessage md5 w p).2 = .keep) :
    (Slot.of m).feed md5 id (p, w) = .of (m.processMessage md5 w p).1 := settle_keep h

/-- **The run of a transfer.** Every acknowledgement brings one more frame,
but for the last. -/
theorem Reading.run {inputs : List (Packet × Outcome)} {done count : ℕ}
    (h : Reading id tid content offset length before done count m)
    (hle : 0 < length → offset + length ≤ content.length)
    (hinputs : ∀ i ∈ inputs, Admissible id tid i.1 ∧ Reads i.2)
    (hpending : Run.Throughout (Slot.feed md5 id) (fun s _ => Pending s) (.of m) inputs) :
    ∃ m', inputs.foldl (Slot.feed md5 id) (.of m) = .of m' ∧
      ((∃ done', Reading id tid content offset length before done'
          (count + acks id tid inputs) m') ∨
        ∃ c, c + 1 = count + acks id tid inputs ∧
          Done id tid content offset length before c m') := by
  induction inputs generalizing m done count with
  | nil => exact ⟨m, rfl, Or.inl ⟨done, h⟩⟩
  | cons i inputs ih =>
    obtain ⟨p, w⟩ := i
    obtain ⟨hadm, l, hl, hpos⟩ := hinputs (p, w) mem_cons_self
    have hrest := fun i hi => hinputs i (mem_cons_of_mem _ hi)
    by_cases hack : Acknowledges id tid p
    · have hacks : acks id tid ((p, w) :: inputs) = acks id tid inputs + 1 :=
        countP_cons_of_pos (by simpa using hack)
      obtain ⟨hkeep, hnext⟩ := h.acknowledged md5 hl hpos hle
      rw [← hack] at hkeep hnext
      have hfeed := feed_of md5 id hkeep
      have hlater := hpending.2
      rw [hfeed] at hlater
      rw [foldl_cons, hfeed, hacks]
      by_cases hleft : done < length
      · rw [if_pos hleft] at hnext
        obtain ⟨m', hm', hend⟩ := ih hnext hrest hlater
        refine ⟨m', hm', ?_⟩
        rw [show count + (acks id tid inputs + 1) = count + 1 + acks id tid inputs by omega]
        exact hend
      · -- nothing is pending any more, so nothing else is part of the transfer
        rw [if_neg hleft] at hnext
        cases inputs with
        | nil => exact ⟨_, rfl, Or.inr ⟨count, rfl, hnext⟩⟩
        | cons j inputs =>
          obtain ⟨⟨o, ho, hio⟩, -⟩ := hlater
          exact absurd (Option.some.inj ho ▸ hnext.mLastIo) hio
    · have hacks : acks id tid ((p, w) :: inputs) = acks id tid inputs :=
        countP_cons_of_neg (by simpa using hack)
      obtain ⟨hkeep, hsilent⟩ := processMessage_silent md5 (w := w) h.file.mState h.mLastIo
        (by rw [h.mId, h.mTransaction]; exact hadm) (by rw [h.mId, h.mTransaction]; exact hack)
      have hfeed := feed_of md5 id hkeep
      have hlater := hpending.2
      rw [hfeed] at hlater
      rw [foldl_cons, hfeed, hacks]
      exact ih (h.silent hsilent) hrest hlater

/-! ## The request -/

/-- A request reaches the transfer if the object takes it. -/
theorem processMessage_ioRequest {off len io : U32} (hs : m.obj.mState ≠ .closed)
    (hio : m.obj.mLastIo = .none) (htakes : Takes m.obj off len) :
    m.processMessage md5 w ⟨tid, .ioRequest m.obj.mId off len io⟩ =
      (m.setTransaction tid).ioRequest w tid off len io := by
  have hblocked : ¬ m.blocked ⟨tid, .ioRequest m.obj.mId off len io⟩ := fun hp => hp.1 hio
  have hwithin : m.obj.cls ≠ .rfsFile → (m.setTransaction tid).ioRequestWithin w tid off len io =
      (m.setTransaction tid).ioRequest w tid off len io := fun hcls =>
    if_neg (Nat.not_lt_of_le (htakes.2 hcls))
  have hid : ¬ (m.setTransaction tid).obj.mId ≠ m.obj.mId := not_not.mpr rfl
  refine (if_neg hblocked).trans ?_
  cases hcls : m.obj.cls with
  | rfsFile => exact (if_neg hs).trans (if_neg hid)
  | nvFile => exact (if_neg hs).trans ((if_neg hid).trans (hwithin (by simp [hcls])))
  | nvProtectedFile =>
    exact (if_neg hs).trans ((if_neg (htakes.1 hcls)).trans
      ((if_neg hid).trans (hwithin (by simp [hcls]))))

/-- And is refused otherwise. -/
theorem processMessage_ioRequest_refused {off len io : U32} (hs : m.obj.mState ≠ .closed)
    (hio : m.obj.mLastIo = .none) (htakes : ¬ Takes m.obj off len) :
    ∃ m' : Machine, m'.sent = m.sent ∧
      m.processMessage md5 w ⟨tid, .ioRequest m.obj.mId off len io⟩ = m'.refuse tid := by
  have hblocked : ¬ m.blocked ⟨tid, .ioRequest m.obj.mId off len io⟩ := fun hp => hp.1 hio
  have hid : ¬ (m.setTransaction tid).obj.mId ≠ m.obj.mId := not_not.mpr rfl
  have hwithin : ¬ (off + len).toNat ≤ m.obj.mSize →
      (m.setTransaction tid).ioRequestWithin w tid off len io = (m.setTransaction tid).refuse tid :=
    fun hsize => if_pos (Nat.lt_of_not_le hsize)
  unfold Takes at htakes
  cases hcls : m.obj.cls with
  | rfsFile => exact absurd ⟨by simp [hcls], by simp [hcls]⟩ htakes
  | nvFile =>
    refine ⟨m.setTransaction tid, rfl, (if_neg hblocked).trans ?_⟩
    rw [hcls]
    refine (if_neg hs).trans ((if_neg hid).trans (hwithin fun hsize => htakes ?_))
    exact ⟨by simp [hcls], fun _ => hsize⟩
  | nvProtectedFile =>
    by_cases hs' : m.obj.mState = .openedProtected
    · refine ⟨m, rfl, (if_neg hblocked).trans ?_⟩
      rw [hcls]
      exact (if_neg hs).trans (if_pos hs')
    · refine ⟨m.setTransaction tid, rfl, (if_neg hblocked).trans ?_⟩
      rw [hcls]
      refine (if_neg hs).trans ((if_neg hs').trans ((if_neg hid).trans
        (hwithin fun hsize => htakes ?_)))
      exact ⟨fun _ => hs', fun _ => hsize⟩

theorem toInt_nonneg_iff (offset : U32) : 0 ≤ offset.toInt ↔ offset.toNat < 2 ^ 31 := by
  rw [BitVec.toInt_eq_toNat_cond]
  split_ifs <;> omega

/-- **A request that is served** starts a transfer. -/
theorem Reading.aimed {off len : U32} (tid : BitVec 16) (hat : ∃ pos, At content pos m) :
    Reading m.obj.mId tid content off.toNat len.toNat m.sent.length 0 0
      (((m.setTransaction tid).aimRead off len).setIo .read) := by
  obtain ⟨pos, ⟨e, hfind, hcontent, -, hname⟩, hs⟩ := hat
  have hnone : framesOf ((((m.setTransaction tid).aimRead off len).setIo .read).sent.drop
      m.sent.length) = [] := congrArg framesOf drop_length
  refine ⟨⟨⟨_, System.find_seek hfind _, ?_, rfl, hname⟩, hs⟩, rfl, rfl, rfl, rfl, ?_,
    Nat.le_refl _, ?_, ?_, ?_⟩
  · rw [← hcontent]
    exact congrArg (Option.getD · []) (congrFun (System.files_seek _ _ _) e.name)
  · exact (Nat.mod_eq_of_lt off.isLt).symm
  · rw [hnone]
    trivial
  · rw [hnone]
    rfl
  · rw [hnone]
    rfl

theorem processMessage_readRequest {off len : U32} (hat : ∃ pos, At content pos m)
    (hio : m.obj.mLastIo = .none) (htakes : Takes m.obj off len) (hoff : off.toNat < 2 ^ 31) :
    m.processMessage md5 w ⟨tid, .ioRequest m.obj.mId off len ioRead⟩ =
      ((((m.setTransaction tid).aimRead off len).setIo .read).read w).finish := by
  obtain ⟨pos, ⟨e, hfind, -, -, -⟩, hs⟩ := hat
  have hseeks : (m.setTransaction tid).seeks off := by
    refine ⟨?_, (toInt_nonneg_iff off).mpr hoff⟩
    show (m.sys.find m.obj.mFd).isSome
    rw [hfind]
    rfl
  rw [processMessage_ioRequest md5 hs hio htakes]
  unfold Machine.ioRequest Machine.readRequest
  rw [if_pos rfl, if_pos hseeks]

/-- And sends the first frame, if there is anything to send. -/
theorem Reading.requested {off len : U32} {l : ℕ} (hat : ∃ pos, At content pos m)
    (hio : m.obj.mLastIo = .none) (htakes : Takes m.obj off len) (hoff : off.toNat < 2 ^ 31)
    (hl : w.readLimit = some l) (hpos : 0 < l) (hlen : 1 ≤ len.toNat)
    (hle : off.toNat + len.toNat ≤ content.length) :
    (m.processMessage md5 w ⟨tid, .ioRequest m.obj.mId off len ioRead⟩).2 = .keep ∧
      Reading m.obj.mId tid content off.toNat len.toNat m.sent.length (chunk len.toNat l) 1
        (m.processMessage md5 w ⟨tid, .ioRequest m.obj.mId off len ioRead⟩).1 := by
  have hread := (Reading.aimed tid hat).read hl hpos hlen hle
  rw [Nat.zero_add, Nat.sub_zero] at hread
  rw [processMessage_readRequest md5 hat hio htakes hoff, finish_opened hread.file.mState]
  exact ⟨rfl, hread⟩

/-- A request for nothing is answered by a status, and stays pending. -/
theorem Reading.requested_nothing {off len : U32} {l : ℕ} (hat : ∃ pos, At content pos m)
    (hio : m.obj.mLastIo = .none) (htakes : Takes m.obj off len) (hoff : off.toNat < 2 ^ 31)
    (hl : w.readLimit = some l) (hlen : len.toNat = 0) :
    (m.processMessage md5 w ⟨tid, .ioRequest m.obj.mId off len ioRead⟩).2 = .keep ∧
      Reading m.obj.mId tid content off.toNat len.toNat m.sent.length 0 0
        (m.processMessage md5 w ⟨tid, .ioRequest m.obj.mId off len ioRead⟩).1 := by
  have haimed : Reading m.obj.mId tid content off.toNat len.toNat m.sent.length 0 0 _ :=
    Reading.aimed tid hat
  have hread : Reading m.obj.mId tid content off.toNat len.toNat m.sent.length 0 0
      ((((m.setTransaction tid).aimRead off len).setIo .read).read w) := by
    obtain ⟨⟨e, hfind, hcontent, hpos, hname⟩, hs⟩ := haimed.file
    have hzero : min (((m.setTransaction tid).aimRead off len).setIo .read).obj.mReadLength
        framePayloadSize = 0 := by
      show min len.toNat framePayloadSize = 0
      rw [hlen]
      exact Nat.zero_min _
    have hnothing := System.read_eq hfind 0 l
    rw [Nat.zero_min, take_zero] at hnothing
    unfold Machine.read
    dsimp only
    rw [hzero, hl, hnothing]
    dsimp only [Option.getD_some]
    rw [if_pos rfl]
    have hlive : (((m.setTransaction tid).aimRead off len).setIo .read).sys.Live
        (((m.setTransaction tid).aimRead off len).setIo .read).obj.mFd := by
      rw [System.Live, hfind]
      rfl
    have hstatus : ∀ error, framesOf ((m.sent ++ [Message.status tid m.obj.mId error]).drop
        m.sent.length) = [] := by
      intro error
      rw [drop_left]
      rfl
    refine ⟨⟨⟨_, System.find_describe hlive _, hcontent, hpos, hname⟩, hs⟩, rfl, rfl, rfl, rfl,
      haimed.mReadOffset, ?_, ?_, ?_, ?_⟩
    · show m.sent.length ≤ (m.sent ++ [_]).length
      rw [length_append]
      exact Nat.le_add_right _ _
    · show InOrder _ _ _ _ (framesOf ((m.sent ++ [Message.status tid m.obj.mId _]).drop _))
      rw [hstatus]
      trivial
    · show Rfs.payload (framesOf ((m.sent ++ [Message.status tid m.obj.mId _]).drop _)) = _
      rw [hstatus]
      rfl
    · show (framesOf ((m.sent ++ [Message.status tid m.obj.mId _]).drop _)).length = 0
      rw [hstatus]
      rfl
  rw [processMessage_readRequest md5 hat hio htakes hoff, finish_opened hread.file.mState]
  exact ⟨rfl, hread⟩

/-- **A request that is not served** sends no frame. -/
theorem not_requested (id : U32) (tid : BitVec 16) {off len : U32} (hs : m.obj.mState ≠ .closed)
    (hio : m.obj.mLastIo = .none) (h : ¬ (Takes m.obj off len ∧ off.toNat < 2 ^ 31)) :
    framesOf (((Slot.of m).feed md5 id
      (⟨tid, .ioRequest m.obj.mId off len ioRead⟩, w)).sent.drop m.sent.length) = [] := by
  have hstatus : ∀ tid' file error,
      framesOf ((m.sent ++ [Message.status tid' file error]).drop m.sent.length) = [] := by
    intro tid' file error
    rw [drop_left]
    rfl
  by_cases htakes : Takes m.obj off len
  · have hseeks : ¬ (m.setTransaction tid).seeks off := fun hc =>
      h ⟨htakes, (toInt_nonneg_iff off).mp hc.2⟩
    have heq : m.processMessage md5 w ⟨tid, .ioRequest m.obj.mId off len ioRead⟩ =
        (((m.setTransaction tid).aimRead off len).status statusReadFail, .keep) := by
      rw [processMessage_ioRequest md5 hs hio htakes]
      unfold Machine.ioRequest Machine.readRequest
      rw [if_pos rfl, if_neg hseeks]
      exact finish_opened (m := ((m.setTransaction tid).aimRead off len).status _) hs
    rw [feed_of md5 id (by rw [heq]), heq]
    exact hstatus _ _ _
  · obtain ⟨m', hsent, heq⟩ :
        ∃ m' : Machine, m'.sent = m.sent ∧
          m.processMessage md5 w ⟨tid, .ioRequest m.obj.mId off len ioRead⟩ = m'.refuse tid :=
      processMessage_ioRequest_refused md5 hs hio htakes
    rw [feed_of md5 id (by rw [heq]; rfl), heq]
    show framesOf ((m'.sent ++ [_]).drop m.sent.length) = []
    rw [hsent]
    exact hstatus _ _ _

/-! ## Byte by byte -/

/-- The system gives one byte at a time. -/
def oneByte : Outcome := ⟨true, some 1, none, fun _ => 0⟩

/-- Acknowledgements of frames of one byte. -/
def singly (id : U32) (tid : BitVec 16) (n : ℕ) : List (Packet × Outcome) :=
  List.replicate n (⟨tid, .read statusSuccess id⟩, oneByte)

/-- A transfer byte by byte is pending until its last byte. -/
theorem Reading.singly {n done count : ℕ}
    (h : Reading id tid content offset length before done count m)
    (hle : offset + length ≤ content.length) (hn : done + n ≤ length) :
    Run.Throughout (Slot.feed md5 id) (fun s _ => Pending s) (.of m) (singly id tid n) ∧
      ∃ m', (Rfs.singly id tid n).foldl (Slot.feed md5 id) (.of m) = .of m' ∧
        Reading id tid content offset length before (done + n) (count + n) m' := by
  induction n generalizing m done count with
  | zero => exact ⟨trivial, m, rfl, h⟩
  | succ n ih =>
    obtain ⟨hkeep, hnext⟩ := h.acknowledged md5 (w := oneByte) rfl Nat.one_pos fun _ => hle
    have hone : chunk (length - done) 1 = 1 := by
      unfold chunk framePayloadSize
      omega
    rw [if_pos (by omega), hone] at hnext
    obtain ⟨hpending, m', hm', hend⟩ := ih hnext (by omega)
    have hfeed := feed_of md5 id hkeep
    refine ⟨⟨⟨m.obj, rfl, by simp [h.mLastIo]⟩, ?_⟩, m', ?_, ?_⟩
    · rw [hfeed]
      exact hpending
    · rw [show Rfs.singly id tid (n + 1) = _ :: Rfs.singly id tid n from rfl, foldl_cons, hfeed]
      exact hm'
    · rw [show done + (n + 1) = done + 1 + n by omega, show count + (n + 1) = count + 1 + n by omega]
      exact hend

/-- The last of so many frames of one byte each stands at the offset its
bytes have, as far as a `u32` goes. -/
theorem offset_of_singly {n : ℕ} {frames : List ReadFrame}
    (hexact : InOrder (fun a => a) id tid offset frames)
    (hwrapped : InOrder (· % 2 ^ 32) id tid offset frames) (hcount : frames.length = n + 1)
    (hpayload : (payload frames).length = n + 1) : offset + n = (offset + n) % 2 ^ 32 := by
  rcases eq_nil_or_concat' frames with rfl | ⟨rest, f, rfl⟩
  · exact absurd hcount (by simp)
  · rw [inOrder_append] at hexact hwrapped
    have hle := length_le_payload hexact.1
    have hpos := hexact.2.1.pos
    rw [payload_append, payload_singleton, length_append] at hpayload
    rw [length_append, length_singleton] at hcount
    have hn : (payload rest).length = n := by omega
    rw [hn] at hexact hwrapped
    exact hexact.2.2.symm.trans hwrapped.2.2

end Transfer

/-! ## Which requests are served -/

/-- **When a read gets the bytes.** For every object with its file open and
no command pending, every request inside the file, every way the system
splits it and every packet that may come in between: the transfer is as it
is to be exactly when the request is served. -/
theorem transfers_iff {s : Slot} {o : RfsFile} {e : Description Name} (h : Opened s o e)
    (tid : BitVec 16) {offset length : U32} (hlen : 1 ≤ length.toNat)
    (hle : offset.toNat + length.toNat ≤ (s.sys.content e).length) :
    Transfers md5 s o.mId (s.sys.content e) tid offset length ↔ Serves o offset length := by
  obtain ⟨m, rfl⟩ : ∃ m : Machine, s = .of m := ⟨⟨o, s.sys, s.sent⟩, by
    obtain ⟨file, sys, sent⟩ := s
    obtain rfl : file = some o := h.file
    rfl⟩
  obtain rfl : m.obj = o := Option.some.inj h.file
  have hat : ∃ pos, At (m.sys.content e) pos m :=
    ⟨e.pos, ⟨e, h.find, rfl, rfl, h.name⟩, h.mState⟩
  constructor
  · intro htransfers
    have hone : Reads oneByte := ⟨1, rfl, Nat.one_pos⟩
    by_cases hserved : Takes m.obj offset length ∧ offset.toNat < 2 ^ 31
    · obtain ⟨htakes, hoff⟩ := hserved
      refine ⟨htakes, hoff, Nat.le_of_not_lt fun hlong => ?_⟩
      -- byte by byte, up to the first offset that does not fit
      obtain ⟨hkeep, hread⟩ : _ ∧ Reading m.obj.mId tid (m.sys.content e) offset.toNat
          length.toNat m.sent.length (chunk length.toNat 1) 1 _ :=
        Reading.requested md5 (w := oneByte) hat h.mLastIo htakes hoff rfl Nat.one_pos hlen hle
      have hchunk : chunk length.toNat 1 = 1 := by
        unfold chunk framePayloadSize
        omega
      rw [hchunk] at hread
      obtain ⟨n, hn⟩ : ∃ n, offset.toNat + n = 2 ^ 32 := ⟨2 ^ 32 - offset.toNat, by omega⟩
      obtain ⟨hpending, m', hm', hend⟩ := hread.singly md5 hle (n := n) (by omega)
      have hfeed := feed_of md5 m.obj.mId hkeep
      obtain ⟨o', -, hexact, -⟩ := htransfers oneByte (singly m.obj.mId tid n) hone
        (fun i hi => by
          rw [eq_of_mem_replicate hi]
          exact ⟨fun _ _ => rfl, hone⟩) (hfeed ▸ hpending)
      rw [hfeed, hm'] at hexact
      have hcount := hend.count
      have hlength := congrArg List.length hend.payload
      rw [File.length_load, Nat.add_comm] at hlength
      have heq := offset_of_singly hexact hend.inOrder (hcount.trans (Nat.add_comm 1 n)) hlength
      rw [hn] at heq
      exact absurd heq (by decide)
    · obtain ⟨o', -, -, hend⟩ := htransfers oneByte [] hone (fun i hi => absurd hi (by simp))
        trivial
      have hnone := not_requested md5 m.obj.mId tid (w := oneByte) h.mState h.mLastIo hserved
      have hempty : if [].length = acks m.obj.mId tid [] then payload [] = File.load 0
          (m.sys.content e) offset.toNat length.toNat ∧ _ else _ := hnone ▸ hend
      have hall : ([] : List ReadFrame).length = acks m.obj.mId tid [] := rfl
      rw [if_pos hall] at hempty
      have hzero := congrArg List.length hempty.1
      rw [File.length_load] at hzero
      exact absurd (hzero ▸ hlen) (by simp [payload])
  · rintro ⟨htakes, hoff, hfits⟩ w inputs ⟨l, hl, hpos⟩ hinputs requested hpending
    obtain ⟨hkeep, hread⟩ : _ ∧ Reading m.obj.mId tid (m.sys.content e) offset.toNat
        length.toNat m.sent.length (chunk length.toNat l) 1 _ :=
      Reading.requested md5 hat h.mLastIo htakes hoff hl hpos hlen hle
    have hfeed : requested = _ := feed_of md5 m.obj.mId hkeep
    rw [hfeed] at hpending ⊢
    obtain ⟨m', hm', hend⟩ := hread.run md5 (fun _ => hle) hinputs hpending
    rw [hm']
    refine ⟨m'.obj, rfl, ?_⟩
    show InOrder _ _ _ _ (framesOf (m'.sent.drop m.sent.length)) ∧
      if (framesOf (m'.sent.drop m.sent.length)).length = acks m.obj.mId tid inputs then _ else _
    rw [Nat.add_comm] at hend
    rcases hend with ⟨done, hend⟩ | ⟨c, hc, hend⟩
    · have hdone : (payload (framesOf (m'.sent.drop m.sent.length))).length = done := by
        rw [hend.payload, File.length_load]
      have hlength := hend.mReadLength
      have hcount := hend.count
      have hle' := length_le_payload hend.inOrder
      refine ⟨hend.inOrder.unwrapped (by rw [hdone]; omega), ?_⟩
      rw [if_neg (by rw [hcount]; omega)]
      exact ⟨hend.mLastIo, hcount, by rw [hdone, hcount] at hle'; omega⟩
    · refine ⟨hend.inOrder.unwrapped (by rw [hend.payload, File.length_load]; exact hfits), ?_⟩
      rw [if_pos (hend.count.trans (Nat.succ.inj hc))]
      exact ⟨hend.payload, hend.mLastIo, hend.mReadLength⟩

/-- A read that, every frame acknowledged, brings the bytes. -/
def Returns (s : Slot) (id : U32) (tid : BitVec 16) (offset length : U32) (bytes : List BYTE) :
    Prop :=
  ∀ (w : Outcome) (inputs : List (Packet × Outcome)), Reads w →
    (∀ i ∈ inputs, Admissible id tid i.1 ∧ Reads i.2) →
    let requested := s.feed md5 id (⟨tid, .ioRequest id offset length ioRead⟩, w)
    Run.Throughout (Slot.feed md5 id) (fun s _ => Pending s) requested inputs →
    let sent := (inputs.foldl (Slot.feed md5 id) requested).sent
    (framesOf (sent.drop s.sent.length)).length = acks id tid inputs →
      payload (framesOf (sent.drop s.sent.length)) = bytes

/-- **The bytes come, whatever the offsets in the frames say.** -/
theorem returns_of_at {m : Machine} {content : List BYTE} (hat : ∃ pos, At content pos m)
    (hio : m.obj.mLastIo = .none) (tid : BitVec 16) {offset length : U32}
    (htakes : Takes m.obj offset length) (hoff : offset.toNat < 2 ^ 31)
    (hle : 0 < length.toNat → offset.toNat + length.toNat ≤ content.length) :
    Returns md5 (.of m) m.obj.mId tid offset length
      (File.load 0 content offset.toNat length.toNat) := by
  rintro w inputs ⟨l, hl, hpos⟩ hinputs requested hpending sent hall
  rcases Nat.eq_zero_or_pos length.toNat with hlen | hlen
  · obtain ⟨hkeep, hread⟩ : _ ∧ Reading m.obj.mId tid content offset.toNat
        length.toNat m.sent.length 0 0 _ :=
      Reading.requested_nothing md5 hat hio htakes hoff hl hlen
    have hfeed : requested = _ := feed_of md5 m.obj.mId hkeep
    rw [hfeed] at hpending
    obtain ⟨m', hm', hend⟩ := hread.run md5 hle hinputs hpending
    have hsent : sent = m'.sent := by
      show (inputs.foldl (Slot.feed md5 m.obj.mId) requested).sent = _
      rw [hfeed, hm']
      rfl
    rw [hsent]
    rcases hend with ⟨done, hend⟩ | ⟨c, -, hend⟩
    · have hdone := hend.mReadLength
      rw [show length.toNat = done by omega]
      exact hend.payload
    · exact hend.payload
  · obtain ⟨hkeep, hread⟩ : _ ∧ Reading m.obj.mId tid content offset.toNat
        length.toNat m.sent.length (chunk length.toNat l) 1 _ :=
      Reading.requested md5 hat hio htakes hoff hl hpos hlen (hle hlen)
    have hfeed : requested = _ := feed_of md5 m.obj.mId hkeep
    rw [hfeed] at hpending
    obtain ⟨m', hm', hend⟩ := hread.run md5 hle hinputs hpending
    have hsent : sent = m'.sent := by
      show (inputs.foldl (Slot.feed md5 m.obj.mId) requested).sent = _
      rw [hfeed, hm']
      rfl
    rw [hsent] at hall ⊢
    rcases hend with ⟨done, hend⟩ | ⟨c, -, hend⟩
    · have hcount := hend.count
      have hall' : (framesOf (m'.sent.drop m.sent.length)).length = _ := hall
      omega
    · exact hend.payload

/-- A file of three bytes, opened. -/
def threeBytes : Slot where
  file := some { allocFile 5 with mFd := some 0, mState := .opened }
  sys := ⟨fun _ => some [1, 2, 3], [⟨text "a", 0, false, true⟩], [], []⟩
  sent := []

/-- The last two bytes of it are served. -/
theorem transfers_threeBytes : Transfers (fun bytes => bytes) threeBytes 5 [1, 2, 3] 1 1 2 := by
  have hopened : Opened threeBytes { allocFile 5 with mFd := some 0, mState := .opened }
      ⟨text "a", 0, false, true⟩ := ⟨rfl, nofun, rfl, rfl, nofun⟩
  exact (transfers_iff (fun bytes => bytes) hopened 1 (by decide) (by decide)).mpr (by decide)

/-- The protected NV file, opened and confirmed. -/
def protectedOpened : Slot :=
  let w : Outcome := ⟨true, some 4, none, fun _ => 0⟩
  let s := Slot.start fun name => if name = nvFileName nvProtected then some [1, 2, 3] else none
  [.packet ⟨1, .openFile nvProtected (nvFileName nvProtected)⟩ w,
    .packet ⟨1, .opStatus statusSuccess nvProtected⟩ w].foldl
      (Slot.step (fun bytes => bytes) nvProtected) s

/-- **A file that was opened to be read is not read.** In its protected
state the object has no case for a request. -/
theorem not_transfers_protectedOpened :
    ∃ o e, Opened protectedOpened o e ∧ o.mId = nvProtected ∧
      protectedOpened.sys.content e = [1, 2, 3] ∧
      ¬ Transfers (fun bytes => bytes) protectedOpened nvProtected [1, 2, 3] 2 0 3 := by
  refine ⟨_, _, ⟨rfl, by decide, rfl, rfl, fun _ => rfl⟩, rfl, by decide, fun h => ?_⟩
  obtain ⟨o, -, -, hend⟩ := h oneByte [] ⟨1, rfl, Nat.one_pos⟩ (fun i hi => absurd hi (by simp))
    trivial
  exact absurd hend.1 (by decide)

end ExynosVendor.Rfs
